import AbilityRuntime.Library.SortedMap
import AbilityRuntime.Library.Runs

/-! The cache of extension ability records: a list of all cached records and one for each process,
with capacities and counters. `Record` stands for the record ids; what a request is matched by is
read when the request is made. -/

namespace AbilityRuntime
open List SortedMap Nat UInt32

abbrev AccessTokenId := Fin 4294967296

structure ProcRecordsInfo (Record : Type) where
  recList : List Record
  cnt : UInt32

/-- What `IsRecInfoSame` reads of a record: the module name of its ability info and the ability
name of its want. -/
structure RecordInfo where
  moduleName : String
  abilityName : String

structure CacheRequest where
  accessTokenId : AccessTokenId
  moduleName : String
  abilityName : String

structure AbilityCacheManager (Record : Type) where
  devLruCapacity : UInt32
  procLruCapacity : UInt32
  devLruCnt : UInt32
  procLruMap : SortedMap AccessTokenId (ProcRecordsInfo Record)
  devRecLru : List Record
  /-- A counter was decremented at zero. -/
  underflow : Bool
  /-- `front()` was taken of an empty list, which is undefined. -/
  emptyFront : Bool

namespace AbilityCacheManager
variable {Record : Type} [DecidableEq Record] (accessTokenId : Record → AccessTokenId)

def init (devCapacity procCapacity : UInt32) : AbilityCacheManager Record :=
  ⟨devCapacity, procCapacity, 0, SortedMap.empty, [], false, false⟩

variable (devCapacity procCapacity : ℕ) (s : AbilityCacheManager Record) (abilityRecord : Record)

def removeAbilityRecInDevList : AbilityCacheManager Record :=
  if abilityRecord ∈ s.devRecLru then
    { s with
      devRecLru := s.devRecLru.erase abilityRecord
      devLruCnt := s.devLruCnt - 1
      underflow := s.underflow || s.devLruCnt == 0 }
  else s

def removeAbilityRecInProcList : AbilityCacheManager Record :=
  match s.procLruMap.find? (accessTokenId abilityRecord) with
  | none => s
  | some info =>
    if abilityRecord ∈ info.recList then
      { s with
        procLruMap :=
          if info.cnt - 1 = 0 then s.procLruMap.erase (accessTokenId abilityRecord)
          else s.procLruMap.modify (accessTokenId abilityRecord) fun _ =>
            ⟨info.recList.erase abilityRecord, info.cnt - 1⟩
        underflow := s.underflow || info.cnt == 0 }
    else s

def addToProcLru : Option Record × AbilityCacheManager Record :=
  match s.procLruMap.find? (accessTokenId abilityRecord) with
  | none =>
    (none, { s with
      procLruMap := s.procLruMap.assign (accessTokenId abilityRecord) ⟨[abilityRecord], 1⟩ })
  | some info =>
    if info.cnt = s.procLruCapacity then
      match info.recList with
      | [] => (none, { s with emptyFront := true })
      | rec :: rest =>
        let s := s.removeAbilityRecInDevList rec
        (some rec, { s with
          procLruMap := s.procLruMap.modify (accessTokenId abilityRecord) fun _ =>
            ⟨rest ++ [abilityRecord], info.cnt⟩ })
    else
      (none, { s with
        procLruMap := s.procLruMap.modify (accessTokenId abilityRecord) fun _ =>
          ⟨info.recList ++ [abilityRecord], info.cnt + 1⟩ })

def pushDev : AbilityCacheManager Record :=
  { s with devRecLru := s.devRecLru ++ [abilityRecord], devLruCnt := s.devLruCnt + 1 }

def addToDevLru (rec : Option Record) : Option Record × AbilityCacheManager Record :=
  match rec with
  | some rec => (some rec, s.pushDev abilityRecord)
  | none =>
    if s.devLruCnt = s.devLruCapacity then
      match s.devRecLru with
      | [] => (none, { s with emptyFront := true })
      | rec :: rest =>
        let s := s.removeAbilityRecInProcList accessTokenId rec
        let s := { s with
          devRecLru := rest
          devLruCnt := s.devLruCnt - 1
          underflow := s.underflow || s.devLruCnt == 0 }
        (some rec, s.pushDev abilityRecord)
    else (none, s.pushDev abilityRecord)

def put : Option Record → Option Record × AbilityCacheManager Record
  | none => (none, s)
  | some abilityRecord =>
    let (rec, s) := s.addToProcLru accessTokenId abilityRecord
    s.addToDevLru accessTokenId abilityRecord rec

def remove : Option Record → AbilityCacheManager Record
  | none => s
  | some abilityRecord =>
    (s.removeAbilityRecInProcList accessTokenId abilityRecord).removeAbilityRecInDevList
      abilityRecord

variable (abilityRequest : CacheRequest)

def isRecInfoSame (info : RecordInfo) : Bool :=
  abilityRequest.moduleName == info.moduleName && abilityRequest.abilityName == info.abilityName

def getAbilityRecInProcList
    (info : Record → RecordInfo) : Option Record × AbilityCacheManager Record :=
  match s.procLruMap.find? abilityRequest.accessTokenId with
  | none => (none, s)
  | some procRecordsInfo =>
    match procRecordsInfo.recList.find? fun r => isRecInfoSame abilityRequest (info r) with
    | none => (none, s)
    | some abilityRecord =>
      -- the entry stays in the map also when its list has become empty
      (some abilityRecord, { s with
        procLruMap := s.procLruMap.modify abilityRequest.accessTokenId fun _ =>
          ⟨procRecordsInfo.recList.eraseP fun r => isRecInfoSame abilityRequest (info r),
            procRecordsInfo.cnt - 1⟩
        underflow := s.underflow || procRecordsInfo.cnt == 0 })

def get (info : Record → RecordInfo) : Option Record × AbilityCacheManager Record :=
  match s.getAbilityRecInProcList abilityRequest info with
  | (none, s) => (none, s)
  | (some abilityRecord, s) => (some abilityRecord, s.removeAbilityRecInDevList abilityRecord)

inductive Op (Record : Type)
  | put (abilityRecord : Option Record)
  | get (abilityRequest : CacheRequest) (info : Record → RecordInfo)
  | remove (abilityRecord : Option Record)

def Op.apply : Op Record → Option Record × AbilityCacheManager Record
  | .put abilityRecord => s.put accessTokenId abilityRecord
  | .get abilityRequest info => s.get abilityRequest info
  | .remove abilityRecord => (none, s.remove accessTokenId abilityRecord)

open Op

def step (s : List (Option Record) × AbilityCacheManager Record) (op : Op Record) :
    List (Option Record) × AbilityCacheManager Record :=
  let (answer, cache) := op.apply accessTokenId s.2
  (s.1 ++ [answer], cache)

def run (devCapacity procCapacity : UInt32) (ops : List (Op Record)) :
    List (Option Record) × AbilityCacheManager Record :=
  ops.foldl (step accessTokenId) ([], init devCapacity procCapacity)

def ofProcess (r : Record) : Record → Bool := fun r' => accessTokenId r' = accessTokenId r

def mayLeave (l : List Record) : Op Record → Record → Bool
  | .put none, _ => false
  | .put (some r), r' =>
    if l.countP (ofProcess accessTokenId r) = procCapacity then ofProcess accessTokenId r r'
    else l.length = devCapacity
  | .get request info, r' =>
    accessTokenId r' = request.accessTokenId && isRecInfoSame request (info r')
  | .remove none, _ => false
  | .remove (some r), r' => r' = r

def Op.record : Op Record → Option Record
  | .put r => r
  | _ => none

def Op.answer : Op Record → Option Record → Option Record
  | .remove _, _ => none
  | _, r => r

structure Turnover (Record : Type) where
  queue : List (Record × ℕ)
  left : List (Record × ℕ)
  puts : List Record
  answers : List (Option Record)

def Turnover.leaving (q : Turnover Record) (op : Op Record) : Option (Record × ℕ) :=
  q.queue.find? fun e =>
    mayLeave accessTokenId devCapacity procCapacity (q.queue.map Prod.fst) op e.1

def Turnover.step (q : Turnover Record) (op : Op Record) : Turnover Record :=
  let e := q.leaving accessTokenId devCapacity procCapacity op
  { queue := e.elim q.queue q.queue.erase ++ op.record.toList.map fun r => (r, q.puts.length)
    left := q.left ++ e.toList
    puts := q.puts ++ op.record.toList
    answers := q.answers ++ [op.answer (e.map Prod.fst)] }

def turnover (ops : List (Op Record)) : Turnover Record :=
  ops.foldl (Turnover.step accessTokenId devCapacity procCapacity) ⟨[], [], [], []⟩

def procList (t : AccessTokenId) : List Record :=
  ((s.procLruMap.find? t).map ProcRecordsInfo.recList).getD []

def IsOldest (p : Record → Bool) (queue : List (Record × ℕ)) (e : Record × ℕ) : Prop :=
  e ∈ queue ∧ p e.1 = true ∧ ∀ e' ∈ queue, p e'.1 = true → e.2 ≤ e'.2

def Victim (queue : List (Record × ℕ)) (r : Record) (answer : Option Record) : Prop :=
  if (s.procList (accessTokenId r)).length = s.procLruCapacity.toNat then
    ∃ e, IsOldest (ofProcess accessTokenId r) queue e ∧ answer = some e.1
  else if s.devRecLru.length = s.devLruCapacity.toNat then
    ∃ e, IsOldest (fun _ => true) queue e ∧ answer = some e.1
  else answer = none

structure Procs (capacity : UInt32) (m : SortedMap AccessTokenId (ProcRecordsInfo Record))
    (l : List Record) : Prop where
  recList : ∀ t info, m.find? t = some info → info.recList = l.filter fun r => accessTokenId r = t
  cnt : ∀ t info, m.find? t = some info → info.cnt.toNat = info.recList.length
  cnt_le : ∀ t info, m.find? t = some info → info.cnt ≤ capacity
  absent : ∀ t, m.find? t = none → l.filter (fun r => accessTokenId r = t) = []

structure Consistent (s : AbilityCacheManager Record) : Prop where
  devLruCnt : s.devLruCnt.toNat = s.devRecLru.length
  devLruCnt_le : s.devLruCnt ≤ s.devLruCapacity
  procs : Procs accessTokenId s.procLruCapacity s.procLruMap s.devRecLru
  underflow : s.underflow = false
  emptyFront : s.emptyFront = false

lemma toNat_sub_one {c : UInt32} {n : ℕ} (h : c.toNat = n + 1) : (c - 1).toNat = n := by
  have hle : 1 ≤ c := le_iff_toNat_le.mpr (by rw [h]; exact le_add_left 1 n)
  rw [UInt32.toNat_sub_of_le _ _ hle, h]
  rfl

lemma toNat_add_one {c d : UInt32} (h : c < d) : (c + 1).toNat = c.toNat + 1 := by
  have hlt : c.toNat < d.toNat := lt_iff_toNat_lt.mp h
  have hd : d.toNat < 2 ^ 32 := d.toNat_lt
  rw [UInt32.toNat_add]
  exact mod_eq_of_lt (by rw [toNat_one]; omega)

structure Effect (s : AbilityCacheManager Record) (op : Op Record) (v : Option Record)
    (s' : AbilityCacheManager Record) : Prop where
  apply : op.apply accessTokenId s = (op.answer v, s')
  consistent : Consistent accessTokenId s'
  devRecLru : s'.devRecLru = v.elim s.devRecLru s.devRecLru.erase ++ op.record.toList
  devLruCapacity : s'.devLruCapacity = s.devLruCapacity
  procLruCapacity : s'.procLruCapacity = s.procLruCapacity

section Update
variable {accessTokenId} {capacity : UInt32} {s : AbilityCacheManager Record}
  {m m' : SortedMap AccessTokenId (ProcRecordsInfo Record)} {l l' : List Record}

omit [DecidableEq Record] in
lemma Procs.replace (h : Procs accessTokenId capacity m l) {t : AccessTokenId}
    (v : Option (ProcRecordsInfo Record))
    (hm : ∀ t', m'.find? t' = if t = t' then v else m.find? t')
    (hl : ∀ t', t ≠ t' →
      l'.filter (fun r => accessTokenId r = t') = l.filter fun r => accessTokenId r = t')
    (hv : ∀ info, v = some info → info.recList = l'.filter (fun r => accessTokenId r = t) ∧
      info.cnt.toNat = info.recList.length ∧ info.cnt ≤ capacity)
    (hnone : v = none → l'.filter (fun r => accessTokenId r = t) = []) :
    Procs accessTokenId capacity m' l' := by
  have hinfo : ∀ t' info, m'.find? t' = some info →
      info.recList = l'.filter (fun r => accessTokenId r = t') ∧
        info.cnt.toNat = info.recList.length ∧ info.cnt ≤ capacity := by
    intro t' info hinfo
    rw [hm] at hinfo
    split_ifs at hinfo with htt
    · exact htt ▸ hv info hinfo
    · rw [hl t' htt]
      exact ⟨h.recList t' info hinfo, h.cnt t' info hinfo, h.cnt_le t' info hinfo⟩
  refine ⟨fun t' info h' => (hinfo t' info h').1, fun t' info h' => (hinfo t' info h').2.1,
    fun t' info h' => (hinfo t' info h').2.2, fun t' hnot => ?_⟩
  rw [hm] at hnot
  split_ifs at hnot with htt
  · exact htt ▸ hnone hnot
  · rw [hl t' htt]
    exact h.absent t' hnot

variable (l)

omit [DecidableEq Record] in
lemma filter_append_other {r : Record} {t : AccessTokenId} (ht : accessTokenId r ≠ t) :
    (l ++ [r]).filter (fun x => accessTokenId x = t) = l.filter fun x => accessTokenId x = t := by
  simp [filter_append, ht]

omit [DecidableEq Record] in
lemma filter_append_own (r : Record) :
    (l ++ [r]).filter (fun x => accessTokenId x = accessTokenId r) =
      l.filter (fun x => accessTokenId x = accessTokenId r) ++ [r] := by
  simp [filter_append]

lemma filter_erase_other {r : Record} {t : AccessTokenId} (ht : accessTokenId r ≠ t) :
    (l.erase r).filter (fun x => accessTokenId x = t) = l.filter fun x => accessTokenId x = t := by
  rw [← erase_filter, erase_of_not_mem (by simp [ht])]

variable {l}

lemma Procs.erase (h : Procs accessTokenId capacity m l) {r : Record}
    {info : ProcRecordsInfo Record} (hinfo : m.find? (accessTokenId r) = some info)
    (hr : r ∈ info.recList) {v : Option (ProcRecordsInfo Record)}
    (hm : ∀ t', m'.find? t' = if accessTokenId r = t' then v else m.find? t')
    (hv : v = some ⟨info.recList.erase r, info.cnt - 1⟩ ∨ v = none ∧ info.cnt - 1 = 0) :
    Procs accessTokenId capacity m' (l.erase r) := by
  obtain ⟨n, hn⟩ : ∃ n, info.recList.length = n + 1 := exists_eq_add_one.mpr (length_pos_of_mem hr)
  have hcnt : (info.cnt - 1).toNat = n := toNat_sub_one (by rw [h.cnt _ info hinfo, hn])
  have hlength : (info.recList.erase r).length = n := by
    rw [length_erase_of_mem hr, hn, Nat.add_sub_cancel]
  have hown : (l.erase r).filter (fun x => accessTokenId x = accessTokenId r) =
      info.recList.erase r := by
    rw [← erase_filter, h.recList _ info hinfo]
  refine h.replace v hm (fun t' ht => filter_erase_other l ht) ?_ ?_
  · rintro info' rfl
    rcases hv with ⟨⟨⟩⟩ | ⟨hv, -⟩
    · refine ⟨hown.symm, by rw [hcnt, hlength], ?_⟩
      have hle := le_iff_toNat_le.mp (h.cnt_le _ info hinfo)
      rw [h.cnt _ info hinfo] at hle
      exact le_iff_toNat_le.mpr (by rw [hcnt]; omega)
    · cases hv
  · rintro rfl
    rcases hv with hv | ⟨-, hzero⟩
    · cases hv
    · rw [hzero, UInt32.toNat_zero] at hcnt
      rw [hown]
      exact length_eq_zero_iff.mp (by rw [hlength, ← hcnt])

lemma beq_zero_of_toNat {c : UInt32} {n : ℕ} (h : c.toNat = n) (hn : 0 < n) : (c == 0) = false := by
  rw [beq_eq_false_iff_ne]
  rintro rfl
  rw [UInt32.toNat_zero] at h
  omega

lemma removeAbilityRecInProcList_spec (h : Procs accessTokenId capacity s.procLruMap l)
    (r : Record) :
    ∃ m, s.removeAbilityRecInProcList accessTokenId r = { s with procLruMap := m } ∧
      Procs accessTokenId capacity m (l.erase r) := by
  rw [removeAbilityRecInProcList]
  cases hfind : s.procLruMap.find? (accessTokenId r) with
  | none =>
    have hr : r ∉ l := fun hr => not_mem_nil (h.absent _ hfind ▸ mem_filter.mpr ⟨hr, by simp⟩)
    exact ⟨s.procLruMap, rfl, by rwa [erase_of_not_mem hr]⟩
  | some info =>
    by_cases hr : r ∈ info.recList
    · simp only [if_pos hr]
      have hcnt : (info.cnt == 0) = false :=
        beq_zero_of_toNat (h.cnt _ info hfind) (length_pos_of_mem hr)
      refine ⟨_, by rw [hcnt, Bool.or_false], ?_⟩
      split_ifs with hzero
      · exact h.erase hfind hr (s.procLruMap.find?_erase _) (.inr ⟨rfl, hzero⟩)
      · exact h.erase hfind hr (find?_modify_of_find? hfind _) (.inl rfl)
    · simp only [if_neg hr]
      have hl : r ∉ l := fun hl => hr (by
        rw [h.recList _ info hfind]
        exact mem_filter.mpr ⟨hl, by simp⟩)
      exact ⟨s.procLruMap, rfl, by rwa [erase_of_not_mem hl]⟩

lemma removeAbilityRecInDevList_spec (h : s.devLruCnt.toNat = s.devRecLru.length) (r : Record) :
    ∃ c : UInt32, s.removeAbilityRecInDevList r =
        { s with devRecLru := s.devRecLru.erase r, devLruCnt := c } ∧
      c.toNat = (s.devRecLru.erase r).length := by
  rw [removeAbilityRecInDevList]
  split_ifs with hr
  · obtain ⟨n, hn⟩ : ∃ n, s.devRecLru.length = n + 1 := exists_eq_add_one.mpr (length_pos_of_mem hr)
    have hcnt : (s.devLruCnt == 0) = false := beq_zero_of_toNat h (length_pos_of_mem hr)
    refine ⟨s.devLruCnt - 1, by rw [hcnt, Bool.or_false], ?_⟩
    rw [toNat_sub_one (by rw [h, hn]), length_erase_of_mem hr, hn, Nat.add_sub_cancel]
  · exact ⟨s.devLruCnt, by rw [erase_of_not_mem hr], by rw [erase_of_not_mem hr, h]⟩

omit [DecidableEq Record] in
lemma length_recList (h : Procs accessTokenId capacity s.procLruMap l) {r : Record}
    {info : ProcRecordsInfo Record}
    (hinfo : s.procLruMap.find? (accessTokenId r) = some info) :
    info.cnt.toNat = l.countP (ofProcess accessTokenId r) := by
  rw [h.cnt _ info hinfo, h.recList _ info hinfo, countP_eq_length_filter]
  rfl

lemma addToProcLru_full (hcap : 0 < s.procLruCapacity.toNat)
    (h : Procs accessTokenId s.procLruCapacity s.procLruMap s.devRecLru)
    (hcnt : s.devLruCnt.toNat = s.devRecLru.length) {r : Record}
    (hfull : s.devRecLru.countP (ofProcess accessTokenId r) = s.procLruCapacity.toNat) :
    ∃ v m c, s.devRecLru.find? (ofProcess accessTokenId r) = some v ∧
      s.addToProcLru accessTokenId r = (some v,
        { s with procLruMap := m, devRecLru := s.devRecLru.erase v, devLruCnt := c }) ∧
      Procs accessTokenId s.procLruCapacity m (s.devRecLru.erase v ++ [r]) ∧
      c.toNat = (s.devRecLru.erase v).length := by
  rw [addToProcLru]
  cases hfind : s.procLruMap.find? (accessTokenId r) with
  | none =>
    have hempty := h.absent _ hfind
    rw [countP_eq_length_filter] at hfull
    change (s.devRecLru.filter fun x => accessTokenId x = accessTokenId r).length = _ at hfull
    rw [hempty] at hfull
    exact absurd hfull hcap.ne
  | some info =>
    have hinfo : info.cnt = s.procLruCapacity :=
      UInt32.toNat_inj.mp (by rw [length_recList h hfind, hfull])
    have hlist := h.recList _ info hfind
    obtain ⟨recList, cnt⟩ := info
    obtain rfl : cnt = s.procLruCapacity := hinfo
    have hlength := h.cnt _ _ hfind
    cases recList with
    | nil => exact absurd hlength hcap.ne'
    | cons v rest =>
      obtain ⟨c, hremove, hc⟩ := removeAbilityRecInDevList_spec hcnt v
      have hhead : s.devRecLru.find? (ofProcess accessTokenId r) = some v := by
        rw [← head?_filter]
        exact congrArg List.head? hlist.symm
      have hv : accessTokenId v = accessTokenId r := by
        simpa [ofProcess] using find?_some hhead
      simp only [hremove]
      refine ⟨v, _, c, hhead, rfl, ?_, hc⟩
      refine h.replace (some ⟨rest ++ [r], s.procLruCapacity⟩)
        (find?_modify_of_find? hfind _) (fun t' ht => ?_) ?_ nofun
      · rw [filter_append_other _ ht, filter_erase_other _ (hv ▸ ht)]
      · rintro _ ⟨⟩
        refine ⟨?_, ?_, UInt32.le_refl _⟩
        · rw [filter_append_own, ← erase_filter, ← hlist, erase_cons_head]
        · rw [hlength, length_append]
          rfl

lemma addToProcLru_room (hcap : 0 < s.procLruCapacity.toNat)
    (h : Procs accessTokenId s.procLruCapacity s.procLruMap l) {r : Record}
    (hroom : l.countP (ofProcess accessTokenId r) ≠ s.procLruCapacity.toNat) :
    ∃ m, s.addToProcLru accessTokenId r = (none, { s with procLruMap := m }) ∧
      Procs accessTokenId s.procLruCapacity m (l ++ [r]) := by
  rw [addToProcLru]
  cases hfind : s.procLruMap.find? (accessTokenId r) with
  | none =>
    refine ⟨_, rfl, h.replace (some ⟨[r], 1⟩)
      (fun t' => find?_assign _ _ t' _) (fun t' ht => filter_append_other _ ht) ?_ nofun⟩
    rintro _ ⟨⟩
    refine ⟨?_, rfl, le_iff_toNat_le.mpr hcap⟩
    rw [filter_append_own, h.absent _ hfind]
    rfl
  | some info =>
    have hne : info.cnt ≠ s.procLruCapacity := by
      intro heq
      rw [← length_recList h hfind, heq] at hroom
      exact hroom rfl
    have hlt : info.cnt < s.procLruCapacity := UInt32.lt_of_le_of_ne (h.cnt_le _ info hfind) hne
    simp only [if_neg hne]
    refine ⟨_, rfl, h.replace (some ⟨info.recList ++ [r], info.cnt + 1⟩)
      (find?_modify_of_find? hfind _) (fun t' ht => filter_append_other _ ht) ?_ nofun⟩
    rintro _ ⟨⟩
    refine ⟨?_, ?_, ?_⟩
    · rw [filter_append_own, h.recList _ info hfind]
    · rw [toNat_add_one hlt, h.cnt _ info hfind, length_append]
      rfl
    · rw [le_iff_toNat_le, toNat_add_one hlt]
      exact lt_iff_toNat_lt.mp hlt

omit [DecidableEq Record] in
lemma pushDev_spec (hcnt : s.devLruCnt.toNat = s.devRecLru.length)
    (hlt : s.devLruCnt < s.devLruCapacity) {r : Record}
    (h : Procs accessTokenId s.procLruCapacity s.procLruMap (s.devRecLru ++ [r]))
    (hunderflow : s.underflow = false) (hfront : s.emptyFront = false) :
    Consistent accessTokenId (s.pushDev r) := by
  refine ⟨?_, ?_, h, hunderflow, hfront⟩
  · change (s.devLruCnt + 1).toNat = (s.devRecLru ++ [r]).length
    rw [toNat_add_one hlt, hcnt, length_append]
    rfl
  · change s.devLruCnt + 1 ≤ s.devLruCapacity
    rw [le_iff_toNat_le, toNat_add_one hlt]
    exact lt_iff_toNat_lt.mp hlt

omit [DecidableEq Record] in
lemma Consistent.devLruCnt_lt (h : Consistent accessTokenId s)
    (hne : s.devRecLru.length ≠ s.devLruCapacity.toNat) : s.devLruCnt < s.devLruCapacity := by
  refine UInt32.lt_of_le_of_ne h.devLruCnt_le fun heq => hne ?_
  rw [← h.devLruCnt, heq]

section
variable (h : Consistent accessTokenId s)
include h

omit [DecidableEq Record] in
lemma Consistent.length_le : s.devRecLru.length ≤ s.devLruCapacity.toNat := by
  rw [← h.devLruCnt]
  exact le_iff_toNat_le.mp h.devLruCnt_le

lemma Consistent.removeInDevList {r : Record}
    (hprocs : Procs accessTokenId s.procLruCapacity m (s.devRecLru.erase r)) :
    ∃ s', removeAbilityRecInDevList { s with procLruMap := m } r = s' ∧
      Consistent accessTokenId s' ∧ s'.devRecLru = s.devRecLru.erase r ∧
      s'.devLruCapacity = s.devLruCapacity ∧ s'.procLruCapacity = s.procLruCapacity := by
  obtain ⟨c, hdev, hc⟩ :=
    removeAbilityRecInDevList_spec (s := { s with procLruMap := m }) h.devLruCnt r
  refine ⟨_, hdev, ⟨hc, ?_, hprocs, h.underflow, h.emptyFront⟩, rfl, rfl, rfl⟩
  rw [le_iff_toNat_le, hc]
  exact length_erase_le.trans h.length_le

section
variable (hproc : 0 < s.procLruCapacity.toNat)
include hproc

lemma effect_put_full {r : Record} (hfull : s.devRecLru.countP (ofProcess accessTokenId r) =
      s.procLruCapacity.toNat) :
    ∃ s', Effect accessTokenId s (.put (some r))
      (s.devRecLru.find? (ofProcess accessTokenId r)) s' := by
  obtain ⟨v, m, c, hv, hadd, hprocs, hc⟩ := addToProcLru_full hproc h.procs h.devLruCnt hfull
  rw [hv]
  have hlt : c < s.devLruCapacity := by
    have hlength := length_erase_of_mem (mem_of_find?_eq_some hv)
    have hpos := length_pos_of_mem (mem_of_find?_eq_some hv)
    have hle := h.length_le
    exact lt_iff_toNat_lt.mpr (by omega)
  refine ⟨_, ?_, pushDev_spec (s := { s with
      procLruMap := m, devRecLru := s.devRecLru.erase v, devLruCnt := c })
    hc hlt hprocs h.underflow h.emptyFront, rfl, rfl, rfl⟩
  rw [apply, put, hadd]
  rfl

lemma effect_put_room
    {r : Record} (hroom : s.devRecLru.countP (ofProcess accessTokenId r) ≠ s.procLruCapacity.toNat)
    (hdev : s.devRecLru.length ≠ s.devLruCapacity.toNat) :
    ∃ s', Effect accessTokenId s (.put (some r)) none s' := by
  obtain ⟨m, hadd, hprocs⟩ := addToProcLru_room hproc h.procs hroom
  have hlt := h.devLruCnt_lt hdev
  refine ⟨_, ?_, pushDev_spec (s := { s with procLruMap := m }) h.devLruCnt hlt hprocs h.underflow
    h.emptyFront, rfl, rfl, rfl⟩
  rw [apply, put, hadd]
  exact if_neg (UInt32.ne_of_lt hlt)

lemma effect_put_device (hpos : 0 < s.devLruCapacity.toNat) {r : Record}
    (hroom : s.devRecLru.countP (ofProcess accessTokenId r) ≠ s.procLruCapacity.toNat)
    (hdev : s.devRecLru.length = s.devLruCapacity.toNat) :
    ∃ s', Effect accessTokenId s (.put (some r)) s.devRecLru.head? s' := by
  obtain ⟨m, hadd, hprocs⟩ := addToProcLru_room hproc h.procs hroom
  cases hlist : s.devRecLru with
  | nil =>
    rw [hlist] at hdev
    exact absurd hdev hpos.ne
  | cons v rest =>
    rw [hlist, cons_append] at hprocs
    obtain ⟨m', hremove, hprocs'⟩ :=
      removeAbilityRecInProcList_spec (s := { s with procLruMap := m }) hprocs v
    rw [erase_cons_head] at hprocs'
    have hcnt : s.devLruCnt.toNat = rest.length + 1 := by rw [h.devLruCnt, hlist]; rfl
    have hlt : s.devLruCnt - 1 < s.devLruCapacity := by
      rw [hlist, length_cons] at hdev
      exact lt_iff_toNat_lt.mpr (by rw [toNat_sub_one hcnt]; omega)
    have hzero : (s.devLruCnt == 0) = false := beq_zero_of_toNat hcnt (succ_pos _)
    refine ⟨_, ?_, pushDev_spec (s := { s with
        procLruMap := m', devRecLru := rest, devLruCnt := s.devLruCnt - 1 })
      (toNat_sub_one hcnt) hlt hprocs' h.underflow h.emptyFront, ?_, rfl, rfl⟩
    · rw [apply, put, hadd]
      change addToDevLru _ _ _ none = _
      rw [addToDevLru]
      have heq : s.devLruCnt = s.devLruCapacity := UInt32.toNat_inj.mp (by rw [h.devLruCnt, hdev])
      rw [hlist] at hremove
      simp only [if_pos heq, hlist, hremove, hzero, Bool.or_false]
      rfl
    · rw [hlist]
      simp [pushDev, record]

end

lemma effect_remove (r : Record) :
    ∃ s', Effect accessTokenId s (.remove (some r)) (s.devRecLru.find? fun r' => r' = r) s' := by
  obtain ⟨m, hremove, hprocs⟩ := removeAbilityRecInProcList_spec h.procs r
  obtain ⟨s', hdev, hcons, hlist, hcap⟩ := h.removeInDevList hprocs
  refine ⟨s', ?_, hcons, ?_, hcap.1, hcap.2⟩
  · rw [apply, remove, hremove, hdev]
    rfl
  · rw [hlist]
    cases hfind : s.devRecLru.find? fun r' => r' = r with
    | none =>
      have hr : r ∉ s.devRecLru := fun hr => find?_eq_none.mp hfind r hr (by simp)
      simp [erase_of_not_mem hr, record]
    | some r' =>
      obtain rfl : r' = r := by simpa using find?_some hfind
      simp [record]

end

omit [DecidableEq Record] in
lemma eraseP_eq_erase [BEq Record] [LawfulBEq Record] {p : Record → Bool} {v : Record}
    (h : l.find? p = some v) : l.eraseP p = l.erase v := by
  induction l with
  | nil => cases h
  | cons a l ih =>
    by_cases ha : p a = true
    · rw [find?_cons_of_pos ha, Option.some.injEq] at h
      rw [eraseP_cons_of_pos ha, h, erase_cons_head]
    · rw [find?_cons_of_neg ha] at h
      have hne : a ≠ v := by
        rintro rfl
        exact ha (find?_some h)
      rw [eraseP_cons_of_neg ha, erase_cons_tail (by simpa using hne), ih h]

lemma effect_get (h : Consistent accessTokenId s) (request : CacheRequest)
    (info : Record → RecordInfo) :
    ∃ s', Effect accessTokenId s (.get request info) (s.devRecLru.find? fun r =>
      accessTokenId r = request.accessTokenId && isRecInfoSame request (info r)) s' := by
  have hfilter : s.devRecLru.find? (fun r =>
      accessTokenId r = request.accessTokenId && isRecInfoSame request (info r)) =
      (s.devRecLru.filter fun r => accessTokenId r = request.accessTokenId).find? fun r =>
        isRecInfoSame request (info r) := by
    simp
  rw [hfilter]
  cases hmap : s.procLruMap.find? request.accessTokenId with
  | none =>
    rw [h.procs.absent _ hmap]
    refine ⟨s, ?_, h, by simp [record], rfl, rfl⟩
    rw [apply, get, getAbilityRecInProcList, hmap]
    rfl
  | some procInfo =>
    rw [← h.procs.recList _ _ hmap]
    cases hfind : procInfo.recList.find? fun r => isRecInfoSame request (info r) with
    | none =>
      refine ⟨s, ?_, h, by simp [record], rfl, rfl⟩
      rw [apply, get, getAbilityRecInProcList, hmap]
      simp only [hfind]
      rfl
    | some v =>
      have hmem : v ∈ procInfo.recList := mem_of_find?_eq_some hfind
      have hv : accessTokenId v = request.accessTokenId := by
        rw [h.procs.recList _ _ hmap] at hmem
        simpa using (mem_filter.mp hmem).2
      rw [← hv] at hmap
      have hprocs := h.procs.erase hmap hmem (find?_modify_of_find? hmap fun _ =>
        ⟨procInfo.recList.erase v, procInfo.cnt - 1⟩) (.inl rfl)
      have hzero : (procInfo.cnt == 0) = false :=
        beq_zero_of_toNat (h.procs.cnt _ _ hmap) (length_pos_of_mem hmem)
      obtain ⟨s', hdev, hcons, hlist, hcap⟩ := h.removeInDevList hprocs
      refine ⟨s', ?_, hcons, by simp [record, hlist], hcap.1, hcap.2⟩
      rw [apply, get, getAbilityRecInProcList, ← hv, hmap]
      simp only [hfind, hzero, Bool.or_false, eraseP_eq_erase hfind, hdev]
      rfl

lemma mayLeave_put_full {dev proc : ℕ} {r : Record}
    (hfull : l.countP (ofProcess accessTokenId r) = proc) :
    mayLeave accessTokenId dev proc l (.put (some r)) = ofProcess accessTokenId r := by
  funext r'
  rw [mayLeave, if_pos hfull]

lemma mayLeave_put_room {dev proc : ℕ} {r : Record}
    (hroom : l.countP (ofProcess accessTokenId r) ≠ proc) :
    mayLeave accessTokenId dev proc l (.put (some r)) = fun _ => decide (l.length = dev) := by
  funext r'
  rw [mayLeave, if_neg hroom]

lemma effect_apply (h : Consistent accessTokenId s) (hdev : 0 < s.devLruCapacity.toNat)
    (hproc : 0 < s.procLruCapacity.toNat) (op : Op Record) :
    ∃ s', Effect accessTokenId s op (s.devRecLru.find? (mayLeave accessTokenId
      s.devLruCapacity.toNat s.procLruCapacity.toNat s.devRecLru op)) s' := by
  have hnull : s.devRecLru.find? (fun _ => false) = none := find?_eq_none.mpr fun _ _ => by simp
  cases op with
  | put r =>
    cases r with
    | none =>
      refine ⟨s, ?_, h, ?_, rfl, rfl⟩
      · exact congrArg (·, s) hnull.symm
      · rw [show mayLeave _ _ _ _ (.put none) = fun _ => false from rfl, hnull]
        simp [record]
    | some r =>
      by_cases hfull : s.devRecLru.countP (ofProcess accessTokenId r) = s.procLruCapacity.toNat
      · rw [mayLeave_put_full hfull]
        exact effect_put_full h hproc hfull
      · rw [mayLeave_put_room hfull]
        by_cases hlength : s.devRecLru.length = s.devLruCapacity.toNat
        · have hhead : s.devRecLru.find? (fun _ => true) = s.devRecLru.head? := by
            cases s.devRecLru <;> rfl
          rw [decide_eq_true hlength, hhead]
          exact effect_put_device h hproc hdev hfull hlength
        · rw [decide_eq_false hlength, hnull]
          exact effect_put_room h hproc hfull hlength
  | get request info => exact effect_get h request info
  | remove r =>
    cases r with
    | none =>
      refine ⟨s, rfl, h, ?_, rfl, rfl⟩
      rw [show mayLeave _ _ _ _ (.remove none) = fun _ => false from rfl, hnull]
      simp [record]
    | some r => exact effect_remove h r

end Update

structure Tracks (devCapacity procCapacity : UInt32)
    (s : List (Option Record) × AbilityCacheManager Record) (q : Turnover Record) : Prop where
  consistent : Consistent accessTokenId s.2
  devLruCapacity : s.2.devLruCapacity = devCapacity
  procLruCapacity : s.2.procLruCapacity = procCapacity
  devRecLru : s.2.devRecLru = q.queue.map Prod.fst
  answers : s.1 = q.answers
  ordered : q.queue.Pairwise fun e e' => e.2 < e'.2
  once : (q.queue ++ q.left).Perm q.puts.zipIdx

lemma map_erase_find? {p : Record → Bool} {queue : List (Record × ℕ)} {e : Record × ℕ}
    (h : queue.find? (fun e => p e.1) = some e) :
    (queue.erase e).map Prod.fst = (queue.map Prod.fst).erase e.1 := by
  have hfirst : (queue.map Prod.fst).find? p = some e.1 := by
    rw [find?_map]
    exact congrArg _ h
  rw [← eraseP_eq_erase h, ← eraseP_eq_erase hfirst, eraseP_map]
  rfl

section Tracking
variable {accessTokenId} {devCapacity procCapacity : UInt32}
  {s : List (Option Record) × AbilityCacheManager Record} {q : Turnover Record}

lemma perm_elim_erase {queue : List (Record × ℕ)} {e : Option (Record × ℕ)}
    (he : ∀ x, e = some x → x ∈ queue) : (e.elim queue queue.erase ++ e.toList).Perm queue := by
  cases e with
  | none => simp
  | some x =>
    have hx := perm_cons_erase (he x rfl)
    exact (perm_append_singleton x _).trans hx.symm

protected lemma Tracks.step (hdev : 0 < devCapacity.toNat) (hproc : 0 < procCapacity.toNat)
    (h : Tracks accessTokenId devCapacity procCapacity s q) (op : Op Record) :
    Tracks accessTokenId devCapacity procCapacity (step accessTokenId s op)
      (q.step accessTokenId devCapacity.toNat procCapacity.toNat op) := by
  obtain ⟨e, he⟩ : ∃ e, q.leaving accessTokenId devCapacity.toNat procCapacity.toNat op = e :=
    ⟨_, rfl⟩
  obtain ⟨s', heffect⟩ := effect_apply h.consistent (h.devLruCapacity ▸ hdev)
    (h.procLruCapacity ▸ hproc) op
  rw [h.devLruCapacity, h.procLruCapacity, h.devRecLru, find?_map] at heffect
  change Effect accessTokenId s.2 op (Option.map Prod.fst
    (q.leaving accessTokenId devCapacity.toNat procCapacity.toNat op)) s' at heffect
  rw [he] at heffect
  have hmem : ∀ x, e = some x → x ∈ q.queue := by
    rintro x rfl
    exact mem_of_find?_eq_some he
  have hperm := perm_elim_erase hmem
  have hqueue : (e.elim q.queue q.queue.erase).map Prod.fst =
      (e.map Prod.fst).elim s.2.devRecLru s.2.devRecLru.erase := by
    rw [h.devRecLru]
    cases e with
    | none => rfl
    | some x => exact map_erase_find? he
  have hsub : (e.elim q.queue q.queue.erase).Sublist q.queue := by
    cases e with
    | none => exact .refl _
    | some x => exact erase_sublist
  have hstep : step accessTokenId s op =
      (s.1 ++ [op.answer (e.map Prod.fst)], s') := by
    rw [step, heffect.apply]
  rw [hstep, Turnover.step, he]
  refine ⟨heffect.consistent, heffect.devLruCapacity.trans h.devLruCapacity,
    heffect.procLruCapacity.trans h.procLruCapacity, ?_, ?_, ?_, ?_⟩
  · rw [heffect.devRecLru, ← hqueue, map_append, map_map]
    congr 1
    exact (map_id _).symm
  · rw [h.answers]
  · refine pairwise_append.mpr ⟨h.ordered.sublist hsub, ?_, ?_⟩
    · cases op.record <;> simp
    · intro a ha b hb
      obtain ⟨r, -, rfl⟩ := mem_map.mp hb
      have hput : a ∈ q.puts.zipIdx := h.once.subset (mem_append_left _ (hsub.subset ha))
      exact (mem_zipIdx hput).2.1.trans_eq (by simp)
  · -- what leaves moves from the queue to the left ones, the new put comes at the end
    have hnew : (q.puts ++ op.record.toList).zipIdx =
        q.puts.zipIdx ++ op.record.toList.map fun r => (r, q.puts.length) := by
      cases op.record <;> simp [zipIdx_append]
    rw [hnew]
    refine .trans ?_ (h.once.append_right _)
    refine .trans ?_ ((hperm.append_right q.left).append_right _)
    refine perm_iff_count.mpr fun a => ?_
    simp only [count_append]
    omega

lemma tracks_run (hdev : 0 < devCapacity.toNat) (hproc : 0 < procCapacity.toNat)
    (ops : List (Op Record)) :
    Tracks accessTokenId devCapacity procCapacity (run accessTokenId devCapacity procCapacity ops)
      (turnover accessTokenId devCapacity.toNat procCapacity.toNat ops) := by
  refine Runs.simulation (fun s q op h => h.step hdev hproc op) ?_ ops
  refine ⟨⟨rfl, le_iff_toNat_le.mpr (zero_le _), ?_, rfl, rfl⟩, rfl, rfl, rfl, rfl, .nil, .refl _⟩
  refine ⟨?_, ?_, ?_, fun _ _ => rfl⟩ <;>
    exact fun t info h => absurd h (by simp [init])

omit [DecidableEq Record] in
lemma length_procList {s : AbilityCacheManager Record} (h : Consistent accessTokenId s)
    (r : Record) : (s.procList (accessTokenId r)).length =
      s.devRecLru.countP (ofProcess accessTokenId r) := by
  rw [procList]
  cases hfind : s.procLruMap.find? (accessTokenId r) with
  | none =>
    rw [countP_eq_length_filter]
    exact congrArg List.length (h.procs.absent _ hfind).symm
  | some info => rw [← length_recList h.procs hfind, h.procs.cnt _ info hfind]; rfl

omit [DecidableEq Record] in
theorem Tracks.exists_oldest (h : Tracks accessTokenId devCapacity procCapacity s q)
    {p : Record → Bool} (hp : ∃ r ∈ s.2.devRecLru, p r = true) :
    ∃ e, IsOldest p q.queue e ∧ s.2.devRecLru.find? p = some e.1 := by
  obtain ⟨r, hr⟩ := Option.isSome_iff_exists.mp (find?_isSome.mpr hp)
  have hfind := hr
  rw [h.devRecLru, find?_map, Option.map_eq_some_iff] at hfind
  obtain ⟨e, he, rfl⟩ := hfind
  refine ⟨e, ?_, hr⟩
  obtain ⟨hpe, before, after, hqueue, hbefore⟩ := find?_eq_some_iff_append.mp he
  refine ⟨mem_of_find?_eq_some he, hpe, fun e' he' hp' => ?_⟩
  have hordered := h.ordered
  rw [hqueue] at he' hordered
  rcases mem_append.mp he' with he' | he'
  · have hnot := hbefore e' he'
    simp [hp'] at hnot
  · rcases mem_cons.mp he' with rfl | he'
    · exact le_refl _
    · exact ((pairwise_cons.mp (pairwise_append.mp hordered).2.1).1 e' he').le

lemma Tracks.victim (hdev : 0 < devCapacity.toNat) (hproc : 0 < procCapacity.toNat)
    (h : Tracks accessTokenId devCapacity procCapacity s q) (r : Record) :
    Victim accessTokenId s.2 q.queue r (s.2.put accessTokenId (some r)).1 := by
  rw [← h.devLruCapacity] at hdev
  rw [← h.procLruCapacity] at hproc
  obtain ⟨s', heffect⟩ := effect_apply h.consistent hdev hproc (.put (some r))
  have hanswer := congrArg Prod.fst heffect.apply
  change (s.2.put accessTokenId (some r)).1 = s.2.devRecLru.find? _ at hanswer
  rw [hanswer, Victim, length_procList h.consistent]
  split_ifs with hfull hlength
  · rw [mayLeave_put_full hfull]
    exact h.exists_oldest (countP_pos_iff.mp (hfull ▸ hproc))
  · rw [mayLeave_put_room hfull, decide_eq_true hlength]
    obtain ⟨r', hr'⟩ := exists_mem_of_length_pos (hlength ▸ hdev)
    exact h.exists_oldest ⟨r', hr', rfl⟩
  · rw [mayLeave_put_room hfull, decide_eq_false hlength]
    exact find?_eq_none.mpr fun _ _ => by simp

lemma turnover_puts (dev proc : ℕ) (ops : List (Op Record)) :
    (turnover accessTokenId dev proc ops).puts = ops.filterMap record := by
  have hfold : ∀ (ops : List (Op Record)) (q : Turnover Record),
      (ops.foldl (.step accessTokenId dev proc) q).puts = q.puts ++ ops.filterMap record := by
    intro ops
    induction ops with
    | nil => exact fun q => (append_nil _).symm
    | cons op ops ih =>
      intro q
      rw [foldl_cons, ih, Turnover.step, filterMap_cons]
      cases op.record <;> simp
  exact hfold ops _

end Tracking

theorem run_tracks {devCapacity procCapacity : UInt32} (hdev : 1 ≤ devCapacity)
    (hproc : 1 ≤ procCapacity) (ops : List (Op Record)) :
    let s := run accessTokenId devCapacity procCapacity ops
    let q := turnover accessTokenId devCapacity.toNat procCapacity.toNat ops
    Consistent accessTokenId s.2 ∧
      s.2.devLruCapacity = devCapacity ∧ s.2.procLruCapacity = procCapacity ∧
      s.2.devRecLru = q.queue.map Prod.fst ∧ s.1 = q.answers ∧
      (q.queue ++ q.left).Perm (ops.filterMap record).zipIdx ∧
      ∀ r, Victim accessTokenId s.2 q.queue r (s.2.put accessTokenId (some r)).1 := by
  intro s q
  have hdev' : 0 < devCapacity.toNat := le_iff_toNat_le.mp hdev
  have hproc' : 0 < procCapacity.toNat := le_iff_toNat_le.mp hproc
  have h : Tracks accessTokenId devCapacity procCapacity s q := tracks_run hdev' hproc' ops
  refine ⟨h.consistent, h.devLruCapacity, h.procLruCapacity, h.devRecLru, h.answers, ?_, ?_⟩
  · have hputs : q.puts = ops.filterMap record := turnover_puts _ _ ops
    rw [← hputs]
    exact h.once
  · exact h.victim hdev' hproc'

def sampleOps : List (Op ℕ) :=
  [.put (some 10), .put (some 11), .put (some 20), .put (some 30), .get ⟨2, "m", "a"⟩ fun _ =>
    ⟨"m", "a"⟩, .remove (some 30)]

def sampleToken (r : ℕ) : AccessTokenId := Fin.ofNat _ (r / 10)

theorem sampleOps_tracks : (1 : UInt32) ≤ 2 ∧ (1 : UInt32) ≤ 1 ∧
    (run sampleToken 2 1 sampleOps).1 = [none, some 10, none, some 11, some 20, none] ∧
    Consistent sampleToken (run sampleToken 2 1 sampleOps).2 ∧
    ((turnover sampleToken 2 1 sampleOps).queue ++ (turnover sampleToken 2 1 sampleOps).left).Perm
      [(10, 0), (11, 1), (20, 2), (30, 3)] := by
  have hdev : (1 : UInt32) ≤ 2 := by decide
  have hproc : (1 : UInt32) ≤ 1 := by decide
  have h := run_tracks sampleToken hdev hproc sampleOps
  exact ⟨hdev, hproc, by decide, h.1, h.2.2.2.2.2.1⟩

section Delete
variable (bundleName : Record → String) (name : String)

/-- The position is between `before` and `rest`, which together are the device list. -/
def deleteLoop : List Record → List Record → AbilityCacheManager Record →
    Option (AbilityCacheManager Record)
  | _, [], s => some s
  | before, r :: rest, s =>
    if bundleName r = name then
      -- the first position with the id is erased; to advance from an erased one is undefined
      if r ∈ before then deleteLoop (before.erase r ++ [r]) rest (s.remove accessTokenId (some r))
      else none
    else deleteLoop (before ++ [r]) rest s

def deleteInvalidServiceRecord : Option (AbilityCacheManager Record) :=
  deleteLoop accessTokenId bundleName name [] s.devRecLru s

def Deletes : Prop :=
  ∃ s', deleteInvalidServiceRecord accessTokenId s bundleName name = some s' ∧
    s'.devRecLru = s.devRecLru.filter (bundleName · ≠ name) ∧
    (∀ t, s'.procList t = (s.procList t).filter (bundleName · ≠ name)) ∧
    Consistent accessTokenId s'

variable {accessTokenId s bundleName name} {before rest : List Record}

lemma deleteLoop_of_forall (h : ∀ r ∈ rest, bundleName r ≠ name) :
    deleteLoop accessTokenId bundleName name before rest s = some s := by
  induction rest generalizing before with
  | nil => rfl
  | cons r rest ih =>
    rw [deleteLoop, if_neg (h r mem_cons_self)]
    exact ih fun r' hr' => h r' (mem_cons_of_mem r hr')

lemma deleteLoop_of_exists (hbefore : ∀ r ∈ before, bundleName r ≠ name)
    (h : ∃ r ∈ rest, bundleName r = name) :
    deleteLoop accessTokenId bundleName name before rest s = none := by
  induction rest generalizing before with
  | nil => exact absurd h (by simp)
  | cons r rest ih =>
    rw [deleteLoop]
    split_ifs with hr hmem
    · exact absurd hr (hbefore r hmem)
    · rfl
    · refine ih (fun r' hr' => ?_) (by simpa [hr] using h)
      rcases mem_append.mp hr' with hr' | hr'
      · exact hbefore r' hr'
      · exact mem_singleton.mp hr' ▸ hr

omit [DecidableEq Record] in
lemma Consistent.mem_of_mem_procList (h : Consistent accessTokenId s) {t : AccessTokenId}
    {r : Record} (hr : r ∈ s.procList t) : r ∈ s.devRecLru := by
  rw [procList] at hr
  cases hfind : s.procLruMap.find? t with
  | none => simp [hfind] at hr
  | some info =>
    rw [hfind, Option.map_some, Option.getD_some, h.procs.recList t info hfind] at hr
    exact (mem_filter.mp hr).1

theorem deletes_iff (h : Consistent accessTokenId s) :
    Deletes accessTokenId s bundleName name ↔ ∀ r ∈ s.devRecLru, bundleName r ≠ name := by
  constructor
  · rintro ⟨s', hs', -⟩ r hr hname
    rw [deleteInvalidServiceRecord, deleteLoop_of_exists (by simp) ⟨r, hr, hname⟩] at hs'
    exact absurd hs' (by simp)
  · intro hall
    refine ⟨s, deleteLoop_of_forall hall, ?_, fun t => ?_, h⟩
    · exact (filter_eq_self.mpr fun r hr => decide_eq_true (hall r hr)).symm
    · refine (filter_eq_self.mpr fun r hr => ?_).symm
      exact decide_eq_true (hall r (h.mem_of_mem_procList hr))

end Delete

def lone : AbilityCacheManager ℕ := (run sampleToken 2 1 [.put (some 10)]).2

lemma consistent_lone : Consistent sampleToken lone :=
  (tracks_run (by decide) (by decide) _).consistent

theorem lone_deletes : lone.devRecLru = [10] ∧ Deletes sampleToken lone (fun _ => "a") "b" :=
  ⟨by decide, (deletes_iff consistent_lone).mpr (by decide)⟩

theorem lone_erased_position : Consistent sampleToken lone ∧
    deleteInvalidServiceRecord sampleToken lone (fun _ => "a") "a" = none :=
  ⟨consistent_lone, by decide⟩

end AbilityCacheManager

end AbilityRuntime
