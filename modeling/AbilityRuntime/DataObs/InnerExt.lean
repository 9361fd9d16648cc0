import AbilityRuntime.DataObs.ChangeInfo
import AbilityRuntime.DataObs.Node
import AbilityRuntime.Library.Runs

/-! `DataObsMgrInnerExt`: the observer trie, the death recipients and the calls that change them
under `nodeMutex_`, compared with a plain list of registrations. -/

namespace AbilityRuntime.DataObs
open List SortedMap

variable {Uri Obs Remote : Type} [LinearOrder Remote]

structure InnerExt (Obs Remote : Type) [LinearOrder Remote] where
  root : Node Obs
  ordered : root.Ordered
  obsRecipientRefs : SortedMap Remote RefId
  refs : RefHeap

def InnerExt.init : InnerExt Obs Remote := ⟨.empty, PathTrie.ordered_empty, SortedMap.empty, .init⟩

def addObsDeathRecipient (m : SortedMap Remote RefId) (refs : RefHeap) (dataObserver : Remote) :
    Option (RefId × SortedMap Remote RefId × RefHeap) :=
  match m.find? dataObserver with
  | some id => if 4294967295 - 1 < refs.ref id then none else some (id, m, refs)
  | none =>
    let (id, refs) := refs.make
    some (id, m.emplace dataObserver id, refs)

def removeObsDeathRecipient (m : SortedMap Remote RefId) (refs : RefHeap) (dataObserver : Remote)
    (isForce : Bool) : SortedMap Remote RefId :=
  match m.find? dataObserver with
  | none => m
  | some id => if isForce || refs.ref id ≤ 1 then m.erase dataObserver else m

variable (env : Env Uri Obs Remote) (s : InnerExt Obs Remote)

def handleRegisterObserver (uri : Uri)
    (dataObserver : Obs) (isDescendants : Bool) : Status × InnerExt Obs Remote :=
  match env.asObject dataObserver with
  | none => (.dataObserverIsNull, s)
  | some remote =>
    match addObsDeathRecipient s.obsRecipientRefs s.refs remote with
    | none => (.dataobsServiceObsLimmit, s)
    | some (id, m, refs) =>
      let entry : Entry Obs := ⟨dataObserver, id, isDescendants⟩
      let v := addObserver entry (env.path uri) refs s.root
      let ordered := ordered_addObserver entry (env.path uri) refs s.ordered
      if v.ret then (.success, ⟨v.node, ordered, m, v.refs⟩)
      else (.dataobsServiceObsLimmit,
        ⟨v.node, ordered, removeObsDeathRecipient m v.refs remote false, v.refs⟩)

def handleUnregisterObserver (uri : Uri) (dataObserver : Obs) : Status × InnerExt Obs Remote :=
  match env.asObject dataObserver with
  | none => (.dataObserverIsNull, s)
  | some remote =>
    let v := removeObserver env.asObject dataObserver (env.path uri) s.refs s.root
    let removes := removes_removeObserver env.asObject dataObserver (env.path uri) s.refs s.ordered
    (.success, ⟨v.node, removes.ordered s.ordered,
      removeObsDeathRecipient s.obsRecipientRefs v.refs remote false, v.refs⟩)

def removeClient (remote : Remote) : InnerExt Obs Remote :=
  let v := removeRemote env.asObject remote s.root s.refs
  ⟨v.node, (removes_removeRemote env.asObject remote s.root s.refs).ordered s.ordered,
    removeObsDeathRecipient s.obsRecipientRefs v.refs remote true, v.refs⟩

def handleUnregisterAll (dataObserver : Obs) : Status × InnerExt Obs Remote :=
  match env.asObject dataObserver with
  | none => (.dataObserverIsNull, s)
  | some remote => (.success, removeClient env s remote)

def onCallBackDied : Option Remote → InnerExt Obs Remote
  | none => s
  | some remote => removeClient env s remote

def collectObs [LinearOrder Obs] (env : Env Uri Obs Remote) (s : InnerExt Obs Remote)
    (uris : List Uri) : ObsMap Obs Uri :=
  uris.foldl (fun changeRes uri => getObs uri (env.path uri) s.root changeRes) SortedMap.empty

def handleNotifyChange [LinearOrder Obs] (env : Env Uri Obs Remote) (s : InnerExt Obs Remote)
    (changeInfo : ChangeInfo Uri) : Status × List (Obs × ChangeInfo Uri) :=
  let changeRes := collectObs env s changeInfo.uris
  if changeRes.entries.isEmpty then (.noObsForUri, [])
  else (.success, changeRes.entries.filterMap fun (obs, value) =>
    if value.isEmpty then none else some (obs, { changeInfo with uris := value }))

inductive ExtOp (Uri Obs Remote : Type) where
  | registerObserver (uri : Uri) (dataObserver : Obs) (isDescendants : Bool)
  | unregisterObserver (uri : Uri) (dataObserver : Obs)
  | unregisterAll (dataObserver : Obs)
  | callBackDied (remote : Option Remote)

/-- One call with the status it returns; `OnCallBackDied` returns none. -/
def extStep : ExtOp Uri Obs Remote → Option Status × InnerExt Obs Remote
  | .registerObserver uri obs isDescendants =>
      (handleRegisterObserver env s uri obs isDescendants).map some id
  | .unregisterObserver uri obs => (handleUnregisterObserver env s uri obs).map some id
  | .unregisterAll obs => (handleUnregisterAll env s obs).map some id
  | .callBackDied remote => (none, onCallBackDied env s remote)

variable (ops : List (ExtOp Uri Obs Remote))

def extRun : InnerExt Obs Remote :=
  ops.foldl (fun s op => (extStep env s op).2) InnerExt.init

abbrev FlatList (Obs : Type) := List (List String × Entry Obs)

def clientCount (l : FlatList Obs) (r : Remote) : Nat :=
  l.countP fun p => isOf env.asObject (some r) p.2

structure RefsExact (env : Env Uri Obs Remote) (pending : Option Remote) (l : FlatList Obs)
    (m : SortedMap Remote RefId) (refs : RefHeap) : Prop where
  shared : ∀ p ∈ l, ∃ r, env.asObject p.2.observer = some r ∧ m.find? r = some p.2.deathRecipientRef
  counted : ∀ r id, m.find? r = some id → (refs.ref id).toNat = 1 + clientCount env l r
  used : ∀ r id, m.find? r = some id → pending ≠ some r → 0 < clientCount env l r
  distinct : ∀ r r' id, m.find? r = some id → m.find? r' = some id → r = r'
  allocated : ∀ r id, m.find? r = some id → id < refs.next
  noWrap : refs.wrapped = false

section
variable {env : Env Uri Obs Remote} {pending : Option Remote} {l l' : FlatList Obs}
  {m m' : SortedMap Remote RefId} {refs refs' : RefHeap} {r : Remote} {id : RefId}

lemma isOf_iff {target : Option Remote} {e : Entry Obs} :
    isOf env.asObject target e = true ↔ env.asObject e.observer = target := decide_eq_true_iff

lemma RefsExact.perm (h : RefsExact env pending l m refs) (hp : l'.Perm l) :
    RefsExact env pending l' m refs := by
  have hcount : ∀ r, clientCount env l' r = clientCount env l r := fun r => hp.countP_eq _
  exact
    { shared := fun p hm => h.shared p (hp.mem_iff.mp hm)
      counted := fun r id hf => by rw [hcount]; exact h.counted r id hf
      used := fun r id hf hn => by rw [hcount]; exact h.used r id hf hn
      distinct := h.distinct
      allocated := h.allocated
      noWrap := h.noWrap }

lemma RefsExact.weaken (h : RefsExact env none l m refs) : RefsExact env pending l m refs :=
  { h with used := fun r id hf _ => h.used r id hf (Option.some_ne_none r).symm }

lemma RefsExact.find?_eq (h : RefsExact env pending l m refs) {p : List String × Entry Obs}
    (hp : p ∈ l) (hr : isOf env.asObject (some r) p.2 = true) :
    m.find? r = some p.2.deathRecipientRef := by
  obtain ⟨r', hr', hf'⟩ := h.shared p hp
  obtain rfl : r' = r := Option.some.inj (hr'.symm.trans (isOf_iff.mp hr))
  exact hf'

lemma RefsExact.clientCount_eq_zero (h : RefsExact env pending l m refs) (hf : m.find? r = none) :
    clientCount env l r = 0 := by
  refine countP_eq_zero.mpr fun p hp hr => ?_
  rw [h.find?_eq hp hr] at hf
  cases hf

lemma addObsDeathRecipient_eq_some (ha : addObsDeathRecipient m refs r = some (id, m', refs')) :
    m.find? r = some id ∧ ¬ 4294967295 - 1 < refs.ref id ∧ m' = m ∧ refs' = refs ∨
      m.find? r = none ∧ id = refs.next ∧ m' = m.emplace r refs.next ∧ refs' = refs.make.2 ∧
        m'.find? r = some id := by
  unfold addObsDeathRecipient at ha
  cases hf : m.find? r with
  | some id₀ =>
    simp only [hf, Option.ite_none_left_eq_some] at ha
    obtain ⟨hmax, rfl, rfl, rfl⟩ := ha
    exact .inl ⟨rfl, hmax, rfl, rfl⟩
  | none =>
    simp only [hf] at ha
    obtain ⟨rfl, rfl, rfl⟩ := ha
    exact .inr ⟨rfl, rfl, rfl, rfl, (find?_emplace_eq_some hf).2 (.inl ⟨rfl, rfl⟩)⟩

protected lemma RefsExact.addObsDeathRecipient (h : RefsExact env none l m refs)
    (ha : addObsDeathRecipient m refs r = some (id, m', refs')) :
    RefsExact env (some r) l m' refs' ∧ m'.find? r = some id ∧ refs'.ref id ≠ 4294967295 := by
  rcases addObsDeathRecipient_eq_some ha with
    ⟨hf, hmax, rfl, rfl⟩ | ⟨hf, rfl, rfl, rfl, hself⟩
  · refine ⟨h.weaken, hf, fun he => hmax ?_⟩
    rw [he]
    decide
  · have hfind : ∀ r' id', (m.emplace r refs.next).find? r' = some id' →
        r' = r ∧ id' = refs.next ∨ m.find? r' = some id' :=
      fun r' id' hf' => (find?_emplace_eq_some hf).1 hf'
    have hkeep : ∀ r' id', m.find? r' = some id' → (m.emplace r refs.next).find? r' = some id' :=
      fun r' id' hf' => (find?_emplace_eq_some hf).2 (.inr hf')
    have hold : ∀ r' id', m.find? r' = some id' → id' ≠ refs.next := fun r' id' hf' =>
      ne_of_lt (h.allocated r' id' hf')
    refine ⟨⟨fun p hp => ?_, fun r' id' hf' => ?_, fun r' id' hf' hn => ?_,
      fun r₁ r₂ id' h₁ h₂ => ?_, fun r' id' hf' => ?_, h.noWrap⟩, hself, ?_⟩
    · obtain ⟨r', hr', hf'⟩ := h.shared p hp
      exact ⟨r', hr', hkeep r' _ hf'⟩
    · rcases hfind r' id' hf' with ⟨rfl, rfl⟩ | hf'
      · rw [h.clientCount_eq_zero hf, refs.make_ref_self]
        rfl
      · rw [refs.make_ref_of_ne (hold r' id' hf'), h.counted r' id' hf']
    · rcases hfind r' id' hf' with ⟨rfl, -⟩ | hf'
      · exact absurd rfl hn
      · exact h.used r' id' hf' (Option.some_ne_none r').symm
    · rcases hfind r₁ id' h₁ with ⟨he₁, hid₁⟩ | hf₁ <;> rcases hfind r₂ id' h₂ with
        ⟨he₂, hid₂⟩ | hf₂
      · rw [he₁, he₂]
      · exact absurd hid₁ (hold r₂ id' hf₂)
      · exact absurd hid₂ (hold r₁ id' hf₁)
      · exact h.distinct r₁ r₂ id' hf₁ hf₂
    · rcases hfind r' id' hf' with ⟨-, rfl⟩ | hf'
      · exact Nat.lt_succ_self _
      · exact Nat.lt_succ_of_lt (h.allocated r' id' hf')
    · exact fun he => absurd (refs.make_ref_self.symm.trans he) (by decide)

lemma RefsExact.incr (h : RefsExact env (some r) l m refs) (hf : m.find? r = some id)
    (hmax : refs.ref id ≠ 4294967295) {path : List String} {e : Entry Obs}
    (hid : e.deathRecipientRef = id)
    (hobs : env.asObject e.observer = some r) :
    RefsExact env none ((path, e) :: l) m (refs.incr id) := by
  have hcount : ∀ r', clientCount env ((path, e) :: l) r' =
      clientCount env l r' + if r = r' then 1 else 0 := by
    intro r'
    simp [clientCount, countP_cons, isOf_iff, hobs]
  refine ⟨fun p hp => ?_, fun r' id' hf' => ?_, fun r' id' hf' _ => ?_, h.distinct, h.allocated, ?_⟩
  · rcases mem_cons.mp hp with rfl | hp
    · exact ⟨r, hobs, hid ▸ hf⟩
    · exact h.shared p hp
  · rw [hcount]
    split_ifs with hr
    · obtain rfl : id = id' := Option.some.inj ((hr ▸ hf).symm.trans hf')
      rw [RefHeap.incr_ref_self hmax, h.counted r' id hf', Nat.add_assoc]
    · have hne : id' ≠ id := fun he => hr (h.distinct r r' id hf (he ▸ hf'))
      rw [show (refs.incr id).ref id' = _ from Function.update_of_ne hne ..,
        h.counted r' id' hf', Nat.add_zero]
  · rw [hcount]
    split_ifs with hr
    · exact Nat.succ_pos _
    · exact h.used r' id' hf' fun he => hr (Option.some.inj he)
  · simp [RefHeap.incr, h.noWrap, hmax]

variable {gone : List String × Entry Obs → Bool}

lemma clientCount_filter_not
    (hgone : ∀ p, gone p = true → isOf env.asObject (some r) p.2 = true) (r' : Remote) :
    clientCount env l r' =
      (if r = r' then (l.filter gone).length else 0) +
        clientCount env (l.filter fun p => !gone p) r' := by
  have hremoved : (l.filter gone).countP (fun p => isOf env.asObject (some r') p.2) =
      if r = r' then (l.filter gone).length else 0 := by
    split_ifs with hr
    · subst hr
      exact countP_eq_length.mpr fun p hp => hgone p (mem_filter.mp hp).2
    · refine countP_eq_zero.mpr fun p hp hp' => hr ?_
      have hobs := isOf_iff.mp (hgone p (mem_filter.mp hp).2)
      exact Option.some.inj (hobs.symm.trans (isOf_iff.mp hp'))
  rw [clientCount, countP_eq_countP_filter_add l _ gone, hremoved]
  rfl

lemma RefsExact.release (h : RefsExact env (some r) l m refs)
    (hgone : ∀ p, gone p = true → isOf env.asObject (some r) p.2 = true) :
    RefsExact env (some r) (l.filter fun p => !gone p) m
    (release refs ((l.filter gone).map Prod.snd)) := by
  have hcount := clientCount_filter_not (l := l) hgone
  have hshared : ∀ p ∈ l.filter fun p => !gone p, ∃ r, env.asObject p.2.observer = some r ∧
      m.find? r = some p.2.deathRecipientRef := fun p hp => h.shared p (mem_of_mem_filter hp)
  have hused : ∀ r' id, m.find? r' = some id → some r ≠ some r' →
      0 < clientCount env (l.filter fun p => !gone p) r' := by
    intro r' id hf hn
    have hpos := h.used r' id hf hn
    rwa [hcount r', if_neg fun he => hn (congrArg some he), Nat.zero_add] at hpos
  cases hf : m.find? r with
  | none =>
    have hnil : l.filter gone = [] := by
      refine filter_eq_nil_iff.mpr fun p hp hg => ?_
      rw [h.find?_eq hp (hgone p hg)] at hf
      cases hf
    rw [hnil]
    refine ⟨hshared, fun r' id hf' => ?_, hused, h.distinct, h.allocated, h.noWrap⟩
    have hne : ¬ r = r' := fun he => Option.some_ne_none id (hf'.symm.trans (he ▸ hf))
    have hsame := hcount r'
    rw [if_neg hne, Nat.zero_add] at hsame
    rw [← hsame]
    exact h.counted r' id hf'
  | some id =>
    have hids : ∀ e ∈ (l.filter gone).map Prod.snd, e.deathRecipientRef = id := by
      intro e he
      obtain ⟨p, hp, rfl⟩ := mem_map.mp he
      obtain ⟨hl, hg⟩ := mem_filter.mp hp
      exact Option.some.inj ((h.find?_eq hl (hgone p hg)).symm.trans hf)
    have hself := hcount r
    rw [if_pos rfl] at hself
    have hlen : ((l.filter gone).map Prod.snd).length ≤ (refs.ref id).toNat := by
      rw [length_map, h.counted r id hf]
      omega
    obtain ⟨hdown, hother, hnext, hwrap⟩ := release_shared hids hlen
    rw [length_map, h.counted r id hf] at hdown
    refine ⟨hshared, fun r' id' hf' => ?_, hused, h.distinct, fun r' id' hf' =>
      hnext ▸ h.allocated r' id' hf', hwrap.trans h.noWrap⟩
    by_cases hr : r = r'
    · subst hr
      obtain rfl : id = id' := Option.some.inj (hf.symm.trans hf')
      omega
    · have hne : id' ≠ id := fun he => hr (h.distinct r r' id hf (he ▸ hf'))
      have hsame := hcount r'
      rw [if_neg hr, Nat.zero_add] at hsame
      rw [hother id' hne, h.counted r' id' hf', hsame]

protected theorem RefsExact.removeObsDeathRecipient (h : RefsExact env (some r) l m refs)
    (isForce : Bool) (hforce : isForce = true → clientCount env l r = 0) :
    RefsExact env none l (removeObsDeathRecipient m refs r isForce) refs := by
  unfold removeObsDeathRecipient
  cases hf : m.find? r with
  | none =>
    refine { h with used := fun r' id hf' _ => h.used r' id hf' fun he => ?_ }
    rw [Option.some.inj he, hf'] at hf
    cases hf
  | some id =>
    have href := h.counted r id hf
    dsimp only
    split_ifs with hdrop
    · have hzero : clientCount env l r = 0 := by
        rcases Bool.or_eq_true_iff.mp hdrop with hforced | hle
        · exact hforce hforced
        · have hle' : (refs.ref id).toNat ≤ 1 := UInt32.le_iff_toNat_le.mp (of_decide_eq_true hle)
          omega
      have hfind : ∀ r' id', (m.erase r).find? r' = some id' → r ≠ r' ∧ m.find? r' = some id' :=
        fun _ _ => find?_erase_eq_some.mp
      refine ⟨fun p hp => ?_, fun r' id' hf' => h.counted r' id' (hfind r' id' hf').2,
        fun r' id' hf' _ => ?_, fun r₁ r₂ id' h₁ h₂ => h.distinct r₁ r₂ id' (hfind r₁ id' h₁).2
        (hfind r₂ id' h₂).2, fun r' id' hf' => h.allocated r' id' (hfind r' id' hf').2, h.noWrap⟩
      · obtain ⟨r', hr', hf'⟩ := h.shared p hp
        have hne : ¬ r = r' := by
          rintro rfl
          exact absurd (isOf_iff.mpr hr') (countP_eq_zero.mp hzero p hp)
        exact ⟨r', hr', by rw [find?_erase, if_neg hne, hf']⟩
      · obtain ⟨hr, hf''⟩ := hfind r' id' hf'
        exact h.used r' id' hf'' fun he => hr (Option.some.inj he)
    · refine { h with used := fun r' id' hf' _ => ?_ }
      by_cases hr : r = r'
      · subst hr
        have hgt : ¬ refs.ref id ≤ 1 := fun hle => hdrop (by simp [hle])
        have hgt' : ¬ (refs.ref id).toNat ≤ 1 := fun hle => hgt (UInt32.le_iff_toNat_le.mpr hle)
        omega
      · exact h.used r' id' hf' fun he => hr (Option.some.inj he)

theorem RefsExact.addObsDeathRecipient_eq_none (h : RefsExact env none l m refs) :
    addObsDeathRecipient m refs r = none ↔ 4294967294 < clientCount env l r + 1 := by
  unfold addObsDeathRecipient
  cases hf : m.find? r with
  | none =>
    rw [h.clientCount_eq_zero hf]
    exact iff_of_false (Option.some_ne_none _) (by decide)
  | some id =>
    have hlt : 4294967295 - 1 < refs.ref id ↔ 4294967294 < (refs.ref id).toNat :=
      UInt32.lt_iff_toNat_lt
    rw [h.counted r id hf, Nat.add_comm] at hlt
    simp only [ite_eq_left_iff, reduceCtorEq, imp_false, not_not]
    exact hlt

end

def InnerExt.Exact : Prop :=
  RefsExact env none s.root.toList s.obsRecipientRefs s.refs

structure Registration (Obs : Type) where
  path : List String
  observer : Obs
  isDescendants : Bool

def toRegistration (p : List String × Entry Obs) : Registration Obs :=
  ⟨p.1, p.2.observer, p.2.isDescendants⟩

def Registration.isOf (target : Option Remote) (reg : Registration Obs) : Bool :=
  env.asObject reg.observer = target

def Registration.reaches (path : List String) (reg : Registration Obs) : Bool :=
  reg.path = path || (reg.path.isPrefixOf path && reg.isDescendants)

variable (regs : List (Registration Obs))

def flatRegister (uri : Uri)
    (dataObserver : Obs) (isDescendants : Bool) : Status × List (Registration Obs) :=
  match env.asObject dataObserver with
  | none => (.dataObserverIsNull, regs)
  | some r =>
    if 4294967294 < regs.countP (Registration.isOf env (some r)) + 1 ∨
        obsNumMax ≤ regs.countP (fun reg => reg.path = env.path uri) then
      (.dataobsServiceObsLimmit, regs)
    else (.success, regs ++ [⟨env.path uri, dataObserver, isDescendants⟩])

def flatUnregister (uri : Uri) (dataObserver : Obs) : Status × List (Registration Obs) :=
  match env.asObject dataObserver with
  | none => (.dataObserverIsNull, regs)
  | some r => (.success, regs.filter fun reg => !(reg.path = env.path uri && reg.isOf env (some r)))

def flatRemoveClient (remote : Remote) : List (Registration Obs) :=
  regs.filter fun reg => !reg.isOf env (some remote)

def flatStep : ExtOp Uri Obs Remote → Option Status × List (Registration Obs)
  | .registerObserver uri obs isDescendants =>
      (flatRegister env regs uri obs isDescendants).map some id
  | .unregisterObserver uri obs => (flatUnregister env regs uri obs).map some id
  | .unregisterAll obs =>
    match env.asObject obs with
    | none => (some .dataObserverIsNull, regs)
    | some r => (some .success, flatRemoveClient env regs r)
  | .callBackDied none => (none, regs)
  | .callBackDied (some r) => (none, flatRemoveClient env regs r)

def flatRun : List (Registration Obs) :=
  ops.foldl (fun regs op => (flatStep env regs op).2) []

structure Represents (env : Env Uri Obs Remote) (s : InnerExt Obs Remote)
    (regs : List (Registration Obs)) : Prop where
  perm : (s.root.toList.map toRegistration).Perm regs
  exact : s.Exact env

section
variable {env : Env Uri Obs Remote} {s : InnerExt Obs Remote} {regs : List (Registration Obs)}

lemma Represents.clientCount_eq (h : Represents env s regs) (r : Remote) :
    clientCount env s.root.toList r = regs.countP (Registration.isOf env (some r)) := by
  rw [← h.perm.countP_eq, countP_map]
  rfl

lemma Represents.length_entriesAt (h : Represents env s regs) (path : List String) :
    (s.root.entriesAt path).length = regs.countP fun reg => reg.path = path := by
  rw [PathTrie.length_entriesAt s.ordered, ← h.perm.countP_eq, countP_map]
  rfl

variable {dataObserver : Obs} {r : Remote}

section
variable (hr : env.asObject dataObserver = some r)
include hr

lemma handleRegisterObserver_limit
    (ha : addObsDeathRecipient s.obsRecipientRefs s.refs r = none) (uri : Uri)
    (isDescendants : Bool) :
    handleRegisterObserver env s uri dataObserver isDescendants =
    (.dataobsServiceObsLimmit, s) := by
  simp [handleRegisterObserver, hr, ha]

lemma handleRegisterObserver_full {id : RefId} {m : SortedMap Remote RefId} {refs : RefHeap}
    (ha : addObsDeathRecipient s.obsRecipientRefs s.refs r = some (id, m, refs)) {uri : Uri}
    (hfull : obsNumMax ≤ (s.root.entriesAt (env.path uri)).length) (isDescendants : Bool) :
    handleRegisterObserver env s uri dataObserver isDescendants =
      (.dataobsServiceObsLimmit, { s with
        obsRecipientRefs := removeObsDeathRecipient m refs r false
        refs := refs }) := by
  have hadd := addObserver_full ⟨dataObserver, id, isDescendants⟩
    (env.path uri) refs s.ordered hfull
  simp [handleRegisterObserver, hr, ha, hadd]

lemma handleRegisterObserver_room {id : RefId} {m : SortedMap Remote RefId} {refs : RefHeap}
    (ha : addObsDeathRecipient s.obsRecipientRefs s.refs r = some (id, m, refs)) {uri : Uri}
    (hroom : (s.root.entriesAt (env.path uri)).length < obsNumMax) (isDescendants : Bool) :
    ∃ (n : Node Obs) (hn : n.Ordered),
      n.toList.Perm ((env.path uri, ⟨dataObserver, id, isDescendants⟩) :: s.root.toList) ∧
      handleRegisterObserver env s uri dataObserver isDescendants =
      (.success, ⟨n, hn, m, refs.incr id⟩) := by
  have hadd := adds_addObserver ⟨dataObserver, id, isDescendants⟩
    (env.path uri) refs s.ordered hroom
  refine ⟨_, hadd.ordered, hadd.toList, ?_⟩
  simp [handleRegisterObserver, hr, ha, hadd.ret, hadd.refs]

end

variable (h : Represents env s regs)
include h

lemma represents_register (uri : Uri) (dataObserver : Obs)
    (isDescendants : Bool) : (handleRegisterObserver env s uri dataObserver isDescendants).1 =
        (flatRegister env regs uri dataObserver isDescendants).1 ∧
      Represents env (handleRegisterObserver env s uri dataObserver isDescendants).2
        (flatRegister env regs uri dataObserver isDescendants).2 := by
  cases hr : env.asObject dataObserver with
  | none =>
    simp only [handleRegisterObserver, flatRegister, hr, true_and]
    exact h
  | some r =>
    have hlimit := h.exact.addObsDeathRecipient_eq_none (r := r)
    have hlen := h.length_entriesAt (env.path uri)
    rw [h.clientCount_eq] at hlimit
    cases ha : addObsDeathRecipient s.obsRecipientRefs s.refs r with
    | none =>
      rw [handleRegisterObserver_limit hr ha]
      simp only [flatRegister, hr, if_pos (Or.inl (hlimit.mp ha)), true_and]
      exact h
    | some out =>
      obtain ⟨hpending, hf, hmax⟩ := h.exact.addObsDeathRecipient ha
      rcases Nat.lt_or_ge (s.root.entriesAt (env.path uri)).length obsNumMax with hroom | hfull
      · obtain ⟨n, hn, htoList, heq⟩ := handleRegisterObserver_room hr ha hroom isDescendants
        have hnot : ¬ (4294967294 < regs.countP (Registration.isOf env (some r)) + 1 ∨
            obsNumMax ≤ regs.countP fun reg => reg.path = env.path uri) := by
          rw [← hlen, ← hlimit, ha]
          exact not_or.mpr ⟨Option.some_ne_none _, Nat.not_le.mpr hroom⟩
        rw [heq]
        simp only [flatRegister, hr, if_neg hnot, true_and]
        refine ⟨?_, (hpending.incr hf hmax rfl hr).perm htoList⟩
        have hcons := (htoList.map toRegistration).trans (h.perm.cons _)
        exact hcons.trans (perm_append_singleton _ _).symm
      · rw [handleRegisterObserver_full hr ha hfull]
        have hpos : obsNumMax ≤ regs.countP fun reg => reg.path = env.path uri := hlen ▸ hfull
        simp only [flatRegister, hr, if_pos (Or.inr hpos), true_and]
        exact ⟨h.perm, hpending.removeObsDeathRecipient false fun hforce =>
          absurd hforce Bool.false_ne_true⟩

lemma Represents.remove {gone : List String × Entry Obs → Bool}
    {gone' : Registration Obs → Bool} {v : Visit Obs} (hv : Removes gone s.refs s.root v)
    (hgone : ∀ p, gone p = true → isOf env.asObject (some r) p.2 = true)
    (hreg : ∀ p, gone p = gone' (toRegistration p)) (isForce : Bool)
    (hforce : isForce = true → ∀ p, isOf env.asObject (some r) p.2 = true → gone p = true) :
    Represents env ⟨v.node, hv.ordered s.ordered,
      removeObsDeathRecipient s.obsRecipientRefs v.refs r isForce, v.refs⟩
      (regs.filter fun reg => !gone' reg) := by
  refine ⟨?_, ?_⟩
  · have hfilter := h.perm.filter fun reg => !gone' reg
    rw [filter_map] at hfilter
    simp only [hv.toList, hreg]
    exact hfilter
  · have hexact := (h.exact.weaken.release hgone).removeObsDeathRecipient isForce fun hf =>
      countP_eq_zero.mpr fun p hp hr => by
        have hkept := (mem_filter.mp hp).2
        rw [hforce hf p hr] at hkept
        cases hkept
    rw [InnerExt.Exact, hv.toList, hv.refs]
    exact hexact

lemma represents_unregister (uri : Uri) (dataObserver : Obs) :
    (handleUnregisterObserver env s uri dataObserver).1 =
    (flatUnregister env regs uri dataObserver).1 ∧
      Represents env (handleUnregisterObserver env s uri dataObserver).2
        (flatUnregister env regs uri dataObserver).2 := by
  cases hr : env.asObject dataObserver with
  | none =>
    simp only [handleUnregisterObserver, flatUnregister, hr, true_and]
    exact h
  | some r =>
    have hv := removes_removeObserver env.asObject dataObserver (env.path uri) s.refs s.ordered
    have hgone : ∀ p : List String × Entry Obs,
        isOfAt env.asObject dataObserver (env.path uri) p = true →
        isOf env.asObject (some r) p.2 = true := by
      intro p hp
      rw [← hr]
      exact (Bool.and_eq_true_iff.mp hp).2
    simp only [handleUnregisterObserver, flatUnregister, hr, true_and]
    refine h.remove hv hgone (fun p => ?_) false fun hforce => absurd hforce Bool.false_ne_true
    rw [isOfAt, hr]
    rfl

lemma represents_removeClient (r : Remote) :
    Represents env (removeClient env s r) (flatRemoveClient env regs r) :=
  h.remove (removes_removeRemote env.asObject r s.root s.refs) (fun _ hp => hp) (fun _ => rfl) true
    fun _ _ hp => hp

lemma represents_step (op : ExtOp Uri Obs Remote) :
    (extStep env s op).1 = (flatStep env regs op).1 ∧
      Represents env (extStep env s op).2 (flatStep env regs op).2 := by
  cases op with
  | registerObserver uri obs isDescendants =>
    obtain ⟨hret, hrep⟩ := represents_register h uri obs isDescendants
    exact ⟨congrArg some hret, hrep⟩
  | unregisterObserver uri obs =>
    obtain ⟨hret, hrep⟩ := represents_unregister h uri obs
    exact ⟨congrArg some hret, hrep⟩
  | unregisterAll obs =>
    cases hr : env.asObject obs with
    | none =>
      simp only [extStep, handleUnregisterAll, flatStep, hr]
      exact ⟨rfl, h⟩
    | some r =>
      simp only [extStep, handleUnregisterAll, flatStep, hr]
      exact ⟨rfl, represents_removeClient h r⟩
  | callBackDied remote =>
    cases remote with
    | none => exact ⟨rfl, h⟩
    | some r => exact ⟨rfl, represents_removeClient h r⟩

end

lemma exact_init : (InnerExt.init : InnerExt Obs Remote).Exact env where
  shared := nofun
  counted := nofun
  used := nofun
  distinct := nofun
  allocated := nofun
  noWrap := rfl

lemma represents_run : Represents env (extRun env ops) (flatRun env ops) := by
  have hinit : Represents env .init [] := ⟨.refl _, exact_init env⟩
  exact Runs.simulation (R := Represents env) (fun _ _ op h => (represents_step h op).2) hinit ops

theorem extRun_refs_exact : (∀ r, (extRun env ops).obsRecipientRefs.contains r = true ↔
      ∃ p ∈ (extRun env ops).root.toList, env.asObject p.2.observer = some r) ∧
    (∀ r id, (extRun env ops).obsRecipientRefs.find? r = some id →
      ((extRun env ops).refs.ref id).toNat =
        1 + (extRun env ops).root.toList.countP (fun p => env.asObject p.2.observer = some r) ∧
      ∀ p ∈ (extRun env ops).root.toList, env.asObject p.2.observer = some r →
      p.2.deathRecipientRef = id) ∧
    (extRun env ops).refs.wrapped = false := by
  have h := (represents_run env ops).exact
  refine ⟨fun r => ⟨fun hc => ?_, ?_⟩, fun r id hf => ⟨h.counted r id hf, fun p hp hr => ?_⟩,
    h.noWrap⟩
  · obtain ⟨id, hf⟩ := contains_iff.mp hc
    obtain ⟨p, hp, hr⟩ := countP_pos_iff.mp (h.used r id hf (Option.some_ne_none r).symm)
    exact ⟨p, hp, isOf_iff.mp hr⟩
  · rintro ⟨p, hp, hr⟩
    exact contains_iff.mpr ⟨_, h.find?_eq hp (isOf_iff.mpr hr)⟩
  · exact Option.some.inj ((h.find?_eq hp (isOf_iff.mpr hr)).symm.trans hf)

section
variable {env : Env Uri Obs Remote} {s : InnerExt Obs Remote} {regs : List (Registration Obs)}

lemma alive_step (h : s.root.Alive) (op : ExtOp Uri Obs Remote) :
    (extStep env s op).2.root.Alive := by
  have hclient (r : Remote) : (removeClient env s r).root.Alive :=
    alive_removeRemote env.asObject r s.root s.refs h
  cases op with
  | registerObserver uri obs isDescendants =>
    change (handleRegisterObserver env s uri obs isDescendants).2.root.Alive
    unfold handleRegisterObserver
    split
    · exact h
    split
    · exact h
    · dsimp only
      split_ifs <;> exact alive_addObserver _ _ _ s.ordered h
  | unregisterObserver uri obs =>
    change (handleUnregisterObserver env s uri obs).2.root.Alive
    unfold handleUnregisterObserver
    split
    · exact h
    · exact alive_removeObserver env.asObject obs _ s.refs s.ordered h
  | unregisterAll obs =>
    change (handleUnregisterAll env s obs).2.root.Alive
    unfold handleUnregisterAll
    split
    · exact h
    · exact hclient _
  | callBackDied remote =>
    cases remote with
    | none => exact h
    | some r => exact hclient r

lemma countP_flatStep_le {path : List String}
    (h : regs.countP (fun reg => reg.path = path) ≤ obsNumMax) (op : ExtOp Uri Obs Remote) :
    (flatStep env regs op).2.countP (fun reg => reg.path = path) ≤ obsNumMax := by
  have hfilter (p : Registration Obs → Bool) :
      (regs.filter p).countP (fun reg => reg.path = path) ≤ obsNumMax :=
    (filter_sublist.countP_le).trans h
  cases op with
  | registerObserver uri obs isDescendants =>
    change (flatRegister env regs uri obs isDescendants).2.countP _ ≤ _
    unfold flatRegister
    split
    · exact h
    split_ifs with hfull
    · exact h
    · have hroom := Nat.not_le.mp (not_or.mp hfull).2
      rw [countP_append, countP_singleton]
      split_ifs with hp
      · rw [← of_decide_eq_true hp]
        exact hroom
      · exact h
  | unregisterObserver uri obs =>
    change (flatUnregister env regs uri obs).2.countP _ ≤ _
    unfold flatUnregister
    split
    · exact h
    · exact hfilter _
  | unregisterAll obs =>
    simp only [flatStep]
    split
    · exact h
    · exact hfilter _
  | callBackDied remote =>
    cases remote with
    | none => exact h
    | some r => exact hfilter _

lemma RefsExact.undo_addObsDeathRecipient {l : FlatList Obs} {m m' : SortedMap Remote RefId}
    {refs refs' : RefHeap} {r : Remote} {id : RefId} (h : RefsExact env none l m refs)
    (ha : addObsDeathRecipient m refs r = some (id, m', refs')) :
    removeObsDeathRecipient m' refs' r false = m ∧
      ∀ r' id', m.find? r' = some id' → refs'.ref id' = refs.ref id' := by
  unfold removeObsDeathRecipient
  rcases addObsDeathRecipient_eq_some ha with ⟨hf, -, rfl, rfl⟩ | ⟨hf, rfl, rfl, rfl, hself⟩
  · -- a client with an entry has a counter of two at least
    have hcounted := h.counted r id hf
    have hused := h.used r id hf (Option.some_ne_none r).symm
    have hmore : ¬ refs'.ref id ≤ 1 := fun hle => by
      have hle' : (refs'.ref id).toNat ≤ 1 := UInt32.le_iff_toNat_le.mp hle
      omega
    simp [hf, hmore]
  · have hone : refs.make.2.ref refs.next ≤ 1 := by
      rw [refs.make_ref_self]
      decide
    refine ⟨?_, fun r' id' hf' => refs.make_ref_of_ne (ne_of_lt (h.allocated r' id' hf'))⟩
    simp only [hself, hone, decide_true, Bool.or_true, if_true]
    refine ext_find? fun r' => ?_
    rw [find?_erase, find?_emplace]
    split_ifs with hr
    · rw [← hr, hf]
    · rfl

end

theorem extRun_shape : (extRun env ops).root.Alive ∧
    (∀ path, ((extRun env ops).root.entriesAt path).length ≤ obsNumMax) ∧
    ∀ uri dataObserver isDescendants,
      (handleRegisterObserver env (extRun env ops) uri dataObserver isDescendants).1 =
        .dataobsServiceObsLimmit →
      let s' := (handleRegisterObserver env (extRun env ops) uri dataObserver isDescendants).2
      s'.root = (extRun env ops).root ∧
      s'.obsRecipientRefs = (extRun env ops).obsRecipientRefs ∧
      ∀ r id, (extRun env ops).obsRecipientRefs.find? r = some id →
        s'.refs.ref id = (extRun env ops).refs.ref id := by
  have h := represents_run env ops
  refine ⟨?_, fun path => ?_, fun uri dataObserver isDescendants => ?_⟩
  · exact foldlRecOn (motive := fun s : InnerExt Obs Remote => s.root.Alive) ops _
      PathTrie.alive_empty fun s hs op _ => alive_step hs op
  · rw [h.length_entriesAt]
    exact foldlRecOn
      (motive := fun regs : List (Registration Obs) =>
        countP (fun reg => reg.path = path) regs ≤ obsNumMax) ops _
      (Nat.zero_le _) fun regs hregs op _ => countP_flatStep_le hregs op
  · generalize extRun env ops = s at h ⊢
    cases hr : env.asObject dataObserver with
    | none => simp [handleRegisterObserver, hr]
    | some r =>
      cases ha : addObsDeathRecipient s.obsRecipientRefs s.refs r with
      | none =>
        rw [handleRegisterObserver_limit hr ha]
        exact fun _ => ⟨rfl, rfl, fun _ _ _ => rfl⟩
      | some out =>
        rcases Nat.lt_or_ge (s.root.entriesAt (env.path uri)).length obsNumMax with hroom | hfull
        · obtain ⟨n, hn, -, heq⟩ := handleRegisterObserver_room hr ha hroom isDescendants
          rw [heq]
          exact fun hret => nomatch hret
        · rw [handleRegisterObserver_full hr ha hfull]
          exact fun _ => ⟨rfl, h.exact.undo_addObsDeathRecipient ha⟩

section
variable [LinearOrder Obs] {env : Env Uri Obs Remote} {s : InnerExt Obs Remote}
    {regs : List (Registration Obs)}

def copies (env : Env Uri Obs Remote) (regs : List (Registration Obs)) (uris : List Uri)
    (o : Obs) : List Uri :=
  uris.flatMap fun uri =>
    List.replicate (regs.countP fun reg => reg.observer = o && reg.reaches (env.path uri)) uri

section
variable (h : Represents env s regs)
include h

lemma Represents.countP_along (path : List String) (o : Obs) :
    (s.root.along Entry.isDescendants path).countP (fun e => e.observer = o) =
      regs.countP fun reg => reg.observer = o && reg.reaches path := by
  have hperm := PathTrie.along_perm Entry.isDescendants s.ordered path
  rw [hperm.countP_eq, countP_map, countP_filter, ← h.perm.countP_eq, countP_map]
  rfl

lemma holds_foldl_getObs (us : List Uri) {res : ObsMap Obs Uri}
    {f : Obs → List Uri} (hf : Holds res f) :
    Holds (us.foldl (fun res uri => getObs uri (env.path uri) s.root res) res)
      fun o => f o ++ copies env regs us o := by
  induction us generalizing res f with
  | nil => simpa [copies] using hf
  | cons u us ih =>
    have hstep := holds_foldl_pushUri hf u (s.root.along Entry.isDescendants (env.path u))
    simp only [h.countP_along] at hstep
    rw [foldl_cons, getObs_eq]
    have hrest := ih hstep
    simpa [copies] using hrest

lemma holds_collectObs (uris : List Uri) :
    Holds (collectObs env s uris) (copies env regs uris) := holds_foldl_getObs h uris holds_empty

lemma handleNotifyChange_calls (changeInfo : ChangeInfo Uri) :
    (handleNotifyChange env s changeInfo).2 =
      (collectObs env s changeInfo.uris).entries.map fun p =>
      (p.1, { changeInfo with uris := p.2 }) := by
  have hholds := holds_collectObs h changeInfo.uris
  have hne : ∀ p ∈ (collectObs env s changeInfo.uris).entries, p.2 ≠ [] := by
    intro p hp
    obtain ⟨hne, heq⟩ := hholds.mem_entries.mp hp
    rwa [← heq]
  cases hc : (collectObs env s changeInfo.uris).entries with
  | nil => simp [handleNotifyChange, hc]
  | cons q qs =>
    rw [hc] at hne
    have hsome : ∀ p ∈ q :: qs, (if p.2.isEmpty then none
        else some (p.1, { changeInfo with uris := p.2 })) =
        some (p.1, { changeInfo with uris := p.2 }) := fun p hp =>
      if_neg (by simpa using hne p hp)
    simp only [handleNotifyChange, hc, isEmpty_cons, Bool.false_eq_true, if_false]
    rw [filterMap_congr hsome, filterMap_eq_map']

lemma mem_calls_iff {changeInfo : ChangeInfo Uri} {call : Obs × ChangeInfo Uri} :
    call ∈ (handleNotifyChange env s changeInfo).2 ↔ ∃ o, copies env regs changeInfo.uris o ≠ [] ∧
      call = (o, { changeInfo with uris := copies env regs changeInfo.uris o }) := by
  have hholds := holds_collectObs h changeInfo.uris
  rw [handleNotifyChange_calls h, mem_map]
  constructor
  · rintro ⟨p, hp, rfl⟩
    obtain ⟨hne, heq⟩ := hholds.mem_entries.mp hp
    exact ⟨p.1, hne, by rw [heq]⟩
  · rintro ⟨o, hne, rfl⟩
    exact ⟨(o, _), hholds.mem_entries.mpr ⟨hne, rfl⟩, rfl⟩

end

theorem extRun_refines_flat (env : Env Uri Obs Remote) (ops : List (ExtOp Uri Obs Remote))
    (changeInfo : ChangeInfo Uri) :
    (∀ op, (extStep env (extRun env ops) op).1 = (flatStep env (flatRun env ops) op).1) ∧
    (∀ o, (handleNotifyChange env (extRun env ops) changeInfo).2.filter (fun call => call.1 = o) =
      if copies env (flatRun env ops) changeInfo.uris o = [] then []
      else [(o, { changeInfo with uris := copies env (flatRun env ops) changeInfo.uris o })]) ∧
    ((handleNotifyChange env (extRun env ops) changeInfo).1 = .noObsForUri ↔
      ∀ o, copies env (flatRun env ops) changeInfo.uris o = []) := by
  have h := represents_run env ops
  have hholds := holds_collectObs h changeInfo.uris
  refine ⟨fun op => (represents_step h op).1, fun o => ?_, ?_⟩
  · have hkey := filter_entries (collectObs env (extRun env ops) changeInfo.uris) o
    rw [hholds o] at hkey
    rw [handleNotifyChange_calls h, filter_map]
    change ((collectObs env (extRun env ops) changeInfo.uris).entries.filter fun p =>
      p.1 = o).map _ = _
    rw [hkey]
    split_ifs <;> rfl
  · have hret : (handleNotifyChange env (extRun env ops) changeInfo).1 = .noObsForUri ↔
        (collectObs env (extRun env ops) changeInfo.uris).entries = [] := by
      cases hc : (collectObs env (extRun env ops) changeInfo.uris).entries with
      | nil => simp [handleNotifyChange, hc]
      | cons q qs => simp [handleNotifyChange, hc]
    rw [hret]
    constructor
    · intro hnil o
      have hnone : (collectObs env (extRun env ops) changeInfo.uris).find? o = none := by
        rw [SortedMap.find?_eq_none, hnil]
        exact nofun
      rw [hholds o] at hnone
      simpa using hnone
    · intro hall
      exact eq_nil_iff_forall_not_mem.mpr fun p hp => (hholds.mem_entries.mp hp).1 (hall p.1)

end

end AbilityRuntime.DataObs
