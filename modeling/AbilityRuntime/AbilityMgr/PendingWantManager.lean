import Mathlib.Data.String.Basic
import AbilityRuntime.Library.SortedMap
import AbilityRuntime.Library.Runs

/-! Pending wants: records that are handed out as senders. A record is known by its address, which
is also that of its key object; `wantRecords` has the addresses of those in the manager's map, which
is ordered by address and searched by content. -/

open Option

namespace AbilityRuntime
open List SortedMap Finset

/-- What the manager uses of the wants; `Want::IsEquals` is taken for an equivalence. -/
class RequestWant (W : Type) where
  empty : W
  getBundle : W → String
  isEquals : W → W → Bool
  equivalence : Equivalence fun a b => isEquals a b = true

structure WantsInfo (W : Type) where
  want : W
  resolvedTypes : String

structure WantSenderInfo (W : Type) where
  type : ℤ
  bundleName : String
  resultWho : String
  requestCode : ℤ
  allWants : List (WantsInfo W)
  flags : BitVec 32
  userId : ℤ

structure PendingWantKey (W : Type) where
  type : ℤ
  bundleName : String
  requestWho : String
  requestCode : ℤ
  requestWant : W
  requestResolvedType : String
  allWantsInfos : List (WantsInfo W)
  flags : BitVec 32
  code : BitVec 32
  userId : ℤ
  appIndex : ℤ

structure PendingWantRecord (W : Type) where
  uid : ℤ
  callerUid : ℤ
  key : PendingWantKey W
  canceled : Bool

inductive PendingOperation
  | pendingWantStartAbility
  | pendingWantStartAbilitys
  | pendingWantPublishCommonEvent
  deriving DecidableEq

structure PendingWantManager (W : Type) where
  records : SortedMap ℕ (PendingWantRecord W)
  wantRecords : Finset ℕ
  id : BitVec 32
  performed : List (ℕ × PendingOperation)

namespace PendingWantManager

def oneTimeFlag : BitVec 32 := 1#32 <<< 30
def noBuildFlag : BitVec 32 := 1#32 <<< 29
def cancelPresentFlag : BitVec 32 := 1#32 <<< 28
def updatePresentFlag : BitVec 32 := 1#32 <<< 27

def hasFlag (flags flag : BitVec 32) : Bool := flags &&& flag ≠ 0#32

/-- The operation for an `OperationType`; for the other values nothing is performed. -/
def operation (type : ℤ) : Option PendingOperation :=
  if type = 1 then some .pendingWantStartAbility
  else if type = 2 then some .pendingWantStartAbilitys
  else if type = 3 ∨ type = 5 then some .pendingWantStartAbility
  else if type = 4 then some .pendingWantPublishCommonEvent
  else none

variable {W : Type} [RequestWant W]

def init : PendingWantManager W := ⟨.empty, ∅, 0#32, []⟩

def checkPendingWantRecordByKey (inputKey key : PendingWantKey W) : Bool :=
  inputKey.appIndex = key.appIndex && inputKey.bundleName = key.bundleName &&
    inputKey.type = key.type && inputKey.requestWho = key.requestWho &&
    inputKey.requestCode = key.requestCode &&
    inputKey.requestResolvedType = key.requestResolvedType && inputKey.userId = key.userId &&
    RequestWant.isEquals inputKey.requestWant key.requestWant

variable (s : PendingWantManager W)

/-- The first record of the map, in the order of the addresses, with a key like the given one. -/
def getPendingWantRecordByKey (key : PendingWantKey W) : Option ℕ :=
  (s.records.entries.find? fun e =>
    e.1 ∈ s.wantRecords && checkPendingWantRecordByKey e.2.key key).map Prod.fst

def makeWantSenderCanceledLocked (record : ℕ) : PendingWantManager W :=
  { s with records := s.records.modify record fun r => { r with canceled := true } }

def cancelWantSenderLocked (record : ℕ) : PendingWantManager W :=
  let s := s.makeWantSenderCanceledLocked record
  { s with wantRecords := s.wantRecords.erase record }

def makeKey (info : WantSenderInfo W) (appIndex : ℤ) : PendingWantKey W where
  type := info.type
  bundleName := info.bundleName
  requestWho := info.resultWho
  requestCode := info.requestCode
  requestWant := info.allWants.getLast?.elim RequestWant.empty (·.want)
  requestResolvedType := info.allWants.getLast?.elim "" (·.resolvedTypes)
  allWantsInfos := info.allWants
  flags := info.flags
  code := 0#32
  userId := info.userId
  appIndex := appIndex

/-- The update of the record that is present; the last want of the info stays as it is,
since it is what the key was just given. -/
def updatePresent (ref : ℕ) (callingUid : ℤ) (info : WantSenderInfo W) :
    PendingWantManager W :=
  match info.allWants.getLast? with
  | none => s
  | some last =>
    { s with records := s.records.modify ref fun r =>
      { r with
        callerUid := callingUid
        key := { r.key with
          requestWant := last.want
          requestResolvedType := last.resolvedTypes
          allWantsInfos := info.allWants } } }

def createRecord (callingUid uid : ℤ) (key : PendingWantKey W)
    (address : Option ℕ) : PendingWantManager W × Option ℕ :=
  match address with
  | none => (s, none)
  | some a =>
    if s.records.contains a then (s, none)
    else
      let r := ⟨uid, callingUid, { key with code := s.id + 1#32 }, false⟩
      ({ s with
        records := s.records.assign a r
        wantRecords := insert a s.wantRecords
        id := s.id + 1#32 }, some a)

def getWantSenderLocked (callingUid uid : ℤ) (info : WantSenderInfo W)
    (appIndex : ℤ) (address : Option ℕ) : PendingWantManager W × Option ℕ :=
  let key := makeKey info appIndex
  match s.getPendingWantRecordByKey key with
  | none =>
    if hasFlag info.flags noBuildFlag then (s, none)
    else s.createRecord callingUid uid key address
  | some ref =>
    if hasFlag info.flags cancelPresentFlag then
      let s := s.cancelWantSenderLocked ref
      if hasFlag info.flags noBuildFlag then (s, some ref)
      else s.createRecord callingUid uid key address
    else if hasFlag info.flags updatePresentFlag then
      (s.updatePresent ref callingUid info, some ref)
    else (s, some ref)

def getWantSender (callingUid uid : ℤ) (isSystemApp isSACall : Bool)
    (info : WantSenderInfo W) (appIndex : ℤ) (address : Option ℕ) :
    PendingWantManager W × Option ℕ :=
  if info.type ≠ 4 ∧ callingUid ≠ uid ∧ isSystemApp = false ∧ isSACall = false then (s, none)
  else s.getWantSenderLocked callingUid uid info appIndex address

def cancelWantSender (isSystemApp isSACall : Bool) (sender : ℕ) :
    PendingWantManager W :=
  if isSACall = false ∧ isSystemApp = false then s
  else s.cancelWantSenderLocked sender

def senderInner (sender : ℕ) : PendingWantManager W :=
  match s.records.find? sender with
  | none => s
  | some r =>
    if r.canceled then s
    else
      let s := if hasFlag r.key.flags oneTimeFlag then s.cancelWantSenderLocked sender else s
      match operation r.key.type with
      | none => s
      | some op => { s with performed := s.performed ++ [(sender, op)] }

def isCleared (r : PendingWantRecord W) (bundleName : String) (uid : ℤ) : Bool :=
  r.key.allWantsInfos.any fun w => RequestWant.getBundle w.want = bundleName && uid = r.uid

/-- The records are erased from the map and not canceled. -/
def clearPendingWantRecordTask (bundleName : String) (uid : ℤ) :
    PendingWantManager W :=
  { s with wantRecords := s.wantRecords.filter fun a =>
      (s.records.find? a).all fun r => !isCleared r bundleName uid }

inductive PendingOp (W : Type)
  | getWantSender (callingUid uid : ℤ) (isSystemApp isSACall : Bool) (info : WantSenderInfo W)
      (appIndex : ℤ) (address : Option ℕ)
  | cancelWantSender (isSystemApp isSACall : Bool) (sender : ℕ)
  | sendWantSender (sender : ℕ)
  | clearPendingWantRecord (bundleName : String) (uid : ℤ)

def step : PendingOp W → PendingWantManager W
  | .getWantSender callingUid uid isSystemApp isSACall info appIndex address =>
    (s.getWantSender callingUid uid isSystemApp isSACall info appIndex address).1
  | .cancelWantSender isSystemApp isSACall sender => s.cancelWantSender isSystemApp isSACall sender
  | .sendWantSender sender => s.senderInner sender
  | .clearPendingWantRecord bundleName uid => s.clearPendingWantRecordTask bundleName uid

def timesPerformed (record : ℕ) : ℕ :=
  (s.performed.map Prod.fst).count record

lemma check_iff {k k' : PendingWantKey W} : checkPendingWantRecordByKey k k' = true ↔
    k.appIndex = k'.appIndex ∧ k.bundleName = k'.bundleName ∧ k.type = k'.type ∧
      k.requestWho = k'.requestWho ∧ k.requestCode = k'.requestCode ∧
      k.requestResolvedType = k'.requestResolvedType ∧ k.userId = k'.userId ∧
      RequestWant.isEquals k.requestWant k'.requestWant = true := by
  simp [checkPendingWantRecordByKey, and_assoc]

lemma check_equivalence :
    Equivalence fun k k' : PendingWantKey W => checkPendingWantRecordByKey k k' = true where
  refl k := check_iff.mpr ⟨rfl, rfl, rfl, rfl, rfl, rfl, rfl, RequestWant.equivalence.refl _⟩
  symm h := by
    obtain ⟨h1, h2, h3, h4, h5, h6, h7, h8⟩ := check_iff.mp h
    exact check_iff.mpr ⟨h1.symm, h2.symm, h3.symm, h4.symm, h5.symm, h6.symm, h7.symm,
      RequestWant.equivalence.symm h8⟩
  trans h h' := by
    obtain ⟨h1, h2, h3, h4, h5, h6, h7, h8⟩ := check_iff.mp h
    obtain ⟨h1', h2', h3', h4', h5', h6', h7', h8'⟩ := check_iff.mp h'
    exact check_iff.mpr ⟨h1.trans h1', h2.trans h2', h3.trans h3', h4.trans h4', h5.trans h5',
      h6.trans h6', h7.trans h7', RequestWant.equivalence.trans h8 h8'⟩

variable {s : PendingWantManager W} {key : PendingWantKey W}

lemma getPendingWantRecordByKey_eq_some {ref : ℕ} (h : s.getPendingWantRecordByKey key = some ref) :
    ref ∈ s.wantRecords ∧ ∃ r, s.records.find? ref = some r ∧
      checkPendingWantRecordByKey r.key key = true := by
  obtain ⟨⟨a, r⟩, hfind, rfl⟩ := map_eq_some_iff.mp h
  have hp := find?_some hfind
  simp only [Bool.and_eq_true, decide_eq_true_eq] at hp
  exact ⟨hp.1, r, mem_entries.mp (mem_of_find?_eq_some hfind), hp.2⟩

variable {r : PendingWantRecord W}

structure Usable (s : PendingWantManager W) : Prop where
  known : ∀ a ∈ s.wantRecords, ∃ r, s.records.find? a = some r
  keys : ∀ a ∈ s.wantRecords, ∀ b ∈ s.wantRecords, ∀ r r', s.records.find? a = some r →
    s.records.find? b = some r' → checkPendingWantRecordByKey r.key r'.key = true → a = b
  codes : ∀ a ∈ s.wantRecords, ∀ b ∈ s.wantRecords, ∀ r r', s.records.find? a = some r →
    s.records.find? b = some r' → r.key.code = r'.key.code → a = b
  alive : ∀ a ∈ s.wantRecords, ∀ r, s.records.find? a = some r → r.canceled = false
  once : ∀ a r, s.records.find? a = some r → hasFlag r.key.flags oneTimeFlag = true →
    s.timesPerformed a ≤ if r.canceled then 1 else 0
  unborn : ∀ a, s.records.find? a = none → s.timesPerformed a = 0

def Retired (s : PendingWantManager W) : Prop :=
  ∀ a r, s.records.find? a = some r → a ∉ s.wantRecords → r.canceled = true

lemma usable_init : Usable (init : PendingWantManager W) where
  known a ha := absurd ha (notMem_empty a)
  keys a ha := absurd ha (notMem_empty a)
  codes a ha := absurd ha (notMem_empty a)
  alive a ha := absurd ha (notMem_empty a)
  once _ _ hr := absurd hr nofun
  unborn _ _ := rfl

structure SameKey (k k' : PendingWantKey W) : Prop where
  check : checkPendingWantRecordByKey k k' = true
  code : k.code = k'.code
  flags : k.flags = k'.flags

lemma SameKey.refl (k : PendingWantKey W) : SameKey k k := ⟨check_equivalence.refl k, rfl, rfl⟩

structure Keeps (s s' : PendingWantManager W) : Prop where
  wantRecords : s'.wantRecords ⊆ s.wantRecords
  performed : s'.performed = s.performed
  records : ∀ a, s'.records.find? a = none ∧ s.records.find? a = none ∨
    ∃ r r', s'.records.find? a = some r' ∧ s.records.find? a = some r ∧ SameKey r'.key r.key ∧
      (r'.canceled = r.canceled ∨ r'.canceled = true ∧ a ∉ s'.wantRecords)

variable {s' : PendingWantManager W}

lemma Keeps.find? (h : Keeps s s') {a : ℕ} {r' : PendingWantRecord W}
    (hr' : s'.records.find? a = some r') :
    ∃ r, s.records.find? a = some r ∧ SameKey r'.key r.key ∧
      (r'.canceled = r.canceled ∨ r'.canceled = true ∧ a ∉ s'.wantRecords) := by
  rcases h.records a with ⟨hnone, -⟩ | ⟨r, r'', hr'', hr, hkey, hc⟩
  · exact absurd (hr'.symm.trans hnone) nofun
  · cases hr'.symm.trans hr''
    exact ⟨r, hr, hkey, hc⟩

lemma Usable.keeps (h : Usable s) (hs : Keeps s s') : Usable s' where
  known a ha := by
    obtain ⟨r, hr⟩ := h.known a (hs.wantRecords ha)
    rcases hs.records a with ⟨-, hnone⟩ | ⟨_, r', hr', -⟩
    · exact absurd (hr.symm.trans hnone) nofun
    · exact ⟨r', hr'⟩
  keys a ha b hb r r' hr hr' hcheck := by
    obtain ⟨q, hq, hkey, -⟩ := hs.find? hr
    obtain ⟨q', hq', hkey', -⟩ := hs.find? hr'
    refine h.keys a (hs.wantRecords ha) b (hs.wantRecords hb) q q' hq hq' ?_
    exact check_equivalence.trans (check_equivalence.symm hkey.check)
      (check_equivalence.trans hcheck hkey'.check)
  codes a ha b hb r r' hr hr' hcode := by
    obtain ⟨q, hq, hkey, -⟩ := hs.find? hr
    obtain ⟨q', hq', hkey', -⟩ := hs.find? hr'
    rw [hkey.code, hkey'.code] at hcode
    exact h.codes a (hs.wantRecords ha) b (hs.wantRecords hb) q q' hq hq' hcode
  alive a ha r hr := by
    obtain ⟨q, hq, -, hc | ⟨-, hout⟩⟩ := hs.find? hr
    · exact hc.trans (h.alive a (hs.wantRecords ha) q hq)
    · exact absurd ha hout
  once a r hr hflag := by
    obtain ⟨q, hq, hkey, hc⟩ := hs.find? hr
    have hle := h.once a q hq (hkey.flags ▸ hflag)
    unfold timesPerformed at hle ⊢
    rw [hs.performed]
    rcases hc with hc | ⟨hc, -⟩
    · rwa [hc]
    · refine hle.trans ?_
      split <;> decide
  unborn a ha := by
    unfold timesPerformed
    rw [hs.performed]
    rcases hs.records a with ⟨-, hnone⟩ | ⟨_, r', hr', -⟩
    · exact h.unborn a hnone
    · exact absurd (ha.symm.trans hr') nofun

variable (s)

lemma keeps_cancelWantSenderLocked (record : ℕ) : Keeps s (s.cancelWantSenderLocked record) where
  wantRecords := erase_subset _ _
  performed := rfl
  records a := by
    simp only [cancelWantSenderLocked, makeWantSenderCanceledLocked, find?_modify]
    cases hr : s.records.find? a with
    | none => exact .inl ⟨by split <;> simp, rfl⟩
    | some r =>
      refine .inr ⟨r, ?_⟩
      split_ifs with heq
      · exact ⟨_, rfl, rfl, .refl _, .inr ⟨rfl, heq ▸ notMem_erase record _⟩⟩
      · exact ⟨r, rfl, rfl, .refl _, .inl rfl⟩

lemma keeps_clearPendingWantRecordTask (bundleName : String)
    (uid : ℤ) : Keeps s (s.clearPendingWantRecordTask bundleName uid) where
  wantRecords := filter_subset _ _
  performed := rfl
  records a := by
    cases hr : s.records.find? a with
    | none => exact .inl ⟨hr, rfl⟩
    | some r => exact .inr ⟨r, r, hr, rfl, .refl _, .inl rfl⟩

variable {s}

lemma keeps_updatePresent {ref : ℕ} {info : WantSenderInfo W} {appIndex : ℤ}
    (hr : s.records.find? ref = some r)
    (hcheck : checkPendingWantRecordByKey r.key (makeKey info appIndex) = true) (callingUid : ℤ) :
    Keeps s (s.updatePresent ref callingUid info) := by
  have hself (a : ℕ) : s.records.find? a = none ∧ s.records.find? a = none ∨
      ∃ q q', s.records.find? a = some q' ∧ s.records.find? a = some q ∧ SameKey q'.key q.key ∧
        (q'.canceled = q.canceled ∨ q'.canceled = true ∧ a ∉ s.wantRecords) := by
    cases hq : s.records.find? a with
    | none => exact .inl ⟨rfl, rfl⟩
    | some q => exact .inr ⟨q, q, rfl, rfl, .refl _, .inl rfl⟩
  unfold updatePresent
  cases hlast : info.allWants.getLast? with
  | none => exact ⟨subset_rfl, rfl, hself⟩
  | some last =>
    refine ⟨subset_rfl, rfl, fun a => ?_⟩
    simp only [find?_modify]
    split_ifs with heq
    · subst heq
      rw [hr]
      refine .inr ⟨r, _, rfl, rfl, ⟨?_, rfl, rfl⟩, .inl rfl⟩
      obtain ⟨-, -, -, -, -, h6, -, h8⟩ := check_iff.mp hcheck
      simp only [makeKey, hlast] at h6 h8
      exact check_iff.mpr ⟨rfl, rfl, rfl, rfl, rfl, h6.symm, rfl, RequestWant.equivalence.symm h8⟩
    · exact hself a

lemma Retired.keeps (h : Retired s) (hs : Keeps s s')
    (hout : ∀ a ∈ s.wantRecords, a ∉ s'.wantRecords → ∀ r, s'.records.find? a = some r →
      r.canceled = true) :
    Retired s' := by
  intro a r hr ha
  obtain ⟨q, hq, -, hc⟩ := hs.find? hr
  by_cases hin : a ∈ s.wantRecords
  · exact hout a hin ha r hr
  · rcases hc with hc | ⟨hc, -⟩
    · exact hc.trans (h a q hq hin)
    · exact hc

omit [RequestWant W] in
lemma canceled_of_left {record a : ℕ} (hin : a ∈ s.wantRecords)
    (hout : a ∉ (s.cancelWantSenderLocked record).wantRecords)
    (hr : (s.cancelWantSenderLocked record).records.find? a = some r) : r.canceled = true := by
  have heq : record = a := by
    by_contra hne
    exact hout (mem_erase.mpr ⟨Ne.symm hne, hin⟩)
  simp only [AbilityRuntime.PendingWantManager.cancelWantSenderLocked,
    makeWantSenderCanceledLocked, find?_modify, if_pos heq] at hr
  obtain ⟨q, -, rfl⟩ := map_eq_some_iff.mp hr
  rfl

lemma Retired.cancelWantSenderLocked (h : Retired s) (record : ℕ) :
    Retired (s.cancelWantSenderLocked record) :=
  h.keeps (keeps_cancelWantSenderLocked s record) fun _ hin hout _ hr =>
    canceled_of_left hin hout hr

variable (s)

def codeIsFree : Bool :=
  ∀ a ∈ s.wantRecords, (s.records.find? a).all fun r => r.key.code ≠ s.id + 1#32

omit [RequestWant W] in
lemma createRecord_cases (callingUid uid : ℤ) (key : PendingWantKey W) (address : Option ℕ) :
    (s.createRecord callingUid uid key address).1 = s ∨
      ∃ a, s.records.find? a = none ∧
        (s.createRecord callingUid uid key address).1 =
          { s with
            records := s.records.assign a ⟨uid, callingUid, { key with code := s.id + 1#32 }, false⟩
            wantRecords := insert a s.wantRecords
            id := s.id + 1#32 } := by
  unfold createRecord
  cases address with
  | none => exact .inl rfl
  | some a =>
    dsimp only
    split
    · exact .inl rfl
    · rename_i hfree
      refine .inr ⟨a, ?_, rfl⟩
      exact contains_eq_false.mp (Bool.not_eq_true _ ▸ hfree)

variable {s}

lemma Usable.createRecord (h : Usable s)
    (hkey : ∀ a ∈ s.wantRecords, ∀ r, s.records.find? a = some r →
      checkPendingWantRecordByKey r.key key = false)
    (hcode : s.codeIsFree = true) (callingUid uid : ℤ) (address : Option ℕ) :
    Usable (s.createRecord callingUid uid key address).1 := by
  rcases s.createRecord_cases callingUid uid key address with heq | ⟨new, hnew, heq⟩
  · rwa [heq]
  rw [heq]
  have hcode' : ∀ a ∈ s.wantRecords, ∀ r, s.records.find? a = some r →
      r.key.code ≠ s.id + 1#32 := by
    intro a ha r hr
    have hall := of_decide_eq_true hcode a ha
    rw [hr] at hall
    exact of_decide_eq_true hall
  have hne : ∀ a ∈ s.wantRecords, new ≠ a := by
    rintro a ha rfl
    obtain ⟨r, hr⟩ := h.known new ha
    exact absurd (hr.symm.trans hnew) nofun
  -- a record of the new map is the new one, or an old one at another address
  have hold : ∀ a ∈ insert new s.wantRecords, ∀ r, (s.records.assign new
      ⟨uid, callingUid, { key with code := s.id + 1#32 }, false⟩).find? a = some r →
      a = new ∧ r = ⟨uid, callingUid, { key with code := s.id + 1#32 }, false⟩ ∨
        a ∈ s.wantRecords ∧ s.records.find? a = some r := by
    intro a ha r hr
    rw [find?_assign] at hr
    rcases mem_insert.mp ha with rfl | ha
    · rw [if_pos rfl] at hr
      exact .inl ⟨rfl, (Option.some.inj hr).symm⟩
    · rw [if_neg (hne a ha)] at hr
      exact .inr ⟨ha, hr⟩
  refine ⟨fun a ha => ?_, fun a ha b hb r r' hr hr' hcheck => ?_,
    fun a ha b hb r r' hr hr' hc => ?_, fun a ha r hr => ?_, fun a r hr hflag => ?_, fun a ha => ?_⟩
  · simp only [find?_assign]
    rcases mem_insert.mp ha with rfl | ha
    · exact ⟨_, if_pos rfl⟩
    · obtain ⟨r, hr⟩ := h.known a ha
      exact ⟨r, (if_neg (hne a ha)).trans hr⟩
  · rcases hold a ha r hr with ⟨ha', rfl⟩ | ⟨ha', hr⟩ <;>
      rcases hold b hb r' hr' with ⟨hb', rfl⟩ | ⟨hb', hr'⟩
    · exact ha'.trans hb'.symm
    · have hfalse := hkey b hb' r' hr'
      exact absurd (hfalse.symm.trans (check_equivalence.symm hcheck)) Bool.false_ne_true
    · have hfalse := hkey a ha' r hr
      exact absurd (hfalse.symm.trans hcheck) Bool.false_ne_true
    · exact h.keys a ha' b hb' r r' hr hr' hcheck
  · rcases hold a ha r hr with ⟨ha', rfl⟩ | ⟨ha', hr⟩ <;>
      rcases hold b hb r' hr' with ⟨hb', rfl⟩ | ⟨hb', hr'⟩
    · exact ha'.trans hb'.symm
    · exact absurd hc.symm (hcode' b hb' r' hr')
    · exact absurd hc (hcode' a ha' r hr)
    · exact h.codes a ha' b hb' r r' hr hr' hc
  · rcases hold a ha r hr with ⟨-, rfl⟩ | ⟨ha', hr⟩
    · rfl
    · exact h.alive a ha' r hr
  · rcases find?_assign_eq_some.1 hr with ⟨rfl, -⟩ | ⟨-, hr⟩
    · exact (h.unborn a hnew).le.trans (Nat.zero_le _)
    · exact h.once a r hr hflag
  · rw [find?_assign] at ha
    split at ha
    · cases ha
    · exact h.unborn a ha

omit [RequestWant W] in
lemma Retired.createRecord (h : Retired s) (callingUid uid : ℤ) (key : PendingWantKey W)
    (address : Option ℕ) : Retired (s.createRecord callingUid uid key address).1 := by
  rcases s.createRecord_cases callingUid uid key address with heq | ⟨new, hnew, heq⟩
  · rwa [heq]
  rw [heq]
  intro a r hr hout
  obtain ⟨hne, hout⟩ := not_or.mp (fun hin => hout (mem_insert.mpr hin))
  rw [find?_assign, if_neg (Ne.symm hne)] at hr
  exact h a r hr hout

lemma Usable.check_of_canceled (h : Usable s) {ref : ℕ}
    (hget : s.getPendingWantRecordByKey key = some ref) :
    ∀ a ∈ (s.cancelWantSenderLocked ref).wantRecords, ∀ r,
      (s.cancelWantSenderLocked ref).records.find? a = some r →
        checkPendingWantRecordByKey r.key key = false := by
  intro a ha r hr
  obtain ⟨hne, ha⟩ := mem_erase.mp ha
  obtain ⟨q, hq, hkey, -⟩ := (keeps_cancelWantSenderLocked s ref).find? hr
  obtain ⟨hin, r', hr', hcheck⟩ := getPendingWantRecordByKey_eq_some hget
  by_contra htrue
  rw [Bool.not_eq_false] at htrue
  refine hne (h.keys a ha ref hin q r' hq hr' ?_)
  exact check_equivalence.trans (check_equivalence.symm hkey.check)
    (check_equivalence.trans htrue (check_equivalence.symm hcheck))

lemma codeIsFree_cancel (hc : s.codeIsFree = true) (ref : ℕ) :
    (s.cancelWantSenderLocked ref).codeIsFree = true := by
  have hkeeps := keeps_cancelWantSenderLocked s ref
  refine decide_eq_true fun a ha => ?_
  cases hr : (s.cancelWantSenderLocked ref).records.find? a with
  | none => rfl
  | some r =>
    obtain ⟨q, hq, hkey, -⟩ := hkeeps.find? hr
    have hall := of_decide_eq_true hc a (hkeeps.wantRecords ha)
    rw [hq] at hall
    refine decide_eq_true ?_
    rw [hkey.code]
    exact of_decide_eq_true hall

lemma Usable.perform (h : Usable s) {sender : ℕ} (hr : s.records.find? sender = some r)
    (hone : hasFlag r.key.flags oneTimeFlag = true →
      r.canceled = true ∧ s.timesPerformed sender = 0)
    (op : PendingOperation) :
    Usable { s with performed := s.performed ++ [(sender, op)] } := by
  have hcount (a : ℕ) : timesPerformed { s with performed := s.performed ++ [(sender, op)] } a =
      s.timesPerformed a + if sender = a then 1 else 0 := by
    simp [timesPerformed, count_singleton]
  refine { h with once := fun a r' hr' hflag => ?_, unborn := fun a ha => ?_ }
  · rw [hcount]
    split
    · rename_i heq
      subst heq
      cases hr.symm.trans hr'
      obtain ⟨hcanceled, hzero⟩ := hone hflag
      rw [hcanceled, hzero, if_pos rfl]
    · exact h.once a r' hr' hflag
  · rw [hcount, if_neg]
    · exact h.unborn a ha
    · rintro rfl
      exact absurd (hr.symm.trans ha) nofun

omit [RequestWant W] in
lemma find?_cancelWantSenderLocked {sender : ℕ} (hr : s.records.find? sender = some r) :
    (s.cancelWantSenderLocked sender).records.find? sender = some { r with canceled := true } := by
  simp only [cancelWantSenderLocked, makeWantSenderCanceledLocked, find?_modify, if_true,
    hr, map_some]

variable (s)

def codesFit : PendingOp W → Bool
  | .getWantSender .. => s.codeIsFree
  | _ => true

def clearsFit : PendingOp W → Bool
  | .clearPendingWantRecord bundleName uid =>
    ∀ a ∈ s.wantRecords, (s.records.find? a).all fun r => !isCleared r bundleName uid
  | _ => true

variable {s}

inductive Does (s : PendingWantManager W) : PendingOp W → PendingWantManager W → Prop
  | same {o : PendingOp W} : Does s o s
  | kept {o : PendingOp W} {t : PendingWantManager W} (hs : Keeps s t)
      (hout : s.clearsFit o = true → ∀ a ∈ s.wantRecords, a ∉ t.wantRecords → ∀ r,
        t.records.find? a = some r → r.canceled = true) : Does s o t
  | created {callingUid uid : ℤ} {isSystemApp isSACall : Bool} {info : WantSenderInfo W}
      {appIndex : ℤ} {address : Option ℕ}
      (hget : s.getPendingWantRecordByKey (makeKey info appIndex) = none) :
      Does s (.getWantSender callingUid uid isSystemApp isSACall info appIndex address)
        (s.createRecord callingUid uid (makeKey info appIndex) address).1
  | replaced {callingUid uid : ℤ} {isSystemApp isSACall : Bool} {info : WantSenderInfo W}
      {appIndex : ℤ} {address : Option ℕ} {ref : ℕ}
      (hget : s.getPendingWantRecordByKey (makeKey info appIndex) = some ref) :
      Does s (.getWantSender callingUid uid isSystemApp isSACall info appIndex address)
        ((s.cancelWantSenderLocked ref).createRecord callingUid uid (makeKey info appIndex)
          address).1
  | performed {o : PendingOp W} {sender : ℕ} {r : PendingWantRecord W}
      (hr : s.records.find? sender = some r)
      (hone : ¬ hasFlag r.key.flags oneTimeFlag = true) (op : PendingOperation) :
      Does s o { s with performed := s.performed ++ [(sender, op)] }
  | performedOnce {o : PendingOp W} {sender : ℕ} {r : PendingWantRecord W}
      (hr : s.records.find? sender = some r) (hlive : ¬ r.canceled = true)
      (hone : hasFlag r.key.flags oneTimeFlag = true) (op : PendingOperation) :
      Does s o { s.cancelWantSenderLocked sender with
        performed := (s.cancelWantSenderLocked sender).performed ++ [(sender, op)] }

lemma Does.canceled {o : PendingOp W} (ref : ℕ) : Does s o (s.cancelWantSenderLocked ref) :=
  .kept (keeps_cancelWantSenderLocked s ref) fun _ _ hin hout _ hr => canceled_of_left hin hout hr

lemma Does.updated {o : PendingOp W} {ref : ℕ} {info : WantSenderInfo W} {appIndex : ℤ}
    (hr : s.records.find? ref = some r)
    (hcheck : checkPendingWantRecordByKey r.key (makeKey info appIndex) = true) (callingUid : ℤ) :
    Does s o (s.updatePresent ref callingUid info) := by
  have hwant : (s.updatePresent ref callingUid info).wantRecords = s.wantRecords := by
    unfold updatePresent
    split <;> rfl
  exact .kept (keeps_updatePresent hr hcheck callingUid) fun _ _ hin hout =>
    absurd (hwant ▸ hin) hout

lemma does_step (o : PendingOp W) : Does s o (s.step o) := by
  cases o with
  | getWantSender callingUid uid isSystemApp isSACall info appIndex address =>
    simp only [step, getWantSender, getWantSenderLocked]
    split
    · exact .same
    cases hget : s.getPendingWantRecordByKey (makeKey info appIndex) with
    | none =>
      dsimp only
      split
      · exact .same
      · exact .created hget
    | some ref =>
      obtain ⟨-, r, hr, hcheck⟩ := getPendingWantRecordByKey_eq_some hget
      dsimp only
      split_ifs
      · exact .canceled ref
      · exact .replaced hget
      · exact .updated hr hcheck callingUid
      · exact .same
  | cancelWantSender isSystemApp isSACall sender =>
    simp only [step, cancelWantSender]
    split
    · exact .same
    · exact .canceled sender
  | sendWantSender sender =>
    simp only [step, senderInner]
    cases hr : s.records.find? sender with
    | none => exact .same
    | some r =>
      dsimp only
      split_ifs with hlive hone
      · exact .same
      · cases operation r.key.type with
        | none => exact .canceled sender
        | some op => exact .performedOnce hr hlive hone op
      · cases operation r.key.type with
        | none => exact .same
        | some op => exact .performed hr hone op
  | clearPendingWantRecord bundleName uid =>
    refine .kept (keeps_clearPendingWantRecordTask s bundleName uid) fun hc a hin hout => ?_
    exact absurd (Finset.mem_filter.mpr ⟨hin, of_decide_eq_true hc a hin⟩) hout

lemma Usable.step (h : Usable s) {o : PendingOp W} (hc : s.codesFit o = true) :
    Usable (s.step o) := by
  have hdoes := does_step (s := s) o
  generalize s.step o = t at hdoes ⊢
  cases hdoes with
  | same => exact h
  | kept hs => exact h.keeps hs
  | created hget =>
    refine h.createRecord (fun a ha r hr => ?_) hc ..
    have hnone := find?_eq_none.mp (map_eq_none_iff.mp hget) (a, r) (mem_entries.mpr hr)
    simpa [ha] using hnone
  | @replaced _ _ _ _ _ _ _ ref hget =>
    have hcancel := h.keeps (keeps_cancelWantSenderLocked s ref)
    exact hcancel.createRecord (h.check_of_canceled hget) (codeIsFree_cancel hc ref) ..
  | performed hr hone op => exact h.perform hr (fun hflag => absurd hflag hone) op
  | @performedOnce _ sender r hr hlive hone op =>
    have hcancel := h.keeps (keeps_cancelWantSenderLocked s sender)
    refine hcancel.perform (find?_cancelWantSenderLocked hr) (fun _ => ⟨rfl, ?_⟩) op
    have hzero := h.once sender r hr hone
    rw [if_neg hlive] at hzero
    exact Nat.le_zero.mp hzero

lemma Retired.step (h : Retired s) {o : PendingOp W} (hc : s.clearsFit o = true) :
    Retired (s.step o) := by
  have hdoes := does_step (s := s) o
  generalize s.step o = t at hdoes ⊢
  cases hdoes with
  | same | performed => exact h
  | kept hs hout => exact h.keeps hs (hout hc)
  | created => exact h.createRecord _ _ _ _
  | replaced => exact (h.cancelWantSenderLocked _).createRecord _ _ _ _
  | performedOnce => exact h.cancelWantSenderLocked _

structure OneUsable (s : PendingWantManager W) : Prop where
  usable : Usable s
  retired : Retired s
  sendsNothing : ∀ a ∉ s.wantRecords, (s.senderInner a).performed = s.performed
  oneTime : ∀ a r, s.records.find? a = some r → hasFlag r.key.flags oneTimeFlag = true →
    s.timesPerformed a ≤ 1

lemma oneUsable (h : Usable s) (hr : Retired s) : OneUsable s := by
  refine ⟨h, hr, fun a ha => ?_, fun a r hfind hflag => ?_⟩
  · unfold AbilityRuntime.PendingWantManager.senderInner
    cases hfind : s.records.find? a with
    | none => rfl
    | some r =>
      dsimp only
      rw [if_pos (hr a r hfind ha)]
  · refine (h.once a r hfind hflag).trans ?_
    split <;> decide

theorem run_oneUsable (ops : List (PendingOp W))
    (hc : Runs.Guarded step (fun s o => s.codesFit o = true) init ops)
    (hr : Runs.Guarded step (fun s o => s.clearsFit o = true) init ops) :
    OneUsable (ops.foldl step init) :=
  oneUsable (hc.invariant (fun _ _ h hf => h.step hf) usable_init)
    (hr.invariant (fun _ _ h hf => h.step hf) fun _ _ hr => absurd hr nofun)

instance instRequestWantString : RequestWant String where
  empty := ""
  getBundle w := w
  isEquals a b := decide (a = b)
  equivalence := ⟨fun _ => decide_eq_true rfl, fun h => decide_eq_true (of_decide_eq_true h).symm,
    fun h h' => decide_eq_true ((of_decide_eq_true h).trans (of_decide_eq_true h'))⟩

def senderOf (flags : BitVec 32) (address : Option ℕ) : PendingOp String :=
  .getWantSender 20010 20010 false false
    ⟨1, "com.example.app", "", 7, [⟨"com.example.app", ""⟩], flags, 100⟩ 0 address

def senderTurnover : List (PendingOp String) :=
  [senderOf oneTimeFlag (some 5), senderOf updatePresentFlag (some 9), .sendWantSender 5,
    senderOf 0#32 (some 3), senderOf cancelPresentFlag (some 8), .sendWantSender 3,
    .cancelWantSender true false 3, .sendWantSender 5, .sendWantSender 8]

theorem senderTurnover_oneUsable : OneUsable (senderTurnover.foldl step init) :=
  run_oneUsable senderTurnover (by decide +kernel) (by decide +kernel)

theorem cleared_sender_not_retired :
    ¬OneUsable ([senderOf 0#32 (some 5), .clearPendingWantRecord "com.example.app" 20010].foldl
      step init) := by
  intro h
  exact absurd (h.sendsNothing 5 (by decide +kernel)) (by decide +kernel)

end PendingWantManager

/-- An entry of `mCancelCallbacks_`, with the calls of `Send` it has got. -/
structure CancelCallback where
  receiver : ℕ
  sends : ℕ := 0

/-- `checked` has the receivers whose registration has read that the record is not canceled and
does not have the lock yet. -/
structure CancelRecord where
  canceled : Bool := false
  cancelCallbacks : List CancelCallback := []
  checked : List ℕ := []

/-- `CancelWantSender`, and a one-time send that has found the record not canceled, take the lock in
`CancelWantSenderLocked`; an unregistration has found the record; `getWantSender` has
`CANCEL_PRESENT_FLAG` and the key of the record. -/
inductive CancelOp
  | getCanceled (receiver : ℕ)
  | registerCancelListener (receiver : ℕ)
  | unregisterCancelListener (receiver : ℕ)
  | cancelWantSenderLocked
  | getWantSender

namespace CancelRecord
variable (s : CancelRecord)

def makeWantSenderCanceledLocked : CancelRecord :=
  { s with
    canceled := true
    cancelCallbacks := s.cancelCallbacks.map fun c => { c with sends := c.sends + 1 } }

def step : CancelOp → CancelRecord
  | .getCanceled receiver => if s.canceled then s else { s with checked := receiver :: s.checked }
  | .registerCancelListener receiver =>
    if receiver ∈ s.checked then
      { s with
        checked := s.checked.erase receiver
        cancelCallbacks := s.cancelCallbacks ++ [{ receiver }] }
    else s
  | .unregisterCancelListener receiver =>
    { s with cancelCallbacks := s.cancelCallbacks.eraseP (·.receiver = receiver) }
  | .cancelWantSenderLocked => s.makeWantSenderCanceledLocked
  -- a canceled record has left the map
  | .getWantSender => if s.canceled then s else s.makeWantSenderCanceledLocked

def Heard : Prop := ∀ c ∈ s.cancelCallbacks, c.sends = if s.canceled then 1 else 0

def Fits : CancelOp → Prop
  | .registerCancelListener receiver => receiver ∈ s.checked → s.canceled = false
  | .cancelWantSenderLocked => s.canceled = true → s.cancelCallbacks = []
  | _ => True

variable {s}

lemma heard_makeWantSenderCanceledLocked (h : s.Heard) :
    s.makeWantSenderCanceledLocked.Heard ↔ (s.canceled = true → s.cancelCallbacks = []) := by
  unfold Heard at h
  cases hc : s.canceled <;>
    simp_all [Heard, makeWantSenderCanceledLocked, List.eq_nil_iff_forall_not_mem]

lemma heard_step_iff (h : s.Heard) (op : CancelOp) : (s.step op).Heard ↔ s.Fits op := by
  cases op with
  | getCanceled receiver =>
    refine iff_of_true ?_ trivial
    rw [step]
    split_ifs <;> exact h
  | registerCancelListener receiver =>
    rw [step, Fits]
    split_ifs with hin
    · unfold Heard at h ⊢
      simpa [or_imp, forall_and, hin] using fun _ => h
    · exact iff_of_true h fun hc => absurd hc hin
  | unregisterCancelListener receiver =>
    exact iff_of_true (fun c hc => h c (List.mem_of_mem_eraseP hc)) trivial
  | cancelWantSenderLocked => exact heard_makeWantSenderCanceledLocked h
  | getWantSender =>
    refine iff_of_true ?_ trivial
    rw [step]
    split_ifs with hc
    · exact h
    · exact (heard_makeWantSenderCanceledLocked h).mpr fun hc' => absurd hc' hc

theorem heard_iff_fits (ops : List CancelOp) :
    (∀ n, ((ops.take n).foldl step {}).Heard) ↔ Runs.Guarded step Fits {} ops :=
  Runs.guarded_iff_forall_take (I := Heard) (fun _ op h => heard_step_iff h op) (by nofun) ops

theorem overtaken_and_repeated_not_heard :
    ¬ ([.getCanceled 1, .cancelWantSenderLocked, .registerCancelListener 1].foldl step {}).Heard ∧
    ¬ ([.getCanceled 1, .registerCancelListener 1, .cancelWantSenderLocked,
      .cancelWantSenderLocked].foldl step {}).Heard := by
  constructor <;> exact fun h => absurd (h _ (List.mem_singleton_self _)) (by decide)

end CancelRecord
end AbilityRuntime
