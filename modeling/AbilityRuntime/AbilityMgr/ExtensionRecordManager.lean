import AbilityRuntime.Library.Kahn
import AbilityRuntime.Library.Runs
import AbilityRuntime.Library.SortedMap

/-! The walks along the callers of UI extensions, with fuel for the depth of the recursion, and the
ids of the extension records. -/

namespace AbilityRuntime
open Relation SortedMap

structure ExtensionRecord (T : Type) where
  callToken : Option T
  continueToGetCallerToken : Bool := true
  rootCallerToken : Option T := none

structure ExtensionRecordManager (T : Type) where
  extensionRecords : SortedMap ℤ (Option (ExtensionRecord T))
  uiExtensionAbilityId : T → Option ℤ

namespace ExtensionRecordManager
variable {T : Type} (m : ExtensionRecordManager T) (id : ℤ)

def invalidExtensionRecordId : ℤ := 0

def record : Option (ExtensionRecord T) := (m.extensionRecords.find? id).join

inductive Hop (T : Type)
  | lost
  | known (token : Option T)
  | root (token : T)
  | through (token : T) (callerId : ℤ)

def hop : Hop T :=
  match m.record id with
  | none => .lost
  | some r =>
    if !r.continueToGetCallerToken then .known r.callToken
    else
      match r.callToken with
      | none => .lost
      | some callerToken =>
        match m.uiExtensionAbilityId callerToken with
        | none => .lost
        | some callerId =>
          if callerId = invalidExtensionRecordId then .root callerToken
          else if callerId = id then .lost
          else .through callerToken callerId

def getCallerTokenList : ℕ → ℤ → List (Option T) → Option (Option T × List (Option T))
  | 0, _, _ => none
  | fuel + 1, id, callerList =>
    match m.hop id with
    | .lost => some (none, callerList)
    | .known token => some (token, token :: callerList)
    | .root token => some (some token, some token :: callerList)
    | .through token callerId => getCallerTokenList fuel callerId (some token :: callerList)

def setRootCallerToken (token : Option T) : ExtensionRecordManager T :=
  { m with
    extensionRecords := m.extensionRecords.modify id
      (Option.map fun r => { r with rootCallerToken := token }) }

def getRootCallerTokenLocked : ℕ → ℤ → Option (Option T × ExtensionRecordManager T)
  | 0, _ => none
  | fuel + 1, id =>
    match (m.record id).bind (·.rootCallerToken) with
    | some token => some (some token, m)
    | none =>
      match m.hop id with
      | .lost => some (none, m)
      | .known token => some (token, m)
      | .root token => some (some token, m.setRootCallerToken id (some token))
      | .through _ callerId =>
        (getRootCallerTokenLocked fuel callerId).map fun (token, m) =>
          (token, m.setRootCallerToken id token)

def Calls (a b : ℤ) : Prop := ∃ token, m.hop a = .through token b

def Ends : Prop :=
  ∃ fuel, (∀ callerList, (m.getCallerTokenList fuel id callerList).isSome = true) ∧
    (m.getRootCallerTokenLocked fuel id).isSome = true

def Uncached : Prop := ∀ a, (m.record a).bind (·.rootCallerToken) = none

-- the list is filled from the front, so that the last token of the chain is its head
def Walks : Prop :=
  m.Ends id ∧ (m.Uncached →
    ∀ fuel root callerList, m.getCallerTokenList fuel id [] = some (root, callerList) →
      (m.getRootCallerTokenLocked fuel id).map Prod.fst = some root ∧
        callerList.head?.join = root)

variable {m id}

lemma ends_of_hop (h : ∀ token callerId, m.hop id = .through token callerId → m.Ends callerId) :
    m.Ends id := by
  cases hhop : m.hop id with
  | through token callerId =>
    obtain ⟨fuel, hlist, hroot⟩ := h token callerId hhop
    refine ⟨fuel + 1, fun callerList => ?_, ?_⟩
    · simpa [getCallerTokenList, hhop] using hlist _
    · simp only [getRootCallerTokenLocked, hhop]
      split
      · rfl
      · simpa using hroot
  | _ =>
    refine ⟨1, fun callerList => by simp [getCallerTokenList, hhop], ?_⟩
    simp only [getRootCallerTokenLocked, hhop]
    split <;> rfl

lemma ends_of_acyclic (h : ∀ a, ¬ TransGen m.Calls a a) (id : ℤ) : m.Ends id := by
  have hlost : ∀ a, a ∉ m.extensionRecords.keys → m.Ends a := by
    intro a ha
    have hrecord : m.record a = none := by
      rw [record, contains_eq_false.mp (by simpa using mem_keys.not.mp ha)]
      rfl
    refine ends_of_hop fun token callerId hhop => ?_
    rw [hop, hrecord] at hhop
    cases hhop
  by_cases hid : id ∈ m.extensionRecords.keys
  · refine Kahn.mem_of_acyclic (r := fun a b => m.Calls a b ∧ b ∈ m.extensionRecords.keys)
      (S := {a | m.Ends a}) (List.finite_toSet _)
      (fun _ _ _ hb => hb.2) (fun a _ hcycle => h a ?_) ?_ id hid
    · exact TransGen.mono (fun _ _ hab => hab.1) _ _ hcycle
    · intro a _ hends
      refine ends_of_hop fun token callerId hhop => ?_
      by_cases hcaller : callerId ∈ m.extensionRecords.keys
      · exact hends callerId ⟨⟨token, hhop⟩, hcaller⟩
      · exact hlost callerId hcaller
  · exact hlost id hid

lemma root_of_list (huncached : m.Uncached) (fuel : ℕ) {root : Option T}
    {callerList list : List (Option T)}
    (h : m.getCallerTokenList fuel id callerList = some (root, list)) :
    (m.getRootCallerTokenLocked fuel id).map Prod.fst = some root := by
  rw [Uncached] at huncached
  induction fuel generalizing id callerList with
  | zero => cases h
  | succ fuel ih =>
    cases hhop : m.hop id with
    | through token callerId =>
      simp only [getCallerTokenList, hhop] at h
      simpa [getRootCallerTokenLocked, huncached, hhop] using ih h
    | _ =>
      simp only [getCallerTokenList, hhop] at h
      obtain ⟨rfl, rfl⟩ := h
      simp [getRootCallerTokenLocked, huncached, hhop]

lemma head_of_list (hkept : ∀ a b, m.Calls a b → m.hop b ≠ .lost) (fuel : ℕ)
    {root : Option T} {callerList list : List (Option T)} (hid : m.hop id ≠ .lost)
    (h : m.getCallerTokenList fuel id callerList = some (root, list)) :
    list.head? = some root := by
  induction fuel generalizing id callerList with
  | zero => cases h
  | succ fuel ih =>
    cases hhop : m.hop id with
    | through token callerId =>
      simp only [getCallerTokenList, hhop] at h
      exact ih (hkept id callerId ⟨token, hhop⟩) h
    | lost => exact absurd hhop hid
    | _ =>
      simp only [getCallerTokenList, hhop] at h
      obtain ⟨rfl, rfl⟩ := h
      rfl

lemma list_of_cycle (h : TransGen m.Calls id id) (fuel : ℕ) (callerList : List (Option T)) :
    m.getCallerTokenList fuel id callerList = none := by
  induction fuel generalizing id callerList with
  | zero => rfl
  | succ fuel ih =>
    obtain ⟨callerId, ⟨token, hhop⟩, hback⟩ := TransGen.head'_iff.mp h
    simp only [getCallerTokenList, hhop]
    exact ih (.tail' hback ⟨token, hhop⟩) _

theorem walks_iff (m : ExtensionRecordManager T) :
    (∀ id, m.Walks id) ↔ (∀ id, ¬ TransGen m.Calls id id) ∧
      (m.Uncached → ∀ a b, m.Calls a b → m.hop b ≠ .lost) := by
  constructor
  · intro h
    refine ⟨fun id hcycle => ?_, fun huncached a b hcalls hlost => ?_⟩
    · obtain ⟨fuel, hlist, -⟩ := (h id).1
      simp [list_of_cycle hcycle] at hlist
    · -- the chain of `a` stops at its caller, with no root
      obtain ⟨token, hhop⟩ := hcalls
      have hlist : m.getCallerTokenList 2 a [] = some (none, [some token]) := by
        simp [getCallerTokenList, hhop, hlost]
      exact absurd ((h a).2 huncached 2 _ _ hlist).2 (by simp)
  · rintro ⟨hacyclic, hkept⟩ id
    refine ⟨ends_of_acyclic hacyclic id, fun huncached fuel root callerList hlist =>
      ⟨root_of_list huncached fuel hlist, ?_⟩⟩
    by_cases hid : m.hop id = .lost
    · cases fuel with
      | zero => cases hlist
      | succ fuel =>
        simp only [getCallerTokenList, hid] at hlist
        obtain ⟨rfl, rfl⟩ := hlist
        rfl
    · rw [head_of_list (hkept huncached) fuel hid hlist]
      rfl

def callingBack : ExtensionRecordManager ℕ :=
  ⟨(empty.assign 1 (some { callToken := some 2 })).assign 2 (some { callToken := some 1 }),
    fun token => some token⟩

def callerGone : ExtensionRecordManager ℕ :=
  { callingBack with extensionRecords := callingBack.extensionRecords.erase 2 }

theorem callingBack_never_ends : (∀ fuel, callingBack.getCallerTokenList fuel 1 [] = none) ∧
    callerGone.getCallerTokenList 2 1 [] = some (none, [some 2]) ∧
    (callerGone.getRootCallerTokenLocked 2 1).map Prod.fst = some none := by
  have hone : callingBack.Calls 1 2 := ⟨2, rfl⟩
  have htwo : callingBack.Calls 2 1 := ⟨1, rfl⟩
  exact ⟨fun fuel => list_of_cycle (.head hone (.single htwo)) fuel [], by decide, by decide⟩

end ExtensionRecordManager
structure ExtensionRecordIds where
  extensionRecordId : ℤ := 0
  extensionRecordIdSet : Finset ℤ := ∅
  returned : List ℤ := []

namespace ExtensionRecordIds
open ExtensionRecordManager
variable (s : ExtensionRecordIds) (id : ℤ)

def next : ℤ := Int.bmod (id + 1) (2 ^ 32)

def skip : ℕ → ℤ → ℤ
  | 0, id => id
  | fuel + 1, id => if id ∈ s.extensionRecordIdSet then skip fuel (next id) else id

def generateExtensionRecordId : ExtensionRecordIds :=
  if id ≠ invalidExtensionRecordId ∧ id ∉ s.extensionRecordIdSet then
    ⟨id, insert id s.extensionRecordIdSet, id :: s.returned⟩
  else
    let found := s.skip s.extensionRecordIdSet.card
      (if id = invalidExtensionRecordId then next s.extensionRecordId else s.extensionRecordId)
    { s with extensionRecordId := found, returned := found :: s.returned }

def Fits : Prop :=
  if id = invalidExtensionRecordId then
    s.extensionRecordId + s.extensionRecordIdSet.card + 1 < 2147483648
  else s.extensionRecordId < id
  deriving Decidable

structure Grows : Prop where
  nonneg : 0 ≤ s.extensionRecordId
  known : ∀ x, x ∈ s.extensionRecordIdSet ∨ x ∈ s.returned → x ≤ s.extensionRecordId
  distinct : s.returned.Nodup

variable {s id}

lemma next_of_lt (h : 0 ≤ id) (hlt : id + 1 < 2147483648) : next id = id + 1 := by
  rw [next, Int.bmod_def]
  omega

lemma le_skip {fuel : ℕ} (h : 0 ≤ id) (hlt : id + fuel < 2147483648) : id ≤ s.skip fuel id := by
  induction fuel generalizing id with
  | zero => exact le_rfl
  | succ fuel ih =>
    rw [skip]
    split_ifs
    · rw [next_of_lt h (by omega)]
      have hrest : id + 1 ≤ s.skip fuel (id + 1) := ih (by omega) (by omega)
      omega
    · exact le_rfl

lemma Grows.moved (h : s.Grows) {ids : Finset ℤ} (hid : s.extensionRecordId < id)
    (hids : ∀ x ∈ ids, x = id ∨ x ∈ s.extensionRecordIdSet) :
    Grows ⟨id, ids, id :: s.returned⟩ where
  nonneg := h.nonneg.trans hid.le
  known x hx := by
    have hold : x = id ∨ x ≤ s.extensionRecordId := by
      rcases hx with hx | hx
      · exact (hids x hx).imp_right fun hin => h.known x (.inl hin)
      · exact (List.mem_cons.mp hx).imp_right fun hin => h.known x (.inr hin)
    exact hold.elim le_of_eq fun hle => hle.trans hid.le
  distinct := List.nodup_cons.mpr ⟨fun hin => hid.not_ge (h.known id (.inr hin)), h.distinct⟩

lemma Grows.step (h : s.Grows) (hf : s.Fits id) : (s.generateExtensionRecordId id).Grows := by
  have hnonneg := h.nonneg
  unfold Fits at hf
  unfold generateExtensionRecordId
  by_cases hinvalid : id = invalidExtensionRecordId
  · rw [if_pos hinvalid] at hf
    rw [if_neg fun hnew => hnew.1 hinvalid, if_pos hinvalid, next_of_lt hnonneg (by omega)]
    refine h.moved (lt_of_lt_of_le ?_ (le_skip ?_ ?_)) fun x hx => .inr hx <;> omega
  · rw [if_neg hinvalid] at hf
    rw [if_pos ⟨hinvalid, fun hin => hf.not_ge (h.known id (.inl hin))⟩]
    exact h.moved hf fun x hx => Finset.mem_insert.mp hx

theorem ids_distinct {ids : List ℤ} (h : Runs.Guarded generateExtensionRecordId Fits {} ids) :
    (ids.foldl generateExtensionRecordId {}).returned.Nodup :=
  (h.invariant (I := Grows) (fun _ _ hs hf => hs.step hf) ⟨le_rfl, nofun, .nil⟩).distinct

theorem known_and_new_distinct : ([0, 7, 0].foldl generateExtensionRecordId {}).returned.Nodup :=
  ids_distinct (by decide)

theorem made_up_not_distinct : ([0, 1].foldl generateExtensionRecordId {}).returned = [1, 1] ∧
    ([5, 5, 5].foldl generateExtensionRecordId {}).returned = [6, 6, 5] := by
  decide

end ExtensionRecordIds

end AbilityRuntime
