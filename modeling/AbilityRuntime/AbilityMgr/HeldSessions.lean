import Mathlib.Data.List.GetD
import AbilityRuntime.AbilityMgr.UIAbilityLifecycleManager

/-! What one step does to the records and to the tables that lead to them. A record in
`sessionAbilityMap` is never one that is being terminated. -/

open List

namespace AbilityRuntime.SceneBoard
open SortedMap

namespace UIAbilityRecord
variable {a b c : UIAbilityRecord} {f g : UIAbilityRecord → UIAbilityRecord}

def identity (a : UIAbilityRecord) : AbilityInfo × ℤ × ℤ × String :=
  (a.abilityInfo, a.appIndex, a.persistentId, a.specifiedFlag)

def Tame (f : UIAbilityRecord → UIAbilityRecord) : Prop :=
  ∀ a, (f a).identity = a.identity ∧ (f a).isTerminating = a.isTerminating ∧
    ((f a).state = .terminating → a.state = .terminating)

variable {k : Outstanding}

variable (k) in
lemma tame_take : Tame (·.take k) := fun _ => ⟨rfl, rfl, id⟩

structure Grows (a b : UIAbilityRecord) : Prop where
  processDied : b.processDied = a.processDied
  isWatched : b.isWatched = a.isWatched
  tasks : ∀ k ∈ a.outstanding, k = .onAbilityDied ∨ k = .completeTerminate → k ∈ b.outstanding

lemma Grows.trans (h : Grows a b) (h' : Grows b c) : Grows a c where
  processDied := h'.processDied.trans h.processDied
  isWatched := h'.isWatched.trans h.isWatched
  tasks := fun k hk hkind => h'.tasks k (h.tasks k hk hkind) hkind

lemma grows_of_outstanding (hdied : b.processDied = a.processDied)
    (hwatched : b.isWatched = a.isWatched) (hsame : b.outstanding = a.outstanding) :
    Grows a b := ⟨hdied, hwatched, fun _ hk _ => hsame ▸ hk⟩

lemma grows_refl (a : UIAbilityRecord) : Grows a a := grows_of_outstanding rfl rfl rfl

lemma Grows.ite {p : Prop} [Decidable p] (hb : Grows a b) (hc : Grows a c) :
    Grows a (if p then b else c) := by
  split
  · exact hb
  · exact hc

variable (a k) in
lemma grows_post : Grows a (a.post k) := ⟨rfl, rfl, fun _ hx _ => mem_append_left _ hx⟩

variable (a)

lemma grows_cancel (hdied : k ≠ .onAbilityDied)
    (hcomplete : k ≠ .completeTerminate) : Grows a (a.cancel k) := by
  refine ⟨rfl, rfl, ?_⟩
  intro x hx hkind
  refine mem_filter.mpr ⟨hx, decide_eq_true ?_⟩
  rintro rfl
  exact hkind.elim hdied hcomplete

lemma grows_take (hdied : k ≠ .onAbilityDied)
    (hcomplete : k ≠ .completeTerminate) : Grows a (a.take k) := by
  refine ⟨rfl, rfl, ?_⟩
  intro x hx hkind
  refine (mem_erase_of_ne ?_).mpr hx
  rintro rfl
  exact hkind.elim hdied hcomplete

structure Works (a b : UIAbilityRecord) : Prop extends Grows a b where
  identity : b.identity = a.identity
  isTerminating : b.isTerminating = a.isTerminating
  state : b.state = .terminating → a.state = .terminating

lemma Tame.of_works (h : ∀ a, Works a (f a)) : Tame f :=
  fun a => ⟨(h a).identity, (h a).isTerminating, (h a).state⟩

lemma works_refl : Works a a := ⟨grows_refl a, rfl, rfl, id⟩

lemma works_post (k : Outstanding) : Works a (a.post k) := ⟨grows_post a k, rfl, rfl, id⟩

lemma works_cancel (hk : k ≠ .onAbilityDied ∧ k ≠ .completeTerminate) : Works a (a.cancel k) :=
  ⟨grows_cancel a hk.1 hk.2, rfl, rfl, id⟩

variable {a}

namespace Works

lemma trans (h : Works a b) (h' : Works b c) : Works a c where
  toGrows := h.toGrows.trans h'.toGrows
  identity := h'.identity.trans h.identity
  isTerminating := h'.isTerminating.trans h.isTerminating
  state := fun hc => h.state (h'.state hc)

lemma ite {p : Prop} [Decidable p] (hb : Works a b) (hc : Works a c) :
    Works a (if p then b else c) := by
  split
  · exact hb
  · exact hc

lemma post (h : Works a b) (k : Outstanding) : Works a (b.post k) := h.trans (works_post b k)

lemma setState (h : Works a b) {st : AbilityState} (hst : st ≠ .terminating) :
    Works a { b with state := st } :=
  { h with state := fun hc => absurd hc hst }

end Works

variable (a)

lemma works_postForegroundTimeoutTask : Works a a.postForegroundTimeoutTask :=
  (works_refl a).ite (works_post a _)

lemma works_foregroundAbility : Works a a.foregroundAbility := (works_post a _).setState (by decide)

lemma works_processForegroundAbility (loaded : Bool) :
    Works a (a.processForegroundAbility loaded) := by
  have htimeout := works_postForegroundTimeoutTask a
  have hmove : Works a
      { a.postForegroundTimeoutTask.post .moveToForeground with state := .foregrounding } :=
    (htimeout.post _).setState (by decide)
  have hload : Works a a.loadTimeoutTask := (works_refl a).ite (works_post a _)
  exact ((htimeout.trans (works_foregroundAbility _)).ite hmove).ite ((hload.post _).ite hload)

lemma works_moveToBackground : Works a a.moveToBackground := by
  have htimeout : Works a a.backgroundTimeoutTask := (works_refl a).ite (works_post a _)
  have hposted : Works a
      { a.backgroundTimeoutTask.post .backgroundNew with state := .backgrounding } :=
    (htimeout.post _).setState (by decide)
  exact { hposted with }

lemma works_start (loaded : Bool) : Works a (a.start loaded) := by
  have hasked : Works a { a with pendingState := .foreground, asked := .foreground } :=
    { works_refl a with }
  exact hasked.ite (hasked.trans (works_processForegroundAbility _ loaded))

lemma works_minimizeUIAbility : Works a a.minimizeUIAbility := by
  have hasked : Works a { a with asked := .background } := { works_refl a with }
  have hpending : Works a { a with pendingState := .background, asked := .background } :=
    { works_refl a with }
  exact hpending.ite (hasked.ite (hpending.trans (works_moveToBackground _)))

lemma works_attachAbilityThread (attached : Bool) : Works a (a.attachAbilityThread attached) := by
  have hready : Works a { a.cancel .loadTimeout with isReady := true } :=
    { works_cancel a (k := .loadTimeout) ⟨by decide, by decide⟩ with }
  exact ((hready.trans (works_postForegroundTimeoutTask _)).post _).ite (hready.post _)

lemma works_onAbilityRequestDone : Works a a.onAbilityRequestDone :=
  (works_cancel a ⟨by decide, by decide⟩).ite (works_foregroundAbility a)

lemma works_dispatch {p : Prop} [Decidable p] {timeout task : Outstanding}
    (hk : timeout ≠ .onAbilityDied ∧ timeout ≠ .completeTerminate) :
    Works a (if p then a else (a.cancel timeout).post task) :=
  (works_refl a).ite ((works_cancel a hk).post _)

lemma works_dispatchTerminate : Works a a.dispatchTerminate :=
  works_dispatch a ⟨by decide, by decide⟩

lemma works_completeForegroundSuccess : Works a a.completeForegroundSuccess := by
  have hfront : Works a { a with state := .foreground } := (works_refl a).setState (by decide)
  exact (hfront.trans (works_moveToBackground _)).ite (.ite { hfront with } hfront)

lemma works_windowFreezed : Works a a.windowFreezed := (works_refl a).setState (by decide)

lemma works_completeBackground : Works a a.completeBackground := by
  have hback : Works a { a with state := .background } := (works_refl a).setState (by decide)
  exact ((hback.trans (works_postForegroundTimeoutTask _)).post _).ite (.ite { hback with } hback)

variable {a}

lemma tame_onProcessDied : Tame onProcessDied := by
  intro a
  unfold onProcessDied
  split_ifs <;> exact ⟨rfl, rfl, id⟩

variable (a)

lemma identity_terminate : a.terminate.identity = a.identity := by
  unfold terminate terminateTimeoutTask
  split <;> rfl

lemma identity_cancelTimeout : a.cancelTimeout.identity = a.identity := by
  unfold cancelTimeout
  split <;> rfl

variable {a}

end UIAbilityRecord

namespace SessionAbilities
open UIAbilityRecord
variable {s t u : SessionAbilities} {r j : ℕ} {f : UIAbilityRecord → UIAbilityRecord}

variable (s r j f) in
lemma record_modifyRecord : (s.modifyRecord r f).record j =
      if r = j ∧ j < s.records.length then f (s.record j) else s.record j :=
  Ledger.getD_modify f r j {}

lemma record_modifyRecord_of_ne (h : j ≠ r) : (s.modifyRecord r f).record j = s.record j := by
  rw [record_modifyRecord, if_neg fun hrj => h hrj.1.symm]

lemma record_modifyRecord_self (h : r < s.records.length) :
    (s.modifyRecord r f).record r = f (s.record r) := by
  rw [record_modifyRecord, if_pos ⟨rfl, h⟩]

lemma modifyRecord_of {p : UIAbilityRecord → Prop} (hf : p (f (s.record r)))
    (h : p (s.record r)) : p ((s.modifyRecord r f).record r) := by
  rw [record_modifyRecord]
  split
  · exact hf
  · exact h

lemma length_modifyRecord : (s.modifyRecord r f).records.length = s.records.length :=
  length_modify f s.records r

lemma lt_length_of_ne (h : s.record r ≠ {}) : r < s.records.length := by
  rcases Nat.lt_or_ge r s.records.length with hlt | hge
  · exact hlt
  · exact absurd (getD_eq_default s.records {} hge) h

lemma identity_modifyRecord (hf : ∀ a, (f a).identity = a.identity) (j : ℕ) :
    ((s.modifyRecord r f).record j).identity = (s.record j).identity := by
  rw [record_modifyRecord]
  split
  · exact hf _
  · rfl

lemma record_eraseAbilityRecord : (s.eraseAbilityRecord r).record j = s.record j := by
  unfold eraseAbilityRecord
  split <;> rfl

lemma records_eraseAbilityRecord : (s.eraseAbilityRecord r).records = s.records := by
  unfold eraseAbilityRecord
  split <;> rfl

lemma terminateAbilityList_eraseAbilityRecord :
    (s.eraseAbilityRecord r).terminateAbilityList = s.terminateAbilityList := by
  unfold eraseAbilityRecord
  split <;> rfl

lemma eraseAbilityRecord_modifyRecord :
    (s.modifyRecord r f).eraseAbilityRecord r = (s.eraseAbilityRecord r).modifyRecord r f := by
  have hmap : (s.modifyRecord r f).sessionAbilityMap = s.sessionAbilityMap := rfl
  unfold eraseAbilityRecord
  rw [hmap]
  cases s.sessionAbilityMap.entries.find? (·.2 = r) <;> rfl

lemma eraseAbilityRecord_pushTerminateAbility : (s.pushTerminateAbility r).eraseAbilityRecord r =
      (s.eraseAbilityRecord r).pushTerminateAbility r := by
  have hmap : (s.pushTerminateAbility r).sessionAbilityMap = s.sessionAbilityMap := rfl
  unfold eraseAbilityRecord
  rw [hmap]
  cases s.sessionAbilityMap.entries.find? (·.2 = r) <;> rfl

lemma find?_of_eraseAbilityRecord {persistentId : ℤ}
    (h : (s.eraseAbilityRecord r).sessionAbilityMap.find? persistentId = some j) :
    s.sessionAbilityMap.find? persistentId = some j := by
  unfold eraseAbilityRecord at h
  split at h
  · exact (find?_erase_eq_some.1 h).2
  · exact h

def IsHeld (s : SessionAbilities) (r : ℕ) : Prop :=
  ∃ persistentId, s.sessionAbilityMap.find? persistentId = some r

lemma holds_iff : s.holds r = true ↔ s.IsHeld r := by
  unfold holds
  rw [any_eq_true]
  constructor
  · rintro ⟨p, hp, hr⟩
    exact ⟨p.1, mem_entries.mp ((of_decide_eq_true hr) ▸ hp)⟩
  · rintro ⟨persistentId, hfind⟩
    exact ⟨(persistentId, r), mem_entries.mpr hfind, decide_eq_true rfl⟩

structure Held (s : SessionAbilities) : Prop where
  known : ∀ persistentId r, s.sessionAbilityMap.find? persistentId = some r →
    r < s.records.length
  session : ∀ persistentId r, s.sessionAbilityMap.find? persistentId = some r →
    (s.record r).persistentId = persistentId
  alive : ∀ r, s.IsHeld r → r ∉ s.terminateAbilityList ∧
    (s.record r).state ≠ .terminating ∧ (s.record r).isTerminating = false
  listed : ∀ r ∈ s.terminateAbilityList, r < s.records.length

lemma Held.not_isHeld_eraseAbilityRecord (h : Held s) (r : ℕ) :
    ¬ (s.eraseAbilityRecord r).IsHeld r := by
  rintro ⟨persistentId, hfind⟩
  have hbefore := find?_of_eraseAbilityRecord hfind
  unfold eraseAbilityRecord at hfind
  cases hentry : s.sessionAbilityMap.entries.find? (·.2 = r) with
  | none =>
    have hmem := mem_entries.mpr hbefore
    have hne := find?_eq_none.mp hentry _ hmem
    exact hne (decide_eq_true rfl)
  | some p =>
    rw [hentry] at hfind
    have hdecide := find?_some hentry
    have hr : p.2 = r := of_decide_eq_true hdecide
    have hp := mem_entries.mp (mem_of_find?_eq_some hentry)
    -- the record stands under one id only, the one of its session
    have hsame : p.1 = persistentId := by
      rw [← h.session p.1 p.2 hp, hr]
      exact h.session persistentId r hbefore
    exact (find?_erase_eq_some.1 hfind).1 hsame

structure Evolves (r : ℕ) (s t : SessionAbilities) : Prop where
  length : t.records.length = s.records.length
  identity : ∀ j, (t.record j).identity = (s.record j).identity
  shrinks : ∀ persistentId j, t.sessionAbilityMap.find? persistentId = some j →
    s.sessionAbilityMap.find? persistentId = some j
  own : t.IsHeld r → (r ∈ t.terminateAbilityList → r ∈ s.terminateAbilityList) ∧
    ((t.record r).state = .terminating → (s.record r).state = .terminating) ∧
    (t.record r).isTerminating = (s.record r).isTerminating
  others : ∀ j, j ≠ r → t.record j = s.record j ∨
    (j ∈ s.terminateAbilityList ∧ (s.record j).state = .background ∧
      t.record j = (s.record j).terminate)
  listed : ∀ j, j ≠ r → (j ∈ t.terminateAbilityList ↔ j ∈ s.terminateAbilityList)
  entered : r ∈ t.terminateAbilityList → r ∈ s.terminateAbilityList ∨ r < s.records.length
  specified : ∀ p ∈ t.specifiedAbilityMap, p ∈ s.specifiedAbilityMap
  kept : ∀ p ∈ s.specifiedAbilityMap, t.IsHeld p.2 → p ∈ t.specifiedAbilityMap

lemma Evolves.isHeld (h : Evolves r s t) (hj : t.IsHeld j) : s.IsHeld j := by
  obtain ⟨persistentId, hfind⟩ := hj
  exact ⟨persistentId, h.shrinks persistentId j hfind⟩

lemma evolves_refl (r : ℕ) (s : SessionAbilities) : Evolves r s s where
  length := rfl
  identity := fun _ => rfl
  shrinks := fun _ _ h => h
  own := fun _ => ⟨id, id, rfl⟩
  others := fun _ _ => .inl rfl
  listed := fun _ _ => .rfl
  entered := .inl
  specified := fun _ h => h
  kept := fun _ h _ => h

lemma Evolves.trans (h : Evolves r s t) (h' : Evolves r t u) : Evolves r s u where
  length := h'.length.trans h.length
  identity := fun j => (h'.identity j).trans (h.identity j)
  shrinks := fun persistentId j hfind => h.shrinks persistentId j (h'.shrinks persistentId j hfind)
  own := by
    intro hheld
    obtain ⟨hlist', hstate', hterm'⟩ := h'.own hheld
    obtain ⟨hlist, hstate, hterm⟩ := h.own (h'.isHeld hheld)
    exact ⟨fun hin => hlist (hlist' hin), fun hin => hstate (hstate' hin), hterm'.trans hterm⟩
  others := by
    intro j hj
    rcases h'.others j hj with hsame | ⟨hin, hstate, hterm⟩
    · rw [hsame]
      exact h.others j hj
    · rcases h.others j hj with hsame | ⟨-, -, hterm'⟩
      · rw [hsame] at hstate hterm
        exact .inr ⟨(h.listed j hj).mp hin, hstate, hterm⟩
      · rw [hterm'] at hstate
        cases hstate
  listed := fun j hj => (h'.listed j hj).trans (h.listed j hj)
  entered := by
    intro hin
    rcases h'.entered hin with hin' | hlt
    · exact h.entered hin'
    · exact .inr (h.length ▸ hlt)
  specified := fun p hp => h.specified p (h'.specified p hp)
  kept := fun p hp hheld => h'.kept p (h.kept p hp (h'.isHeld hheld)) hheld

lemma Held.evolves (h : Held s) (he : Evolves r s t) : Held t where
  known := by
    intro persistentId j hfind
    rw [he.length]
    exact h.known persistentId j (he.shrinks persistentId j hfind)
  session := by
    intro persistentId j hfind
    have hid := congrArg (·.2.2.1) (he.identity j)
    exact hid.trans (h.session persistentId j (he.shrinks persistentId j hfind))
  alive := by
    intro j hj
    obtain ⟨hlist, hstate, hterm⟩ := h.alive j (he.isHeld hj)
    by_cases hjr : j = r
    · subst hjr
      obtain ⟨hlist', hstate', hterm'⟩ := he.own hj
      exact ⟨fun hin => hlist (hlist' hin), fun hin => hstate (hstate' hin), hterm'.trans hterm⟩
    · refine ⟨fun hin => hlist ((he.listed j hjr).mp hin), ?_⟩
      rcases he.others j hjr with hsame | ⟨hin, -, -⟩
      · rw [hsame]
        exact ⟨hstate, hterm⟩
      · exact absurd hin hlist
  listed := by
    intro j hj
    rw [he.length]
    by_cases hjr : j = r
    · subst hjr
      exact (he.entered hj).elim (h.listed j) id
    · exact h.listed j ((he.listed j hjr).mp hj)

variable (s r) in
lemma evolves_modifyRecord (hf : Tame f) : Evolves r s (s.modifyRecord r f) where
  length := length_modifyRecord
  identity := identity_modifyRecord fun a => (hf a).1
  shrinks := fun _ _ h => h
  own := by
    intro _
    refine ⟨id, modifyRecord_of (p := fun a => (a.state = .terminating → _) ∧ a.isTerminating = _)
      ⟨(hf _).2.2, (hf _).2.1⟩ ⟨id, rfl⟩⟩
  others := fun _ hj => .inl (record_modifyRecord_of_ne hj)
  listed := fun _ _ => .rfl
  entered := .inl
  specified := fun _ h => h
  kept := fun _ h _ => h

lemma evolves_of_works (hf : ∀ a, Works a (f a)) : Evolves r s (s.modifyRecord r f) :=
  evolves_modifyRecord s r (.of_works hf)

structure Retires (r : ℕ) (s t : SessionAbilities) : Prop where
  map : t.sessionAbilityMap = s.sessionAbilityMap
  length : t.records.length = s.records.length
  identity : ∀ j, (t.record j).identity = (s.record j).identity
  others : ∀ j, j ≠ r → t.record j = s.record j
  listed : ∀ j, j ≠ r → (j ∈ t.terminateAbilityList ↔ j ∈ s.terminateAbilityList)
  entered : r ∈ t.terminateAbilityList → r ∈ s.terminateAbilityList ∨ r < s.records.length
  specified : ∀ p ∈ t.specifiedAbilityMap, p ∈ s.specifiedAbilityMap
  kept : ∀ p ∈ s.specifiedAbilityMap, p.2 ≠ r → p ∈ t.specifiedAbilityMap

lemma Retires.trans (h : Retires r s t) (h' : Retires r t u) : Retires r s u where
  map := h'.map.trans h.map
  length := h'.length.trans h.length
  identity := fun j => (h'.identity j).trans (h.identity j)
  others := fun j hj => (h'.others j hj).trans (h.others j hj)
  listed := fun j hj => (h'.listed j hj).trans (h.listed j hj)
  entered := by
    intro hin
    rcases h'.entered hin with hin' | hlt
    · exact h.entered hin'
    · exact .inr (h.length ▸ hlt)
  specified := fun p hp => h.specified p (h'.specified p hp)
  kept := fun p hp hr => h'.kept p (h.kept p hp hr) hr

lemma retires_refl (r : ℕ) (s : SessionAbilities) : Retires r s s where
  map := rfl
  length := rfl
  identity := fun _ => rfl
  others := fun _ _ => rfl
  listed := fun _ _ => .rfl
  entered := .inl
  specified := fun _ h => h
  kept := fun _ h _ => h

variable (s r) in
lemma retires_modifyRecord
    (hf : ∀ a, (f a).identity = a.identity) : Retires r s (s.modifyRecord r f) where
  map := rfl
  length := length_modifyRecord
  identity := identity_modifyRecord hf
  others := fun _ hj => record_modifyRecord_of_ne hj
  listed := fun _ _ => .rfl
  entered := .inl
  specified := fun _ h => h
  kept := fun _ h _ => h

lemma retires_pushTerminateAbility (hr : r < s.records.length) :
    Retires r s (s.pushTerminateAbility r) :=
  { retires_refl r s with
    entered := fun _ => .inr hr
    listed := by
      intro j hj
      unfold pushTerminateAbility
      rw [mem_append, mem_singleton]
      exact or_iff_left hj }

variable (s r)

lemma retires_removeTerminateAbility : Retires r s (s.removeTerminateAbility r) :=
  { retires_refl r s with
    entered := fun hin => .inl (mem_filter.mp hin).1
    listed := by
      intro j hj
      unfold removeTerminateAbility
      rw [mem_filter]
      exact and_iff_left (decide_eq_true hj) }

lemma retires_eraseSpecifiedAbilityRecord : Retires r s (s.eraseSpecifiedAbilityRecord r) :=
  { retires_refl r s with
    specified := fun _ hp => mem_of_mem_eraseP hp
    kept := by
      intro p hp hr
      refine (mem_eraseP_of_neg ?_).mpr hp
      intro hboth
      exact hr (of_decide_eq_true hboth).1 }

variable {s r}

lemma Retires.evolves (h : Retires r s t) (hr : ¬ s.IsHeld r) : Evolves r s t where
  __ := h
  shrinks := fun _ _ hfind => h.map ▸ hfind
  own := by
    rintro ⟨persistentId, hfind⟩
    exact absurd ⟨persistentId, h.map ▸ hfind⟩ hr
  others := fun j hj => .inl (h.others j hj)
  kept := by
    rintro p hp ⟨persistentId, hfind⟩
    refine h.kept p hp ?_
    intro hpr
    exact hr ⟨persistentId, hpr ▸ h.map ▸ hfind⟩

lemma Held.eraseAbilityRecord (h : Held s) (r : ℕ) : Evolves r s (s.eraseAbilityRecord r) := by
  have hgone := h.not_isHeld_eraseAbilityRecord r
  have hshrinks (persistentId : ℤ) (j : ℕ) := @find?_of_eraseAbilityRecord s r j persistentId
  obtain ⟨map, hmap⟩ : ∃ map, s.eraseAbilityRecord r = { s with sessionAbilityMap := map } := by
    unfold SessionAbilities.eraseAbilityRecord
    split <;> exact ⟨_, rfl⟩
  rw [hmap] at hgone hshrinks ⊢
  exact { evolves_refl r s with
    shrinks := hshrinks
    own := fun hheld => absurd hheld hgone
    kept := fun _ hp _ => hp }

lemma Held.retires (h : Held s) (hret : Retires r (s.eraseAbilityRecord r) t) : Evolves r s t :=
  (h.eraseAbilityRecord r).trans (hret.evolves (h.not_isHeld_eraseAbilityRecord r))

lemma Held.gone (h : Held s) (hret : Retires r (s.eraseAbilityRecord r) t) : ¬ t.IsHeld r := by
  rintro ⟨persistentId, hfind⟩
  exact h.not_isHeld_eraseAbilityRecord r ⟨persistentId, hret.map ▸ hfind⟩

lemma retires_closeUIAbility (isClearSession : Bool)
    (h : ((s.record r).isTerminating && !(s.record r).isForeground) = false) :
    Retires r (s.eraseAbilityRecord r) (s.closeUIAbility r isClearSession) := by
  have hmark : Retires r (s.eraseAbilityRecord r)
      ((s.modifyRecord r fun a => { a with isTerminating := true }).eraseAbilityRecord r) := by
    rw [eraseAbilityRecord_modifyRecord]
    exact retires_modifyRecord _ r fun _ => rfl
  unfold closeUIAbility
  rw [if_neg (by rw [h]; exact Bool.false_ne_true)]
  split
  · split
    · exact hmark
    · exact hmark.trans (retires_modifyRecord _ r fun _ => rfl)
  · rename_i hstate
    have hlt : r < s.records.length :=
      lt_length_of_ne fun hdefault => hstate (congrArg state hdefault)
    have hlist := hmark.trans (retires_pushTerminateAbility
      (by rw [records_eraseAbilityRecord, length_modifyRecord]; exact hlt))
    split
    · exact hlist
    · split
      · refine hlist.trans (retires_modifyRecord _ r fun a => ?_)
        exact (works_moveToBackground { a with pendingState := .background }).identity
      · split
        · exact hlist.trans (retires_modifyRecord _ r identity_terminate)
        · exact hlist

lemma closeUIAbility_of_terminating (isClearSession : Bool)
    (h : ((s.record r).isTerminating && !(s.record r).isForeground) = true) :
    s.closeUIAbility r isClearSession = s := if_pos h

lemma Held.closeUIAbility (h : Held s) (r : ℕ) (isClearSession : Bool) :
    Evolves r s (s.closeUIAbility r isClearSession) := by
  cases hterm : (s.record r).isTerminating && !(s.record r).isForeground with
  | true =>
    rw [closeUIAbility_of_terminating isClearSession hterm]
    exact evolves_refl r s
  | false => exact h.retires (retires_closeUIAbility isClearSession hterm)

lemma Held.not_isHeld_closeUIAbility (h : Held s) (r : ℕ) (isClearSession : Bool) :
    ¬ (s.closeUIAbility r isClearSession).IsHeld r := by
  intro hheld
  have hterm := (h.alive r ((h.closeUIAbility r isClearSession).isHeld hheld)).2.2
  exact h.gone (retires_closeUIAbility isClearSession (by rw [hterm]; rfl)) hheld

protected lemma Held.handleForegroundFailed (h : Held s) (r : ℕ) :
    Evolves r s (s.handleForegroundFailed r) := by
  unfold handleForegroundFailed
  have herase := h.eraseAbilityRecord r
  split
  · exact evolves_refl r s
  · exact herase.trans ((h.evolves herase).closeUIAbility r false)

lemma record_foldl_terminateInBackground (l : List ℕ) (s : SessionAbilities) (j : ℕ) :
    (l.foldl terminateInBackground s).record j = s.record j ∨
      (j ∈ l ∧ (s.record j).state = .background ∧
        (l.foldl terminateInBackground s).record j = (s.record j).terminate) := by
  induction l generalizing s with
  | nil => exact .inl rfl
  | cons i l ih =>
    have hfirst : (s.terminateInBackground i).record j = s.record j ∨
        (i = j ∧ (s.record j).state = .background ∧
          (s.terminateInBackground i).record j = (s.record j).terminate) := by
      unfold terminateInBackground
      split
      · rename_i hstate
        rw [record_modifyRecord]
        split_ifs with hij
        · exact .inr ⟨hij.1, hij.1 ▸ hstate, rfl⟩
        · exact .inl rfl
      · exact .inl rfl
    rcases ih (s.terminateInBackground i) with hrest | ⟨hin, hstate, hrest⟩
    · rcases hfirst with hsame | ⟨rfl, hback, hterm⟩
      · exact .inl (hrest.trans hsame)
      · exact .inr ⟨mem_cons_self, hback, hrest.trans hterm⟩
    · rcases hfirst with hsame | ⟨-, -, hterm⟩
      · rw [hsame] at hstate hrest
        exact .inr ⟨mem_cons_of_mem _ hin, hstate, hrest⟩
      · -- a record that was terminated is not in the background any more
        rw [hterm] at hstate
        cases hstate

lemma foldl_terminateInBackground (l : List ℕ) (s : SessionAbilities) :
    ∃ records, l.foldl terminateInBackground s = { s with records } ∧
      records.length = s.records.length := by
  induction l generalizing s with
  | nil => exact ⟨_, rfl, rfl⟩
  | cons i l ih =>
    obtain ⟨records, hfold, hlength⟩ := ih (s.terminateInBackground i)
    rw [foldl_cons, hfold]
    refine ⟨records, ?_, hlength.trans ?_⟩ <;> unfold terminateInBackground <;> split
    · rfl
    · rfl
    · exact length_modifyRecord
    · rfl

protected lemma Held.completeBackground (h : Held s) (r : ℕ) :
    Evolves r s (s.completeBackground r) := by
  unfold completeBackground
  split
  · exact evolves_refl r s
  · have hback : Evolves r s (s.modifyRecord r (·.completeBackground)) :=
      evolves_of_works works_completeBackground
    refine hback.trans ?_
    have hlist := ((h.evolves hback).alive r ·)
    have hrecord := record_foldl_terminateInBackground s.terminateAbilityList
      (s.modifyRecord r (·.completeBackground))
    obtain ⟨records, hfold, hlength⟩ := foldl_terminateInBackground s.terminateAbilityList
      (s.modifyRecord r (·.completeBackground))
    rw [hfold] at hrecord ⊢
    refine { evolves_refl r _ with
      length := hlength
      entered := .inl
      others := fun j _ => hrecord j
      kept := fun _ hp _ => hp
      identity := fun j => ?_
      own := fun hheld => ?_ }
    · rcases hrecord j with hsame | ⟨-, -, hterm⟩
      · rw [hsame]
      · rw [hterm, identity_terminate]
    · rcases hrecord r with hsame | ⟨hin, -, -⟩
      · rw [hsame]
        exact ⟨id, id, rfl⟩
      · exact absurd hin (hlist hheld).1

protected lemma Held.completeTerminate (h : Held s) (r : ℕ) :
    Evolves r s (s.completeTerminate r) := by
  unfold completeTerminate
  split_ifs with hstate
  · exact evolves_refl r s
  · have hgone : ¬ s.IsHeld r := fun hheld => hstate (h.alive r hheld).2.1
    have hwatch := retires_modifyRecord s r (f := fun a => { a with isWatched := false })
      fun _ => rfl
    have hspecified := hwatch.trans (retires_eraseSpecifiedAbilityRecord _ r)
    exact (hspecified.trans (retires_removeTerminateAbility _ r)).evolves hgone

protected lemma Held.handleForegroundTimeout (h : Held s) (r : ℕ) :
    Evolves r s (s.handleForegroundTimeout r) := by
  unfold handleForegroundTimeout
  split
  · exact evolves_refl r s
  · exact h.retires (retires_eraseSpecifiedAbilityRecord _ r)

lemma retires_onAbilityDied (hr : r < s.records.length) :
    Retires r (s.eraseAbilityRecord r) (s.onAbilityDied r) := by
  unfold onAbilityDied
  rw [eraseAbilityRecord_pushTerminateAbility, eraseAbilityRecord_modifyRecord]
  have hdie := retires_modifyRecord (s.eraseAbilityRecord r) r (f := die) identity_cancelTimeout
  have hlist := hdie.trans (retires_pushTerminateAbility
    (by rw [length_modifyRecord, records_eraseAbilityRecord]; exact hr))
  have hposted := hlist.trans
    (retires_modifyRecord _ r fun a => (works_dispatchTerminate a).identity)
  exact hposted.trans (retires_eraseSpecifiedAbilityRecord _ r)

lemma Held.handle (h : Held s) (hr : r < s.records.length) (reply : Reply)
    (k : Outstanding) : Evolves r s (s.handle r reply k) := by
  have hite : ∀ {c : Bool} {t : SessionAbilities}, Evolves r s t →
      Evolves r s (if c then t else s) := by
    intro c t ht
    split
    · exact ht
    · exact evolves_refl r s
  cases k with
  | load => exact hite (evolves_of_works (works_attachAbilityThread · _))
  | moveToForeground => exact hite (evolves_of_works works_onAbilityRequestDone)
  | foregroundNew => exact hite (evolves_of_works (works_dispatch · ⟨by decide, by decide⟩))
  | backgroundNew => exact hite (evolves_of_works (works_dispatch · ⟨by decide, by decide⟩))
  | terminate => exact hite (evolves_of_works works_dispatchTerminate)
  | loadTimeout => exact hite (h.eraseAbilityRecord r)
  | foregroundTimeout => exact hite (h.handleForegroundTimeout r)
  | backgroundTimeout => exact h.completeBackground r
  | terminateTimeout => exact evolves_of_works (works_post · _)
  | completeForegroundSuccess => exact evolves_of_works works_completeForegroundSuccess
  | foregroundWindowFreezed => exact evolves_of_works works_windowFreezed
  | handleForegroundFailed => exact h.handleForegroundFailed r
  | completeBackground => exact h.completeBackground r
  | completeTerminate => exact h.completeTerminate r
  | delayKillProcess => exact h.completeTerminate r
  | onAbilityDied => exact h.retires (retires_onAbilityDied hr)
  | terminateSession => exact h.closeUIAbility r false

lemma lt_length_of_mem_outstanding {k : Outstanding} (h : k ∈ (s.record r).outstanding) :
    r < s.records.length := by
  apply lt_length_of_ne
  intro hdefault
  rw [hdefault] at h
  cases h

protected lemma Held.happen (h : Held s) (r : ℕ) (k : Outstanding) (reply : Reply) :
    Evolves r s (s.happen r k reply) := by
  unfold happen
  have htake := evolves_modifyRecord s r (tame_take k)
  split_ifs with hk
  · refine htake.trans ((h.evolves htake).handle ?_ reply k)
    rw [length_modifyRecord]
    exact lt_length_of_mem_outstanding hk
  · exact evolves_refl r s

variable (s r) in
lemma evolves_setWant (want : Want) : Evolves r s (s.setWant r want) :=
  evolves_modifyRecord s r fun _ => ⟨rfl, rfl, id⟩

lemma held_init : Held {} where
  known := fun _ _ h => by cases h
  session := fun _ _ h => by cases h
  alive := by
    rintro r ⟨persistentId, h⟩
    cases h
  listed := nofun

def renewed (call : StartCall) (a : UIAbilityRecord) : UIAbilityRecord :=
  { a with
    isNewWant := call.isNewWant
    want := if call.isNewWant then a.setWant call.request.want else a.want }

lemma startUIAbility_cases (s : SessionAbilities) (call : StartCall) (persistentId : ℤ) :
    (∃ r, s.sessionAbilityMap.find? persistentId = some r ∧
      s.startUIAbility call persistentId =
        (s.modifyRecord r fun a => (renewed call a).start call.isLoaded,
          if (s.record r).pendingState ≠ .initial then none else some r)) ∨
    (s.sessionAbilityMap.find? persistentId = none ∧
      s.startUIAbility call persistentId =
        ({ s with
            records := s.records ++
              [(createAbilityRecord call.request persistentId).start call.isLoaded]
            sessionAbilityMap := s.sessionAbilityMap.emplace persistentId s.records.length },
          some s.records.length)) ∨
    s.startUIAbility call persistentId = (s, none) := by
  unfold startUIAbility
  cases hfind : s.sessionAbilityMap.find? persistentId with
  | some r => exact .inl ⟨r, rfl, rfl⟩
  | none =>
    dsimp only
    split
    · exact .inr (.inr rfl)
    · exact .inr (.inl ⟨rfl, rfl⟩)

lemma works_renewed (call : StartCall) (a : UIAbilityRecord) :
    Works a ((renewed call a).start call.isLoaded) := by
  have hrenewed : Works a (renewed call a) := { works_refl a with }
  exact hrenewed.trans (works_start _ _)

lemma Held.create (h : Held s) {persistentId : ℤ} {a : UIAbilityRecord}
    (hnew : s.sessionAbilityMap.find? persistentId = none) (hid : a.persistentId = persistentId)
    (hstate : a.state ≠ .terminating) (hterm : a.isTerminating = false) :
    Held { s with
      records := s.records ++ [a]
      sessionAbilityMap := s.sessionAbilityMap.emplace persistentId s.records.length } := by
  have hfind : ∀ id j, (s.sessionAbilityMap.emplace persistentId s.records.length).find? id =
      some j → (id = persistentId ∧ j = s.records.length) ∨ s.sessionAbilityMap.find? id = some j :=
    fun id j hj => (find?_emplace_eq_some hnew).1 hj
  have hlast : (s.records ++ [a]).getD s.records.length {} = a := by
    simp
  have hold : ∀ j, j < s.records.length → (s.records ++ [a]).getD j {} = s.record j :=
    fun j hj => getD_append s.records [a] {} j hj
  refine ⟨?_, ?_, ?_, ?_⟩
  · intro id j hj
    rw [length_append]
    rcases hfind id j hj with ⟨-, rfl⟩ | hj
    · exact Nat.lt_succ_self _
    · exact Nat.lt_succ_of_lt (h.known id j hj)
  · intro id j hj
    rcases hfind id j hj with ⟨rfl, rfl⟩ | hj
    · exact (congrArg persistentId hlast).trans hid
    · exact (congrArg UIAbilityRecord.persistentId (hold j (h.known id j hj))).trans
        (h.session id j hj)
  · rintro j ⟨id, hj⟩
    rcases hfind id j hj with ⟨rfl, rfl⟩ | hj
    · refine ⟨fun hin => Nat.lt_irrefl _ (h.listed _ hin), ?_⟩
      unfold record
      rw [hlast]
      exact ⟨hstate, hterm⟩
    · obtain ⟨hlist, halive⟩ := h.alive j ⟨id, hj⟩
      refine ⟨hlist, ?_⟩
      unfold record
      rw [hold j (h.known id j hj)]
      exact halive
  · intro j hj
    rw [length_append]
    exact Nat.lt_add_right _ (h.listed j hj)

lemma Held.startUIAbility (h : Held s) (call : StartCall) (persistentId : ℤ) :
    Held (s.startUIAbility call persistentId).1 := by
  rcases startUIAbility_cases s call persistentId with ⟨r, -, hs⟩ | ⟨hnew, hs⟩ | hs
  · rw [hs]
    exact h.evolves (evolves_of_works (works_renewed call))
  · rw [hs]
    have hstart := works_start (createAbilityRecord call.request persistentId) call.isLoaded
    refine h.create hnew (congrArg (·.2.2.1) hstart.identity) ?_ hstart.isTerminating
    intro hterminating
    cases hstart.state hterminating
  · rw [hs]
    exact h

lemma Held.setSpecified (h : Held s) (call : StartCall) (info : SpecifiedInfo) (r : ℕ) :
    Held (s.setSpecified call info r) := by
  have hrecord : ∀ j, ((s.setSpecified call info r).record j).persistentId =
      (s.record j).persistentId ∧
      ((s.setSpecified call info r).record j).state = (s.record j).state ∧
      ((s.setSpecified call info r).record j).isTerminating = (s.record j).isTerminating := by
    intro j
    change ((s.modifyRecord r _).record j).persistentId = _ ∧
      ((s.modifyRecord r _).record j).state = _ ∧ ((s.modifyRecord r _).record j).isTerminating = _
    rw [record_modifyRecord]
    split <;> exact ⟨rfl, rfl, rfl⟩
  have hlength : (s.setSpecified call info r).records.length = s.records.length :=
    length_modifyRecord
  refine ⟨?_, ?_, ?_, ?_⟩
  · intro persistentId j hfind
    rw [hlength]
    exact h.known persistentId j hfind
  · intro persistentId j hfind
    rw [(hrecord j).1]
    exact h.session persistentId j hfind
  · intro j hheld
    rw [(hrecord j).2.1, (hrecord j).2.2]
    exact h.alive j hheld
  · intro j hin
    rw [hlength]
    exact h.listed j hin

end SessionAbilities

open SessionAbilities

namespace UIAbilityLifecycleManager
variable {m : UIAbilityLifecycleManager}

lemma sessions_sendSessionInfoToSCB (callerToken : Option ℕ) (persistentId : ℤ) (isQueued : Bool) :
    (m.sendSessionInfoToSCB callerToken persistentId isQueued).sessions = m.sessions := by
  unfold sendSessionInfoToSCB
  split <;> rfl

lemma sessions_notifySCBToStartUIAbility (request : AbilityRequest) (persistentId : ℤ) :
    (m.notifySCBToStartUIAbility request persistentId).sessions = m.sessions := by
  unfold notifySCBToStartUIAbility
  split
  · rfl
  · exact sessions_sendSessionInfoToSCB _ _ _

lemma sessions_onAcceptWantResponse (want : Want) (flag : String) (requestId pick : ℕ) :
    (m.onAcceptWantResponse want flag requestId pick).sessions = m.sessions ∨
      ∃ r newWant, (m.onAcceptWantResponse want flag requestId pick).sessions =
        m.sessions.setWant r newWant := by
  unfold onAcceptWantResponse
  split
  · exact .inl rfl
  · unfold answerRequest startAbilityBySpecifed moveAbilityToFront
    split
    · exact .inl rfl
    · split
      · exact .inl (sessions_sendSessionInfoToSCB _ _ _)
      · split
        · exact .inl rfl
        · exact .inr ⟨_, _, sessions_sendSessionInfoToSCB _ _ _⟩

variable (m) in
lemma sessions_startUIAbility (call : StartCall) : (m.startUIAbility call).sessions = m.sessions ∨
    ∃ a rest, m.activations = a :: rest ∧ call.isValidSession = true ∧
      ((m.startUIAbility call).sessions =
          (m.sessions.startUIAbility call (sessionFor a call)).1 ∨
        ∃ entry entries r, m.specifiedInfoQueue = entry :: entries ∧
          (m.sessions.startUIAbility call (sessionFor a call)).2 = some r ∧
          call.request.abilityInfo.launchMode = .specified ∧
          (m.startUIAbility call).sessions =
            (m.sessions.startUIAbility call (sessionFor a call)).1.setSpecified call
              entry.info r) := by
  unfold UIAbilityLifecycleManager.startUIAbility
  cases hactivations : m.activations with
  | nil => exact .inl rfl
  | cons a rest =>
    dsimp only
    cases hvalid : call.isValidSession with
    | false => exact .inl rfl
    | true =>
      refine .inr ⟨a, rest, rfl, rfl, ?_⟩
      cases hstarted : (m.sessions.startUIAbility call (sessionFor a call)).2 with
      | none => exact .inl rfl
      | some r =>
        by_cases hmode : call.request.abilityInfo.launchMode = .specified
        · cases hqueue : m.specifiedInfoQueue with
          | nil => exact .inl (by simp [checkSpecified])
          | cons entry entries =>
            refine .inr ⟨entry, entries, r, rfl, rfl, hmode, ?_⟩
            simp [checkSpecified, hmode]
        · exact .inl (by simp [checkSpecified, hmode])

inductive Moves (m : UIAbilityLifecycleManager) : Op → SessionAbilities → Prop
  | same {op : Op} : Moves m op m.sessions
  | reused {op : Op} (r : ℕ) (want : Want) : Moves m op (m.sessions.setWant r want)
  | started {call : StartCall} {a : Activation} {rest : List Activation}
      (hactivations : m.activations = a :: rest) (hvalid : call.isValidSession = true) :
      Moves m (.startUIAbility call) (m.sessions.startUIAbility call (sessionFor a call)).1
  | specified {call : StartCall} {a : Activation} {rest : List Activation} {entry : QueuedInfo}
      {entries : List QueuedInfo} {r : ℕ} (hactivations : m.activations = a :: rest)
      (hvalid : call.isValidSession = true) (hqueue : m.specifiedInfoQueue = entry :: entries)
      (hstarted : (m.sessions.startUIAbility call (sessionFor a call)).2 = some r)
      (hmode : call.request.abilityInfo.launchMode = .specified) :
      Moves m (.startUIAbility call)
        ((m.sessions.startUIAbility call (sessionFor a call)).1.setSpecified call entry.info r)
  | minimized (r : ℕ) :
      Moves m (.minimizeUIAbility r) (m.sessions.modifyRecord r (·.minimizeUIAbility))
  | closed (r : ℕ) (isClearSession : Bool) :
      Moves m (.closeUIAbility r isClearSession) (m.sessions.closeUIAbility r isClearSession)
  | died (r : ℕ) : Moves m (.processDied r) (m.sessions.modifyRecord r (·.onProcessDied))
  | happened (r : ℕ) (k : Outstanding) (reply : Reply) :
      Moves m (.happen r k reply) (m.sessions.happen r k reply)

variable (m) in
lemma moves_step (op : Op) : Moves m op (m.step op).sessions := by
  cases op with
  | setRootSceneSession => exact .same
  | notifySCBToStartUIAbility request persistentId =>
    rw [step, sessions_notifySCBToStartUIAbility]
    exact .same
  | startSpecifiedAbilityBySCB request => exact .same
  | onAcceptWantResponse want flag requestId pick =>
    rw [step]
    rcases sessions_onAcceptWantResponse (m := m) want flag requestId pick with hs | ⟨r, w, hs⟩
    · rw [hs]
      exact .same
    · rw [hs]
      exact .reused r w
  | onStartSpecifiedAbilityTimeoutResponse requestId => exact .same
  | notifySCBPendingActivation callerToken persistentId =>
    rw [step, sessions_sendSessionInfoToSCB]
    exact .same
  | startUIAbility call =>
    rw [step]
    rcases sessions_startUIAbility m call with hs | ⟨a, rest, hactivations, hvalid, hs⟩
    · rw [hs]
      exact .same
    · rcases hs with hs | ⟨entry, entries, r, hqueue, hstarted, hmode, hs⟩
      · rw [hs]
        exact .started hactivations hvalid
      · rw [hs]
        exact .specified hactivations hvalid hqueue hstarted hmode
  | minimizeUIAbility r => exact .minimized r
  | closeUIAbility r isClearSession => exact .closed r isClearSession
  | processDied r => exact .died r
  | happen r k reply => exact .happened r k reply

lemma held_step (h : m.sessions.Held) (op : Op) : (m.step op).sessions.Held := by
  have hmoves := moves_step m op
  generalize (m.step op).sessions = t at hmoves ⊢
  cases hmoves with
  | same => exact h
  | reused r want => exact h.evolves (evolves_setWant _ r want)
  | started _ _ => exact h.startUIAbility _ _
  | specified _ _ _ _ _ => exact (h.startUIAbility _ _).setSpecified _ _ _
  | minimized r =>
    exact h.evolves (evolves_of_works UIAbilityRecord.works_minimizeUIAbility)
  | closed r isClearSession => exact h.evolves (h.closeUIAbility r isClearSession)
  | died r => exact h.evolves (evolves_modifyRecord _ r UIAbilityRecord.tame_onProcessDied)
  | happened r k reply => exact h.evolves (h.happen r k reply)

def HasLeft (r : ℕ) (s : SessionAbilities) : Prop := r < s.records.length ∧ ¬ s.IsHeld r

variable {r : ℕ} {s t : SessionAbilities}

lemma HasLeft.evolves {j : ℕ} (h : HasLeft r s) (he : Evolves j s t) : HasLeft r t :=
  ⟨he.length ▸ h.1, fun hheld => h.2 (he.isHeld hheld)⟩

lemma HasLeft.startUIAbility (h : HasLeft r s) (call : StartCall) (persistentId : ℤ) :
    HasLeft r (s.startUIAbility call persistentId).1 := by
  rcases startUIAbility_cases s call persistentId with ⟨j, -, hs⟩ | ⟨hnew, hs⟩ | hs
  · rw [hs]
    exact h.evolves (evolves_of_works (works_renewed call))
  · rw [hs]
    refine ⟨h.1.trans_le (by simp), ?_⟩
    rintro ⟨id, hfind⟩
    -- the new entry leads to a record that was not known before
    rcases (find?_emplace_eq_some hnew).1 hfind with ⟨-, hlast⟩ | hfind
    · exact h.1.ne hlast
    · exact h.2 ⟨id, hfind⟩
  · rw [hs]
    exact h

lemma hasLeft_step (hheld : m.sessions.Held) (h : HasLeft r m.sessions) (op : Op) :
    HasLeft r (m.step op).sessions := by
  have hmoves := moves_step m op
  generalize (m.step op).sessions = t at hmoves ⊢
  cases hmoves with
  | same => exact h
  | reused j want => exact h.evolves (evolves_setWant _ j want)
  | started _ _ => exact h.startUIAbility _ _
  | @specified call a =>
    have hstart := h.startUIAbility call (sessionFor a call)
    exact ⟨hstart.1.trans_eq length_modifyRecord.symm, hstart.2⟩
  | minimized j => exact h.evolves (evolves_of_works UIAbilityRecord.works_minimizeUIAbility)
  | closed j isClearSession => exact h.evolves (hheld.closeUIAbility j isClearSession)
  | died j => exact h.evolves (evolves_modifyRecord _ j UIAbilityRecord.tame_onProcessDied)
  | happened j k reply => exact h.evolves (hheld.happen j k reply)

theorem run_held_left (ops more : List Op) : (run ops).sessions.Held ∧
    ∀ r, HasLeft r (run ops).sessions → HasLeft r (run (ops ++ more)).sessions := by
  have hheld : (run ops).sessions.Held := foldlRecOn (motive := fun m => m.sessions.Held) ops step
    held_init fun _ h op _ => held_step h op
  refine ⟨hheld, fun r h => ?_⟩
  rw [run, foldl_append]
  exact (foldlRecOn (motive := fun m => m.sessions.Held ∧ HasLeft r m.sessions) more step
    ⟨hheld, h⟩ fun _ h op _ => ⟨held_step h.1 op, hasLeft_step h.1 h.2 op⟩).2

end UIAbilityLifecycleManager

end AbilityRuntime.SceneBoard
