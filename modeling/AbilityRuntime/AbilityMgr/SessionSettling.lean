import AbilityRuntime.AbilityMgr.HeldSessions

/-! Sessions settle in the state last asked for: a record that is under way has a mark
(`pendingState`) and something outstanding that drives it on. -/

namespace AbilityRuntime.SceneBoard
open List

def Outstanding.isForegroundStep : Outstanding → Bool
  | load | moveToForeground | foregroundNew | completeForegroundSuccess
  | foregroundWindowFreezed | handleForegroundFailed => true
  | _ => false

def Outstanding.isBackgroundStep : Outstanding → Bool
  | backgroundNew | backgroundTimeout | completeBackground => true
  | _ => false

namespace UIAbilityRecord
variable {a : UIAbilityRecord} {k : Outstanding}

def rising (a : UIAbilityRecord) : List Outstanding := a.outstanding.filter (·.isForegroundStep)

lemma rising_post_of_not (a : UIAbilityRecord) (hk : k.isForegroundStep = false) :
    (a.post k).rising = a.rising := by
  unfold rising post
  rw [filter_append, filter_singleton, hk, cond_false, append_nil]

lemma rising_post (h : a.rising = []) (hk : k.isForegroundStep = true) :
    (a.post k).rising = [k] := by
  unfold rising at h
  unfold rising post
  rw [filter_append, filter_singleton, hk, cond_true, h, nil_append]

lemma rising_cancel (a : UIAbilityRecord) (hk : k.isForegroundStep = false) :
    (a.cancel k).rising = a.rising := by
  unfold rising cancel
  rw [filter_filter]
  apply filter_congr
  intro x _
  by_cases hx : x = k
  · rw [hx, hk]
    rfl
  · simp [hx]

variable (a k) in
lemma rising_take : (a.take k).rising = a.rising.erase k := erase_filter.symm

variable (a)

lemma rising_take_of_not (hk : k.isForegroundStep = false) : (a.take k).rising = a.rising := by
  rw [rising_take]
  apply erase_of_not_mem
  intro hmem
  have hstep := (mem_filter.mp hmem).2
  rw [hk] at hstep
  cases hstep

variable {a}

def Rises (a : UIAbilityRecord) : Outstanding → Prop
  | .load => a.state = .initial
  | .moveToForeground => a.isReady = true ∧
      (a.state = .initial ∨ a.state = .foregrounding ∨ a.state = .background)
  | .foregroundNew | .completeForegroundSuccess | .handleForegroundFailed =>
    a.isReady = true ∧ a.state = .foregrounding
  | _ => False

def IsAsked (a : UIAbilityRecord) : Prop := a.asked = .foreground ∨ a.asked = .background

inductive Settling (a : UIAbilityRecord) : Prop
  | settled (hpending : a.pendingState = .initial) (hasked : a.IsAsked) (hready : a.isReady = true)
      (hstate : a.state = a.asked) (hrising : a.rising = [])
  | rising (k : Outstanding) (hpending : a.pendingState = a.asked) (hasked : a.IsAsked)
      (hrising : a.rising = [k]) (hrises : a.Rises k)
  | falling (hpending : a.pendingState = a.asked) (hasked : a.IsAsked) (hready : a.isReady = true)
      (hstate : a.state = .backgrounding) (hrising : a.rising = [])
      (hdriven : ∃ k ∈ a.outstanding, k.isBackgroundStep = true)
  | waiting (hpending : a.pendingState = a.asked) (hasked : a.IsAsked) (hstate : a.state = .initial)
      (hrising : a.rising = [])
      (hdriven : .loadTimeout ∈ a.outstanding ∨ .terminateSession ∈ a.outstanding)

lemma IsAsked.ne_initial (h : a.IsAsked) : a.asked ≠ .initial := by
  rcases h with h | h <;> rw [h] <;> decide

lemma Settling.of_nothing (h : Settling a) (hnone : a.outstanding = []) :
    a.pendingState = .initial ∧ a.IsAsked ∧ a.state = a.asked := by
  have hrising : a.rising = [] := by
    unfold UIAbilityRecord.rising
    rw [hnone]
    rfl
  cases h with
  | settled hpending hasked hready hstate => exact ⟨hpending, hasked, hstate⟩
  | rising k _ _ hk =>
    rw [hrising] at hk
    cases hk
  | falling _ _ _ _ _ hdriven =>
    obtain ⟨k, hk, -⟩ := hdriven
    rw [hnone] at hk
    cases hk
  | waiting _ _ _ _ hdriven =>
    rw [hnone] at hdriven
    exact hdriven.elim (fun h => nomatch h) fun h => nomatch h

structure Follows (a b : UIAbilityRecord) : Prop where
  ready : b.isReady = a.isReady
  state : b.state = a.state
  rising : b.rising = a.rising
  falling : a.state = .backgrounding → ∀ k ∈ a.outstanding, k.isBackgroundStep = true →
    k ∈ b.outstanding
  waiting : ∀ k ∈ a.outstanding, k = .loadTimeout ∨ k = .terminateSession → k ∈ b.outstanding
  marks : (b.pendingState = a.pendingState ∧ b.asked = a.asked) ∨
    (a.pendingState ≠ .initial ∧ b.pendingState = b.asked ∧ b.IsAsked)

lemma Follows.marked {b : UIAbilityRecord} (h : Follows a b) (hpending : a.pendingState = a.asked)
    (hasked : a.IsAsked) : b.pendingState = b.asked ∧ b.IsAsked := by
  rcases h.marks with ⟨hp, ha⟩ | ⟨-, hp, ha⟩
  · refine ⟨(hp.trans hpending).trans ha.symm, ?_⟩
    unfold IsAsked
    rw [ha]
    exact hasked
  · exact ⟨hp, ha⟩

lemma Settling.follows {b : UIAbilityRecord} (h : Settling a) (hf : Follows a b) : Settling b := by
  cases h with
  | settled hpending hasked hready hstate hrising =>
    rcases hf.marks with ⟨hp, ha⟩ | ⟨hne, -⟩
    · refine .settled (hp.trans hpending) ?_ (hf.ready.trans hready) ?_ (hf.rising.trans hrising)
      · unfold IsAsked
        rw [ha]
        exact hasked
      · rw [hf.state, ha]
        exact hstate
    · exact absurd hpending hne
  | rising k hpending hasked hrising hrises =>
    obtain ⟨hp, ha⟩ := hf.marked hpending hasked
    refine .rising k hp ha (hf.rising.trans hrising) ?_
    cases k <;> simp only [Rises, hf.state, hf.ready] at hrises ⊢ <;> exact hrises
  | falling hpending hasked hready hstate hrising hdriven =>
    obtain ⟨hp, ha⟩ := hf.marked hpending hasked
    obtain ⟨k, hk, hback⟩ := hdriven
    exact .falling hp ha (hf.ready.trans hready) (hf.state.trans hstate)
      (hf.rising.trans hrising) ⟨k, hf.falling hstate k hk hback, hback⟩
  | waiting hpending hasked hstate hrising hdriven =>
    obtain ⟨hp, ha⟩ := hf.marked hpending hasked
    refine .waiting hp ha (hf.state.trans hstate) (hf.rising.trans hrising) ?_
    exact hdriven.imp (fun hk => hf.waiting _ hk (.inl rfl)) fun hk => hf.waiting _ hk (.inr rfl)

variable (a)

lemma follows_post (hk : k.isForegroundStep = false) : Follows a (a.post k) where
  ready := rfl
  state := rfl
  rising := rising_post_of_not a hk
  falling := fun _ _ hx _ => mem_append_left _ hx
  waiting := fun _ hx _ => mem_append_left _ hx
  marks := .inl ⟨rfl, rfl⟩

lemma follows_refl : Follows a a :=
  ⟨rfl, rfl, rfl, fun _ _ hk _ => hk, fun _ hk _ => hk, .inl ⟨rfl, rfl⟩⟩

lemma follows_postForegroundTimeoutTask : Follows a a.postForegroundTimeoutTask := by
  unfold postForegroundTimeoutTask
  split
  · exact follows_refl a
  · exact follows_post a rfl

lemma follows_backgroundTimeoutTask : Follows a a.backgroundTimeoutTask := by
  unfold backgroundTimeoutTask
  split
  · exact follows_refl a
  · exact follows_post a rfl

lemma follows_take (hfront : k.isForegroundStep = false)
    (hback : a.state = .backgrounding → k.isBackgroundStep = false)
    (hwait : k ≠ .loadTimeout ∧ k ≠ .terminateSession) : Follows a (a.take k) where
  ready := rfl
  state := rfl
  rising := rising_take_of_not a hfront
  falling := by
    intro hstate x hx hstep
    refine (mem_erase_of_ne ?_).mpr hx
    rintro rfl
    rw [hback hstate] at hstep
    cases hstep
  waiting := by
    intro x hx hkind
    refine (mem_erase_of_ne ?_).mpr hx
    rintro rfl
    exact hkind.elim hwait.1 hwait.2
  marks := .inl ⟨rfl, rfl⟩

variable {a}

protected lemma Settling.onProcessDied (h : Settling a) : Settling a.onProcessDied := by
  unfold onProcessDied
  split
  · exact h
  · split
    · exact (h.follows (follows_post a rfl)).follows
        ⟨rfl, rfl, rfl, fun _ _ hk _ => hk, fun _ hk _ => hk, .inl ⟨rfl, rfl⟩⟩
    · exact h.follows ⟨rfl, rfl, rfl, fun _ _ hk _ => hk, fun _ hk _ => hk, .inl ⟨rfl, rfl⟩⟩

lemma Settling.mark (h : Settling a) (hpending : a.pendingState ≠ .initial) {st : AbilityState}
    (hst : st = .foreground ∨ st = .background) :
    Settling { a with pendingState := st, asked := st } :=
  h.follows ⟨rfl, rfl, rfl, fun _ _ hk _ => hk, fun _ hk _ => hk, .inr ⟨hpending, rfl, hst⟩⟩

lemma Settling.of_pendingState (h : Settling a) (hpending : a.pendingState = .initial) :
    a.isReady = true ∧ a.IsAsked ∧ a.state = a.asked ∧ a.rising = [] := by
  have hmarked : a.pendingState = a.asked → a.IsAsked → False := by
    intro hp ha
    exact ha.ne_initial (hp.symm.trans hpending)
  cases h with
  | settled _ hasked hready hstate hrising => exact ⟨hready, hasked, hstate, hrising⟩
  | rising _ hp ha => exact (hmarked hp ha).elim
  | falling hp ha => exact (hmarked hp ha).elim
  | waiting hp ha => exact (hmarked hp ha).elim

section
variable (hpending : a.pendingState = a.asked)
include hpending

lemma settling_moveToBackground (hasked : a.IsAsked)
    (hready : a.isReady = true) (hrising : a.rising = []) : Settling a.moveToBackground := by
  have hf := follows_backgroundTimeoutTask a
  obtain ⟨hp, ha⟩ := hf.marked hpending hasked
  have hsame : (a.backgroundTimeoutTask.post .backgroundNew).rising = [] :=
    (rising_post_of_not _ rfl).trans (hf.rising.trans hrising)
  exact .falling hp ha (hf.ready.trans hready) rfl hsame
    ⟨.backgroundNew, mem_append_right _ mem_cons_self, rfl⟩

lemma settling_moveToForeground (hasked : a.IsAsked)
    (hready : a.isReady = true) (hrising : a.rising = [])
    (hstate : a.state = .initial ∨ a.state = .foregrounding ∨ a.state = .background) :
    Settling (a.postForegroundTimeoutTask.post .moveToForeground) := by
  have hf := follows_postForegroundTimeoutTask a
  obtain ⟨hp, ha⟩ := hf.marked hpending hasked
  rw [← hf.state] at hstate
  exact .rising _ hp ha (rising_post (hf.rising.trans hrising) rfl) ⟨hf.ready.trans hready, hstate⟩

lemma settling_foregroundAbility (hasked : a.IsAsked)
    (hready : a.isReady = true) (hrising : a.rising = []) : Settling a.foregroundAbility :=
  .rising .foregroundNew hpending hasked (rising_post hrising rfl) ⟨hready, rfl⟩

end

protected lemma Settling.start (h : Settling a) (loaded : Bool) : Settling (a.start loaded) := by
  unfold start
  split_ifs with hpending
  · exact h.mark ‹_› (.inl rfl)
  · obtain ⟨hready, -, -, hrising⟩ := h.of_pendingState (not_not.mp hpending)
    have hf := follows_postForegroundTimeoutTask
      { a with pendingState := .foreground, asked := .foreground }
    obtain ⟨hp, ha⟩ := hf.marked rfl (.inl rfl)
    have hrising' := hf.rising.trans hrising
    unfold processForegroundAbility
    rw [if_pos hready]
    split
    · -- in the foreground already: the application is asked again
      exact settling_foregroundAbility hp ha (hf.ready.trans hready) hrising'
    · exact .rising .moveToForeground hp ha (rising_post hrising' rfl)
        ⟨hf.ready.trans hready, .inr (.inl rfl)⟩

theorem settling_create {loaded : Bool} (request : AbilityRequest) (persistentId : ℤ)
    (hloaded : (loaded || !request.want.isDebug) = true) :
    Settling ((SessionAbilities.createAbilityRecord request persistentId).start loaded) := by
  have hasked : IsAsked { SessionAbilities.createAbilityRecord request persistentId with
      pendingState := .foreground, asked := .foreground } := .inl rfl
  cases loaded with
  | true =>
    change Settling ((loadTimeoutTask { SessionAbilities.createAbilityRecord request persistentId
      with pendingState := .foreground, asked := .foreground }).post .load)
    unfold loadTimeoutTask
    split <;> exact .rising .load rfl hasked rfl rfl
  | false =>
    have hdebug : request.want.isDebug = false := by simpa using hloaded
    change Settling (loadTimeoutTask { SessionAbilities.createAbilityRecord request persistentId
      with pendingState := .foreground, asked := .foreground })
    unfold loadTimeoutTask
    rw [if_neg (by exact ne_true_of_eq_false hdebug)]
    exact .waiting rfl hasked rfl rfl (.inl mem_cons_self)

variable (h : Settling a)
include h

protected lemma Settling.minimizeUIAbility : Settling a.minimizeUIAbility := by
  unfold minimizeUIAbility
  split
  · exact h.mark ‹_› (.inr rfl)
  · rename_i hpending
    have hpending := not_not.mp hpending
    obtain ⟨hready, hasked, hstate, hrising⟩ := h.of_pendingState hpending
    split_ifs with hnot
    · have hback : a.state = .background := by
        rw [hstate] at hnot ⊢
        exact hasked.resolve_left hnot
      exact .settled hpending (.inr rfl) hready hback hrising
    · exact settling_moveToBackground rfl (.inr rfl) hready hrising

lemma Settling.of_foregroundStep (hk : k ∈ a.outstanding) (hstep : k.isForegroundStep = true) :
    a.pendingState = a.asked ∧ a.IsAsked ∧ a.Rises k ∧ (a.take k).rising = [] := by
  have hmem : k ∈ a.rising := mem_filter.mpr ⟨hk, hstep⟩
  have hnone : a.rising = [] → False := by
    intro hrising
    rw [hrising] at hmem
    cases hmem
  cases h with
  | settled _ _ _ _ hrising => exact (hnone hrising).elim
  | rising k' hpending hasked hrising hrises =>
    rw [hrising] at hmem
    obtain rfl := mem_singleton.mp hmem
    refine ⟨hpending, hasked, hrises, ?_⟩
    rw [rising_take, hrising, erase_cons_head]
  | falling _ _ _ _ hrising => exact (hnone hrising).elim
  | waiting _ _ _ hrising => exact (hnone hrising).elim

protected lemma Settling.attachAbilityThread (hk : .load ∈ a.outstanding)
    (attached : Bool) : Settling ((a.take .load).attachAbilityThread attached) := by
  obtain ⟨hpending, hasked, hstate, hrising⟩ := h.of_foregroundStep hk rfl
  have hrising' : ((a.take .load).cancel .loadTimeout).rising = [] :=
    (rising_cancel _ rfl).trans hrising
  unfold attachAbilityThread
  split
  · exact settling_moveToForeground hpending hasked rfl hrising' (.inl hstate)
  · refine .waiting hpending hasked hstate ((rising_post_of_not _ rfl).trans hrising') (.inr ?_)
    exact mem_append_right _ mem_cons_self

protected lemma Settling.onAbilityRequestDone
    (hk : .moveToForeground ∈ a.outstanding) (hterm : a.isTerminating = false) :
    Settling (a.take .moveToForeground).onAbilityRequestDone := by
  obtain ⟨hpending, hasked, hrises, hrising⟩ := h.of_foregroundStep hk rfl
  unfold onAbilityRequestDone
  rw [if_neg (by exact ne_true_of_eq_false hterm)]
  exact settling_foregroundAbility hpending hasked hrises.1 hrising

protected lemma Settling.dispatchForeground (hk : .foregroundNew ∈ a.outstanding)
    {result : ForegroundResult} (hresult : result ≠ .windowFreezed) :
    Settling ((a.take .foregroundNew).dispatchForeground result) := by
  obtain ⟨hpending, hasked, ⟨hready, hstate⟩, hrising⟩ := h.of_foregroundStep hk rfl
  unfold dispatchForeground
  rw [if_neg (by exact not_not_intro hstate)]
  have hrising' : ((a.take .foregroundNew).cancel .foregroundTimeout).rising = [] :=
    (rising_cancel _ rfl).trans hrising
  cases result with
  | foreground => exact .rising _ hpending hasked (rising_post hrising' rfl) ⟨hready, hstate⟩
  | failed => exact .rising _ hpending hasked (rising_post hrising' rfl) ⟨hready, hstate⟩
  | invalidMode => exact .rising _ hpending hasked (rising_post hrising' rfl) ⟨hready, hstate⟩
  | windowFreezed => exact absurd rfl hresult

lemma Settling.completeForegroundSuccess
    (hk : .completeForegroundSuccess ∈ a.outstanding) :
    Settling (a.take .completeForegroundSuccess).completeForegroundSuccess := by
  obtain ⟨hpending, hasked, ⟨hready, -⟩, hrising⟩ := h.of_foregroundStep hk rfl
  change Settling (if a.pendingState = _ then _ else if a.pendingState = _ then _ else _)
  rw [hpending]
  rcases hasked with hfront | hback
  · rw [hfront]
    exact .settled rfl (.inl hfront) hready hfront.symm hrising
  · rw [if_pos hback]
    exact settling_moveToBackground hpending (.inr hback) hready hrising

lemma Settling.state_eq_backgrounding (hstate : a.state = .backgrounding) :
    a.pendingState = a.asked ∧ a.IsAsked ∧ a.isReady = true ∧ a.rising = [] := by
  cases h with
  | settled _ hasked _ hsame =>
    rw [hsame] at hstate
    rcases hasked with h | h <;> rw [h] at hstate <;> cases hstate
  | rising k _ _ _ hrises => cases k <;> simp [Rises, hstate] at hrises
  | falling hpending hasked hready _ hrising => exact ⟨hpending, hasked, hready, hrising⟩
  | waiting _ _ hinitial =>
    rw [hinitial] at hstate
    cases hstate

protected lemma Settling.dispatchBackground :
    Settling (a.take .backgroundNew).dispatchBackground := by
  unfold dispatchBackground
  split_ifs with hstate
  · exact h.follows (follows_take a rfl (fun hback => absurd hback hstate) ⟨by decide, by decide⟩)
  · have hstate : a.state = .backgrounding := not_not.mp hstate
    obtain ⟨hpending, hasked, hready, hrising⟩ := h.state_eq_backgrounding hstate
    have hcancelled : ((a.take .backgroundNew).cancel .backgroundTimeout).rising = [] :=
      (rising_cancel _ rfl).trans ((rising_take_of_not a rfl).trans hrising)
    refine .falling hpending hasked hready hstate ((rising_post_of_not _ rfl).trans hcancelled)
      ⟨.completeBackground, mem_append_right _ mem_cons_self, rfl⟩

lemma Settling.completeBackground (hstate : a.state = .backgrounding)
    (hk : k.isForegroundStep = false) : Settling (a.take k).completeBackground := by
  obtain ⟨hpending, hasked, hready, hrising⟩ := h.state_eq_backgrounding hstate
  have hrising' : (a.take k).rising = [] := (rising_take_of_not a hk).trans hrising
  change Settling (if a.pendingState = _ then _ else if a.pendingState = _ then _ else _)
  rw [hpending]
  rcases hasked with hfront | hback
  · rw [if_pos hfront]
    exact settling_moveToForeground hpending (.inl hfront) hready hrising' (.inr (.inr rfl))
  · rw [hback]
    exact .settled rfl (.inr hback) hready hback.symm hrising'

end UIAbilityRecord

namespace SessionAbilities
open UIAbilityRecord
variable {s t : SessionAbilities} {r : ℕ} {f : UIAbilityRecord → UIAbilityRecord}

def Settles (s : SessionAbilities) : Prop := ∀ r, s.IsHeld r → Settling (s.record r)

lemma Settles.evolves (h : Settles s) (hheld : Held s) (he : Evolves r s t)
    (hown : t.IsHeld r → Settling (t.record r)) : Settles t := by
  intro j hj
  by_cases hjr : j = r
  · exact hjr ▸ hown (hjr ▸ hj)
  · have hbefore := he.isHeld hj
    rcases he.others j hjr with hsame | ⟨hin, -, -⟩
    · rw [hsame]
      exact h j hbefore
    · exact absurd hin (hheld.alive j hbefore).1

lemma Settles.modifyRecord (h : Settles s) (hheld : Held s) (hf : Tame f)
    (hown : Settling (s.record r) → Settling (f (s.record r))) : Settles (s.modifyRecord r f) := by
  refine h.evolves hheld (evolves_modifyRecord s r hf) ?_
  rintro ⟨persistentId, hfind⟩
  rw [record_modifyRecord_self (hheld.known persistentId r hfind)]
  exact hown (h r ⟨persistentId, hfind⟩)

lemma settling_take {k : Outstanding} (hknown : r < s.records.length)
    (h : Settling (f ((s.record r).take k))) :
    Settling (((s.modifyRecord r (·.take k)).modifyRecord r f).record r) := by
  rw [record_modifyRecord_self (by rw [length_modifyRecord]; exact hknown),
    record_modifyRecord_self hknown]
  exact h

lemma record_completeBackground (hheld : Held s) (hr : s.IsHeld r) :
    (s.completeBackground r).record r =
      if (s.record r).state ≠ .backgrounding then s.record r
      else (s.record r).completeBackground := by
  unfold completeBackground
  split
  · rfl
  · have hout := (hheld.alive r hr).1
    obtain ⟨persistentId, hfind⟩ := hr
    rcases record_foldl_terminateInBackground s.terminateAbilityList
        (s.modifyRecord r (·.completeBackground)) r with hsame | ⟨hin, -, -⟩
    · rw [hsame, record_modifyRecord_self (hheld.known persistentId r hfind)]
    · exact absurd hin hout

protected lemma Settles.happen (h : Settles s) (hheld : Held s) (r : ℕ) (k : Outstanding)
    (reply : Reply) (hok : k = .foregroundNew → s.IsHeld r → (s.record r).state = .foregrounding →
      reply.result ≠ .windowFreezed) :
    Settles (s.happen r k reply) := by
  refine h.evolves hheld (hheld.happen r k reply) ?_
  intro hafter
  have hr : s.IsHeld r := (hheld.happen r k reply).isHeld hafter
  have hsettling := h r hr
  unfold happen at hafter ⊢
  split at hafter
  · rename_i hk
    rw [if_pos hk]
    have hknown := lt_length_of_mem_outstanding hk
    have htaken := hheld.evolves (evolves_modifyRecord s r (tame_take k))
    have hr' : (s.modifyRecord r (·.take k)).IsHeld r := hr
    have hrecord : (s.modifyRecord r (·.take k)).record r = (s.record r).take k :=
      record_modifyRecord_self hknown
    -- the completion of a move to the background, by its task or by the timeout
    have hbackground : k.isForegroundStep = false → k ≠ .loadTimeout ∧ k ≠ .terminateSession →
        Settling (((s.modifyRecord r (·.take k)).completeBackground r).record r) := by
      intro hfront hwait
      rw [record_completeBackground htaken hr', hrecord]
      split_ifs with hstate
      · exact hsettling.follows (follows_take _ hfront (fun hback => absurd hback hstate) hwait)
      · exact hsettling.completeBackground (not_not.mp hstate) hfront
    -- the completion of a termination does nothing here
    have hterminate : k.isForegroundStep = false → k.isBackgroundStep = false →
        k ≠ .loadTimeout ∧ k ≠ .terminateSession →
        Settling (((s.modifyRecord r (·.take k)).completeTerminate r).record r) := by
      intro hfront hback hwait
      have hsame : (s.modifyRecord r (·.take k)).completeTerminate r =
          s.modifyRecord r (·.take k) := if_pos (htaken.alive r hr').2.1
      rw [hsame, hrecord]
      exact hsettling.follows (follows_take _ hfront (fun _ => hback) hwait)
    have hmodify : ∀ {c : Bool} {f : UIAbilityRecord → UIAbilityRecord}, c = true →
        Settling (f ((s.record r).take k)) →
        Settling ((if c then (s.modifyRecord r (·.take k)).modifyRecord r f
          else s.modifyRecord r (·.take k)).record r) := by
      intro c f hc hf
      rw [if_pos hc]
      exact settling_take hknown hf
    have hholds := holds_iff.mpr hr'
    have hfound : isFound _ r = true := Bool.or_eq_true_iff.mpr (.inr hholds)
    cases k with
    | load => exact hmodify hholds (hsettling.attachAbilityThread hk _)
    | moveToForeground =>
      exact hmodify hfound (hsettling.onAbilityRequestDone hk (hheld.alive r hr).2.2)
    | foregroundNew =>
      have hstate := (hsettling.of_foregroundStep hk rfl).2.2.1.2
      exact hmodify hfound (hsettling.dispatchForeground hk (hok rfl hr hstate))
    | backgroundNew => exact hmodify hfound hsettling.dispatchBackground
    | terminate =>
      refine hmodify hfound ?_
      unfold dispatchTerminate
      rw [if_pos (by exact (hheld.alive r hr).2.1)]
      exact hsettling.follows (follows_take _ rfl (fun _ => rfl) ⟨by decide, by decide⟩)
    | loadTimeout =>
      have hgone := htaken.not_isHeld_eraseAbilityRecord r
      change (if _ then _ else _ : SessionAbilities).IsHeld r at hafter
      rw [if_pos hholds] at hafter
      exact absurd hafter hgone
    | foregroundTimeout =>
      change (if _ then handleForegroundTimeout _ r else _).IsHeld r at hafter
      change Settling ((if _ then handleForegroundTimeout _ r else _).record r)
      rw [if_pos hholds] at hafter ⊢
      unfold handleForegroundTimeout at hafter ⊢
      split_ifs at hafter with hstate
      · rw [if_pos hstate, hrecord]
        exact hsettling.follows (follows_take _ rfl (fun _ => rfl) ⟨by decide, by decide⟩)
      · exact absurd hafter (htaken.gone (retires_eraseSpecifiedAbilityRecord _ r))
    | backgroundTimeout => exact hbackground rfl ⟨by decide, by decide⟩
    | terminateTimeout =>
      refine settling_take hknown ?_
      exact (hsettling.follows (follows_take _ rfl (fun _ => rfl) ⟨by decide, by decide⟩)).follows
        (follows_post _ rfl)
    | completeForegroundSuccess =>
      exact settling_take hknown (hsettling.completeForegroundSuccess hk)
    | foregroundWindowFreezed => exact (hsettling.of_foregroundStep hk rfl).2.2.1.elim
    | handleForegroundFailed =>
      have hstate := (hsettling.of_foregroundStep hk rfl).2.2.1.2
      change (handleForegroundFailed _ r).IsHeld r at hafter
      unfold handleForegroundFailed at hafter
      rw [hrecord, if_neg (by exact not_not_intro hstate)] at hafter
      have herase := htaken.eraseAbilityRecord r
      exact absurd hafter ((htaken.evolves herase).not_isHeld_closeUIAbility r false)
    | completeBackground => exact hbackground rfl ⟨by decide, by decide⟩
    | completeTerminate => exact hterminate rfl rfl ⟨by decide, by decide⟩
    | delayKillProcess => exact hterminate rfl rfl ⟨by decide, by decide⟩
    | onAbilityDied =>
      have hret := retires_onAbilityDied (s := s.modifyRecord r (·.take .onAbilityDied))
        (by rw [length_modifyRecord]; exact hknown)
      exact absurd hafter (htaken.gone hret)
    | terminateSession => exact absurd hafter (htaken.not_isHeld_closeUIAbility r false)
  · rename_i hk
    rw [if_neg hk]
    exact hsettling

lemma Settles.startUIAbility (h : Settles s) (hheld : Held s) {call : StartCall}
    (hok : (call.isLoaded || !call.request.want.isDebug) = true) (persistentId : ℤ) :
    Settles (s.startUIAbility call persistentId).1 := by
  rcases startUIAbility_cases s call persistentId with ⟨r, -, hs⟩ | ⟨hnew, hs⟩ | hs
  · rw [hs]
    refine h.modifyRecord hheld (.of_works (works_renewed call)) ?_
    intro hsettling
    have hrenewed : Settling (renewed call (s.record r)) := hsettling.follows
      ⟨rfl, rfl, rfl, fun _ _ hk _ => hk, fun _ hk _ => hk, .inl ⟨rfl, rfl⟩⟩
    exact hrenewed.start call.isLoaded
  · rw [hs]
    rintro j ⟨id, hfind⟩
    rcases (SortedMap.find?_emplace_eq_some hnew).1 hfind with ⟨-, rfl⟩ | hfind
    · have hlast : ((s.records ++ [(createAbilityRecord call.request persistentId).start
          call.isLoaded]).getD s.records.length {}) =
          (createAbilityRecord call.request persistentId).start call.isLoaded := by
        simp
      unfold record
      rw [hlast]
      exact settling_create call.request persistentId hok
    · unfold record
      rw [getD_append _ _ _ _ (hheld.known id j hfind)]
      exact h j ⟨id, hfind⟩
  · rw [hs]
    exact h

lemma Settles.setSpecified (h : Settles s) (hheld : Held s) (call : StartCall)
    (info : SpecifiedInfo) (r : ℕ) : Settles (s.setSpecified call info r) := by
  rintro j ⟨persistentId, hfind⟩
  have hsettling := h j ⟨persistentId, hfind⟩
  by_cases hjr : j = r
  · subst hjr
    have hrecord : (s.setSpecified call info j).record j =
        { s.record j with specifiedFlag := info.flag } :=
      record_modifyRecord_self (hheld.known persistentId j hfind)
    rw [hrecord]
    exact hsettling.follows ⟨rfl, rfl, rfl, fun _ _ hk _ => hk, fun _ hk _ => hk, .inl ⟨rfl, rfl⟩⟩
  · have hrecord : (s.setSpecified call info r).record j = s.record j :=
      record_modifyRecord_of_ne hjr
    rw [hrecord]
    exact hsettling

end SessionAbilities

open SessionAbilities

namespace UIAbilityLifecycleManager
variable {m : UIAbilityLifecycleManager}

def unfrozen (m : UIAbilityLifecycleManager) : Op → Bool
  | .happen r .foregroundNew reply =>
    reply.result ≠ .windowFreezed || !m.sessions.holds r ||
      (m.sessions.record r).state ≠ .foregrounding
  | .startUIAbility call => call.isLoaded || !call.request.want.isDebug
  | _ => true

lemma settles_step (hheld : m.sessions.Held) (h : m.sessions.Settles) (op : Op)
    (hok : m.unfrozen op = true) : (m.step op).sessions.Settles := by
  have hmoves := moves_step m op
  generalize (m.step op).sessions = t at hmoves ⊢
  cases hmoves with
  | same => exact h
  | reused r want =>
    refine h.modifyRecord hheld (fun _ => ⟨rfl, rfl, id⟩) ?_
    intro hsettling
    exact hsettling.follows ⟨rfl, rfl, rfl, fun _ _ hk _ => hk, fun _ hk _ => hk, .inl ⟨rfl, rfl⟩⟩
  | started _ _ => exact h.startUIAbility hheld hok _
  | @specified call a _ entry _ r _ _ _ _ _ =>
    have hsettles := h.startUIAbility hheld hok (sessionFor a call)
    exact hsettles.setSpecified (hheld.startUIAbility call _) call entry.info r
  | minimized r =>
    exact h.modifyRecord hheld (.of_works UIAbilityRecord.works_minimizeUIAbility) fun hs =>
      hs.minimizeUIAbility
  | closed r isClearSession =>
    refine h.evolves hheld (hheld.closeUIAbility r isClearSession) ?_
    intro hr
    exact absurd hr (hheld.not_isHeld_closeUIAbility r isClearSession)
  | died r =>
    exact h.modifyRecord hheld UIAbilityRecord.tame_onProcessDied fun hs => hs.onProcessDied
  | happened r k reply =>
    refine h.happen hheld r k reply ?_
    rintro rfl hr hstate hfrozen
    have hholds := holds_iff.mpr hr
    simp [unfrozen, hfrozen, hholds, hstate] at hok

def IsSettled (m : UIAbilityLifecycleManager) : Prop :=
  ∀ persistentId r, m.sessions.sessionAbilityMap.find? persistentId = some r →
    (m.sessions.record r).outstanding = [] →
    (m.sessions.record r).pendingState = .initial ∧
      (m.sessions.record r).state = (m.sessions.record r).asked ∧
      ((m.sessions.record r).asked = .foreground ∨ (m.sessions.record r).asked = .background) ∧
      ∀ call, (m.sessions.startUIAbility call persistentId).2 = some r

theorem run_isSettled (ops : List Op)
    (h : Runs.Guarded step (fun m op => m.unfrozen op = true) {} ops) : IsSettled (run ops) := by
  have hinit : (SessionAbilities.Settles {}) := by
    rintro r ⟨persistentId, hfind⟩
    cases hfind
  have hsettles : (run ops).sessions.Held ∧ (run ops).sessions.Settles :=
    h.invariant (I := fun m => m.sessions.Held ∧ m.sessions.Settles)
      (fun _ op hm hok => ⟨held_step hm.1 op, settles_step hm.1 hm.2 op hok⟩)
      ⟨held_init, hinit⟩
  intro persistentId r hfind hnone
  have hsettling := hsettles.2 r ⟨persistentId, hfind⟩
  obtain ⟨hpending, hasked, hstate⟩ := hsettling.of_nothing hnone
  refine ⟨hpending, hstate, hasked, ?_⟩
  intro call
  unfold SessionAbilities.startUIAbility
  rw [hfind]
  exact if_neg (not_not_intro hpending)

def minimizedWhileLoading : List Op :=
  notesStarted ++ [.minimizeUIAbility 0] ++ comesToForeground 0 ++
    [.happen 0 .backgroundNew {}, .happen 0 .completeBackground {}]

theorem minimizedWhileLoading_isSettled :
    Runs.Guarded step (fun m op => m.unfrozen op = true) {} minimizedWhileLoading ∧
      (run minimizedWhileLoading).sessions.sessionAbilityMap.find? 1 = some 0 ∧
      ((run minimizedWhileLoading).sessions.record 0).outstanding = [] ∧
      ((run minimizedWhileLoading).sessions.record 0).state = .background ∧
      IsSettled (run minimizedWhileLoading) := by
  have hguarded : Runs.Guarded step (fun m op => m.unfrozen op = true) {}
      minimizedWhileLoading := by
    decide +kernel
  exact ⟨hguarded, by decide +kernel, by decide +kernel, by decide +kernel,
    run_isSettled minimizedWhileLoading hguarded⟩

def frozenWindow : List Op :=
  notesStarted ++ [.happen 0 .load {}, .happen 0 .moveToForeground {},
    .happen 0 .foregroundNew { result := .windowFreezed }, .happen 0 .foregroundWindowFreezed {}]

theorem frozenWindow_not_isSettled :
    (run frozenWindow).sessions.sessionAbilityMap.find? 1 = some 0 ∧
      ((run frozenWindow).sessions.record 0).outstanding = [] ∧
      ((run frozenWindow).sessions.record 0).state = .background ∧
      ((run frozenWindow).sessions.record 0).pendingState = .foreground ∧
      ((run frozenWindow).sessions.startUIAbility
        { request := notes, newPersistentId := 1 } 1).2 = none ∧
      ¬ IsSettled (run frozenWindow) := by
  refine ⟨by decide +kernel, by decide +kernel, by decide +kernel, by decide +kernel,
    by decide +kernel, ?_⟩
  intro hsettled
  have hpending := (hsettled 1 0 (by decide +kernel) (by decide +kernel)).1
  revert hpending
  decide +kernel

end UIAbilityLifecycleManager

end AbilityRuntime.SceneBoard
