import AbilityRuntime.AbilityMgr.UIAbilityLifecycleManager

/-! Flags of specified starts and the starts they were queued for. -/

namespace AbilityRuntime.SceneBoard.UIAbilityLifecycleManager
open List
variable {m : UIAbilityLifecycleManager} {call : StartCall} {a : Activation}
  {rest : List Activation}

variable (m)

def OwnFlags : Prop :=
  (∀ t ∈ m.taken, t.entry.activation = some t.activation) ∧
    ∀ e ∈ m.pushed, (∃ a ∈ m.activations, e.activation = some a.id) ∨
      ∃ t ∈ m.taken, t.entry = e ∧ e.activation = some t.activation

def isChecked (call : StartCall) (a : Activation) : Bool :=
  call.isValidSession && (m.sessions.startUIAbility call (sessionFor a call)).2.isSome &&
    call.request.abilityInfo.launchMode = .specified

def inOrder : Op → Bool
  | .onAcceptWantResponse _ _ requestId _ =>
    (m.specifiedRequestMap.find? requestId).all fun request => m.canSend request.callerToken
  | .startUIAbility call =>
    m.activations.head?.all fun a =>
      if a.isQueued then m.isChecked call a
      else !m.isChecked call a || m.specifiedInfoQueue.isEmpty
  | _ => true

variable {m}

structure Matched (m : UIAbilityLifecycleManager) : Prop where
  queue : m.specifiedInfoQueue.map (·.activation) =
    (m.activations.filter (·.isQueued)).map fun a => some a.id
  taken : ∀ t ∈ m.taken, t.entry.activation = some t.activation
  pushed : ∀ e ∈ m.pushed, e ∈ m.specifiedInfoQueue ∨ ∃ t ∈ m.taken, t.entry = e

lemma Matched.ownFlags (h : Matched m) : OwnFlags m := by
  refine ⟨h.taken, ?_⟩
  intro e he
  rcases h.pushed e he with hqueue | ⟨t, ht, rfl⟩
  · have hmem : e.activation ∈ m.specifiedInfoQueue.map (·.activation) :=
      mem_map.mpr ⟨e, hqueue, rfl⟩
    rw [h.queue] at hmem
    obtain ⟨a, ha, hid⟩ := mem_map.mp hmem
    exact .inl ⟨a, (mem_filter.mp ha).1, hid.symm⟩
  · exact .inr ⟨t, ht, rfl, h.taken t ht⟩

lemma Matched.congr {n : UIAbilityLifecycleManager} (h : Matched m)
    (hqueue : n.specifiedInfoQueue = m.specifiedInfoQueue)
    (hactivations : n.activations = m.activations) (htaken : n.taken = m.taken)
    (hpushed : n.pushed = m.pushed) : Matched n where
  queue := by rw [hqueue, hactivations]; exact h.queue
  taken := by rw [htaken]; exact h.taken
  pushed := by rw [hpushed, hqueue, htaken]; exact h.pushed

protected lemma Matched.sendSessionInfoToSCB (h : Matched m) (callerToken : Option ℕ)
    (persistentId : ℤ) : Matched (m.sendSessionInfoToSCB callerToken persistentId false) := by
  unfold sendSessionInfoToSCB
  split
  · refine { h with queue := ?_ }
    rw [filter_append, filter_singleton, h.queue]
    simp
  · exact h

protected lemma Matched.startAbilityBySpecifed (h : Matched m) {request : AbilityRequest}
    (hsend : m.canSend request.callerToken = true) :
    Matched (m.startAbilityBySpecifed request) := by
  unfold startAbilityBySpecifed sendSessionInfoToSCB
  rw [if_pos (by exact hsend), if_pos hsend]
  refine ⟨?_, h.taken, ?_⟩
  · rw [map_append, filter_append, map_append, h.queue]
    rfl
  · intro e he
    rcases mem_append.mp he with hold | hnew
    · exact (h.pushed e hold).imp_left (mem_append_left _)
    · exact .inl (mem_append_right _ hnew)

protected lemma Matched.answerRequest (h : Matched m) {request : AbilityRequest}
    (hsend : m.canSend request.callerToken = true) (want : Want) (flag : String) (pick : ℕ) :
    Matched (m.answerRequest want request flag pick) := by
  unfold answerRequest
  have hcaller : (flagged request flag).callerToken = request.callerToken := by
    unfold flagged
    split <;> rfl
  split
  · exact h
  · split
    · exact h.startAbilityBySpecifed (by rw [hcaller]; exact hsend)
    · split
      · exact h
      · apply Matched.sendSessionInfoToSCB
        exact h.congr rfl rfl rfl rfl

lemma startUIAbility_spec (hactivations : m.activations = a :: rest) :
    (m.startUIAbility call).activations = rest ∧ (m.startUIAbility call).pushed = m.pushed ∧
      if m.isChecked call a then
        match m.specifiedInfoQueue with
        | [] => (m.startUIAbility call).specifiedInfoQueue = [] ∧
            (m.startUIAbility call).taken = m.taken
        | e :: es => (m.startUIAbility call).specifiedInfoQueue = es ∧
            ∃ r, (m.startUIAbility call).taken = m.taken ++ [⟨e, a.id, r⟩]
      else (m.startUIAbility call).specifiedInfoQueue = m.specifiedInfoQueue ∧
        (m.startUIAbility call).taken = m.taken := by
  unfold isChecked startUIAbility
  rw [hactivations]
  dsimp only
  cases hvalid : call.isValidSession with
  | false => simp
  | true =>
    cases hstarted : (m.sessions.startUIAbility call (sessionFor a call)).2 with
    | none => simp
    | some r =>
      unfold checkSpecified
      by_cases hmode : call.request.abilityInfo.launchMode = .specified
      · cases hqueue : m.specifiedInfoQueue with
        | nil => simp
        | cons e es => simp [hmode]
      · simp [hmode]

protected lemma Matched.startUIAbility (h : Matched m) (call : StartCall)
    (hok : m.inOrder (.startUIAbility call) = true) : Matched (m.startUIAbility call) := by
  cases hactivations : m.activations with
  | nil =>
    have hsame : m.startUIAbility call = m := by
      unfold startUIAbility
      rw [hactivations]
    rw [hsame]
    exact h
  | cons a rest =>
    have hspec := @startUIAbility_spec m call a rest hactivations
    obtain ⟨hrest, hpushed, htaken⟩ := hspec
    have hqueue := h.queue
    simp only [inOrder, hactivations, head?_cons, Option.all_some] at hok
    rw [hactivations, filter_cons] at hqueue
    by_cases hqueued : a.isQueued = true
    · -- the oldest entry was sent with the activation that is answered
      rw [if_pos hqueued] at hok hqueue
      rw [if_pos hok] at htaken
      cases hentries : m.specifiedInfoQueue with
      | nil => simp [hentries] at hqueue
      | cons e es =>
        rw [hentries] at htaken hqueue
        obtain ⟨hes, r, hnew⟩ := htaken
        obtain ⟨hid, hothers⟩ := cons_eq_cons.mp hqueue
        refine ⟨?_, ?_, ?_⟩
        · rw [hes, hrest]
          exact hothers
        · intro t ht
          rw [hnew] at ht
          rcases mem_append.mp ht with hold | hlast
          · exact h.taken t hold
          · obtain rfl := mem_singleton.mp hlast
            exact hid
        · intro e' he'
          rw [hpushed] at he'
          rw [hes, hnew]
          rcases h.pushed e' he' with hin | ⟨t, ht, hte⟩
          · rw [hentries] at hin
            rcases mem_cons.mp hin with rfl | hlater
            · exact .inr ⟨_, mem_append_right _ mem_cons_self, rfl⟩
            · exact .inl hlater
          · exact .inr ⟨t, mem_append_left _ ht, hte⟩
    · -- no entry is taken, or there is none
      rw [if_neg hqueued] at hok hqueue
      have hsame : (m.startUIAbility call).specifiedInfoQueue = m.specifiedInfoQueue ∧
          (m.startUIAbility call).taken = m.taken := by
        by_cases hchecked : m.isChecked call a = true
        · have hempty : m.specifiedInfoQueue = [] := by
            simpa [hchecked] using hok
          rw [if_pos hchecked, hempty] at htaken
          rw [hempty]
          exact htaken
        · rw [if_neg hchecked] at htaken
          exact htaken
      refine ⟨?_, ?_, ?_⟩
      · rw [hsame.1, hrest]
        exact hqueue
      · rw [hsame.2]
        exact h.taken
      · rw [hpushed, hsame.1, hsame.2]
        exact h.pushed

lemma Matched.step (h : Matched m) (op : Op) (hok : m.inOrder op = true) : Matched (m.step op) := by
  cases op with
  | notifySCBToStartUIAbility request persistentId =>
    change Matched (m.notifySCBToStartUIAbility request persistentId)
    unfold notifySCBToStartUIAbility
    split
    · exact h.congr rfl rfl rfl rfl
    · exact h.sendSessionInfoToSCB _ _
  | onAcceptWantResponse want flag requestId pick =>
    change Matched (m.onAcceptWantResponse want flag requestId pick)
    unfold onAcceptWantResponse
    cases hrequest : m.specifiedRequestMap.find? requestId with
    | none => exact h
    | some request =>
      simp only [inOrder, hrequest] at hok
      apply Matched.answerRequest
      · exact h.congr rfl rfl rfl rfl
      · exact hok
  | notifySCBPendingActivation callerToken persistentId =>
    exact h.sendSessionInfoToSCB callerToken persistentId
  | startUIAbility call => exact h.startUIAbility call hok
  | setRootSceneSession => exact h.congr rfl rfl rfl rfl
  | startSpecifiedAbilityBySCB request => exact h.congr rfl rfl rfl rfl
  | onStartSpecifiedAbilityTimeoutResponse requestId => exact h.congr rfl rfl rfl rfl
  | minimizeUIAbility r => exact h.congr rfl rfl rfl rfl
  | closeUIAbility r isClearSession => exact h.congr rfl rfl rfl rfl
  | processDied r => exact h.congr rfl rfl rfl rfl
  | happen r k reply => exact h.congr rfl rfl rfl rfl

theorem run_ownFlags (ops : List Op)
    (h : Runs.Guarded step (fun m op => m.inOrder op = true) {} ops) : OwnFlags (run ops) := by
  have hmatched : Matched (run ops) :=
    h.invariant (fun _ op hm hok => hm.step op hok) ⟨rfl, nofun, nofun⟩
  exact hmatched.ownFlags

def twoDocuments : List Op :=
  .setRootSceneSession :: specifiedStart editor "a" 0 ++ specifiedStart editor "b" 1 ++
    [.startUIAbility { request := editor, newPersistentId := 1 },
      .startUIAbility { request := editor, newPersistentId := 2 }] ++
    comesToForeground 0 ++ specifiedStart editor "a" 2 ++
    [.startUIAbility { request := editor, newPersistentId := 0, isNewWant := true }]

theorem twoDocuments_ownFlags :
    Runs.Guarded step (fun m op => m.inOrder op = true) {} twoDocuments ∧
      (run twoDocuments).taken.length = 2 ∧ OwnFlags (run twoDocuments) := by
  have hguarded : Runs.Guarded step (fun m op => m.inOrder op = true) {} twoDocuments := by
    decide +kernel
  exact ⟨hguarded, by decide +kernel, run_ownFlags twoDocuments hguarded⟩

def reopenedFirst : List Op :=
  .setRootSceneSession :: specifiedStart editor "a" 0 ++
    [.startUIAbility { request := editor, newPersistentId := 1 }] ++
    comesToForeground 0 ++ specifiedStart editor "a" 1 ++ specifiedStart editor "b" 2 ++
    [.startUIAbility { request := editor, newPersistentId := 0, isNewWant := true }]

theorem reopenedFirst_takes_other : ((run reopenedFirst).sessions.record 0).specifiedFlag = "b" ∧
      (run reopenedFirst).specifiedInfoQueue = [] ∧
      (run reopenedFirst).activations.map (·.isQueued) = [true] ∧
      ¬ OwnFlags (run reopenedFirst) := by
  unfold OwnFlags
  decide +kernel

end AbilityRuntime.SceneBoard.UIAbilityLifecycleManager
