import AbilityRuntime.QuickFix.ApplyReports

/-! What a waiting task is woken by: a timeout of its own, or an observer of the processes. -/

namespace AbilityRuntime.QuickFix
namespace QuickFixManagerService
open List Bool

section
variable (s : QuickFixManagerService)

def posts (id : ℕ) : Bool := s.events.any (isStage id)

def awaits (id : ℕ) : Bool :=
  s.callbacks.any fun c => c.applyTask = id && !c.answered

def underWay (id : ℕ) : Bool := s.posts id || s.awaits id

def hasTimeout (id : ℕ) : Bool :=
  s.events.any fun e => e.applyTask = id && e.posted = .timeoutTask

def isObserved (id : ℕ) : Bool := s.observers.any (isWatching id)

def idle : Bool := s.applyTasks.all fun id => !s.underWay id

def waitsForDeath (id : ℕ) : Bool :=
  (s.task id).appStateCallback.isSome && !s.underWay id

structure Attended (s : QuickFixManagerService) : Prop where
  reply : ∀ id ∈ s.applyTasks, s.awaits id = true → s.hasTimeout id = true
  death : ∀ id ∈ s.applyTasks, s.waitsForDeath id = true → s.isObserved id = true

def Owns : Prop :=
  ∀ id observer, (s.task id).appStateCallback = some observer →
    ∃ o, s.observers[observer]? = some o ∧ o.applyTask = id

structure Minded (s : QuickFixManagerService) : Prop where
  timed : ∀ id ∈ s.applyTasks, s.underWay id = true → s.hasTimeout id = true
  minded : ∀ id ∈ s.applyTasks, s.underWay id = true ∨ s.isObserved id = true
  kinds : ∀ c ∈ s.callbacks, c.kind.handles c.asked = true
  owns : Owns s

end

variable {s t u : QuickFixManagerService} {id : ℕ}

lemma Minded.attended (h : Minded s) : Attended s where
  reply id hid hawaits := by
    apply h.timed id hid
    rw [underWay, hawaits, Bool.or_true]
  death id hid hwaits := by
    have hnone : s.underWay id = false := by
      simpa using (and_eq_true_iff.mp hwaits).2
    rcases h.minded id hid with hway | hobs
    · exact absurd (hnone.symm.trans hway) false_ne_true
    · exact hobs

lemma minded_init : Minded init where
  timed _ h := nomatch h
  minded _ h := nomatch h
  kinds _ h := nomatch h
  owns id observer h := by simp [init, task] at h

structure Leaves (id : ℕ) (s t : QuickFixManagerService) : Prop where
  applyTasks : ∀ j ∈ t.applyTasks, j ≠ id → j ∈ s.applyTasks
  underWay : ∀ j, j ≠ id → t.underWay j = s.underWay j
  hasTimeout : ∀ j, j ≠ id → s.hasTimeout j = true → t.hasTimeout j = true
  isObserved : ∀ j, j ≠ id → s.isObserved j = true → t.isObserved j = true
  kinds : ∀ c ∈ t.callbacks, (∃ c' ∈ s.callbacks, c.kind = c'.kind ∧ c.asked = c'.asked) ∨
    c.kind.handles c.asked = true
  owns : Owns s → Owns t

lemma Leaves.trans (h : Leaves id s t) (h' : Leaves id t u) : Leaves id s u where
  applyTasks j hj hne := h.applyTasks j (h'.applyTasks j hj hne) hne
  underWay j hne := (h'.underWay j hne).trans (h.underWay j hne)
  hasTimeout j hne hj := h'.hasTimeout j hne (h.hasTimeout j hne hj)
  isObserved j hne hj := h'.isObserved j hne (h.isObserved j hne hj)
  kinds c hc := by
    rcases h'.kinds c hc with ⟨c', hc', hkind, hasked⟩ | hhandles
    · rw [hkind, hasked]
      exact h.kinds c' hc'
    · exact .inr hhandles
  owns hs := h'.owns (h.owns hs)

lemma Minded.leaves (h : Minded s) (hl : Leaves id s t)
    (htimed : id ∈ t.applyTasks → t.underWay id = true → t.hasTimeout id = true)
    (hminded : id ∈ t.applyTasks → t.underWay id = true ∨ t.isObserved id = true) :
    Minded t where
  timed j hj hway := by
    rcases eq_or_ne j id with rfl | hne
    · exact htimed hj hway
    · rw [hl.underWay j hne] at hway
      exact hl.hasTimeout j hne (h.timed j (hl.applyTasks j hj hne) hway)
  minded j hj := by
    rcases eq_or_ne j id with rfl | hne
    · exact hminded hj
    · rw [hl.underWay j hne]
      exact (h.minded j (hl.applyTasks j hj hne)).imp_right (hl.isObserved j hne)
  kinds c hc := by
    rcases hl.kinds c hc with ⟨c', hc', hkind, hasked⟩ | hhandles
    · rw [hkind, hasked]
      exact h.kinds c' hc'
    · exact hhandles
  owns := hl.owns h.owns

variable (s id) in
lemma underWay_removeTimeoutTask : s.removeTimeoutTask.underWay id = s.underWay id := by
  have hposts : s.removeTimeoutTask.posts id = s.posts id := by
    unfold posts removeTimeoutTask
    rw [any_filter]
    congr 1
    funext e
    by_cases he : e.posted = .timeoutTask <;> simp [isStage, he]
  unfold underWay
  rw [hposts]
  rfl

lemma Minded.removeTimeoutTask (h : Minded t) (hidle : s.idle = true)
    (happly : ∀ id ∈ t.applyTasks, id ∈ s.applyTasks)
    (hsame : ∀ id, t.removeTimeoutTask.underWay id = s.underWay id) :
    Minded t.removeTimeoutTask := by
  refine ⟨fun id hid hway => ?_, fun id hid => ?_, h.kinds, h.owns⟩
  · have hnone : s.underWay id = false := by
      simpa using all_eq_true.mp hidle id (happly id hid)
    rw [hsame, hnone] at hway
    cases hway
  · rw [underWay_removeTimeoutTask]
    exact h.minded id hid

lemma leaves_of_eq (happly : ∀ j ∈ t.applyTasks, j ≠ id → j ∈ s.applyTasks)
    (hevents : t.events = s.events) (hcallbacks : t.callbacks = s.callbacks)
    (hobservers : t.observers = s.observers) (howns : Owns s → Owns t) : Leaves id s t where
  applyTasks := happly
  underWay j _ := by rw [underWay, underWay, posts, posts, awaits, awaits, hevents, hcallbacks]
  hasTimeout j _ h := by rwa [hasTimeout, hevents]
  isObserved j _ h := by rwa [isObserved, hobservers]
  kinds c hc := .inl ⟨c, hcallbacks ▸ hc, rfl, rfl⟩
  owns := howns

section
variable (s id)

lemma leaves_notifyAndRemove (code : QuickFixCode) : Leaves id s (s.notifyAndRemove id code) :=
  leaves_of_eq (fun _ hj _ => (mem_filter.mp hj).1) rfl rfl rfl fun h => h

lemma not_mem_notifyAndRemove (code : QuickFixCode) :
    id ∉ (s.notifyAndRemove id code).applyTasks := by
  intro hid
  have hne := (mem_filter.mp hid).2
  simp at hne

lemma any_postTask (posted : Posted) (delay : ℕ)
    (p : QueuedEvent → Bool) : (s.postTask id posted delay).events.any p =
      (p ⟨s.now + delay, id, posted⟩ || s.events.any p) := by
  rw [Bool.eq_iff_iff, any_eq_true, or_eq_true, any_eq_true]
  constructor
  · rintro ⟨e, he, hp⟩
    rcases mem_cons.mp ((perm_postTask s id posted delay).mem_iff.mp he) with rfl | he
    · exact .inl hp
    · exact .inr ⟨e, he, hp⟩
  · rintro (hp | ⟨e, he, hp⟩)
    · exact ⟨_, (perm_postTask s id posted delay).mem_iff.mpr (mem_cons_self ..), hp⟩
    · exact ⟨e, (perm_postTask s id posted delay).mem_iff.mpr (mem_cons_of_mem _ he), hp⟩

lemma leaves_postTask (posted : Posted) (delay : ℕ) : Leaves id s (s.postTask id posted delay) where
  applyTasks j hj _ := hj
  underWay j hne := by
    have hposts : (s.postTask id posted delay).posts j = s.posts j := by
      rw [posts, any_postTask]
      simp [isStage, hne.symm, posts]
    rw [underWay, hposts]
    rfl
  hasTimeout j _ h := by
    have hs : s.events.any (fun e => e.applyTask = j && e.posted = .timeoutTask) = true := h
    rw [hasTimeout, any_postTask, hs, Bool.or_true]
  isObserved j _ h := h
  kinds c hc := .inl ⟨c, hc, rfl, rfl⟩
  owns h := h

lemma underWay_postTask {posted : Posted} (h : posted ≠ .timeoutTask) (delay : ℕ) :
    (s.postTask id posted delay).underWay id = true := by
  rw [underWay, posts, any_postTask]
  simp [isStage, h]

lemma underWay_postTimeOutTask : (s.postTimeOutTask id).underWay id = s.underWay id := by
  have hposts : (s.postTimeOutTask id).posts id = s.posts id := by
    rw [posts, postTimeOutTask, any_postTask]
    simp [isStage, posts]
  rw [underWay, hposts]
  rfl

lemma hasTimeout_postTimeOutTask : (s.postTimeOutTask id).hasTimeout id = true := by
  rw [hasTimeout, postTimeOutTask, any_postTask]
  simp

lemma leaves_handOver {kind : CallbackClass}
    {asked : CallbackMethod} (h : kind.handles asked = true) : Leaves id s
      { s with callbacks := s.callbacks ++ [⟨id, kind, asked, true, false⟩] } where
  applyTasks j hj _ := hj
  underWay j hne := by
    simp [underWay, posts, awaits, hne.symm]
  hasTimeout j _ hj := hj
  isObserved j _ hj := hj
  kinds c hc := by
    rcases mem_append.mp hc with hc | hc
    · exact .inl ⟨c, hc, rfl, rfl⟩
    · obtain rfl := mem_singleton.mp hc
      exact .inr h
  owns hs := hs

end

lemma Owns.modifyTask (h : Owns s) {f : QuickFixManagerApplyTask → QuickFixManagerApplyTask}
    (hcall : (f (s.task id)).appStateCallback = (s.task id).appStateCallback) :
    Owns (s.modifyTask id f) := by
  intro j observer hj
  apply h j observer
  rw [task_modifyTask] at hj
  split_ifs at hj with heq
  · obtain ⟨rfl, -⟩ := heq
    exact hcall.symm.trans hj
  · exact hj

variable (s id) in
lemma observers_register :
    (s.regAppStateObserver id 0).observers = s.observers ++ [⟨id, true⟩] := rfl

variable (s id) in
lemma task_register (j : ℕ) : (s.regAppStateObserver id 0).task j =
    if id = j ∧ j < s.tasks.length then
      { s.task j with appStateCallback := some s.observers.length } else s.task j :=
  task_modifyTask s id _ j

lemma Owns.regAppStateObserver (h : Owns s) (id : ℕ) : Owns (s.regAppStateObserver id 0) := by
  intro j observer hj
  rw [task_register] at hj
  rw [observers_register]
  split_ifs at hj with heq
  · cases hj
    refine ⟨⟨id, true⟩, ?_, heq.1⟩
    rw [getElem?_append_right (Nat.le_refl _), Nat.sub_self]
    rfl
  · obtain ⟨o, ho, hid⟩ := h j observer hj
    have hlt := (List.getElem?_eq_some_iff.mp ho).1
    exact ⟨o, (getElem?_append_left hlt).trans ho, hid⟩

section
variable (s id)

lemma leaves_register : Leaves id s (s.regAppStateObserver id 0) where
  applyTasks j hj _ := hj
  underWay j _ := rfl
  hasTimeout j _ hj := hj
  isObserved j _ hj := by
    have hs : s.observers.any (isWatching j) = true := hj
    rw [isObserved, observers_register, any_append, hs, Bool.true_or]
  kinds c hc := .inl ⟨c, hc, rfl, rfl⟩
  owns hs := hs.regAppStateObserver id

lemma isObserved_register : (s.regAppStateObserver id 0).isObserved id = true := by
  rw [isObserved, observers_register, any_append]
  simp [isWatching]

end

variable {x : Stage}

section
variable (h : Moves id s x t)
include h

lemma Moves.leaves : Leaves id s t := by
  induction h with
  | tells s code => exact leaves_notifyAndRemove s id code
  | posts s asked => exact (leaves_postTask s id _ 0).trans (leaves_postTask _ id _ _)
  | hands s hkind => exact leaves_handOver s id hkind
  | watches s => exact leaves_register s id
  | after _ hcall _ ih =>
    refine .trans ?_ ih
    exact leaves_of_eq (fun _ hj _ => hj) rfl rfl rfl fun hs => hs.modifyTask hcall
  | timed _ ih => exact ih.trans (leaves_postTask _ id _ _)

lemma Moves.mem_applyTasks {j : ℕ} (hj : j ∈ t.applyTasks) : j ∈ s.applyTasks := by
  induction h with
  | tells s code => exact (mem_filter.mp hj).1
  | posts s asked => exact hj
  | hands s hkind => exact hj
  | watches s => exact hj
  | after _ _ _ ih => exact ih hj
  | timed _ ih => exact ih hj

lemma Moves.hasTimeout (hs : s.hasTimeout id = true) : t.hasTimeout id = true := by
  induction h with
  | tells s code => exact hs
  | posts s asked => exact hasTimeout_postTimeOutTask _ id
  | hands s hkind => exact hs
  | watches s => exact hs
  | after _ _ _ ih => exact ih hs
  | timed _ _ => exact hasTimeout_postTimeOutTask _ id

lemma Moves.next (hlen : id < s.tasks.length) (hid : id ∈ t.applyTasks) : t.underWay id = true ∨
      t.isObserved id = true ∧ (t.task id).appStateCallback = some s.observers.length := by
  induction h with
  | tells s code => exact absurd hid (not_mem_notifyAndRemove s id code)
  | posts s asked =>
    left
    rw [postRequest, underWay_postTimeOutTask]
    exact underWay_postTask s id Posted.noConfusion 0
  | hands s hkind =>
    left
    simp [underWay, awaits]
  | watches s =>
    refine .inr ⟨isObserved_register s id, ?_⟩
    rw [task_register, if_pos ⟨rfl, hlen⟩]
  | @after s t x f _ _ _ ih =>
    refine ih ?_ hid
    rw [modifyTask, length_modify]
    exact hlen
  | @timed s t x _ ih =>
    rw [underWay_postTimeOutTask]
    exact ih hlen hid

end

lemma Minded.moves (h : Minded s) (hl : Leaves id s t) (hmove : Moves id t x u)
    (hlen : id < t.tasks.length) (htimed : id ∈ t.applyTasks → t.hasTimeout id = true) :
    Minded u := by
  refine h.leaves (hl.trans hmove.leaves) (fun hid _ => ?_) fun hid => ?_
  · exact hmove.hasTimeout (htimed (hmove.mem_applyTasks hid))
  · exact (hmove.next hlen hid).imp_right And.left

lemma Minded.post (h : Minded s) (hl : Leaves id s t) {posted : Posted}
    (hne : posted ≠ .timeoutTask) : Minded ((t.postTask id posted 0).postTimeOutTask id) := by
  have hway : ((t.postTask id posted 0).postTimeOutTask id).underWay id = true := by
    rw [underWay_postTimeOutTask]
    exact underWay_postTask t id hne 0
  refine h.leaves (hl.trans ((leaves_postTask t id posted 0).trans (leaves_postTask _ id _ _)))
    (fun _ _ => hasTimeout_postTimeOutTask _ id) fun _ => .inl hway

variable (s) in
lemma leaves_withTask {task : QuickFixManagerApplyTask}
    (hnone : task.appStateCallback = none) (type : TaskType) :
    Leaves s.tasks.length s (s.withTask task type) := by
  refine leaves_of_eq (fun j hj hne => ?_) rfl rfl rfl fun hs j observer hcall => ?_
  · rcases mem_append.mp hj with hj | hj
    · exact hj
    · exact absurd (mem_singleton.mp hj) hne
  · rw [withTask, task_modifyTask] at hcall
    have hadd : (s.addApplyTask task).task s.tasks.length = task := by
      simp [addApplyTask, QuickFixManagerService.task, getD_eq_getElem?_getD]
    split at hcall
    · rename_i heq
      obtain ⟨rfl, -⟩ := heq
      rw [hadd, hnone] at hcall
      cases hcall
    · apply hs j observer
      have hlen : (s.addApplyTask task).tasks.length = s.tasks.length + 1 := by
        simp [addApplyTask]
      rename_i hne
      rcases Nat.lt_trichotomy j s.tasks.length with hlt | heq | hgt
      · simpa [addApplyTask, QuickFixManagerService.task, getD_eq_getElem?_getD,
          List.getElem?_append_left hlt] using hcall
      · exact absurd ⟨heq.symm, by omega⟩ hne
      · have hge : (s.addApplyTask task).tasks.length ≤ j := by omega
        simp [QuickFixManagerService.task, getD_eq_getElem?_getD, getElem?_eq_none hge] at hcall

variable {e : QueuedEvent} {events : List QueuedEvent}

lemma leaves_pop (he : s.events = e :: events) :
    Leaves e.applyTask s { s with events := events } where
  applyTasks j hj _ := hj
  underWay j hne := by simp [underWay, posts, awaits, he, isStage, hne.symm]
  hasTimeout j hne hj := by simpa [hasTimeout, he, hne.symm] using hj
  isObserved j _ hj := hj
  kinds c hc := .inl ⟨c, hc, rfl, rfl⟩
  owns hs := hs

lemma Minded.hasTimeout_pop (h : Minded s) (he : s.events = e :: events)
    (hstage : e.posted ≠ .timeoutTask) (hid : e.applyTask ∈ s.applyTasks) :
    { s with events := events }.hasTimeout e.applyTask = true := by
  have hway : s.underWay e.applyTask = true := by
    simp [underWay, posts, he, isStage, hstage]
  simpa [hasTimeout, he, hstage] using h.timed _ hid hway

def isLastRequest (s : QuickFixManagerService) (id : ℕ) (method : CallbackMethod)
    (resultCode : ℤ) (result : Option QuickFixResult) (env : Answers) : Bool :=
  resultCode ≠ 0 ||
    match method with
    | .onPatchDeployed =>
      let (t, isSet) := (s.task id).setQuickFixInfo result
      !isSet || env.isRunning && t.isSoContained
    | .onPatchSwitched => (s.task id).taskType = .quickFixRevoke && env.ret ≠ 0
    | .onPatchDeleted => (s.task id).taskType = .quickFixRevoke ||
      !((s.task id).isRunning && !(s.task id).isSoContained && (s.task id).type = .hotReload)
    | _ => false

lemma isAlive_of_mem (h : id ∈ s.applyTasks) : s.isAlive id = true := by
  simp [isAlive, h]

variable {env : Answers}

variable (s id) in
lemma underWay_regAppStateObserver (ret : ℤ) (j : ℕ) :
    (s.regAppStateObserver id ret).underWay j = s.underWay j := by
  unfold regAppStateObserver
  split <;> rfl

lemma underWay_runRevokeTask (hfirst : s.waitsFirst id env = true) (j : ℕ) :
    (s.runRevokeTask id env).underWay j = s.underWay j := by
  obtain ⟨hrun, hso⟩ := and_eq_true_iff.mp hfirst
  unfold runRevokeTask handleRevokeQuickFixAppRunning
  rw [if_pos hrun, if_pos hso, underWay_removeTimeoutTask, underWay_regAppStateObserver]

section
variable {resultCode : ℤ} {result : Option QuickFixResult}

lemma underWay_handlePatchDeployed (hrun : env.isRunning = true)
    (hso : (s.task id).isSoContained = true) (j : ℕ) :
    (s.handlePatchDeployed id env.isRunning env.hasApplied env.ret).underWay j = s.underWay j := by
  have hsame : ((s.modifyTask id fun t => { t with isRunning := env.isRunning }).task
      id).isSoContained = true := by
    rw [task_modifyTask]
    split <;> exact hso
  unfold handlePatchDeployed
  rw [if_pos (by rw [hrun] at hsame ⊢; exact hsame), underWay_regAppStateObserver]
  rfl

lemma underWay_onPatchDeployed (hlen : id < s.tasks.length)
    (hlast : s.isLastRequest id .onPatchDeployed resultCode result env = true) (j : ℕ) :
    (s.onPatchDeployed id resultCode result env).underWay j = s.underWay j := by
  unfold isLastRequest at hlast
  unfold onPatchDeployed
  rw [underWay_removeTimeoutTask]
  by_cases hcode : resultCode ≠ 0
  · rw [if_pos hcode]
    rfl
  · rw [if_neg hcode]
    generalize (s.task id).setQuickFixInfo result = info at hlast ⊢
    obtain ⟨t, isSet⟩ := info
    cases isSet with
    | false => rfl
    | true =>
      have hwatch : env.isRunning = true ∧ t.isSoContained = true := by
        simpa [hcode] using hlast
      have hso : ((s.modifyTask id fun _ => t).task id).isSoContained = true := by
        rw [task_modifyTask, if_pos ⟨rfl, hlen⟩]
        exact hwatch.2
      exact underWay_handlePatchDeployed hwatch.1 hso j

lemma underWay_onPatchSwitched
    (hlast : s.isLastRequest id .onPatchSwitched resultCode result env = true) (j : ℕ) :
    (s.onPatchSwitched id resultCode env).underWay j = s.underWay j := by
  unfold isLastRequest at hlast
  unfold onPatchSwitched
  rw [underWay_removeTimeoutTask]
  by_cases hcode : resultCode ≠ 0
  · rw [if_pos hcode]
    rfl
  · have hrefused : (s.task id).taskType = .quickFixRevoke ∧ env.ret ≠ 0 := by
      simpa [hcode] using hlast
    rw [if_neg hcode, hrefused.1]
    dsimp only [handleRevokePatchSwitched, postRevokeQuickFixNotifyUnloadPatchTask,
      postRevokeQuickFixDeleteTask, request]
    rw [if_pos hrefused.2, if_pos hrefused.2]
    split <;> rfl

lemma underWay_onPatchDeleted
    (hlast : s.isLastRequest id .onPatchDeleted resultCode result env = true) (j : ℕ) :
    (s.onPatchDeleted id resultCode).underWay j = s.underWay j := by
  unfold isLastRequest at hlast
  unfold onPatchDeleted
  rw [underWay_removeTimeoutTask]
  by_cases hcode : resultCode ≠ 0
  · rw [if_pos hcode]
    rfl
  · rw [if_neg hcode]
    cases htype : (s.task id).taskType with
    | quickFixRevoke => rfl
    | quickFixApply =>
      dsimp only [handlePatchDeleted]
      have hends : ¬ ((s.task id).isRunning && !(s.task id).isSoContained &&
          (s.task id).type = .hotReload) = true := by
        simpa only [hcode, htype, decide_false, Bool.false_or, reduceCtorEq, not_eq_true,
          Bool.not_eq_true'] using hlast
      rw [if_neg hends]
      rfl

lemma underWay_call {kind : CallbackClass} {method : CallbackMethod} (hlen : id < s.tasks.length)
    (hstatus : kind.isStatus = true)
    (hlast : s.isLastRequest id method resultCode result env = true) (j : ℕ) :
    (s.call id kind method resultCode result env).underWay j = s.underWay j := by
  unfold call
  split
  · exact underWay_onPatchDeployed hlen hlast j
  · exact underWay_onPatchSwitched hlast j
  · exact underWay_onPatchDeleted hlast j
  · exact underWay_onPatchSwitched hlast j
  · exact underWay_onPatchDeleted hlast j
  all_goals first | cases hstatus | rfl

end

lemma Minded.handleEvent (h : Minded s) (hs : Sound s) (he : s.events = e :: events)
    (hspare : e.posted = .revokeTask → { s with events := events }.isAlive e.applyTask = true →
      s.waitsFirst e.applyTask env = true → { s with events := events }.idle = true) :
    Minded ({ s with events := events }.handleEvent e env) := by
  have hmem : e ∈ s.events := he ▸ mem_cons_self ..
  have hlen := hs.known.events e hmem
  have hpop := leaves_pop he
  have htimed := h.hasTimeout_pop he
  -- an event of a task that is gone is dropped, and nobody minds
  have hgone (hdead : ¬ { s with events := events }.isAlive e.applyTask = true) :
      Minded { s with events := events } :=
    h.leaves hpop (fun hid _ => absurd (isAlive_of_mem hid) hdead)
      fun hid => absurd (isAlive_of_mem hid) hdead
  obtain ⟨time, id, posted⟩ := e
  unfold handleEvent
  cases posted with
  | request m =>
    have hasked : { s with events := events }.Warrants id (.asks m) :=
      warrants_mono (hs.asks id m (.inl ⟨_, hmem, rfl, rfl⟩)) (fun n hn => hn) rfl
    obtain ⟨x, -, hmove⟩ := enters_runRequest env.ret hasked
    exact h.moves hpop hmove hlen (htimed Posted.noConfusion)
  | revokeTask =>
    dsimp only
    split
    · rename_i halive
      obtain ⟨t, ⟨x, -, hmove⟩, hrun⟩ := enters_runRevokeTask { s with events := events } id env
      have hmoved := h.moves hpop hmove hlen (htimed Posted.noConfusion)
      rw [hrun]
      split_ifs with hfirst
      · have hsame := underWay_runRevokeTask hfirst
        rw [hrun, if_pos hfirst] at hsame
        exact hmoved.removeTimeoutTask (hspare rfl halive hfirst) (fun _ => hmove.mem_applyTasks)
          hsame
      · exact hmoved
    · rename_i hdead
      exact hgone hdead
  | timeoutTask =>
    dsimp only
    split_ifs with hdead
    · -- the timeout is used up, and so is the task
      have hout := not_mem_notifyAndRemove { s with events := events } id .processTimeout
      exact h.leaves (hpop.trans (leaves_notifyAndRemove _ id .processTimeout))
        (fun hid _ => absurd hid hout) fun hid => absurd hid hout
    · exact hgone hdead

def timeoutsSpare (s : QuickFixManagerService) : QuickFixOp → Bool
  | .callback callback method resultCode result env =>
    s.callbacks[callback]?.all fun c => !(c.held && c.kind.isStatus) ||
      s.isLastRequest c.applyTask method resultCode result env &&
        { s with
          callbacks := s.callbacks.modify callback fun c => { c with answered := true } }.idle
  | .runEvent env =>
    match s.events with
    | [] => true
    | e :: events => !(e.handleTime ≤ s.now && e.posted = .revokeTask &&
        { s with events := events }.isAlive e.applyTask && s.waitsFirst e.applyTask env) ||
      { s with events := events }.idle
  | _ => true

protected lemma Minded.runEvent (h : Minded s) (hs : Sound s)
    (hspare : s.timeoutsSpare (.runEvent env) = true) : Minded (s.runEvent env) := by
  unfold timeoutsSpare at hspare
  unfold runEvent
  cases he : s.events with
  | nil => exact h
  | cons e events =>
    rw [he] at hspare
    dsimp only at hspare ⊢
    split_ifs with hdue
    · refine h.handleEvent hs he fun hrevoke halive hfirst => ?_
      simpa [hdue, hrevoke, halive, hfirst] using hspare
    · exact h

variable (s) in
lemma leaves_answer {callback : ℕ} {c : Callback}
    (hc : s.callbacks[callback]? = some c) (method : CallbackMethod) (resultCode : ℤ) :
    Leaves c.applyTask s (s.answer callback c.applyTask method resultCode) where
  applyTasks j hj _ := hj
  underWay j hne := by
    have hawaits : (s.answer callback c.applyTask method resultCode).awaits j = s.awaits j := by
      refine Ledger.any_modify fun b hb => ?_
      cases hc.symm.trans hb
      simp [hne.symm]
    rw [underWay, hawaits]
    rfl
  hasTimeout j _ hj := hj
  isObserved j _ hj := hj
  kinds b hb := by
    rcases Ledger.mem_modify hb with hb | ⟨b', hb', rfl⟩
    · exact .inl ⟨b, hb, rfl, rfl⟩
    · exact .inl ⟨b', hb', rfl, rfl⟩
  owns hs := hs

protected lemma Minded.invoke (h : Minded s) (hs : Sound s) {callback : ℕ}
    {method : CallbackMethod} {resultCode : ℤ} {result : Option QuickFixResult}
    (hfit : ∀ c, s.callbacks[callback]? = some c → c.held = true →
      method = c.asked ∧ c.answered = false)
    (hspare : s.timeoutsSpare (.callback callback method resultCode result env) = true) :
    Minded (s.invoke callback method resultCode result env) := by
  unfold invoke
  cases hc : s.callbacks[callback]? with
  | none => exact h
  | some c =>
    dsimp only
    split
    · exact h
    · rename_i hheld
      have hheld' : c.held = true := by simpa using hheld
      obtain ⟨rfl, hanswered⟩ := hfit c hc hheld'
      have hmem := mem_of_getElem? hc
      have hway : s.underWay c.applyTask = true := by
        have hawaits : s.awaits c.applyTask = true := any_eq_true.mpr ⟨c, hmem, by simp [hanswered]⟩
        rw [underWay, hawaits, Bool.or_true]
      obtain ⟨hasked, hdone⟩ := hs.warrants_answer hc resultCode
      obtain ⟨t, ⟨x, -, hmove⟩, hcall⟩ := enters_call result env (h.kinds c hmem) hasked hdone
      have hmoved := h.moves (leaves_answer s hc c.asked resultCode) hmove
        (hs.known.callbacks c hmem) fun hid => h.timed c.applyTask hid hway
      rw [hcall]
      split_ifs with hstatus
      · have hrest := (Option.all_eq_true _ _).mp hspare c hc
        rw [hheld', hstatus] at hrest
        obtain ⟨hlast, hidle⟩ := and_eq_true_iff.mp hrest
        have hsame := underWay_call (s := s.answer callback c.applyTask c.asked resultCode)
          (hs.known.callbacks c hmem) hstatus hlast
        rw [hcall, if_pos hstatus] at hsame
        exact hmoved.removeTimeoutTask hidle (fun _ => hmove.mem_applyTasks) hsame
      · exact hmoved

lemma Minded.release (h : Minded s) (callback : ℕ) : Minded (s.step (.release callback)) := by
  have hway (id : ℕ) : (s.step (.release callback)).underWay id = s.underWay id := by
    have hawaits : (s.step (.release callback)).awaits id = s.awaits id :=
      Ledger.any_modify fun _ _ => rfl
    rw [underWay, hawaits]
    rfl
  refine ⟨fun id hid hu => ?_, fun id hid => ?_, fun c hc => ?_, h.owns⟩
  · exact h.timed id hid (hway id ▸ hu)
  · exact hway id ▸ h.minded id hid
  · rcases Ledger.mem_modify hc with hc | ⟨c', hc', rfl⟩
    · exact h.kinds c hc
    · exact h.kinds c' hc'

variable (s id env) in
lemma hasTimeout_handleProcessDied (h : (s.handleProcessDied id env).underWay id = true) :
    s.underWay id = true ∨ (s.handleProcessDied id env).hasTimeout id = true := by
  unfold handleProcessDied at h ⊢
  split at h
  · exact .inl h
  · rename_i hrun
    rw [if_neg hrun]
    cases htype : (s.task id).taskType with
    | quickFixApply =>
      rw [htype] at h
      unfold handlePatchDeployed at h ⊢
      dsimp only at h ⊢
      split at h
      · rw [underWay_regAppStateObserver] at h
        exact .inl h
      · rename_i hso
        rw [if_neg hso]
        split <;> exact .inr (hasTimeout_postTimeOutTask _ id)
    | quickFixRevoke => exact .inr (hasTimeout_postTimeOutTask _ id)

lemma leaves_unregAppStateObserver (howns : Owns s) (id : ℕ) (ret : ℤ) :
    Leaves id s (s.unregAppStateObserver id ret) := by
  unfold unregAppStateObserver
  cases hcall : (s.task id).appStateCallback with
  | none => exact leaves_of_eq (fun _ hj _ => hj) rfl rfl rfl fun hs => hs
  | some observer =>
    dsimp only
    split
    · exact leaves_of_eq (fun _ hj _ => hj) rfl rfl rfl fun hs => hs
    · obtain ⟨o, ho, hid⟩ := howns id observer hcall
      refine ⟨fun _ hj _ => hj, fun _ _ => rfl, fun _ _ hj => hj, fun j hne hj => ?_,
        fun c hc => .inl ⟨c, hc, rfl, rfl⟩, fun hs j observer' hcall' => ?_⟩
      · have hsame := Ledger.any_modify (p := isWatching j)
          (f := fun o => { o with registered := false }) fun o' ho' => by
            cases ho.symm.trans ho'
            simp [isWatching, hid, hne.symm]
        exact hsame.trans hj
      · obtain ⟨o', ho', hj⟩ := hs j observer' hcall'
        by_cases heq : observer = observer'
        · subst heq
          exact ⟨{ o' with registered := false }, by simp [ho'], hj⟩
        · exact ⟨o', by simp [ho', heq], hj⟩

variable {observer : ℕ} {o : AppStateObserver}

lemma isObserved_unregAppStateObserver {ret : ℤ} (ho : s.observers[observer]? = some o)
    (hwatch : isWatching id o = true) (hother : (s.task id).appStateCallback ≠ some observer) :
    (s.unregAppStateObserver id ret).isObserved id = true := by
  have hmem : isWatching id o = true ∧ (s.unregAppStateObserver id ret).observers[observer]? =
      some o := by
    refine ⟨hwatch, ?_⟩
    unfold unregAppStateObserver
    cases hcall : (s.task id).appStateCallback with
    | none => exact ho
    | some observer' =>
      dsimp only
      split
      · exact ho
      · have hne : observer' ≠ observer := fun heq => hother (heq ▸ hcall)
        simp [ho, hne]
  exact any_eq_true.mpr ⟨o, mem_of_getElem? hmem.2, hmem.1⟩

variable (s id) in
lemma underWay_unregAppStateObserver (ret : ℤ) (j : ℕ) :
    (s.unregAppStateObserver id ret).underWay j = s.underWay j := by
  unfold unregAppStateObserver
  split
  · rfl
  · split <;> rfl

lemma Moves.observers (h : Moves id s x t) (ho : s.observers[observer]? = some o) :
    t.observers[observer]? = some o := by
  induction h with
  | tells s code => exact ho
  | posts s asked => exact ho
  | hands s hkind => exact ho
  | watches s =>
    have hlt := (List.getElem?_eq_some_iff.mp ho).1
    exact (getElem?_append_left hlt).trans ho
  | after _ _ _ ih => exact ih ho
  | timed _ ih => exact ih ho

protected theorem Minded.onProcessDied (h : Minded s) (ho : s.observers[observer]? = some o)
    (hreg : o.registered = true) (hlen : o.applyTask < s.tasks.length)
    (hrun : env.isRunning = false) :
    Minded (s.onProcessDied o.applyTask env) := by
  obtain ⟨x, -, hmove⟩ := enters_handleProcessDied s o.applyTask hrun
  have htimed := hasTimeout_handleProcessDied s o.applyTask env
  unfold onProcessDied
  generalize s.handleProcessDied o.applyTask env = t at hmove htimed ⊢
  have hmoved := hmove.leaves
  have hunreg := leaves_unregAppStateObserver (hmoved.owns h.owns) o.applyTask env.unregisterRet
  have hsame : (t.unregAppStateObserver o.applyTask env.unregisterRet).events = t.events ∧
      (t.unregAppStateObserver o.applyTask env.unregisterRet).applyTasks = t.applyTasks := by
    unfold unregAppStateObserver
    split
    · exact ⟨rfl, rfl⟩
    · split <;> exact ⟨rfl, rfl⟩
  refine h.leaves (hmoved.trans hunreg) (fun hid hway => ?_) fun hid => ?_
  · rw [underWay_unregAppStateObserver] at hway
    rw [hsame.2] at hid
    rw [hasTimeout, hsame.1]
    rcases htimed hway with hbefore | hafter
    · exact hmove.hasTimeout (h.timed _ (hmove.mem_applyTasks hid) hbefore)
    · exact hafter
  · rw [underWay_unregAppStateObserver]
    rw [hsame.2] at hid
    rcases hmove.next hlen hid with hway | ⟨-, hcall⟩
    · exact .inl hway
    · refine .inr (isObserved_unregAppStateObserver (hmove.observers ho) ?_ ?_)
      · simp [isWatching, hreg]
      · have hlt := (List.getElem?_eq_some_iff.mp ho).1
        rw [hcall]
        intro heq
        have := Option.some.inj heq
        omega

section
variable (s)

def inTurn : QuickFixOp → Bool
  | .callback callback _ _ _ _ => s.callbacks[callback]?.all fun c => !c.held || !c.answered
  | .processDied observer env => s.observers[observer]?.all fun o =>
    if env.isRunning then env.unregisterRet ≠ 0 else o.registered
  | _ => true

def waitsFit (o : QuickFixOp) : Bool :=
  s.replyFits o && s.inTurn o && s.timeoutsSpare o

end

protected lemma Minded.step (h : Minded s) (hs : Sound s) {o : QuickFixOp}
    (hfit : s.waitsFit o = true) : Minded (s.step o) := by
  obtain ⟨hboth, hspare⟩ := and_eq_true_iff.mp hfit
  obtain ⟨hreply, hturn⟩ := and_eq_true_iff.mp hboth
  cases o with
  | applyQuickFix => exact h.post (leaves_withTask s rfl .quickFixApply) Posted.noConfusion
  | revokeQuickFix bundleName patchExists isSoContained =>
    show Minded (s.revokeQuickFix bundleName patchExists isSoContained)
    unfold revokeQuickFix
    split
    · exact h
    · split
      · exact h
      · exact h.post (leaves_withTask s rfl .quickFixRevoke) Posted.noConfusion
  | runEvent env => exact h.runEvent hs hspare
  | elapse millis => exact { h with }
  | callback callback method resultCode result env =>
    refine h.invoke hs (fun c hc hheld => ⟨?_, ?_⟩) hspare
    · exact of_decide_eq_true ((Option.all_eq_true _ _).mp hreply c hc)
    · simpa [hheld] using (Option.all_eq_true _ _).mp hturn c hc
  | release callback => exact h.release callback
  | processDied observer env =>
    unfold step
    dsimp only
    cases ho : s.observers[observer]? with
    | none => exact h
    | some o =>
      have hdied := (Option.all_eq_true _ _).mp hturn o ho
      have hlen := hs.known.observers o (mem_of_getElem? ho)
      cases hrun : env.isRunning with
      | true =>
        -- nothing is done, and the observer could not be taken back
        have hret : env.unregisterRet ≠ 0 := by simpa [hrun] using hdied
        have hsame : s.onProcessDied o.applyTask env = s := by
          unfold onProcessDied handleProcessDied unregAppStateObserver
          rw [if_pos hrun]
          split
          · rfl
          · rw [if_pos hret]
        show Minded (s.onProcessDied o.applyTask env)
        rw [hsame]
        exact h
      | false => exact h.onProcessDied ho (by simpa [hrun] using hdied) hlen hrun

theorem runOps_attended {ops : List QuickFixOp}
    (h : Runs.Guarded step (fun s o => s.waitsFit o = true) init ops) :
    Attended (runOps ops) := by
  have hall : Sound (runOps ops) ∧ Minded (runOps ops) := by
    refine h.invariant (I := fun s => Sound s ∧ Minded s) (fun s o hs hfit => ?_)
      ⟨sound_init, minded_init⟩
    have hreply := (and_eq_true_iff.mp (and_eq_true_iff.mp hfit).1).1
    exact ⟨hs.1.step hreply, hs.2.step hs.1 hfit⟩
  exact hall.2.attended

def waitingTasks : List QuickFixOp :=
  [.applyQuickFix, .runEvent {},
    .callback 0 .onPatchDeployed 0 (some (deployResult true)) { isRunning := true },
    .applyQuickFix, .runEvent {}, .processDied 0 {}, .runEvent {}]

theorem waitingTasks_attended :
    ((runOps waitingTasks).applyTasks = [0, 1] ∧ (runOps waitingTasks).awaits 0 = true ∧
      (runOps waitingTasks).awaits 1 = true) ∧ Attended (runOps waitingTasks) :=
  ⟨by decide +kernel, runOps_attended (by decide +kernel)⟩

def deployThenSwitch : List QuickFixOp :=
  [.applyQuickFix, .runEvent {}, .callback 0 .onPatchDeployed 0 (some (deployResult false)) {},
    .runEvent {}]

def firstOfTwoProcesses : List QuickFixOp :=
  [.applyQuickFix, .runEvent {},
    .callback 0 .onPatchDeployed 0 (some (deployResult true)) { isRunning := true },
    .processDied 0 { isRunning := true }]

theorem waits_unguarded :
    (runOps deployThenSwitch).applyTasks = [0] ∧ (runOps deployThenSwitch).awaits 0 = true ∧
      (runOps deployThenSwitch).hasTimeout 0 = false ∧
    (runOps firstOfTwoProcesses).applyTasks = [0] ∧
      (runOps firstOfTwoProcesses).waitsForDeath 0 = true ∧
      (runOps firstOfTwoProcesses).isObserved 0 = false := by
  decide +kernel

end QuickFixManagerService
end AbilityRuntime.QuickFix
