import AbilityRuntime.Library.Ledger
import AbilityRuntime.QuickFix.QuickFixManagerApplyTask

/-! How a task goes from stage to stage. -/

namespace AbilityRuntime.QuickFix

inductive Stage
  | asks (method : CallbackMethod)
  | revokes
  | watches
  | tells (resultCode : QuickFixCode)

def Posted.stages : Posted → List Stage
  | .request m => [.asks m]
  | .revokeTask => [.revokes]
  | .timeoutTask => []

namespace CallbackClass

def handles : CallbackClass → CallbackMethod → Bool
  | .quickFixManagerStatusCallback, .onPatchDeployed => true
  | .quickFixManagerStatusCallback, .onPatchSwitched => true
  | .quickFixManagerStatusCallback, .onPatchDeleted => true
  | .revokeQuickFixTaskCallback, .onPatchSwitched => true
  | .revokeQuickFixTaskCallback, .onPatchDeleted => true
  | .quickFixNotifyCallback, .onLoadPatchDone => true
  | .quickFixNotifyCallback, .onUnloadPatchDone => true
  | .quickFixNotifyCallback, .onReloadPageDone => true
  | .revokeQuickFixNotifyCallback, .onUnloadPatchDone => true
  | _, _ => false

def isStatus : CallbackClass → Bool
  | .quickFixManagerStatusCallback | .revokeQuickFixTaskCallback => true
  | .quickFixNotifyCallback | .revokeQuickFixNotifyCallback => false

end CallbackClass

namespace QuickFixManagerService

def Succeeded (s : QuickFixManagerService) (id : ℕ) (method : CallbackMethod) : Prop :=
  .succeeded id method ∈ s.log

def Warrants (s : QuickFixManagerService) (id : ℕ) : Stage → Prop
  | .asks .onPatchDeployed => (s.task id).taskType = .quickFixApply
  | .asks .onPatchDeleted => s.Succeeded id .onPatchSwitched
  | .asks .onLoadPatchDone => s.Succeeded id .onPatchSwitched
  | .asks .onUnloadPatchDone =>
    (s.task id).taskType = .quickFixRevoke → s.Succeeded id .onPatchSwitched
  | .asks .onReloadPageDone => s.Succeeded id .onPatchSwitched ∧ s.Succeeded id .onPatchDeleted
  | .tells .ok => s.Succeeded id .onPatchSwitched ∧ s.Succeeded id .onPatchDeleted
  | _ => True

inductive Moves (id : ℕ) : QuickFixManagerService → Stage → QuickFixManagerService → Prop
  | tells (s : QuickFixManagerService) (code : QuickFixCode) :
    Moves id s (.tells code) (s.notifyAndRemove id code)
  | posts (s : QuickFixManagerService) (asked : CallbackMethod) :
    Moves id s (.asks asked) (s.postRequest id asked)
  | hands (s : QuickFixManagerService) {kind : CallbackClass} {asked : CallbackMethod}
    (h : kind.handles asked = true) : Moves id s (.asks asked)
      { s with callbacks := s.callbacks ++ [⟨id, kind, asked, true, false⟩] }
  | watches (s : QuickFixManagerService) : Moves id s .watches (s.regAppStateObserver id 0)
  | after {s t : QuickFixManagerService} {x : Stage}
    {f : QuickFixManagerApplyTask → QuickFixManagerApplyTask}
    (htype : (f (s.task id)).taskType = (s.task id).taskType)
    (hcall : (f (s.task id)).appStateCallback = (s.task id).appStateCallback)
    (h : Moves id (s.modifyTask id f) x t) : Moves id s x t
  | timed {s t : QuickFixManagerService} {x : Stage} (h : Moves id s x t) :
    Moves id s x (t.postTimeOutTask id)

def Enters (id : ℕ) (s t : QuickFixManagerService) : Prop :=
  ∃ x, s.Warrants id x ∧ Moves id s x t

variable {s t : QuickFixManagerService} {id : ℕ}

variable (s) in
lemma task_modifyTask (k : ℕ) (f : QuickFixManagerApplyTask → QuickFixManagerApplyTask) (j : ℕ) :
    (s.modifyTask k f).task j = if k = j ∧ j < s.tasks.length then f (s.task j) else s.task j :=
  Ledger.getD_modify f k j {}

lemma warrants_mono {x : Stage} (h : s.Warrants id x) (hlog : ∀ n ∈ s.log, n ∈ t.log)
    (htype : (t.task id).taskType = (s.task id).taskType) : t.Warrants id x := by
  unfold Warrants at h ⊢
  split at h
  · exact htype.trans h
  · exact hlog _ h
  · exact hlog _ h
  · exact fun hrevoke => hlog _ (h (htype.symm.trans hrevoke))
  · exact ⟨hlog _ h.1, hlog _ h.2⟩
  · exact ⟨hlog _ h.1, hlog _ h.2⟩
  · exact h

lemma Enters.timed (h : Enters id s t) : Enters id s (t.postTimeOutTask id) := by
  obtain ⟨x, hx, hmoves⟩ := h
  exact ⟨x, hx, hmoves.timed⟩

lemma Enters.after {f : QuickFixManagerApplyTask → QuickFixManagerApplyTask}
    (htype : (f (s.task id)).taskType = (s.task id).taskType)
    (hcall : (f (s.task id)).appStateCallback = (s.task id).appStateCallback)
    (h : Enters id (s.modifyTask id f) t) : Enters id s t := by
  obtain ⟨x, hx, hmoves⟩ := h
  refine ⟨x, warrants_mono hx (fun n hn => hn) ?_, hmoves.after htype hcall⟩
  rw [task_modifyTask]
  split
  · exact htype.symm
  · rfl

lemma enters_notifyAndRemove {code : QuickFixCode} (h : s.Warrants id (.tells code)) :
    Enters id s (s.notifyAndRemove id code) :=
  ⟨.tells code, h, .tells s code⟩

variable {asked : CallbackMethod} {kind : CallbackClass} (ret : ℤ)

lemma enters_postRequest (h : s.Warrants id (.asks asked)) : Enters id s (s.postRequest id asked) :=
  ⟨.asks asked, h, .posts s asked⟩

lemma enters_request {failed : QuickFixCode} (hkind : kind.handles asked = true)
    (hasked : s.Warrants id (.asks asked)) (hfailed : s.Warrants id (.tells failed)) :
    Enters id s (s.request id kind asked failed ret) := by
  unfold request
  split
  · exact enters_notifyAndRemove hfailed
  · exact ⟨.asks asked, hasked, .hands s hkind⟩

lemma enters_runRequest (h : s.Warrants id (.asks asked)) :
    Enters id s (s.runRequest id asked ret) := by
  cases asked <;> exact enters_request ret rfl h trivial

variable (s id) in
lemma enters_regAppStateObserver : Enters id s (s.regAppStateObserver id ret) := by
  by_cases hret : ret = 0
  · subst hret
    exact ⟨.watches, trivial, .watches s⟩
  · unfold regAppStateObserver
    rw [if_pos hret]
    exact enters_notifyAndRemove trivial

lemma enters_handlePatchDeployed (h : (s.task id).taskType = .quickFixApply)
    (isRunning hasApplied : Bool) (ret : ℤ) :
    Enters id s (s.handlePatchDeployed id isRunning hasApplied ret) := by
  unfold handlePatchDeployed
  refine .after (f := fun t => { t with isRunning := isRunning }) rfl rfl ?_
  dsimp only
  split
  · exact enters_regAppStateObserver _ id ret
  · split
    · refine enters_postRequest fun hrevoke => ?_
      rw [task_modifyTask] at hrevoke
      split at hrevoke <;> exact absurd (h.symm.trans hrevoke) TaskType.noConfusion
    · exact enters_postRequest trivial

lemma enters_handlePatchSwitched (h : s.Succeeded id .onPatchSwitched) :
    Enters id s (s.handlePatchSwitched id) := by
  unfold handlePatchSwitched
  split
  · exact enters_postRequest h
  · exact enters_postRequest h

lemma enters_handlePatchDeleted (h : s.Succeeded id .onPatchSwitched)
    (h' : s.Succeeded id .onPatchDeleted) : Enters id s (s.handlePatchDeleted id) := by
  unfold handlePatchDeleted
  split
  · exact enters_postRequest ⟨h, h'⟩
  · exact enters_notifyAndRemove ⟨h, h'⟩

variable (s id) in
lemma enters_handleRevokeQuickFixAppStop : Enters id s (s.handleRevokeQuickFixAppStop id ret) :=
  enters_request ret rfl trivial trivial

def waitsFirst (s : QuickFixManagerService) (id : ℕ) (env : Answers) : Bool :=
  env.isRunning && (s.task id).isSoContained

variable (s id) in
lemma enters_runRevokeTask (env : Answers) : ∃ t, Enters id s t ∧
      s.runRevokeTask id env = if s.waitsFirst id env then t.removeTimeoutTask else t := by
  unfold runRevokeTask handleRevokeQuickFixAppRunning waitsFirst
  by_cases hrun : env.isRunning = true
  · by_cases hso : (s.task id).isSoContained = true
    · refine ⟨s.regAppStateObserver id env.ret, enters_regAppStateObserver s id env.ret, ?_⟩
      simp only [hrun, hso, if_true, Bool.and_self]
    · refine ⟨s.handleRevokeQuickFixAppStop id env.ret, ?_, ?_⟩
      · exact enters_handleRevokeQuickFixAppStop s id env.ret
      · simp only [hrun, hso, if_true, Bool.and_false, Bool.false_eq_true, if_false]
  · refine ⟨s.handleRevokeQuickFixAppStop id env.ret, ?_, ?_⟩
    · exact enters_handleRevokeQuickFixAppStop s id env.ret
    · simp only [hrun, Bool.false_and, Bool.false_eq_true, if_false]

lemma enters_postRevokeQuickFixDeleteTask (h : s.Succeeded id .onPatchSwitched) :
    Enters id s (s.postRevokeQuickFixDeleteTask id ret) :=
  enters_request ret rfl h trivial

lemma enters_handleRevokePatchSwitched (env : Answers) (h : s.Succeeded id .onPatchSwitched) :
    Enters id s (s.handleRevokePatchSwitched id env) := by
  unfold handleRevokePatchSwitched
  split
  · exact enters_request env.ret rfl (fun _ => h) trivial
  · exact enters_postRevokeQuickFixDeleteTask env.ret h

lemma extractQuickFixDataFromJson_same (t : QuickFixManagerApplyTask) (r : QuickFixResult) :
    (t.extractQuickFixDataFromJson r).1.taskType = t.taskType ∧
      (t.extractQuickFixDataFromJson r).1.appStateCallback = t.appStateCallback := by
  unfold QuickFixManagerApplyTask.extractQuickFixDataFromJson
  repeat' split
  all_goals exact ⟨rfl, rfl⟩

lemma setQuickFixInfo_same (t : QuickFixManagerApplyTask) (result : Option QuickFixResult) :
    (t.setQuickFixInfo result).1.taskType = t.taskType ∧
      (t.setQuickFixInfo result).1.appStateCallback = t.appStateCallback := by
  cases result with
  | none => exact ⟨rfl, rfl⟩
  | some r =>
    have hsame := extractQuickFixDataFromJson_same t r
    simp only [QuickFixManagerApplyTask.setQuickFixInfo]
    repeat' split
    all_goals exact hsame

lemma enters_onPatchDeployed (resCode : ℤ) (result : Option QuickFixResult) (env : Answers)
    (h : (s.task id).taskType = .quickFixApply) :
    ∃ t, Enters id s t ∧ s.onPatchDeployed id resCode result env = t.removeTimeoutTask := by
  obtain ⟨htype, hcall⟩ := setQuickFixInfo_same (s.task id) result
  refine ⟨_, ?_, rfl⟩
  by_cases hok : resCode ≠ 0
  · rw [if_pos hok]
    exact enters_notifyAndRemove trivial
  · rw [if_neg hok]
    refine .after (f := fun _ => ((s.task id).setQuickFixInfo result).1) htype hcall ?_
    dsimp only
    split
    · exact enters_notifyAndRemove trivial
    · refine enters_handlePatchDeployed ?_ _ _ _
      rw [task_modifyTask]
      split
      · exact htype.trans h
      · exact h

lemma enters_onPatchSwitched (resCode : ℤ) (env : Answers)
    (h : resCode = 0 → s.Succeeded id .onPatchSwitched) :
    ∃ t, Enters id s t ∧ s.onPatchSwitched id resCode env = t.removeTimeoutTask := by
  refine ⟨_, ?_, rfl⟩
  split_ifs with hok
  · exact enters_notifyAndRemove trivial
  · have hdone := h (not_not.mp hok)
    split
    · exact enters_handlePatchSwitched hdone
    · exact enters_handleRevokePatchSwitched env hdone

lemma enters_onPatchDeleted (resCode : ℤ) (h : s.Succeeded id .onPatchSwitched)
    (h' : resCode = 0 → s.Succeeded id .onPatchDeleted) :
    ∃ t, Enters id s t ∧ s.onPatchDeleted id resCode = t.removeTimeoutTask := by
  refine ⟨_, ?_, rfl⟩
  split_ifs with hok
  · exact enters_notifyAndRemove trivial
  · have hdone := h' (not_not.mp hok)
    split
    · exact enters_handlePatchDeleted h hdone
    · exact enters_notifyAndRemove ⟨h, hdone⟩

variable (resultCode : ℤ)

lemma enters_onLoadPatchDone (h : s.Succeeded id .onPatchSwitched) :
    Enters id s (s.onLoadPatchDone id resultCode) := by
  unfold onLoadPatchDone
  split
  · exact enters_notifyAndRemove trivial
  · exact enters_postRequest h

lemma enters_onUnloadPatchDone (env : Answers)
    (h : (s.task id).taskType = .quickFixRevoke → s.Succeeded id .onPatchSwitched) :
    Enters id s (s.onUnloadPatchDone id resultCode env) := by
  unfold onUnloadPatchDone
  split
  · exact enters_notifyAndRemove trivial
  · split
    · exact enters_postRequest trivial
    · rename_i hrevoke
      exact enters_postRevokeQuickFixDeleteTask env.ret (h hrevoke)

lemma enters_onReloadPageDone (h : s.Succeeded id .onPatchSwitched)
    (h' : s.Succeeded id .onPatchDeleted) : Enters id s (s.onReloadPageDone id resultCode) := by
  unfold onReloadPageDone
  split
  · exact enters_notifyAndRemove trivial
  · exact enters_notifyAndRemove ⟨h, h'⟩

lemma enters_call {method : CallbackMethod} {resultCode : ℤ} (result : Option QuickFixResult)
    (env : Answers) (hkind : kind.handles method = true) (hasked : s.Warrants id (.asks method))
    (hdone : resultCode = 0 → s.Succeeded id method) :
    ∃ t, Enters id s t ∧ s.call id kind method resultCode result env =
      if kind.isStatus then t.removeTimeoutTask else t := by
  cases kind <;> cases method <;> try cases hkind
  · exact enters_onPatchDeployed _ _ _ hasked
  · exact enters_onPatchSwitched _ _ hdone
  · exact enters_onPatchDeleted _ hasked hdone
  · exact enters_onPatchSwitched _ _ hdone
  · exact enters_onPatchDeleted _ hasked hdone
  · exact ⟨_, enters_onLoadPatchDone _ hasked, rfl⟩
  · exact ⟨_, enters_onUnloadPatchDone _ _ hasked, rfl⟩
  · exact ⟨_, enters_onReloadPageDone _ hasked.1 hasked.2, rfl⟩
  · exact ⟨_, enters_onUnloadPatchDone _ _ hasked, rfl⟩

lemma call_of_not_handles {method : CallbackMethod} (h : kind.handles method = false)
    (resultCode : ℤ) (result : Option QuickFixResult) (env : Answers) :
    s.call id kind method resultCode result env = s := by
  cases kind <;> cases method <;> first | rfl | cases h

section
variable (s id)

lemma enters_handleProcessDied {env : Answers}
    (h : env.isRunning = false) : Enters id s (s.handleProcessDied id env) := by
  unfold handleProcessDied
  rw [if_neg (by simp [h])]
  split
  · rename_i happly
    exact enters_handlePatchDeployed happly _ _ _
  · exact (enters_handleRevokeQuickFixAppStop s id env.ret).timed

lemma perm_postTask (posted : Posted) (delay : ℕ) :
    (s.postTask id posted delay).events.Perm (⟨s.now + delay, id, posted⟩ :: s.events) := by
  refine List.perm_middle.trans (.cons _ ?_)
  rw [List.takeWhile_append_dropWhile]

end

def withTask (s : QuickFixManagerService) (t : QuickFixManagerApplyTask) (type : TaskType) :
    QuickFixManagerService :=
  (s.addApplyTask t).modifyTask s.tasks.length fun t => { t with taskType := type }

section
variable (s)

lemma length_withTask (t : QuickFixManagerApplyTask)
    (type : TaskType) : (s.withTask t type).tasks.length = s.tasks.length + 1 := by
  simp [withTask, modifyTask, addApplyTask]

lemma taskType_withTask (t : QuickFixManagerApplyTask)
    (type : TaskType) : ((s.withTask t type).task s.tasks.length).taskType = type := by
  rw [withTask, task_modifyTask, if_pos ⟨rfl, by simp [addApplyTask]⟩]

lemma enters_applyQuickFix : Enters s.tasks.length (s.withTask {} .quickFixApply) s.applyQuickFix :=
  enters_postRequest (taskType_withTask s {} .quickFixApply)

end

end QuickFixManagerService
end AbilityRuntime.QuickFix
