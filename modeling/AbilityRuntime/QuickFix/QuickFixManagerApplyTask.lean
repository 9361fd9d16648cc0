import Mathlib.Data.List.Basic
import AbilityRuntime.QuickFix.QuickFixErrorUtils

/-! Tasks that apply and revoke quick fixes stage by stage, each stage asking for something and
handing over a callback. The stages and timeouts of all tasks are posted to one event handler.
Tasks, callbacks and observers are known by their places in the lists of all that were made. -/

namespace AbilityRuntime.QuickFix

inductive TaskType
  | quickFixApply | quickFixRevoke
  deriving DecidableEq

inductive QuickFixType
  | unknown | patch | hotReload
  deriving DecidableEq

structure QuickFixManagerApplyTask where
  appStateCallback : Option ℕ := none
  bundleName : String := ""
  bundleVersionCode : ℤ := 0
  patchVersionCode : ℤ := 0
  isRunning : Bool := false
  isSoContained : Bool := false
  type : QuickFixType := .unknown
  moduleNames : List String := []
  taskType : TaskType := .quickFixApply

/-- The text of a deployment result. A field is there when the text has it with the type
that is asked for; of the module names, those that are strings are. -/
structure QuickFixResult where
  bundleName : Option String
  bundleVersionCode : Option ℤ
  patchVersionCode : Option ℤ
  isSoContained : Option Bool
  type : Option QuickFixType
  moduleNames : Option (List (Option String))

structure ResultEvent where
  action : TaskType
  result : ℤ
  resultInfo : String
  applied : Option (ℤ × ℤ × String)
  bundleName : String

namespace QuickFixManagerApplyTask

variable (t : QuickFixManagerApplyTask)

/-- Fields that were read before one that is missing keep their new values. -/
def extractQuickFixDataFromJson (r : QuickFixResult) : QuickFixManagerApplyTask × Bool :=
  match r.bundleName with
  | none => (t, false)
  | some v =>
    let t := { t with bundleName := v }
    match r.bundleVersionCode with
    | none => (t, false)
    | some v =>
      let t := { t with bundleVersionCode := v }
      match r.patchVersionCode with
      | none => (t, false)
      | some v =>
        let t := { t with patchVersionCode := v }
        match r.isSoContained with
        | none => (t, false)
        | some v =>
          let t := { t with isSoContained := v }
          match r.type with
          | none => (t, false)
          | some v => ({ t with type := v }, true)

def setQuickFixInfo (result : Option QuickFixResult) : QuickFixManagerApplyTask × Bool :=
  match result with
  | none => (t, false)
  | some r =>
    let (t, extracted) := t.extractQuickFixDataFromJson r
    if !extracted then (t, false)
    else if t.type ≠ .patch ∧ t.type ≠ .hotReload then (t, false)
    else
      match r.moduleNames with
      | none => (t, false)
      | some names => ({ t with moduleNames := names.filterMap fun name => name }, true)

def moduleName : String :=
  t.moduleNames.foldl
    (fun name str => if some str = t.moduleNames.head? then name ++ str else name ++ "," ++ str) ""

def resultEvent (resultCode : QuickFixCode) : ResultEvent where
  action := t.taskType
  result := getErrorCode resultCode.toInt
  resultInfo := getErrorMessage resultCode.toInt
  applied :=
    match t.taskType with
    | .quickFixApply => some (t.bundleVersionCode, t.patchVersionCode, t.moduleName)
    | .quickFixRevoke => none
  bundleName := t.bundleName

end QuickFixManagerApplyTask

inductive CallbackMethod
  | onPatchDeployed | onPatchSwitched | onPatchDeleted
  | onLoadPatchDone | onUnloadPatchDone | onReloadPageDone
  deriving DecidableEq

inductive CallbackClass
  | quickFixManagerStatusCallback | revokeQuickFixTaskCallback
  | quickFixNotifyCallback | revokeQuickFixNotifyCallback
  deriving DecidableEq

/-- A callback, with what was asked for when it was handed over. The other side holds it
until it lets it go. -/
structure Callback where
  applyTask : ℕ
  kind : CallbackClass
  asked : CallbackMethod
  held : Bool
  answered : Bool

structure AppStateObserver where
  applyTask : ℕ
  registered : Bool

inductive Posted
  | request (asked : CallbackMethod)
  | revokeTask
  | timeoutTask
  deriving DecidableEq

structure QueuedEvent where
  handleTime : ℕ
  applyTask : ℕ
  posted : Posted

inductive Note
  | succeeded (applyTask : ℕ) (method : CallbackMethod)
  | notified (applyTask : ℕ) (resultCode : QuickFixCode) (event : ResultEvent)

structure QuickFixManagerService where
  now : ℕ
  tasks : List QuickFixManagerApplyTask
  applyTasks : List ℕ
  events : List QueuedEvent
  callbacks : List Callback
  observers : List AppStateObserver
  log : List Note

/-- What the other services answer while one step is made: whether the application runs,
when asked first and when asked again, whether an older patch is deployed, and the
results of the request or registration and of the unregistration. -/
structure Answers where
  isRunning : Bool := false
  isRunningAgain : Bool := false
  hasApplied : Bool := false
  ret : ℤ := 0
  unregisterRet : ℤ := 0

inductive QuickFixOp
  | applyQuickFix
  | revokeQuickFix (bundleName : String) (patchExists isSoContained : Bool)
  | runEvent (env : Answers)
  | elapse (millis : ℕ)
  | callback (callback : ℕ) (method : CallbackMethod) (resultCode : ℤ)
      (result : Option QuickFixResult) (env : Answers)
  | release (callback : ℕ)
  | processDied (observer : ℕ) (env : Answers)

def timeoutTaskDelayTime : ℕ := 3 * 60 * 1000

namespace QuickFixManagerService

def init : QuickFixManagerService := ⟨0, [], [], [], [], [], []⟩

variable (s : QuickFixManagerService) (id : ℕ) (ret : ℤ) (resultCode : ℤ) (env : Answers)

def task : QuickFixManagerApplyTask := s.tasks.getD id {}

def modifyTask (f : QuickFixManagerApplyTask → QuickFixManagerApplyTask) : QuickFixManagerService :=
  { s with tasks := s.tasks.modify id f }

def notifyApplyStatus (resultCode : QuickFixCode) : QuickFixManagerService :=
  { s with log := s.log ++ [.notified id resultCode ((s.task id).resultEvent resultCode)] }

def removeSelf : QuickFixManagerService :=
  { s with applyTasks := s.applyTasks.filter (· ≠ id) }

def notifyAndRemove (resultCode : QuickFixCode) : QuickFixManagerService :=
  (s.notifyApplyStatus id resultCode).removeSelf id

def postTask (posted : Posted) (delayTime : ℕ) : QuickFixManagerService :=
  let handleTime := s.now + delayTime
  { s with
    events := s.events.takeWhile (·.handleTime ≤ handleTime) ++
      ⟨handleTime, id, posted⟩ :: s.events.dropWhile (·.handleTime ≤ handleTime) }

def postTimeOutTask : QuickFixManagerService :=
  s.postTask id .timeoutTask timeoutTaskDelayTime

def removeTimeoutTask : QuickFixManagerService :=
  { s with events := s.events.filter (·.posted ≠ .timeoutTask) }

def postRequest (asked : CallbackMethod) : QuickFixManagerService :=
  (s.postTask id (.request asked) 0).postTimeOutTask id

def postDeployQuickFixTask : QuickFixManagerService :=
  s.postRequest id .onPatchDeployed

def postSwitchQuickFixTask : QuickFixManagerService :=
  s.postRequest id .onPatchSwitched

def postDeleteQuickFixTask : QuickFixManagerService :=
  s.postRequest id .onPatchDeleted

def postNotifyLoadRepairPatchTask : QuickFixManagerService :=
  s.postRequest id .onLoadPatchDone

def postNotifyUnloadRepairPatchTask : QuickFixManagerService :=
  s.postRequest id .onUnloadPatchDone

def postNotifyHotReloadPageTask : QuickFixManagerService :=
  s.postRequest id .onReloadPageDone

def request (kind : CallbackClass) (asked : CallbackMethod)
    (failed : QuickFixCode) (ret : ℤ) : QuickFixManagerService :=
  if ret ≠ 0 then s.notifyAndRemove id failed
  else { s with callbacks := s.callbacks ++ [⟨id, kind, asked, true, false⟩] }

/-- The requests that are made by the event handler, with their callbacks and what is told
when they are refused. -/
def runRequest (asked : CallbackMethod) (ret : ℤ) : QuickFixManagerService :=
  match asked with
  | .onPatchDeployed => s.request id .quickFixManagerStatusCallback asked .deployFailed ret
  | .onPatchSwitched => s.request id .quickFixManagerStatusCallback asked .swichFailed ret
  | .onPatchDeleted => s.request id .quickFixManagerStatusCallback asked .deleteFailed ret
  | .onLoadPatchDone => s.request id .quickFixNotifyCallback asked .notifyLoadPatchFailed ret
  | .onUnloadPatchDone => s.request id .quickFixNotifyCallback asked .notifyUnloadPatchFailed ret
  | .onReloadPageDone => s.request id .quickFixNotifyCallback asked .notifyReloadPageFailed ret

def regAppStateObserver : QuickFixManagerService :=
  if ret ≠ 0 then s.notifyAndRemove id .registerObserverFailed
  else
    let s' := s.modifyTask id fun t => { t with appStateCallback := some s.observers.length }
    { s' with observers := s.observers ++ [⟨id, true⟩] }

def unregAppStateObserver : QuickFixManagerService :=
  match (s.task id).appStateCallback with
  | none => s
  | some observer =>
    if ret ≠ 0 then s
    else { s with observers := s.observers.modify observer fun o => { o with registered := false } }

def handlePatchDeployed (isRunning hasApplied : Bool) (ret : ℤ) : QuickFixManagerService :=
  let s := s.modifyTask id fun t => { t with isRunning := isRunning }
  if isRunning && (s.task id).isSoContained then s.regAppStateObserver id ret
  else if isRunning && !(s.task id).isSoContained && hasApplied then
    s.postNotifyUnloadRepairPatchTask id
  else s.postSwitchQuickFixTask id

def handlePatchSwitched : QuickFixManagerService :=
  if (s.task id).isRunning && !(s.task id).isSoContained then s.postNotifyLoadRepairPatchTask id
  else s.postDeleteQuickFixTask id

def handlePatchDeleted : QuickFixManagerService :=
  if (s.task id).isRunning && !(s.task id).isSoContained && (s.task id).type = .hotReload then
    s.postNotifyHotReloadPageTask id
  else s.notifyAndRemove id .ok

def handleRevokeQuickFixAppStop : QuickFixManagerService :=
  s.request id .revokeQuickFixTaskCallback .onPatchSwitched .swichFailed ret

def handleRevokeQuickFixAppRunning : QuickFixManagerService :=
  if (s.task id).isSoContained then (s.regAppStateObserver id ret).removeTimeoutTask
  else s.handleRevokeQuickFixAppStop id ret

def postRevokeQuickFixNotifyUnloadPatchTask : QuickFixManagerService :=
  s.request id .revokeQuickFixNotifyCallback .onUnloadPatchDone .notifyUnloadPatchFailed ret

def postRevokeQuickFixDeleteTask : QuickFixManagerService :=
  s.request id .revokeQuickFixTaskCallback .onPatchDeleted .deleteFailed ret

def postRevokeQuickFixProcessDiedTask : QuickFixManagerService :=
  (s.handleRevokeQuickFixAppStop id ret).postTimeOutTask id

def handleRevokePatchSwitched : QuickFixManagerService :=
  if env.isRunning then s.postRevokeQuickFixNotifyUnloadPatchTask id env.ret
  else s.postRevokeQuickFixDeleteTask id env.ret

def handleRevokePatchDeleted : QuickFixManagerService :=
  s.notifyAndRemove id .ok

def runRevokeTask : QuickFixManagerService :=
  if env.isRunning then s.handleRevokeQuickFixAppRunning id env.ret
  else s.handleRevokeQuickFixAppStop id env.ret

def onPatchDeployed (resCode : ℤ)
    (result : Option QuickFixResult) (env : Answers) : QuickFixManagerService :=
  let s :=
    if resCode ≠ 0 then s.notifyAndRemove id .deployFailed
    else
      let (t, isSet) := (s.task id).setQuickFixInfo result
      let s := s.modifyTask id fun _ => t
      if !isSet then s.notifyAndRemove id .setInfoFailed
      else s.handlePatchDeployed id env.isRunning env.hasApplied env.ret
  s.removeTimeoutTask

def onPatchSwitched (resCode : ℤ) (env : Answers) : QuickFixManagerService :=
  let s :=
    if resCode ≠ 0 then s.notifyAndRemove id .swichFailed
    else
      match (s.task id).taskType with
      | .quickFixApply => s.handlePatchSwitched id
      | .quickFixRevoke => s.handleRevokePatchSwitched id env
  s.removeTimeoutTask

def onPatchDeleted (resCode : ℤ) : QuickFixManagerService :=
  let s :=
    if resCode ≠ 0 then s.notifyAndRemove id .deleteFailed
    else
      match (s.task id).taskType with
      | .quickFixApply => s.handlePatchDeleted id
      | .quickFixRevoke => s.handleRevokePatchDeleted id
  s.removeTimeoutTask

def onLoadPatchDone : QuickFixManagerService :=
  if resultCode ≠ 0 then s.notifyAndRemove id .notifyLoadPatchFailed
  else s.postDeleteQuickFixTask id

def onUnloadPatchDone : QuickFixManagerService :=
  if resultCode ≠ 0 then s.notifyAndRemove id .notifyUnloadPatchFailed
  else
    match (s.task id).taskType with
    | .quickFixApply => s.postSwitchQuickFixTask id
    | .quickFixRevoke => s.postRevokeQuickFixDeleteTask id env.ret

def onReloadPageDone : QuickFixManagerService :=
  if resultCode ≠ 0 then s.notifyAndRemove id .notifyReloadPageFailed
  else s.notifyAndRemove id .ok

/-- The two classes for revoking override the methods they have no use for. -/
def call (kind : CallbackClass) (method : CallbackMethod)
    (resultCode : ℤ) (result : Option QuickFixResult) (env : Answers) : QuickFixManagerService :=
  match kind, method with
  | .quickFixManagerStatusCallback, .onPatchDeployed => s.onPatchDeployed id resultCode result env
  | .quickFixManagerStatusCallback, .onPatchSwitched => s.onPatchSwitched id resultCode env
  | .quickFixManagerStatusCallback, .onPatchDeleted => s.onPatchDeleted id resultCode
  | .revokeQuickFixTaskCallback, .onPatchSwitched => s.onPatchSwitched id resultCode env
  | .revokeQuickFixTaskCallback, .onPatchDeleted => s.onPatchDeleted id resultCode
  | .quickFixNotifyCallback, .onLoadPatchDone => s.onLoadPatchDone id resultCode
  | .quickFixNotifyCallback, .onUnloadPatchDone => s.onUnloadPatchDone id resultCode env
  | .quickFixNotifyCallback, .onReloadPageDone => s.onReloadPageDone id resultCode
  | .revokeQuickFixNotifyCallback, .onUnloadPatchDone => s.onUnloadPatchDone id resultCode env
  | _, _ => s

def handleProcessDied : QuickFixManagerService :=
  if env.isRunning then s
  else
    match (s.task id).taskType with
    | .quickFixApply => s.handlePatchDeployed id env.isRunningAgain env.hasApplied env.ret
    | .quickFixRevoke => s.postRevokeQuickFixProcessDiedTask id env.ret

def onProcessDied : QuickFixManagerService :=
  (s.handleProcessDied id env).unregAppStateObserver id env.unregisterRet

def addApplyTask (t : QuickFixManagerApplyTask) : QuickFixManagerService :=
  { s with tasks := s.tasks ++ [t], applyTasks := s.applyTasks ++ [s.tasks.length] }

def run : QuickFixManagerService :=
  (s.modifyTask id fun t => { t with taskType := .quickFixApply }).postDeployQuickFixTask id

def postRevokeQuickFixTask : QuickFixManagerService :=
  (s.postTask id .revokeTask 0).postTimeOutTask id

def runRevoke : QuickFixManagerService :=
  (s.modifyTask id fun t => { t with taskType := .quickFixRevoke }).postRevokeQuickFixTask id

def applyQuickFix : QuickFixManagerService :=
  (s.addApplyTask {}).run s.tasks.length

def checkTaskRunningState (bundleName : String) : Bool :=
  s.applyTasks.any fun id => (s.task id).bundleName = bundleName

def revokeQuickFix (bundleName : String)
    (patchExists isSoContained : Bool) : QuickFixManagerService :=
  if s.checkTaskRunningState bundleName then s
  else if !patchExists then s
  else
    (s.addApplyTask { bundleName := bundleName, isSoContained := isSoContained }).runRevoke
      s.tasks.length

/-- A posted request has its callback with it, and a callback the task; a timeout and the
first stage of a revoke task have not. A task that was registered as an observer holds
the observer, which holds the task. -/
def isAlive : Bool :=
  s.applyTasks.contains id ||
    s.events.any (fun e => e.applyTask = id &&
      e.posted ≠ .revokeTask && e.posted ≠ .timeoutTask) ||
    s.callbacks.any (fun c => c.applyTask = id && c.held) ||
    (s.task id).appStateCallback.isSome

def handleEvent (e : QueuedEvent) (env : Answers) : QuickFixManagerService :=
  match e.posted with
  | .request asked => s.runRequest e.applyTask asked env.ret
  | .revokeTask => if s.isAlive e.applyTask then s.runRevokeTask e.applyTask env else s
  | .timeoutTask =>
    if s.isAlive e.applyTask then s.notifyAndRemove e.applyTask .processTimeout else s

def runEvent : QuickFixManagerService :=
  match s.events with
  | [] => s
  | e :: events => if e.handleTime ≤ s.now then { s with events := events }.handleEvent e env else s

def answer (callback : ℕ) (id : ℕ) (method : CallbackMethod)
    (resultCode : ℤ) : QuickFixManagerService :=
  { s with
    callbacks := s.callbacks.modify callback fun c => { c with answered := true }
    log := if resultCode = 0 then s.log ++ [.succeeded id method] else s.log }

def invoke (callback : ℕ) (method : CallbackMethod) (resultCode : ℤ)
    (result : Option QuickFixResult) (env : Answers) : QuickFixManagerService :=
  match s.callbacks[callback]? with
  | none => s
  | some c =>
    if !c.held then s
    else
      (s.answer callback c.applyTask method resultCode).call c.applyTask c.kind method resultCode
        result env

def step : QuickFixOp → QuickFixManagerService
  | .applyQuickFix => s.applyQuickFix
  | .revokeQuickFix bundleName patchExists isSoContained =>
    s.revokeQuickFix bundleName patchExists isSoContained
  | .runEvent env => s.runEvent env
  | .elapse millis => { s with now := s.now + millis }
  | .callback callback method resultCode result env =>
    s.invoke callback method resultCode result env
  | .release callback =>
    { s with callbacks := s.callbacks.modify callback fun c => { c with held := false } }
  | .processDied observer env =>
    match s.observers[observer]? with
    | none => s
    | some o => s.onProcessDied o.applyTask env

end QuickFixManagerService
end AbilityRuntime.QuickFix
