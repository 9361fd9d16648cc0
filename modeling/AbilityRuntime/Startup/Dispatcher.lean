import AbilityRuntime.Startup.TopologySort

/-! `StartupTaskDispatcher` as a machine. Calls into outside code are frames of an explicit call
stack; while such a frame is on top, and between events, the callbacks that tasks still hold may be
called. The log is kept newest event first. -/

namespace AbilityRuntime.Startup

namespace StartupTask

inductive State where
  | invalid | created | initializing | initialized
deriving DecidableEq

end StartupTask

/-- A shared result: its code never changes, its message stands in a cell that the holders share. -/
structure ResultPtr where
  resultCode : Int32
  cell : ℕ
deriving DecidableEq

/-- The functions that stand on the stacks of task callbacks: the dispatcher's own, the one that a
task adds in `RunTaskInit`, and those of other runs. -/
inductive CallbackFunc where
  | dispatch (name : String)
  | saveResult (name : String)
  | other
deriving DecidableEq

/-- `StartupTaskResultCallback`, with the top of its stack first. -/
abbrev StartupTaskResultCallback := List CallbackFunc

structure TaskObject where
  state : StartupTask.State
  result : Option ResultPtr
  extraCallbacks : List StartupTaskResultCallback

namespace TaskObject

def saveResult (result : Option ResultPtr) (o : TaskObject) : TaskObject :=
  match result with
  | none => o
  | some r => { o with result, state := if r.resultCode = errOk then .initialized else .created }

def removeResult (o : TaskObject) : Int32 × TaskObject :=
  if o.state ≠ .initialized then (errStartupInternalError, o)
  else (errOk, { o with result := none, state := .created })

def addExtraCallback (callback : StartupTaskResultCallback) (o : TaskObject) : Int32 × TaskObject :=
  if o.state ≠ .initializing then (errStartupInternalError, o)
  else (errOk, { o with extraCallbacks := o.extraCallbacks ++ [callback] })

def initializing (o : TaskObject) : TaskObject := { o with state := .initializing }

def clearExtraCallbacks (o : TaskObject) : TaskObject := { o with extraCallbacks := [] }

end TaskObject

structure OnCompletedCallback where
  hasFunc : Bool
  isCalled : Bool

inductive Completion where
  | completed | mainThreadAwait
deriving DecidableEq

inductive Event where
  | started (name : String)
  | dispatched (name : String) (resultCode : Option Int32)
  | ran (callback : Completion) (resultCode : Int32)
deriving DecidableEq

inductive Frame where
  /-- `Run` with the names of `zeroDequeResult_` that are left. -/
  | run (names : List String)
  /-- `AbilityTransactionCallbackInfo::Call` with the functions that are left. -/
  | call (funcs : List CallbackFunc) (result : Option ResultPtr)
  /-- `CallExtraCallback` of the task `name` with the callbacks that are left. -/
  | callExtra (name : String) (callbacks : List StartupTaskResultCallback)
      (result : Option ResultPtr)
  /-- The first loop of `NotifyChildren`. -/
  | notify (name : String) (result : ResultPtr) (children : List String)
      (zeroInDegree : List StartupTask)
  /-- The same, where `child` has been told and its in-degree is lowered next. -/
  | lower (name : String) (result : ResultPtr) (child : String) (task : StartupTask)
      (children : List String)
      (zeroInDegree : List StartupTask)
  /-- The second loop of `NotifyChildren`. -/
  | start (name : String) (result : ResultPtr) (zeroInDegree : List StartupTask)
  /-- `Dispatch` before it lowers `tasksCount_`. -/
  | finish (name : String) (result : ResultPtr)
  /-- `OnError` before it posts the call of `mainThreadAwaitCallback_`. -/
  | post (result : ResultPtr)
  | taskInit
  | onDependencyCompleted
  | func (callback : Completion)
deriving DecidableEq

structure RunState where
  objects : String → TaskObject
  held : List StartupTaskResultCallback
  inDegreeMap : SortedMap String UInt32
  mainThreadAwaitCount : UInt32
  tasksCount : UInt32
  callback : Completion → Option OnCompletedCallback
  stack : List Frame
  posted : List ResultPtr
  messages : List String
  released : Bool
  returned : Option Int32
  log : List Event
  underflow : Bool

namespace RunState

variable (s : RunState)

def setObject (name : String) (f : TaskObject → TaskObject) : RunState :=
  { s with objects := Function.update s.objects name (f (s.objects name)) }

@[simp] lemma setObject_self (name : String) (f : TaskObject → TaskObject) :
    (s.setObject name f).objects name = f (s.objects name) := Function.update_self _ _ _

lemma setObject_of_ne {name n : String} (f : TaskObject → TaskObject)
    (h : n ≠ name) : (s.setObject name f).objects n = s.objects n := Function.update_of_ne h _ _

/-- `OnCompletedCallback::Call` up to its function; `isCalled_` is set after the function
returned. -/
def callOnCompleted (which : Completion) (result : ResultPtr) : RunState :=
  match s.callback which with
  | none => s
  | some callback =>
    if callback.isCalled || !callback.hasFunc then s
    else { s with stack := .func which :: s.stack, log := .ran which result.resultCode :: s.log }

def reportError (result : ResultPtr) : RunState :=
  callOnCompleted { s with stack := .post result :: s.stack } .completed result

def onErrorResult (name : String) (result : ResultPtr) : RunState :=
  reportError { s with
    messages := s.messages.modify result.cell fun message => name ++ ": " ++ message } result

def onErrorCode (errorCode : Int32) (errorMessage : String) : RunState :=
  reportError { s with messages := s.messages ++ [errorMessage] } ⟨errorCode, s.messages.length⟩

/-- An error code of `RunTaskInit` ends the loop that called it. -/
def fail (code : Int32) : RunState :=
  match s.stack with
  | .run _ :: stack => { s with stack, returned := some code }
  | .start _ _ _ :: stack => { s with stack }
  | _ => s

end RunState

namespace StartupTaskDispatcher
open RunState

variable (d : StartupTaskDispatcher) (s : RunState) (name : String) (result : ResultPtr)

def notifyChildren : RunState :=
  match d.sortResult with
  | none => onErrorCode s errStartupInternalError (name ++ ": sort result is null")
  | some sortResult =>
    match sortResult.startupChildrenMap.find? name with
    | none => onErrorCode s errStartupInternalError (name ++ " is not found")
    | some children => { s with stack := .notify name result children [] :: s.stack }

def dispatch (result : Option ResultPtr) : RunState :=
  let s := { s with log := .dispatched name (result.map ResultPtr.resultCode) :: s.log }
  match result with
  | none => onErrorCode s errStartupInternalError (name ++ ": result is null")
  | some result =>
    if result.resultCode ≠ errOk then onErrorResult s name result
    else
      match d.tasks.find? name with
      | some (some _) => notifyChildren d s name result
      | _ => onErrorCode s errStartupInternalError (name ++ " not found")

/-- One round of the first loop of `NotifyChildren`, up to the call of the child. -/
def notifyChild
    (child : String) (children : List String) (zeroInDegree : List StartupTask) : RunState :=
  if !s.inDegreeMap.contains child then
    onErrorCode s errStartupInternalError (child ++ "is not found in inDegreeMap_.")
  else
    match d.tasks.find? child with
    | none => onErrorCode s errStartupInternalError (child ++ "is not found in tasks_.")
    | some none => onErrorCode s errStartupInternalError (child ++ " task is null.")
    | some (some task) => { s with
        stack := .onDependencyCompleted :: .lower name result child task children zeroInDegree ::
          s.stack }

def lowerInDegree (child : String)
    (task : StartupTask) (children : List String) (zeroInDegree : List StartupTask) : RunState :=
  let inDegree := (s.inDegreeMap.find? child).getD 0
  { s with
    inDegreeMap := s.inDegreeMap.modify child (· - 1)
    underflow := s.underflow || inDegree == 0
    stack := .notify name result children
      (if inDegree - 1 = 0 then zeroInDegree ++ [task] else zeroInDegree) :: s.stack }

/-- `JsStartupTask::RunTaskInit` up to the code that runs the task: the callback is kept to be
called now or later. -/
def taskRunTaskInit (task : StartupTask) (callback : StartupTaskResultCallback) : RunState :=
  { s.setObject task.name TaskObject.initializing with
    held := s.held ++ [.saveResult task.name :: callback]
    stack := .taskInit :: s.stack }

def runTaskInit (task : StartupTask) : RunState :=
  let s := { s with log := .started name :: s.log }
  let callback := [CallbackFunc.dispatch name]
  match (s.objects task.name).state with
  | .created => taskRunTaskInit s task callback
  | .initialized => { s with stack := .call callback (s.objects task.name).result :: s.stack }
  | .initializing => s.setObject task.name fun o => (o.addExtraCallback callback).2
  | .invalid => s.fail errStartupInternalError

def lowerAwaitCount : RunState :=
  let s := { s with stack := .finish name result :: s.stack }
  match d.tasks.find? name with
  | some (some task) =>
    if task.waitOnMainThread then
      let s := { s with
        mainThreadAwaitCount := s.mainThreadAwaitCount - 1
        underflow := s.underflow || s.mainThreadAwaitCount == 0 }
      if s.mainThreadAwaitCount = 0 then s.callOnCompleted .mainThreadAwait result else s
    else s
  | _ => s

def lowerTasksCount : RunState :=
  let s := { s with tasksCount := s.tasksCount - 1, underflow := s.underflow || s.tasksCount == 0 }
  if s.tasksCount = 0 then s.callOnCompleted .completed result else s

def callFunc (result : Option ResultPtr) : CallbackFunc → RunState
  | .dispatch name => if s.released then s else dispatch d s name result
  | .saveResult name =>
    let s := s.setObject name (TaskObject.saveResult result)
    { s with stack := .callExtra name (s.objects name).extraCallbacks result :: s.stack }
  | .other => s

def runNext : RunState :=
  match d.tasks.find? name with
  | some (some task) => runTaskInit s name task
  | _ => s.fail errStartupInternalError

/-- The next step of the code itself; a frame of outside code waits for an action of its own. -/
def advance : RunState :=
  match s.stack with
  | [] => s
  | .run [] :: stack => { s with stack, returned := some errOk }
  | .run (name :: names) :: stack => runNext d { s with stack := .run names :: stack } name
  | .call [] _ :: stack => { s with stack }
  | .call (func :: funcs) result :: stack => callFunc d
      { s with stack := .call funcs result :: stack } result func
  | .callExtra name [] _ :: stack => { s.setObject name TaskObject.clearExtraCallbacks with stack }
  | .callExtra name (callback :: callbacks) result :: stack =>
    { s with stack := .call callback result :: .callExtra name callbacks result :: stack }
  | .notify name result [] zeroInDegree :: stack =>
      { s with stack := .start name result zeroInDegree :: stack }
  | .notify name result (child :: children) zeroInDegree :: stack =>
    notifyChild d { s with stack } name result child children zeroInDegree
  | .lower name result child task children zeroInDegree :: stack =>
    lowerInDegree { s with stack } name result child task children zeroInDegree
  | .start name result [] :: stack => lowerAwaitCount d { s with stack } name result
  | .start name result (task :: tasks) :: stack =>
    runTaskInit { s with stack := .start name result tasks :: stack } task.name task
  | .finish _ result :: stack => lowerTasksCount { s with stack } result
  | .post result :: stack => { s with stack, posted := s.posted ++ [result] }
  | .taskInit :: _ | .onDependencyCompleted :: _ | .func _ :: _ => s

inductive Action where
  | advance
  /-- The outside code on top of the stack returns. -/
  | leave (code : Int32)
  /-- The holder of a callback calls it with a new result, or with null. -/
  | complete (index : ℕ) (result : Option (Int32 × String))
  | drop (index : ℕ)
  | runPosted
  /-- Another run reaches `RunTaskInit` for the task. -/
  | otherRun (name : String)
  | removeResult (name : String)
  /-- The last owner releases the dispatcher. -/
  | release

def outside : Bool :=
  match s.stack with
  | [] | .taskInit :: _ | .onDependencyCompleted :: _ | .func _ :: _ => true
  | _ => false

def leave (code : Int32) : RunState :=
  match s.stack with
  | .taskInit :: stack => if code = errOk then { s with stack } else fail { s with stack } code
  | .onDependencyCompleted :: stack => { s with stack }
  | .func which :: stack => { s with
      stack
      callback := Function.update s.callback which
        ((s.callback which).map fun callback => { callback with isCalled := true }) }
  | _ => s

def complete (index : ℕ) (result : Option (Int32 × String)) : RunState :=
  match s.held[index]? with
  | none => s
  | some callback => { s with
      held := s.held.eraseIdx index
      messages := s.messages ++ (result.map Prod.snd).toList
      stack := .call callback (result.map fun r => ⟨r.1, s.messages.length⟩) :: s.stack }

def otherRun : RunState :=
  match (s.objects name).state with
  | .created => { s.setObject name TaskObject.initializing with
      held := s.held ++ [[.saveResult name, .other]] }
  | .initializing => s.setObject name fun o => (o.addExtraCallback [.other]).2
  | _ => s

def runPosted : RunState :=
  match s.posted with
  | [] => s
  | result :: posted => callOnCompleted { s with posted } .mainThreadAwait result

/-- One step of the run; an action that is not possible in the state changes nothing. -/
def step : Action → RunState
  | .advance => advance d s
  | .leave code => leave s code
  | .complete index result => if outside s then complete s index result else s
  | .drop index => if outside s then { s with held := s.held.eraseIdx index } else s
  | .runPosted => if s.stack.isEmpty then runPosted s else s
  | .otherRun name => if outside s then otherRun s name else s
  | .removeResult name => if outside s then s.setObject name fun o => o.removeResult.2 else s
  | .release => { s with released := true }

/-- The tasks as a run finds them. None of their callbacks belongs to it, and a task has one
callback that saves its result while it is being initialized by another run. -/
structure World where
  objects : String → TaskObject
  held : List StartupTaskResultCallback
  messages : List String
  held_other : ∀ name, .dispatch name ∉ held.flatten
  extra_other : ∀ name, ∀ callback ∈ (objects name).extraCallbacks, ∀ func ∈ callback, func = .other
  saving : ∀ name, held.flatten.count (.saveResult name) ≤
    if (objects name).state = .initializing then 1 else 0

def countTasks (entries : List (String × Option StartupTask))
    (acc : SortedMap String UInt32 × UInt32) : Except Int32 (SortedMap String UInt32 × UInt32) :=
  entries.foldlM (fun acc iter =>
    match iter.2 with
    | none => .error errStartupInternalError
    | some task => .ok (acc.1.emplace iter.1 task.getDependenciesCount,
        if task.waitOnMainThread then acc.2 + 1 else acc.2)) acc

/-- `Run` up to its loop over `zeroDequeResult_`, called with `stack` on the call stack. -/
def runOn (d : StartupTaskDispatcher) (w : World)
    (callback : Completion → Option OnCompletedCallback) (stack : List Frame) : RunState :=
  let s : RunState := ⟨w.objects, w.held, .empty, 0, 0, callback, stack, [], w.messages, false,
    none, [], false⟩
  match d.sortResult with
  | none => { s with returned := some errStartupInternalError }
  | some sortResult =>
    match countTasks d.tasks.entries (.empty, 0) with
    | .error code => { s with returned := some code }
    | .ok (inDegreeMap, mainThreadAwaitCount) =>
      let s := { s with
        inDegreeMap
        mainThreadAwaitCount
        tasksCount := UInt32.ofNat d.tasks.size
        stack := .run sortResult.zeroDequeResult :: stack }
      if mainThreadAwaitCount = 0 then
        callOnCompleted { s with messages := s.messages ++ [""] } .mainThreadAwait
          ⟨errOk, s.messages.length⟩
      else s

def run (d : StartupTaskDispatcher) (w : World)
    (callback : Completion → Option OnCompletedCallback) : RunState := runOn d w callback []

end StartupTaskDispatcher
end AbilityRuntime.Startup
