import Mathlib.Data.String.Basic
import AbilityRuntime.Library.Runs
import AbilityRuntime.Library.SortedMap

/-! Installing abilities on demand. A request is put into the list of installs and may wait for its
promise; requests of other devices leave a callback besides. Calls go on step by step, as the lists
are locked for single steps only, and are known by their places in the list of all calls. The last
part is about `timeStampMap_`, which limits the checks for upgrades. -/

namespace AbilityRuntime.FreeInstall

def notTopAbility : ℤ := 0x500001
def freeInstallTimeout : ℤ := 29360300
def getAbilityServiceFailed : ℤ := 2097153
def concurrentTasksWaitingForRetry : ℤ := -6

structure TaskKey where
  bundleName : String
  abilityName : String
  startTime : String
  deriving DecidableEq

structure Want where
  bundleName : String
  abilityName : String
  startTime : String
  uri : String := ""
  sessionId : String := ""
  isInsightIntentExecute : Bool := false
  deriving DecidableEq

def Want.task (w : Want) : TaskKey := ⟨w.bundleName, w.abilityName, w.startTime⟩

/-- An entry of the lists, with the call that it was made by. Of the caller's token only
the record's id is used, which is -1 without one. -/
structure FreeInstallInfo where
  request : ℕ
  want : Want
  requestCode : ℤ := -1
  recordId : ℤ := -1
  promise : Bool := false
  isPreStartMissionCalled : Bool := false
  isStartUIAbilityBySCBCalled : Bool := false
  isOpenAtomicServiceShortUrl : Bool := false
  originalWant : Option Want := none
  deriving DecidableEq

inductive CallKind
  | startFreeInstall (isAsync : Bool)
  | remoteFreeInstall
  | freeInstallAbilityFromRemote
  deriving DecidableEq

def CallKind.isAsync : CallKind → Bool
  | .startFreeInstall isAsync => isAsync
  | .remoteFreeInstall | .freeInstallAbilityFromRemote => false

/-- How far a call is: before its entry is added, with the entry added, waiting for the
promise, with the waiting given up, and back. -/
inductive Stage
  | entered | added | waiting | timedOut
  | returned (code : ℤ)
  deriving DecidableEq

structure Request where
  kind : CallKind
  want : Want
  requestCode : ℤ := -1
  recordId : ℤ := -1
  isOpenAtomicServiceShortUrl : Bool := false
  originalWant : Option Want := none

/-- A call, with the values its promise was set to and whether the callback of another
device was told that the call had failed. -/
structure Call extends Request where
  stage : Stage := .entered
  promised : List ℤ := []
  reported : Bool := false

/-- What is told to the others. A callback of the distributed scheduler is told with its
entry; `of` is the want of the install whose result it is. -/
inductive Told
  | freeInstallDone (callback : FreeInstallInfo) (of : Want) (resultCode : ℤ)
  | installFinished (recordId : ℤ) (task : TaskKey) (resultCode : ℤ)
  | installFinishedByUrl (recordId : ℤ) (startTime url : String) (resultCode : ℤ)
  | atomicServiceException (sessionId : String) (resultCode : ℤ) (reason : String)
  | insightIntentFailed (want : Want)
  deriving DecidableEq

structure FreeInstallManager where
  freeInstallList : List FreeInstallInfo
  dmsFreeInstallCbs : List FreeInstallInfo
  calls : List Call
  told : List Told

/-- What the other services answer while a result is handed on: whether the message for a
callback can be written, what comes of looking up the ability to launch and of starting
it, and the source entry of an intent. The value of `ERR_INVALID_VALUE` is theirs too. -/
structure Answers where
  writes : FreeInstallInfo → Bool := fun _ => true
  updateElementName : FreeInstallInfo → ℤ := fun _ => 0
  start : FreeInstallInfo → ℤ := fun _ => 0
  srcEntry : FreeInstallInfo → String := fun _ => ""
  errInvalidValue : ℤ := 22

namespace FreeInstallManager

def init : FreeInstallManager := ⟨[], [], [], []⟩

variable (s : FreeInstallManager) (task : TaskKey) (want : Want) (call : ℕ) (c : Call)
  (recordId : ℤ) (info : FreeInstallInfo) (resultCode : ℤ) (isAsync : Bool) (env : Answers)

def tell (t : Told) : FreeInstallManager :=
  { s with told := s.told ++ [t] }

def setStage (stage : Stage) : FreeInstallManager :=
  { s with calls := s.calls.modify call fun c => { c with stage := stage } }

def setValue (value : ℤ) : FreeInstallManager :=
  { s with calls := s.calls.modify call fun c => { c with promised := c.promised ++ [value] } }

def removeFreeInstallInfo : FreeInstallManager :=
  { s with freeInstallList := s.freeInstallList.filter (·.want.task ≠ task) }

/-- Those that are told, and those that are left. The loop ends at the first message that
cannot be written. -/
def splitDmsCallbacks (want : Want) (writes : FreeInstallInfo → Bool) :
    List FreeInstallInfo → List FreeInstallInfo × List FreeInstallInfo
  | [] => ([], [])
  | it :: rest =>
    if want.abilityName = it.want.abilityName then
      if writes it then
        let (told, left) := splitDmsCallbacks want writes rest
        (it :: told, left)
      else ([], it :: rest)
    else
      let (told, left) := splitDmsCallbacks want writes rest
      (told, it :: left)

def notifyDmsCallback : FreeInstallManager :=
  let (told, left) := splitDmsCallbacks want env.writes s.dmsFreeInstallCbs
  { s with
    dmsFreeInstallCbs := left
    told := s.told ++ told.map fun it => .freeInstallDone it want resultCode }

def startResult : ℤ :=
  let result := if info.want.abilityName = "" then env.updateElementName info else 0
  if result = 0 then env.start info else result

def startAbilityByFreeInstall : FreeInstallManager :=
  s.tell (.installFinished info.recordId info.want.task (startResult info env))

def startAbilityByPreInstall : FreeInstallManager :=
  let result := startResult info env
  let s :=
    if result ≠ 0 ∧ info.isStartUIAbilityBySCBCalled then
      s.tell (.atomicServiceException info.want.sessionId result "start ability failed")
    else s
  s.tell (.installFinished recordId info.want.task result)

def startAbilityByConvertedWant : FreeInstallManager :=
  s.tell (.installFinishedByUrl info.recordId info.want.startTime info.want.uri
    (startResult info env))

def startAbilityByOriginalWant : FreeInstallManager :=
  let result := if info.originalWant.isSome then env.start info else env.errInvalidValue
  s.tell (.installFinishedByUrl info.recordId info.want.startTime info.want.uri result)

def handleOnFreeInstallSuccess : FreeInstallManager :=
  if isAsync then
    if info.isPreStartMissionCalled then s.startAbilityByPreInstall recordId info env
    else if info.isOpenAtomicServiceShortUrl then s.startAbilityByConvertedWant info env
    else s.startAbilityByFreeInstall info env
  else s.setValue info.request 0

def handleOnFreeInstallFail : FreeInstallManager :=
  if isAsync then
    let s :=
      if info.isPreStartMissionCalled ∧ info.want.sessionId ≠ "" ∧
          info.isStartUIAbilityBySCBCalled then
        s.tell (.atomicServiceException info.want.sessionId resultCode "free install failed")
      else s
    if info.isOpenAtomicServiceShortUrl ∧ resultCode ≠ concurrentTasksWaitingForRetry then
      s.startAbilityByOriginalWant info env
    else s.tell (.installFinished recordId info.want.task resultCode)
  else s.setValue info.request resultCode

def handleFreeInstallResult : FreeInstallManager :=
  if resultCode = 0 then s.handleOnFreeInstallSuccess recordId info isAsync env
  else s.handleOnFreeInstallFail recordId info resultCode isAsync env

def isNotified (info : FreeInstallInfo) : Bool :=
  want.task = info.want.task && want.uri = info.want.uri && (isAsync || info.promise)

/-- What is done for an entry does not read the list, so it is erased afterwards. -/
def notifyFreeInstallResult (want : Want) (resultCode : ℤ)
    (isAsync : Bool) (env : Answers) : FreeInstallManager :=
  let notified := s.freeInstallList.filter (isNotified want isAsync)
  let s := { s with freeInstallList := s.freeInstallList.filter (!isNotified want isAsync ·) }
  notified.foldl (fun s info => s.handleFreeInstallResult recordId info resultCode isAsync env) s

def handleInsightIntent (info : FreeInstallInfo) : FreeInstallManager :=
  if env.srcEntry info = "" then s.tell (.insightIntentFailed want)
  else s.startAbilityByFreeInstall info env

def notifyInsightIntentFreeInstallResult : FreeInstallManager :=
  if resultCode ≠ 0 then (s.removeFreeInstallInfo want.task).tell (.insightIntentFailed want)
  else
    let notified := s.freeInstallList.filter (want.task = ·.want.task)
    let s := { s with freeInstallList := s.freeInstallList.filter (want.task ≠ ·.want.task) }
    notified.foldl (fun s info => s.handleInsightIntent want env info) s

def onInstallFinished (recordId resultCode : ℤ) (want : Want)
    (isAsync : Bool) (env : Answers) : FreeInstallManager :=
  if want.isInsightIntentExecute then s.notifyInsightIntentFreeInstallResult want resultCode env
  else
    (s.notifyDmsCallback want resultCode env).notifyFreeInstallResult recordId want resultCode
      isAsync env

def onRemoteInstallFinished (recordId resultCode : ℤ) (want : Want)
    (env : Answers) : FreeInstallManager :=
  s.notifyFreeInstallResult recordId want resultCode false env

def enter (r : Request) : FreeInstallManager :=
  let s' := { s with calls := s.calls ++ [{ toRequest := r }] }
  if r.kind = .freeInstallAbilityFromRemote then
    { s' with
      dmsFreeInstallCbs := s.dmsFreeInstallCbs ++
        [{ request := s.calls.length, want := r.want, requestCode := r.requestCode }] }
  else s'

def buildFreeInstallInfo : FreeInstallInfo where
  request := call
  want := c.want
  requestCode := c.requestCode
  recordId := c.recordId
  promise := !c.kind.isAsync
  isOpenAtomicServiceShortUrl := c.isOpenAtomicServiceShortUrl
  originalWant := c.originalWant

def addFreeInstallInfo (isPermitted : Bool) : FreeInstallManager :=
  if !isPermitted then s.setStage call (.returned notTopAbility)
  else
    { s with freeInstallList := s.freeInstallList ++ [buildFreeInstallInfo call c] }.setStage call
      .added

/-- The install is asked for. Without the bundle manager, when the running state cannot
be set or when the other device refuses, the call is back with what it has added. -/
def ask (hasBundleMgr : Bool) (result : ℤ) : FreeInstallManager :=
  match c.kind with
  | .remoteFreeInstall =>
    if result ≠ 0 then s.setStage call (.returned result) else s.setStage call .waiting
  | .startFreeInstall _ | .freeInstallAbilityFromRemote =>
    if !hasBundleMgr then s.setStage call (.returned getAbilityServiceFailed)
    else if result ≠ 0 then s.setStage call (.returned result)
    else if c.kind.isAsync then s.setStage call (.returned 0)
    else s.setStage call .waiting

def timeOut : FreeInstallManager :=
  if c.promised = [] then
    if c.kind = .remoteFreeInstall then s.setStage call (.returned freeInstallTimeout)
    else s.setStage call .timedOut
  else s

def removeTimedOut : FreeInstallManager :=
  (s.removeFreeInstallInfo c.want.task).setStage call (.returned freeInstallTimeout)

def takePromise : FreeInstallManager :=
  match c.promised with
  | [] => s
  | value :: _ => s.setStage call (.returned value)

def reportBack (code : ℤ) (env : Answers) : FreeInstallManager :=
  if c.kind = .freeInstallAbilityFromRemote ∧ code ≠ 0 ∧ c.reported = false then
    { s.notifyDmsCallback c.want code env with
      calls := s.calls.modify call fun c => { c with reported := true } }
  else s

def modifyTask (f : FreeInstallInfo → FreeInstallInfo) : FreeInstallManager :=
  { s with
    freeInstallList :=
      s.freeInstallList.modify (s.freeInstallList.findIdx (·.want.task = task)) f }

def setSCBCallStatus (scbCallStatus : Bool) : FreeInstallManager :=
  s.modifyTask task fun info => { info with isStartUIAbilityBySCBCalled := scbCallStatus }

def setPreStartMissionCallStatus (preStartMissionCallStatus : Bool) : FreeInstallManager :=
  s.modifyTask task fun info => { info with isPreStartMissionCalled := preStartMissionCallStatus }

def setFreeInstallTaskSessionId (sessionId : String) : FreeInstallManager :=
  s.modifyTask task fun info => { info with want := { info.want with sessionId := sessionId } }

inductive FreeInstallOp
  | enter (r : Request)
  | add (call : ℕ) (isPermitted : Bool)
  | ask (call : ℕ) (hasBundleMgr : Bool) (result : ℤ)
  | timeOut (call : ℕ)
  | removeTimedOut (call : ℕ)
  | takePromise (call : ℕ)
  | reportBack (call : ℕ) (env : Answers)
  | onInstallFinished (recordId resultCode : ℤ) (want : Want) (isAsync : Bool) (env : Answers)
  | onRemoteInstallFinished (recordId resultCode : ℤ) (want : Want) (env : Answers)
  | setSCBCallStatus (task : TaskKey) (scbCallStatus : Bool)
  | setPreStartMissionCallStatus (task : TaskKey) (preStartMissionCallStatus : Bool)
  | setFreeInstallTaskSessionId (task : TaskKey) (sessionId : String)

def proceed (go : Call → FreeInstallManager) (stage : Stage) : FreeInstallManager :=
  match s.calls[call]? with
  | none => s
  | some c => if c.stage = stage then go c else s

def step : FreeInstallOp → FreeInstallManager
  | .enter r => s.enter r
  | .add call isPermitted => s.proceed call (s.addFreeInstallInfo call · isPermitted) .entered
  | .ask call hasBundleMgr result => s.proceed call (s.ask call · hasBundleMgr result) .added
  | .timeOut call => s.proceed call (s.timeOut call) .waiting
  | .removeTimedOut call => s.proceed call (s.removeTimedOut call) .timedOut
  | .takePromise call => s.proceed call (s.takePromise call) .waiting
  | .reportBack call env =>
    match s.calls[call]? with
    | none => s
    | some c =>
      match c.stage with
      | .returned code => s.reportBack call c code env
      | _ => s
  | .onInstallFinished recordId resultCode want isAsync env =>
    s.onInstallFinished recordId resultCode want isAsync env
  | .onRemoteInstallFinished recordId resultCode want env =>
    s.onRemoteInstallFinished recordId resultCode want env
  | .setSCBCallStatus task scbCallStatus => s.setSCBCallStatus task scbCallStatus
  | .setPreStartMissionCallStatus task preStartMissionCallStatus =>
    s.setPreStartMissionCallStatus task preStartMissionCallStatus
  | .setFreeInstallTaskSessionId task sessionId => s.setFreeInstallTaskSessionId task sessionId

end FreeInstallManager

def updateAtomoicServiceTaskTimer : ℤ := 24 * 60 * 60 * 1000

structure Finished where
  bundleName : String
  moduleName : String
  userId : ℤ := 100
  timeStamp : ℤ
  deriving DecidableEq

namespace Finished
variable (i : Finished)

def module : String × String := (i.bundleName, i.moduleName)

def nameKey : String := i.bundleName ++ i.moduleName

def isAfter (stamp : ℤ) : Bool := updateAtomoicServiceTaskTimer < i.timeStamp - stamp

end Finished

structure UpgradeChecks where
  timeStampMap : SortedMap String ℤ := SortedMap.empty
  upgraded : List Finished := []

namespace UpgradeChecks
variable (s : UpgradeChecks) (i : Finished)

def postUpgradeAtomicServiceTask (resultCode : ℤ) : UpgradeChecks :=
  if resultCode ≠ 0 then s
  else if (s.timeStampMap.find? i.nameKey).all i.isAfter then
    ⟨s.timeStampMap.emplace i.nameKey i.timeStamp, s.upgraded ++ [i]⟩
  else s

def install : UpgradeChecks := s.postUpgradeAtomicServiceTask i 0

def Limited : Prop :=
  (s.install i).upgraded = s.upgraded ++ [i] ↔
    ∀ c ∈ s.upgraded, c.module = i.module → i.isAfter c.timeStamp
  deriving Decidable

def Apart : Prop :=
  ∀ c ∈ s.upgraded, (c.nameKey = i.nameKey → c.module = i.module) ∧ (c.module = i.module →
    s.upgraded.find? (·.nameKey = i.nameKey) = some c ∨ i.isAfter c.timeStamp)
  deriving Decidable

def Stamped : Prop :=
  ∀ k, s.timeStampMap.find? k = (s.upgraded.find? (·.nameKey = k)).map (·.timeStamp)

variable {s i}

lemma Stamped.install (h : Stamped s) : Stamped (s.install i) := by
  rw [UpgradeChecks.install, postUpgradeAtomicServiceTask, if_neg (not_not.mpr rfl)]
  split_ifs
  · intro k
    rw [SortedMap.find?_emplace, List.find?_append]
    by_cases hk : i.nameKey = k
    · subst hk
      rw [h]
      cases s.upgraded.find? (·.nameKey = i.nameKey) <;> simp
    · simp [hk, h k]
  · exact h

lemma Stamped.upgraded_iff (h : Stamped s) : (s.install i).upgraded = s.upgraded ++ [i] ↔
      ∀ c, s.upgraded.find? (·.nameKey = i.nameKey) = some c → i.isAfter c.timeStamp := by
  rw [UpgradeChecks.install, postUpgradeAtomicServiceTask, h]
  cases s.upgraded.find? (·.nameKey = i.nameKey) with
  | none => simp
  | some c => by_cases hc : i.isAfter c.timeStamp <;> simp [hc]

lemma Stamped.limited (h : Stamped s) (hapart : Apart s i) : Limited s i := by
  rw [Limited, h.upgraded_iff]
  constructor
  · intro hstamp c hc hmodule
    rcases (hapart c hc).2 hmodule with hfirst | hafter
    · exact hstamp c hfirst
    · exact hafter
  · intro hall c hfirst
    have hc := List.mem_of_find?_eq_some hfirst
    have hkey : c.nameKey = i.nameKey := by simpa using List.find?_some hfirst
    exact hall c hc ((hapart c hc).1 hkey)

theorem limited_of_apart {installs : List Finished}
    (h : Runs.Guarded install Apart {} installs) : Runs.Guarded install Limited {} installs :=
  h.imp (I := Stamped) (fun _ _ hs => hs.install) (fun _ _ hs => hs.limited) fun _ => rfl

theorem daily_limited :
    Runs.Guarded install Limited {} [⟨"a", "m", 100, 0⟩, ⟨"a", "m", 100, 86400001⟩] :=
  limited_of_apart (by decide)

theorem not_limited : ¬ Runs.Guarded install Limited {}
      [⟨"a", "m", 100, 0⟩, ⟨"a", "m", 100, 86400001⟩, ⟨"a", "m", 100, 86400002⟩] ∧
    ¬ Runs.Guarded install Limited {} [⟨"ab", "c", 100, 0⟩, ⟨"a", "bc", 100, 1⟩] := by
  decide

end UpgradeChecks

end AbilityRuntime.FreeInstall
