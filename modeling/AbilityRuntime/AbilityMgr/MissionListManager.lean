import Mathlib.Algebra.Ring.Nat
import AbilityRuntime.AbilityMgr.MissionList

/-! The mission list manager, whose operations run under `managerLock_`. What other components
answer is an input of the operation; of what the manager tells others only the calls of
`StartSpecifiedAbility` are kept. -/

namespace AbilityRuntime

def singleMaxInstanceCount : ℕ := 128
def maxInstanceCount : ℕ := 512

def launcherBundleName : String := "com.ohos.launcher"
def launcherRecentAbilityName : String := "com.ohos.launcher.recents.MainAbility"

inductive ResultCode
  | ok
  | startAbilityWaiting
  | reachUpperLimit
  | invalidValue
  | invalidCaller
  | moveMissionFailed
  | getTargetMissionOver
  deriving DecidableEq

/-- The answers a start may need: the mission id of a reused or a generated mission info, if there
is one, the current time and the focused ability. -/
structure StartEnv where
  missionInfoId : Option ℤ
  currentTime : String
  focusAbility : Option MissionRef

structure FrontInfo where
  missionName : String
  unclearable : Bool
  request : AbilityRequest

def FrontInfo.mission (info : FrontInfo) (missionId : ℤ) : Mission :=
  { info.request.mission missionId with
    missionName := info.missionName, specifiedFlag := "", unclearable := info.unclearable }

structure MissionListManager where
  lists : MissionLists
  missions : MissionRef → Mission
  records : MissionRef → AbilityRecord
  terminateAbilityList : List MissionRef
  waitingAbilityQueue : List AbilityRequest
  /-- The calls of `AppScheduler::StartSpecifiedAbility` made so far, oldest first. -/
  specifiedCalls : List AbilityRequest

namespace MissionListManager

variable (s : MissionListManager) (l : ListRef) (bundleName : String) (uid : ℤ)
  (request : AbilityRequest) (env : StartEnv) (r : MissionRef)

def modify (f : AbilityRecord → AbilityRecord) : MissionListManager :=
  { s with records := Function.update s.records r (f (s.records r)) }

def searchedLists : List ListRef :=
  s.lists.currentMissionLists ++ [.defaultSingleList, .launcherList, .defaultStandardList]

variable (flag : Bool) (missionId : ℤ)

def getMissionById : Option MissionRef :=
  s.searchedLists.findSome? fun l =>
    (s.lists.missions l).find? fun m => (s.missions m).missionId = missionId

def countedLists : List ListRef :=
  s.lists.currentMissionLists ++ [.defaultStandardList, .defaultSingleList]

variable (token : Option MissionRef)

def getAliveAbilityRecordByToken : Option MissionRef :=
  token.filter fun r => s.countedLists.any fun l => r ∈ s.lists.missions l

def getAbilityRecordByTokenInner : Option MissionRef :=
  if token.any (· ∈ s.terminateAbilityList) then token else s.getAliveAbilityRecordByToken token

def getCurrentTopAbilityLocked : Option MissionRef :=
  s.lists.currentMissionLists.head?.bind s.lists.getTopMission

def getLauncherRoot : Option MissionRef :=
  (s.lists.missions .launcherList).find? fun m => (s.records m).isLauncherRoot

variable (missionName : String)

def getSingletonMissionByName (l : ListRef) : Option MissionRef :=
  if missionName = "" then none
  else (s.lists.missions l).find? fun m =>
    (s.missions m).launchMode = .singleton ∧ (s.missions m).missionName = missionName

def getSpecifiedMission (missionName flag : String) (l : ListRef) : Option MissionRef :=
  if missionName = "" ∨ flag = "" then none
  else (s.lists.missions l).find? fun m =>
    (s.missions m).launchMode = .specified ∧ (s.missions m).missionName = missionName ∧
      (s.missions m).specifiedFlag = flag

variable (best : Option MissionRef × String)

/-- One turn of the loop of `GetRecentStandardMission`. -/
def laterStandard (m : MissionRef) : Option MissionRef × String :=
  if (s.missions m).launchMode = .standard ∧ (s.missions m).missionName = missionName ∧
      best.2 ≤ (s.records m).missionTime then
    (some m, (s.records m).missionTime)
  else best

def getRecentStandardMission (l : ListRef) : Option MissionRef :=
  if missionName = "" then none
  else ((s.lists.missions l).foldl (s.laterStandard missionName) (none, "0")).1

def getMissionBySpecifiedFlag (bundleName abilityName flag : String) : Option MissionRef :=
  s.searchedLists.findSome? fun l =>
    (s.lists.missions l).find? fun m =>
      (s.missions m).bundleName = bundleName ∧ (s.missions m).abilityName = abilityName ∧
        (s.missions m).specifiedFlag = flag

def launcherFirst : List ListRef :=
  if request.isLauncherApp then [.launcherList] else []

def getReusedSpecifiedMission : Option MissionRef :=
  (launcherFirst request ++ s.lists.currentMissionLists ++
    [ListRef.defaultStandardList]).findSome?
      (s.getSpecifiedMission request.getMissionName request.specifiedFlag)

/-- One turn of the loop over the lists in `GetReusedStandardMission`. -/
def laterReused (l : ListRef) : Option MissionRef × String :=
  match s.getRecentStandardMission missionName l with
  | some m =>
    if best.2 ≤ (s.records m).missionTime then (some m, (s.records m).missionTime) else best
  | none => best

def getReusedStandardMission : Option MissionRef :=
  if !request.startRecent then none
  else
    match (launcherFirst request).findSome? (s.getRecentStandardMission request.getMissionName) with
    | some m => some m
    | none =>
      ((s.lists.currentMissionLists ++ [ListRef.defaultStandardList]).foldl
        (s.laterReused request.getMissionName) (none, "0")).1

def getReusedMission : Option MissionRef :=
  match request.launchMode with
  | .specified => s.getReusedSpecifiedMission request
  | .standard => s.getReusedStandardMission request
  | .singleton =>
    (launcherFirst request ++ s.lists.currentMissionLists ++
      [ListRef.defaultSingleList]).findSome?
        (s.getSingletonMissionByName request.getMissionName)

def getMissionCount : ℕ :=
  (s.countedLists.map fun l => (s.lists.missions l).length).sum

def getMissionCountByUid (l : ListRef) : ℕ :=
  (s.lists.missions l).countP fun m => (s.missions m).uid = uid

def isReachToLimitLocked : Bool := maxInstanceCount ≤ s.getMissionCount

def isReachToSingleLimitLocked : Bool :=
  singleMaxInstanceCount ≤ (s.countedLists.map (s.getMissionCountByUid uid)).sum

def checkSingleLimit : Bool :=
  (s.getReusedMission request).isNone && s.isReachToSingleLimitLocked request.uid

def earlier (target : Option MissionRef) (m : MissionRef) : Option MissionRef :=
  if (s.records m).currentState ≠ .background ∨
      target.any fun t => (s.records t).missionTime < (s.records m).missionTime then target
  else some m

def findEarliestMission : Option MissionRef :=
  (s.countedLists.flatMap s.lists.missions).foldl s.earlier none

/-- The ability to bring to front when `r` leaves the front of list `l`, and the record of `r` with
its mark of another mission stack used up. -/
def needTopAbility : Option MissionRef × MissionListManager :=
  match s.lists.getTopMission l with
  | some top => (some top, s)
  | none =>
    if (s.records r).needBackToOtherMissionStack then
      match (s.records r).otherMissionStackAbilityRecord with
      | some other =>
        (some other, s.modify r fun a => { a with needBackToOtherMissionStack := false })
      | none => (none, s)
    else (none, s)

def isRecent (m : MissionRef) : Bool :=
  (s.missions m).bundleName = launcherBundleName ∧
    (s.missions m).abilityName = launcherRecentAbilityName

/-- `SetNextAbilityRecord` for an active ability `r` that has left list `l`. -/
def setNextAbility : MissionListManager :=
  match s.needTopAbility l r with
  | (none, s) => s
  | (some top, s) =>
    match if s.isRecent top then s.getLauncherRoot else some top with
    | none => s
    | some top =>
      if !(s.records top).isForeground && !(s.records top).minimizeReason &&
          (s.records top).isReady then
        s.modify r fun a => { a with nextAbilityRecord := some top }
      else s

def removeTerminatingAbility : MissionListManager :=
  if r ∈ s.terminateAbilityList then s.modify r fun a => { a with nextAbilityRecord := none }
  else
    match s.getMissionById (s.missions r).missionId with
    | none => s
    | some mission =>
      match s.lists.getMissionList mission with
      | none => s
      | some l =>
        let s := { s with
          lists := s.lists.withdraw l r
          terminateAbilityList := s.terminateAbilityList ++ [r] }
        let s := s.modify r fun a => { a with nextAbilityRecord := none }
        if (s.records r).isForeground && flag then s.setNextAbility l r else s

/-- `ProcessForegroundAbility` of an ability that follows another one to the front. -/
def foregroundNext (a : AbilityRecord) : AbilityRecord :=
  if a.currentState = .foreground then { a with currentState := .foregrounding } else a

def terminateAbilityLocked : MissionListManager :=
  let s := s.removeTerminatingAbility r flag
  if (s.records r).isForeground then
    let s := s.modify r fun a => { a with pendingState := .background }
    match (s.records r).nextAbilityRecord with
    | some next =>
      s.modify next fun a =>
        foregroundNext { a with preAbilityRecord := some r, pendingState := .foreground }
    | none => s.modify r fun a => { a with currentState := .backgrounding }
  else if (s.records r).currentState = .background then
    s.modify r fun a => { a with currentState := .terminating }
  else s

def terminateAbilityInner : ResultCode × MissionListManager :=
  if (s.records r).isTerminating && !(s.records r).isForeground then (.ok, s)
  else if (s.getAbilityRecordByTokenInner (some r)).isNone then (.ok, s)
  else
    -- an ability that terminates in the foreground is closed by force
    let flag := flag && !(s.records r).isTerminating
    (.ok, (s.modify r fun a => { a with isTerminating := true }).terminateAbilityLocked r flag)

def checkLimit : Bool × MissionListManager :=
  if s.isReachToLimitLocked then
    match s.findEarliestMission with
    | some earliest =>
      match s.terminateAbilityInner earliest true with
      | (.ok, s) => (false, s)
      | (_, s) => (true, s)
    | none => (false, s)
  else (false, s)

def getTargetMissionListByLauncher : ListRef × MissionListManager :=
  match (s.getReusedMission request).bind s.lists.getMissionList with
  | some l =>
    if l.isDefault then
      let (l, lists) := s.lists.makeMissionList
      (l, { s with lists := lists })
    else (l, s)
  | none =>
    let (l, lists) := s.lists.makeMissionList
    (l, { s with lists := lists })

def getTargetMissionListByDefault (callerAbility : MissionRef) :
    Option ListRef × MissionListManager :=
  match s.getMissionById (s.missions callerAbility).missionId with
  | none => (none, s)
  | some callerMission =>
    match s.lists.getMissionList callerMission with
    | none => (none, s)
    | some callerList =>
      if callerList.isDefault then
        let (l, lists) := s.lists.makeMissionList
        let lists := (lists.removeMission callerList callerMission).addMissionToTop l callerMission
        (some l, { s with lists := lists })
      else (some callerList, s)

def getTargetMissionList (callerAbility : Option MissionRef)
    (request : AbilityRequest) : Option ListRef × MissionListManager :=
  if request.isLauncherApp then (some .launcherList, s)
  else
    match callerAbility with
    | none =>
      let (l, lists) := s.lists.makeMissionList
      (some l, { s with lists := lists })
    | some caller =>
      if (s.missions caller).isLauncherApp then
        let (l, s) := s.getTargetMissionListByLauncher request
        (some l, s)
      else s.getTargetMissionListByDefault caller

def makeMission (mission : Mission) (missionTime : String) : MissionRef × MissionListManager :=
  (s.lists.nextMission, { s with
      lists := { s.lists with nextMission := s.lists.nextMission + 1 }
      missions := Function.update s.missions s.lists.nextMission mission
      records := Function.update s.records s.lists.nextMission { missionTime := missionTime } })

def getTargetMissionAndAbility : Option MissionRef × Bool × MissionListManager :=
  match s.getReusedMission request with
  | some m => (some m, false, s)
  | none =>
    match env.missionInfoId with
    | none => (none, false, s)
    | some missionId =>
      match s.checkLimit with
      | (true, s) => (none, true, s)
      | (false, s) =>
        let (m, s) := s.makeMission (request.mission missionId) env.currentTime
        (some m, false, s)

def getTargetMission : ResultCode × Option MissionRef × MissionListManager :=
  match s.getTargetMissionAndAbility request env with
  | (target, true, s) => (.reachUpperLimit, target, s)
  | (none, false, s) => (.invalidValue, none, s)
  | (some m, false, s) =>
    if (s.records m).isTerminating then (.invalidValue, some m, s)
    else if (s.records m).pendingState = .foreground then (.ok, some m, s)
    else
      let s := s.modify m fun a => { a with pendingState := .foreground }
      if (s.records m).isLoading then (.ok, some m, s) else (.getTargetMissionOver, some m, s)

def defaultList (mission : Mission) : ListRef :=
  if mission.launchMode = .singleton then .defaultSingleList else .defaultStandardList

/-- Moves the missions above `mission` in list `l` to the default lists. -/
def moveAbove (missions : MissionRef → Mission) (mission : MissionRef) (l : ListRef) :
    List MissionRef → MissionLists → MissionLists
  | [], lists => lists
  | item :: rest, lists =>
    if item = mission then lists
    else
      moveAbove missions mission l rest
        ((lists.removeMission l item).addMissionToTop (defaultList (missions item)) item)

def moveNoneTopMissionToDefaultList (mission : MissionRef) : MissionListManager :=
  match s.lists.getMissionList mission with
  | none => s
  | some l => { s with lists := moveAbove s.missions mission l (s.lists.missions l) s.lists }

/-- The mission leaves its list `l` for another one and the missions above it are popped; if the
list stays the same they are popped for a call from the launcher. -/
def leaveList (isCallFromLauncher : Bool) (target l : ListRef)
    (mission : MissionRef) : MissionListManager :=
  if target ≠ l then
    let s := s.moveNoneTopMissionToDefaultList mission
    { s with lists := s.lists.removeMission l mission }
  else if isCallFromLauncher then s.moveNoneTopMissionToDefaultList mission
  else s

def moveMissionToTargetList (isCallFromLauncher : Bool) (target : ListRef)
    (mission : MissionRef) : MissionListManager :=
  match s.lists.getMissionList mission with
  | none => { s with lists := s.lists.addMissionToTop target mission }
  | some l =>
    if isCallFromLauncher && target = .launcherList then
      { s with lists := s.lists.addMissionToTop target mission }
    else if l.isDefault then
      { s with lists := (s.lists.removeMission l mission).addMissionToTop target mission }
    else
      let s := s.leaveList isCallFromLauncher target l mission
      { s with lists := s.lists.settle l target mission }

def moveMissionListToTop (s : MissionListManager) (l : ListRef) : MissionListManager :=
  { s with lists := s.lists.moveMissionListToTop l }

def processForegroundAbility (a : AbilityRecord) : AbilityRecord :=
  if a.isReady && !a.restartAppFlag then foregroundNext a else { a with isLoading := true }

def getMissionIdByAbilityTokenInner : Option ℤ :=
  ((s.getAbilityRecordByTokenInner token).bind fun r =>
    s.getMissionById (s.missions r).missionId).map fun m => (s.missions m).missionId

/-- Step 5 of `StartAbilityLocked`. -/
def scheduleTarget (currentTopAbility callerAbility : Option MissionRef) (request : AbilityRequest)
    (focusAbility : Option MissionRef) (target : MissionRef) : MissionListManager :=
  let s :=
    match currentTopAbility with
    | none =>
      if (s.missions target).isLauncherApp then
        s.modify target fun a => { a with isLauncherRoot := true }
      else s
    | some top =>
      if callerAbility.isNone && request.backToOtherMissionStack then
        let other :=
          if (s.getMissionIdByAbilityTokenInner focusAbility).isSome then focusAbility else some top
        s.modify target fun a =>
          { a with needBackToOtherMissionStack := true, otherMissionStackAbilityRecord := other }
      else s
  s.modify target processForegroundAbility

def startAbilityLocked (currentTopAbility callerAbility : Option MissionRef)
    (request : AbilityRequest) (env : StartEnv) : ResultCode × MissionListManager :=
  let isCallerFromLauncher := callerAbility.any fun c => (s.missions c).isLauncherApp
  match s.getTargetMissionList callerAbility request with
  | (none, s) => (.invalidCaller, s)
  | (some targetList, s) =>
    match s.getTargetMission request env with
    | (.getTargetMissionOver, some target, s) =>
      let s := s.moveMissionToTargetList isCallerFromLauncher targetList target
      let s := s.moveMissionListToTop targetList
      (.ok, s.scheduleTarget currentTopAbility callerAbility request env.focusAbility target)
    | (ret, _, s) => (ret, s)

def enqueueWaitingAbility : MissionListManager :=
  { s with waitingAbilityQueue := s.waitingAbilityQueue ++ [request] }

def enqueueWaitingAbilityToFront : MissionListManager :=
  { s with waitingAbilityQueue := request :: s.waitingAbilityQueue }

def startSpecifiedAbility : MissionListManager :=
  { s with specifiedCalls := s.specifiedCalls ++ [request] }

def startAbilityFrom (currentTopAbility callerAbility : Option MissionRef)
    (request : AbilityRequest) (env : StartEnv) : ResultCode × MissionListManager :=
  if request.launchMode = .specified then
    (.ok, (s.enqueueWaitingAbilityToFront request).startSpecifiedAbility request)
  else s.startAbilityLocked currentTopAbility callerAbility request env

def isTopForegrounding : Bool :=
  s.getCurrentTopAbilityLocked.any fun top => (s.records top).currentState = .foregrounding

def startAbility : ResultCode × MissionListManager :=
  if s.checkSingleLimit request then (.reachUpperLimit, s)
  else
    let currentTopAbility := s.getCurrentTopAbilityLocked
    if s.isTopForegrounding && !currentTopAbility.any fun top => (s.records top).restartAppFlag then
      (.startAbilityWaiting, s.enqueueWaitingAbility request)
    else
      s.startAbilityFrom currentTopAbility (s.getAbilityRecordByTokenInner request.callerToken)
        request env

def startFront : MissionListManager :=
  match s.waitingAbilityQueue with
  | [] => s
  | request :: rest =>
    let s := { s with waitingAbilityQueue := rest }
    (s.startAbilityFrom s.getCurrentTopAbilityLocked
      (s.getAbilityRecordByTokenInner request.callerToken) request env).2

def startWaitingAbility : MissionListManager :=
  if s.isTopForegrounding then s else s.startFront env

def getTargetMissionListById (info : Option FrontInfo) :
    Option (ListRef × MissionRef) × Bool × MissionListManager :=
  match s.getMissionById missionId with
  | some mission =>
    match s.lists.getMissionList mission with
    | none => (none, false, s)
    | some .launcherList => (none, false, s)
    | some (.current n) => (some (.current n, mission), false, s)
    | some _ =>
      let (l, lists) := s.lists.makeMissionList
      (some (l, mission), false, { s with lists := lists })
  | none =>
    match info with
    | none => (none, false, s)
    | some info =>
      match s.checkLimit with
      | (true, s) => (none, true, s)
      | (false, s) =>
        let (m, s) := s.makeMission (info.mission missionId) "0"
        let (l, lists) := s.lists.makeMissionList
        (some (l, m), false, { s with lists := lists })

def moveMissionToFrontInner (isCallerFromLauncher : Bool)
    (info : Option FrontInfo) : ResultCode × MissionListManager :=
  match s.getTargetMissionListById missionId info with
  | (_, true, s) => (.reachUpperLimit, s)
  | (none, false, s) => (.moveMissionFailed, s)
  | (some (targetList, mission), false, s) =>
    let s := s.moveMissionToTargetList isCallerFromLauncher targetList mission
    let s := s.moveMissionListToTop targetList
    (.ok, s.modify mission processForegroundAbility)

def onAcceptWantResponse (want : String × String) (flag : String)
    (info : Option FrontInfo) (env : StartEnv) : MissionListManager :=
  match s.waitingAbilityQueue with
  | [] => s
  | request :: rest =>
    let s := { s with waitingAbilityQueue := rest }
    let start := (s.startAbilityLocked s.getCurrentTopAbilityLocked
      (s.getAbilityRecordByTokenInner request.callerToken)
      { request with specifiedFlag := flag } env).2
    if flag = "" then start
    else
      match s.getMissionBySpecifiedFlag want.1 want.2 flag with
      | none => start
      | some mission =>
        -- here the caller may also be an ability that is in no list
        let isCallerFromLauncher := request.callerToken.any fun c => (s.missions c).isLauncherApp
        (s.moveMissionToFrontInner (s.missions mission).missionId isCallerFromLauncher info).2

def onStartSpecifiedAbilityTimeoutResponse : MissionListManager :=
  match s.waitingAbilityQueue with
  | [] => s
  | _ :: rest => { s with waitingAbilityQueue := rest }.startFront env

def removeBackgroundingAbility : MissionListManager :=
  match (s.getMissionById (s.missions r).missionId).bind s.lists.getMissionList with
  | none => s
  | some l =>
    match s.lists.getTopMission l with
    | none => s -- the null pointer is dereferenced here
    | some mission =>
      let lists := s.lists.removeMissionByAbilityRecord l r
      let lists := lists.addMissionToTop (defaultList (s.missions mission)) mission
      let s := { s with lists := lists.unlinkEmpty l }
      let s := s.modify r fun a => { a with nextAbilityRecord := none }
      if (s.records r).isForeground then s.setNextAbility l r else s

def moveAbilityToBackground (animaEnabled : Bool) : MissionListManager :=
  let s := s.removeBackgroundingAbility r
  if (s.records r).isForeground then
    let s := s.modify r fun a => { a with pendingState := .background }
    match (s.records r).nextAbilityRecord with
    | some next =>
      s.modify next fun a =>
        foregroundNext { a with preAbilityRecord := some r, pendingState := .foreground }
    | none =>
      if animaEnabled then s else s.modify r fun a => { a with currentState := .backgrounding }
  else s

def terminateAbility : MissionListManager :=
  (s.terminateAbilityInner r flag).2

def clearMissionLocked (mission : Option MissionRef) : MissionListManager :=
  match mission with
  | none => s
  | some m =>
    if (s.records m).isTerminating then s
    else (s.modify m fun a => { a with isTerminating := true }).terminateAbilityLocked m false

/-- `stopTerminating`: the ability was asked and wants to stay. -/
def clearMission (stopTerminating : Bool) : MissionListManager :=
  if missionId < 0 then s
  else
    let mission := s.getMissionById missionId
    if mission.bind s.lists.getMissionList = some .launcherList then s
    else if mission.any fun m => (s.missions m).excludeFromMissions then s
    else if mission.any fun m => (s.missions m).unclearable then s
    else if mission.isSome && stopTerminating then s
    else s.clearMissionLocked mission

def completeTerminateAndUpdateMission : MissionListManager :=
  { s with terminateAbilityList := s.terminateAbilityList.filter (· ≠ r) }

def completeTerminate : MissionListManager :=
  if (s.records r).currentState ≠ .terminating then s
  else
    let s :=
      match (s.records r).preAbilityRecord with
      | some pre => s.terminateAbilityLocked pre false
      | none => s
    s.completeTerminateAndUpdateMission r

def handleLauncherDied : MissionListManager :=
  match s.getMissionById (s.missions r).missionId with
  | none => s
  | some mission =>
    if s.lists.getMissionList mission ≠ some .launcherList then s
    else if (s.records r).isLauncherRoot then
      s.modify r fun a => { a with currentState := .initial }
    else { s with lists := s.lists.removeMission .launcherList mission }

def quitList (lists : MissionLists) (l : ListRef) (mission : MissionRef) : MissionLists :=
  match l with
  | .current _ => lists.withdraw l mission
  | _ => lists.removeMission l mission

def handleAbilityDiedByDefault : MissionListManager :=
  if (s.records r).isTerminating then s.completeTerminateAndUpdateMission r
  else
    match s.getMissionById (s.missions r).missionId with
    | none => s
    | some mission =>
      match s.lists.getMissionList mission with
      | none => s
      | some l => { s with lists := quitList s.lists l mission }

def onAbilityDied (isCurrentUser : Bool) : MissionListManager :=
  if (s.records r).isLauncherRoot && !isCurrentUser then
    s.modify r fun a => { a with currentState := .initial }
  else
    let s :=
      if (s.records r).currentState = .initial then
        s.modify r fun a => { a with isLoading := false }
      else s
    if (s.missions r).isLauncherApp then s.handleLauncherDied r else s.handleAbilityDiedByDefault r

def moveToTerminateList : MissionListManager :=
  match s.getMissionById (s.missions r).missionId with
  | none => s
  | some mission =>
    match s.lists.getMissionList mission with
    | none => s
    | some l =>
      let s := { s with lists := quitList s.lists l mission }
      if (s.records r).currentState = .initial then s
      else
        let s := s.modify r fun a => { a with isTerminating := true }
        { s with terminateAbilityList := s.terminateAbilityList ++ [r] }

def isLauncherRootAbility : Bool :=
  (s.missions r).isLauncherApp && (s.records r).isLauncherRoot

def handleForegroundTimeout : MissionListManager :=
  if (s.records r).currentState ≠ .foregrounding then s
  else if s.isLauncherRootAbility r then s
  else s.moveToTerminateList r

inductive TimeoutMsg
  | load
  | foreground
  deriving DecidableEq

def onTimeOut (msg : TimeoutMsg) (r : MissionRef) : MissionListManager :=
  match s.getAliveAbilityRecordByToken (some r) with
  | none => s
  | some r =>
    match msg with
    | .load =>
      let s := s.modify r fun a => { a with isLoading := false }
      if s.isLauncherRootAbility r then s else s.moveToTerminateList r
    | .foreground => s.handleForegroundTimeout r

def terminatePreviousAbility : MissionListManager :=
  match (s.records r).preAbilityRecord with
  | none => s
  | some pre =>
    if !(s.records pre).isTerminating then s
    else
      let s := s.modify r fun a => { a with preAbilityRecord := none }
      match (s.records pre).currentState with
      | .foreground => s.modify pre fun a => { a with currentState := .backgrounding }
      | .background => s.modify pre fun a => { a with currentState := .terminating }
      | _ => s

def completeForegroundFailed (state : AbilityState) : MissionListManager :=
  match state with
  | .foregroundWindowFreezed =>
    (s.modify r fun a =>
      { a with pendingState := .initial, currentState := .background }).terminatePreviousAbility r
  | .foregroundDoNothing => s.modify r fun a => { a with currentState := .backgrounding }
  | _ => (s.handleForegroundTimeout r).terminatePreviousAbility r

def attachAbilityThread : MissionListManager :=
  match s.getAbilityRecordByTokenInner (some r) with
  | none => s
  | some r => s.modify r fun a => { a with isLoading := false, isReady := true }

def onAbilityRequestDone : MissionListManager :=
  match s.getAliveAbilityRecordByToken (some r) with
  | none => s
  | some r => s.modify r fun a => { a with currentState := .foregrounding }

def updateMissionTime (currentTime : String) : MissionListManager :=
  match s.getMissionById (s.missions r).missionId with
  | none => s
  | some m => s.modify m fun a => { a with missionTime := currentTime }

def completeForegroundSuccess (currentTime : String) : MissionListManager :=
  let s := s.modify r fun a => { a with currentState := .foreground }
  let s := (s.updateMissionTime r currentTime).terminatePreviousAbility r
  match (s.records r).pendingState with
  | .background =>
    s.modify r fun a => { a with minimizeReason := true, currentState := .backgrounding }
  | .foreground => s.modify r fun a => { a with pendingState := .initial }
  | _ => s

def terminateBackgrounded (s : MissionListManager) : List MissionRef → MissionListManager
  | [] => s
  | r :: rest =>
    (if (s.records r).currentState = .background then
      s.modify r fun a => { a with currentState := .terminating }
    else s).terminateBackgrounded rest

def completeBackground : MissionListManager :=
  if (s.records r).currentState ≠ .backgrounding then s
  else
    let s := s.modify r fun a =>
      { a with
        currentState := .background
        pendingState := if a.pendingState = .background then .initial else a.pendingState }
    s.terminateBackgrounded s.terminateAbilityList

def minimizeAbility (fromUser : Bool) : MissionListManager :=
  match s.getAbilityRecordByTokenInner (some r) with
  | none => s
  | some r =>
    let s := s.modify r fun a => { a with pendingState := .background }
    if (s.records r).currentState ≠ .foreground then s
    else s.modify r fun a => { a with minimizeReason := fromUser, currentState := .backgrounding }

def signRestartAppFlag : MissionListManager :=
  { s with
    records := fun m =>
      if (s.missions m).bundleName = bundleName ∧ m ∈ s.countedLists.flatMap s.lists.missions then
        { s.records m with restartAppFlag := true }
      else s.records m }

def backToLauncher : MissionListManager :=
  match s.getLauncherRoot with
  | none => s
  | some root =>
    if (s.missions root).bundleName ≠ launcherBundleName then s
    else
      match s.getMissionById (s.missions root).missionId with
      | none => s
      | some mission =>
        let lists := s.lists.addMissionToTop .launcherList mission
        let s := { s with
          lists := lists.moveMissionListToTop .launcherList
          waitingAbilityQueue := [] }
        s.modify root fun a =>
          if a.isReady then { a with currentState := .foregrounding }
          else { a with isLoading := true }

def backToCaller (caller : MissionRef) (info : Option FrontInfo) : MissionListManager :=
  if s.getCurrentTopAbilityLocked = some caller ∧ (s.records caller).currentState = .foreground then
    s
  else (s.moveMissionToFrontInner (s.missions caller).missionId false info).2

/-- `MatchedInitialMission`: the mission of an uninstalled app that has not been loaded yet. -/
def matchedInitialMission (m : MissionRef) : Bool :=
  (s.missions m).bundleName = bundleName ∧ (s.missions m).uid = uid ∧
    (s.records m).currentState = .initial

def handleUnInstallApp (lists : MissionLists) (l : ListRef) : MissionLists :=
  { lists with
    shelves := { lists.shelves with
      content := Function.update lists.shelves.content l
        ((lists.missions l).filter fun m => !s.matchedInitialMission bundleName uid m) } }

def uninstallFrom (lists : MissionLists) (l : ListRef) : MissionLists :=
  (s.handleUnInstallApp bundleName uid lists l).unlinkEmpty l

def eraseWaitingAbility : MissionListManager :=
  { s with
    waitingAbilityQueue := s.waitingAbilityQueue.filter fun request =>
      !(request.bundleName = bundleName ∧ request.uid = uid) }

def addUninstallTags : MissionListManager :=
  let lists := s.lists.currentMissionLists.foldl (s.uninstallFrom bundleName uid) s.lists
  let lists := s.handleUnInstallApp bundleName uid lists .defaultSingleList
  let lists := s.handleUnInstallApp bundleName uid lists .defaultStandardList
  { s with lists := lists }.eraseWaitingAbility bundleName uid

def init : MissionListManager where
  lists :=
    { shelves := { content := fun _ => [], owner := fun _ => none }
      currentMissionLists := [.launcherList]
      nextList := 0
      nextMission := 0 }
  missions := fun _ =>
    { missionId := 0, missionName := "", specifiedFlag := "", uid := 0, bundleName := ""
      abilityName := "", launchMode := .standard, isLauncherApp := false
      excludeFromMissions := false, unclearable := false }
  records := fun _ => {}
  terminateAbilityList := []
  waitingAbilityQueue := []
  specifiedCalls := []

inductive Op
  | startAbility (request : AbilityRequest) (env : StartEnv)
  | startWaitingAbility (env : StartEnv)
  | onAcceptWantResponse (want : String × String) (flag : String) (info : Option FrontInfo)
      (env : StartEnv)
  | onStartSpecifiedAbilityTimeoutResponse (env : StartEnv)
  | moveMissionToFront (missionId : ℤ) (isCallerFromLauncher : Bool) (info : Option FrontInfo)
  | moveAbilityToBackground (r : MissionRef) (animaEnabled : Bool)
  | minimizeAbility (r : MissionRef) (fromUser : Bool)
  | terminateAbility (r : MissionRef) (flag : Bool)
  | clearMission (missionId : ℤ) (stopTerminating : Bool)
  | onAbilityDied (r : MissionRef) (isCurrentUser : Bool)
  | onTimeOut (msg : TimeoutMsg) (r : MissionRef)
  | completeForegroundFailed (r : MissionRef) (state : AbilityState)
  | uninstallApp (bundleName : String) (uid : ℤ)
  | attachAbilityThread (r : MissionRef)
  | onAbilityRequestDone (r : MissionRef)
  | completeForegroundSuccess (r : MissionRef) (currentTime : String)
  | completeBackground (r : MissionRef)
  | completeTerminate (r : MissionRef)
  | signRestartAppFlag (bundleName : String)
  | backToLauncher
  | backToCaller (caller : MissionRef) (info : Option FrontInfo)

def step : Op → MissionListManager
  | .startAbility request env => (s.startAbility request env).2
  | .startWaitingAbility env => s.startWaitingAbility env
  | .onAcceptWantResponse want flag info env => s.onAcceptWantResponse want flag info env
  | .onStartSpecifiedAbilityTimeoutResponse env => s.onStartSpecifiedAbilityTimeoutResponse env
  | .moveMissionToFront missionId isCallerFromLauncher info =>
    (s.moveMissionToFrontInner missionId isCallerFromLauncher info).2
  | .moveAbilityToBackground r animaEnabled => s.moveAbilityToBackground r animaEnabled
  | .minimizeAbility r fromUser => s.minimizeAbility r fromUser
  | .terminateAbility r flag => s.terminateAbility r flag
  | .clearMission missionId stopTerminating => s.clearMission missionId stopTerminating
  | .onAbilityDied r isCurrentUser => s.onAbilityDied r isCurrentUser
  | .onTimeOut msg r => s.onTimeOut msg r
  | .completeForegroundFailed r state => s.completeForegroundFailed r state
  | .uninstallApp bundleName uid => s.addUninstallTags bundleName uid
  | .attachAbilityThread r => s.attachAbilityThread r
  | .onAbilityRequestDone r => s.onAbilityRequestDone r
  | .completeForegroundSuccess r currentTime => s.completeForegroundSuccess r currentTime
  | .completeBackground r => s.completeBackground r
  | .completeTerminate r => s.completeTerminate r
  | .signRestartAppFlag bundleName => s.signRestartAppFlag bundleName
  | .backToLauncher => s.backToLauncher
  | .backToCaller caller info => s.backToCaller caller info

end MissionListManager
end AbilityRuntime
