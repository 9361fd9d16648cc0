import Mathlib.Data.String.Basic
import AbilityRuntime.Library.Shelves

/-! Missions and the lists they are kept in. A mission and its ability record keep each other for
good, so one reference stands for both. -/

namespace AbilityRuntime

abbrev MissionRef := ℕ

inductive AbilityState
  | initial
  | inactive
  | active
  | inactivating
  | activating
  | terminating
  | foreground
  | background
  | foregrounding
  | backgrounding
  | foregroundFailed
  | backgroundFailed
  | foregroundInvalidMode
  | foregroundWindowFreezed
  | foregroundDoNothing
  deriving DecidableEq

inductive LaunchMode
  | singleton
  | standard
  | specified
  deriving DecidableEq

structure Mission where
  missionId : ℤ
  missionName : String
  specifiedFlag : String
  uid : ℤ
  bundleName : String
  abilityName : String
  launchMode : LaunchMode
  isLauncherApp : Bool
  excludeFromMissions : Bool
  unclearable : Bool

structure AbilityRecord where
  currentState : AbilityState := .initial
  pendingState : AbilityState := .initial
  isTerminating : Bool := false
  isLoading : Bool := false
  isReady : Bool := false
  isLauncherRoot : Bool := false
  restartAppFlag : Bool := false
  minimizeReason : Bool := false
  needBackToOtherMissionStack : Bool := false
  otherMissionStackAbilityRecord : Option MissionRef := none
  preAbilityRecord : Option MissionRef := none
  nextAbilityRecord : Option MissionRef := none
  missionTime : String := "0"

def AbilityRecord.isForeground (r : AbilityRecord) : Bool :=
  r.currentState = .foreground ∨ r.currentState = .foregrounding

/-- What is read of a start request; `callerToken` is the record of the caller, if it has one. -/
structure AbilityRequest where
  requestCode : ℤ
  callerToken : Option MissionRef
  uid : ℤ
  bundleName : String
  abilityName : String
  moduleName : String
  appIndex : ℤ
  launchMode : LaunchMode
  isLauncherApp : Bool
  excludeFromMissions : Bool
  unclearableMission : Bool
  startRecent : Bool
  specifiedFlag : String
  backToOtherMissionStack : Bool
  deriving DecidableEq

def AbilityRequest.getMissionName (request : AbilityRequest) : String :=
  if request.appIndex = 0 then
    "#" ++ request.bundleName ++ ":" ++ request.moduleName ++ ":" ++ request.abilityName
  else
    "#" ++ request.bundleName ++ ":" ++ toString request.appIndex ++ ":" ++ request.moduleName ++
      ":" ++ request.abilityName

def AbilityRequest.mission (request : AbilityRequest) (missionId : ℤ) : Mission where
  missionId := missionId
  missionName := request.getMissionName
  specifiedFlag := if request.launchMode = .specified then request.specifiedFlag else ""
  uid := request.uid
  bundleName := request.bundleName
  abilityName := request.abilityName
  launchMode := request.launchMode
  isLauncherApp := request.isLauncherApp
  excludeFromMissions := request.excludeFromMissions
  unclearable := request.unclearableMission

/-- A mission list and its type: three lists of the manager, and the lists of type `CURRENT`. -/
inductive ListRef
  | launcherList
  | defaultStandardList
  | defaultSingleList
  | current (n : ℕ)
  deriving DecidableEq

def ListRef.isDefault (l : ListRef) : Bool :=
  l = .defaultSingleList ∨ l = .defaultStandardList

/-- The lists of a manager. `shelves` has the missions of each list and, for each mission, the weak
pointer to its list; `nextList` and `nextMission` number what is allocated. -/
structure MissionLists where
  shelves : Shelves ListRef MissionRef
  currentMissionLists : List ListRef
  nextList : ℕ
  nextMission : ℕ

namespace MissionLists

variable (s : MissionLists) (l : ListRef) (m : MissionRef)

def missions : List MissionRef := s.shelves.content l

def addMissionToTop : MissionLists :=
  { s with shelves := s.shelves.pushTop l m }

def removeMission : MissionLists :=
  { s with shelves := s.shelves.take l m }

def removeMissionByAbilityRecord (r : MissionRef) : MissionLists :=
  s.removeMission l r

def getTopMission : Option MissionRef := (s.missions l).head?

def isEmpty (s : MissionLists) (l : ListRef) : Bool := (s.missions l).isEmpty

def isAlive : ListRef → Bool
  | .current n => .current n ∈ s.currentMissionLists
  | _ => true

def getMissionList : Option ListRef :=
  (s.shelves.owner m).filter s.isAlive

def makeMissionList : ListRef × MissionLists :=
  (.current s.nextList, { s with nextList := s.nextList + 1 })

def removeMissionList : MissionLists :=
  { s with currentMissionLists := s.currentMissionLists.erase l }

def moveMissionListToTop : MissionLists :=
  if s.currentMissionLists.head? = some l then s
  else { s with currentMissionLists := l :: s.currentMissionLists.filter (· ≠ l) }

def unlinkEmpty : MissionLists :=
  if s.isEmpty l then s.removeMissionList l else s

def withdraw : MissionLists :=
  (s.removeMission l m).unlinkEmpty l

def settle (l t : ListRef) (m : MissionRef) : MissionLists :=
  let s := s.addMissionToTop t m
  if s.isEmpty l then { s with currentMissionLists := s.currentMissionLists.filter (· ≠ l) } else s

/-- The launcher list, the two default lists and the other lists of `currentMissionLists_`. -/
def allLists : List ListRef :=
  [.launcherList, .defaultStandardList, .defaultSingleList] ++
    s.currentMissionLists.filter (· ≠ .launcherList)

def allMissions : List MissionRef := s.allLists.flatMap s.missions

end MissionLists
end AbilityRuntime
