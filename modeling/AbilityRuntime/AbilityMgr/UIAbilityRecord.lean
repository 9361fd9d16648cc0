import Mathlib.Data.Int.Notation
import Mathlib.Data.List.Basic

/-! The record of a UI ability, with the replies, timeouts and posted tasks it still waits for. -/

namespace AbilityRuntime.SceneBoard

inductive AbilityState
  | initial | terminating | foreground | background | foregrounding | backgrounding
  deriving DecidableEq

inductive LaunchMode
  | singleton | standard | specified
  deriving DecidableEq

structure AbilityInfo where
  bundleName : String := ""
  moduleName : String := ""
  name : String := ""
  launchMode : LaunchMode := .singleton
  deriving DecidableEq

/-- A want with the clone index and the debug mark read from its parameters; `content` stands
for the parameters that nothing here reads. -/
structure Want where
  bundleName : String := ""
  abilityName : String := ""
  appIndex : ℤ := 0
  isDebug : Bool := false
  content : ℕ := 0
  deriving DecidableEq

inductive ForegroundResult
  | foreground | failed | invalidMode | windowFreezed
  deriving DecidableEq

inductive Outstanding
  -- replies that are awaited
  | load | moveToForeground | foregroundNew | backgroundNew | terminate
  -- timeouts
  | loadTimeout | foregroundTimeout | backgroundTimeout | terminateTimeout
  -- tasks, and the scene board's answer to a session it was asked to end
  | completeForegroundSuccess | foregroundWindowFreezed | handleForegroundFailed
  | completeBackground | completeTerminate | delayKillProcess | onAbilityDied
  | terminateSession
  deriving DecidableEq

def Outstanding.isTask : Outstanding → Bool
  | completeForegroundSuccess | foregroundWindowFreezed | handleForegroundFailed
  | completeBackground | completeTerminate | delayKillProcess | onAbilityDied => true
  | _ => false

structure UIAbilityRecord where
  abilityInfo : AbilityInfo := {}
  appIndex : ℤ := 0
  persistentId : ℤ := 0
  want : Want := {}
  isNewWant : Bool := false
  specifiedFlag : String := ""
  state : AbilityState := .initial
  pendingState : AbilityState := .initial
  isReady : Bool := false
  isTerminating : Bool := false
  isWatched : Bool := true
  processDied : Bool := false
  outstanding : List Outstanding := []
  asked : AbilityState := .initial

namespace UIAbilityRecord
variable (a : UIAbilityRecord)

def isDebug : Bool := a.want.isDebug

/-- What `SetWant` stores: the debug mark of the old want stays. -/
def setWant (want : Want) : Want := { want with isDebug := want.isDebug || a.isDebug }

def isForeground : Bool := a.state = .foreground ∨ a.state = .foregrounding

variable (k : Outstanding)

def post : UIAbilityRecord := { a with outstanding := a.outstanding ++ [k] }

def cancel : UIAbilityRecord :=
  { a with outstanding := a.outstanding.filter (· ≠ k) }

def take : UIAbilityRecord := { a with outstanding := a.outstanding.erase k }

def postForegroundTimeoutTask : UIAbilityRecord :=
  if a.isDebug then a else a.post .foregroundTimeout

def foregroundAbility : UIAbilityRecord := { a.post .foregroundNew with state := .foregrounding }

def loadTimeoutTask : UIAbilityRecord := if a.isDebug then a else a.post .loadTimeout

def loadAbility (loaded : Bool) : UIAbilityRecord :=
  if loaded then a.loadTimeoutTask.post .load else a.loadTimeoutTask

def processForegroundAbility (loaded : Bool) : UIAbilityRecord :=
  if a.isReady then
    if a.state = .foreground then a.postForegroundTimeoutTask.foregroundAbility
    else { a.postForegroundTimeoutTask.post .moveToForeground with state := .foregrounding }
  else a.loadAbility loaded

def backgroundTimeoutTask : UIAbilityRecord :=
  if a.isDebug ∨ .backgroundTimeout ∈ a.outstanding then a else a.post .backgroundTimeout

def backgroundAbility : UIAbilityRecord :=
  { a.backgroundTimeoutTask.post .backgroundNew with state := .backgrounding }

def moveToBackground : UIAbilityRecord := { a.backgroundAbility with isNewWant := false }

def terminateTimeoutTask : UIAbilityRecord := if a.isDebug then a else a.post .terminateTimeout

def terminate : UIAbilityRecord :=
  { a.terminateTimeoutTask.post .terminate with state := .terminating }

/-- `StartUIAbility` on the record it has found or made. -/
def start (loaded : Bool) : UIAbilityRecord :=
  if a.pendingState ≠ .initial then
    { a with pendingState := .foreground, asked := .foreground }
  else
    { a with pendingState := .foreground, asked := .foreground }.processForegroundAbility loaded

def minimizeUIAbility : UIAbilityRecord :=
  if a.pendingState ≠ .initial then
    { a with pendingState := .background, asked := .background }
  else if a.state ≠ .foreground then { a with asked := .background }
  else { a with pendingState := .background, asked := .background }.moveToBackground

def attachAbilityThread (attached : Bool) : UIAbilityRecord :=
  let ready := { a.cancel .loadTimeout with isReady := true }
  if attached then ready.postForegroundTimeoutTask.post .moveToForeground
  else ready.post .terminateSession

def onAbilityRequestDone : UIAbilityRecord :=
  if a.isTerminating then a.cancel .foregroundTimeout else a.foregroundAbility

def foregroundTask : ForegroundResult → Outstanding
  | .foreground => .completeForegroundSuccess
  | .windowFreezed => .foregroundWindowFreezed
  | .failed | .invalidMode => .handleForegroundFailed

def dispatchForeground (result : ForegroundResult) : UIAbilityRecord :=
  if a.state ≠ .foregrounding then a
  else (a.cancel .foregroundTimeout).post (foregroundTask result)

def dispatchBackground : UIAbilityRecord :=
  if a.state ≠ .backgrounding then a
  else (a.cancel .backgroundTimeout).post .completeBackground

def dispatchTerminate : UIAbilityRecord :=
  if a.state ≠ .terminating then a
  else (a.cancel .terminateTimeout).post .completeTerminate

def completeForegroundSuccess : UIAbilityRecord :=
  if a.pendingState = .background then { a with state := .foreground }.moveToBackground
  else if a.pendingState = .foreground then
    { a with state := .foreground, pendingState := .initial }
  else { a with state := .foreground }

def windowFreezed : UIAbilityRecord := { a with state := .background }

def completeBackground : UIAbilityRecord :=
  if a.pendingState = .foreground then
    { a with state := .background }.postForegroundTimeoutTask.post .moveToForeground
  else if a.pendingState = .background then
    { a with state := .background, pendingState := .initial }
  else { a with state := .background }

def cancelTimeout : UIAbilityRecord :=
  match a.state with
  | .initial => a.cancel .loadTimeout
  | .foregrounding => a.cancel .foregroundTimeout
  | .backgrounding => a.cancel .backgroundTimeout
  | _ => a

def die : UIAbilityRecord := { a.cancelTimeout with state := .terminating }

def onProcessDied : UIAbilityRecord :=
  if a.processDied then a
  else if a.isWatched then { a.post .onAbilityDied with processDied := true }
  else { a with processDied := true }

end UIAbilityRecord

end AbilityRuntime.SceneBoard
