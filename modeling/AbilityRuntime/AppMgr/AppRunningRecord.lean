import AbilityRuntime.AbilityMgr.ServiceRecord

/-! The record of one running process. What the application was asked for and has not answered is
kept in `scheduled`. The abilities of all modules are one map, since a token belongs to one module.
-/

namespace AbilityRuntime.AppMgr

inductive ApplicationState
  | create | ready | foreground | focus | background | terminated | cached
  deriving DecidableEq

inductive ApplicationPendingState
  | ready | foregrounding | backgrounding
  deriving DecidableEq

inductive AbilityState
  | create | ready | foreground | focus | background | terminated | «end»
  | connected | disconnected
  deriving DecidableEq

abbrev AbilityToken := ℕ

structure AbilityRunningRecord where
  type : AbilityType
  extensionAbilityType : ExtensionAbilityType
  state : AbilityState
  deriving DecidableEq

def AbilityRunningRecord.isPageOrUIExtension (a : AbilityRunningRecord) : Bool :=
  a.type = .page ∨ a.extensionAbilityType.isUIExtension

def AbilityRunningRecord.isForeground (a : AbilityRunningRecord) : Bool :=
  a.state = .foreground ∧ a.isPageOrUIExtension

inductive WindowVisibilityState
  | noOcclusion | partiallyOcclusion | totallyOcclusion
  deriving DecidableEq

structure WindowVisibilityInfo where
  windowId : ℕ
  pid : ℤ
  visibilityState : WindowVisibilityState

inductive Scheduled
  | foregroundRunning | backgroundRunning

structure AppRunningRecord where
  mainBundleName : String
  mainUid : ℤ
  extensionType : ExtensionAbilityType
  pid : ℤ
  curState : ApplicationState
  pendingState : ApplicationPendingState
  abilities : SortedMap AbilityToken AbilityRunningRecord
  foregroundingAbilityTokens : Finset AbilityToken
  windowIds : Finset ℕ
  scheduled : List Scheduled

namespace AppRunningRecord

def launcherName : String := "com.ohos.sceneboard"

variable (r : AppRunningRecord) (token : AbilityToken)

def isLauncher : Bool := r.mainBundleName = launcherName

def launched (bundleName : String) (uid : ℤ) (extensionType : ExtensionAbilityType) (pid : ℤ) :
    AppRunningRecord where
  mainBundleName := bundleName
  mainUid := uid
  extensionType := extensionType
  pid := pid
  curState := .ready
  pendingState := .ready
  abilities := .empty
  foregroundingAbilityTokens := ∅
  windowIds := ∅
  scheduled := []

def scheduleForegroundRunning : AppRunningRecord :=
  { r with scheduled := r.scheduled ++ [.foregroundRunning] }

def scheduleBackgroundRunning : AppRunningRecord :=
  { r with scheduled := r.scheduled ++ [.backgroundRunning] }

/-- `AddAbility` and `LaunchAbility`; a token that is known keeps its ability. -/
def launchAbility (type : AbilityType)
    (extensionAbilityType : ExtensionAbilityType) : AppRunningRecord :=
  { r with abilities := r.abilities.emplace token ⟨type, extensionAbilityType, .ready⟩ }

def onAbilityStateChanged (state : AbilityState) : AppRunningRecord :=
  { r with abilities := r.abilities.modify token fun a => { a with state := state } }

def startForegrounding : AppRunningRecord :=
  let r' := { r with pendingState := .foregrounding }
  if r.pendingState = .ready then r'.scheduleForegroundRunning else r'

def startBackgrounding : AppRunningRecord :=
  let r' := { r with pendingState := .backgrounding }
  if r.pendingState = .ready then r'.scheduleBackgroundRunning else r'

def abilityForeground (ability : AbilityRunningRecord) : AppRunningRecord :=
  if ability.state ≠ .ready ∧ ability.state ≠ .background then r
  else if r.curState = .foreground ∧ r.pendingState ≠ .backgrounding then
    r.onAbilityStateChanged token .foreground
  else if r.curState = .ready ∨ r.curState = .background ∨ r.curState = .foreground then
    let r := r.startForegrounding
    { r with foregroundingAbilityTokens := insert token r.foregroundingAbilityTokens }
  else r

def hasForegroundAbility : Bool :=
  r.abilities.entries.any fun e => e.2.isForeground

def abilityBackground (ability : AbilityRunningRecord) : AppRunningRecord :=
  if ability.state ≠ .foreground ∧ ability.state ≠ .ready then r
  else
    let r := r.onAbilityStateChanged token .background
    if r.curState = .foreground ∨ r.curState = .cached then
      if r.hasForegroundAbility = false ∧ r.isLauncher = false ∧ r.windowIds = ∅ then
        r.startBackgrounding
      else r
    else r

def updateAbilityState (state : AbilityState) : AppRunningRecord :=
  match r.abilities.find? token with
  | none => r
  | some ability =>
    if state = .create then r
    else if state = ability.state then r
    else if state = .foreground then r.abilityForeground token ability
    else if state = .background then r.abilityBackground token ability
    else r

def popForegroundingAbilityTokens : AppRunningRecord :=
  { r with
    abilities := r.abilities.traverse fun token a =>
      some (if token ∈ r.foregroundingAbilityTokens then { a with state := .foreground } else a)
    foregroundingAbilityTokens := ∅ }

def isAbilitytiesBackground : Bool :=
  r.abilities.entries.all fun e =>
    !e.2.isPageOrUIExtension ||
      e.2.state = .background || e.2.state = .terminated || e.2.state = .end

def windowChanged (pid : ℤ) (windowIds : Finset ℕ) (info : WindowVisibilityInfo) : Finset ℕ :=
  if info.pid ≠ pid then windowIds
  else if info.visibilityState = .totallyOcclusion then windowIds.erase info.windowId
  else insert info.windowId windowIds

def onWindowVisibilityChanged (infos : List WindowVisibilityInfo) : AppRunningRecord :=
  if infos = [] then r
  else
    let r := { r with windowIds := infos.foldl (windowChanged r.pid) r.windowIds }
    if r.pendingState = .ready then
      if r.windowIds ≠ ∅ ∧ r.curState ≠ .foreground then
        { r with pendingState := .foregrounding }.scheduleForegroundRunning
      else if r.windowIds = ∅ ∧ r.isAbilitytiesBackground ∧ r.curState = .foreground then
        { r with pendingState := .backgrounding }.scheduleBackgroundRunning
      else r
    else if r.windowIds ≠ ∅ then { r with pendingState := .foregrounding }
    else if r.isAbilitytiesBackground then { r with pendingState := .backgrounding }
    else r

def applicationForegrounded : AppRunningRecord :=
  let r := if r.curState = .ready ∨ r.curState = .background then
      { r with curState := .foreground } else r
  let r := r.popForegroundingAbilityTokens
  match r.pendingState with
  | .backgrounding => r.scheduleBackgroundRunning
  | .foregrounding => { r with pendingState := .ready }
  | .ready => r

def applicationBackgrounded : AppRunningRecord :=
  let r := if r.curState = .foreground then { r with curState := .background } else r
  match r.pendingState with
  | .foregrounding => r.scheduleForegroundRunning
  | .backgrounding => { r with pendingState := .ready }
  | .ready => r

lemma hasForegroundAbility_iff : r.hasForegroundAbility = true ↔
      ∃ token a, r.abilities.find? token = some a ∧ a.isForeground = true := by
  rw [hasForegroundAbility, List.any_eq_true]
  constructor
  · rintro ⟨⟨token, a⟩, hmem, ha⟩
    exact ⟨token, a, SortedMap.mem_entries.mp hmem, ha⟩
  · rintro ⟨token, a, hfind, ha⟩
    exact ⟨(token, a), SortedMap.mem_entries.mpr hfind, ha⟩

def isShown : Bool := r.windowIds ≠ ∅ ∨ r.hasForegroundAbility = true

def isApplication : Bool :=
  !r.extensionType.isUIExtension && !r.extensionType.isWindowExtension

structure SameApplication (r r' : AppRunningRecord) : Prop where
  mainBundleName : r'.mainBundleName = r.mainBundleName
  mainUid : r'.mainUid = r.mainUid
  extensionType : r'.extensionType = r.extensionType

lemma applicationForegrounded_same : SameApplication r r.applicationForegrounded := by
  unfold applicationForegrounded
  dsimp only
  split <;> split <;> exact ⟨rfl, rfl, rfl⟩

lemma applicationBackgrounded_same : SameApplication r r.applicationBackgrounded := by
  unfold applicationBackgrounded
  dsimp only
  split <;> split <;> exact ⟨rfl, rfl, rfl⟩

lemma applicationForegrounded_curState : r.applicationForegrounded.curState =
      if r.curState = .ready ∨ r.curState = .background then .foreground else r.curState := by
  unfold applicationForegrounded
  dsimp only
  split <;> split <;> rfl

lemma applicationBackgrounded_curState : r.applicationBackgrounded.curState =
      if r.curState = .foreground then .background else r.curState := by
  unfold applicationBackgrounded
  dsimp only
  split <;> split <;> rfl

end AppRunningRecord
end AbilityRuntime.AppMgr
