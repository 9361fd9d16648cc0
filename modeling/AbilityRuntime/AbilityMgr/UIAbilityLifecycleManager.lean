import Mathlib.Data.String.Basic
import AbilityRuntime.AbilityMgr.UIAbilityRecord
import AbilityRuntime.Library.KeyOrder
import AbilityRuntime.Library.Ledger

/-! UI abilities under the scene board. A start is asked of the scene board
(`PendingSessionActivation`), which answers with `StartUIAbility`; the flag of a specified start
waits in a queue. Records are known by their places in the list of all that were made. -/

namespace AbilityRuntime.SceneBoard

structure SpecifiedInfo where
  abilityName : String := ""
  bundleName : String := ""
  flag : String := ""
  deriving DecidableEq

/-- `key_compare`: not an order, since each of two keys can come before the other. -/
def keyCompare (info1 info2 : SpecifiedInfo) : Bool :=
  info1.abilityName < info2.abilityName ∨ info1.bundleName < info2.bundleName ∨
    info1.flag < info2.flag

namespace SpecifiedInfo

def le (a b : SpecifiedInfo) : Prop :=
  a.abilityName ≤ b.abilityName ∧ a.bundleName ≤ b.bundleName ∧ a.flag ≤ b.flag

instance : IsPartialOrder SpecifiedInfo le where
  refl _ := ⟨le_rfl, le_rfl, le_rfl⟩
  trans _ _ _ h h' := ⟨h.1.trans h'.1, h.2.1.trans h'.2.1, h.2.2.trans h'.2.2⟩
  antisymm a b h h' := by
    have habilityName := le_antisymm h.1 h'.1
    have hbundleName := le_antisymm h.2.1 h'.2.1
    have hflag := le_antisymm h.2.2 h'.2.2
    cases a
    cases b
    simp_all

end SpecifiedInfo

theorem keyCompare_orders_iff (infos : Set SpecifiedInfo) :
    KeyOrder.Orders keyCompare infos ↔ ∀ a ∈ infos, ∀ b ∈ infos, a.le b ∨ b.le a := by
  refine KeyOrder.orders_iff fun a b => ?_
  rw [SpecifiedInfo.le, not_and_or, not_and_or, not_le, not_le, not_le]
  exact decide_eq_true_iff

theorem keyCompare_not_asymm : keyCompare ⟨"a", "y", "f"⟩ ⟨"b", "x", "f"⟩ ∧
    keyCompare ⟨"b", "x", "f"⟩ ⟨"a", "y", "f"⟩ := by
  decide +kernel

structure AbilityRequest where
  abilityInfo : AbilityInfo := {}
  want : Want := {}
  specifiedFlag : String := ""
  callerToken : Option ℕ := none
  deriving DecidableEq

/-- The scene board's call of `StartUIAbility`, with what the services asked on the way
answer. `newPersistentId` is the id of a session made for the call. Since `keyCompare` is no
order, where a search in `specifiedAbilityMap` ends is not settled by the entries: `place` is
where it ends, and `meets` whether it comes past a key that is there. -/
structure StartCall where
  request : AbilityRequest
  newPersistentId : ℤ
  isNewWant : Bool := false
  isValidSession : Bool := true
  isCreated : Bool := true
  isLoaded : Bool := true
  place : ℕ := 0
  meets : Bool := true

structure Reply where
  attached : Bool := true
  result : ForegroundResult := .foreground

structure SessionAbilities where
  records : List UIAbilityRecord := []
  sessionAbilityMap : SortedMap ℤ ℕ := SortedMap.empty
  terminateAbilityList : List ℕ := []
  specifiedAbilityMap : List (SpecifiedInfo × ℕ) := []

namespace SessionAbilities
variable (s : SessionAbilities) (r : ℕ)

def record : UIAbilityRecord := s.records.getD r {}

def modifyRecord (f : UIAbilityRecord → UIAbilityRecord) : SessionAbilities :=
  { s with records := s.records.modify r f }

def holds : Bool := s.sessionAbilityMap.entries.any (·.2 = r)

def isFound : Bool := s.terminateAbilityList.contains r || s.holds r

def eraseAbilityRecord : SessionAbilities :=
  match s.sessionAbilityMap.entries.find? (·.2 = r) with
  | some p => { s with sessionAbilityMap := s.sessionAbilityMap.erase p.1 }
  | none => s

def specifiedKey : SpecifiedInfo :=
  { abilityName := (s.record r).abilityInfo.name
    bundleName := (s.record r).abilityInfo.bundleName
    flag := (s.record r).specifiedFlag }

def eraseSpecifiedAbilityRecord : SessionAbilities :=
  { s with
    specifiedAbilityMap :=
      s.specifiedAbilityMap.eraseP fun p => p.2 = r ∧ p.1 = s.specifiedKey r }

/-- `SetSpecifiedFlag` and `specifiedAbilityMap_.emplace`. -/
def setSpecified (call : StartCall) (info : SpecifiedInfo) (r : ℕ) : SessionAbilities :=
  { s.modifyRecord r (fun a => { a with specifiedFlag := info.flag }) with
    specifiedAbilityMap :=
      if call.meets ∧ s.specifiedAbilityMap.any (·.1 = info) then s.specifiedAbilityMap
      else s.specifiedAbilityMap.insertIdx (min call.place s.specifiedAbilityMap.length)
        (info, r) }

variable (request : AbilityRequest)

def createAbilityRecord (persistentId : ℤ) : UIAbilityRecord :=
  { abilityInfo := request.abilityInfo
    appIndex := request.want.appIndex
    persistentId
    want := request.want }

/-- `StartUIAbility` up to `CheckSpecified`, with the record that gets there. -/
def startUIAbility (call : StartCall) (persistentId : ℤ) : SessionAbilities × Option ℕ :=
  match s.sessionAbilityMap.find? persistentId with
  | some r =>
    let want (a : UIAbilityRecord) :=
      if call.isNewWant then a.setWant call.request.want else a.want
    (s.modifyRecord r fun a =>
        { a with isNewWant := call.isNewWant, want := want a }.start call.isLoaded,
      if (s.record r).pendingState ≠ .initial then none else some r)
  | none =>
    if !call.isCreated then (s, none)
    else
      let a := createAbilityRecord call.request persistentId
      ({ s with
          records := s.records ++ [a.start call.isLoaded]
          sessionAbilityMap := s.sessionAbilityMap.emplace persistentId s.records.length },
        some s.records.length)

def pushTerminateAbility : SessionAbilities :=
  { s with terminateAbilityList := s.terminateAbilityList ++ [r] }

def removeTerminateAbility : SessionAbilities :=
  { s with terminateAbilityList := s.terminateAbilityList.filter (· ≠ r) }

def closeUIAbility (isClearSession : Bool) : SessionAbilities :=
  let a := s.record r
  if a.isTerminating && !a.isForeground then s
  else
    let s := (s.modifyRecord r fun a => { a with isTerminating := true }).eraseAbilityRecord r
    if a.state = .initial then
      if a.isReady then s else s.modifyRecord r (·.cancel .loadTimeout)
    else
      let s := s.pushTerminateAbility r
      if a.isDebug && isClearSession then s
      else if a.isForeground then
        s.modifyRecord r fun a => { a with pendingState := .background }.moveToBackground
      else if a.state = .background then s.modifyRecord r (·.terminate)
      else s

def handleForegroundFailed : SessionAbilities :=
  if (s.record r).state ≠ .foregrounding then s
  else (s.eraseAbilityRecord r).closeUIAbility r false

def terminateInBackground : SessionAbilities :=
  if (s.record r).state = .background then s.modifyRecord r (·.terminate) else s

def completeBackground (r : ℕ) : SessionAbilities :=
  if (s.record r).state ≠ .backgrounding then s
  else s.terminateAbilityList.foldl terminateInBackground (s.modifyRecord r (·.completeBackground))

def completeTerminate : SessionAbilities :=
  if (s.record r).state ≠ .terminating then s
  else
    let s := (s.modifyRecord r fun a => { a with isWatched := false })
    (s.eraseSpecifiedAbilityRecord r).removeTerminateAbility r

def handleLoadTimeout : SessionAbilities := s.eraseAbilityRecord r

def handleForegroundTimeout : SessionAbilities :=
  if (s.record r).state ≠ .foregrounding then s
  else (s.eraseAbilityRecord r).eraseSpecifiedAbilityRecord r

def onAbilityDied : SessionAbilities :=
  let s := ((s.modifyRecord r (·.die)).pushTerminateAbility r).eraseAbilityRecord r
  (s.modifyRecord r (·.dispatchTerminate)).eraseSpecifiedAbilityRecord r

def handle (reply : Reply) : Outstanding → SessionAbilities
  | .load => if s.holds r then s.modifyRecord r (·.attachAbilityThread reply.attached) else s
  | .moveToForeground => if s.isFound r then s.modifyRecord r (·.onAbilityRequestDone) else s
  | .foregroundNew =>
    if s.isFound r then s.modifyRecord r (·.dispatchForeground reply.result) else s
  | .backgroundNew => if s.isFound r then s.modifyRecord r (·.dispatchBackground) else s
  | .terminate => if s.isFound r then s.modifyRecord r (·.dispatchTerminate) else s
  | .loadTimeout => if s.holds r then s.handleLoadTimeout r else s
  | .foregroundTimeout => if s.holds r then s.handleForegroundTimeout r else s
  | .backgroundTimeout => s.completeBackground r
  | .terminateTimeout => s.modifyRecord r (·.post .delayKillProcess)
  | .completeForegroundSuccess => s.modifyRecord r (·.completeForegroundSuccess)
  | .foregroundWindowFreezed => s.modifyRecord r (·.windowFreezed)
  | .handleForegroundFailed => s.handleForegroundFailed r
  | .completeBackground => s.completeBackground r
  | .completeTerminate => s.completeTerminate r
  | .delayKillProcess => s.completeTerminate r
  | .onAbilityDied => s.onAbilityDied r
  | .terminateSession => s.closeUIAbility r false

def happen (k : Outstanding) (reply : Reply) : SessionAbilities :=
  if k ∈ (s.record r).outstanding then (s.modifyRecord r (·.take k)).handle r reply k else s

def checkProperties (launchMode : LaunchMode) : Bool :=
  let info := (s.record r).abilityInfo
  info.launchMode = launchMode ∧ request.abilityInfo.name = info.name ∧
    request.abilityInfo.bundleName = info.bundleName ∧
    request.abilityInfo.moduleName = info.moduleName ∧
    request.want.appIndex = (s.record r).appIndex

/-- The entries of `sessionAbilityMap` are met in no set order: `pick` says which of the
sessions that fit is met first. -/
def getReusedSpecifiedPersistentId (pick : ℕ) : ℤ :=
  if request.abilityInfo.launchMode ≠ .specified then 0
  else
    let fitting := s.sessionAbilityMap.entries.filter fun p =>
      (s.record p.2).specifiedFlag = request.specifiedFlag ∧
        s.checkProperties p.2 request .specified
    ((fitting[pick % fitting.length]?).map (·.1)).getD 0

def getReusedSpecifiedAbility (want : Want) (flag : String) : Option ℕ :=
  (s.specifiedAbilityMap.find? fun p =>
    flag = p.1.flag ∧ want.abilityName = p.1.abilityName ∧ want.bundleName = p.1.bundleName).map
      (·.2)

def setWant (want : Want) : SessionAbilities :=
  s.modifyRecord r fun a => { a with want := a.setWant want, isNewWant := true }

end SessionAbilities

/-- A `PendingSessionActivation` the scene board has not answered, numbered as they were
sent; `isQueued` is whether an entry was put into the queue for it. -/
structure Activation where
  id : ℕ
  persistentId : ℤ
  isQueued : Bool

structure QueuedInfo where
  info : SpecifiedInfo
  activation : Option ℕ
  deriving DecidableEq

structure Taken where
  entry : QueuedInfo
  activation : ℕ
  record : ℕ

/-- The manager, with the activations under way. `issued` counts them; `pushed` and `taken`
keep what went into the queue and what came out. -/
structure UIAbilityLifecycleManager where
  sessions : SessionAbilities := {}
  rootSceneSession : Bool := false
  specifiedRequestId : ℕ := 0
  specifiedRequestMap : SortedMap ℕ AbilityRequest := SortedMap.empty
  specifiedInfoQueue : List QueuedInfo := []
  activations : List Activation := []
  issued : ℕ := 0
  pushed : List QueuedInfo := []
  taken : List Taken := []

inductive Op
  | setRootSceneSession
  | notifySCBToStartUIAbility (request : AbilityRequest) (persistentId : ℤ)
  | startSpecifiedAbilityBySCB (request : AbilityRequest)
  | onAcceptWantResponse (want : Want) (flag : String) (requestId pick : ℕ)
  | onStartSpecifiedAbilityTimeoutResponse (requestId : ℕ)
  | notifySCBPendingActivation (callerToken : Option ℕ) (persistentId : ℤ)
  | startUIAbility (call : StartCall)
  | minimizeUIAbility (r : ℕ)
  | closeUIAbility (r : ℕ) (isClearSession : Bool)
  | processDied (r : ℕ)
  | happen (r : ℕ) (k : Outstanding) (reply : Reply)

namespace UIAbilityLifecycleManager
variable (m : UIAbilityLifecycleManager)

def canSend (callerToken : Option ℕ) : Bool :=
  callerToken.any m.sessions.isFound || m.rootSceneSession

def sendSessionInfoToSCB (callerToken : Option ℕ) (persistentId : ℤ) (isQueued : Bool) :
    UIAbilityLifecycleManager :=
  if m.canSend callerToken then
    { m with activations := m.activations ++ [⟨m.issued, persistentId, isQueued⟩]
             issued := m.issued + 1 }
  else m

variable (request : AbilityRequest) (flag : String)

def startAbilityBySpecifed : UIAbilityLifecycleManager :=
  let info : SpecifiedInfo :=
    ⟨request.abilityInfo.name, request.abilityInfo.bundleName, request.specifiedFlag⟩
  let entry : QueuedInfo :=
    ⟨info, if m.canSend request.callerToken then some m.issued else none⟩
  { m with specifiedInfoQueue := m.specifiedInfoQueue ++ [entry]
           pushed := m.pushed ++ [entry] }.sendSessionInfoToSCB request.callerToken 0 true

def moveAbilityToFront (r : ℕ) : UIAbilityLifecycleManager :=
  m.sendSessionInfoToSCB request.callerToken (m.sessions.record r).persistentId false

def addSpecifiedRequest : UIAbilityLifecycleManager :=
  { m with specifiedRequestMap := m.specifiedRequestMap.emplace m.specifiedRequestId request
           specifiedRequestId := m.specifiedRequestId + 1 }

/-- A start that is not specified goes to the scene board at once, with the id of the session
it takes up (`GetPersistentIdByAbilityRequest`). -/
def notifySCBToStartUIAbility (persistentId : ℤ) : UIAbilityLifecycleManager :=
  if request.abilityInfo.launchMode = .specified then m.addSpecifiedRequest request
  else m.sendSessionInfoToSCB request.callerToken persistentId false

def flagged : AbilityRequest :=
  if flag = "" then request else { request with specifiedFlag := flag }

def reusedPersistentId (pick : ℕ) : ℤ :=
  if flag = "" then 0
  else m.sessions.getReusedSpecifiedPersistentId (flagged request flag) pick

def reusedAbility (want : Want) (request : AbilityRequest) (flag : String) (pick : ℕ) :
    Option ℕ :=
  if m.reusedPersistentId request flag pick = 0 then none
  else m.sessions.getReusedSpecifiedAbility want flag

def answerRequest (want : Want) (request : AbilityRequest) (flag : String) (pick : ℕ) :
    UIAbilityLifecycleManager :=
  if request.abilityInfo.launchMode ≠ .specified then m
  else if m.reusedPersistentId request flag pick = 0 then
    m.startAbilityBySpecifed (flagged request flag)
  else
    match m.reusedAbility want request flag pick with
    | none => m
    | some r =>
      { m with sessions := m.sessions.setWant r request.want }.moveAbilityToFront request r

def onAcceptWantResponse (want : Want) (flag : String) (requestId pick : ℕ) :
    UIAbilityLifecycleManager :=
  match m.specifiedRequestMap.find? requestId with
  | none => m
  | some request =>
    { m with specifiedRequestMap := m.specifiedRequestMap.erase requestId }.answerRequest want
      request flag pick

def checkSpecified (call : StartCall) (activation r : ℕ) : UIAbilityLifecycleManager :=
  if call.request.abilityInfo.launchMode = .specified then
    match m.specifiedInfoQueue with
    | [] => m
    | entry :: rest =>
      { m with
        specifiedInfoQueue := rest
        sessions := m.sessions.setSpecified call entry.info r
        taken := m.taken ++ [⟨entry, activation, r⟩] }
  else m

def sessionFor (a : Activation) (call : StartCall) : ℤ :=
  if a.persistentId = 0 then call.newPersistentId else a.persistentId

def startUIAbility (call : StartCall) : UIAbilityLifecycleManager :=
  match m.activations with
  | [] => m
  | a :: rest =>
    if !call.isValidSession then { m with activations := rest }
    else
      let started := m.sessions.startUIAbility call (sessionFor a call)
      match started.2 with
      | none => { m with activations := rest, sessions := started.1 }
      | some r =>
        { m with activations := rest, sessions := started.1 }.checkSpecified call a.id r

def step : Op → UIAbilityLifecycleManager
  | .setRootSceneSession => { m with rootSceneSession := true }
  | .notifySCBToStartUIAbility request persistentId =>
    m.notifySCBToStartUIAbility request persistentId
  | .startSpecifiedAbilityBySCB request => m.addSpecifiedRequest request
  | .onAcceptWantResponse want flag requestId pick =>
    m.onAcceptWantResponse want flag requestId pick
  | .onStartSpecifiedAbilityTimeoutResponse requestId =>
    { m with specifiedRequestMap := m.specifiedRequestMap.erase requestId }
  | .notifySCBPendingActivation callerToken persistentId =>
    m.sendSessionInfoToSCB callerToken persistentId false
  | .startUIAbility call => m.startUIAbility call
  | .minimizeUIAbility r =>
    { m with sessions := m.sessions.modifyRecord r (·.minimizeUIAbility) }
  | .closeUIAbility r isClearSession =>
    { m with sessions := m.sessions.closeUIAbility r isClearSession }
  | .processDied r => { m with sessions := m.sessions.modifyRecord r (·.onProcessDied) }
  | .happen r k reply => { m with sessions := m.sessions.happen r k reply }

def run (ops : List Op) : UIAbilityLifecycleManager := ops.foldl step {}

def specifiedStart (requestId : ℕ) : List Op :=
  [.notifySCBToStartUIAbility request 0, .onAcceptWantResponse request.want flag requestId 0]

def comesToForeground (r : ℕ) : List Op :=
  [.happen r .load {}, .happen r .moveToForeground {}, .happen r .foregroundNew {},
    .happen r .completeForegroundSuccess {}]

def editor : AbilityRequest where
  abilityInfo := ⟨"com.example.notes", "entry", "Editor", .specified⟩
  want := { bundleName := "com.example.notes", abilityName := "Editor" }

def notes : AbilityRequest where
  abilityInfo := ⟨"com.example.notes", "entry", "Notes", .singleton⟩
  want := { bundleName := "com.example.notes", abilityName := "Notes" }

def notesStarted : List Op :=
  [.setRootSceneSession, .notifySCBToStartUIAbility notes 0,
    .startUIAbility { request := notes, newPersistentId := 1 }]

end UIAbilityLifecycleManager

end AbilityRuntime.SceneBoard
