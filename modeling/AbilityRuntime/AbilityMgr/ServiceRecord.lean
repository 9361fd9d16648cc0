import AbilityRuntime.AbilityMgr.AbilityCacheManager
import AbilityRuntime.AbilityMgr.MissionList

/-! The records of service and extension abilities and of the connections to them, known by the
numbers they were made under. -/

namespace AbilityRuntime

abbrev ServiceRef := ℕ
abbrev ConnectionRef := ℕ
abbrev CallbackRef := ℕ

structure ElementName where
  deviceId : String
  bundleName : String
  moduleName : String
  abilityName : String

def ElementName.getURI (e : ElementName) : String :=
  e.deviceId ++ "/" ++ e.bundleName ++ "/" ++ e.moduleName ++ "/" ++ e.abilityName

structure Want where
  element : ElementName
  dlpIndex : ℤ := 0
  appCloneIndex : ℤ := 0
  frsAppIndex : ℤ := 0
  assertFaultSessionId : String := ""
  isPreloadUIExtension : Bool := false

/-- `StartupUtil::GetAppIndex`; the record keeps the index also when the check of it fails. -/
def Want.getAppIndex (want : Want) : ℤ :=
  if want.dlpIndex = 0 then want.appCloneIndex else want.dlpIndex

inductive ExtensionAbilityType
  | service | uiService | window | workScheduler | backup | form | datashare | other
  | share | action | embeddedUI | insightIntentUI | autoFillPassword | ui
  | syspickerMediacontrol | sysdialogUserauth | sysdialogCommon | sysdialogAtomicservicepanel
  | sysdialogPower | syspickerShare | hmsAccount | ads | voip | statusBarView
  | sysdialogMeetimecall | sysdialogMeetimecontact | sysdialogMeetimemessage | sysdialogPrint
  | syspickerMeetimecontact | syspickerMeetimecalllog | syspickerPhotopicker | sysCommonUI
  | syspickerNavigation | syspickerAppselector | syspickerCamera | syspickerFilepicker
  | autoFillSmart | liveviewLockscreen | syspickerPhotoeditor | photoEditor
  | syspickerAudiopicker | sysVisual
  deriving DecidableEq

namespace ExtensionAbilityType

/-- The set of `GetUiExtensionSet` is given by the types that are not in it. -/
def isUIExtension : ExtensionAbilityType → Bool
  | service | uiService | window | workScheduler | backup | form | datashare | other => false
  | _ => true

def isWindowExtension (type : ExtensionAbilityType) : Bool := type = window

def isSupportAppClone (type : ExtensionAbilityType) : Bool :=
  type = workScheduler ∨ type = backup ∨ type = share

end ExtensionAbilityType

inductive AbilityType
  | unknown | page | service | data | form | extension
  deriving DecidableEq

structure AbilityInfo where
  deviceId : String
  bundleName : String
  moduleName : String
  name : String
  type : AbilityType
  extensionAbilityType : ExtensionAbilityType
  extensionTypeName : String
  deriving DecidableEq

namespace AbilityInfo

variable (info : AbilityInfo)

def element (bundleName : String) : ElementName :=
  ⟨info.deviceId, bundleName, info.moduleName, info.name⟩

def isSceneBoard : Bool :=
  info.name = "com.ohos.sceneboard.MainAbility" ∧ info.bundleName = "com.ohos.sceneboard"

def isLauncher : Bool :=
  info.name = "com.ohos.launcher.MainAbility" ∧ info.bundleName = "com.ohos.launcher"

def isSystemUI : Bool :=
  info.name = "com.ohos.systemui.ServiceExtAbility" ∧ info.bundleName = "com.ohos.systemui"

def isSpecialAbility : Bool :=
  info.isSceneBoard ∨ info.isSystemUI ∨ info.isLauncher

def isFormRender : Bool := info.bundleName = "com.ohos.formrenderservice"

end AbilityInfo

structure ServiceRequest where
  want : Want
  abilityInfo : AbilityInfo
  accessTokenId : AccessTokenId

namespace ServiceRequest

variable (request : ServiceRequest)

def generateBundleName : String :=
  if request.abilityInfo.extensionAbilityType.isSupportAppClone ∧ 0 < request.want.appCloneIndex
  then toString request.want.appCloneIndex ++ request.abilityInfo.bundleName
  else request.abilityInfo.bundleName

/-- The key under which `GetOrCreateServiceRecord` and `StopServiceAbilityLocked` look. -/
def serviceKey : String :=
  let uri := (request.abilityInfo.element request.generateBundleName).getURI
  if request.abilityInfo.isFormRender then uri ++ toString request.want.frsAppIndex else uri

def cacheRequest : CacheRequest :=
  ⟨request.accessTokenId, request.abilityInfo.moduleName, request.want.element.abilityName⟩

end ServiceRequest

structure ServiceRecord where
  want : Want
  abilityInfo : AbilityInfo
  accessTokenId : AccessTokenId
  appIndex : ℤ
  uri : String := ""
  uiExtensionAbilityId : ℕ := 0
  currentState : AbilityState := .initial
  startId : ℕ := 0
  isCreateByConnect : Bool := false
  connRemoteObject : Bool := false
  connectWant : Option Want := none
  connRecordList : List ConnectionRef := []

namespace ServiceRecord

def createAbilityRecord (request : ServiceRequest) : ServiceRecord where
  want := request.want
  abilityInfo := request.abilityInfo
  accessTokenId := request.accessTokenId
  appIndex := request.want.getAppIndex

def getURI (r : ServiceRecord) : String :=
  if r.uri.isEmpty then
    (r.abilityInfo.element
      (if r.abilityInfo.extensionAbilityType.isSupportAppClone ∧ 0 < r.appIndex
        then toString r.appIndex ++ r.abilityInfo.bundleName
        else r.abilityInfo.bundleName)).getURI
  else r.uri

variable (r : ServiceRecord)

/-- The key that `MoveToTerminatingMap` and `TerminateOrCacheAbility` erase. -/
def terminatingKey : String :=
  if r.abilityInfo.isFormRender then
    (r.abilityInfo.element r.abilityInfo.bundleName).getURI ++ toString r.want.frsAppIndex
  else r.getURI

/-- The key under which `ProcessEliminateAbilityRecord` puts a record back. -/
def eliminateKey : String :=
  if r.abilityInfo.isFormRender then r.getURI ++ toString r.want.frsAppIndex else r.getURI

def isUIExtensionAbility : Bool :=
  r.abilityInfo.extensionAbilityType.isUIExtension

def isUIService : Bool := r.abilityInfo.extensionAbilityType = .uiService

def isForeground : Bool :=
  r.currentState = .foreground ∨ r.currentState = .foregrounding

def recordInfo : RecordInfo :=
  ⟨r.abilityInfo.moduleName, r.want.element.abilityName⟩

def addConnectRecordToList (c : ConnectionRef) : ServiceRecord :=
  if c ∈ r.connRecordList then r else { r with connRecordList := r.connRecordList ++ [c] }

def removeConnectRecordFromList (c : ConnectionRef) : ServiceRecord :=
  { r with connRecordList := r.connRecordList.filter (· ≠ c) }

end ServiceRecord

inductive ConnectionState
  | init | connecting | connected | disconnecting | disconnected
  deriving DecidableEq

/-- What a connection record does that others see: its states, the calls of its callback and the
calls of the connection state manager. -/
inductive ConnectEvent
  | setConnectState (state : ConnectionState)
  | onAbilityConnectDone
  | onAbilityDisconnectDone
  | addConnection
  | removeConnection (isCallerDied : Bool)
  deriving DecidableEq

/-- Where a posted `CompleteConnect` stands that has begun: next are `SetAbilityState` and the reads
of the remote object and the callback, then what it does with these, then `AddConnection`. -/
inductive CompleteStage
  | idle
  | active
  | connectDone (remoteObject connCallback : Bool)
  | addConnection
  deriving DecidableEq

structure ConnectionRecord where
  targetService : ServiceRef
  callback : CallbackRef
  callerTokenId : ℕ
  state : ConnectionState := .init
  /-- Whether the callback is still set; it is cleared when its process has died. -/
  connCallback : Bool := true
  events : List ConnectEvent := []
  completing : CompleteStage := .idle

namespace ConnectionRecord

def setConnectState (c : ConnectionRecord) (state : ConnectionState) : ConnectionRecord :=
  { c with state := state, events := c.events ++ [.setConnectState state] }

variable (c : ConnectionRecord) (event : ConnectEvent)

def emit : ConnectionRecord :=
  { c with events := c.events ++ [event] }

def emitToCallback : ConnectionRecord :=
  if c.connCallback then c.emit event else c

/-- `CompleteConnect(ERR_OK)`, where `remoteObject` tells whether the target has given one. The
task that is posted when it has not is one of the disconnect done events. -/
def completeConnect (remoteObject : Bool) : ConnectionRecord :=
  let c := c.setConnectState .connected
  if remoteObject then (c.emitToCallback .onAbilityConnectDone).emit .addConnection
  else c.setConnectState .disconnecting

def completeNext (remoteObject : Bool) : ConnectionRecord :=
  match c.completing with
  | .idle => { c.setConnectState .connected with completing := .active }
  | .active => { c with completing := .connectDone remoteObject c.connCallback }
  | .connectDone false _ => { c.setConnectState .disconnecting with completing := .idle }
  | .connectDone true false => { c with completing := .addConnection }
  | .connectDone true true => { c.emit .onAbilityConnectDone with completing := .addConnection }
  | .addConnection => { c.emit .addConnection with completing := .idle }

def completeDisconnect (isCallerDied : Bool) : ConnectionRecord :=
  ((c.setConnectState .disconnected).emitToCallback .onAbilityDisconnectDone).emit
    (.removeConnection isCallerDied)

lemma emitToCallback_ends : (c.emitToCallback event).targetService = c.targetService ∧
    (c.emitToCallback event).callback = c.callback ∧
    (c.emitToCallback event).state = c.state := by
  unfold emitToCallback
  split <;> exact ⟨rfl, rfl, rfl⟩

lemma completeDisconnect_ends (isCallerDied : Bool) :
    (c.completeDisconnect isCallerDied).targetService = c.targetService ∧
    (c.completeDisconnect isCallerDied).callback = c.callback ∧
    (c.completeDisconnect isCallerDied).state = .disconnected :=
  emitToCallback_ends (c.setConnectState .disconnected) .onAbilityDisconnectDone

lemma completeConnect_ends (remoteObject : Bool) :
    (c.completeConnect remoteObject).targetService = c.targetService ∧
    (c.completeConnect remoteObject).callback = c.callback ∧
    (c.completeConnect remoteObject).state =
      if remoteObject then .connected else .disconnecting := by
  cases remoteObject with
  | true => exact emitToCallback_ends (c.setConnectState .connected) .onAbilityConnectDone
  | false => exact ⟨rfl, rfl, rfl⟩

lemma completeNext_ends (remoteObject : Bool) :
    (c.completeNext remoteObject).targetService = c.targetService ∧
    (c.completeNext remoteObject).callback = c.callback ∧
    (c.state ≠ .disconnected → (c.completeNext remoteObject).state ≠ .disconnected) := by
  unfold completeNext
  split
  · exact ⟨rfl, rfl, fun _ => nofun⟩
  · exact ⟨rfl, rfl, id⟩
  · exact ⟨rfl, rfl, fun _ => nofun⟩
  all_goals exact ⟨rfl, rfl, id⟩

end ConnectionRecord
end AbilityRuntime
