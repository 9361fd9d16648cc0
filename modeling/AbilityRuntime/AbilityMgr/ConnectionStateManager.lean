import AbilityRuntime.Library.ChangeLog
import AbilityRuntime.AbilityMgr.ServiceRecord

/-! The connection state manager tells its observers when a process is first connected to a target
and when it is last disconnected. A call under `stateLock_` and what it tells are one step. The
tokens of extensions and of data abilities are different objects. -/

namespace AbilityRuntime
open ChangeLog

inductive ConnectedTarget
  | extension (token : ℕ)
  | dataAbility (token : ℕ)
  deriving DecidableEq

structure TargetAbility where
  pid : ℤ
  uid : ℤ
  abilityInfo : AbilityInfo

structure ExtensionInfo where
  extensionPid : ℤ
  extensionUid : ℤ
  extensionBundleName : String
  extensionModuleName : String
  extensionName : String
  extensionType : ExtensionAbilityType

structure ConnectionData extends ExtensionInfo where
  callerUid : ℤ
  callerPid : ℤ
  callerName : String

namespace TargetAbility

def generateExtensionInfo (target : TargetAbility) (type : ExtensionAbilityType) :
    ExtensionInfo where
  extensionPid := target.pid
  extensionUid := target.uid
  extensionBundleName := target.abilityInfo.bundleName
  extensionModuleName := target.abilityInfo.moduleName
  extensionName := target.abilityInfo.name
  extensionType := type

def extensionType (target : TargetAbility) : ExtensionAbilityType :=
  match target.abilityInfo.type with
  | .service => .service
  | .data => .datashare
  | _ => target.abilityInfo.extensionAbilityType

end TargetAbility

/-- What is read from a `ConnectionRecord`; the callback is gone when it was cleared. -/
structure ConnectionView where
  callerUid : ℤ
  callerPid : ℤ
  callerName : String
  abilityRecord : Option TargetAbility
  targetToken : Option ℕ
  connection : Option ℕ

structure DataAbilityCaller where
  isNotHap : Bool
  callerPid : ℤ
  callerUid : ℤ
  callerName : String
  callerToken : Option ℕ

structure DataAbilityView where
  abilityRecord : Option TargetAbility
  token : Option ℕ

structure ConnectedExtension where
  info : ExtensionInfo
  connections : List ℕ

namespace ConnectedExtension

def create (target : TargetAbility) : ConnectedExtension :=
  ⟨target.generateExtensionInfo target.extensionType, []⟩

def addConnection (e : ConnectedExtension) (connection : ℕ) : Bool × ConnectedExtension :=
  (e.connections.isEmpty, { e with
    connections :=
      if connection ∈ e.connections then e.connections else e.connections ++ [connection] })

def removeConnection (e : ConnectedExtension) (connection : ℕ) : Bool × ConnectedExtension :=
  let connections := e.connections.filter (· ≠ connection)
  (connections.isEmpty, { e with connections := connections })

end ConnectedExtension

structure CallerInfo where
  isNotHap : Bool
  callerPid : ℤ
  callerToken : Option ℕ

def CallerInfo.isOf (info : CallerInfo) (caller : DataAbilityCaller) : Bool :=
  if caller.isNotHap then info.isNotHap ∧ info.callerPid = caller.callerPid
  else info.callerToken = caller.callerToken

structure ConnectedDataAbility where
  info : ExtensionInfo
  callers : List CallerInfo

def DataAbilityCaller.isKnown (caller : DataAbilityCaller) : Bool :=
  caller.isNotHap || caller.callerToken.isSome

namespace ConnectedDataAbility

def create (target : TargetAbility) : ConnectedDataAbility :=
  ⟨target.generateExtensionInfo .datashare, []⟩

def addCaller (d : ConnectedDataAbility) (caller : DataAbilityCaller) :
    Bool × ConnectedDataAbility :=
  if !caller.isKnown then (false, d)
  else (d.callers.isEmpty, { d with
    callers :=
      if d.callers.any (·.isOf caller) then d.callers
      else d.callers ++ [⟨caller.isNotHap, caller.callerPid, caller.callerToken⟩] })

def removeCaller (d : ConnectedDataAbility) (caller : DataAbilityCaller) :
    Bool × ConnectedDataAbility :=
  if !caller.isKnown then (false, d)
  else
    let callers := d.callers.eraseP (·.isOf caller)
    (callers.isEmpty, { d with callers := callers })

end ConnectedDataAbility

structure ConnectionStateItem where
  callerUid : ℤ
  callerPid : ℤ
  callerName : String
  connectionMap : SortedMap ℕ ConnectedExtension
  dataAbilityMap : SortedMap ℕ ConnectedDataAbility

namespace ConnectionStateItem

def createConnectionStateItem (callerUid callerPid : ℤ) (callerName : String) :
    ConnectionStateItem :=
  ⟨callerUid, callerPid, callerName, SortedMap.empty, SortedMap.empty⟩

variable (item : ConnectionStateItem)

def generateConnectionData (info : ExtensionInfo) : ConnectionData where
  toExtensionInfo := info
  callerUid := item.callerUid
  callerPid := item.callerPid
  callerName := item.callerName

def addConnection (item : ConnectionStateItem) (record : ConnectionView) :
    Option (ConnectedTarget × ConnectionData) × ConnectionStateItem :=
  match record.targetToken, record.connection with
  | some token, some connection =>
    match (item.connectionMap.find? token).or
        (record.abilityRecord.map ConnectedExtension.create) with
    | none => (none, item)
    | some connectedExtension =>
      let (needNotify, added) := connectedExtension.addConnection connection
      let item := { item with connectionMap := item.connectionMap.assign token added }
      (if needNotify then some (.extension token, item.generateConnectionData added.info) else none,
        item)
  | _, _ => (none, item)

def removeConnection (item : ConnectionStateItem) (record : ConnectionView) :
    Option (ConnectedTarget × ConnectionData) × ConnectionStateItem :=
  match record.targetToken, record.connection with
  | some token, some connection =>
    match item.connectionMap.find? token with
    | none => (none, item)
    | some connectedExtension =>
      let (needNotify, rest) := connectedExtension.removeConnection connection
      if needNotify then
        (some (.extension token, item.generateConnectionData rest.info),
          { item with connectionMap := item.connectionMap.erase token })
      else (none, { item with connectionMap := item.connectionMap.assign token rest })
  | _, _ => (none, item)

/-- The entry of a data ability is made before the caller is looked at. -/
def addDataAbilityConnection (caller : DataAbilityCaller) (dataAbility : DataAbilityView) :
    Option (ConnectedTarget × ConnectionData) × ConnectionStateItem :=
  match dataAbility.token with
  | none => (none, item)
  | some token =>
    match (item.dataAbilityMap.find? token).or
        (dataAbility.abilityRecord.map ConnectedDataAbility.create) with
    | none => (none, item)
    | some connectedAbility =>
      let (needNotify, added) := connectedAbility.addCaller caller
      let item := { item with dataAbilityMap := item.dataAbilityMap.assign token added }
      (if needNotify then some (.dataAbility token, item.generateConnectionData added.info)
        else none, item)

def removeDataAbilityConnection (caller : DataAbilityCaller) (dataAbility : DataAbilityView) :
    Option (ConnectedTarget × ConnectionData) × ConnectionStateItem :=
  match dataAbility.token with
  | none => (none, item)
  | some token =>
    match item.dataAbilityMap.find? token with
    | none => (none, item)
    | some connectedAbility =>
      let (needNotify, rest) := connectedAbility.removeCaller caller
      if needNotify then
        (some (.dataAbility token, item.generateConnectionData rest.info),
          { item with dataAbilityMap := item.dataAbilityMap.erase token })
      else (none, { item with dataAbilityMap := item.dataAbilityMap.assign token rest })

def handleDataAbilityDied (token : ℕ) :
    Option (ConnectedTarget × ConnectionData) × ConnectionStateItem :=
  match item.dataAbilityMap.find? token with
  | none => (none, item)
  | some connectedAbility =>
    (some (.dataAbility token, item.generateConnectionData connectedAbility.info),
      { item with dataAbilityMap := item.dataAbilityMap.erase token })

def isEmpty (item : ConnectionStateItem) : Bool :=
  item.connectionMap.entries.isEmpty && item.dataAbilityMap.entries.isEmpty

def afterDataAbilityDied (token : ℕ) : Option ConnectionStateItem :=
  let item := (item.handleDataAbilityDied token).2
  if item.isEmpty then none else some item

def allTargets : List (ConnectedTarget × ConnectionData) :=
  item.connectionMap.entries.map
      (fun e => (.extension e.1, item.generateConnectionData e.2.info)) ++
    item.dataAbilityMap.entries.map
      fun e => (.dataAbility e.1, item.generateConnectionData e.2.info)

def generateAllConnectionData : List ConnectionData :=
  item.allTargets.map Prod.snd

end ConnectionStateItem

/-- `notifications` are the calls of `NotifyExtensionConnected` and, where nothing was added, of
`NotifyExtensionDisconnected`, each with the caller's pid in its data and the target it is about. -/
structure ConnectionStateManager where
  observerController : Bool
  connectionStates : SortedMap ℤ ConnectionStateItem
  notifications : List (Change (ℤ × ConnectedTarget) ConnectionData)

namespace ConnectionStateManager

variable (s : ConnectionStateManager)

def notify (added : Bool)
    (data : List (ConnectedTarget × ConnectionData)) : ConnectionStateManager :=
  { s with
    notifications := s.notifications ++ data.map fun p => ⟨(p.2.callerPid, p.1), p.2, added⟩ }

variable (record : ConnectionView)

def addConnectionInner : Option (ConnectedTarget × ConnectionData) × ConnectionStateManager :=
  let item := (s.connectionStates.find? record.callerPid).getD
    (.createConnectionStateItem record.callerUid record.callerPid record.callerName)
  let (data, item) := item.addConnection record
  (data, { s with connectionStates := s.connectionStates.assign record.callerPid item })

def addConnection : ConnectionStateManager :=
  if !s.observerController then s
  else
    let (data, s) := s.addConnectionInner record
    s.notify true data.toList

def updateItem (callerPid : ℤ)
    (remove : ConnectionStateItem →
      Option (ConnectedTarget × ConnectionData) × ConnectionStateItem) :
    Option (ConnectedTarget × ConnectionData) × ConnectionStateManager :=
  match s.connectionStates.find? callerPid with
  | none => (none, s)
  | some targetItem =>
    let (data, item) := remove targetItem
    if data.isSome && item.isEmpty then
      (data, { s with connectionStates := s.connectionStates.erase callerPid })
    else (data, { s with connectionStates := s.connectionStates.assign callerPid item })

def removeConnectionInner : Option (ConnectedTarget × ConnectionData) × ConnectionStateManager :=
  s.updateItem record.callerPid (·.removeConnection record)

def handleCallerDied (callerPid : ℤ) : ConnectionStateManager :=
  match s.connectionStates.find? callerPid with
  | none => s
  | some item =>
    let s := { s with connectionStates := s.connectionStates.erase callerPid }
    if s.observerController then s.notify false item.allTargets else s

def removeConnection (isCallerDied : Bool) : ConnectionStateManager :=
  if !s.observerController then s
  else if isCallerDied then s.handleCallerDied record.callerPid
  else
    let (data, s) := s.removeConnectionInner record
    s.notify false data.toList

variable (caller : DataAbilityCaller)

def checkDataAbilityConnectionParams : Bool :=
  s.observerController && caller.callerPid ≠ 0

def addDataAbilityConnectionInner (record : DataAbilityView) :
    Option (ConnectedTarget × ConnectionData) × ConnectionStateManager :=
  let item := (s.connectionStates.find? caller.callerPid).getD
    (.createConnectionStateItem caller.callerUid caller.callerPid caller.callerName)
  let (data, item) := item.addDataAbilityConnection caller record
  (data, { s with connectionStates := s.connectionStates.assign caller.callerPid item })

def addDataAbilityConnection (record : DataAbilityView) : ConnectionStateManager :=
  if !s.checkDataAbilityConnectionParams caller then s
  else
    let (data, s) := s.addDataAbilityConnectionInner caller record
    s.notify true data.toList

def removeDataAbilityConnection (s : ConnectionStateManager) (caller : DataAbilityCaller)
    (record : DataAbilityView) : ConnectionStateManager :=
  if !s.checkDataAbilityConnectionParams caller then s
  else
    let (data, s) := s.updateItem caller.callerPid (·.removeDataAbilityConnection caller record)
    s.notify false data.toList

def handleDataAbilityDied (s : ConnectionStateManager) (record : DataAbilityView) :
    ConnectionStateManager :=
  match record.token with
  | none => s
  | some token =>
    let allData := s.connectionStates.entries.flatMap fun e =>
      (e.2.handleDataAbilityDied token).1.toList
    let s := { s with
      connectionStates := s.connectionStates.traverse fun _ item =>
        item.afterDataAbilityDied token }
    if s.observerController then s.notify false allData else s

def handleDataAbilityCallerDied (callerPid : ℤ) : ConnectionStateManager :=
  if callerPid ≤ 0 then s else s.handleCallerDied callerPid

def getConnectionData : List ConnectionData :=
  s.connectionStates.entries.flatMap fun e => e.2.generateAllConnectionData

inductive Op
  | init
  | addConnection (record : ConnectionView)
  | removeConnection (record : ConnectionView) (isCallerDied : Bool)
  | addDataAbilityConnection (caller : DataAbilityCaller) (record : DataAbilityView)
  | removeDataAbilityConnection (caller : DataAbilityCaller) (record : DataAbilityView)
  | handleDataAbilityDied (record : DataAbilityView)
  | handleDataAbilityCallerDied (callerPid : ℤ)
  | handleAppDied (pid : ℤ)

def step : Op → ConnectionStateManager
  | .init => { s with observerController := true }
  | .addConnection record => s.addConnection record
  | .removeConnection record isCallerDied => s.removeConnection record isCallerDied
  | .addDataAbilityConnection caller record => s.addDataAbilityConnection caller record
  | .removeDataAbilityConnection caller record => s.removeDataAbilityConnection caller record
  | .handleDataAbilityDied record => s.handleDataAbilityDied record
  | .handleDataAbilityCallerDied callerPid => s.handleDataAbilityCallerDied callerPid
  | .handleAppDied pid => s.handleCallerDied pid

def empty : ConnectionStateManager := ⟨false, SortedMap.empty, []⟩

end ConnectionStateManager
end AbilityRuntime
