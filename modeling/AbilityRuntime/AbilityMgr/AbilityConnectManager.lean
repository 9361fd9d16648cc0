import AbilityRuntime.AbilityMgr.ServiceRecord

/-! The manager of service and extension abilities, with every record that was ever made. An
operation is what runs under `serialMutex_`; a posted `CompleteConnect` runs without it and is an
operation for each of its stages, and of `TerminateFrozen` and the first half of
`CloseAssertDialog`, which do not take it either, the operation is the whole. What other components
answer is an argument. A restart is a start request of its own; a cancelled task still counts as
one that may run. At the end stand the crashes of the scene board that `KeepAbilityAlive` counts. -/

namespace AbilityRuntime
open List

inductive ExtensionAnswer
  | fail
  | reuse (r : ServiceRef)
  | create

/-- What a start or a connect reads from other components. `windowReady` is
`IsReady() && IsAbilityWindowReady()`, `reported` that `ReportXiaoYiToRSSIfNeeded` returned
`ERR_OK`. -/
structure ServiceEnv where
  extensionRecord : ExtensionAnswer := .create
  windowReady : Bool := true
  reported : Bool := true
  addDeathRecipient : Bool := true

/-- A request that was put aside, with the record it was put aside for. The ticket numbers the
requests in the order in which they were put aside. -/
structure QueuedRequest where
  ticket : ℕ
  target : ServiceRef
  request : ServiceRequest

/-- The history of the queued starts. A completion is recorded with the record that it is for. -/
inductive QueueEvent
  | enqueued (ticket : ℕ) (target : ServiceRef)
  | restarted (ticket : ℕ)
  | timedOut (ticket : ℕ)
  | completed (target : ServiceRef)
  deriving DecidableEq

structure ConnectConfig where
  cacheExtensionTypeList : List ExtensionAbilityType
  /-- `GetExtensionAutoDisconnectTime`, where -1 is `AUTO_DISCONNECT_INFINITY`. -/
  extensionAutoDisconnectTime : String → ℤ
  selfTokenId : ℕ

inductive ConnectResult
  | ok
  | connectionNotExist
  | invalidConnectionState
  deriving DecidableEq

structure AbilityConnectManager where
  config : ConnectConfig
  records : ServiceRef → ServiceRecord
  nextRecord : ServiceRef
  connections : ConnectionRef → ConnectionRecord
  nextConnection : ConnectionRef
  serviceMap : SortedMap String ServiceRef
  terminatingExtensionList : List ServiceRef
  abilityCache : AbilityCacheManager ServiceRef
  connectMap : SortedMap CallbackRef (List ConnectionRef)
  recipientMap : SortedMap CallbackRef Unit
  startServiceReqList : SortedMap String (List QueuedRequest)
  nextTicket : ℕ
  queueLog : List QueueEvent
  /-- Posted `CompleteConnect` tasks, by the connection each of them holds. -/
  completeConnectTasks : List ConnectionRef
  delayDisconnectTasks : List ConnectionRef
  /-- Connect timeouts that have read the connect list and not yet taken the lock. -/
  connectTimeouts : List (ServiceRef × List ConnectionRef)
  /-- Died callbacks whose records have been told and not yet disconnected. -/
  diedCallbacks : List CallbackRef

namespace AbilityConnectManager

variable (s : AbilityConnectManager) (request : ServiceRequest) (r : ServiceRef)
  (envs : ℕ → ServiceEnv) (connect : CallbackRef) (c : ConnectionRef)

def modifyRecord (f : ServiceRecord → ServiceRecord) : AbilityConnectManager :=
  { s with records := Function.update s.records r (f (s.records r)) }

def modifyConnection (f : ConnectionRecord → ConnectionRecord) : AbilityConnectManager :=
  { s with connections := Function.update s.connections c (f (s.connections c)) }

def setAbilityState (state : AbilityState) : AbilityConnectManager :=
  s.modifyRecord r fun x => { x with currentState := state }

def setWant (want : Want) : AbilityConnectManager :=
  s.modifyRecord r fun x => { x with want := want }

def isCacheExtensionType (type : ExtensionAbilityType) : Bool :=
  s.config.cacheExtensionTypeList.contains type

def tokenOf : AccessTokenId :=
  (s.records r).accessTokenId

def addToServiceMap (key : String) (r : ServiceRef) : AbilityConnectManager :=
  { s with serviceMap := s.serviceMap.emplace key r }

def eraseFromServiceMap (key : String) : AbilityConnectManager :=
  { s with serviceMap := s.serviceMap.erase key }

def inServiceMap : Bool :=
  s.serviceMap.entries.any fun e => e.2 = r

def inAbilityCache : Bool :=
  s.abilityCache.devRecLru.contains r

def inTerminatingMap : Bool :=
  s.terminatingExtensionList.contains r

def removeFromCache : AbilityConnectManager :=
  { s with abilityCache := s.abilityCache.remove s.tokenOf (some r) }

def moveToTerminatingMap : AbilityConnectManager :=
  let s := { s with terminatingExtensionList := s.terminatingExtensionList ++ [r] }
  (s.eraseFromServiceMap (s.records r).terminatingKey).removeFromCache r

def removeServiceAbility : AbilityConnectManager :=
  { s with terminatingExtensionList := s.terminatingExtensionList.filter (· ≠ r) }

def terminateRecord : AbilityConnectManager :=
  if s.inServiceMap r || s.inAbilityCache r then
    (s.moveToTerminatingMap r).setAbilityState r .terminating
  else s

def processEliminateAbilityRecord : AbilityConnectManager :=
  (s.addToServiceMap (s.records r).eliminateKey r).terminateRecord r

def putInCache : Option ServiceRef × AbilityConnectManager :=
  let (eliminated, cache) := s.abilityCache.put s.tokenOf (some r)
  (eliminated, { s with abilityCache := cache })

def terminateOrCacheAbility : AbilityConnectManager :=
  if (s.records r).abilityInfo.isSceneBoard then s
  else if s.isCacheExtensionType (s.records r).abilityInfo.extensionAbilityType then
    match (s.eraseFromServiceMap (s.records r).terminatingKey).putInCache r with
    | (none, s) => s
    | (some eliminated, s) => s.processEliminateAbilityRecord eliminated
  else s.terminateRecord r

def createRecord (record : ServiceRecord) : AbilityConnectManager :=
  { s with
    records := Function.update s.records s.nextRecord record
    nextRecord := s.nextRecord + 1 }

def getFromCache : Option ServiceRef × AbilityConnectManager :=
  let (found, cache) :=
    s.abilityCache.get request.cacheRequest fun r => (s.records r).recordInfo
  (found, { s with abilityCache := cache })

def findServiceRecord (useCache : Bool) : Option ServiceRef × AbilityConnectManager :=
  match s.serviceMap.find? request.serviceKey with
  | some r => (some r, s)
  | none =>
    if useCache then
      match s.getFromCache request with
      | (some r, s) => (some r, s.addToServiceMap request.serviceKey r)
      | (none, s) => (none, s)
    else (none, s)

variable (isCreatedByConnect : Bool)

def createServiceRecord : AbilityConnectManager :=
  (s.createRecord { ServiceRecord.createAbilityRecord request with
    isCreateByConnect := isCreatedByConnect }).addToServiceMap request.serviceKey s.nextRecord

def getOrCreateServiceRecord : (ServiceRef × Bool) × AbilityConnectManager :=
  let type := request.abilityInfo.extensionAbilityType
  match s.findServiceRecord request (s.isCacheExtensionType type) with
  | (some r, s) =>
    -- a window extension is never reused
    if type.isWindowExtension then
      let s := s.eraseFromServiceMap request.serviceKey
      ((s.nextRecord, false), s.createServiceRecord request isCreatedByConnect)
    else ((r, true), s)
  | (none, s) => ((s.nextRecord, false), s.createServiceRecord request isCreatedByConnect)

def extensionRecordKey (uiExtensionAbilityId : ℕ) : String :=
  (request.abilityInfo.element request.abilityInfo.bundleName).getURI ++
    toString uiExtensionAbilityId

def addExtensionRecord : AbilityConnectManager :=
  let key := extensionRecordKey request (s.records r).uiExtensionAbilityId
  (s.modifyRecord r fun x => { x with uri := key }).addToServiceMap key r

/-- The extension records are numbered from one, in the order of all records. -/
def createExtensionRecord : AbilityConnectManager :=
  s.createRecord { ServiceRecord.createAbilityRecord request with
    uiExtensionAbilityId := s.nextRecord + 1 }

def getOrCreateExtensionRecord :
    ExtensionAnswer → Option (ServiceRef × Bool) × AbilityConnectManager
  | .fail => (none, s)
  | .reuse r =>
    if r < s.nextRecord ∧ (s.records r).uiExtensionAbilityId ≠ 0 then
      let s := s.modifyRecord r fun x => { x with isCreateByConnect := isCreatedByConnect }
      (some (r, true), s.addExtensionRecord request r)
    else (none, s)
  | .create =>
    let r := s.nextRecord
    let s := (s.createExtensionRecord request).modifyRecord r fun x =>
      { x with isCreateByConnect := isCreatedByConnect }
    (some (r, false), s.addExtensionRecord request r)

def preloadUIExtensionAbility : AbilityConnectManager :=
  if request.abilityInfo.extensionAbilityType.isUIExtension then
    (s.createExtensionRecord request).addExtensionRecord request s.nextRecord
  else s

def logQueue (events : List QueueEvent) : AbilityConnectManager :=
  { s with queueLog := s.queueLog ++ events }

def enqueueStartServiceReq (target : ServiceRef) (abilityUri : String) : AbilityConnectManager :=
  let queued : QueuedRequest := ⟨s.nextTicket, target, request⟩
  let s := s.logQueue [.enqueued s.nextTicket target]
  { s with
    startServiceReqList := s.startServiceReqList.update abilityUri [] (· ++ [queued])
    nextTicket := s.nextTicket + 1 }

def commandAbility : AbilityConnectManager :=
  s.modifyRecord r fun x => { x with startId := x.startId + 1 }

def doForegroundUIExtension
    (request : ServiceRequest) (windowReady : Bool) : AbilityConnectManager :=
  let state := (s.records r).currentState
  if windowReady ∧ state ≠ .inactivating ∧ state ≠ .foregrounding ∧ state ≠ .backgrounding then
    s.setWant r request.want
  else s.enqueueStartServiceReq request r (s.records r).getURI

def startTarget (isLoadedAbility : Bool) (env : ServiceEnv) : AbilityConnectManager :=
  if !env.reported ∨ !isLoadedAbility then s
  else if (s.records r).currentState = .active ∧ !(s.records r).isUIExtensionAbility then
    (s.setWant r request.want).commandAbility r
  else if (s.records r).isUIExtensionAbility then
    s.doForegroundUIExtension r request env.windowReady
  else s.enqueueStartServiceReq request r request.want.element.getURI

def startAbilityLocked (env : ServiceEnv) : AbilityConnectManager :=
  if request.abilityInfo.extensionAbilityType.isUIExtension then
    match s.getOrCreateExtensionRecord request false env.extensionRecord with
    | (none, s) => s
    | (some (r, isLoadedAbility), s) => s.startTarget request r isLoadedAbility env
  else
    let ((r, isLoadedAbility), s) := s.getOrCreateServiceRecord request false
    s.startTarget request r isLoadedAbility env

def restartRequests (s : AbilityConnectManager) (envs : ℕ → ServiceEnv) :
    List QueuedRequest → AbilityConnectManager
  | [] => s
  | q :: rest =>
    restartRequests
      ((s.logQueue [.restarted q.ticket]).startAbilityLocked q.request (envs q.ticket)) envs rest

def completeStartServiceReq : AbilityConnectManager :=
  let serviceUri := (s.records r).getURI
  let s := s.logQueue [.completed r]
  match s.startServiceReqList.find? serviceUri with
  | none => s
  | some reqList =>
    restartRequests { s with startServiceReqList := s.startServiceReqList.erase serviceUri } envs
      reqList

def startServiceTimeout (abilityUri : String) : AbilityConnectManager :=
  match s.startServiceReqList.find? abilityUri with
  | none => s
  | some reqList =>
    let s := s.logQueue (reqList.map fun q => .timedOut q.ticket)
    { s with startServiceReqList := s.startServiceReqList.erase abilityUri }

def createConnectionRecord (targetService : ServiceRef)
    (connect : CallbackRef) (callerTokenId : ℕ) : AbilityConnectManager :=
  { s with
    connections := Function.update s.connections s.nextConnection
      (ConnectionRecord.setConnectState { targetService, callback := connect, callerTokenId }
        .connecting)
    nextConnection := s.nextConnection + 1 }

def addConnectDeathRecipient (added : Bool) : AbilityConnectManager :=
  if s.recipientMap.contains connect then s
  else if added then { s with recipientMap := s.recipientMap.emplace connect () }
  else s

def addConnectObjectToMap
    (connectRecordList : List ConnectionRef) (updateOnly added : Bool) : AbilityConnectManager :=
  let s := if updateOnly then s else s.addConnectDeathRecipient connect added
  { s with connectMap := s.connectMap.assign connect connectRecordList }

def getConnectRecordListFromMap : List ConnectionRef :=
  (s.connectMap.find? connect).getD []

def isAbilityConnected (connectRecordList : List ConnectionRef) : Bool :=
  connectRecordList.any fun c => (s.connections c).targetService = r

def handleActiveAbility : AbilityConnectManager :=
  if !(s.records r).isUIService ∧ 1 < (s.records r).connRecordList.length ∧
      (s.records r).connRemoteObject then
    { s with completeConnectTasks := s.completeConnectTasks ++ [c] }
  else s

def getOrCreateTargetServiceRecord (connectInfo : Bool) (env : ServiceEnv) :
    Option (ServiceRef × Bool) × AbilityConnectManager :=
  if request.abilityInfo.extensionAbilityType.isUIExtension ∧ connectInfo then
    s.getOrCreateExtensionRecord request true env.extensionRecord
  else
    let (target, s) := s.getOrCreateServiceRecord request true
    (some target, s)

def addConnection (callerTokenId : ℕ) (added : Bool) : AbilityConnectManager :=
  let connectRecordList := s.getConnectRecordListFromMap connect
  let c := s.nextConnection
  let s := s.createConnectionRecord r connect callerTokenId
  let s := s.modifyRecord r (·.addConnectRecordToList c)
  s.addConnectObjectToMap connect (connectRecordList ++ [c]) (!connectRecordList.isEmpty) added

def connectTarget (isLoadedAbility reported : Bool) : AbilityConnectManager :=
  if !reported ∨ !isLoadedAbility then s
  else if (s.records r).currentState = .active then
    (s.setWant r request.want).handleActiveAbility r c
  else s.modifyRecord r fun x => { x with connectWant := x.connectWant.or (some request.want) }

def connectAbilityLocked (callerTokenId : ℕ) (connectInfo : Bool) (env : ServiceEnv) :
    AbilityConnectManager :=
  match s.getOrCreateTargetServiceRecord request connectInfo env with
  | (none, s) => s
  | (some (r, isLoadedAbility), s) =>
    if isLoadedAbility ∧ s.isAbilityConnected r (s.getConnectRecordListFromMap connect) then s
    else (s.addConnection r connect callerTokenId env.addDeathRecipient).connectTarget request r
      s.nextConnection isLoadedAbility env.reported

def completeConnect (s : AbilityConnectManager) (c : ConnectionRef) : AbilityConnectManager :=
  let r := (s.connections c).targetService
  (s.modifyConnection c (·.completeConnect (s.records r).connRemoteObject)).setAbilityState r
    .active

def scheduleConnectAbilityDone : AbilityConnectManager :=
  if (s.connections c).state = .connecting then s.completeConnect c else s

/-- The delayed disconnect is posted for every record of the list, also for one that was connected
before. -/
def postExtensionDelayDisconnectTask : AbilityConnectManager :=
  let info := (s.records (s.connections c).targetService).abilityInfo
  if s.config.extensionAutoDisconnectTime info.extensionTypeName = -1 then s
  else { s with delayDisconnectTasks := s.delayDisconnectTasks ++ [c] }

def connectDoneOf (s : AbilityConnectManager) (c : ConnectionRef) : AbilityConnectManager :=
  let s := s.scheduleConnectAbilityDone c
  let info := (s.records r).abilityInfo
  if info.type = .extension ∧ info.extensionAbilityType ≠ .service then
    s.postExtensionDelayDisconnectTask c
  else s

def scheduleConnectAbilityDoneLocked
    (remoteObject : Bool) (envs : ℕ → ServiceEnv) : AbilityConnectManager :=
  if (s.records r).currentState = .inactive ∨ (s.records r).currentState = .active then
    let s := s.modifyRecord r fun x =>
      { x with connectWant := none, connRemoteObject := remoteObject }
    ((s.records r).connRecordList.foldl (connectDoneOf r) s).completeStartServiceReq r envs
  else s

def removeConnectRecordFromList (s : AbilityConnectManager) (r : ServiceRef)
    (c : ConnectionRef) : AbilityConnectManager :=
  s.modifyRecord r (·.removeConnectRecordFromList c)

/-- The first list that holds the record loses it, and goes with its death recipient when it is
empty then. -/
def removeConnectionRecordFromMap : AbilityConnectManager :=
  match s.connectMap.entries.find? fun e => e.2.contains c with
  | none => s
  | some (connect, connectList) =>
    let rest := connectList.filter (· ≠ c)
    if rest.isEmpty then
      { s with
        recipientMap := s.recipientMap.erase connect
        connectMap := s.connectMap.erase connect }
    else { s with connectMap := s.connectMap.assign connect rest }

def completeDisconnect (s : AbilityConnectManager) (c : ConnectionRef) (isCallerDied : Bool) :
    AbilityConnectManager :=
  s.modifyConnection c (·.completeDisconnect isCallerDied)

/-- `ConnectionRecord::DisconnectAbility`: the last connection waits for the target, another one
ends at once. -/
def disconnectAbility : ConnectResult × AbilityConnectManager :=
  if (s.connections c).state ≠ .connected then (.invalidConnectionState, s)
  else
    let r := (s.connections c).targetService
    let s := s.modifyConnection c (·.setConnectState .disconnecting)
    if (s.records r).connRecordList.length = 1 ∨ (s.records r).isUIService then (.ok, s)
    else (.ok, (s.removeConnectRecordFromList r c).modifyConnection c
      (·.setConnectState .disconnected))

def disconnectRecordNormal (list : List ConnectionRef) (c : ConnectionRef) (callerDied : Bool) :
    ConnectResult × List ConnectionRef × AbilityConnectManager :=
  match s.disconnectAbility c with
  | (.ok, s) =>
    if (s.connections c).state = .disconnected then
      (.ok, list ++ [c], s.completeDisconnect c callerDied)
    else (.ok, list, s)
  | (result, s) => (result, list, s)

def disconnectRecordForce (list : List ConnectionRef)
    (c : ConnectionRef) : List ConnectionRef × AbilityConnectManager :=
  let r := (s.connections c).targetService
  let s := (s.removeConnectRecordFromList r c).completeDisconnect c true
  (list ++ [c],
    if (s.records r).connRecordList.isEmpty ∧ (s.records r).startId = 0 then s.terminateRecord r
    else s)

def disconnectRecords (callerDied : Bool) (callingTokenId : ℕ) :
    List ConnectionRef → List ConnectionRef → AbilityConnectManager →
      ConnectResult × List ConnectionRef × AbilityConnectManager
  | [], list, s => (.ok, list, s)
  | c :: rest, list, s =>
    if (s.connections c).callerTokenId ≠ callingTokenId ∧ s.config.selfTokenId ≠ callingTokenId then
      disconnectRecords callerDied callingTokenId rest list s
    else
      match s.disconnectRecordNormal list c callerDied with
      | (.ok, list, s) => disconnectRecords callerDied callingTokenId rest list s
      | (result, list, s) =>
        if callerDied then
          let (list, s) := s.disconnectRecordForce list c
          disconnectRecords callerDied callingTokenId rest list s
        else (result, list, s)

def disconnectAbilityLocked
    (callerDied : Bool) (callingTokenId : ℕ) : ConnectResult × AbilityConnectManager :=
  match s.getConnectRecordListFromMap connect with
  | [] => (.connectionNotExist, s)
  | connectRecordList =>
    let (result, list, s) := disconnectRecords callerDied callingTokenId connectRecordList [] s
    (result, list.foldl removeConnectionRecordFromMap s)

def clearConnCallBack : AbilityConnectManager :=
  s.modifyConnection c fun x => { x with connCallback := false }

def clearConnCallBacks : AbilityConnectManager :=
  match s.connectMap.find? connect with
  | none => s
  | some connectRecordList =>
    connectRecordList.foldl clearConnCallBack
      { s with diedCallbacks := s.diedCallbacks ++ [connect] }

def handleCallBackDiedTask : AbilityConnectManager :=
  match s.diedCallbacks with
  | [] => s
  | connect :: rest =>
    ({ s with diedCallbacks := rest }.disconnectAbilityLocked connect true s.config.selfTokenId).2

def disconnectDirectly (s : AbilityConnectManager) (c : ConnectionRef) : AbilityConnectManager :=
  ((s.completeDisconnect c false).removeConnectRecordFromList r c).removeConnectionRecordFromMap c

def getDisconnectingRecord : Option ConnectionRef :=
  (s.records r).connRecordList.find? fun c => (s.connections c).state = .disconnecting

def getConnectingRecordList : List ConnectionRef :=
  (s.records r).connRecordList.filter fun c => (s.connections c).state = .connecting

def mayDisconnect (r : ServiceRecord) : Bool :=
  r.currentState = .active ∨ (r.isUIExtensionAbility ∧
    (r.isForeground ∨ r.currentState = .background ∨ r.currentState = .backgrounding))

def scheduleDisconnectAbilityDoneLocked (sessionExist : Bool) : AbilityConnectManager :=
  if !s.inServiceMap r then s
  else
    match s.getDisconnectingRecord r with
    | none => s
    | some c =>
      if !mayDisconnect (s.records r) then s
      else
        let s := s.completeDisconnect c (!(s.connections c).connCallback)
        let s := s.removeConnectRecordFromList r c
        let s :=
          if (s.records r).connRecordList.isEmpty ∧ (s.records r).startId = 0 ∧
              !((s.records r).isUIExtensionAbility ∧ sessionExist) then
            s.terminateOrCacheAbility r
          else s
        s.removeConnectionRecordFromMap c

def handleTerminateDisconnectTask : AbilityConnectManager :=
  (s.records r).connRecordList.foldl (disconnectDirectly r) s

def terminateAbilityLocked : AbilityConnectManager :=
  if s.inTerminatingMap r then
    (s.handleTerminateDisconnectTask r).setAbilityState r .terminating
  else s

def moveToBackground : AbilityConnectManager :=
  if (s.records r).currentState = .foreground then s.setAbilityState r .backgrounding else s

def terminateAbilityInner : AbilityConnectManager :=
  if !(s.inServiceMap r || s.inAbilityCache r) then s
  else if (s.records r).isUIExtensionAbility ∧ (s.records r).connRecordList ≠ [] then s
  else if (s.records r).isUIExtensionAbility ∧ (s.records r).isForeground then
    (s.moveToBackground r).moveToTerminatingMap r
  else (s.moveToTerminatingMap r).terminateAbilityLocked r

/-- A stop looks into the cache for every type of extension. -/
def stopServiceAbilityLocked : AbilityConnectManager :=
  match s.findServiceRecord request true with
  | (none, s) => s
  | (some r, s) => (s.handleTerminateDisconnectTask r).terminateRecord r

def handleAbilityDiedTask : AbilityConnectManager :=
  let s := s.modifyRecord r fun x => { x with connRemoteObject := false }
  let s := (s.records r).connRecordList.foldl (disconnectDirectly r) s
  if s.isCacheExtensionType (s.records r).abilityInfo.extensionAbilityType ∧ s.inAbilityCache r then
    ((s.removeFromCache r).moveToTerminatingMap r).removeServiceAbility r
  else if s.inServiceMap r then (s.moveToTerminatingMap r).removeServiceAbility r
  else s

def handleStartTimeoutTask : AbilityConnectManager :=
  let s := (s.getConnectingRecordList r).foldl (disconnectDirectly r) s
  if s.inServiceMap r then (s.moveToTerminatingMap r).removeServiceAbility r else s

def readConnectList : AbilityConnectManager :=
  { s with connectTimeouts := s.connectTimeouts ++ [(r, (s.records r).connRecordList)] }

def handleConnectTimeoutTask : AbilityConnectManager :=
  match s.connectTimeouts with
  | [] => s
  | (r, connectList) :: rest =>
    let s := connectList.foldl (disconnectDirectly r) { s with connectTimeouts := rest }
    if (s.records r).abilityInfo.isSpecialAbility ∨ (s.records r).startId ≠ 0 then s
    else s.terminateRecord r

/-- The record is completed also when it had been disconnected before. -/
def handleExtensionDisconnectTask : AbilityConnectManager :=
  let s := (s.disconnectAbility c).2
  if (s.connections c).state = .disconnected then
    (s.completeDisconnect c false).removeConnectionRecordFromMap c
  else s

def attachAbilityThread : AbilityConnectManager :=
  let x := s.records r
  if !(s.inServiceMap r ∨ (s.inTerminatingMap r ∧ x.isUIExtensionAbility)) then s
  else if x.isUIExtensionAbility ∧ !x.isCreateByConnect ∧ !x.want.isPreloadUIExtension then s
  else s.setAbilityState r .inactivating

def updateConnectWant (x : ServiceRecord) : ServiceRecord :=
  { x with want := x.connectWant.getD x.want }

def dispatchInactive : AbilityConnectManager :=
  if !s.inServiceMap r ∨ (s.records r).currentState ≠ .inactivating then s
  else
    let s := s.setAbilityState r .inactive
    if (s.records r).isCreateByConnect ∨ (s.records r).want.isPreloadUIExtension then s
    else
      let s := s.commandAbility r
      if (s.records r).connRecordList.isEmpty then s else s.modifyRecord r updateConnectWant

def terminateDone : AbilityConnectManager :=
  if (s.records r).currentState = .terminating then s.removeServiceAbility r else s

def scheduleCommandAbilityDoneLocked : AbilityConnectManager :=
  if (s.records r).currentState = .inactive ∨ (s.records r).currentState = .active then
    (s.setAbilityState r .active).completeStartServiceReq r envs
  else s

def moveToForeground : AbilityConnectManager :=
  if s.inServiceMap r ∧ (s.records r).isUIExtensionAbility then s.setAbilityState r .foregrounding
  else s

/-- `delayed` tells whether a background request waits for the end of the foreground one. -/
def completeForeground (delayed : Bool) (envs : ℕ → ServiceEnv) : AbilityConnectManager :=
  if (s.records r).currentState ≠ .foregrounding then s
  else
    let s := s.setAbilityState r .foreground
    (if delayed then s.moveToBackground r else s).completeStartServiceReq r envs

def handleForegroundTimeoutTask : AbilityConnectManager :=
  (s.setAbilityState r .background).completeStartServiceReq r envs

def completeBackground : AbilityConnectManager :=
  if (s.records r).currentState ≠ .backgrounding then s
  else ((s.setAbilityState r .background).completeStartServiceReq r envs).terminateAbilityLocked r

def filterServiceMap (keep : ServiceRef → Bool) : AbilityConnectManager :=
  { s with serviceMap := s.serviceMap.traverse fun _ r => if keep r then some r else none }

def closeAssertDialog (assertSessionId : String) : AbilityConnectManager :=
  let isSession (r : ServiceRef) : Bool := (s.records r).want.assertFaultSessionId = assertSessionId
  match s.serviceMap.entries.find? fun e => isSession e.2 with
  | some (key, r) =>
    let s := s.eraseFromServiceMap key
    { s with
      terminatingExtensionList := s.terminatingExtensionList ++ [r] }.terminateAbilityLocked r
  | none =>
    match s.abilityCache.devRecLru.find? isSession with
    | none => s
    | some r =>
      let s := s.removeFromCache r
      { s with
        terminatingExtensionList := s.terminatingExtensionList ++ [r] }.terminateAbilityLocked r

def isPaused (r : ServiceRecord) : Bool :=
  r.abilityInfo.type = .extension ∧ (r.abilityInfo.isLauncher ∨ r.abilityInfo.isSceneBoard)

def pauseExtensions : AbilityConnectManager :=
  let paused := (s.serviceMap.entries.map Prod.snd).filter fun r => isPaused (s.records r)
  let s := s.filterServiceMap fun r => !isPaused (s.records r)
  paused.foldl terminateAbilityLocked
    { s with terminatingExtensionList := s.terminatingExtensionList ++ paused }

/-- `needKeepAlive` holds the records that the list of resident processes keeps alive. -/
def deleteInvalidServiceRecord (bundleName : String)
    (needKeepAlive : ServiceRef → Bool) : AbilityConnectManager :=
  let isInvalid (r : ServiceRef) : Bool :=
    (s.records r).abilityInfo.bundleName = bundleName ∧ !(s.records r).isUIExtensionAbility ∧
      !((s.records r).abilityInfo.isSpecialAbility ∨ needKeepAlive r)
  let cached := s.abilityCache.devRecLru.filter fun r =>
    (s.records r).abilityInfo.bundleName = bundleName
  cached.foldl removeFromCache (s.filterServiceMap fun r => !isInvalid r)

inductive Op
  | startAbility (request : ServiceRequest) (env : ServiceEnv)
  | preloadUIExtensionAbility (request : ServiceRequest)
  | connectAbility (request : ServiceRequest) (connect : CallbackRef) (callerTokenId : ℕ)
      (connectInfo : Bool) (env : ServiceEnv)
  | disconnectAbility (connect : CallbackRef) (callingTokenId : ℕ)
  | terminateAbility (r : ServiceRef)
  | stopServiceAbility (request : ServiceRequest)
  | clearConnCallBacks (connect : CallbackRef)
  | handleCallBackDiedTask
  | handleAbilityDiedTask (r : ServiceRef)
  | attachAbilityThread (r : ServiceRef)
  | dispatchInactive (r : ServiceRef)
  | terminateDone (r : ServiceRef)
  | moveToForeground (r : ServiceRef)
  | moveToBackground (r : ServiceRef)
  | completeForeground (r : ServiceRef) (delayed : Bool) (envs : ℕ → ServiceEnv)
  | completeBackground (r : ServiceRef) (envs : ℕ → ServiceEnv)
  | handleForegroundTimeoutTask (r : ServiceRef) (envs : ℕ → ServiceEnv)
  | scheduleConnectAbilityDone (r : ServiceRef) (remoteObject : Bool) (envs : ℕ → ServiceEnv)
  | scheduleDisconnectAbilityDone (r : ServiceRef) (sessionExist : Bool)
  | scheduleCommandAbilityDone (r : ServiceRef) (envs : ℕ → ServiceEnv)
  /-- Also the timeout of a window command, which ends in the same call. -/
  | scheduleCommandAbilityWindowDone (r : ServiceRef) (envs : ℕ → ServiceEnv)
  | handleStartTimeoutTask (r : ServiceRef)
  | readConnectList (r : ServiceRef)
  | handleConnectTimeoutTask
  | startServiceTimeout (abilityUri : String)
  /-- The posted `CompleteConnect` of the connection goes on by one stage. -/
  | completeConnectTask (c : ConnectionRef)
  | delayDisconnectTask (c : ConnectionRef)
  | terminateFrozen (r : ServiceRef)
  | closeAssertDialog (assertSessionId : String)
  | pauseExtensions
  | deleteInvalidServiceRecord (bundleName : String) (needKeepAlive : ServiceRef → Bool)

def runCompleteConnectTask : AbilityConnectManager :=
  let r := (s.connections c).targetService
  let next := s.modifyConnection c (·.completeNext (s.records r).connRemoteObject)
  match (s.connections c).completing with
  | .idle =>
    if c ∈ s.completeConnectTasks then
      { next with completeConnectTasks := s.completeConnectTasks.erase c }
    else s
  | .active => next.setAbilityState r .active
  | _ => next

def runDelayDisconnectTask : AbilityConnectManager :=
  if c ∈ s.delayDisconnectTasks then
    { s with
      delayDisconnectTasks := s.delayDisconnectTasks.erase c }.handleExtensionDisconnectTask c
  else s

def step : Op → AbilityConnectManager
  | .startAbility request env => s.startAbilityLocked request env
  | .preloadUIExtensionAbility request => s.preloadUIExtensionAbility request
  | .connectAbility request connect callerTokenId connectInfo env =>
    s.connectAbilityLocked request connect callerTokenId connectInfo env
  | .disconnectAbility connect callingTokenId =>
    (s.disconnectAbilityLocked connect false callingTokenId).2
  | .terminateAbility r => s.terminateAbilityInner r
  | .stopServiceAbility request => s.stopServiceAbilityLocked request
  | .clearConnCallBacks connect => s.clearConnCallBacks connect
  | .handleCallBackDiedTask => s.handleCallBackDiedTask
  | .handleAbilityDiedTask r => s.handleAbilityDiedTask r
  | .attachAbilityThread r => s.attachAbilityThread r
  | .dispatchInactive r => s.dispatchInactive r
  | .terminateDone r => s.terminateDone r
  | .moveToForeground r => s.moveToForeground r
  | .moveToBackground r => s.moveToBackground r
  | .completeForeground r delayed envs => s.completeForeground r delayed envs
  | .completeBackground r envs => s.completeBackground r envs
  | .handleForegroundTimeoutTask r envs => s.handleForegroundTimeoutTask r envs
  | .scheduleConnectAbilityDone r remoteObject envs =>
    s.scheduleConnectAbilityDoneLocked r remoteObject envs
  | .scheduleDisconnectAbilityDone r sessionExist =>
    s.scheduleDisconnectAbilityDoneLocked r sessionExist
  | .scheduleCommandAbilityDone r envs => s.scheduleCommandAbilityDoneLocked r envs
  | .scheduleCommandAbilityWindowDone r envs => s.completeStartServiceReq r envs
  | .handleStartTimeoutTask r => s.handleStartTimeoutTask r
  | .readConnectList r => s.readConnectList r
  | .handleConnectTimeoutTask => s.handleConnectTimeoutTask
  | .startServiceTimeout abilityUri => s.startServiceTimeout abilityUri
  | .completeConnectTask c => s.runCompleteConnectTask c
  | .delayDisconnectTask c => s.runDelayDisconnectTask c
  | .terminateFrozen r => s.terminateRecord r
  | .closeAssertDialog assertSessionId => s.closeAssertDialog assertSessionId
  | .pauseExtensions => s.pauseExtensions
  | .deleteInvalidServiceRecord bundleName needKeepAlive =>
    s.deleteInvalidServiceRecord bundleName needKeepAlive

def emptyElement : ElementName := ⟨"", "", "", ""⟩

def emptyInfo : AbilityInfo := ⟨"", "", "", "", .unknown, .other, ""⟩

def emptyRequest : ServiceRequest := ⟨⟨emptyElement, 0, 0, 0, "", false⟩, emptyInfo, ⟨0, by decide⟩⟩

def init (config : ConnectConfig) (devCapacity procCapacity : UInt32) :
    AbilityConnectManager where
  config := config
  records := fun _ => ServiceRecord.createAbilityRecord emptyRequest
  nextRecord := 0
  connections := fun _ => { targetService := 0, callback := 0, callerTokenId := 0 }
  nextConnection := 0
  serviceMap := SortedMap.empty
  terminatingExtensionList := []
  abilityCache := AbilityCacheManager.init devCapacity procCapacity
  connectMap := SortedMap.empty
  recipientMap := SortedMap.empty
  startServiceReqList := SortedMap.empty
  nextTicket := 0
  queueLog := []
  completeConnectTasks := []
  delayDisconnectTasks := []
  connectTimeouts := []
  diedCallbacks := []

end AbilityConnectManager
/-! ## Crashes of the scene board -/

/-- The `static` variables of `KeepAbilityAlive`: the first crash sets `tickCount`. -/
structure SceneBoardCrashes where
  sceneBoardCrashCount : ℕ := 0
  tickCount : Option ℤ := none

namespace SceneBoardCrashes

def maxTime : ℤ := 240000

def maxCount : ℕ := 4

def keepAbilityAlive (s : SceneBoardCrashes) (tickNow : ℤ) : SceneBoardCrashes :=
  let tickCount := s.tickCount.getD tickNow
  if tickNow - tickCount > maxTime then ⟨1, some tickNow⟩
  else ⟨s.sceneBoardCrashCount + 1, some tickCount⟩

/-- Since when the crashes are counted that a crash at `tickNow` is counted with. -/
def countedSince (s : SceneBoardCrashes) (tickNow : ℤ) : ℤ :=
  if tickNow - s.tickCount.getD tickNow > maxTime then tickNow else s.tickCount.getD tickNow

def ofCrashes (crashes : List ℤ) : SceneBoardCrashes := crashes.foldl keepAbilityAlive {}

lemma ofCrashes_append (crashes : List ℤ) (t : ℤ) :
    ofCrashes (crashes ++ [t]) = (ofCrashes crashes).keepAbilityAlive t := by
  simp [ofCrashes]

structure CountsSince (crashes : List ℤ) (w : ℤ) : Prop where
  count : ofCrashes crashes = ⟨crashes.countP (w ≤ ·), some w⟩
  start : w ∈ crashes
  close : ∀ c ∈ crashes, c - w ≤ maxTime

variable {crashes : List ℤ} {t : ℤ}

lemma CountsSince.crash {w : ℤ} (h : CountsSince crashes w) (hlast : ∀ c ∈ crashes, c ≤ t) :
    ∃ w', CountsSince (crashes ++ [t]) w' := by
  have hmax : (0 : ℤ) < maxTime := by decide
  have hw := hlast w h.start
  have hstep := ofCrashes_append crashes t
  rw [h.count, keepAbilityAlive, Option.getD_some] at hstep
  by_cases hlate : t - w > maxTime
  · have hearlier : crashes.countP (t ≤ ·) = 0 := by
      refine countP_eq_zero.mpr fun c hc => ?_
      have := h.close c hc
      simpa using by omega
    refine ⟨t, by simp [hstep, hlate, hearlier], by simp, forall_mem_append.mpr
      ⟨fun c hc => ?_, by simpa using hmax.le⟩⟩
    have := hlast c hc
    omega
  · exact ⟨w, by simp [hstep, hlate, hw], by simp [h.start],
      forall_mem_append.mpr ⟨h.close, by simpa using hlate⟩⟩

lemma exists_countsSince (h : (crashes ++ [t]).Pairwise (· ≤ ·)) :
    ∃ w, CountsSince (crashes ++ [t]) w := by
  induction crashes using reverseRecOn generalizing t with
  | nil => exact ⟨t, by simp [ofCrashes, keepAbilityAlive], by simp, by simp [maxTime]⟩
  | append_singleton crashes c ih =>
    obtain ⟨hcrashes, -, hlast⟩ := pairwise_append.mp h
    obtain ⟨w, hw⟩ := ih hcrashes
    exact hw.crash fun c hc => hlast c hc t (by simp)

lemma tickCount_keepAbilityAlive (s : SceneBoardCrashes) (tickNow : ℤ) :
    (s.keepAbilityAlive tickNow).tickCount = some (s.countedSince tickNow) := by
  unfold keepAbilityAlive countedSince
  dsimp only
  split_ifs <;> rfl

theorem reboots_iff_due (h : (crashes ++ [t]).Pairwise (· ≤ ·)) :
    (maxCount ≤ (ofCrashes (crashes ++ [t])).sceneBoardCrashCount ↔
      3 ≤ crashes.countP (t - · ≤ maxTime)) ↔
    ¬ (3 ≤ crashes.countP (t - · ≤ maxTime) ∧
      crashes.countP ((ofCrashes crashes).countedSince t ≤ ·) < 3) := by
  obtain ⟨w, hcount, hstart, hclose⟩ := exists_countsSince h
  have hsince : (ofCrashes crashes).countedSince t = w := by
    have htick := (ofCrashes crashes).tickCount_keepAbilityAlive t
    rw [← ofCrashes_append, hcount] at htick
    exact (Option.some.inj htick).symm
  have hw : w ≤ t := by
    rcases mem_append.mp hstart with hw | hw
    · exact (pairwise_append.mp h).2.2 w hw t (by simp)
    · exact (mem_singleton.mp hw).le
  have hreboots : maxCount ≤ (ofCrashes (crashes ++ [t])).sceneBoardCrashCount ↔
      3 ≤ crashes.countP (w ≤ ·) := by
    simp [hcount, hw, maxCount]
  -- the crashes that are counted are among those within the time
  have hdue : crashes.countP (w ≤ ·) ≤ crashes.countP (t - · ≤ maxTime) := by
    refine countP_mono_left fun c _ hc => ?_
    have := hclose t (by simp)
    simp only [decide_eq_true_eq] at hc ⊢
    omega
  rw [hreboots, hsince]
  omega

theorem fourth_crash_reboots :
    maxCount ≤ (ofCrashes [0, 1, 2, 3]).sceneBoardCrashCount ↔
      3 ≤ [(0 : ℤ), 1, 2].countP (3 - · ≤ maxTime) :=
  (@reboots_iff_due [0, 1, 2] 3 (by decide)).mpr (by decide)

theorem across_windows_not_rebooted :
    3 ≤ [(0 : ℤ), 239999, 240001, 240002].countP (240003 - · ≤ maxTime) ∧
      ¬ maxCount ≤ (ofCrashes [0, 239999, 240001, 240002, 240003]).sceneBoardCrashCount := by
  decide

end SceneBoardCrashes

end AbilityRuntime
