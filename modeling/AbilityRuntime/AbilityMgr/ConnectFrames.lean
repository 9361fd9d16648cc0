import AbilityRuntime.AbilityMgr.AbilityConnectManager
import AbilityRuntime.AbilityMgr.CacheHoldings

/-! What the functions of the manager leave alone: the connections (`Frame`), or the service records
with their maps and the queue (`Kept`). An invariant of the service records that allows entries to
leave the map is `Closed`. -/

open Function

namespace AbilityRuntime
namespace AbilityConnectManager
open Nat AbilityCacheManager
variable {s₀ s s' : AbilityConnectManager}

section Rules
variable {I : AbilityConnectManager → Prop}

structure Quiet (I : AbilityConnectManager → Prop) : Prop where
  state : ∀ {s} r state, I s → I (s.setAbilityState r state)
  terminating : ∀ {s} l, I s → I { s with terminatingExtensionList := l }

namespace Quiet
variable (hI : Quiet I) (h : I s) (r : ServiceRef)
include hI h

lemma removeServiceAbility : I (s.removeServiceAbility r) := hI.terminating _ h

protected lemma moveToBackground : I (s.moveToBackground r) := by
  unfold moveToBackground
  split
  · exact hI.state r _ h
  · exact h

protected lemma moveToForeground : I (s.moveToForeground r) := by
  unfold moveToForeground
  split
  · exact hI.state r _ h
  · exact h

protected lemma attachAbilityThread : I (s.attachAbilityThread r) := by
  unfold attachAbilityThread
  dsimp only
  split
  · exact h
  split
  · exact h
  · exact hI.state r _ h

protected lemma terminateDone : I (s.terminateDone r) := by
  unfold terminateDone
  split
  · exact hI.removeServiceAbility h r
  · exact h

end Quiet

structure Sheds (I : AbilityConnectManager → Prop) : Prop extends Quiet I where
  erase : ∀ {s} key, I s → I (s.eraseFromServiceMap key)
  filter : ∀ {s} keep, I s → I (s.filterServiceMap keep)
  remove : ∀ {s} r, I s → I (s.removeFromCache r)

namespace Sheds
variable (hI : Sheds I) (h : I s) (r : ServiceRef)
include hI h

lemma moveToTerminatingMap : I (s.moveToTerminatingMap r) :=
  hI.remove r (hI.erase _ (hI.terminating _ h))

protected lemma terminateRecord : I (s.terminateRecord r) := by
  unfold terminateRecord
  split
  · exact hI.state r _ (hI.moveToTerminatingMap h r)
  · exact h

lemma deleteInvalidServiceRecord (bundleName : String) (needKeepAlive : ServiceRef → Bool) :
    I (s.deleteInvalidServiceRecord bundleName needKeepAlive) :=
  List.foldlRecOn _ _ (hI.filter _ h) fun _ hs r _ => hI.remove r hs

end Sheds

structure Takes (I : AbilityConnectManager → Prop) : Prop extends Sheds I where
  add : ∀ {s} key r, I s → I (s.addToServiceMap key r)
  put : ∀ {s} r, I s → I (s.putInCache r).2
  get : ∀ {s} request, I s → I (s.getFromCache request).2
  create : ∀ {s} request isCreatedByConnect, I s →
    I (s.createServiceRecord request isCreatedByConnect)

namespace Takes
variable (hI : Takes I) (h : I s)
include hI h

protected lemma terminateOrCacheAbility (r : ServiceRef) : I (s.terminateOrCacheAbility r) := by
  unfold terminateOrCacheAbility
  have hp := hI.put r (hI.erase (s.records r).terminatingKey h)
  split
  · exact h
  split
  · split
    · rename_i heq
      rwa [heq] at hp
    · rename_i heq
      rw [heq] at hp
      exact hI.terminateRecord (hI.add _ _ hp) _
  · exact hI.terminateRecord h r

variable (request : ServiceRequest)

protected lemma findServiceRecord (useCache : Bool) :
    I (s.findServiceRecord request useCache).2 := by
  unfold findServiceRecord
  have hc := hI.get request h
  split
  · exact h
  split
  · split
    · rename_i heq
      rw [heq] at hc
      exact hI.add _ _ hc
    · rename_i heq
      rwa [heq] at hc
  · exact h

protected lemma getOrCreateServiceRecord (isCreatedByConnect : Bool) :
    I (s.getOrCreateServiceRecord request isCreatedByConnect).2 := by
  unfold getOrCreateServiceRecord
  have hf := hI.findServiceRecord h request
    (s.isCacheExtensionType request.abilityInfo.extensionAbilityType)
  dsimp only
  split
  · rename_i heq
    rw [heq] at hf
    split
    · exact hI.create _ _ (hI.erase _ hf)
    · exact hf
  · rename_i heq
    rw [heq] at hf
    exact hI.create _ _ hf

end Takes

structure Ends (I : AbilityConnectManager → Prop) : Prop extends Sheds I where
  disconnect : ∀ {s} r, I s → I (s.handleTerminateDisconnectTask r)
  remote : ∀ {s} r, I s → I (s.modifyRecord r fun x => { x with connRemoteObject := false })

end Rules

structure Frame (s₀ s : AbilityConnectManager) : Prop where
  connections : s.connections = s₀.connections
  nextConnection : s.nextConnection = s₀.nextConnection
  connectMap : s.connectMap = s₀.connectMap
  recipientMap : s.recipientMap = s₀.recipientMap
  connectTimeouts : s.connectTimeouts = s₀.connectTimeouts
  nextRecord : s₀.nextRecord ≤ s.nextRecord
  connRecordList : ∀ r, (s.records r).connRecordList = (s₀.records r).connRecordList ∨
    (s₀.nextRecord ≤ r ∧ (s.records r).connRecordList = [])

namespace Frame

variable (s) in
lemma refl : Frame s s := ⟨rfl, rfl, rfl, rfl, rfl, le_rfl, fun _ => .inl rfl⟩

section
variable (h : Frame s₀ s)
include h

variable (r : ServiceRef)

protected lemma modifyRecord {f : ServiceRecord → ServiceRecord}
    (hf : (f (s.records r)).connRecordList = (s.records r).connRecordList) :
    Frame s₀ (s.modifyRecord r f) := by
  refine ⟨h.1, h.2, h.3, h.4, h.5, h.6, fun r' => ?_⟩
  rcases eq_or_ne r' r with rfl | hr
  · simpa [modifyRecord, hf] using h.connRecordList r'
  · simpa [modifyRecord, update_of_ne hr] using h.connRecordList r'

lemma setAbilityState (state : AbilityState) :
    Frame s₀ (s.setAbilityState r state) := h.modifyRecord r rfl

lemma setWant (want : Want) : Frame s₀ (s.setWant r want) := h.modifyRecord r rfl

lemma logQueue (events : List QueueEvent) : Frame s₀ (s.logQueue events) := { h with }

lemma reqList (m : SortedMap String (List QueuedRequest)) :
    Frame s₀ { s with startServiceReqList := m } := { h with }

lemma completing (l : List ConnectionRef) :
    Frame s₀ { s with completeConnectTasks := l } := { h with }

lemma delaying (l : List ConnectionRef) :
    Frame s₀ { s with delayDisconnectTasks := l } := { h with }

lemma died (l : List CallbackRef) : Frame s₀ { s with diedCallbacks := l } := { h with }

protected lemma createRecord {record : ServiceRecord} (hr : record.connRecordList = []) :
    Frame s₀ (s.createRecord record) := by
  refine ⟨h.1, h.2, h.3, h.4, h.5, h.6.trans (le_succ _), fun r => ?_⟩
  rcases eq_or_ne r s.nextRecord with rfl | hne
  · right
    exact ⟨h.6, by simpa [createRecord] using hr⟩
  · simpa [createRecord, update_of_ne hne] using h.connRecordList r

omit h in
lemma takes : Takes (Frame s₀) where
  state r _ h := h.setAbilityState r _
  terminating _ h := { h with }
  erase _ h := { h with }
  filter _ h := { h with }
  remove _ h := { h with }
  add _ _ h := { h with }
  put _ h := { h with }
  get _ h := { h with }
  create _ _ h := { h.createRecord rfl with }

variable (request : ServiceRequest) (isCreatedByConnect : Bool)

lemma addExtensionRecord : Frame s₀ (s.addExtensionRecord request r) :=
  takes.add _ _ (h.modifyRecord r rfl)

lemma createExtensionRecord : Frame s₀ (s.createExtensionRecord request) := h.createRecord rfl

protected lemma getOrCreateExtensionRecord (answer : ExtensionAnswer) :
    Frame s₀ (s.getOrCreateExtensionRecord request isCreatedByConnect answer).2 := by
  unfold getOrCreateExtensionRecord
  split
  · exact h
  · split
    · exact .addExtensionRecord (h.modifyRecord _ rfl) _ request
    · exact h
  · exact .addExtensionRecord ((h.createExtensionRecord request).modifyRecord _ rfl) _ request

protected lemma preloadUIExtensionAbility : Frame s₀ (s.preloadUIExtensionAbility request) := by
  unfold preloadUIExtensionAbility
  split
  · exact (h.createExtensionRecord request).addExtensionRecord _ request
  · exact h

lemma commandAbility : Frame s₀ (s.commandAbility r) := h.modifyRecord r rfl

protected lemma startTarget (isLoadedAbility : Bool) (env : ServiceEnv) :
    Frame s₀ (s.startTarget request r isLoadedAbility env) := by
  unfold startTarget doForegroundUIExtension
  dsimp only
  split
  · exact h
  split
  · exact (h.setWant r _).commandAbility r
  split
  · split
    · exact h.setWant r _
    · exact { h with }
  · exact { h with }

protected lemma startAbilityLocked (env : ServiceEnv) :
    Frame s₀ (s.startAbilityLocked request env) := by
  unfold startAbilityLocked
  have he := h.getOrCreateExtensionRecord request false env.extensionRecord
  split
  · split
    · rename_i heq
      rwa [heq] at he
    · rename_i heq
      rw [heq] at he
      exact he.startTarget _ request _ env
  · exact (takes.getOrCreateServiceRecord h request false).startTarget _ request _ env

lemma restartRequests (envs : ℕ → ServiceEnv) (l : List QueuedRequest) :
    Frame s₀ (s.restartRequests envs l) := by
  induction l generalizing s with
  | nil => exact h
  | cons q rest ih => exact ih ((h.logQueue _).startAbilityLocked _ _)

protected lemma completeStartServiceReq (envs : ℕ → ServiceEnv) :
    Frame s₀ (s.completeStartServiceReq r envs) := by
  unfold completeStartServiceReq
  dsimp only
  split
  · exact h.logQueue _
  · exact .restartRequests ((h.logQueue _).reqList _) envs _

protected lemma startServiceTimeout (abilityUri : String) :
    Frame s₀ (s.startServiceTimeout abilityUri) := by
  unfold startServiceTimeout
  split
  · exact h
  · exact (h.logQueue _).reqList _

protected lemma connectTarget (c : ConnectionRef) (isLoadedAbility reported : Bool) :
    Frame s₀ (s.connectTarget request r c isLoadedAbility reported) := by
  unfold connectTarget handleActiveAbility
  have hw := h.setWant r request.want
  split
  · exact h
  split
  · split
    · exact hw.completing _
    · exact hw
  · exact h.modifyRecord r rfl

protected lemma getOrCreateTargetServiceRecord (connectInfo : Bool) (env : ServiceEnv) :
    Frame s₀ (s.getOrCreateTargetServiceRecord request connectInfo env).2 := by
  unfold getOrCreateTargetServiceRecord
  split
  · exact h.getOrCreateExtensionRecord request true _
  · exact takes.getOrCreateServiceRecord h request true

protected lemma dispatchInactive : Frame s₀ (s.dispatchInactive r) := by
  unfold dispatchInactive
  have hi := h.setAbilityState r .inactive
  dsimp only
  split
  · exact h
  split
  · exact hi
  split
  · exact hi.commandAbility r
  · exact (hi.commandAbility r).modifyRecord r rfl

protected lemma scheduleCommandAbilityDoneLocked (envs : ℕ → ServiceEnv) :
    Frame s₀ (s.scheduleCommandAbilityDoneLocked r envs) := by
  unfold scheduleCommandAbilityDoneLocked
  split
  · exact (h.setAbilityState r _).completeStartServiceReq r envs
  · exact h

protected lemma completeForeground (delayed : Bool) (envs : ℕ → ServiceEnv) :
    Frame s₀ (s.completeForeground r delayed envs) := by
  unfold completeForeground
  have hf := h.setAbilityState r .foreground
  split
  · exact h
  split
  · exact (takes.moveToBackground hf r).completeStartServiceReq r envs
  · exact hf.completeStartServiceReq r envs

lemma handleForegroundTimeoutTask (envs : ℕ → ServiceEnv) :
    Frame s₀ (s.handleForegroundTimeoutTask r envs) :=
  (h.setAbilityState r _).completeStartServiceReq r envs

end

end Frame

def Op.changesConnections : Op → Bool
  | .connectAbility .. | .disconnectAbility .. | .clearConnCallBacks .. | .handleCallBackDiedTask
  | .scheduleConnectAbilityDone .. | .scheduleDisconnectAbilityDone .. | .handleStartTimeoutTask ..
  | .readConnectList .. | .handleConnectTimeoutTask | .completeConnectTask ..
  | .delayDisconnectTask .. => true
  | _ => false

def Op.isCompletion : Op → Bool
  | .completeForeground .. | .completeBackground .. | .handleForegroundTimeoutTask ..
  | .scheduleConnectAbilityDone .. | .scheduleCommandAbilityDone ..
  | .scheduleCommandAbilityWindowDone .. => true
  | _ => false

def Op.entersMaps : Op → Bool
  | .startAbility .. | .preloadUIExtensionAbility .. | .connectAbility .. | .stopServiceAbility ..
  | .dispatchInactive .. | .startServiceTimeout .. => true
  | _ => false

structure Steady (I : AbilityConnectManager → Prop) : Prop where
  frame : ∀ {s s'}, Frame s s' → I s → I s'
  disconnect : ∀ {s} r, I s → I (s.handleTerminateDisconnectTask r)

namespace Ends
variable {I : AbilityConnectManager → Prop} (hI : Ends I) (h : I s)
include hI h

variable (r : ServiceRef)

protected lemma terminateAbilityLocked : I (s.terminateAbilityLocked r) := by
  unfold terminateAbilityLocked
  split
  · exact hI.state r _ (hI.disconnect r h)
  · exact h

protected lemma terminateAbilityInner : I (s.terminateAbilityInner r) := by
  unfold terminateAbilityInner
  split_ifs
  · exact h
  · exact h
  · exact hI.moveToTerminatingMap (hI.moveToBackground h r) r
  · exact hI.terminateAbilityLocked (hI.moveToTerminatingMap h r) r

protected lemma handleAbilityDiedTask : I (s.handleAbilityDiedTask r) := by
  have hd := hI.disconnect r (hI.remote r h)
  unfold handleAbilityDiedTask
  dsimp only
  split_ifs
  · exact hI.removeServiceAbility (hI.moveToTerminatingMap (hI.remove r hd) r) r
  · exact hI.removeServiceAbility (hI.moveToTerminatingMap hd r) r
  · exact hd

protected lemma closeAssertDialog (assertSessionId : String) :
    I (s.closeAssertDialog assertSessionId) := by
  unfold closeAssertDialog
  dsimp only
  split
  · exact hI.terminateAbilityLocked (hI.terminating _ (hI.erase _ h)) _
  split
  · exact h
  · exact hI.terminateAbilityLocked (hI.terminating _ (hI.remove _ h)) _

lemma pauseExtensions : I s.pauseExtensions :=
  List.foldlRecOn _ _ (hI.terminating _ (hI.filter _ h))
    fun _ ht r _ => hI.terminateAbilityLocked ht r

protected lemma step {op : Op} (hconn : op.changesConnections = false)
    (henters : op.entersMaps = false) (hcomplete : op.isCompletion = false) : I (s.step op) := by
  cases op with
  | terminateAbility r => exact hI.terminateAbilityInner h r
  | handleAbilityDiedTask r => exact hI.handleAbilityDiedTask h r
  | attachAbilityThread r => exact hI.attachAbilityThread h r
  | terminateDone r => exact hI.terminateDone h r
  | moveToForeground r => exact hI.moveToForeground h r
  | moveToBackground r => exact hI.moveToBackground h r
  | terminateFrozen r => exact hI.terminateRecord h r
  | closeAssertDialog assertSessionId => exact hI.closeAssertDialog h assertSessionId
  | pauseExtensions => exact hI.pauseExtensions h
  | deleteInvalidServiceRecord bundleName needKeepAlive =>
    exact hI.deleteInvalidServiceRecord h bundleName needKeepAlive
  | startAbility | preloadUIExtensionAbility | stopServiceAbility | dispatchInactive
  | startServiceTimeout => cases henters
  | completeForeground | completeBackground | handleForegroundTimeoutTask
  | scheduleCommandAbilityDone | scheduleCommandAbilityWindowDone => cases hcomplete
  | _ => cases hconn

end Ends

namespace Steady
variable {I : AbilityConnectManager → Prop} (hI : Steady I)
include hI

lemma ends : Ends I where
  state r _ := hI.frame ((Frame.refl _).setAbilityState r _)
  terminating l := hI.frame (Frame.takes.terminating l (.refl _))
  erase key := hI.frame (Frame.takes.erase key (.refl _))
  filter keep := hI.frame (Frame.takes.filter keep (.refl _))
  remove r := hI.frame (Frame.takes.remove r (.refl _))
  disconnect := hI.disconnect
  remote r := hI.frame ((Frame.refl _).modifyRecord r rfl)

variable (h : I s)
include h

protected lemma stopServiceAbilityLocked (request : ServiceRequest) :
    I (s.stopServiceAbilityLocked request) := by
  unfold stopServiceAbilityLocked
  have hf := hI.frame (Frame.takes.findServiceRecord (.refl s) request true) h
  split
  · rename_i heq
    rwa [heq] at hf
  · rename_i r t heq
    rw [heq] at hf
    exact hI.ends.terminateRecord (hI.disconnect r hf) r

protected lemma completeBackground (r : ServiceRef) (envs : ℕ → ServiceEnv) :
    I (s.completeBackground r envs) := by
  unfold completeBackground
  split
  · exact h
  · exact hI.ends.terminateAbilityLocked (hI.frame
      (((Frame.refl s).setAbilityState r _).completeStartServiceReq r envs) h) r

lemma step {op : Op} (hop : op.changesConnections = false) : I (s.step op) := by
  have hs := Frame.refl s
  cases op with
  | startAbility request env => exact hI.frame (hs.startAbilityLocked request env) h
  | preloadUIExtensionAbility request => exact hI.frame (hs.preloadUIExtensionAbility request) h
  | stopServiceAbility request => exact hI.stopServiceAbilityLocked h request
  | dispatchInactive r => exact hI.frame (hs.dispatchInactive r) h
  | completeForeground r delayed envs => exact hI.frame (hs.completeForeground r delayed envs) h
  | completeBackground r envs => exact hI.completeBackground h r envs
  | handleForegroundTimeoutTask r envs => exact hI.frame (hs.handleForegroundTimeoutTask r envs) h
  | scheduleCommandAbilityDone r envs =>
    exact hI.frame (hs.scheduleCommandAbilityDoneLocked r envs) h
  | scheduleCommandAbilityWindowDone r envs => exact hI.frame (hs.completeStartServiceReq r envs) h
  | startServiceTimeout abilityUri => exact hI.frame (hs.startServiceTimeout abilityUri) h
  | connectAbility | scheduleConnectAbilityDone => cases hop
  | _ => exact hI.ends.step h hop rfl rfl

end Steady

def identity (r : ServiceRecord) : Want × AbilityInfo × AccessTokenId × ℤ × String × ℕ :=
  (r.want, r.abilityInfo, r.accessTokenId, r.appIndex, r.uri, r.uiExtensionAbilityId)

lemma getURI_of_identity {x y : ServiceRecord} (h : identity x = identity y) :
    x.getURI = y.getURI := by
  simp only [identity, Prod.mk.injEq] at h
  simp [ServiceRecord.getURI, h]

lemma terminatingKey_of_identity {x y : ServiceRecord} (h : identity x = identity y) :
    x.terminatingKey = y.terminatingKey := by
  have hu := getURI_of_identity h
  simp only [identity, Prod.mk.injEq] at h
  simp [ServiceRecord.terminatingKey, h, hu]

structure Kept (s₀ s : AbilityConnectManager) : Prop where
  config : s.config = s₀.config
  serviceMap : s.serviceMap = s₀.serviceMap
  abilityCache : s.abilityCache = s₀.abilityCache
  nextRecord : s.nextRecord = s₀.nextRecord
  startServiceReqList : s.startServiceReqList = s₀.startServiceReqList
  nextTicket : s.nextTicket = s₀.nextTicket
  queueLog : s.queueLog = s₀.queueLog
  identity : ∀ r, identity (s.records r) = identity (s₀.records r)

namespace Kept

variable (s) in
lemma refl : Kept s s := ⟨rfl, rfl, rfl, rfl, rfl, rfl, rfl, fun _ => rfl⟩

section
variable (h : Kept s₀ s)
include h

variable (r : ServiceRef)

protected lemma modifyRecord {f : ServiceRecord → ServiceRecord}
    (hf : AbilityConnectManager.identity (f (s.records r)) =
      AbilityConnectManager.identity (s.records r)) :
    Kept s₀ (s.modifyRecord r f) := by
  refine ⟨h.1, h.2, h.3, h.4, h.5, h.6, h.7, fun r' => ?_⟩
  rcases eq_or_ne r' r with rfl | hr
  · simpa [modifyRecord, hf] using h.identity r'
  · simpa [modifyRecord, update_of_ne hr] using h.identity r'

lemma setAbilityState (state : AbilityState) :
    Kept s₀ (s.setAbilityState r state) := h.modifyRecord r rfl

lemma terminating (l : List ServiceRef) :
    Kept s₀ { s with terminatingExtensionList := l } := { h with }

omit h in
lemma quiet : Quiet (Kept s₀) :=
  ⟨fun r state h => h.setAbilityState r state, fun l h => h.terminating l⟩

lemma completing (l : List ConnectionRef) :
    Kept s₀ { s with completeConnectTasks := l } := { h with }

lemma delaying (l : List ConnectionRef) : Kept s₀ { s with delayDisconnectTasks := l } := { h with }

lemma timeouts (l : List (ServiceRef × List ConnectionRef)) :
    Kept s₀ { s with connectTimeouts := l } := { h with }

lemma died (l : List CallbackRef) : Kept s₀ { s with diedCallbacks := l } := { h with }

variable (c : ConnectionRef)

lemma modifyConnection (f : ConnectionRecord → ConnectionRecord) :
    Kept s₀ (s.modifyConnection c f) :=
  { h with }

lemma completeConnect : Kept s₀ (s.completeConnect c) :=
  .setAbilityState (h.modifyConnection c _) _ _

lemma completeDisconnect (isCallerDied : Bool) :
    Kept s₀ (s.completeDisconnect c isCallerDied) := h.modifyConnection c _

lemma removeConnectRecordFromList (c : ConnectionRef) :
    Kept s₀ (s.removeConnectRecordFromList r c) := h.modifyRecord r rfl

protected lemma removeConnectionRecordFromMap : Kept s₀ (s.removeConnectionRecordFromMap c) := by
  unfold removeConnectionRecordFromMap
  split
  · exact h
  dsimp only
  split <;> exact { h with }

lemma foldl {α : Type} {f : AbilityConnectManager → α → AbilityConnectManager}
    (hf : ∀ t, Kept s₀ t → ∀ a, Kept s₀ (f t a)) (l : List α) : Kept s₀ (l.foldl f s) :=
  List.foldlRecOn _ _ h fun t ht a _ => hf t ht a

lemma disconnectDirectly (c : ConnectionRef) : Kept s₀ (disconnectDirectly r s c) :=
  ((h.completeDisconnect c false).removeConnectRecordFromList r c).removeConnectionRecordFromMap c

lemma handleTerminateDisconnectTask : Kept s₀ (s.handleTerminateDisconnectTask r) :=
  h.foldl (fun _ ht c => ht.disconnectDirectly r c) _

protected lemma terminateAbilityLocked : Kept s₀ (s.terminateAbilityLocked r) := by
  unfold terminateAbilityLocked
  split
  · exact (h.handleTerminateDisconnectTask r).setAbilityState r _
  · exact h

protected lemma disconnectAbility : Kept s₀ (s.disconnectAbility c).2 := by
  unfold disconnectAbility
  have hd := h.modifyConnection c (·.setConnectState .disconnecting)
  dsimp only
  split
  · exact h
  split
  · exact hd
  · exact (hd.removeConnectRecordFromList _ c).modifyConnection c (·.setConnectState .disconnected)

protected lemma disconnectRecordNormal (list : List ConnectionRef) (c : ConnectionRef)
    (callerDied : Bool) : Kept s₀ (s.disconnectRecordNormal list c callerDied).2.2 := by
  unfold disconnectRecordNormal
  have hd := h.disconnectAbility c
  split
  · rename_i heq
    rw [heq] at hd
    split
    · exact hd.completeDisconnect c _
    · exact hd
  · rename_i heq
    rwa [heq] at hd

protected lemma clearConnCallBacks (connect : CallbackRef) :
    Kept s₀ (s.clearConnCallBacks connect) := by
  unfold clearConnCallBacks
  split
  · exact h
  · exact (h.died _).foldl (fun _ ht c => ht.modifyConnection c _) _

protected lemma handleExtensionDisconnectTask : Kept s₀ (s.handleExtensionDisconnectTask c) := by
  unfold handleExtensionDisconnectTask
  have hd := h.disconnectAbility c
  dsimp only
  split
  · exact (hd.completeDisconnect c false).removeConnectionRecordFromMap c
  · exact hd

protected lemma addConnectDeathRecipient (connect : CallbackRef) (added : Bool) :
    Kept s₀ (s.addConnectDeathRecipient connect added) := by
  unfold addConnectDeathRecipient
  split
  · exact h
  split
  · exact { h with }
  · exact h

protected lemma addConnection (connect : CallbackRef) (callerTokenId : ℕ)
    (added : Bool) : Kept s₀ (s.addConnection r connect callerTokenId added) := by
  have hc : Kept s₀ (s.createConnectionRecord r connect callerTokenId) := { h with }
  have hl : Kept s₀ ((s.createConnectionRecord r connect callerTokenId).modifyRecord r
      (·.addConnectRecordToList s.nextConnection)) := by
    refine hc.modifyRecord r ?_
    unfold ServiceRecord.addConnectRecordToList
    split <;> rfl
  unfold addConnection addConnectObjectToMap
  dsimp only
  split
  · exact { hl with }
  · have ha := hl.addConnectDeathRecipient connect added
    exact { ha with }

protected lemma scheduleConnectAbilityDone : Kept s₀ (s.scheduleConnectAbilityDone c) := by
  unfold scheduleConnectAbilityDone
  split
  · exact h.completeConnect c
  · exact h

protected lemma connectDoneOf (c : ConnectionRef) : Kept s₀ (connectDoneOf r s c) := by
  unfold connectDoneOf postExtensionDelayDisconnectTask
  have hc := h.scheduleConnectAbilityDone c
  dsimp only
  split
  · split
    · exact hc
    · exact hc.delaying _
  · exact hc

protected lemma runCompleteConnectTask : Kept s₀ (s.runCompleteConnectTask c) := by
  have hnext := h.modifyConnection c
    (·.completeNext (s.records (s.connections c).targetService).connRemoteObject)
  unfold runCompleteConnectTask
  dsimp only
  split
  · split
    · exact hnext.completing _
    · exact h
  · exact hnext.setAbilityState _ _
  · exact hnext

protected lemma runDelayDisconnectTask : Kept s₀ (s.runDelayDisconnectTask c) := by
  unfold runDelayDisconnectTask
  split
  · exact (h.delaying _).handleExtensionDisconnectTask c
  · exact h

end

end Kept

open Kept

def completion (s : AbilityConnectManager) :
    Op → Option (AbilityConnectManager × ServiceRef × (ℕ → ServiceEnv))
  | .completeForeground r delayed envs =>
    if (s.records r).currentState ≠ .foregrounding then none
    else
      let s := s.setAbilityState r .foreground
      some (if delayed then s.moveToBackground r else s, r, envs)
  | .completeBackground r envs =>
    if (s.records r).currentState ≠ .backgrounding then none
    else some (s.setAbilityState r .background, r, envs)
  | .handleForegroundTimeoutTask r envs => some (s.setAbilityState r .background, r, envs)
  | .scheduleConnectAbilityDone r remoteObject envs =>
    if (s.records r).currentState = .inactive ∨ (s.records r).currentState = .active then
      let s := s.modifyRecord r fun x =>
        { x with connectWant := none, connRemoteObject := remoteObject }
      some ((s.records r).connRecordList.foldl (connectDoneOf r) s, r, envs)
    else none
  | .scheduleCommandAbilityDone r envs =>
    if (s.records r).currentState = .inactive ∨ (s.records r).currentState = .active then
      some (s.setAbilityState r .active, r, envs)
    else none
  | .scheduleCommandAbilityWindowDone r envs => some (s, r, envs)
  | _ => none

variable {op : Op}

section
variable {t : AbilityConnectManager} {r : ServiceRef} {envs : ℕ → ServiceEnv}
  (hc : s.completion op = some (t, r, envs))
include hc

lemma step_of_completion : s.step op = t.completeStartServiceReq r envs ∨
    s.step op = (t.completeStartServiceReq r envs).terminateAbilityLocked r := by
  cases op with
  | completeForeground =>
    simp only [completion, step, completeForeground] at hc ⊢
    split_ifs at hc ⊢ <;> cases hc <;> exact .inl rfl
  | completeBackground =>
    simp only [completion, step, completeBackground] at hc ⊢
    split_ifs at hc ⊢
    cases hc
    exact .inr rfl
  | scheduleConnectAbilityDone =>
    simp only [completion, step, scheduleConnectAbilityDoneLocked] at hc ⊢
    split_ifs at hc ⊢
    cases hc
    exact .inl rfl
  | scheduleCommandAbilityDone =>
    simp only [completion, step, scheduleCommandAbilityDoneLocked] at hc ⊢
    split_ifs at hc ⊢
    cases hc
    exact .inl rfl
  | handleForegroundTimeoutTask | scheduleCommandAbilityWindowDone =>
    cases hc
    exact .inl rfl
  | _ => cases hc

lemma completion_some : Kept s t ∧ Kept (t.completeStartServiceReq r envs) (s.step op) := by
  refine ⟨?_, ?_⟩
  · have hs := refl s
    cases op with
    | completeForeground =>
      simp only [completion] at hc
      split_ifs at hc
      · cases hc
        exact quiet.moveToBackground (hs.setAbilityState _ _) _
      · cases hc
        exact hs.setAbilityState _ _
    | scheduleConnectAbilityDone =>
      simp only [completion] at hc
      split_ifs at hc
      cases hc
      exact (hs.modifyRecord _ rfl).foldl (fun _ ht c => ht.connectDoneOf _ c) _
    | completeBackground | scheduleCommandAbilityDone =>
      simp only [completion] at hc
      split_ifs at hc
      cases hc
      exact hs.setAbilityState _ _
    | handleForegroundTimeoutTask =>
      cases hc
      exact hs.setAbilityState _ _
    | scheduleCommandAbilityWindowDone =>
      cases hc
      exact hs
    | _ => cases hc
  · rcases step_of_completion hc with hstep | hstep <;> rw [hstep]
    · exact .refl _
    · exact (refl _).terminateAbilityLocked _

end

lemma step_of_completion_none (hop : op.isCompletion = true) (hc : s.completion op = none) :
    s.step op = s := by
  cases op with
  | completeForeground | completeBackground =>
    simp only [completion, ite_eq_left_iff, reduceCtorEq, not_not] at hc
    exact if_pos hc
  | scheduleConnectAbilityDone | scheduleCommandAbilityDone =>
    simp only [completion, ite_eq_right_iff, reduceCtorEq] at hc
    exact if_neg hc
  | handleForegroundTimeoutTask | scheduleCommandAbilityWindowDone => cases hc
  | _ => cases hop

structure Closed (I : AbilityConnectManager → Prop) : Prop where
  kept : ∀ {s s'}, Kept s s' → I s → I s'
  erase : ∀ {s} key, I s → I (s.eraseFromServiceMap key)
  filter : ∀ {s} keep, I s → I (s.filterServiceMap keep)
  remove : ∀ {s} r, I s → I (s.removeFromCache r)
  terminateOrCache : ∀ {s} r, s.inServiceMap r = true → I s → I (s.terminateOrCacheAbility r)

lemma Sheds.of_kept {I : AbilityConnectManager → Prop} (hkept : ∀ {s s'}, Kept s s' → I s → I s')
    (herase : ∀ {s} key, I s → I (s.eraseFromServiceMap key))
    (hfilter : ∀ {s} keep, I s → I (s.filterServiceMap keep))
    (hremove : ∀ {s} r, I s → I (s.removeFromCache r)) : Sheds I where
  state r _ := hkept ((refl _).setAbilityState r _)
  terminating l := hkept ((refl _).terminating l)
  erase := herase
  filter := hfilter
  remove := hremove

namespace Closed
variable {I : AbilityConnectManager → Prop}

section
variable (hI : Closed I)
include hI

lemma ends : Ends I where
  toSheds := .of_kept hI.kept hI.erase hI.filter hI.remove
  disconnect r := hI.kept ((refl _).handleTerminateDisconnectTask r)
  remote r := hI.kept ((refl _).modifyRecord r rfl)

protected lemma disconnectRecordForce (h : I s) (list : List ConnectionRef) (c : ConnectionRef) :
    I (s.disconnectRecordForce list c).2 := by
  have hd : I ((s.removeConnectRecordFromList (s.connections c).targetService c).completeDisconnect
      c true) :=
    hI.kept (((refl s).removeConnectRecordFromList _ c).completeDisconnect c true) h
  unfold disconnectRecordForce
  dsimp only
  split
  · exact hI.ends.terminateRecord hd _
  · exact hd

lemma disconnectRecords (callerDied : Bool) (callingTokenId : ℕ)
    (l list : List ConnectionRef) (h : I s) :
    I (disconnectRecords callerDied callingTokenId l list s).2.2 := by
  induction l generalizing list s with
  | nil => exact h
  | cons c rest ih =>
    unfold disconnectRecords
    have hn := hI.kept ((refl s).disconnectRecordNormal list c callerDied) h
    split
    · exact ih list h
    split
    · rename_i heq
      rw [heq] at hn
      exact ih _ hn
    · rename_i heq
      rw [heq] at hn
      split
      · rename_i list' s' _ _
        exact ih (s'.disconnectRecordForce list' c).1 (hI.disconnectRecordForce hn list' c)
      · exact hn

section
variable (h : I s)
include h

protected lemma disconnectAbilityLocked (connect : CallbackRef) (callerDied : Bool)
    (callingTokenId : ℕ) :
    I (s.disconnectAbilityLocked connect callerDied callingTokenId).2 := by
  unfold disconnectAbilityLocked
  split
  · exact h
  · exact hI.kept ((refl _).foldl (fun _ ht c => ht.removeConnectionRecordFromMap c) _)
      (hI.disconnectRecords callerDied callingTokenId (s.getConnectRecordListFromMap connect) [] h)

protected lemma handleCallBackDiedTask : I s.handleCallBackDiedTask := by
  unfold handleCallBackDiedTask
  split
  · exact h
  · exact hI.disconnectAbilityLocked (hI.kept ((refl s).died _) h) _ true _

variable (r : ServiceRef)

protected lemma scheduleDisconnectAbilityDoneLocked
    (sessionExist : Bool) : I (s.scheduleDisconnectAbilityDoneLocked r sessionExist) := by
  unfold scheduleDisconnectAbilityDoneLocked
  split
  · exact h
  rename_i hin
  split
  · exact h
  rename_i c _
  split
  · exact h
  have hk := ((refl s).completeDisconnect c
    (!(s.connections c).connCallback)).removeConnectRecordFromList r c
  refine hI.kept ((refl _).removeConnectionRecordFromMap c) ?_
  split
  · refine hI.terminateOrCache r ?_ (hI.kept hk h)
    simpa [inServiceMap, hk.serviceMap] using hin
  · exact hI.kept hk h

protected lemma handleStartTimeoutTask : I (s.handleStartTimeoutTask r) := by
  unfold handleStartTimeoutTask
  have hs := hI.kept ((refl s).foldl (fun _ ht c => ht.disconnectDirectly r c)
    (s.getConnectingRecordList r)) h
  dsimp only
  split
  · exact hI.ends.removeServiceAbility (hI.ends.moveToTerminatingMap hs r) r
  · exact hs

protected lemma handleConnectTimeoutTask : I s.handleConnectTimeoutTask := by
  unfold handleConnectTimeoutTask
  split
  · exact h
  rename_i r l rest _
  have hs := hI.kept (((refl s).timeouts rest).foldl (fun _ ht c => ht.disconnectDirectly r c) l) h
  dsimp only
  split
  · exact hs
  · exact hI.ends.terminateRecord hs r

lemma step {op : Op} (hc : s.completion op = none) (hop : op.entersMaps = false) :
    I (s.step op) := by
  cases op with
  | disconnectAbility connect callingTokenId =>
    exact hI.disconnectAbilityLocked h connect false callingTokenId
  | clearConnCallBacks connect => exact hI.kept ((refl s).clearConnCallBacks connect) h
  | handleCallBackDiedTask => exact hI.handleCallBackDiedTask h
  | scheduleDisconnectAbilityDone r sessionExist =>
    exact hI.scheduleDisconnectAbilityDoneLocked h r sessionExist
  | handleStartTimeoutTask r => exact hI.handleStartTimeoutTask h r
  | readConnectList r => exact hI.kept ((refl s).timeouts _) h
  | handleConnectTimeoutTask => exact hI.handleConnectTimeoutTask h
  | completeConnectTask c => exact hI.kept ((refl s).runCompleteConnectTask c) h
  | delayDisconnectTask c => exact hI.kept ((refl s).runDelayDisconnectTask c) h
  | connectAbility => cases hop
  | completeForeground | completeBackground | handleForegroundTimeoutTask
  | scheduleConnectAbilityDone | scheduleCommandAbilityDone | scheduleCommandAbilityWindowDone =>
    rw [step_of_completion_none rfl hc]
    exact h
  | _ => exact hI.ends.step h rfl hop rfl

end

end

end Closed

variable (s)

lemma modifyRecord_createRecord (record : ServiceRecord) (f : ServiceRecord → ServiceRecord) :
    (s.createRecord record).modifyRecord s.nextRecord f = s.createRecord (f record) := by
  simp [modifyRecord, createRecord]

variable (request : ServiceRequest)

lemma addExtensionRecord_createRecord (record : ServiceRecord) :
    (s.createRecord record).addExtensionRecord request s.nextRecord =
      (s.createRecord { record with
        uri := extensionRecordKey request record.uiExtensionAbilityId }).addToServiceMap
          (extensionRecordKey request record.uiExtensionAbilityId) s.nextRecord := by
  simp only [addExtensionRecord, modifyRecord_createRecord]
  simp [createRecord]

def Finds (r : ServiceRef) : Prop :=
  (∃ key, s.serviceMap.find? key = some r) ∨ s.abilityCache.Holds r

def Known : Prop := ∀ r, s.Finds r → r < s.nextRecord

def maps := (s.serviceMap, s.abilityCache, s.nextRecord)

variable {s}

lemma getOrCreateExtensionRecord_none {request : ServiceRequest}
    {isCreatedByConnect : Bool} {answer : ExtensionAnswer}
    (hg : s.getOrCreateExtensionRecord request isCreatedByConnect answer = (none, s')) :
    s' = s := by
  unfold getOrCreateExtensionRecord at hg
  split at hg
  · cases hg
    rfl
  · split at hg
    · cases hg
    · cases hg
      rfl
  · cases hg

lemma getOrCreateTarget_none {request : ServiceRequest} {connectInfo : Bool} {env : ServiceEnv}
    (hg : s.getOrCreateTargetServiceRecord request connectInfo env = (none, s')) : s' = s := by
  unfold getOrCreateTargetServiceRecord at hg
  split at hg
  · exact getOrCreateExtensionRecord_none hg
  · cases hg

variable (s)

lemma startTarget_maps (r : ServiceRef) (isLoadedAbility : Bool) (env : ServiceEnv) :
    (s.startTarget request r isLoadedAbility env).maps = s.maps := by
  unfold startTarget doForegroundUIExtension
  dsimp only
  split_ifs <;> rfl

lemma connectTarget_maps (r : ServiceRef) (c : ConnectionRef) (isLoadedAbility reported : Bool) :
    (s.connectTarget request r c isLoadedAbility reported).maps = s.maps := by
  unfold connectTarget handleActiveAbility
  split_ifs <;> rfl

variable {s}

namespace Known

lemma of_maps (h : Known s) (hm : s'.maps = s.maps) : Known s' := by
  simp only [maps, Prod.mk.injEq] at hm
  intro r hr
  rw [hm.2.2]
  exact h r (by rwa [Finds, hm.1, hm.2.1] at hr)

lemma kept (hk : Kept s s') (h : Known s) : Known s' :=
  h.of_maps (by simp [maps, hk.serviceMap, hk.abilityCache, hk.nextRecord])

variable {r : ServiceRef}

protected lemma addToServiceMap (h : Known s) (hr : r < s.nextRecord) (key : String) :
    Known (s.addToServiceMap key r) := by
  rintro r' (⟨key', hf⟩ | hc)
  · simp only [addToServiceMap, SortedMap.find?_emplace] at hf
    split at hf
    · cases hk : s.serviceMap.find? key with
      | none =>
        rw [hk] at hf
        cases hf
        exact hr
      | some r₀ =>
        rw [hk] at hf
        cases hf
        exact h _ (.inl ⟨key, hk⟩)
    · exact h r' (.inl ⟨key', hf⟩)
  · exact h r' (.inr hc)

lemma eraseFromServiceMap (h : Known s) (key : String) :
    Known (s.eraseFromServiceMap key) := by
  rintro r (⟨key', hf⟩ | hc)
  · exact h r (.inl ⟨key', (SortedMap.find?_erase_eq_some.mp hf).2⟩)
  · exact h r (.inr hc)

protected lemma filterServiceMap (h : Known s) (keep : ServiceRef → Bool) :
    Known (s.filterServiceMap keep) := by
  rintro r (⟨key', hf⟩ | hc)
  · simp only [filterServiceMap, SortedMap.find?_traverse] at hf
    obtain ⟨r', hr', hkeep⟩ := Option.bind_eq_some_iff.mp hf
    split at hkeep
    · cases hkeep
      exact h r (.inl ⟨key', hr'⟩)
    · cases hkeep
  · exact h r (.inr hc)

lemma removeFromCache (h : Known s) (r : ServiceRef) : Known (s.removeFromCache r) := by
  rintro r' (hf | hc)
  · exact h r' (.inl hf)
  · exact h r' (.inr (holds_of_remove hc))

variable {o : Option ServiceRef}

lemma putInCache (h : Known s) (hr : r < s.nextRecord) (hp : s.putInCache r = (o, s')) :
    Known s' ∧ s'.nextRecord = s.nextRecord ∧ ∀ v, o = some v → v < s.nextRecord := by
  obtain ⟨hv, hh⟩ := holds_of_put (show s.abilityCache.put s.tokenOf (some r) = (_, _) from rfl)
  cases hp
  refine ⟨?_, rfl, fun v hv' => ?_⟩
  · rintro r' (hf | hc)
    · exact h r' (.inl hf)
    · rcases hh r' hc with rfl | hc
      · exact hr
      · exact h r' (.inr hc)
  · rcases hv v hv' with rfl | hc
    · exact hr
    · exact h v (.inr hc)

lemma sheds : Sheds Known :=
  .of_kept kept (fun key h => h.eraseFromServiceMap key) (fun keep h => h.filterServiceMap keep)
    fun r h => h.removeFromCache r

lemma lt_of_inServiceMap (h : Known s) (hr : s.inServiceMap r = true) : r < s.nextRecord := by
  obtain ⟨e, he, rfl⟩ : ∃ e ∈ s.serviceMap.entries, e.2 = r := by
    simpa [inServiceMap] using hr
  exact h e.2 (.inl ⟨e.1, SortedMap.mem_entries.mp he⟩)

protected lemma terminateOrCacheAbility (h : Known s) (r : ServiceRef)
    (hr : s.inServiceMap r = true) : Known (s.terminateOrCacheAbility r) := by
  unfold terminateOrCacheAbility
  have he := h.eraseFromServiceMap (s.records r).terminatingKey
  split
  · exact h
  split
  · split
    · rename_i heq
      exact (he.putInCache (h.lt_of_inServiceMap hr) heq).1
    · rename_i v s' heq
      obtain ⟨hs, hn, hv⟩ := he.putInCache (h.lt_of_inServiceMap hr) heq
      exact sheds.terminateRecord (hs.addToServiceMap (hn ▸ hv v rfl) _) v
  · exact sheds.terminateRecord h r

lemma closed : Closed Known :=
  ⟨kept, sheds.erase, sheds.filter, sheds.remove, fun r hr h => h.terminateOrCacheAbility r hr⟩

section
variable (h : Known s)
include h

lemma createRecord (record : ServiceRecord) : Known (s.createRecord record) :=
  fun r hr => (h r hr).trans (lt_succ_self _)

variable (request : ServiceRequest)

lemma getFromCache (hg : s.getFromCache request = (o, s')) :
    Known s' ∧ s'.nextRecord = s.nextRecord ∧ ∀ r, o = some r → r < s.nextRecord := by
  obtain ⟨hv, hh⟩ := holds_of_get
    (show s.abilityCache.get request.cacheRequest (fun r => (s.records r).recordInfo) = (_, _)
      from rfl)
  cases hg
  refine ⟨?_, rfl, fun r hr => h r (.inr (hv r hr))⟩
  rintro r (hf | hc)
  · exact h r (.inl hf)
  · exact h r (.inr (hh r hc))

protected lemma findServiceRecord (useCache : Bool)
    (hf : s.findServiceRecord request useCache = (o, s')) :
    Known s' ∧ s'.nextRecord = s.nextRecord ∧ ∀ r, o = some r → r < s.nextRecord := by
  unfold findServiceRecord at hf
  split at hf
  · rename_i hr
    cases hf
    exact ⟨h, rfl, fun r' hr' => by cases hr'; exact h _ (.inl ⟨_, hr⟩)⟩
  split at hf
  · split at hf
    · rename_i r t heq
      cases hf
      obtain ⟨ht, hn, hr⟩ := h.getFromCache request heq
      exact ⟨ht.addToServiceMap (hn ▸ hr r rfl) _, hn, hr⟩
    · rename_i heq
      cases hf
      obtain ⟨ht, hn, -⟩ := h.getFromCache request heq
      exact ⟨ht, hn, fun _ hr => nomatch hr⟩
  · cases hf
    exact ⟨h, rfl, fun _ hr => nomatch hr⟩

lemma createServiceRecord (isCreatedByConnect : Bool) :
    Known (s.createServiceRecord request isCreatedByConnect) :=
  .addToServiceMap (h.createRecord _) (lt_succ_self _) _

protected lemma getOrCreateServiceRecord (isCreatedByConnect isLoaded : Bool)
    (hg : s.getOrCreateServiceRecord request isCreatedByConnect = ((r, isLoaded), s')) :
    Known s' ∧ r < s'.nextRecord := by
  unfold getOrCreateServiceRecord at hg
  dsimp only at hg
  split at hg
  · rename_i heq
    obtain ⟨ht, hn, hr⟩ := h.findServiceRecord request _ heq
    split at hg
    · cases hg
      exact ⟨(ht.eraseFromServiceMap _).createServiceRecord request _, lt_succ_self _⟩
    · cases hg
      exact ⟨ht, hn ▸ hr r rfl⟩
  · rename_i heq
    cases hg
    exact ⟨(h.findServiceRecord request _ heq).1.createServiceRecord request _, lt_succ_self _⟩

lemma modifyRecord (r : ServiceRef) (f : ServiceRecord → ServiceRecord) :
    Known (s.modifyRecord r f) := h

lemma addExtensionRecord (hr : r < s.nextRecord) : Known (s.addExtensionRecord request r) :=
  .addToServiceMap (h.modifyRecord r _) hr _

protected lemma getOrCreateExtensionRecord (isCreatedByConnect isLoaded : Bool)
    (answer : ExtensionAnswer)
    (hg : s.getOrCreateExtensionRecord request isCreatedByConnect answer =
      (some (r, isLoaded), s')) :
    Known s' ∧ r < s'.nextRecord := by
  unfold getOrCreateExtensionRecord at hg
  split at hg
  · cases hg
  · split_ifs at hg with hlt
    · cases hg
      exact ⟨addExtensionRecord (h.modifyRecord r _) request hlt.1, hlt.1⟩
    · cases hg
  · cases hg
    exact ⟨addExtensionRecord ((h.createRecord _).modifyRecord _ _) request (lt_succ_self _),
      lt_succ_self _⟩

protected lemma getOrCreateTargetServiceRecord (connectInfo : Bool) (env : ServiceEnv)
    {isLoaded : Bool}
    (hg : s.getOrCreateTargetServiceRecord request connectInfo env = (some (r, isLoaded), s')) :
    Known s' ∧ r < s'.nextRecord := by
  unfold getOrCreateTargetServiceRecord at hg
  split at hg
  · exact h.getOrCreateExtensionRecord request _ _ _ hg
  · obtain ⟨ht, rfl⟩ := Prod.mk.injEq .. ▸ hg
    exact h.getOrCreateServiceRecord request _ _ (Prod.ext (Option.some.inj ht) rfl)

protected lemma startAbilityLocked (env : ServiceEnv) :
    Known (s.startAbilityLocked request env) := by
  unfold startAbilityLocked
  split
  · split
    · rename_i heq
      exact getOrCreateExtensionRecord_none heq ▸ h
    · rename_i heq
      exact (h.getOrCreateExtensionRecord request _ _ _ heq).1.of_maps (startTarget_maps ..)
  · exact (h.getOrCreateServiceRecord request _ _ rfl).1.of_maps (startTarget_maps ..)

protected lemma completeStartServiceReq (r : ServiceRef) (envs : ℕ → ServiceEnv) :
    Known (s.completeStartServiceReq r envs) := by
  have hr : ∀ (l : List QueuedRequest) {t : AbilityConnectManager}, Known t →
      Known (t.restartRequests envs l) := by
    intro l
    induction l with
    | nil => exact fun ht => ht
    | cons q rest ih =>
      intro t ht
      have hl : Known (t.logQueue [.restarted q.ticket]) := ht
      exact ih (hl.startAbilityLocked q.request _)
  unfold completeStartServiceReq
  dsimp only
  split
  · exact h.of_maps rfl
  · exact hr _ (h.of_maps rfl)

protected lemma connectAbilityLocked (connect : CallbackRef) (callerTokenId : ℕ)
    (connectInfo : Bool) (env : ServiceEnv) :
    Known (s.connectAbilityLocked request connect callerTokenId connectInfo env) := by
  unfold connectAbilityLocked
  split
  · rename_i heq
    exact getOrCreateTarget_none heq ▸ h
  rename_i r isLoaded t heq
  have ht := (h.getOrCreateTargetServiceRecord request connectInfo env heq).1
  split
  · exact ht
  · exact (ht.kept ((refl t).addConnection r connect callerTokenId _)).of_maps
      (connectTarget_maps ..)

protected lemma preloadUIExtensionAbility : Known (s.preloadUIExtensionAbility request) := by
  unfold preloadUIExtensionAbility
  split
  · exact addExtensionRecord (h.createRecord _) request (lt_succ_self _)
  · exact h

protected lemma stopServiceAbilityLocked : Known (s.stopServiceAbilityLocked request) := by
  unfold stopServiceAbilityLocked
  split
  · rename_i heq
    exact (h.findServiceRecord request _ heq).1
  · rename_i r t heq
    exact sheds.terminateRecord ((h.findServiceRecord request _ heq).1.kept
      ((refl t).handleTerminateDisconnectTask r)) r

protected lemma dispatchInactive (r : ServiceRef) : Known (s.dispatchInactive r) := by
  unfold dispatchInactive
  dsimp only
  split_ifs <;> exact h

protected lemma step (op : Op) : Known (s.step op) := by
  cases hc : s.completion op with
  | some p =>
    obtain ⟨hbefore, hafter⟩ := completion_some hc
    exact ((h.kept hbefore).completeStartServiceReq p.2.1 p.2.2).kept hafter
  | none =>
    cases op with
    | startAbility request env => exact h.startAbilityLocked request env
    | preloadUIExtensionAbility request => exact h.preloadUIExtensionAbility request
    | connectAbility request connect callerTokenId connectInfo env =>
      exact h.connectAbilityLocked request connect callerTokenId connectInfo env
    | stopServiceAbility request => exact h.stopServiceAbilityLocked request
    | dispatchInactive r => exact h.dispatchInactive r
    | startServiceTimeout abilityUri =>
      simp only [step, startServiceTimeout]
      split <;> exact h
    | _ => exact closed.step h hc rfl

end

end Known

end AbilityConnectManager
end AbilityRuntime
