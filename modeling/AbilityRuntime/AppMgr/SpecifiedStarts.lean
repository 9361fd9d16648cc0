import AbilityRuntime.Library.Runs
import Mathlib.Data.List.Nodup

/-! The answers to specified starts. A handler is one step; a call to a process and a delayed event
are known with the request they are for, and an event with the record that sent it. -/

open Function

namespace AbilityRuntime.SpecifiedStart
open List

inductive Kind
  | ability
  | process
  deriving DecidableEq

/-- `startSpecified` is `START_SPECIFIED_ABILITY_TIMEOUT_MSG` or
`START_SPECIFIED_PROCESS_TIMEOUT_MSG`. -/
inductive Msg
  | startProcessSpecifiedAbility
  | addAbilityStageInfo
  | startSpecified (kind : Kind)
  deriving DecidableEq

def Msg.slots : Msg → List Kind
  | .startProcessSpecifiedAbility | .addAbilityStageInfo => [.ability, .process]
  | .startSpecified kind => [kind]

section
variable (W : Type)

structure Slot where
  requestId : Option ℕ
  want : W

structure Request where
  slot : ℕ × Kind
  want : W

structure Answer where
  kind : Kind
  requestId : Option ℕ
  want : W

/-- `slot` has `specifiedRequestId_` and `specifiedWant_` of each record, and
`newProcessRequestId_` and `newProcessRequestWant_`. The processes have not replied to `calls`;
`handled` are the requests with a reply or timeout that was handled. -/
structure Requests where
  slot : ℕ × Kind → Slot W
  calls : List (ℕ × Request W) := []
  requests : ℕ → Option (Request W) := fun _ => none
  answers : List (Answer W) := []
  handled : List ℕ := []

end

variable {W : Type}

namespace Requests
variable (q : Requests W) (p : ℕ × Kind)

def addRequest (requestId : ℕ) (request : Request W) : Requests W :=
  { q with requests := Function.update q.requests requestId (some request) }

def setRequest (requestId : ℕ) (want : W) : Requests W :=
  { q with slot := Function.update q.slot p ⟨some requestId, want⟩ }

def call (requestId : ℕ) : Requests W :=
  { q with calls := q.calls ++ [(requestId, ⟨p, (q.slot p).want⟩)] }

/-- `ResetSpecifiedRequestId` and `ResetNewProcessRequestId`. -/
def resetRequestId : Requests W :=
  { q with slot := Function.update q.slot p { q.slot p with requestId := none } }

def answer (a : Answer W) : Requests W := { q with answers := q.answers ++ [a] }

def respond (want : W) : Requests W :=
  (q.resetRequestId p).answer ⟨p.2, (q.slot p).requestId, want⟩

def respondTimeout : Requests W :=
  if (q.slot p).requestId.isSome then q.respond p (q.slot p).want else q

def handleTimeOut (r : ℕ) : Msg → Requests W
  | .startProcessSpecifiedAbility | .addAbilityStageInfo =>
    (q.respondTimeout (r, .ability)).respondTimeout (r, .process)
  | .startSpecified .ability => q.respondTimeout (r, .ability)
  -- here it is not asked whether there is a request
  | .startSpecified .process => q.respond (r, .process) (q.slot (r, .process)).want

def answered : List (Option ℕ) := q.answers.map (·.requestId)

structure OwnAnswers : Prop where
  own : ∀ a ∈ q.answers, ∃ id request, a.requestId = some id ∧ q.requests id = some request ∧
    request.slot.2 = a.kind ∧ request.want = a.want
  once : q.answered.Nodup
  left : ∀ id ∈ q.handled, some id ∈ q.answered

structure Filed : Prop extends OwnAnswers q where
  slot : ∀ p id, (q.slot p).requestId = some id →
    q.requests id = some ⟨p, (q.slot p).want⟩ ∧ some id ∉ q.answered
  call : ∀ call ∈ q.calls, q.requests call.1 = some call.2

structure IsNew (id : ℕ) (request : Request W) : Prop where
  request : q.requests id = some request
  answer : some id ∉ q.answered
  slot : ∀ p, (q.slot p).requestId ≠ some id

variable {q p} {id : ℕ} {want : W} {request : Request W}

lemma Filed.addRequest (h : q.Filed) (hnew : q.requests id = none) (request : Request W) :
    (q.addRequest id request).Filed ∧ (q.addRequest id request).IsNew id request := by
  have hne {id' : ℕ} {x : Request W} (hid : q.requests id' = some x) :
      (q.addRequest id request).requests id' = some x := by
    rw [← hid]
    exact update_of_ne (fun heq => by simp [← heq, hid] at hnew) _ _
  refine ⟨⟨{ h with own := fun a ha => ?_ }, fun p id hid => ?_, fun call hcall => ?_⟩,
    update_self .., fun hmem => ?_, fun p hid => ?_⟩
  · obtain ⟨id, x, hid, hx, hown⟩ := h.own a ha
    exact ⟨id, x, hid, hne hx, hown⟩
  · exact ⟨hne (h.slot p id hid).1, (h.slot p id hid).2⟩
  · exact hne (h.call call hcall)
  · obtain ⟨a, ha, hid⟩ := mem_map.mp hmem
    obtain ⟨id', x, hid', hx, -⟩ := h.own a ha
    rw [hid] at hid'
    rw [← Option.some.inj hid', hnew] at hx
    cases hx
  · exact absurd (h.slot p _ hid).1 (by simp [hnew])

lemma Filed.setRequest (h : q.Filed) (hnew : q.IsNew id ⟨p, want⟩) :
    (q.setRequest p id want).Filed := by
  refine ⟨{ h with }, fun p' id' => ?_, h.call⟩
  simp only [Requests.setRequest, update_apply]
  split_ifs with heq
  · rintro ⟨⟩
    exact ⟨heq ▸ hnew.request, hnew.answer⟩
  · exact h.slot p' id'

lemma Filed.schedule (h : q.Filed) (hid : (q.slot p).requestId = some id) :
    (q.call p id).Filed := by
  refine ⟨{ h with }, h.slot, fun call hcall => ?_⟩
  rcases mem_append.mp hcall with hcall | hcall
  · exact h.call call hcall
  · rw [mem_singleton.mp hcall]
    exact (h.slot p id hid).1

lemma Filed.answer (h : q.Filed) (hnew : q.IsNew id request) :
    (q.answer ⟨request.slot.2, some id, request.want⟩).Filed := by
  have hanswered : (q.answer ⟨request.slot.2, some id, request.want⟩).answered =
      q.answered ++ [some id] := by
    simp [answered, Requests.answer]
  refine ⟨⟨fun a ha => ?_, ?_, fun id' hid' => ?_⟩, fun p id' hid' => ?_, h.call⟩
  · rcases mem_append.mp ha with ha | ha
    · exact h.own a ha
    · rw [mem_singleton.mp ha]
      exact ⟨id, request, rfl, hnew.request, rfl, rfl⟩
  · rw [hanswered, ← concat_eq_append]
    exact h.once.concat hnew.answer
  · rw [hanswered]
    exact mem_append_left _ (h.left id' hid')
  · refine ⟨(h.slot p id' hid').1, ?_⟩
    rw [hanswered, mem_append, mem_singleton]
    rintro (hmem | heq)
    · exact (h.slot p id' hid').2 hmem
    · exact hnew.slot p (heq ▸ hid')

lemma answered_respond : (q.respond p want).answered = q.answered ++ [(q.slot p).requestId] := by
  simp [answered, respond, resetRequestId, Requests.answer]

lemma Filed.respond (h : q.Filed) (hslot : q.slot p = ⟨some id, want⟩) :
    (q.respond p want).Filed := by
  obtain ⟨hid, hnew⟩ := h.slot p id (by rw [hslot])
  rw [hslot] at hid
  have hreset : (q.resetRequestId p).Filed := by
    refine ⟨{ h with }, fun p' id' => ?_, h.call⟩
    simp only [resetRequestId, update_apply]
    split_ifs
    · exact nofun
    · exact h.slot p' id'
  unfold Requests.respond
  rw [hslot]
  refine hreset.answer ⟨hid, hnew, fun p' => ?_⟩
  simp only [resetRequestId, update_apply]
  split_ifs with heq
  · exact nofun
  · -- a request says in which slot it is
    intro hid'
    have hrequest := hid.symm.trans (h.slot p' id hid').1
    simp only [Option.some.injEq, Request.mk.injEq] at hrequest
    exact heq hrequest.1.symm

lemma Filed.respond_want (h : q.Filed) (hsome : (q.slot p).requestId.isSome) :
    (q.respond p (q.slot p).want).Filed := by
  obtain ⟨id, hid⟩ := Option.isSome_iff_exists.mp hsome
  have hslot : q.slot p = ⟨some id, (q.slot p).want⟩ := by rw [← hid]
  exact h.respond hslot

lemma Filed.respondTimeout (h : q.Filed) (p : ℕ × Kind) : (q.respondTimeout p).Filed := by
  unfold Requests.respondTimeout
  split
  · exact h.respond_want ‹_›
  · exact h

lemma mem_answered_respondTimeout : some id ∈ (q.respondTimeout p).answered ↔
      some id ∈ q.answered ∨ (q.slot p).requestId = some id := by
  unfold Requests.respondTimeout
  split_ifs with hnone
  · rw [answered_respond, mem_append, mem_singleton, eq_comm]
  · refine ⟨.inl, fun h => h.resolve_right fun hid => hnone ?_⟩
    rw [hid, Option.isSome_some]

lemma slot_respondTimeout_of_ne {p' : ℕ × Kind} (hne : p' ≠ p) :
    (q.respondTimeout p).slot p' = q.slot p' := by
  unfold Requests.respondTimeout
  split
  · exact update_of_ne hne _ _
  · rfl

variable {r : ℕ} {msg : Msg}

lemma Filed.handleTimeOut (h : q.Filed)
    (hp : msg = .startSpecified .process → (q.slot (r, .process)).requestId.isSome) :
    (q.handleTimeOut r msg).Filed := by
  unfold Requests.handleTimeOut
  split
  · exact (h.respondTimeout _).respondTimeout _
  · exact (h.respondTimeout _).respondTimeout _
  · exact h.respondTimeout _
  · exact h.respond_want (hp rfl)

lemma mem_answered_handleTimeOut : some id ∈ (q.handleTimeOut r msg).answered ↔
      some id ∈ q.answered ∨ ∃ kind ∈ msg.slots, (q.slot (r, kind)).requestId = some id := by
  have hstage :
      some id ∈ ((q.respondTimeout (r, .ability)).respondTimeout (r, .process)).answered ↔
        some id ∈ q.answered ∨ (q.slot (r, .ability)).requestId = some id ∨
          (q.slot (r, .process)).requestId = some id := by
    rw [mem_answered_respondTimeout, mem_answered_respondTimeout,
      slot_respondTimeout_of_ne (by simp), or_assoc]
  rcases msg with _ | _ | (_ | _)
  · exact hstage.trans (by simp [Msg.slots])
  · exact hstage.trans (by simp [Msg.slots])
  · exact mem_answered_respondTimeout.trans (by simp [Msg.slots])
  · simp [Requests.handleTimeOut, answered_respond, Msg.slots, eq_comm]

lemma Filed.handle (h : q.Filed) {due : List ℕ} (hdue : ∀ id ∈ due, some id ∈ q.answered) :
    { q with handled := due ++ q.handled }.Filed where
  __ := h
  left id hid := (mem_append.mp hid).elim (hdue id) (h.left id)

end Requests

open Requests

structure Module where
  bundleName : String
  moduleName : String
  initialized : Bool := true
  deriving DecidableEq

structure AppRunningRecord where
  processName : String := ""
  mainBundleName : String := ""
  isDebugApp : Bool := false
  isEmptyKeepAliveApp : Bool := false
  moduleName : String := ""
  hapModules : List Module := []
  isLaunched : Bool := false
  isTerminating : Bool := false
  eventId : ℕ := 0
  startProcessSpecifiedAbilityEventId : ℕ := 0
  addAbilityStageInfoEventId : ℕ := 0

namespace AppRunningRecord
variable (x : AppRunningRecord)

def setEventId (eventId : ℕ) : Msg → AppRunningRecord
  | .startProcessSpecifiedAbility =>
    { x with eventId, startProcessSpecifiedAbilityEventId := eventId }
  | .addAbilityStageInfo => { x with eventId, addAbilityStageInfoEventId := eventId }
  | .startSpecified _ => { x with eventId }

def clearEventId : Msg → AppRunningRecord
  | .startProcessSpecifiedAbility => { x with startProcessSpecifiedAbilityEventId := 0 }
  | .addAbilityStageInfo => { x with addAbilityStageInfoEventId := 0 }
  | .startSpecified _ => x

def getModuleRecordByModuleName (m : Module) : Bool :=
  x.hapModules.any fun y => y.bundleName = m.bundleName ∧ y.moduleName = m.moduleName

def addModules (m : Module) : AppRunningRecord :=
  if x.getModuleRecordByModuleName m then x else { x with hapModules := x.hapModules ++ [m] }

def getTheModuleInfoNeedToUpdated (bundleName : String) : Option Module :=
  x.hapModules.find? fun m => m.bundleName = bundleName ∧
    (x.moduleName = "" ∨ x.moduleName = m.moduleName) ∧ m.initialized

def setRunning (m : Module) : AppRunningRecord :=
  { x with hapModules := x.hapModules.map fun y =>
      if y = m then { y with initialized := false } else y }

end AppRunningRecord

structure Event where
  msg : Msg
  eventId : ℕ
  record : ℕ
  request : Option ℕ

structure AppMgrServiceInner (W : Type) extends Requests W where
  records : ℕ → AppRunningRecord := fun _ => {}
  recordCount : ℕ := 0
  appEventId : ℕ := 0
  events : List Event := []

namespace AppMgrServiceInner

def init [Inhabited W] : AppMgrServiceInner W := { slot := fun _ => ⟨none, default⟩ }

variable (s : AppMgrServiceInner W) (r : ℕ)

def modify (f : AppRunningRecord → AppRunningRecord) : AppMgrServiceInner W :=
  { s with records := Function.update s.records r (f (s.records r)) }

def sendEvent (msg : Msg) (request : Option ℕ) : AppMgrServiceInner W :=
  if (s.records r).isDebugApp then s
  else
    { s.modify r (·.setEventId (s.appEventId + 1) msg) with
      appEventId := s.appEventId + 1
      events := s.events ++ [⟨msg, s.appEventId + 1, r, request⟩] }

def removeEvent (msg : Msg) (eventId : ℕ) : AppMgrServiceInner W :=
  { s with events := s.events.filter fun e => ¬(e.msg = msg ∧ e.eventId = eventId) }

/-- `ScheduleAcceptWant` and `ScheduleNewProcessRequest`, for the request of the slot. -/
def schedule (kind : Kind) (requestId : ℕ) : AppMgrServiceInner W :=
  { s.sendEvent r (.startSpecified kind) (some requestId) with
    toRequests := s.toRequests.call (r, kind) requestId }

/-- The three functions that add an ability stage differ in the bundle and the event. The records
are of the stage model, which only `AddAbilityStage` checks. -/
def addAbilityStageWith (bundleName : String) (isEventSent : Bool) (request : Option ℕ) :
    AppMgrServiceInner W :=
  match (s.records r).getTheModuleInfoNeedToUpdated bundleName with
  | none => s
  | some m =>
    let s := s.modify r (·.setRunning m)
    if isEventSent then s.sendEvent r .addAbilityStageInfo request else s

def addAbilityStage : AppMgrServiceInner W :=
  s.addAbilityStageWith r (s.records r).mainBundleName true none

/-- `AddAbilityStageBySpecifiedAbility` and `AddAbilityStageBySpecifiedProcess`. -/
def addAbilityStageBySpecified (kind : Kind) (bundleName : String) : AppMgrServiceInner W :=
  s.addAbilityStageWith r bundleName
    (kind = .process ∨ (s.records r).startProcessSpecifiedAbilityEventId = 0)
    (s.slot (r, kind)).requestId

def checkAppRunningRecordIsExist (processName : String) : Option ℕ :=
  (List.range s.recordCount).find? fun r =>
    (s.records r).processName = processName ∧ !(s.records r).isTerminating

structure Start (W : Type) where
  processName : String
  isDebugApp : Bool
  module : Module
  want : W
  requestId : ℕ

variable (start : Start W)

def target : ℕ := (s.checkAppRunningRecordIsExist start.processName).getD s.recordCount

def addRequest (kind : Kind) : AppMgrServiceInner W :=
  { s with
    toRequests := s.toRequests.addRequest start.requestId ⟨(s.target start, kind), start.want⟩ }

def createAppRunningRecord (x : AppRunningRecord) : AppMgrServiceInner W :=
  { s.modify s.recordCount fun _ => x with recordCount := s.recordCount + 1 }

/-- `SetSpecifiedAbilityFlagAndWant` and `SetScheduleNewProcessRequestState`. -/
def setRequest (kind : Kind) : AppMgrServiceInner W :=
  { s.modify r ({ · with moduleName := start.module.moduleName }) with
    toRequests := s.toRequests.setRequest (r, kind) start.requestId start.want }

def startInProcess (kind : Kind) : AppMgrServiceInner W :=
  let m := start.module
  let s := s.setRequest r start kind
  if (s.records r).getModuleRecordByModuleName m then s.schedule r kind start.requestId
  else (s.modify r (·.addModules m)).addAbilityStageBySpecified r kind m.bundleName

def startSpecifiedAbility : AppMgrServiceInner W :=
  match s.checkAppRunningRecordIsExist start.processName with
  | none =>
    let r := s.recordCount
    let s := s.createAppRunningRecord
      { processName := start.processName, mainBundleName := start.module.bundleName
        isDebugApp := start.isDebugApp }
    let s := s.sendEvent r .startProcessSpecifiedAbility (some start.requestId)
    (s.setRequest r start .ability).modify r (·.addModules start.module)
  | some r =>
    let s := s.modify r fun x => { x with isDebugApp := x.isDebugApp || start.isDebugApp }
    s.startInProcess r start .ability

def startSpecifiedProcess : AppMgrServiceInner W :=
  match s.checkAppRunningRecordIsExist start.processName with
  | none =>
    { s with toRequests := s.toRequests.answer ⟨.process, some start.requestId, start.want⟩ }
  | some r => s.startInProcess r start .process

def launchApplication : AppMgrServiceInner W :=
  let x := s.records r
  if x.isLaunched ∨ s.recordCount ≤ r then s
  else
    let s := s.modify r ({ · with isLaunched := true })
    if x.isEmptyKeepAliveApp then s.addAbilityStage r
    else if (s.slot (r, .ability)).requestId.isSome then
      s.addAbilityStageBySpecified r .ability x.mainBundleName
    else s

def addAbilityStageDone : AppMgrServiceInner W :=
  let x := s.records r
  let s := s.removeEvent .startProcessSpecifiedAbility x.startProcessSpecifiedAbilityEventId
  let s := s.removeEvent .addAbilityStageInfo x.addAbilityStageInfoEventId
  let s := s.modify r fun x =>
    { x with startProcessSpecifiedAbilityEventId := 0, addAbilityStageInfoEventId := 0 }
  match (s.slot (r, .ability)).requestId, (s.slot (r, .process)).requestId with
  | some requestId, _ => s.schedule r .ability requestId
  | none, some requestId => s.schedule r .process requestId
  | none, none => s.addAbilityStage r

/-- `ScheduleAcceptWantDone` and `ScheduleNewProcessRequestDone`. -/
def scheduleDone (call : Request W) : AppMgrServiceInner W :=
  { s.removeEvent (.startSpecified call.slot.2) (s.records call.slot.1).eventId with
    toRequests := s.toRequests.respond call.slot call.want }

/-- `GetAppRunningRecord` finds the record by its last event. The application is killed by all
handlers but that of `START_SPECIFIED_PROCESS_TIMEOUT_MSG`. -/
def handleTimeOut (e : Event) : AppMgrServiceInner W :=
  if (s.records e.record).eventId ≠ e.eventId then s
  else
    { s.modify e.record fun x =>
        { x with isTerminating := x.isTerminating || e.msg ≠ .startSpecified .process } with
      toRequests := s.toRequests.handleTimeOut e.record e.msg }

inductive Op (W : Type)
  | createAppRunningRecord (x : AppRunningRecord)
  | startSpecified (kind : Kind) (start : Start W)
  | launchApplication (r : ℕ)
  | addAbilityStageDone (r : ℕ)
  | clearTask (r : ℕ) (msg : Msg)
  | reply (call : ℕ)
  | timeOut (event : ℕ)

def step (s : AppMgrServiceInner W) : Op W → AppMgrServiceInner W
  | .createAppRunningRecord x =>
    if (s.checkAppRunningRecordIsExist x.processName).isSome then s
    else s.createAppRunningRecord x
  | .startSpecified kind start =>
    -- an id is not used for two requests
    if (s.requests start.requestId).isSome then s
    else match kind with
      | .ability => (s.addRequest start .ability).startSpecifiedAbility start
      | .process => (s.addRequest start .process).startSpecifiedProcess start
  | .launchApplication r => s.launchApplication r
  | .addAbilityStageDone r => s.addAbilityStageDone r
  | .clearTask r msg => s.modify r (·.clearEventId msg)
  | .reply i => match s.calls[i]? with
    | none => s
    | some (requestId, call) =>
      let s := { s with calls := s.calls.eraseIdx i }.scheduleDone call
      { s with handled := [requestId] ++ s.handled }
  | .timeOut i => match s.events[i]? with
    | none => s
    | some e =>
      let s := { s with events := s.events.eraseIdx i }.handleTimeOut e
      { s with handled := e.request.toList ++ s.handled }

def run [Inhabited W] (ops : List (Op W)) : AppMgrServiceInner W := ops.foldl step init

def told (e : Event) : List Kind :=
  if (s.records e.record).eventId ≠ e.eventId then [] else e.msg.slots

def fits : Op W → Prop
  | .reply i => ∀ call ∈ s.calls[i]?, ∃ id, s.slot call.2.slot = ⟨some id, call.2.want⟩ ∧
    (id = call.1 ∨ some call.1 ∈ s.answered)
  | .timeOut i => ∀ e ∈ s.events[i]?,
    (.process ∈ s.told e → e.msg = .startSpecified .process →
      (s.slot (e.record, .process)).requestId.isSome) ∧
    ∀ id ∈ e.request, some id ∈ s.answered ∨
      ∃ kind ∈ s.told e, (s.slot (e.record, kind)).requestId = some id
  | _ => True

variable {s r start}

lemma toRequests_sendEvent (msg : Msg) (request : Option ℕ) :
    (s.sendEvent r msg request).toRequests = s.toRequests := by
  unfold sendEvent
  split <;> rfl

section
variable (h : s.Filed)
include h

lemma filed_addAbilityStageWith {bundleName : String} {isEventSent : Bool}
    {request : Option ℕ} : (s.addAbilityStageWith r bundleName isEventSent request).Filed := by
  unfold addAbilityStageWith
  split
  · exact h
  · split
    · rw [toRequests_sendEvent]
      exact h
    · exact h

lemma filed_startInProcess {kind : Kind} (hnew : s.IsNew start.requestId ⟨(r, kind), start.want⟩) :
    (s.startInProcess r start kind).Filed := by
  have hset := h.setRequest hnew
  unfold startInProcess
  dsimp only
  split
  · exact hset.schedule (by simp [Requests.setRequest])
  · exact filed_addAbilityStageWith hset

lemma filed_startSpecifiedAbility
    (hnew : s.IsNew start.requestId ⟨(s.target start, .ability), start.want⟩) :
    (s.startSpecifiedAbility start).Filed := by
  unfold startSpecifiedAbility
  unfold target at hnew
  split
  · rename_i hnone
    rw [hnone] at hnew
    simp only [setRequest, toRequests_sendEvent]
    exact h.setRequest hnew
  · rename_i hsome
    rw [hsome] at hnew
    apply filed_startInProcess
    · exact h
    · exact hnew

lemma filed_startSpecifiedProcess
    (hnew : s.IsNew start.requestId ⟨(s.target start, .process), start.want⟩) :
    (s.startSpecifiedProcess start).Filed := by
  unfold startSpecifiedProcess
  unfold target at hnew
  split
  · exact h.answer hnew
  · rename_i hsome
    rw [hsome] at hnew
    exact filed_startInProcess h hnew

lemma filed_startSpecified {kind : Kind} : (s.step (.startSpecified kind start)).Filed := by
  dsimp only [step]
  split_ifs with hnone
  · exact h
  · obtain ⟨hs, hnew⟩ := h.addRequest (by simpa using hnone) ⟨(s.target start, kind), start.want⟩
    cases kind with
    | ability => exact filed_startSpecifiedAbility hs hnew
    | process => exact filed_startSpecifiedProcess hs hnew

lemma filed_launchApplication : (s.launchApplication r).Filed := by
  unfold launchApplication
  dsimp only
  split_ifs
  · exact h
  · apply filed_addAbilityStageWith
    exact h
  · apply filed_addAbilityStageWith
    exact h
  · exact h

lemma filed_addAbilityStageDone : (s.addAbilityStageDone r).Filed := by
  unfold addAbilityStageDone
  dsimp only
  split
  · exact h.schedule ‹_›
  · exact h.schedule ‹_›
  · apply filed_addAbilityStageWith
    exact h

end

theorem mem_answered_handleTimeOut {e : Event} {id : ℕ} :
    some id ∈ (s.handleTimeOut e).answered ↔ some id ∈ s.answered ∨
      ∃ kind ∈ s.told e, (s.slot (e.record, kind)).requestId = some id := by
  unfold handleTimeOut told
  split
  · simp
  · exact Requests.mem_answered_handleTimeOut

lemma filed_reply {i : ℕ} (h : s.Filed) (hfits : s.fits (.reply i)) :
    (s.step (.reply i)).Filed := by
  dsimp only [step]
  split
  · exact h
  · rename_i hcall
    obtain ⟨id, hslot, hid⟩ := hfits _ hcall
    have hs : { s.toRequests with calls := s.calls.eraseIdx i }.Filed :=
      ⟨{ h with }, h.slot, fun c hc => h.call c (eraseIdx_subset hc)⟩
    refine (hs.respond hslot).handle fun id' hid' => ?_
    rw [mem_singleton.mp hid', answered_respond, mem_append, mem_singleton]
    exact hid.symm.imp_right fun heq => by rw [hslot, heq]

lemma filed_timeOut {i : ℕ} (h : s.Filed) (hfits : s.fits (.timeOut i)) :
    (s.step (.timeOut i)).Filed := by
  dsimp only [step]
  split
  · exact h
  · rename_i he
    obtain ⟨hp, hdue⟩ := hfits _ he
    refine .handle ?_ fun id hid => mem_answered_handleTimeOut.mpr (hdue id (by simpa using hid))
    unfold handleTimeOut
    split_ifs with hfound
    · exact h
    · refine h.handleTimeOut fun hmsg => hp ?_ hmsg
      simp only [told, if_neg hfound, hmsg]
      exact mem_singleton_self _

lemma filed_step {op : Op W} (h : s.Filed) (hfits : s.fits op) : (s.step op).Filed := by
  cases op with
  | createAppRunningRecord x =>
    dsimp only [step]
    split <;> exact h
  | startSpecified kind start => exact filed_startSpecified h
  | launchApplication r => exact filed_launchApplication h
  | addAbilityStageDone r => exact filed_addAbilityStageDone h
  | clearTask r msg => exact h
  | reply i => exact filed_reply h hfits
  | timeOut i => exact filed_timeOut h hfits

lemma fits_of_ownAnswers {op : Op W} (h : s.Filed) (hown : (s.step op).OwnAnswers) : s.fits op := by
  cases op with
  | reply i =>
    rintro ⟨requestId, call⟩ hcall
    simp only [step, Option.mem_def.mp hcall] at hown
    obtain ⟨id, request, hid, hrequest, -, hwant⟩ :=
      hown.own _ (mem_append_right _ (mem_singleton_self _))
    have hslot := (h.slot call.slot id hid).1
    rw [show s.requests id = some request from hrequest, Option.some.injEq] at hslot
    rw [hslot] at hwant
    change (s.slot call.slot).want = call.want at hwant
    refine ⟨id, ?_, ?_⟩
    · rw [← hid, ← hwant]
    · have hleft := hown.left requestId (mem_cons_self ..)
      change some requestId ∈ (respond _ _ _).answered at hleft
      rw [answered_respond, mem_append, mem_singleton] at hleft
      exact hleft.symm.imp_left fun heq => Option.some.inj (hid.symm.trans heq.symm)
  | timeOut i =>
    intro e he
    simp only [step, Option.mem_def.mp he] at hown
    refine ⟨fun htold hmsg => ?_, fun id hid => ?_⟩
    · unfold told at htold
      split at htold
      · cases htold
      rename_i hfound
      simp only [handleTimeOut, if_neg hfound, hmsg] at hown
      obtain ⟨id, -, hid, -⟩ := hown.own _ (mem_append_right _ (mem_singleton_self _))
      exact Option.isSome_iff_exists.mpr ⟨id, hid⟩
    · have hleft := hown.left id (mem_append_left _ (by simpa using hid))
      exact mem_answered_handleTimeOut (s := { s with events := s.events.eraseIdx i }).mp hleft
  | _ => trivial

theorem run_ownAnswers_iff [Inhabited W] (ops : List (Op W)) :
    (∀ n, (run (ops.take n)).OwnAnswers) ↔ Runs.Guarded step fits init ops := by
  have hinit : (init : AppMgrServiceInner W).Filed := ⟨⟨nofun, nodup_nil, nofun⟩, nofun, nofun⟩
  exact Runs.guarded_iff_forall_take_of (I := fun s : AppMgrServiceInner W => s.Filed)
    (fun _ _ => filed_step) (fun _ _ => fits_of_ownAnswers)
    (fun _ h => h.toOwnAnswers) hinit ops

theorem overwritten_not_ownAnswers : ¬(run [.createAppRunningRecord
        { processName := "notes", hapModules := [⟨"notes", "entry", false⟩] },
      .startSpecified .ability ⟨"notes", false, ⟨"notes", "entry", true⟩, 10, 1⟩,
      .startSpecified .ability ⟨"notes", false, ⟨"notes", "entry", true⟩, 20, 2⟩,
      .reply 0] : AppMgrServiceInner ℕ).OwnAnswers := by
  intro h
  obtain ⟨id, request, hid, hrequest, -, hwant⟩ :=
    h.own ⟨.ability, some 2, 10⟩ (mem_singleton.mpr rfl)
  cases hid
  cases hrequest
  cases hwant

end AppMgrServiceInner

end AbilityRuntime.SpecifiedStart
