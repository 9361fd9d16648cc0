import Mathlib.Data.String.Basic
import AbilityRuntime.Library.Ledger
import AbilityRuntime.Library.Runs
import AbilityRuntime.Library.SortedMap

/-! Data abilities and the callers that wait for them to load. The lock is left out but for the
events of one call. Records and calls are known by their places in the lists of all. -/

namespace AbilityRuntime.DataAbility
open List SortedMap Option

inductive Token
  | data (record : ℕ)
  | other (id : ℕ)
  deriving DecidableEq

inductive AbilityState
  | initial | activating | active
  deriving DecidableEq

structure ClientInfo where
  client : Token
  tryBind : Bool
  isNotHap : Bool

structure DataAbilityRecord where
  state : AbilityState := .initial
  scheduler : Option ℕ := none
  clients : List ClientInfo := []

namespace DataAbilityRecord

variable (r : DataAbilityRecord)

def getScheduler : Option ℕ :=
  if r.state ≠ .active then none else r.scheduler

def attach (scheduler : ℕ) : DataAbilityRecord :=
  if r.scheduler.isSome then r
  else if r.state ≠ .initial then r
  else { r with scheduler := some scheduler, state := .activating }

def onTransitionDone (isActive : Bool) : DataAbilityRecord × Bool :=
  if r.scheduler.isNone then (r, false)
  else if r.state ≠ .activating then (r, false)
  else if !isActive then ({ r with state := .initial }, false)
  else ({ r with state := .active }, true)

def addClient (c : ClientInfo) : DataAbilityRecord :=
  if r.scheduler.isNone ∨ r.state ≠ .active then r else { r with clients := r.clients ++ [c] }

variable (client : Token)

def getClientCount : ℕ :=
  if r.scheduler.isNone ∨ r.state ≠ .active then 0 else r.clients.countP (·.client = client)

def removeClient : DataAbilityRecord :=
  if r.scheduler.isNone ∨ r.state ≠ .active then r
  else { r with clients := r.clients.eraseP (·.client = client) }

def removeClients : DataAbilityRecord :=
  if r.scheduler.isNone ∨ r.state ≠ .active then r
  else { r with clients := r.clients.filter fun c => c.isNotHap || c.client ≠ client }

end DataAbilityRecord

open DataAbilityRecord

structure AcquireRequest where
  isData : Bool := true
  bundleName : String
  name : String
  tryBind : Bool := false
  client : Option Token := none
  isNotHap : Bool := false

def AcquireRequest.dataAbilityName (req : AcquireRequest) : String :=
  req.bundleName ++ "." ++ req.name

inductive WaitResult
  | ok | timedOut | invalidState
  deriving DecidableEq

inductive Stage
  | waiting (record : ℕ)
  | woken (record : ℕ) (ret : WaitResult)
  | returned (scheduler : Option ℕ)
  deriving DecidableEq

structure AcquireCall where
  request : AcquireRequest
  stage : Stage

structure DataAbilityManager where
  records : List DataAbilityRecord
  dataAbilityRecordsLoading : SortedMap String ℕ
  dataAbilityRecordsLoaded : SortedMap String ℕ
  calls : List AcquireCall
  attachTimeOuts : List Token

inductive DataAbilityOp
  | acquire (request : AcquireRequest) (hasClientRecord : Bool) (startResult : ℤ)
  | wake (call : ℕ) (timeout : Bool)
  | proceed (call : ℕ)
  | attachAbilityThread (scheduler : ℕ) (token : Token)
  | abilityTransitionDone (token : Token) (isActive : Bool)
  | onAbilityDied (token : Token)
  | release (scheduler : ℕ) (client : Token) (isVisible : Bool)

namespace DataAbilityManager

def init : DataAbilityManager := ⟨[], SortedMap.empty, SortedMap.empty, [], []⟩

variable (s : DataAbilityManager)

def record (r : ℕ) : DataAbilityRecord := s.records.getD r {}

def modifyRecord (r : ℕ) (f : DataAbilityRecord → DataAbilityRecord) :
    DataAbilityManager :=
  { s with records := s.records.modify r f }

def finishAcquire (req : AcquireRequest) (r : ℕ) :
    DataAbilityManager × Stage :=
  match (s.record r).getScheduler with
  | none =>
    ({ s with
      dataAbilityRecordsLoaded := s.dataAbilityRecordsLoaded.erase req.dataAbilityName },
      .returned none)
  | some scheduler =>
    match req.client with
    | none => (s, .returned (some scheduler))
    | some client =>
      (s.modifyRecord r (·.addClient ⟨client, req.tryBind, req.isNotHap⟩),
        .returned (some scheduler))

def startRecord (name : String) : DataAbilityManager :=
  { s with
    records := s.records ++ [{}]
    dataAbilityRecordsLoading := s.dataAbilityRecordsLoading.emplace name s.records.length }

def loadLocked (req : AcquireRequest) (startResult : ℤ) :
    DataAbilityManager × Stage :=
  match s.dataAbilityRecordsLoading.find? req.dataAbilityName with
  | some r => if (s.record r).state = .active then s.finishAcquire req r else (s, .waiting r)
  | none =>
    if startResult ≠ 0 then (s, .returned none)
    else (s.startRecord req.dataAbilityName, .waiting s.records.length)

def acquire (req : AcquireRequest) (hasClientRecord : Bool)
    (startResult : ℤ) : DataAbilityManager × Stage :=
  if !req.isData then (s, .returned none)
  else if req.bundleName = "" ∨ req.name = "" then (s, .returned none)
  else if req.client.isSome ∧ !req.isNotHap ∧ !hasClientRecord then (s, .returned none)
  else
    match s.dataAbilityRecordsLoaded.find? req.dataAbilityName with
    | some r => s.finishAcquire req r
    | none => s.loadLocked req startResult

def waitForLoaded (r : ℕ) (timeout : Bool) : Stage :=
  if (s.record r).state = .active then
    if (s.record r).scheduler.isNone then .woken r .invalidState else .woken r .ok
  else if timeout then .woken r .timedOut
  else .waiting r

def afterWait (req : AcquireRequest) (r : ℕ) (ret : WaitResult) :
    DataAbilityManager × Stage :=
  if ret ≠ .ok then
    ({ s with
      dataAbilityRecordsLoading := s.dataAbilityRecordsLoading.erase req.dataAbilityName
      attachTimeOuts := s.attachTimeOuts ++ [.data r] }, .returned none)
  else s.finishAcquire req r

def findLoading (token : Token) : Option (String × ℕ) :=
  s.dataAbilityRecordsLoading.entries.find? fun p => .data p.2 = token

def attachAbilityThread (scheduler : ℕ) (token : Token) :
    DataAbilityManager :=
  match s.findLoading token with
  | none => s
  | some (_, r) => s.modifyRecord r (·.attach scheduler)

def abilityTransitionDone (token : Token) (isActive : Bool) :
    DataAbilityManager :=
  match s.findLoading token with
  | none => s
  | some (name, r) =>
    let (record, done) := (s.record r).onTransitionDone isActive
    let s := s.modifyRecord r fun _ => record
    if done then
      { s with
        dataAbilityRecordsLoaded := s.dataAbilityRecordsLoaded.assign name r
        dataAbilityRecordsLoading := s.dataAbilityRecordsLoading.erase name }
    else s

def onAbilityDied (token : Token) : DataAbilityManager :=
  let s :=
    match s.dataAbilityRecordsLoaded.entries.find? fun p => .data p.2 = token with
    | none => s
    | some (name, _) =>
      { s with dataAbilityRecordsLoaded := s.dataAbilityRecordsLoaded.erase name }
  s.dataAbilityRecordsLoaded.entries.foldl
    (fun s p => s.modifyRecord p.2 (·.removeClients token)) s

def release (scheduler : ℕ) (client : Token) (isVisible : Bool) :
    DataAbilityManager :=
  match s.dataAbilityRecordsLoaded.entries.find? fun p =>
      (s.record p.2).getScheduler = some scheduler with
  | none => s
  | some (_, r) =>
    if !isVisible then s
    else if (s.record r).getClientCount client = 0 then s
    else s.modifyRecord r (·.removeClient client)

def setStage (call : ℕ) (stage : Stage) : DataAbilityManager :=
  { s with calls := s.calls.modify call fun c => { c with stage := stage } }

def step : DataAbilityOp → DataAbilityManager
  | .acquire req hasClientRecord startResult =>
    let (t, stage) := s.acquire req hasClientRecord startResult
    { t with calls := t.calls ++ [⟨req, stage⟩] }
  | .wake call timeout =>
    match s.calls[call]? with
    | some ⟨_, .waiting r⟩ => s.setStage call (s.waitForLoaded r timeout)
    | _ => s
  | .proceed call =>
    match s.calls[call]? with
    | some ⟨req, .woken r ret⟩ =>
      let (t, stage) := s.afterWait req r ret
      t.setStage call stage
    | _ => s
  | .attachAbilityThread scheduler token => s.attachAbilityThread scheduler token
  | .abilityTransitionDone token isActive => s.abilityTransitionDone token isActive
  | .onAbilityDied token => s.onAbilityDied token
  | .release scheduler client isVisible => s.release scheduler client isVisible

def run (ops : List DataAbilityOp) : DataAbilityManager := ops.foldl step init

def awaited (c : AcquireCall) : Option ℕ :=
  match c.stage with
  | .waiting r => if (s.record r).state = .active then none else some r
  | .woken r ret => if ret = .ok then none else some r
  | .returned _ => none

def TakesOut (r : ℕ) : DataAbilityOp → Prop
  | .abilityTransitionDone token isActive => token = .data r ∧ isActive = true
  | .onAbilityDied token => token = .data r
  | .proceed call => ∃ c, s.calls[call]? = some c ∧ c.stage = .woken r .timedOut
  | _ => False

def OwnRemovals : Prop :=
  ∀ o name r, s.dataAbilityRecordsLoading.find? name = some r →
    (s.step o).dataAbilityRecordsLoading.find? name ≠ some r → s.TakesOut r o

structure Paired (s : DataAbilityManager) : Prop where
  paired : ∀ c ∈ s.calls, ∀ r, s.awaited c = some r → ∀ r',
    s.dataAbilityRecordsLoading.find? c.request.dataAbilityName = some r' → r' = r
  attached : ∀ r, (s.record r).state = .active → (s.record r).scheduler.isSome = true
  woken : ∀ c ∈ s.calls, ∀ r, c.stage ≠ .woken r .invalidState

variable {s t : DataAbilityManager}

lemma record_modifyRecord (s : DataAbilityManager) (k : ℕ)
    (f : DataAbilityRecord → DataAbilityRecord) (j : ℕ) : (s.modifyRecord k f).record j =
      if k = j ∧ j < s.records.length then f (s.record j) else s.record j :=
  Ledger.getD_modify f k j {}

lemma awaited_mono (h : ∀ r, (s.record r).state = .active → (t.record r).state = .active)
    {c : AcquireCall} {r : ℕ} (hr : t.awaited c = some r) : s.awaited c = some r := by
  unfold awaited at hr ⊢
  split at hr
  · rename_i r' hstage
    split at hr
    · cases hr
    · rename_i hidle
      rw [if_neg fun hactive => hidle (h r' hactive)]
      exact hr
  · exact hr
  · cases hr

lemma eq_of_awaited {req : AcquireRequest} {r r' : ℕ}
    (h : s.awaited ⟨req, .waiting r⟩ = some r') : r = r' := by
  simp only [awaited] at h
  split at h
  · cases h
  · exact some.inj h

lemma Paired.shrink (h : Paired s)
    (hactive : ∀ r, (s.record r).state = .active → (t.record r).state = .active)
    (hattached : ∀ r, (t.record r).state = .active → (t.record r).scheduler.isSome = true)
    (hloading : ∀ name r, t.dataAbilityRecordsLoading.find? name = some r →
      s.dataAbilityRecordsLoading.find? name = some r)
    (hcalls : t.calls = s.calls) : Paired t where
  paired c hc r hr r' hr' := by
    exact h.paired c (hcalls ▸ hc) r (awaited_mono hactive hr) r' (hloading _ r' hr')
  attached := hattached
  woken c hc := h.woken c (hcalls ▸ hc)

structure Same (s t : DataAbilityManager) : Prop where
  loading : t.dataAbilityRecordsLoading = s.dataAbilityRecordsLoading
  calls : t.calls = s.calls
  state : ∀ r, (t.record r).state = (s.record r).state
  scheduler : ∀ r, (t.record r).scheduler = (s.record r).scheduler

lemma Same.refl (s : DataAbilityManager) : Same s s := ⟨rfl, rfl, fun _ => rfl, fun _ => rfl⟩

lemma Same.trans {u : DataAbilityManager} (h : Same s t) (h' : Same t u) : Same s u :=
  ⟨h'.loading.trans h.loading, h'.calls.trans h.calls,
    fun r => (h'.state r).trans (h.state r), fun r => (h'.scheduler r).trans (h.scheduler r)⟩

lemma Paired.same (h : Paired s) (hs : Same s t) : Paired t := by
  refine h.shrink (fun r hr => (hs.state r).trans hr) (fun r hr => ?_) (fun name r hr => ?_)
    hs.calls
  · rw [hs.scheduler]
    exact h.attached r ((hs.state r).symm.trans hr)
  · exact hs.loading ▸ hr

variable (s)

lemma same_modifyRecord (k : ℕ) {f : DataAbilityRecord → DataAbilityRecord}
    (hf : ∀ r, (f r).state = r.state ∧ (f r).scheduler = r.scheduler) :
    Same s (s.modifyRecord k f) := by
  refine ⟨rfl, rfl, fun r => ?_, fun r => ?_⟩
  · rw [record_modifyRecord]
    split
    · exact (hf _).1
    · rfl
  · rw [record_modifyRecord]
    split
    · exact (hf _).2
    · rfl

lemma same_finishAcquire (req : AcquireRequest) (r : ℕ) : Same s (s.finishAcquire req r).1 ∧
      ∃ scheduler, (s.finishAcquire req r).2 = .returned scheduler := by
  unfold finishAcquire
  split
  · exact ⟨⟨rfl, rfl, fun _ => rfl, fun _ => rfl⟩, none, rfl⟩
  · rename_i scheduler _
    split
    · exact ⟨.refl s, some scheduler, rfl⟩
    · refine ⟨same_modifyRecord s r fun d => ?_, some scheduler, rfl⟩
      unfold addClient
      split <;> exact ⟨rfl, rfl⟩

lemma same_onAbilityDied (token : Token) : Same s (s.onAbilityDied token) := by
  have hclients (entries : List (String × ℕ)) (u : DataAbilityManager) :
      Same u (entries.foldl (fun s p => s.modifyRecord p.2 (·.removeClients token)) u) := by
    induction entries generalizing u with
    | nil => exact .refl u
    | cons p entries ih =>
      refine .trans ?_ (ih (u.modifyRecord p.2 (·.removeClients token)))
      refine same_modifyRecord u p.2 fun d => ?_
      unfold removeClients
      split <;> exact ⟨rfl, rfl⟩
  refine .trans ?_ (hclients _ _)
  split
  · exact .refl s
  · exact ⟨rfl, rfl, fun _ => rfl, fun _ => rfl⟩

lemma same_release (scheduler : ℕ) (client : Token) (isVisible : Bool) :
    Same s (s.release scheduler client isVisible) := by
  unfold release
  split
  · exact .refl s
  · split
    · exact .refl s
    · split
      · exact .refl s
      · refine same_modifyRecord s _ fun d => ?_
        unfold removeClient
        split <;> exact ⟨rfl, rfl⟩

variable {s}

protected lemma Paired.attachAbilityThread (h : Paired s) (scheduler : ℕ) (token : Token) :
    Paired (s.attachAbilityThread scheduler token) := by
  have hattach (d : DataAbilityRecord) : (d.attach scheduler).state = .active →
      d.state = .active ∧ (d.attach scheduler).scheduler = d.scheduler := by
    unfold DataAbilityRecord.attach
    repeat' split
    all_goals simp
  have hkeep (d : DataAbilityRecord) (hd : d.state = .active) :
      (d.attach scheduler).state = .active := by
    unfold DataAbilityRecord.attach
    split
    · exact hd
    · simp [hd]
  unfold attachAbilityThread
  split
  · exact h
  · refine h.shrink (fun r hr => ?_) (fun r hr => ?_) (fun _ _ hr => hr) rfl
    · rw [record_modifyRecord]
      split
      · exact hkeep _ hr
      · exact hr
    · rw [record_modifyRecord] at hr ⊢
      split_ifs at hr with hk
      · obtain ⟨hbefore, hsame⟩ := hattach _ hr
        rw [if_pos hk, hsame]
        exact h.attached r hbefore
      · rw [if_neg hk]
        exact h.attached r hr

lemma onTransitionDone_cases (d : DataAbilityRecord) (isActive : Bool) :
    ((d.onTransitionDone isActive).2 = true ∧ isActive = true ∧
      (d.onTransitionDone isActive).1 = { d with state := .active } ∧ d.scheduler.isSome = true) ∨
    ((d.onTransitionDone isActive).2 = false ∧ ((d.onTransitionDone isActive).1 = d ∨
      d.state = .activating ∧ (d.onTransitionDone isActive).1 = { d with state := .initial })) := by
  unfold onTransitionDone
  split
  · exact .inr ⟨rfl, .inl rfl⟩
  · rename_i hsched
    split
    · exact .inr ⟨rfl, .inl rfl⟩
    · rename_i hstate
      split_ifs with hactive
      · exact .inr ⟨rfl, .inr ⟨not_not.mp hstate, rfl⟩⟩
      · refine .inl ⟨rfl, by simpa using hactive, rfl, ?_⟩
        simpa [isSome_iff_ne_none] using hsched

protected lemma Paired.abilityTransitionDone (h : Paired s) (token : Token) (isActive : Bool) :
    Paired (s.abilityTransitionDone token isActive) := by
  unfold abilityTransitionDone
  split
  · exact h
  · rename_i r _
    dsimp only
    have hactive (hkeep : (s.record r).state = .active →
        ((s.record r).onTransitionDone isActive).1.state = .active) (j : ℕ)
        (hj : (s.record j).state = .active) : ((s.modifyRecord r fun _ =>
          ((s.record r).onTransitionDone isActive).1).record j).state = .active := by
      rw [record_modifyRecord]
      split_ifs with heq
      · exact hkeep (heq.1 ▸ hj)
      · exact hj
    have hattached (hsched : ((s.record r).onTransitionDone isActive).1.state = .active →
        ((s.record r).onTransitionDone isActive).1.scheduler.isSome = true) (j : ℕ)
        (hj : ((s.modifyRecord r fun _ =>
          ((s.record r).onTransitionDone isActive).1).record j).state = .active) :
        ((s.modifyRecord r fun _ =>
          ((s.record r).onTransitionDone isActive).1).record j).scheduler.isSome = true := by
      rw [record_modifyRecord] at hj ⊢
      split_ifs at hj with heq
      · rw [if_pos heq]
        exact hsched hj
      · rw [if_neg heq]
        exact h.attached j hj
    rcases onTransitionDone_cases (s.record r) isActive with
      ⟨hdone, -, hrecord, hsome⟩ | ⟨hfail, hrecord⟩
    · rw [if_pos hdone]
      refine h.shrink (hactive fun _ => by rw [hrecord]) (hattached fun _ => ?_)
        (fun name' r' hr' => ?_) rfl
      · rw [hrecord]
        exact hsome
      · exact (find?_erase_eq_some.1 hr').2
    · rw [if_neg (by simp [hfail])]
      refine h.shrink (hactive fun hact => ?_) (hattached fun hact => ?_) (fun _ _ hr' => hr') rfl
      · rcases hrecord with hsame | ⟨hstate, -⟩
        · rw [hsame]
          exact hact
        · exact absurd (hstate.symm.trans hact) AbilityState.noConfusion
      · rcases hrecord with hsame | ⟨-, hinit⟩
        · rw [hsame] at hact ⊢
          exact h.attached r hact
        · rw [hinit] at hact
          cases hact

lemma Paired.withCalls (h : Paired s) {calls : List AcquireCall}
    (hcalls : ∀ c ∈ calls, c ∈ s.calls ∨ (∀ r, s.awaited c = some r → ∀ r',
      s.dataAbilityRecordsLoading.find? c.request.dataAbilityName = some r' → r' = r) ∧
      ∀ r, c.stage ≠ .woken r .invalidState) : Paired { s with calls := calls } where
  paired c hc r hr r' hr' := by
    rcases hcalls c hc with hold | ⟨hnew, -⟩
    · exact h.paired c hold r hr r' hr'
    · exact hnew r hr r' hr'
  __ := h
  woken c hc := by
    rcases hcalls c hc with hold | ⟨-, hnew⟩
    · exact h.woken c hold
    · exact hnew

lemma Paired.setStage (h : Paired s) (call : ℕ) {stage : Stage}
    (hpaired : ∀ c, s.calls[call]? = some c → ∀ r,
      s.awaited { c with stage := stage } = some r → ∀ r',
      s.dataAbilityRecordsLoading.find? c.request.dataAbilityName = some r' → r' = r)
    (hwoken : ∀ r, stage ≠ .woken r .invalidState) : Paired (s.setStage call stage) := by
  refine h.withCalls fun c hc => ?_
  obtain ⟨k, hk⟩ := mem_iff_getElem?.mp hc
  rw [getElem?_modify] at hk
  obtain ⟨c₀, hc₀, heq⟩ := map_eq_some_iff.mp hk
  split_ifs at heq with hcall
  · subst hcall
    subst heq
    exact .inr ⟨hpaired c₀ hc₀, hwoken⟩
  · subst heq
    exact .inl (mem_of_getElem? hc₀)

def isRefused (req : AcquireRequest) (hasClientRecord : Bool) : Bool :=
  !req.isData || (req.bundleName = "" ∨ req.name = "") ||
    (req.client.isSome ∧ !req.isNotHap ∧ !hasClientRecord)

def waits (s : DataAbilityManager) (req : AcquireRequest) (hasClientRecord : Bool)
    (startResult : ℤ) : Bool :=
  !isRefused req hasClientRecord && (s.dataAbilityRecordsLoaded.find? req.dataAbilityName).isNone &&
    match s.dataAbilityRecordsLoading.find? req.dataAbilityName with
    | some r => (s.record r).state ≠ .active
    | none => startResult = 0

def startsAlone (s : DataAbilityManager) : DataAbilityOp → Bool
  | .acquire req hasClientRecord startResult => !s.waits req hasClientRecord startResult ||
    (s.dataAbilityRecordsLoading.find? req.dataAbilityName).isSome ||
    s.calls.all fun c => c.request.dataAbilityName ≠ req.dataAbilityName ||
      (s.awaited c).isNone
  | _ => true

lemma acquire_cases (s : DataAbilityManager) (req : AcquireRequest) (hasClientRecord : Bool)
    (startResult : ℤ) :
    (Same s (s.acquire req hasClientRecord startResult).1 ∧ ∃ scheduler,
      (s.acquire req hasClientRecord startResult).2 = .returned scheduler) ∨
    (∃ r, s.acquire req hasClientRecord startResult = (s, .waiting r) ∧
      s.dataAbilityRecordsLoading.find? req.dataAbilityName = some r) ∨
    (s.dataAbilityRecordsLoading.find? req.dataAbilityName = none ∧
      s.waits req hasClientRecord startResult = true ∧
      s.acquire req hasClientRecord startResult =
        (s.startRecord req.dataAbilityName, .waiting s.records.length)) := by
  have hback : Same s (s, Stage.returned none).1 ∧
      ∃ scheduler, (s, Stage.returned none).2 = .returned scheduler := ⟨Same.refl s, none, rfl⟩
  unfold acquire
  split_ifs with hdata hname hclient
  · exact .inl hback
  · exact .inl hback
  · exact .inl hback
  · have haccepted : isRefused req hasClientRecord = false := by
      simp only [isRefused, hdata, hname, hclient, decide_false, Bool.or_false]
    cases hloaded : s.dataAbilityRecordsLoaded.find? req.dataAbilityName with
    | some r => exact .inl (same_finishAcquire s req r)
    | none =>
      unfold loadLocked
      cases hloading : s.dataAbilityRecordsLoading.find? req.dataAbilityName with
      | some r =>
        dsimp only
        split
        · exact .inl (same_finishAcquire s req r)
        · exact .inr (.inl ⟨r, rfl, rfl⟩)
      | none =>
        dsimp only
        split
        · exact .inl hback
        · rename_i hstart
          refine .inr (.inr ⟨rfl, ?_, rfl⟩)
          simp [waits, haccepted, hloaded, hloading, not_not.mp hstart]

variable {name : String}

section
variable (h : Paired s)
include h

lemma Paired.startRecord
    (halone : ∀ c ∈ s.calls, c.request.dataAbilityName = name → s.awaited c = none) :
    Paired (s.startRecord name) := by
  have hrecord (r : ℕ) : (s.startRecord name).record r = s.record r :=
    Ledger.getD_concat_default s.records r {}
  refine ⟨fun c hc r hr r' hr' => ?_, fun r hr => ?_, h.woken⟩
  · have hawaited : s.awaited c = some r :=
      awaited_mono (fun j hj => (congrArg _ (hrecord j)).trans hj) hr
    have hname : name ≠ c.request.dataAbilityName := by
      intro heq
      rw [halone c hc heq.symm] at hawaited
      cases hawaited
    have hr'' : (s.dataAbilityRecordsLoading.emplace name s.records.length).find?
        c.request.dataAbilityName = some r' := hr'
    rw [find?_emplace, if_neg hname] at hr''
    exact h.paired c hc r hawaited r' hr''
  · rw [hrecord] at hr ⊢
    exact h.attached r hr

lemma Paired.acquire {req : AcquireRequest} {hasClientRecord : Bool} {startResult : ℤ}
    (hfit : s.startsAlone (.acquire req hasClientRecord startResult) = true) :
    Paired (s.step (.acquire req hasClientRecord startResult)) := by
  show Paired { (s.acquire req hasClientRecord startResult).1 with
    calls := (s.acquire req hasClientRecord startResult).1.calls ++
      [⟨req, (s.acquire req hasClientRecord startResult).2⟩] }
  rcases acquire_cases s req hasClientRecord startResult with
    ⟨hsame, scheduler, hstage⟩ | ⟨r, heq, hloading⟩ | ⟨hloading, hwaits, heq⟩
  · rw [hstage]
    refine (h.same hsame).withCalls fun c hc => ?_
    rcases mem_append.mp hc with hc | hc
    · exact .inl hc
    · obtain rfl := mem_singleton.mp hc
      refine .inr ⟨fun r hr => ?_, nofun⟩
      cases hr
  · rw [heq]
    refine h.withCalls fun c hc => ?_
    rcases mem_append.mp hc with hc | hc
    · exact .inl hc
    · obtain rfl := mem_singleton.mp hc
      refine .inr ⟨fun r₁ hr₁ r' hr' => ?_, nofun⟩
      exact eq_of_awaited hr₁ ▸ some.inj (hr'.symm.trans hloading)
  · rw [heq]
    have halone (c : AcquireCall) (hc : c ∈ s.calls)
        (hname : c.request.dataAbilityName = req.dataAbilityName) : s.awaited c = none := by
      have hall : ∀ c ∈ s.calls, c.request.dataAbilityName ≠ req.dataAbilityName ∨
          s.awaited c = none := by simpa [startsAlone, hloading, hwaits] using hfit
      exact (hall c hc).resolve_left (not_not.mpr hname)
    refine (h.startRecord halone).withCalls fun c hc => ?_
    rcases mem_append.mp hc with hc | hc
    · exact .inl hc
    · obtain rfl := mem_singleton.mp hc
      refine .inr ⟨fun r₁ hr₁ r' hr' => ?_, nofun⟩
      have hfind : (s.dataAbilityRecordsLoading.emplace req.dataAbilityName
          s.records.length).find? req.dataAbilityName = some r' := hr'
      rw [find?_emplace, if_pos rfl, hloading] at hfind
      exact eq_of_awaited hr₁ ▸ (some.inj hfind).symm

lemma Paired.waitForLoaded_cases (r : ℕ) (timeout : Bool) :
    s.waitForLoaded r timeout = .woken r .ok ∨ (s.record r).state ≠ .active ∧
      (s.waitForLoaded r timeout = .woken r .timedOut ∨
        s.waitForLoaded r timeout = .waiting r) := by
  unfold waitForLoaded
  by_cases hact : (s.record r).state = .active
  · have hsome := h.attached r hact
    rw [if_pos hact, if_neg (by simp [isSome_iff_ne_none.mp hsome])]
    exact .inl rfl
  · rw [if_neg hact]
    refine .inr ⟨hact, ?_⟩
    cases timeout with
    | true => exact .inl rfl
    | false => exact .inr rfl

lemma Paired.wake (call : ℕ) (timeout : Bool) : Paired (s.step (.wake call timeout)) := by
  unfold step
  dsimp only
  split
  · rename_i r hc
    have hmem := mem_of_getElem? hc
    have hcases := h.waitForLoaded_cases r timeout
    refine h.setStage call (fun c hc' r₁ hr₁ r' hr' => ?_) fun r₁ heq => ?_
    · cases hc.symm.trans hc'
      rcases hcases with hok | ⟨hidle, hwait⟩
      · rw [hok] at hr₁
        cases hr₁
      · -- who is timed out has waited for a record that is not loaded
        have hr : r = r₁ := by
          rcases hwait with heq | heq
          · rw [heq] at hr₁
            exact some.inj hr₁
          · rw [heq] at hr₁
            exact eq_of_awaited hr₁
        refine h.paired _ hmem r₁ ?_ r' hr'
        rw [← hr]
        exact if_neg hidle
    · rcases hcases with hok | ⟨-, hwait | hwait⟩
      · cases hok.symm.trans heq
      · cases hwait.symm.trans heq
      · cases hwait.symm.trans heq
  · exact h

lemma Paired.proceed (call : ℕ) : Paired (s.step (.proceed call)) := by
  have hback {u : DataAbilityManager} (hu : Paired u) (scheduler : Option ℕ) :
      Paired (u.setStage call (.returned scheduler)) :=
    hu.setStage call (fun c _ r hr => by cases hr) nofun
  unfold step
  dsimp only
  split
  · rename_i req r ret hc
    unfold afterWait
    split
    · apply hback
      refine h.shrink (fun _ hr => hr) h.attached (fun name r' hr' => ?_) rfl
      exact (find?_erase_eq_some.1 hr').2
    · obtain ⟨hsame, scheduler, hstage⟩ := same_finishAcquire s req r
      rw [hstage]
      exact hback (h.same hsame) scheduler
  · exact h

protected lemma Paired.step {o : DataAbilityOp} (hfit : s.startsAlone o = true) :
    Paired (s.step o) := by
  cases o with
  | acquire req hasClientRecord startResult => exact h.acquire hfit
  | wake call timeout => exact h.wake call timeout
  | proceed call => exact h.proceed call
  | attachAbilityThread scheduler token => exact h.attachAbilityThread scheduler token
  | abilityTransitionDone token isActive => exact h.abilityTransitionDone token isActive
  | onAbilityDied token => exact h.same (same_onAbilityDied s token)
  | release scheduler client isVisible => exact h.same (same_release s scheduler client isVisible)

lemma Paired.proceed_takesOut {call : ℕ} {r : ℕ}
    (hr : s.dataAbilityRecordsLoading.find? name = some r)
    (hout : (s.step (.proceed call)).dataAbilityRecordsLoading.find? name ≠ some r) :
    s.TakesOut r (.proceed call) := by
  unfold step at hout
  dsimp only at hout
  split at hout
  · rename_i req r₁ ret hc
    have hmem := mem_of_getElem? hc
    unfold afterWait at hout
    split_ifs at hout with hfailed
    · have hname : req.dataAbilityName = name := by
        by_contra hne
        refine hout ?_
        show (s.dataAbilityRecordsLoading.erase req.dataAbilityName).find? name = some r
        rw [find?_erase, if_neg hne]
        exact hr
      have hawaited : s.awaited ⟨req, .woken r₁ ret⟩ = some r₁ := by
        simp [awaited, hfailed]
      obtain rfl := h.paired _ hmem r₁ hawaited r (hname ▸ hr)
      refine ⟨_, hc, ?_⟩
      have hwoken := h.woken _ hmem r
      cases ret with
      | ok => exact absurd rfl hfailed
      | timedOut => rfl
      | invalidState => exact absurd rfl hwoken
    · obtain ⟨hsame, scheduler, hstage⟩ := same_finishAcquire s req r₁
      refine absurd ?_ hout
      show (s.finishAcquire req r₁).1.dataAbilityRecordsLoading.find? name = some r
      rw [hsame.loading]
      exact hr
  · exact absurd hr hout

end

lemma abilityTransitionDone_takesOut {token : Token} {isActive : Bool} {r : ℕ}
    (hr : s.dataAbilityRecordsLoading.find? name = some r)
    (hout : (s.abilityTransitionDone token isActive).dataAbilityRecordsLoading.find? name ≠
      some r) :
    token = .data r ∧ isActive = true := by
  unfold abilityTransitionDone at hout
  split at hout
  · exact absurd hr hout
  · rename_i name' r' hfound
    dsimp only at hout
    have htoken : .data r' = token := by simpa using find?_some hfound
    have hentry := mem_entries.mp (mem_of_find?_eq_some hfound)
    rcases onTransitionDone_cases (s.record r') isActive with ⟨hdone, hactive, -, -⟩ | ⟨hfail, -⟩
    · rw [if_pos hdone] at hout
      have hname : name' = name := by
        by_contra hne
        refine hout ?_
        rw [find?_erase, if_neg hne]
        exact hr
      subst hname
      cases hr.symm.trans hentry
      exact ⟨htoken.symm, hactive⟩
    · rw [if_neg (by simp [hfail])] at hout
      exact absurd hr hout

lemma Paired.ownRemovals (h : Paired s) : OwnRemovals s := by
  intro o name r hr hout
  cases o with
  | acquire req hasClientRecord startResult =>
    refine absurd ?_ hout
    show (s.acquire req hasClientRecord startResult).1.dataAbilityRecordsLoading.find? name = some r
    rcases acquire_cases s req hasClientRecord startResult with
      ⟨hsame, -⟩ | ⟨r', heq, -⟩ | ⟨hloading, -, heq⟩
    · rw [hsame.loading]
      exact hr
    · rw [heq]
      exact hr
    · rw [heq]
      show (s.dataAbilityRecordsLoading.emplace _ _).find? name = some r
      rw [find?_emplace, if_neg]
      · exact hr
      · rintro rfl
        rw [hloading] at hr
        cases hr
  | wake call timeout =>
    refine absurd ?_ hout
    unfold step
    dsimp only
    split <;> exact hr
  | proceed call => exact h.proceed_takesOut hr hout
  | attachAbilityThread scheduler token =>
    refine absurd ?_ hout
    show (s.attachAbilityThread scheduler token).dataAbilityRecordsLoading.find? name = some r
    unfold attachAbilityThread
    split <;> exact hr
  | abilityTransitionDone token isActive => exact abilityTransitionDone_takesOut hr hout
  | onAbilityDied token =>
    -- a death leaves the loading map as it is
    refine absurd ?_ hout
    show (s.onAbilityDied token).dataAbilityRecordsLoading.find? name = some r
    rw [(same_onAbilityDied s token).loading]
    exact hr
  | release scheduler client isVisible =>
    refine absurd ?_ hout
    show (s.release scheduler client isVisible).dataAbilityRecordsLoading.find? name = some r
    rw [(same_release s scheduler client isVisible).loading]
    exact hr

theorem run_ownRemovals (ops : List DataAbilityOp)
    (h : Runs.Guarded step (fun s o => s.startsAlone o = true) init ops) :
    OwnRemovals (run ops) := by
  have hpaired : Paired (run ops) :=
    h.invariant (fun _ _ hs hfit => hs.step hfit) ⟨nofun, by simp [init, record], nofun⟩
  exact hpaired.ownRemovals

def photos : AcquireRequest := { bundleName := "com.example", name := "Photos" }

def startedAgain : List DataAbilityOp :=
  [.acquire photos true 0, .acquire photos true 0, .wake 0 true, .wake 1 true, .proceed 0,
    .proceed 1, .acquire photos true 0, .attachAbilityThread 7 (.data 1)]

theorem startedAgain_ownRemovals :
    ((run startedAgain).dataAbilityRecordsLoading.find? "com.example.Photos" = some 1 ∧
      (run startedAgain).calls.map (·.stage) = [.returned none, .returned none, .waiting 1]) ∧
    OwnRemovals (run startedAgain) :=
  ⟨by decide +kernel, run_ownRemovals startedAgain (by decide +kernel)⟩

def startedBetween : List DataAbilityOp :=
  [.acquire photos true 0, .acquire photos true 0, .wake 0 true, .proceed 0,
    .acquire photos true 0, .wake 1 true]

theorem startedBetween_takes_other :
    (run startedBetween).dataAbilityRecordsLoading.find? "com.example.Photos" = some 1 ∧
    ((run startedBetween).calls.map (·.stage))[1]? = some (.woken 0 .timedOut) ∧
    ((run startedBetween).step (.proceed 1)).dataAbilityRecordsLoading.find?
      "com.example.Photos" = none := by
  decide +kernel

inductive LockEvent
  | lock | unlock | loaded | loading
  deriving DecidableEq

/-- The wakeups of `wait_for`, the manager when it returns and when the scheduler is asked for. -/
structure Wait where
  wakeups : ℕ
  ended : DataAbilityManager
  after : DataAbilityManager

variable (s)

def finishEvents (r : ℕ) : List LockEvent :=
  if (s.record r).getScheduler.isNone then [.loaded] else []

def waitForLoadedEvents (r : ℕ) (w : Wait) : List LockEvent :=
  if (s.record r).state = .active then s.finishEvents r
  else
    -- the `unique_lock` that adopted the mutex releases it on return
    (replicate w.wakeups [.unlock, .lock]).flatten ++ [.unlock] ++
      if (w.ended.record r).state ≠ .active ∨ (w.ended.record r).scheduler.isNone then [.loading]
      else w.after.finishEvents r

def loadLockedEvents (req : AcquireRequest) (startResult : ℤ) (w : Wait) :
    List LockEvent :=
  match s.dataAbilityRecordsLoading.find? req.dataAbilityName with
  | some r => .loading :: s.waitForLoadedEvents r w
  | none =>
    if startResult ≠ 0 then [.loading]
    else .loading :: .loading ::
      (s.startRecord req.dataAbilityName).waitForLoadedEvents s.records.length w

def acquireEvents (req : AcquireRequest) (hasClientRecord : Bool)
    (startResult : ℤ) (w : Wait) : List LockEvent :=
  if !req.isData then []
  else if req.bundleName = "" ∨ req.name = "" then []
  else if req.client.isSome ∧ !req.isNotHap ∧ !hasClientRecord then []
  else
    .lock :: .loaded ::
      (match s.dataAbilityRecordsLoaded.find? req.dataAbilityName with
      | some r => s.finishEvents r
      | none => s.loadLockedEvents req startResult w) ++ [.unlock]

def accessesHeld : Bool → List LockEvent → Bool
  | _, [] => true
  | _, .lock :: events => accessesHeld true events
  | _, .unlock :: events => accessesHeld false events
  | held, _ :: events => held && accessesHeld held events

def Disciplined (events : List LockEvent) : Prop :=
  events.count .unlock = events.count .lock ∧ accessesHeld false events = true

lemma finishEvents_cases (r : ℕ) : s.finishEvents r = [] ∨ s.finishEvents r = [.loaded] := by
  unfold finishEvents
  split_ifs
  · exact .inr rfl
  · exact .inl rfl

variable {s}

lemma count_waitForLoadedEvents {r : ℕ} (hidle : (s.record r).state ≠ .active) (w : Wait) :
    (s.waitForLoadedEvents r w).count .unlock = (s.waitForLoadedEvents r w).count .lock + 1 := by
  unfold waitForLoadedEvents
  rw [if_neg hidle]
  rcases w.after.finishEvents_cases r with hend | hend <;>
    split_ifs <;> simp [hend, count_flatten]

lemma disciplined_finish (s : DataAbilityManager) (r : ℕ) {events : List LockEvent}
    (h : events = [] ∨ events = [.loading]) :
    Disciplined (.lock :: .loaded :: (events ++ s.finishEvents r) ++ [.unlock]) := by
  rcases h with rfl | rfl <;> rcases s.finishEvents_cases r with hend | hend <;>
    rw [hend] <;> exact ⟨rfl, rfl⟩

lemma not_disciplined_wait {r : ℕ} (hidle : (s.record r).state ≠ .active) (w : Wait)
    (events : List LockEvent) (h : events.count .unlock = events.count .lock) :
    ¬ Disciplined (.lock :: .loaded :: (events ++ s.waitForLoadedEvents r w) ++ [.unlock]) := by
  intro hdisciplined
  have hcount := hdisciplined.1
  simp [count_waitForLoadedEvents hidle] at hcount
  omega

theorem disciplined_iff (s : DataAbilityManager) (req : AcquireRequest) (hasClientRecord : Bool)
    (startResult : ℤ) (w : Wait) :
    Disciplined (s.acquireEvents req hasClientRecord startResult w) ↔
      s.waits req hasClientRecord startResult = false := by
  have hnone : Disciplined [] := ⟨rfl, rfl⟩
  unfold acquireEvents waits
  split_ifs with hdata hname hclient
  · exact iff_of_true hnone (by simp [isRefused, hdata])
  · exact iff_of_true hnone (by simp [isRefused, hname])
  · exact iff_of_true hnone (by simp [isRefused, hclient])
  · have haccepted : isRefused req hasClientRecord = false := by
      simp only [isRefused, hdata, hname, hclient, decide_false, Bool.or_false]
    rw [haccepted, Bool.not_false, Bool.true_and]
    cases s.dataAbilityRecordsLoaded.find? req.dataAbilityName with
    | some r => exact iff_of_true (s.disciplined_finish r (.inl rfl)) rfl
    | none =>
      unfold loadLockedEvents
      cases s.dataAbilityRecordsLoading.find? req.dataAbilityName with
      | some r =>
        by_cases hactive : (s.record r).state = .active
        · simp only [waitForLoadedEvents, if_pos hactive]
          exact iff_of_true (s.disciplined_finish r (.inr rfl)) (by simp [hactive])
        · exact iff_of_false (not_disciplined_wait hactive w [.loading] rfl) (by simp [hactive])
      | none =>
        by_cases hstart : startResult = 0
        · have hidle : ((s.startRecord req.dataAbilityName).record s.records.length).state ≠
              .active := by simp [startRecord, record]
          simp only [if_neg (not_not.mpr hstart)]
          exact iff_of_false (not_disciplined_wait hidle w [.loading, .loading] rfl)
            (by simp [hstart])
        · simp only [if_pos hstart]
          exact iff_of_true ⟨rfl, rfl⟩ (by simp [hstart])

theorem acquire_timedOut_not_disciplined : let s := run [.acquire photos true 0]
    init.acquireEvents photos true 0 ⟨1, s, s⟩ =
      [.lock, .loaded, .loading, .loading, .unlock, .lock, .unlock, .loading, .unlock] ∧
    ¬ Disciplined (init.acquireEvents photos true 0 ⟨1, s, s⟩) :=
  ⟨by decide +kernel, fun h => absurd h.1 (by decide +kernel)⟩

end DataAbilityManager
end AbilityRuntime.DataAbility
