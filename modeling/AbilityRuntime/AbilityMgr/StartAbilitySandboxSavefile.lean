import AbilityRuntime.AbilityMgr.ServiceRecord

/-! Saves of sandboxed applications, redirected to the DLP manager under a number that the result
names. Parking a request, the return of its start and its result are steps of their own, since only
the accesses to the table are locked. -/

namespace AbilityRuntime.SandboxSave
open List SortedMap

inductive ParamValue
  | string (value : String)
  | integer (value : ℤ)

structure Want where
  element : ElementName
  action : String := ""
  params : SortedMap String ParamValue := .empty

def Want.setParam (want : Want) (key : String) (value : ParamValue) : Want :=
  { want with params := want.params.assign key value }

def intMax : ℤ := 2147483647

def dlpBundleName : String := "com.ohos.dlpmanager"

def dlpAbilityName : String := "SaveAsAbility"

def paramResvDisplayId : String := "ohos.aafwk.param.displayId"

def paramResvWindowMode : String := "ohos.aafwk.param.windowMode"

inductive ErrCode
  | ok | checkPermissionFailed
  | other (code : ℤ)
  deriving DecidableEq

structure SaveFileRecord where
  originReqCode : ℤ := 0
  caller : ℕ
  deriving DecidableEq

structure StartOptions where
  displayId : ℤ
  windowMode : ℤ

structure StartAbilityParams where
  want : Want
  requestCode : ℤ
  callerRecord : Option ℕ
  sandboxExternalAuth : Bool
  startOptions : Option StartOptions := none

structure Service where
  generateAbilityRequest : Want → ℤ → ErrCode × Want
  startAbilityJust : Want → ErrCode
  defaultDisplayId : ℤ

/-- The arguments of a call of `SendSandboxSavefileResult`, and the record it is made on. -/
structure SavefileResult where
  caller : ℕ
  want : Want
  resultCode : ℤ
  requestCode : ℤ

structure StartAbilitySandboxSavefile where
  requestCode : ℤ := 0
  fileSavingRecords : SortedMap ℤ SaveFileRecord := .empty

/-- A call of `HandleStartRequest` that has parked its record, with the want redirected.
The last two fields are of no use to the handler: whether the call has yet to return, and
whether a result is due for it. -/
structure Request where
  params : StartAbilityParams
  caller : ℕ
  reqCode : ℤ
  starting : Bool := true
  isOpen : Bool := true

def redirect (want : Want) (reqCode : ℤ) : Want :=
  let element := { want.element with bundleName := dlpBundleName, abilityName := dlpAbilityName }
  ({ want with element := element }.setParam "requestCode" (.integer reqCode)).setParam "startMode"
    (.string "save_redirect")

section
variable (service : Service) (params : StartAbilityParams) (requestCode : ℤ)

def startedWant : Want :=
  let want := (service.generateAbilityRequest params.want requestCode).2
  match params.startOptions with
  | none => want
  | some options =>
    let displayId := if options.displayId = 0 then service.defaultDisplayId else options.displayId
    (want.setParam paramResvDisplayId (.integer displayId)).setParam paramResvWindowMode
      (.integer options.windowMode)

def startAbility : ErrCode :=
  let ret := (service.generateAbilityRequest params.want requestCode).1
  if ret ≠ .ok then ret else service.startAbilityJust (startedWant service params requestCode)

def starts : Bool :=
  (service.generateAbilityRequest params.want requestCode).1 = .ok &&
    service.startAbilityJust (startedWant service params requestCode) = .ok

lemma starts_eq : starts service params requestCode =
    decide (startAbility service params requestCode = .ok) := by
  unfold starts startAbility
  dsimp only
  split_ifs with h
  · simp [h]
  · simp [not_not.mp h]

end

namespace StartAbilitySandboxSavefile

variable (s : StartAbilitySandboxSavefile)

def nextRequestCode : ℤ :=
  if s.requestCode + 1 ≥ intMax then 0 else s.requestCode + 1

def containRecord (reqCode : ℤ) : Bool :=
  s.fileSavingRecords.contains reqCode

def pushRecord (reqCode : ℤ) (caller : ℕ) :
    ℤ × StartAbilitySandboxSavefile :=
  let code := s.nextRequestCode
  -- a "repeated request code" takes the place of the record that has it
  let records :=
    if s.fileSavingRecords.contains code then s.fileSavingRecords.erase code
    else s.fileSavingRecords
  (code, ⟨code, records.emplace code ⟨reqCode, caller⟩⟩)

/-- `HandleStartRequest` up to its call of `StartAbility`. -/
def parkRequest (params : StartAbilityParams) :
    Except ErrCode (Request × StartAbilitySandboxSavefile) :=
  match params.callerRecord with
  | none => .error .checkPermissionFailed
  | some caller =>
    if !params.sandboxExternalAuth then .error .checkPermissionFailed
    else
      let (reqCode, s) := s.pushRecord params.requestCode caller
      let params := { params with want := redirect params.want reqCode }
      .ok ({ params := params, caller := caller, reqCode := reqCode }, s)

def handleStartRequest (service : Service)
    (params : StartAbilityParams) : ErrCode × StartAbilitySandboxSavefile :=
  match s.parkRequest params with
  | .error ret => (ret, s)
  | .ok (request, s) => (startAbility service request.params request.reqCode, s)

def handleResult (isAlive : ℕ → Bool) (want : Want)
    (resultCode requestCode : ℤ) : StartAbilitySandboxSavefile × Option SavefileResult :=
  match s.fileSavingRecords.find? requestCode with
  | none => (s, none)
  | some record =>
    let s := { s with fileSavingRecords := s.fileSavingRecords.erase requestCode }
    if isAlive record.caller then
      (s, some ⟨record.caller, want, resultCode, record.originReqCode⟩)
    else (s, none)

variable {s : StartAbilitySandboxSavefile}

lemma pushRecord_perm (reqCode : ℤ) (caller : ℕ) (h : s.containRecord s.nextRequestCode = false) :
    (s.pushRecord reqCode caller).2.fileSavingRecords.entries.Perm
      ((s.nextRequestCode, ⟨reqCode, caller⟩) :: s.fileSavingRecords.entries) := by
  have hnone := contains_eq_false.1 h
  have hkept : (s.pushRecord reqCode caller).2.fileSavingRecords =
      s.fileSavingRecords.emplace s.nextRequestCode ⟨reqCode, caller⟩ := by
    unfold containRecord at h
    simp [pushRecord, h]
  rw [hkept]
  exact entries_emplace_perm hnone _

lemma pushRecord_length (reqCode : ℤ) (caller : ℕ) (h : s.containRecord s.nextRequestCode = true) :
    (s.pushRecord reqCode caller).2.fileSavingRecords.entries.length =
      s.fileSavingRecords.entries.length := by
  obtain ⟨record, hfind⟩ := contains_iff.1 h
  have hreplaced : (s.pushRecord reqCode caller).2.fileSavingRecords =
      (s.fileSavingRecords.erase s.nextRequestCode).emplace s.nextRequestCode
        ⟨reqCode, caller⟩ := by
    unfold containRecord at h
    simp [pushRecord, h]
  have herased : (s.fileSavingRecords.erase s.nextRequestCode).find? s.nextRequestCode = none := by
    rw [find?_erase, if_pos rfl]
  rw [hreplaced, (entries_emplace_perm herased _).length_eq, (entries_perm_erase hfind).length_eq]
  rfl

lemma parkRequest_cases (s : StartAbilitySandboxSavefile) (params : StartAbilityParams) :
    s.parkRequest params = .error .checkPermissionFailed ∨
      ∃ caller, params.callerRecord = some caller ∧
        s.parkRequest params =
          .ok ({ params := { params with want := redirect params.want s.nextRequestCode }
                 caller := caller
                 reqCode := s.nextRequestCode }, (s.pushRecord params.requestCode caller).2) := by
  unfold parkRequest
  cases hcaller : params.callerRecord with
  | none => exact .inl rfl
  | some caller =>
    cases hauth : params.sandboxExternalAuth with
    | false => exact .inl rfl
    | true => exact .inr ⟨caller, rfl, rfl⟩

lemma handleResult_of_find? {requestCode : ℤ} {record : SaveFileRecord}
    (h : s.fileSavingRecords.find? requestCode = some record) (isAlive : ℕ → Bool) (want : Want)
    (resultCode : ℤ) :
    s.handleResult isAlive want resultCode requestCode =
      ({ s with fileSavingRecords := s.fileSavingRecords.erase requestCode },
        if isAlive record.caller then
          some ⟨record.caller, want, resultCode, record.originReqCode⟩
        else none) := by
  rw [handleResult, h]
  dsimp only
  split_ifs <;> rfl

end StartAbilitySandboxSavefile

namespace Request

def entry (r : Request) : ℤ × SaveFileRecord := (r.reqCode, ⟨r.params.requestCode, r.caller⟩)

def returned (r : Request) (ret : ErrCode) : Request :=
  { r with starting := false, isOpen := r.isOpen && ret = .ok }

def answered (r : Request) : Request := { r with isOpen := false }

end Request

/-- The handler along a run, with the requests in the order of their parking, what was sent to
the callers and what was due to them. -/
structure History where
  handler : StartAbilitySandboxSavefile := {}
  requests : List Request := []
  sent : List SavefileResult := []
  due : List SavefileResult := []

inductive Op
  | request (params : StartAbilityParams)
  | returned (request : ℕ) (service : Service)
  | result (request : ℕ) (isAlive : ℕ → Bool) (want : Want) (resultCode : ℤ)

namespace History

def step (h : History) : Op → History
  | .request params =>
    match h.handler.parkRequest params with
    | .error _ => h
    | .ok (request, handler) => { h with handler := handler, requests := h.requests ++ [request] }
  | .returned n service =>
    match h.requests[n]? with
    | none => h
    | some r =>
      if r.starting then
        let ret := startAbility service r.params r.reqCode
        { h with requests := h.requests.set n (r.returned ret) }
      else h
  | .result n isAlive want resultCode =>
    match h.requests[n]? with
    | none => h
    | some r =>
      let (handler, sent) := h.handler.handleResult isAlive want resultCode r.reqCode
      let due : List SavefileResult :=
        if r.isOpen && isAlive r.caller then [⟨r.caller, want, resultCode, r.params.requestCode⟩]
        else []
      { handler := handler
        requests := h.requests.set n r.answered
        sent := h.sent ++ sent.toList
        due := h.due ++ due }

def run (ops : List Op) : History := ops.foldl step {}

end History

open History

def openEntries (requests : List Request) : List (ℤ × SaveFileRecord) :=
  (requests.filter Request.isOpen).map Request.entry

structure Restored (h : History) : Prop where
  sent : h.sent = h.due
  parked : h.handler.fileSavingRecords.entries.Perm (openEntries h.requests)

def conforms (h : History) : Op → Bool
  | .request params =>
    match h.handler.parkRequest params with
    | .error _ => true
    | .ok _ => !h.handler.containRecord h.handler.nextRequestCode
  | .returned n service =>
    match h.requests[n]? with
    | none => true
    | some r => !(r.starting && r.isOpen) || starts service r.params r.reqCode
  | .result n _ _ _ =>
    match h.requests[n]? with
    | none => true
    | some r => r.isOpen || !h.handler.containRecord r.reqCode

section OpenEntries
variable {requests : List Request} {n : ℕ} {r : Request}

lemma openEntries_append (requests others : List Request) :
    openEntries (requests ++ others) = openEntries requests ++ openEntries others := by
  rw [openEntries, filter_append, map_append]
  rfl

lemma set_split (h : requests[n]? = some r) (r' : Request) :
    ∃ before after, requests = before ++ r :: after ∧
      requests.set n r' = before ++ r' :: after := by
  obtain ⟨hn, rfl⟩ := List.getElem?_eq_some_iff.1 h
  obtain ⟨before, after, hsplit, -, hset⟩ := List.exists_of_set hn
  exact ⟨before, after, hsplit, hset⟩

lemma openEntries_set_of_eq (h : requests[n]? = some r) (r' : Request)
    (hopen : r'.isOpen = r.isOpen) (hentry : r'.entry = r.entry) :
    openEntries (requests.set n r') = openEntries requests := by
  obtain ⟨before, after, hsplit, hset⟩ := set_split h r'
  rw [hset]
  conv_rhs => rw [hsplit]
  simp only [openEntries, filter_append, filter_cons, hopen]
  split_ifs <;> simp [hentry]

lemma openEntries_perm_set (h : requests[n]? = some r) (r' : Request) (hopen : r.isOpen = true)
    (hclosed : r'.isOpen = false) :
    (openEntries requests).Perm (r.entry :: openEntries (requests.set n r')) := by
  obtain ⟨before, after, hsplit, hset⟩ := set_split h r'
  rw [hset]
  conv_lhs => rw [hsplit]
  simp only [openEntries, filter_append, filter_cons, hopen, hclosed, map_append]
  exact perm_middle

end OpenEntries

section Steps
variable {h : History}

lemma not_restored_of_length
    (hne : h.handler.fileSavingRecords.entries.length ≠ (openEntries h.requests).length) :
    ¬Restored h := fun hr => hne hr.parked.length_eq

variable (hr : Restored h)
include hr

lemma Restored.find? {n : ℕ} {r : Request} (hn : h.requests[n]? = some r)
    (hopen : r.isOpen = true) :
    h.handler.fileSavingRecords.find? r.reqCode = some ⟨r.params.requestCode, r.caller⟩ := by
  have hmem : r.entry ∈ openEntries h.requests :=
    mem_map_of_mem (mem_filter.2 ⟨mem_of_getElem? hn, hopen⟩)
  exact mem_entries.1 (hr.parked.mem_iff.2 hmem)

lemma Restored.request (params : StartAbilityParams) :
    Restored (h.step (.request params)) ↔ conforms h (.request params) = true := by
  rcases h.handler.parkRequest_cases params with hpark | ⟨caller, -, hpark⟩
  · have hsame : h.step (.request params) = h := by simp [step, hpark]
    simp [hsame, hr, conforms, hpark]
  · simp only [step, conforms, hpark]
    cases hc : h.handler.containRecord h.handler.nextRequestCode with
    | false =>
      refine iff_of_true ⟨hr.sent, ?_⟩ rfl
      refine (h.handler.pushRecord_perm params.requestCode caller hc).trans ?_
      rw [openEntries_append]
      exact (hr.parked.cons _).trans (perm_append_singleton _ _).symm
    | true =>
      refine iff_of_false (not_restored_of_length ?_) (by simp)
      rw [h.handler.pushRecord_length params.requestCode caller hc, hr.parked.length_eq,
        openEntries_append, length_append]
      exact Nat.ne_of_lt (Nat.lt_succ_self _)

lemma Restored.returned (n : ℕ) (service : Service) :
    Restored (h.step (.returned n service)) ↔ conforms h (.returned n service) = true := by
  cases hn : h.requests[n]? with
  | none => simp [step, conforms, hn, hr]
  | some r =>
    simp only [step, conforms, hn, starts_eq]
    cases hstarting : r.starting with
    | false => simp [hr]
    | true =>
      rw [if_pos rfl]
      generalize startAbility service r.params r.reqCode = ret
      by_cases hkept : r.isOpen = false ∨ ret = .ok
      · -- the request waits for its result as before, or has it
        have hopen : (r.returned ret).isOpen = r.isOpen := by
          rcases hkept with hkept | hkept <;> simp [Request.returned, hkept]
        refine iff_of_true ⟨hr.sent, ?_⟩ (by simpa using hkept)
        rw [openEntries_set_of_eq hn _ hopen rfl]
        exact hr.parked
      · -- its record is left in the table
        obtain ⟨hopen, hfailed⟩ := not_or.1 hkept
        have hclosed : (r.returned ret).isOpen = false := by simp [Request.returned, hfailed]
        refine iff_of_false (not_restored_of_length ?_) (by simpa using hkept)
        rw [hr.parked.length_eq,
          (openEntries_perm_set hn _ (Bool.not_eq_false _ ▸ hopen) hclosed).length_eq]
        exact Nat.succ_ne_self _

lemma Restored.result (n : ℕ) (isAlive : ℕ → Bool) (want : Want) (resultCode : ℤ) :
    Restored (h.step (.result n isAlive want resultCode)) ↔
      conforms h (.result n isAlive want resultCode) = true := by
  cases hn : h.requests[n]? with
  | none => simp [step, conforms, hn, hr]
  | some r =>
    simp only [step, conforms, hn]
    cases hopen : r.isOpen with
    | true =>
      -- its own record is found and taken out
      have hfind := hr.find? hn hopen
      rw [h.handler.handleResult_of_find? hfind]
      refine iff_of_true ⟨?_, ?_⟩ rfl
      · cases halive : isAlive r.caller <;> simp [hr.sent]
      · have hclosed := openEntries_perm_set hn r.answered hopen rfl
        have herased := entries_perm_erase hfind
        exact (herased.symm.trans (hr.parked.trans hclosed)).cons_inv
    | false =>
      have hset : openEntries (h.requests.set n r.answered) =
          openEntries h.requests := openEntries_set_of_eq hn _ hopen.symm rfl
      cases hc : h.handler.containRecord r.reqCode with
      | false =>
        have hnone : h.handler.fileSavingRecords.find? r.reqCode = none := contains_eq_false.1 hc
        rw [StartAbilitySandboxSavefile.handleResult, hnone]
        refine iff_of_true ⟨?_, ?_⟩ rfl
        · simp [hr.sent]
        · exact hset.symm ▸ hr.parked
      | true =>
        -- the record of another request that has the number now
        obtain ⟨record, hfind⟩ := contains_iff.1 hc
        rw [h.handler.handleResult_of_find? hfind]
        refine iff_of_false (not_restored_of_length ?_) (by simp)
        rw [hset, ← hr.parked.length_eq, (entries_perm_erase hfind).length_eq]
        exact (Nat.succ_ne_self _).symm

lemma Restored.step (op : Op) : Restored (h.step op) ↔ conforms h op = true :=
  match op with
  | .request params => hr.request params
  | .returned n service => hr.returned n service
  | .result n isAlive want resultCode => hr.result n isAlive want resultCode

end Steps

theorem run_restored_iff (ops : List Op) : (∀ n, Restored (run (ops.take n))) ↔
      Runs.Guarded step (fun h op => conforms h op = true) {} ops :=
  Runs.guarded_iff_forall_take (fun _ op hr => hr.step op) ⟨rfl, .nil⟩ ops

section FailedStart

def savePhoto : StartAbilityParams where
  want := { element := ⟨"", "com.example.notes", "entry", "MainAbility"⟩
            action := "ohos.want.action.CREATE_FILE" }
  requestCode := 7
  callerRecord := some 1
  sandboxExternalAuth := true

def notInstalled : Service where
  generateAbilityRequest := fun want _ => (.other 2097152, want)
  startAbilityJust := fun _ => .ok
  defaultDisplayId := 0

def failedStart : List Op := [.request savePhoto, .returned 0 notInstalled]

theorem failedStart_not_restored :
    (StartAbilitySandboxSavefile.handleStartRequest {} notInstalled savePhoto).1 ≠ .ok ∧
      (run failedStart).handler.fileSavingRecords.entries = [(1, ⟨7, 1⟩)] ∧
        ¬Restored (run failedStart) := by
  refine ⟨by decide, by decide, fun hr => ?_⟩
  exact absurd hr.parked.length_eq (by decide)

end FailedStart

end AbilityRuntime.SandboxSave
