import AbilityRuntime.AbilityMgr.MissionPartition

/-! The waiting queue and the answers to `StartSpecifiedAbility`, which are applied to whatever is
at the front. -/

namespace AbilityRuntime.MissionListManager
open List Prod
variable (s : MissionListManager)

def queues : List AbilityRequest × List AbilityRequest := (s.waitingAbilityQueue, s.specifiedCalls)

@[simp] lemma queues_with (lists : MissionLists) (missions : MissionRef → Mission)
    (records : MissionRef → AbilityRecord) (terminateAbilityList : List MissionRef) :
    queues { s with
      lists := lists, missions := missions, records := records
      terminateAbilityList := terminateAbilityList } = s.queues := rfl

variable (r : MissionRef)

@[simp] lemma queues_modify (f : AbilityRecord → AbilityRecord) :
    (s.modify r f).queues = s.queues := rfl

variable (top caller : Option MissionRef) (request : AbilityRequest) (env : StartEnv) (l : ListRef)

@[simp] lemma queues_needTopAbility (r : MissionRef) :
    (s.needTopAbility l r).2.queues = s.queues := by
  unfold needTopAbility
  split
  · rfl
  · split
    · split <;> rfl
    · rfl

@[simp] lemma queues_setNextAbility (r : MissionRef) :
    (s.setNextAbility l r).queues = s.queues := by
  have h := s.queues_needTopAbility l r
  unfold setNextAbility
  split
  next heq => rwa [heq] at h
  next heq =>
    rw [heq] at h
    split
    · exact h
    · split <;> exact h

@[simp] lemma queues_removeTerminatingAbility (flag : Bool) :
    (s.removeTerminatingAbility r flag).queues = s.queues := by
  unfold removeTerminatingAbility
  split
  · rfl
  · split
    · rfl
    · split
      · rfl
      · dsimp only
        split <;> simp

@[simp] lemma queues_terminateAbilityLocked (flag : Bool) :
    (s.terminateAbilityLocked r flag).queues = s.queues := by
  unfold terminateAbilityLocked
  dsimp only
  split
  · split <;> simp
  · split <;> simp

@[simp] lemma queues_terminateAbilityInner (flag : Bool) :
    (s.terminateAbilityInner r flag).2.queues = s.queues := by
  unfold terminateAbilityInner
  split_ifs <;> simp

@[simp] lemma queues_checkLimit : s.checkLimit.2.queues = s.queues := by
  rcases checkLimit_snd s with h | ⟨m, -, h⟩ <;> simp [h]

@[simp] lemma queues_getTargetMissionList (caller : Option MissionRef)
    (request : AbilityRequest) : (s.getTargetMissionList caller request).2.queues = s.queues := by
  unfold getTargetMissionList getTargetMissionListByLauncher getTargetMissionListByDefault
  grind [queues]

@[simp] lemma queues_getTargetMission :
    (s.getTargetMission request env).2.2.queues = s.queues := by
  have hlimit := s.queues_checkLimit
  unfold getTargetMission getTargetMissionAndAbility
  grind [queues, makeMission, modify]

lemma queues_leaveList (launcher : Bool) (t l : ListRef) (m : MissionRef) :
    (s.leaveList launcher t l m).queues = s.queues := by
  unfold leaveList moveNoneTopMissionToDefaultList
  grind [queues]

@[simp] lemma queues_moveMissionToTargetList (launcher : Bool) (t : ListRef) (m : MissionRef) :
    (s.moveMissionToTargetList launcher t m).queues = s.queues := by
  have hleave := s.queues_leaveList launcher t
  unfold moveMissionToTargetList
  grind [queues]

@[simp] lemma queues_moveMissionListToTop : (s.moveMissionListToTop l).queues = s.queues := rfl

@[simp] lemma queues_scheduleTarget (focus : Option MissionRef) (target : MissionRef) :
    (s.scheduleTarget top caller request focus target).queues = s.queues := by
  unfold scheduleTarget
  grind [queues_modify]

@[simp] lemma queues_startAbilityLocked :
    (s.startAbilityLocked top caller request env).2.queues = s.queues := by
  have hlist := s.queues_getTargetMissionList caller request
  unfold startAbilityLocked
  split
  next heq => rwa [heq] at hlist
  next t s₁ heq =>
    rw [heq] at hlist
    have hmission := s₁.queues_getTargetMission request env
    split
    next heq' =>
      rw [heq'] at hmission
      simpa using hmission.trans hlist
    next heq' =>
      rw [heq'] at hmission
      exact hmission.trans hlist

@[simp] lemma queues_moveMissionToFrontInner (missionId : ℤ) (launcher : Bool)
    (info : Option FrontInfo) :
    (s.moveMissionToFrontInner missionId launcher info).2.queues = s.queues := by
  have hlimit := s.queues_checkLimit
  have hid : (s.getTargetMissionListById missionId info).2.2.queues = s.queues := by
    unfold getTargetMissionListById
    grind [queues, makeMission]
  unfold moveMissionToFrontInner
  split
  next heq => rwa [heq] at hid
  next heq => rwa [heq] at hid
  next heq =>
    rw [heq] at hid
    simpa using hid

@[simp] lemma queues_moveAbilityToBackground (animaEnabled : Bool) :
    (s.moveAbilityToBackground r animaEnabled).queues = s.queues := by
  have hremove : (s.removeBackgroundingAbility r).queues = s.queues := by
    unfold removeBackgroundingAbility
    split
    · rfl
    · split
      · rfl
      · dsimp only
        split <;> simp
  unfold moveAbilityToBackground
  grind [queues_modify]

@[simp] lemma queues_clearMission (missionId : ℤ) (stop : Bool) :
    (s.clearMission missionId stop).queues = s.queues := by
  unfold clearMission clearMissionLocked
  grind [queues_modify, queues_terminateAbilityLocked]

@[simp] lemma queues_completeTerminate : (s.completeTerminate r).queues = s.queues := by
  unfold completeTerminate completeTerminateAndUpdateMission
  grind [queues, queues_terminateAbilityLocked]

@[simp] lemma queues_onAbilityDied (isCurrentUser : Bool) :
    (s.onAbilityDied r isCurrentUser).queues = s.queues := by
  unfold onAbilityDied handleLauncherDied handleAbilityDiedByDefault
    completeTerminateAndUpdateMission
  grind [queues, modify]

@[simp] lemma queues_handleForegroundTimeout :
    (s.handleForegroundTimeout r).queues = s.queues := by
  unfold handleForegroundTimeout moveToTerminateList
  grind [queues, modify]

@[simp] lemma queues_onTimeOut (msg : TimeoutMsg) (r : MissionRef) :
    (s.onTimeOut msg r).queues = s.queues := by
  unfold onTimeOut moveToTerminateList
  grind [queues, modify, queues_handleForegroundTimeout]

@[simp] lemma queues_terminatePreviousAbility :
    (s.terminatePreviousAbility r).queues = s.queues := by
  unfold terminatePreviousAbility
  grind [queues_modify]

@[simp] lemma queues_completeForegroundFailed (state : AbilityState) :
    (s.completeForegroundFailed r state).queues = s.queues := by
  unfold completeForegroundFailed
  split <;> simp

@[simp] lemma queues_completeForegroundSuccess (time : String) :
    (s.completeForegroundSuccess r time).queues = s.queues := by
  unfold completeForegroundSuccess updateMissionTime
  grind [queues_modify, queues_terminatePreviousAbility]

@[simp] lemma queues_terminateBackgrounded (rs : List MissionRef) :
    (s.terminateBackgrounded rs).queues = s.queues := by
  induction rs generalizing s with
  | nil => rfl
  | cons r rs ih =>
    unfold terminateBackgrounded
    rw [ih]
    split <;> simp

@[simp] lemma queues_completeBackground : (s.completeBackground r).queues = s.queues := by
  unfold completeBackground
  split <;> simp

@[simp] lemma queues_minimizeAbility (fromUser : Bool) :
    (s.minimizeAbility r fromUser).queues = s.queues := by
  unfold minimizeAbility
  grind [queues_modify]

def Issues (s s' : MissionListManager) : Prop :=
  ∃ request rest, s'.waitingAbilityQueue = request :: rest ∧
    s'.specifiedCalls = s.specifiedCalls ++ [request]

lemma issues_startAbilityFrom : (s.startAbilityFrom top caller request env).2.queues = s.queues ∨
      Issues s (s.startAbilityFrom top caller request env).2 := by
  unfold startAbilityFrom
  split
  · exact .inr ⟨request, s.waitingAbilityQueue, rfl, rfl⟩
  · exact .inl (s.queues_startAbilityLocked top caller request env)

lemma issues_startFront :
    (s.startFront env).specifiedCalls = s.specifiedCalls ∨ Issues s (s.startFront env) := by
  unfold startFront
  cases s.waitingAbilityQueue with
  | nil => exact .inl rfl
  | cons request rest =>
    let popped : MissionListManager := { s with waitingAbilityQueue := rest }
    rcases popped.issues_startAbilityFrom popped.getCurrentTopAbilityLocked
      (popped.getAbilityRecordByTokenInner request.callerToken) request env with hsame | hissues
    · exact .inl (congrArg snd hsame)
    · exact .inr hissues

lemma specifiedCalls_onAcceptWantResponse (want : String × String) (flag : String)
    (info : Option FrontInfo) (env : StartEnv) :
    (s.onAcceptWantResponse want flag info env).specifiedCalls = s.specifiedCalls := by
  unfold onAcceptWantResponse
  cases s.waitingAbilityQueue with
  | nil => rfl
  | cons request rest =>
    dsimp only
    split
    · exact congrArg snd (queues_startAbilityLocked _ _ _ _ _)
    · split
      · exact congrArg snd (queues_startAbilityLocked _ _ _ _ _)
      · exact congrArg snd (queues_moveMissionToFrontInner _ _ _ _)

lemma queues_backToLauncher :
    s.backToLauncher.queues = s.queues ∨ s.backToLauncher.queues = ([], s.specifiedCalls) := by
  unfold backToLauncher
  grind [queues, modify]

def Op.isQuiet : Op → Bool
  | .startAbility _ _ => false
  | .startWaitingAbility _ => false
  | .onAcceptWantResponse _ _ _ _ => false
  | .onStartSpecifiedAbilityTimeoutResponse _ => false
  | .uninstallApp _ _ => false
  | .backToLauncher => false
  | _ => true

lemma queues_step_of_isQuiet {op : Op} (h : op.isQuiet = true) : (s.step op).queues = s.queues := by
  cases op with
  | startAbility | startWaitingAbility | onAcceptWantResponse
  | onStartSpecifiedAbilityTimeoutResponse | uninstallApp | backToLauncher => cases h
  | moveMissionToFront missionId launcher info =>
    exact s.queues_moveMissionToFrontInner missionId launcher info
  | backToCaller caller info =>
    simp only [step]
    unfold backToCaller
    split <;> simp
  | signRestartAppFlag bundleName => rfl
  | attachAbilityThread r =>
    simp only [step]
    unfold attachAbilityThread
    split <;> rfl
  | onAbilityRequestDone r =>
    simp only [step]
    unfold onAbilityRequestDone
    split <;> rfl
  | terminateAbility r flag => exact s.queues_terminateAbilityInner r flag
  | _ => simp [step]

lemma issues_step (op : Op) :
    (s.step op).specifiedCalls = s.specifiedCalls ∨ Issues s (s.step op) := by
  have hquiet (h : op.isQuiet = true) :=
    Or.inl (b := Issues s (s.step op)) (congrArg snd (s.queues_step_of_isQuiet h))
  cases op with
  | startAbility request env =>
    simp only [step]
    unfold startAbility
    split
    · exact .inl rfl
    · dsimp only
      split
      · exact .inl rfl
      · exact (s.issues_startAbilityFrom _ _ request env).imp_left (congrArg snd)
  | startWaitingAbility env =>
    simp only [step]
    unfold startWaitingAbility
    split
    · exact .inl rfl
    · exact s.issues_startFront env
  | onAcceptWantResponse want flag info env =>
    exact .inl (s.specifiedCalls_onAcceptWantResponse want flag info env)
  | onStartSpecifiedAbilityTimeoutResponse env =>
    simp only [step]
    unfold onStartSpecifiedAbilityTimeoutResponse
    split
    · exact .inl rfl
    · exact issues_startFront _ env
  | uninstallApp bundleName uid => exact .inl rfl
  | backToLauncher => exact .inl (s.queues_backToLauncher.elim (congrArg snd) (congrArg snd))
  | _ => exact hquiet rfl

def Op.isResponse : Op → Bool
  | .onAcceptWantResponse _ _ _ _ => true
  | .onStartSpecifiedAbilityTimeoutResponse _ => true
  | _ => false

structure Answering where
  manager : MissionListManager
  answered : ℕ

namespace Answering

def step (a : Answering) (op : Op) : Answering where
  manager := a.manager.step op
  answered := if op.isResponse then a.answered + 1 else a.answered

def start : Answering := ⟨init, 0⟩

def unanswered (a : Answering) : List AbilityRequest := a.manager.specifiedCalls.drop a.answered

def arrives (a : Answering) (op : Op) : Bool :=
  !op.isResponse || a.answered < a.manager.specifiedCalls.length

def leavesFront : Op → Bool
  | .startAbility request _ => request.launchMode ≠ .specified ∨ s.checkSingleLimit request ∨
      (s.isTopForegrounding && !s.getCurrentTopAbilityLocked.any fun top =>
        (s.records top).restartAppFlag)
  | .startWaitingAbility _ => s.isTopForegrounding
  | .uninstallApp bundleName uid => !s.waitingAbilityQueue.head?.any fun request =>
      request.bundleName = bundleName ∧ request.uid = uid
  | .backToLauncher => false
  | _ => true

def oneCall (a : Answering) (op : Op) : Bool :=
  op.isResponse || a.unanswered.isEmpty || leavesFront a.manager op

structure Waiting (a : Answering) : Prop where
  answered : a.answered ≤ a.manager.specifiedCalls.length
  front : a.unanswered = [] ∨
    ∃ request, a.unanswered = [request] ∧ a.manager.waitingAbilityQueue.head? = some request

lemma head_leavesFront {s : MissionListManager} {op : Op} {request : AbilityRequest}
    (hleaves : leavesFront s op = true) (hresponse : op.isResponse = false)
    (hfront : s.waitingAbilityQueue.head? = some request) :
    (s.step op).specifiedCalls = s.specifiedCalls ∧
      (s.step op).waitingAbilityQueue.head? = some request := by
  have hsame {s' : MissionListManager} (h : s'.queues = s.queues) :
      s'.specifiedCalls = s.specifiedCalls ∧ s'.waitingAbilityQueue.head? = some request :=
    ⟨congrArg snd h, (congrArg (head? ∘ fst) h).trans hfront⟩
  cases op with
  | onAcceptWantResponse | onStartSpecifiedAbilityTimeoutResponse => cases hresponse
  | backToLauncher => cases hleaves
  | startAbility r env =>
    simp only [MissionListManager.step]
    unfold startAbility
    unfold leavesFront at hleaves
    split
    · exact hsame rfl
    next hlimit =>
      dsimp only
      split
      · refine ⟨rfl, ?_⟩
        simp only [enqueueWaitingAbility, head?_append, hfront]
        rfl
      next hwait =>
        have hmode : ¬ r.launchMode = .specified := by simpa [hlimit, hwait] using hleaves
        unfold startAbilityFrom
        rw [if_neg hmode]
        exact hsame (s.queues_startAbilityLocked _ _ r env)
  | startWaitingAbility env =>
    simp only [MissionListManager.step]
    unfold startWaitingAbility
    rw [if_pos (by exact hleaves)]
    exact hsame rfl
  | uninstallApp bundleName uid =>
    refine ⟨rfl, ?_⟩
    obtain ⟨rest, hq⟩ := head?_eq_some_iff.1 hfront
    unfold leavesFront at hleaves
    simp only [hq, head?_cons, Option.any_some] at hleaves
    simp only [MissionListManager.step]
    unfold addUninstallTags eraseWaitingAbility
    simp only [hq]
    rw [filter_cons, if_pos hleaves]
    rfl
  | _ => exact hsame (s.queues_step_of_isQuiet rfl)

variable {a : Answering}

lemma waiting_of_answered (op : Op) (h : (a.step op).answered = a.manager.specifiedCalls.length) :
    (a.step op).Waiting := by
  rcases a.manager.issues_step op with hcalls | ⟨request, rest, hqueue, hcalls⟩
  · have hlength : (a.step op).answered = (a.step op).manager.specifiedCalls.length :=
      h.trans (congrArg length hcalls).symm
    exact ⟨hlength.le, .inl (drop_eq_nil_of_le hlength.ge)⟩
  · refine ⟨?_, .inr ⟨request, ?_, congrArg head? hqueue⟩⟩
    · rw [h, show (a.step op).manager.specifiedCalls = _ from hcalls, length_append]
      exact Nat.le_add_right _ _
    · unfold unanswered
      rw [h, show (a.step op).manager.specifiedCalls = _ from hcalls, drop_left]

lemma Waiting.front_of_arrives (h : a.Waiting) (ha : a.answered < a.manager.specifiedCalls.length) :
    ∃ request, a.unanswered = [request] ∧ a.manager.waitingAbilityQueue.head? = some request := by
  refine h.front.resolve_left fun hnil => ?_
  exact absurd (drop_eq_nil_iff.1 hnil) (not_le.2 ha)

lemma waiting_step {op : Op} (h : a.Waiting) (harrives : a.arrives op = true)
    (hone : a.oneCall op = true) : (a.step op).Waiting := by
  cases hresponse : op.isResponse with
  | true =>
    have hlt : a.answered < a.manager.specifiedCalls.length := by
      simpa [arrives, hresponse] using harrives
    obtain ⟨request, hrequest, -⟩ := h.front_of_arrives hlt
    have hlength := congrArg length hrequest
    simp only [unanswered, length_drop, length_singleton] at hlength
    refine waiting_of_answered op ?_
    simp only [step, hresponse, if_true]
    omega
  | false =>
    have hanswered : (a.step op).answered = a.answered := by simp [step, hresponse]
    rcases h.front with hnil | ⟨request, hrequest, hfront⟩
    · refine waiting_of_answered op (hanswered.trans ?_)
      exact le_antisymm h.answered (drop_eq_nil_iff.1 hnil)
    · have hleaves : leavesFront a.manager op = true := by
        simpa [oneCall, hresponse, hrequest] using hone
      obtain ⟨hcalls, hhead⟩ := head_leavesFront hleaves hresponse hfront
      have hunanswered : (a.step op).unanswered = a.unanswered := by
        unfold unanswered
        rw [hanswered, show (a.step op).manager.specifiedCalls = _ from hcalls]
      refine ⟨?_, .inr ⟨request, hunanswered.trans hrequest, hhead⟩⟩
      rw [hanswered, show (a.step op).manager.specifiedCalls = _ from hcalls]
      exact h.answered

end Answering

/-- What the answer to the call for `request` does: the request gets the flag and is started, or the
mission that has the flag already comes to the front for it. -/
def applyAnswer (s : MissionListManager) (request : AbilityRequest) (want : String × String)
    (flag : String) (info : Option FrontInfo) (env : StartEnv) : MissionListManager :=
  match s.acceptedMission want flag with
  | none =>
    (s.startAbilityLocked s.getCurrentTopAbilityLocked
      (s.getAbilityRecordByTokenInner request.callerToken)
      { request with specifiedFlag := flag } env).2
  | some mission =>
    (s.moveMissionToFrontInner (s.missions mission).missionId
      (request.callerToken.any fun c => (s.missions c).isLauncherApp) info).2

lemma onAcceptWantResponse_eq {request : AbilityRequest} {rest : List AbilityRequest}
    (hqueue : s.waitingAbilityQueue = request :: rest) (want : String × String) (flag : String)
    (info : Option FrontInfo) (env : StartEnv) :
    s.onAcceptWantResponse want flag info env =
      { s with waitingAbilityQueue := rest }.applyAnswer request want flag info env := by
  unfold onAcceptWantResponse applyAnswer acceptedMission
  rw [hqueue]
  dsimp only
  split_ifs
  · rfl
  · split <;> simp_all only

namespace Answering

def Reaches (a : Answering) : Op → Prop
  | .onAcceptWantResponse want flag info env =>
    ∃ request rest, a.unanswered.head? = some request ∧
      a.manager.waitingAbilityQueue = request :: rest ∧
      (a.step (.onAcceptWantResponse want flag info env)).manager =
        { a.manager with waitingAbilityQueue := rest }.applyAnswer request want flag info env
  | .onStartSpecifiedAbilityTimeoutResponse env =>
    ∃ request rest, a.unanswered.head? = some request ∧
      a.manager.waitingAbilityQueue = request :: rest ∧
      (a.step (.onStartSpecifiedAbilityTimeoutResponse env)).manager =
        { a.manager with waitingAbilityQueue := rest }.startFront env
  | _ => True

lemma Waiting.reaches {a : Answering} (h : a.Waiting) {op : Op} (harrives : a.arrives op = true) :
    a.Reaches op := by
  have hfront (hresponse : op.isResponse = true) : ∃ request rest,
      a.unanswered.head? = some request ∧ a.manager.waitingAbilityQueue = request :: rest := by
    have hlt : a.answered < a.manager.specifiedCalls.length := by
      simpa [arrives, hresponse] using harrives
    obtain ⟨request, hrequest, hhead⟩ := h.front_of_arrives hlt
    obtain ⟨rest, hqueue⟩ := head?_eq_some_iff.1 hhead
    exact ⟨request, rest, congrArg head? hrequest, hqueue⟩
  cases op with
  | onAcceptWantResponse want flag info env =>
    obtain ⟨request, rest, hhead, hqueue⟩ := hfront rfl
    exact ⟨request, rest, hhead, hqueue, onAcceptWantResponse_eq _ hqueue want flag info env⟩
  | onStartSpecifiedAbilityTimeoutResponse env =>
    obtain ⟨request, rest, hhead, hqueue⟩ := hfront rfl
    refine ⟨request, rest, hhead, hqueue, ?_⟩
    simp only [step, MissionListManager.step]
    unfold onStartSpecifiedAbilityTimeoutResponse
    rw [hqueue]
  | _ => trivial

abbrev Conforms (a : Answering) (ops : List Op) : Prop :=
  Runs.Guarded step (fun a op => a.arrives op = true ∧ a.oneCall op = true) a ops

theorem answers_reach {ops : List Op} (h : Conforms start ops) (pre post : List Op) (op : Op)
    (hops : ops = pre ++ op :: post) : (pre.foldl step start).Reaches op := by
  subst hops
  obtain ⟨hpre, hop, -⟩ := (Runs.guarded_append start pre (op :: post)).1 h
  have hwaiting : (pre.foldl step start).Waiting :=
    hpre.invariant (fun _ _ hi hok => waiting_step hi hok.1 hok.2) ⟨le_rfl, .inl rfl⟩
  exact hwaiting.reaches hop.1

def specifiedRequest (abilityName : String) : AbilityRequest :=
  { sampleRequest none abilityName with launchMode := .specified }

def specifiedStart (abilityName : String) : Op :=
  .startAbility (specifiedRequest abilityName) ⟨none, "1", none⟩

def accepted (abilityName flag : String) (missionId : ℤ) : Op :=
  .onAcceptWantResponse ("com.ohos.notepad", abilityName) flag none ⟨some missionId, "2", none⟩

theorem one_call_at_a_time :
    Conforms start [specifiedStart "Main", accepted "Main" "main" 0, specifiedStart "Edit",
      .onStartSpecifiedAbilityTimeoutResponse ⟨none, "3", none⟩] ∧
    ([specifiedStart "Main"].foldl step start).Reaches (accepted "Main" "main" 0) := by
  have h : Conforms start [specifiedStart "Main", accepted "Main" "main" 0, specifiedStart "Edit",
      .onStartSpecifiedAbilityTimeoutResponse ⟨none, "3", none⟩] := by decide +kernel
  exact ⟨h, answers_reach h [specifiedStart "Main"] _ (accepted "Main" "main" 0) rfl⟩

theorem answer_starts_other : Runs.Guarded step (fun a op => a.arrives op = true) start
      [specifiedStart "Main", specifiedStart "Edit", accepted "Main" "main" 0] ∧
    ([specifiedStart "Main", specifiedStart "Edit"].foldl step start).unanswered.head? =
      some (specifiedRequest "Main") ∧
    (([specifiedStart "Main", specifiedStart "Edit", accepted "Main" "main" 0].foldl
      step start).manager.missions 0).abilityName = "Edit" ∧
    (([specifiedStart "Main", specifiedStart "Edit", accepted "Main" "main" 0].foldl
      step start).manager.missions 0).specifiedFlag = "main" := by
  decide +kernel

end Answering
end AbilityRuntime.MissionListManager
