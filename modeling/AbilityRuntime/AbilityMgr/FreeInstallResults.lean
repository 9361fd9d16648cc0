import AbilityRuntime.AbilityMgr.FreeInstallManager
import AbilityRuntime.Library.Ledger

/-! Who is told of an install. -/

namespace AbilityRuntime.FreeInstall
namespace FreeInstallManager
open List

variable {s t : FreeInstallManager}

def Tells (s t : FreeInstallManager) : Prop :=
  ∃ ts : List Told, (∀ cb of code, .freeInstallDone cb of code ∉ ts) ∧
    t = { s with told := s.told ++ ts }

lemma Tells.refl (s : FreeInstallManager) : Tells s s := ⟨[], by simp, by rw [append_nil]⟩

lemma Tells.trans {u : FreeInstallManager} (h : Tells s t) (h' : Tells t u) : Tells s u := by
  obtain ⟨ts, hts, rfl⟩ := h
  obtain ⟨us, hus, rfl⟩ := h'
  refine ⟨ts ++ us, fun cb of code hmem => ?_, by rw [append_assoc]⟩
  rcases mem_append.mp hmem with hmem | hmem
  · exact hts cb of code hmem
  · exact hus cb of code hmem

section
variable (s)

lemma tells_tell {t : Told}
    (h : ∀ cb of code, t ≠ .freeInstallDone cb of code) : Tells s (s.tell t) :=
  ⟨[t], fun cb of code hmem => h cb of code (mem_singleton.mp hmem).symm, rfl⟩

lemma tells_handleOnFreeInstallSuccess (recordId : ℤ) (info : FreeInstallInfo) (env : Answers) :
    Tells s (s.handleOnFreeInstallSuccess recordId info true env) := by
  unfold handleOnFreeInstallSuccess startAbilityByPreInstall
  rw [if_pos rfl]
  split
  · refine .trans ?_ (tells_tell _ (by simp))
    split
    · exact tells_tell s (by simp)
    · exact .refl s
  · split
    · exact tells_tell s (by simp)
    · exact tells_tell s (by simp)

lemma tells_handleOnFreeInstallFail (recordId : ℤ)
    (info : FreeInstallInfo) (resultCode : ℤ) (env : Answers) :
    Tells s (s.handleOnFreeInstallFail recordId info resultCode true env) := by
  have hfirst : Tells s (if info.isPreStartMissionCalled ∧ info.want.sessionId ≠ "" ∧
      info.isStartUIAbilityBySCBCalled then
        s.tell (.atomicServiceException info.want.sessionId resultCode "free install failed")
      else s) := by
    split
    · exact tells_tell s (by simp)
    · exact .refl s
  have hlast (u : FreeInstallManager) : Tells u (if info.isOpenAtomicServiceShortUrl ∧
      resultCode ≠ concurrentTasksWaitingForRetry then u.startAbilityByOriginalWant info env
      else u.tell (.installFinished recordId info.want.task resultCode)) := by
    split
    · exact tells_tell u (by simp)
    · exact tells_tell u (by simp)
  exact hfirst.trans (hlast _)

lemma tells_handleFreeInstallResult (recordId : ℤ)
    (info : FreeInstallInfo) (resultCode : ℤ) (env : Answers) :
    Tells s (s.handleFreeInstallResult recordId info resultCode true env) := by
  unfold handleFreeInstallResult
  split
  · exact tells_handleOnFreeInstallSuccess s recordId info env
  · exact tells_handleOnFreeInstallFail s recordId info resultCode env

lemma handleFreeInstallResult_sync (recordId : ℤ)
    (info : FreeInstallInfo) (resultCode : ℤ) (env : Answers) :
    s.handleFreeInstallResult recordId info resultCode false env =
      s.setValue info.request resultCode := by
  unfold handleFreeInstallResult handleOnFreeInstallSuccess handleOnFreeInstallFail
  simp only [Bool.false_eq_true, if_false]
  split_ifs with hok
  · rw [hok]
  · rfl

lemma tells_handleInsightIntent (want : Want) (env : Answers)
    (info : FreeInstallInfo) : Tells s (s.handleInsightIntent want env info) := by
  unfold handleInsightIntent startAbilityByFreeInstall
  split
  · exact tells_tell s (by simp)
  · exact tells_tell s (by simp)

end

lemma tells_foldl {f : FreeInstallManager → FreeInstallInfo → FreeInstallManager}
    (hf : ∀ s info, Tells s (f s info)) (infos : List FreeInstallInfo) (s : FreeInstallManager) :
    Tells s (infos.foldl f s) := by
  induction infos generalizing s with
  | nil => exact .refl s
  | cons info infos ih => exact (hf s info).trans (ih (f s info))

def setValues (s : FreeInstallManager) (infos : List FreeInstallInfo) (value : ℤ) :
    FreeInstallManager :=
  infos.foldl (fun s info => s.setValue info.request value) s

section
variable (s)

lemma notifyFreeInstallResult_sync (recordId : ℤ) (want : Want) (resultCode : ℤ) (env : Answers) :
    s.notifyFreeInstallResult recordId want resultCode false env =
      { s with freeInstallList := s.freeInstallList.filter (!isNotified want false ·) }.setValues
        (s.freeInstallList.filter (isNotified want false)) resultCode := by
  unfold notifyFreeInstallResult setValues
  simp [handleFreeInstallResult_sync]

lemma tells_notifyFreeInstallResult (recordId : ℤ) (want : Want) (resultCode : ℤ) (env : Answers) :
    Tells { s with freeInstallList := s.freeInstallList.filter (!isNotified want true ·) }
      (s.notifyFreeInstallResult recordId want resultCode true env) :=
  tells_foldl (fun s info => tells_handleFreeInstallResult s recordId info resultCode env) _ _

lemma setValues_same (infos : List FreeInstallInfo) (value : ℤ) :
    (s.setValues infos value).freeInstallList = s.freeInstallList ∧
      (s.setValues infos value).dmsFreeInstallCbs = s.dmsFreeInstallCbs ∧
      (s.setValues infos value).told = s.told ∧
      (s.setValues infos value).calls.length = s.calls.length := by
  induction infos generalizing s with
  | nil => exact ⟨rfl, rfl, rfl, rfl⟩
  | cons info infos ih =>
    obtain ⟨hlist, hcbs, htold, hlen⟩ := ih (s.setValue info.request value)
    exact ⟨hlist, hcbs, htold, hlen.trans (length_modify ..)⟩

end

def isCallbackOf (call : ℕ) (info : FreeInstallInfo) : Bool := info.request = call

def isDoneFor (call : ℕ) : Told → Bool
  | .freeInstallDone cb _ _ => cb.request = call
  | _ => false

def callbackCount (s : FreeInstallManager) (call : ℕ) : ℕ :=
  s.dmsFreeInstallCbs.countP (isCallbackOf call) + s.told.countP (isDoneFor call)

structure OwnAnswers (s : FreeInstallManager) : Prop where
  once : ∀ call, s.told.countP (isDoneFor call) ≤ 1
  own : ∀ cb of code, .freeInstallDone cb of code ∈ s.told →
    of.bundleName = cb.want.bundleName ∧ of.abilityName = cb.want.abilityName

structure Answered (s : FreeInstallManager) : Prop where
  once : ∀ call, s.callbackCount call ≤ 1
  fresh : ∀ call, s.calls.length ≤ call → s.callbackCount call = 0
  own : ∀ cb of code, .freeInstallDone cb of code ∈ s.told →
    of.bundleName = cb.want.bundleName ∧ of.abilityName = cb.want.abilityName

lemma Answered.congr (h : Answered s) (hcbs : t.dmsFreeInstallCbs = s.dmsFreeInstallCbs)
    (htold : t.told = s.told) (hlen : t.calls.length = s.calls.length) : Answered t := by
  have hcount (call : ℕ) : t.callbackCount call = s.callbackCount call := by
    rw [callbackCount, callbackCount, hcbs, htold]
  refine ⟨fun call => hcount call ▸ h.once call, fun call hle => ?_, fun cb of code hmem => ?_⟩
  · rw [hcount]
    exact h.fresh call (hlen ▸ hle)
  · exact h.own cb of code (htold ▸ hmem)

lemma Answered.tells (h : Answered s) (ht : Tells s t) : Answered t := by
  obtain ⟨ts, hts, rfl⟩ := ht
  have hnone (call : ℕ) : ts.countP (isDoneFor call) = 0 := by
    refine countP_eq_zero.mpr fun n hn hdone => ?_
    cases n with
    | freeInstallDone cb of code => exact hts cb of code hn
    | _ => cases hdone
  have hcount (call : ℕ) : { s with told := s.told ++ ts }.callbackCount call =
      s.callbackCount call := by
    simp [callbackCount, hnone]
  refine ⟨fun call => hcount call ▸ h.once call, fun call hle => ?_, fun cb of code hmem => ?_⟩
  · rw [hcount]
    exact h.fresh call hle
  · rcases mem_append.mp hmem with hmem | hmem
    · exact h.own cb of code hmem
    · exact absurd hmem (hts cb of code)

lemma splitDmsCallbacks_perm (want : Want) (writes : FreeInstallInfo → Bool)
    (infos : List FreeInstallInfo) :
    ((splitDmsCallbacks want writes infos).1 ++ (splitDmsCallbacks want writes infos).2).Perm
      infos := by
  induction infos with
  | nil => exact .refl []
  | cons it rest ih =>
    unfold splitDmsCallbacks
    split
    · split
      · exact ih.cons it
      · exact .refl _
    · exact perm_middle.trans (ih.cons it)

lemma abilityName_of_mem_split {want : Want} {writes : FreeInstallInfo → Bool}
    {infos : List FreeInstallInfo} {it : FreeInstallInfo}
    (h : it ∈ (splitDmsCallbacks want writes infos).1) :
    want.abilityName = it.want.abilityName := by
  induction infos with
  | nil => cases h
  | cons it' rest ih =>
    unfold splitDmsCallbacks at h
    split at h
    · rename_i hname
      split at h
      · rcases mem_cons.mp h with rfl | h
        · exact hname
        · exact ih h
      · cases h
    · exact ih h

def callbacksAgree (s : FreeInstallManager) (want : Want) : Bool :=
  s.dmsFreeInstallCbs.all fun it =>
    want.abilityName ≠ it.want.abilityName || want.bundleName = it.want.bundleName

lemma callbackCount_notifyDmsCallback (s : FreeInstallManager) (want : Want) (code : ℤ)
    (env : Answers) (call : ℕ) :
    (s.notifyDmsCallback want code env).callbackCount call = s.callbackCount call := by
  have hperm := (splitDmsCallbacks_perm want env.writes s.dmsFreeInstallCbs).countP_eq
    (isCallbackOf call)
  rw [countP_append] at hperm
  unfold callbackCount notifyDmsCallback
  dsimp only
  rw [countP_append, countP_map]
  change _ + (_ + countP (isCallbackOf call) _) = _
  omega

lemma Answered.notifyDmsCallback (h : Answered s) {want : Want}
    (hagree : s.callbacksAgree want = true) (code : ℤ) (env : Answers) :
    Answered (s.notifyDmsCallback want code env) := by
  have hcount := callbackCount_notifyDmsCallback s want code env
  refine ⟨fun call => hcount call ▸ h.once call, fun call hle => ?_, fun cb of code' hmem => ?_⟩
  · rw [hcount]
    exact h.fresh call hle
  · rcases mem_append.mp hmem with hmem | hmem
    · exact h.own cb of code' hmem
    · obtain ⟨it, hit, heq⟩ := mem_map.mp hmem
      obtain ⟨rfl, rfl, rfl⟩ := Told.freeInstallDone.inj heq
      have hname := abilityName_of_mem_split hit
      have hin : it ∈ s.dmsFreeInstallCbs :=
        (splitDmsCallbacks_perm want env.writes s.dmsFreeInstallCbs).mem_iff.mp
          (mem_append_left _ hit)
      have hit' := all_eq_true.mp hagree it hin
      simpa [hname] using hit'

protected lemma Answered.enter (h : Answered s) (r : Request) : Answered (s.enter r) := by
  have hlen : (s.enter r).calls.length = s.calls.length + 1 := by
    unfold enter
    split <;> simp
  have htold : (s.enter r).told = s.told := by
    unfold enter
    split <;> rfl
  have hcount (call : ℕ) : (s.enter r).callbackCount call ≤
      s.callbackCount call + if call = s.calls.length then 1 else 0 := by
    unfold callbackCount
    unfold enter
    split
    · simp only [countP_append, countP_singleton, isCallbackOf, decide_eq_true_eq,
        eq_comm (a := s.calls.length)]
      omega
    · exact Nat.le_add_right _ _
  refine ⟨fun call => ?_, fun call hle => ?_, fun cb of code hmem => ?_⟩
  · have hcall := hcount call
    by_cases hnew : call = s.calls.length
    · have hzero := h.fresh call (Nat.le_of_eq hnew.symm)
      rw [if_pos hnew] at hcall
      omega
    · have hone := h.once call
      rw [if_neg hnew] at hcall
      omega
  · have hcall := hcount call
    have hzero := h.fresh call (by omega)
    rw [if_neg (by omega)] at hcall
    omega
  · exact h.own cb of code (htold ▸ hmem)

lemma Answered.notifyFreeInstallResult (h : Answered s) (recordId : ℤ) (want : Want)
    (code : ℤ) (isAsync : Bool) (env : Answers) :
    Answered (s.notifyFreeInstallResult recordId want code isAsync env) := by
  cases isAsync with
  | true =>
    exact (h.congr (t := { s with
      freeInstallList := s.freeInstallList.filter (!isNotified want true ·) }) rfl rfl rfl).tells
      (tells_notifyFreeInstallResult s recordId want code env)
  | false =>
    rw [notifyFreeInstallResult_sync]
    obtain ⟨-, hcbs, htold, hlen⟩ := setValues_same
      { s with freeInstallList := s.freeInstallList.filter (!isNotified want false ·) }
      (s.freeInstallList.filter (isNotified want false)) code
    exact h.congr hcbs htold hlen

protected lemma Answered.notifyInsightIntentFreeInstallResult (h : Answered s) (want : Want)
    (code : ℤ)
    (env : Answers) : Answered (s.notifyInsightIntentFreeInstallResult want code env) := by
  unfold notifyInsightIntentFreeInstallResult
  split
  · refine (h.congr (t := s.removeFreeInstallInfo want.task) rfl rfl rfl).tells ?_
    exact tells_tell _ (by simp)
  · refine (h.congr (t := { s with
      freeInstallList := s.freeInstallList.filter (want.task ≠ ·.want.task) }) rfl rfl rfl).tells ?_
    exact tells_foldl (fun s info => tells_handleInsightIntent s want env info) _ _

def answersFit (s : FreeInstallManager) : FreeInstallOp → Bool
  | .onInstallFinished _ _ want _ _ => want.isInsightIntentExecute || s.callbacksAgree want
  | .reportBack call _ => s.calls[call]?.all fun c => s.callbacksAgree c.want
  | _ => true

section
variable {call : ℕ} {P : FreeInstallManager → Prop} (hs : P s)
include hs

lemma proceed_cases {go : Call → FreeInstallManager} {stage : Stage}
    (hgo : ∀ c, s.calls[call]? = some c → c.stage = stage → P (go c)) :
    P (s.proceed call go stage) := by
  unfold proceed
  cases hc : s.calls[call]? with
  | none => exact hs
  | some c =>
    dsimp only
    split_ifs with hstage
    · exact hgo c hc hstage
    · exact hs

lemma stage_cases (hset : ∀ stage, stage ≠ .entered → P (s.setStage call stage)) (c : Call) :
    (∀ hasBundleMgr result, P (s.ask call c hasBundleMgr result)) ∧ P (s.timeOut call c) ∧
      P (s.takePromise call c) := by
  unfold ask timeOut takePromise
  refine ⟨fun hasBundleMgr result => ?_, ?_, ?_⟩
  all_goals repeat' split
  all_goals first | exact hset _ nofun | exact hs

end

lemma Answered.setStage (h : Answered s) (call : ℕ) (stage : Stage) :
    Answered (s.setStage call stage) :=
  h.congr rfl rfl (length_modify ..)

protected lemma Answered.step (h : Answered s) {o : FreeInstallOp}
    (hfit : s.answersFit o = true) : Answered (s.step o) := by
  have hstage (call : ℕ) := stage_cases h fun stage _ => h.setStage call stage
  cases o with
  | enter r => exact h.enter r
  | add call isPermitted =>
    refine proceed_cases h fun c _ _ => ?_
    unfold addFreeInstallInfo
    split
    · exact h.setStage call _
    · exact h.congr rfl rfl (length_modify ..)
  | ask call hasBundleMgr result => exact proceed_cases h fun c _ _ => (hstage call c).1 _ _
  | timeOut call => exact proceed_cases h fun c _ _ => (hstage call c).2.1
  | removeTimedOut call => exact proceed_cases h fun c _ _ => h.congr rfl rfl (length_modify ..)
  | takePromise call => exact proceed_cases h fun c _ _ => (hstage call c).2.2
  | reportBack call env =>
    unfold step
    dsimp only
    cases hc : s.calls[call]? with
    | none => exact h
    | some c =>
      have hagree := (Option.all_eq_true _ _).mp hfit c hc
      dsimp only
      split
      · unfold FreeInstallManager.reportBack
        split
        · exact (h.notifyDmsCallback hagree _ env).congr rfl rfl (length_modify ..)
        · exact h
      · exact h
  | onInstallFinished recordId resultCode want isAsync env =>
    show Answered (s.onInstallFinished recordId resultCode want isAsync env)
    unfold FreeInstallManager.onInstallFinished
    split_ifs with hintent
    · exact h.notifyInsightIntentFreeInstallResult want resultCode env
    · have hagree : s.callbacksAgree want = true := by simpa [answersFit, hintent] using hfit
      exact (h.notifyDmsCallback hagree resultCode env).notifyFreeInstallResult ..
  | onRemoteInstallFinished recordId resultCode want env =>
    exact h.notifyFreeInstallResult recordId want resultCode false env
  | setSCBCallStatus task status => exact h.congr rfl rfl rfl
  | setPreStartMissionCallStatus task status => exact h.congr rfl rfl rfl
  | setFreeInstallTaskSessionId task sessionId => exact h.congr rfl rfl rfl

def run (ops : List FreeInstallOp) : FreeInstallManager := ops.foldl step init

theorem run_ownAnswers (ops : List FreeInstallOp)
    (h : Runs.Guarded step (fun s o => s.answersFit o = true) init ops) : OwnAnswers (run ops) := by
  have hanswered : Answered (run ops) :=
    h.invariant (fun _ _ hs hfit => hs.step hfit)
      ⟨fun _ => Nat.zero_le 1, fun _ _ => rfl, by simp [init]⟩
  exact ⟨fun call => Nat.le_trans (Nat.le_add_left ..) (hanswered.once call), hanswered.own⟩

def installWant (bundleName abilityName startTime : String) : Want :=
  { bundleName := bundleName, abilityName := abilityName, startTime := startTime }

def twoDevices : List FreeInstallOp :=
  [.enter { kind := .freeInstallAbilityFromRemote, want := installWant "a" "Main" "1" },
    .enter { kind := .freeInstallAbilityFromRemote, want := installWant "b" "Other" "2" },
    .add 0 true, .ask 0 true 0, .add 1 false, .reportBack 1 {},
    .onInstallFinished (-1) 0 (installWant "a" "Main" "1") false {}, .takePromise 0]

theorem twoDevices_ownAnswers : ((run twoDevices).told.map (isDoneFor 0) = [false, true] ∧
      (run twoDevices).told.map (isDoneFor 1) = [true, false]) ∧ OwnAnswers (run twoDevices) :=
  ⟨by decide +kernel, run_ownAnswers twoDevices (by decide +kernel)⟩

def sameAbilityName : List FreeInstallOp :=
  [.enter { kind := .freeInstallAbilityFromRemote, want := installWant "a" "Main" "1" },
    .enter { kind := .freeInstallAbilityFromRemote, want := installWant "b" "Main" "2" },
    .add 0 true, .ask 0 true 0, .add 1 true, .ask 1 true 0,
    .onInstallFinished (-1) 0 (installWant "a" "Main" "1") false {}]

theorem sameAbilityName_wrong_answer :
    .freeInstallDone { request := 1, want := installWant "b" "Main" "2" }
      (installWant "a" "Main" "1") 0 ∈ (run sameAbilityName).told ∧
    ¬ OwnAnswers (run sameAbilityName) := by
  have hmem : .freeInstallDone { request := 1, want := installWant "b" "Main" "2" }
      (installWant "a" "Main" "1") 0 ∈ (run sameAbilityName).told := by decide +kernel
  refine ⟨hmem, fun h => ?_⟩
  have hbundle := (h.own _ _ _ hmem).1
  exact absurd hbundle (by decide)

end FreeInstallManager
end AbilityRuntime.FreeInstall
