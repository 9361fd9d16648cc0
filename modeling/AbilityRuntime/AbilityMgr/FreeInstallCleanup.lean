import AbilityRuntime.AbilityMgr.FreeInstallResults

/-! What is left of a request in the list of installs. -/

open Option

namespace AbilityRuntime.FreeInstall
open List

def FreeInstallManager.FreeInstallOp.notification : FreeInstallManager.FreeInstallOp → Option Want
  | .onInstallFinished _ _ want _ _ => some want
  | .onRemoteInstallFinished _ _ want _ => some want
  | _ => none

namespace FreeInstallManager

variable {s t : FreeInstallManager}

def hasEntry (s : FreeInstallManager) (call : ℕ) : Bool :=
  s.freeInstallList.any fun info => info.request = call

structure Tracked (s : FreeInstallManager) : Prop where
  entry : ∀ info ∈ s.freeInstallList, ∃ c, s.calls[info.request]? = some c ∧
    info.want.task = c.want.task ∧ c.promised = [] ∧ c.stage ≠ .entered
  nodup : (s.freeInstallList.map (·.request)).Nodup
  entered : ∀ c ∈ s.calls, c.stage = .entered → c.promised = []
  once : ∀ c ∈ s.calls, c.promised.length ≤ 1

lemma tracked_init : Tracked init := by
  constructor <;> simp [init]

def Cleaned (s : FreeInstallManager) : Prop :=
  ∀ call c code, s.calls[call]? = some c → c.stage = .returned code →
    ¬ (c.kind.isAsync = true ∧ code = 0) → s.hasEntry call = false

variable {call : ℕ}

lemma hasEntry_eq_false :
    s.hasEntry call = false ↔ ∀ info ∈ s.freeInstallList, info.request ≠ call := by
  simp [hasEntry]

structure Takes (want : Want) (p : FreeInstallInfo → Bool) (s t : FreeInstallManager) : Prop where
  task : ∀ info, p info = true → info.want.task = want.task
  list : t.freeInstallList = s.freeInstallList.filter (!p ·)
  length : t.calls.length = s.calls.length
  calls : ∀ call c c', s.calls[call]? = some c → t.calls[call]? = some c' → c' = c ∨
    (∃ value, c' = { c with promised := c.promised ++ [value] }) ∧
      ∃ info ∈ s.freeInstallList, p info = true ∧ info.request = call

variable {want : Want} {p : FreeInstallInfo → Bool}

lemma Takes.of_calls (htask : ∀ info, p info = true → info.want.task = want.task)
    (hlist : t.freeInstallList = s.freeInstallList.filter (!p ·)) (hcalls : t.calls = s.calls) :
    Takes want p s t := by
  refine ⟨htask, hlist, congrArg List.length hcalls, fun call c c' hc hc' => .inl ?_⟩
  rw [hcalls] at hc'
  exact (some.inj (hc.symm.trans hc')).symm

lemma getElem?_setValues {infos : List FreeInstallInfo} (h : (infos.map (·.request)).Nodup)
    (s : FreeInstallManager) (value : ℤ) (call : ℕ) :
    (s.setValues infos value).calls[call]? = s.calls[call]?.map fun c =>
      if call ∈ infos.map (·.request) then { c with promised := c.promised ++ [value] } else c := by
  induction infos generalizing s with
  | nil => simp [setValues]
  | cons info infos ih =>
    obtain ⟨hnot, hrest⟩ := nodup_cons.mp h
    have hfold : s.setValues (info :: infos) value =
        (s.setValue info.request value).setValues infos value := rfl
    rw [hfold, ih hrest]
    simp only [setValue, getElem?_modify]
    cases s.calls[call]? with
    | none => rfl
    | some c =>
      by_cases heq : call = info.request
      · subst heq
        simp [hnot]
      · simp [heq, Ne.symm heq]

variable {info : FreeInstallInfo}

lemma task_of_isNotified {isAsync : Bool} (h : isNotified want isAsync info = true) :
    info.want.task = want.task := by
  simp only [isNotified, Bool.and_eq_true, decide_eq_true_eq] at h
  exact h.1.1.symm

lemma Tracked.takes_notifyFreeInstallResult (h : Tracked s) (recordId : ℤ) (want : Want)
    (code : ℤ) (isAsync : Bool) (env : Answers) : Takes want (isNotified want isAsync) s
      (s.notifyFreeInstallResult recordId want code isAsync env) := by
  cases isAsync with
  | true =>
    obtain ⟨ts, -, heq⟩ := tells_notifyFreeInstallResult s recordId want code env
    rw [heq]
    exact .of_calls (fun _ => task_of_isNotified) rfl rfl
  | false =>
    rw [notifyFreeInstallResult_sync]
    have hnodup : ((s.freeInstallList.filter (isNotified want false)).map (·.request)).Nodup :=
      h.nodup.sublist (filter_sublist.map _)
    obtain ⟨hlist, -, -, hlen⟩ := setValues_same
      { s with freeInstallList := s.freeInstallList.filter (!isNotified want false ·) }
      (s.freeInstallList.filter (isNotified want false)) code
    refine ⟨fun _ => task_of_isNotified, hlist, hlen, fun call c c' hc hc' => ?_⟩
    rw [getElem?_setValues hnodup, hc] at hc'
    cases hc'
    split_ifs with hmem
    · obtain ⟨info, hinfo, hcall⟩ := mem_map.mp hmem
      obtain ⟨hin, hp⟩ := mem_filter.mp hinfo
      exact .inr ⟨⟨code, rfl⟩, info, hin, hp, hcall⟩
    · exact .inl rfl

variable (s want) in
lemma takes_notifyInsightIntentFreeInstallResult
    (code : ℤ) (env : Answers) : Takes want (fun info => want.task = info.want.task) s
      (s.notifyInsightIntentFreeInstallResult want code env) := by
  have htask (info : FreeInstallInfo) (h : decide (want.task = info.want.task) = true) :
      info.want.task = want.task := (of_decide_eq_true h).symm
  unfold notifyInsightIntentFreeInstallResult
  split
  · refine .of_calls htask ?_ rfl
    show s.freeInstallList.filter _ = s.freeInstallList.filter _
    congr 1
    funext info
    simp [eq_comm]
  · obtain ⟨ts, -, heq⟩ := tells_foldl (fun s info => tells_handleInsightIntent s want env info)
      (s.freeInstallList.filter (want.task = ·.want.task))
      { s with freeInstallList := s.freeInstallList.filter (want.task ≠ ·.want.task) }
    rw [heq]
    refine .of_calls htask ?_ rfl
    show s.freeInstallList.filter _ = s.freeInstallList.filter _
    congr 1
    funext info
    simp

variable {o : FreeInstallOp}

lemma Tracked.takes (h : Tracked s) (ho : o.notification = some want) :
    ∃ p, Takes want p s (s.step o) := by
  cases o with
  | onInstallFinished recordId code want' isAsync env =>
    obtain rfl := some.inj ho
    show ∃ p, Takes _ p s (s.onInstallFinished recordId code want' isAsync env)
    unfold onInstallFinished
    split
    · exact ⟨_, takes_notifyInsightIntentFreeInstallResult s want' code env⟩
    · have hdms : Tracked (s.notifyDmsCallback want' code env) := { h with }
      obtain ⟨htask, hlist, hlen, hcalls⟩ :=
        hdms.takes_notifyFreeInstallResult recordId want' code isAsync env
      exact ⟨_, htask, hlist, hlen, hcalls⟩
  | onRemoteInstallFinished recordId code want' env =>
    obtain rfl := some.inj ho
    exact ⟨_, h.takes_notifyFreeInstallResult recordId want' code false env⟩
  | _ => cases ho

variable {c : Call}

lemma Tracked.promised_eq_nil (h : Tracked s) (hentry : s.hasEntry call = true)
    (hc : s.calls[call]? = some c) : c.promised = [] := by
  obtain ⟨info, hinfo, hcall⟩ := any_eq_true.mp hentry
  obtain ⟨c', hc', -, hnil, -⟩ := h.entry info hinfo
  rw [of_decide_eq_true hcall] at hc'
  cases hc.symm.trans hc'
  exact hnil

lemma Tracked.hasEntry_of_entered (h : Tracked s) (hc : s.calls[call]? = some c)
    (hstage : c.stage = .entered) : s.hasEntry call = false := by
  refine hasEntry_eq_false.mpr fun info hinfo heq => ?_
  obtain ⟨c', hc', -, -, hne⟩ := h.entry info hinfo
  rw [heq] at hc'
  cases hc.symm.trans hc'
  exact hne hstage

lemma Tracked.taken (h : Tracked s) (ht : Takes want p s t) (hinfo : info ∈ s.freeInstallList)
    (hp : p info = true) :
    s.hasEntry info.request = true ∧ t.hasEntry info.request = false := by
  refine ⟨any_eq_true.mpr ⟨info, hinfo, by simp⟩, ?_⟩
  refine hasEntry_eq_false.mpr fun info' hinfo' heq => ?_
  rw [ht.list] at hinfo'
  obtain ⟨hin, hp'⟩ := mem_filter.mp hinfo'
  rw [inj_on_of_nodup_map h.nodup hin hinfo heq, hp] at hp'
  cases hp'

structure Fewer (s t : FreeInstallManager) : Prop where
  list : (t.freeInstallList.map fun info => (info.request, info.want.task)).Sublist
    (s.freeInstallList.map fun info => (info.request, info.want.task))
  length : t.calls.length = s.calls.length
  before : ∀ k c', t.calls[k]? = some c' → ∃ c, s.calls[k]? = some c ∧
    c'.toRequest = c.toRequest ∧ c'.stage = c.stage ∧ (c'.promised = c.promised ∨
      (∃ value, c'.promised = c.promised ++ [value]) ∧
        s.hasEntry k = true ∧ t.hasEntry k = false)

lemma Fewer.of_calls (hlist : (t.freeInstallList.map fun i => (i.request, i.want.task)).Sublist
      (s.freeInstallList.map fun i => (i.request, i.want.task))) (hcalls : t.calls = s.calls) :
    Fewer s t :=
  ⟨hlist, congrArg _ hcalls, fun _ c' hc' => ⟨c', hcalls ▸ hc', rfl, rfl, .inl rfl⟩⟩

lemma Tracked.fewer_of_takes (h : Tracked s) (ht : Takes want p s t) : Fewer s t where
  list := by
    rw [ht.list]
    exact filter_sublist.map _
  length := ht.length
  before k c' hc' := by
    obtain ⟨c, hc⟩ : ∃ c, s.calls[k]? = some c :=
      ⟨_, getElem?_eq_getElem (ht.length ▸ (List.getElem?_eq_some_iff.mp hc').1)⟩
    refine ⟨c, hc, ?_⟩
    rcases ht.calls k c c' hc hc' with rfl | ⟨⟨value, rfl⟩, info, hinfo, hp, rfl⟩
    · exact ⟨rfl, rfl, .inl rfl⟩
    · exact ⟨rfl, rfl, .inr ⟨⟨value, rfl⟩, h.taken ht hinfo hp⟩⟩

lemma Fewer.entry (h : Fewer s t) (hinfo : info ∈ t.freeInstallList) :
    ∃ info' ∈ s.freeInstallList, info'.request = info.request ∧
      info'.want.task = info.want.task := by
  obtain ⟨info', hin, heq⟩ := mem_map.mp (h.list.subset (mem_map_of_mem hinfo))
  exact ⟨info', hin, Prod.mk.inj heq⟩

lemma Tracked.of_fewer (h : Tracked s) (ht : Fewer s t) : Tracked t where
  entry info hinfo := by
    obtain ⟨info', hin, hcall, htask⟩ := ht.entry hinfo
    obtain ⟨c, hc, hsame, hnil, hstage⟩ := h.entry info' hin
    rw [hcall] at hc
    have hc' := getElem?_eq_getElem (ht.length ▸ (List.getElem?_eq_some_iff.mp hc).1)
    obtain ⟨c₀, hc₀, hreq, hstage', hpromised⟩ := ht.before _ _ hc'
    cases hc.symm.trans hc₀
    refine ⟨_, hc', ?_, ?_, hstage' ▸ hstage⟩
    · exact htask.symm.trans (hsame.trans (congrArg (Want.task ∘ Request.want) hreq).symm)
    · rcases hpromised with heq | ⟨-, -, hnone⟩
      · exact heq.trans hnil
      · exact absurd rfl (hasEntry_eq_false.mp hnone info hinfo)
  nodup := by
    have hsub := ht.list.map Prod.fst
    rw [List.map_map, List.map_map] at hsub
    exact h.nodup.sublist hsub
  entered c' hc' hstage := by
    obtain ⟨k, hk⟩ := mem_iff_getElem?.mp hc'
    obtain ⟨c, hc, -, hsame, hpromised⟩ := ht.before k c' hk
    rcases hpromised with heq | ⟨-, hentry, -⟩
    · exact heq.trans (h.entered c (mem_of_getElem? hc) (hsame.symm.trans hstage))
    · rw [h.hasEntry_of_entered hc (hsame.symm.trans hstage)] at hentry
      cases hentry
  once c' hc' := by
    obtain ⟨k, hk⟩ := mem_iff_getElem?.mp hc'
    obtain ⟨c, hc, -, -, hpromised⟩ := ht.before k c' hk
    rcases hpromised with heq | ⟨⟨value, heq⟩, hentry, -⟩
    · exact heq ▸ h.once c (mem_of_getElem? hc)
    · rw [heq, h.promised_eq_nil hentry hc]
      exact Nat.le_refl 1

lemma Cleaned.of_fewer (h : Cleaned s) (ht : Fewer s t) : Cleaned t := by
  intro call c' code hc' hstage hnot
  obtain ⟨c, hc, hreq, hsame, -⟩ := ht.before call c' hc'
  have hkind : c'.kind = c.kind := congrArg Request.kind hreq
  have hnone := hasEntry_eq_false.mp (h call c code hc (hsame.symm.trans hstage) (hkind ▸ hnot))
  refine hasEntry_eq_false.mpr fun info hinfo => ?_
  obtain ⟨info', hin, hcall, -⟩ := ht.entry hinfo
  exact hcall ▸ hnone info' hin

variable (s call) in
lemma getElem?_setStage (stage : Stage) (k : ℕ) : (s.setStage call stage).calls[k]? =
      s.calls[k]?.map fun c => if call = k then { c with stage := stage } else c := by
  simp only [setStage, getElem?_modify]
  rfl

lemma Tracked.setStage (h : Tracked s) (call : ℕ) {stage : Stage} (hne : stage ≠ .entered) :
    Tracked (s.setStage call stage) where
  entry info hinfo := by
    obtain ⟨c, hc, htask, hnil, hstage⟩ := h.entry info hinfo
    refine ⟨_, (getElem?_setStage s call stage _).trans (congrArg _ hc), ?_⟩
    split
    · exact ⟨htask, hnil, hne⟩
    · exact ⟨htask, hnil, hstage⟩
  __ := h
  entered c hc hstage := by
    rcases Ledger.mem_modify hc with hc | ⟨c', -, rfl⟩
    · exact h.entered c hc hstage
    · exact absurd hstage hne
  once c hc := by
    rcases Ledger.mem_modify hc with hc | ⟨c', hc', rfl⟩
    · exact h.once c hc
    · exact h.once c' hc'

lemma Cleaned.setStage (h : Cleaned s) (hc : s.calls[call]? = some c) {stage : Stage}
    (hback : ∀ code, stage = .returned code → ¬ (c.kind.isAsync = true ∧ code = 0) →
      s.hasEntry call = false) :
    Cleaned (s.setStage call stage) := by
  intro k c' code hc' hstage hnot
  rw [getElem?_setStage] at hc'
  obtain ⟨c₀, hc₀, rfl⟩ := map_eq_some_iff.mp hc'
  by_cases hk : call = k
  · subst hk
    cases hc.symm.trans hc₀
    rw [if_pos rfl] at hstage hnot
    exact hback code hstage hnot
  · rw [if_neg hk] at hstage hnot
    exact h k c₀ code hc₀ hstage hnot

lemma Tracked.add (h : Tracked s) (hc : s.calls[call]? = some c) (hstage : c.stage = .entered) :
    Tracked ({ s with
      freeInstallList := s.freeInstallList ++ [buildFreeInstallInfo call c] }.setStage call
        .added) := by
  have hadded : Tracked (s.setStage call .added) := h.setStage call nofun
  refine ⟨fun info hinfo => ?_, ?_, hadded.entered, hadded.once⟩
  · rcases mem_append.mp hinfo with hinfo | hinfo
    · exact hadded.entry info hinfo
    · obtain rfl := mem_singleton.mp hinfo
      refine ⟨{ c with stage := .added }, ?_, rfl, ?_, nofun⟩
      · rw [getElem?_setStage]
        simp [buildFreeInstallInfo, hc]
      · exact h.entered c (mem_of_getElem? hc) hstage
  · have hnone := hasEntry_eq_false.mp (h.hasEntry_of_entered hc hstage)
    show ((s.freeInstallList ++ [buildFreeInstallInfo call c]).map (·.request)).Nodup
    rw [map_append, nodup_append]
    refine ⟨h.nodup, nodup_singleton _, fun a ha b hb => ?_⟩
    obtain ⟨info, hinfo, rfl⟩ := mem_map.mp ha
    obtain rfl : b = call := mem_singleton.mp hb
    exact hnone info hinfo

lemma Cleaned.add (h : Cleaned s) (hc : s.calls[call]? = some c) : Cleaned ({ s with
      freeInstallList := s.freeInstallList ++ [buildFreeInstallInfo call c] }.setStage call
        .added) := by
  intro k c' code hc' hback hnot
  have hk : call ≠ k := by
    rintro rfl
    rw [getElem?_setStage, hc] at hc'
    cases hc'
    simp at hback
  have hnone : s.hasEntry k = false := by
    rw [getElem?_setStage] at hc'
    obtain ⟨c₀, hc₀, rfl⟩ := map_eq_some_iff.mp hc'
    rw [if_neg hk] at hback hnot
    exact h k c₀ code hc₀ hback hnot
  rw [hasEntry_eq_false] at hnone ⊢
  intro info hinfo
  rcases mem_append.mp hinfo with hinfo | hinfo
  · exact hnone info hinfo
  · obtain rfl := mem_singleton.mp hinfo
    exact hk

variable (s) in
lemma fewer_removeFreeInstallInfo (task : TaskKey) : Fewer s (s.removeFreeInstallInfo task) :=
  .of_calls (filter_sublist.map _) rfl

lemma Tracked.hasEntry_removeFreeInstallInfo (h : Tracked s) (hc : s.calls[call]? = some c) :
    (s.removeFreeInstallInfo c.want.task).hasEntry call = false := by
  refine hasEntry_eq_false.mpr fun info hinfo heq => ?_
  obtain ⟨hin, hne⟩ := mem_filter.mp hinfo
  obtain ⟨c', hc', htask, -, -⟩ := h.entry info hin
  rw [heq] at hc'
  cases hc.symm.trans hc'
  exact of_decide_eq_true hne htask

section
variable (s)

lemma freeInstallList_enter (r : Request) : (s.enter r).freeInstallList = s.freeInstallList := by
  unfold FreeInstallManager.enter
  split <;> rfl

lemma calls_enter (r : Request) : (s.enter r).calls = s.calls ++ [{ toRequest := r }] := by
  unfold FreeInstallManager.enter
  split <;> rfl

end

lemma Tracked.enter (h : Tracked s) (r : Request) : Tracked (s.enter r) := by
  have hlist := freeInstallList_enter s r
  have hcalls := calls_enter s r
  refine ⟨fun info hinfo => ?_, hlist ▸ h.nodup, fun c hc hstage => ?_, fun c hc => ?_⟩
  · obtain ⟨c, hc, hrest⟩ := h.entry info (hlist ▸ hinfo)
    have hlt := (List.getElem?_eq_some_iff.mp hc).1
    exact ⟨c, hcalls ▸ (getElem?_append_left hlt).trans hc, hrest⟩
  · rcases mem_append.mp (hcalls ▸ hc) with hc | hc
    · exact h.entered c hc hstage
    · rw [mem_singleton.mp hc]
  · rcases mem_append.mp (hcalls ▸ hc) with hc | hc
    · exact h.once c hc
    · rw [mem_singleton.mp hc]
      exact Nat.zero_le 1

lemma Cleaned.enter (h : Cleaned s) (r : Request) : Cleaned (s.enter r) := by
  intro call c code hc hstage hnot
  rw [hasEntry, freeInstallList_enter]
  rw [calls_enter] at hc
  rcases Nat.lt_or_ge call s.calls.length with hlt | hge
  · rw [getElem?_append_left hlt] at hc
    exact h call c code hc hstage hnot
  · rw [getElem?_append_right hge] at hc
    have hnew := mem_singleton.mp (mem_of_getElem? hc)
    rw [hnew] at hstage
    cases hstage

variable {f : FreeInstallInfo → FreeInstallInfo}

lemma fewer_modifyTask (s : FreeInstallManager) (task : TaskKey)
    (hf : ∀ info, ((f info).request, (f info).want.task) = (info.request, info.want.task)) :
    Fewer s (s.modifyTask task f) := by
  have hlist : (s.modifyTask task f).freeInstallList.map (fun i => (i.request, i.want.task)) =
      s.freeInstallList.map fun i => (i.request, i.want.task) := by
    refine ext_getElem? fun i => ?_
    simp only [modifyTask, getElem?_map, getElem?_modify]
    cases s.freeInstallList[i]? with
    | none => rfl
    | some info =>
      simp only [Option.map_eq_map, map_some]
      split
      · rw [hf]
      · rfl
  exact .of_calls (hlist ▸ .refl _) rfl

section
variable (s call c)

lemma getElem?_reportBack (code : ℤ)
    (env : Answers) (k : ℕ) : ∃ f : Call → Call, (∀ c, (f c).toRequest = c.toRequest ∧
      (f c).stage = c.stage ∧ (f c).promised = c.promised) ∧
      (s.reportBack call c code env).calls[k]? = s.calls[k]?.map f := by
  unfold reportBack
  split
  · refine ⟨fun c => if call = k then { c with reported := true } else c, fun c => ?_, ?_⟩
    · split <;> exact ⟨rfl, rfl, rfl⟩
    · simp only [getElem?_modify]
      rfl
  · exact ⟨fun c => c, fun c => ⟨rfl, rfl, rfl⟩, by simp⟩

lemma fewer_reportBack (code : ℤ) (env : Answers) : Fewer s (s.reportBack call c code env) where
  list := by
    unfold reportBack
    split <;> exact .refl _
  length := by
    unfold reportBack
    split <;> simp
  before k c' hc' := by
    obtain ⟨f, hf, heq⟩ := getElem?_reportBack s call c code env k
    rw [heq] at hc'
    obtain ⟨c₀, hc₀, rfl⟩ := map_eq_some_iff.mp hc'
    exact ⟨c₀, hc₀, (hf c₀).1, (hf c₀).2.1, .inl (hf c₀).2.2⟩

end

def FreeInstallOp.bringsIn : FreeInstallOp → Bool
  | .enter _ | .add .. | .ask .. | .timeOut _ | .removeTimedOut _ | .takePromise _ => true
  | _ => false

lemma Tracked.fewer_step (h : Tracked s) (ho : o.bringsIn = false) : Fewer s (s.step o) := by
  cases hn : o.notification with
  | some want =>
    obtain ⟨p, htakes⟩ := h.takes hn
    exact h.fewer_of_takes htakes
  | none =>
    cases o with
    | reportBack call env =>
      unfold step
      dsimp only
      split
      · exact .of_calls (.refl _) rfl
      · split
        · exact fewer_reportBack ..
        · exact .of_calls (.refl _) rfl
    | setSCBCallStatus | setPreStartMissionCallStatus | setFreeInstallTaskSessionId =>
      exact fewer_modifyTask s _ fun _ => rfl
    | onInstallFinished | onRemoteInstallFinished => cases hn
    | _ => cases ho

def leavesNothing (s : FreeInstallManager) : FreeInstallOp → Bool
  | .ask call hasBundleMgr result => s.calls[call]?.all fun c =>
    result = 0 && (hasBundleMgr || c.kind = .remoteFreeInstall) || !s.hasEntry call
  | .timeOut call => s.calls[call]?.all fun c =>
    c.kind ≠ .remoteFreeInstall || c.promised ≠ [] || !s.hasEntry call
  | _ => true

lemma Tracked.step (h : Tracked s) (o : FreeInstallOp) : Tracked (s.step o) := by
  have hstage (call : ℕ) := stage_cases h fun _ hne => h.setStage call hne
  cases o with
  | enter r => exact h.enter r
  | add call isPermitted =>
    refine proceed_cases h fun c hc hstage => ?_
    unfold addFreeInstallInfo
    split
    · exact h.setStage call nofun
    · exact h.add hc hstage
  | ask call hasBundleMgr result => exact proceed_cases h fun c _ _ => (hstage call c).1 _ _
  | timeOut call => exact proceed_cases h fun c _ _ => (hstage call c).2.1
  | removeTimedOut call =>
    refine proceed_cases h fun c _ _ => ?_
    exact (h.of_fewer (fewer_removeFreeInstallInfo s c.want.task)).setStage call nofun
  | takePromise call => exact proceed_cases h fun c _ _ => (hstage call c).2.2
  | _ => exact h.of_fewer (h.fewer_step rfl)

protected lemma Cleaned.ask (h : Cleaned s) (hc : s.calls[call]? = some c) {hasBundleMgr : Bool}
    {result : ℤ} (hfit : s.leavesNothing (.ask call hasBundleMgr result) = true) :
    Cleaned (s.ask call c hasBundleMgr result) := by
  have hcall := (all_eq_true _ _).mp hfit c hc
  simp only [Bool.or_eq_true, Bool.and_eq_true, decide_eq_true_eq, Bool.not_eq_true'] at hcall
  have hwait : Cleaned (s.setStage call .waiting) := h.setStage hc fun _ heq => by cases heq
  have hdone : Cleaned (if c.kind.isAsync then s.setStage call (.returned 0)
      else s.setStage call .waiting) := by
    split_ifs with hasync
    · exact h.setStage hc fun code heq hnot => absurd ⟨hasync, (Stage.returned.inj heq).symm⟩ hnot
    · exact hwait
  -- whoever comes back here with a code is refused
  have hback (code : ℤ) (hnone : s.hasEntry call = false) :
      Cleaned (s.setStage call (.returned code)) := h.setStage hc fun _ _ _ => hnone
  unfold ask
  rcases hcall with ⟨rfl, hmgr⟩ | hnone
  · split
    · exact hwait
    · rename_i hkind
      have hmgr' : hasBundleMgr = true := by simpa [hkind] using hmgr
      rw [if_neg (by simp [hmgr'])]
      exact hdone
    · rename_i hkind
      have hmgr' : hasBundleMgr = true := by simpa [hkind] using hmgr
      rw [if_neg (by simp [hmgr'])]
      exact hdone
  · repeat' split
    all_goals first | exact hback _ hnone | exact hwait

protected lemma Cleaned.timeOut (h : Cleaned s) (hc : s.calls[call]? = some c)
    (hfit : s.leavesNothing (.timeOut call) = true) : Cleaned (s.timeOut call c) := by
  have hcall := (all_eq_true _ _).mp hfit c hc
  unfold timeOut
  split
  · rename_i hnil
    split_ifs with hkind
    · have hnone : s.hasEntry call = false := by simpa [hnil, hkind] using hcall
      exact h.setStage hc fun _ _ _ => hnone
    · exact h.setStage hc fun _ heq => by cases heq
  · exact h

lemma Cleaned.step (h : Cleaned s) (ht : Tracked s) (hfit : s.leavesNothing o = true) :
    Cleaned (s.step o) := by
  cases o with
  | enter r => exact h.enter r
  | add call isPermitted =>
    refine proceed_cases h fun c hc hstage => ?_
    unfold addFreeInstallInfo
    split
    · exact h.setStage hc fun _ _ _ => ht.hasEntry_of_entered hc hstage
    · exact h.add hc
  | ask call hasBundleMgr result => exact proceed_cases h fun c hc _ => h.ask hc hfit
  | timeOut call => exact proceed_cases h fun c hc _ => h.timeOut hc hfit
  | removeTimedOut call =>
    refine proceed_cases h fun c hc _ => ?_
    refine (h.of_fewer (fewer_removeFreeInstallInfo s c.want.task)).setStage hc fun _ _ _ => ?_
    exact ht.hasEntry_removeFreeInstallInfo hc
  | takePromise call =>
    refine proceed_cases h fun c hc _ => ?_
    unfold FreeInstallManager.takePromise
    split
    · exact h
    · rename_i hpromised
      -- the entry was taken out when the promise was set
      refine h.setStage hc fun _ _ _ => eq_false_of_ne_true fun hentry => ?_
      rw [ht.promised_eq_nil hentry hc] at hpromised
      cases hpromised
  | _ => exact h.of_fewer (ht.fewer_step rfl)

lemma promised_step_of_not_notification (ho : o.notification = none) {c' : Call}
    (hc : s.calls[call]? = some c) (hc' : (s.step o).calls[call]? = some c') :
    c'.promised = c.promised := by
  let P (t : FreeInstallManager) : Prop := t.calls[call]? = some c' → c'.promised = c.promised
  have hsame : P s := fun h => congrArg Call.promised (some.inj (h.symm.trans hc))
  have hset {t : FreeInstallManager} (htc : t.calls = s.calls) (k : ℕ) (stage : Stage) :
      P (t.setStage k stage) := by
    intro h
    rw [getElem?_setStage, htc, hc] at h
    cases h
    split <;> rfl
  have hstage (k : ℕ) := stage_cases hsame fun stage _ => hset rfl k stage
  suffices h : P (s.step o) from h hc'
  cases o with
  | enter r =>
    intro h
    refine hsame ?_
    rw [← getElem?_append_left (List.getElem?_eq_some_iff.mp hc).1, ← calls_enter s r]
    exact h
  | add k isPermitted =>
    refine proceed_cases hsame fun c₀ _ _ => ?_
    unfold addFreeInstallInfo
    split
    · exact hset rfl k _
    · exact hset rfl k _
  | ask k hasBundleMgr result => exact proceed_cases hsame fun c₀ _ _ => (hstage k c₀).1 _ _
  | timeOut k => exact proceed_cases hsame fun c₀ _ _ => (hstage k c₀).2.1
  | removeTimedOut k => exact proceed_cases hsame fun c₀ _ _ => hset rfl k _
  | takePromise k => exact proceed_cases hsame fun c₀ _ _ => (hstage k c₀).2.2
  | reportBack k env =>
    unfold FreeInstallManager.step
    dsimp only
    split
    · exact hsame
    · split
      · intro h
        obtain ⟨f, hf, heq⟩ := getElem?_reportBack s k _ _ env call
        rw [heq, hc] at h
        cases h
        exact (hf c).2.2
      · exact hsame
  | onInstallFinished => cases ho
  | onRemoteInstallFinished => cases ho
  | setSCBCallStatus task status => exact hsame
  | setPreStartMissionCallStatus task status => exact hsame
  | setFreeInstallTaskSessionId task sessionId => exact hsame

structure CleanedUp (s : FreeInstallManager) : Prop where
  returned : Cleaned s
  once : ∀ c ∈ s.calls, c.promised.length ≤ 1
  setBy : ∀ o call c c', s.calls[call]? = some c → (s.step o).calls[call]? = some c' →
    c'.promised ≠ c.promised → ∃ want, o.notification = some want ∧ want.task = c.want.task ∧
      s.hasEntry call = true ∧ (s.step o).hasEntry call = false
  keeps : ∀ o want, o.notification = some want → ∀ info ∈ s.freeInstallList,
    info.want.task ≠ want.task → info ∈ (s.step o).freeInstallList

lemma Tracked.setBy (h : Tracked s) {c' : Call} (hc : s.calls[call]? = some c)
    (hc' : (s.step o).calls[call]? = some c') (hne : c'.promised ≠ c.promised) :
    ∃ want, o.notification = some want ∧
      want.task = c.want.task ∧ s.hasEntry call = true ∧ (s.step o).hasEntry call = false := by
  cases ho : o.notification with
  | none => exact absurd (promised_step_of_not_notification ho hc hc') hne
  | some want =>
    obtain ⟨p, htakes⟩ := h.takes ho
    rcases htakes.calls call c c' hc hc' with rfl | ⟨-, info, hinfo, hp, hcall⟩
    · exact absurd rfl hne
    · obtain ⟨c₀, hc₀, htask, -, -⟩ := h.entry info hinfo
      subst hcall
      cases hc.symm.trans hc₀
      exact ⟨want, rfl, (htakes.task info hp).symm.trans htask, h.taken htakes hinfo hp⟩

lemma Tracked.keeps (h : Tracked s) (ho : o.notification = some want)
    (hinfo : info ∈ s.freeInstallList) (hne : info.want.task ≠ want.task) :
    info ∈ (s.step o).freeInstallList := by
  obtain ⟨p, htakes⟩ := h.takes ho
  rw [htakes.list]
  refine mem_filter.mpr ⟨hinfo, ?_⟩
  cases hp : p info with
  | true => exact absurd (htakes.task info hp) hne
  | false => rfl

theorem run_cleanedUp (ops : List FreeInstallOp)
    (h : Runs.Guarded step (fun s o => s.leavesNothing o = true) init ops) :
    CleanedUp (run ops) := by
  have hboth : Tracked (run ops) ∧ Cleaned (run ops) := by
    refine h.invariant (I := fun s => Tracked s ∧ Cleaned s) (fun s o hs hfit => ?_)
      ⟨tracked_init, fun call c code hc => ?_⟩
    · exact ⟨hs.1.step o, hs.2.step hs.1 hfit⟩
    · simp [init] at hc
  obtain ⟨htracked, hcleaned⟩ := hboth
  exact ⟨hcleaned, htracked.once, fun _ _ _ _ hc hc' hne => htracked.setBy hc hc' hne,
    fun _ _ ho _ hinfo hne => htracked.keeps ho hinfo hne⟩

theorem run_tracked (ops : List FreeInstallOp) : Tracked (run ops) ∧
    ∀ o call c c', (run ops).calls[call]? = some c →
      ((run ops).step o).calls[call]? = some c' → c'.promised ≠ c.promised →
      ∃ want, o.notification = some want ∧ want.task = c.want.task ∧
        (run ops).hasEntry call = true ∧ ((run ops).step o).hasEntry call = false := by
  have h : Tracked (run ops) := List.foldlRecOn ops step tracked_init fun _ hs o _ => hs.step o
  exact ⟨h, fun _ _ _ _ hc hc' hne => h.setBy hc hc' hne⟩

def fourInstalls : List FreeInstallOp :=
  [.enter { kind := .startFreeInstall false, want := installWant "a" "Main" "1" },
    .enter { kind := .startFreeInstall true, want := installWant "a" "Main" "2" },
    .enter { kind := .startFreeInstall false, want := installWant "b" "Main" "3" },
    .enter { kind := .remoteFreeInstall, want := installWant "c" "Main" "4" },
    .add 0 true, .add 1 true, .add 2 true, .add 3 true, .ask 0 true 0, .ask 1 true 0,
    .ask 2 true 0, .ask 3 true 0,
    .onInstallFinished (-1) 0 (installWant "a" "Main" "1") false {}, .takePromise 0,
    .timeOut 2, .removeTimedOut 2,
    .onRemoteInstallFinished (-1) 7 (installWant "c" "Main" "4") {}, .takePromise 3]

theorem fourInstalls_cleanedUp : ((run fourInstalls).calls.map (·.stage) =
        [.returned 0, .returned 0, .returned freeInstallTimeout, .returned 7] ∧
      (run fourInstalls).freeInstallList.map (·.request) = [1]) ∧ CleanedUp (run fourInstalls) :=
  ⟨by decide +kernel, run_cleanedUp fourInstalls (by decide +kernel)⟩

def leftBehind : List FreeInstallOp :=
  [.enter { kind := .startFreeInstall false, want := installWant "a" "Main" "1" },
    .enter { kind := .remoteFreeInstall, want := installWant "b" "Main" "2" },
    .add 0 true, .ask 0 true 22, .add 1 true, .ask 1 true 0, .timeOut 1]

theorem leftBehind_not_cleanedUp :
    (run leftBehind).calls.map (·.stage) = [.returned 22, .returned freeInstallTimeout] ∧
    (run leftBehind).hasEntry 0 = true ∧ (run leftBehind).hasEntry 1 = true ∧
    ¬ CleanedUp (run leftBehind) := by
  refine ⟨by decide +kernel, by decide +kernel, by decide +kernel, fun h => ?_⟩
  have hentry := h.returned 0 _ 22 rfl rfl (by decide)
  exact absurd hentry (by decide +kernel)

end FreeInstallManager
end AbilityRuntime.FreeInstall
