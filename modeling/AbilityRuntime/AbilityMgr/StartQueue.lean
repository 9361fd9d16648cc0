import AbilityRuntime.AbilityMgr.ConnectViews

/-! The starts that were put aside under a URI, and the completions that start them again. -/

namespace AbilityRuntime
open List Nat SortedMap

def QueueEvent.isEnd (t : ℕ) : QueueEvent → Bool
  | restarted t' | timedOut t' => t' = t
  | _ => false

open QueueEvent

namespace AbilityConnectManager
variable {s₀ s s' : AbilityConnectManager} {request : ServiceRequest} {r : ServiceRef}
  {hand : List QueuedRequest}

def Ended (log : List QueueEvent) (t : ℕ) : Prop := ∃ e ∈ log, e.isEnd t = true

lemma ended_append {l l' : List QueueEvent} {t : ℕ} :
    Ended (l ++ l') t ↔ Ended l t ∨ Ended l' t := by
  simp [Ended, or_and_right, exists_or]

def Waits (s : AbilityConnectManager) (t : ℕ) (r : ServiceRef) : Prop :=
  .enqueued t r ∈ s.queueLog ∧ ¬ Ended s.queueLog t

structure QueueFrame (s₀ s : AbilityConnectManager) : Prop where
  reqList : s.startServiceReqList = s₀.startServiceReqList
  nextTicket : s.nextTicket = s₀.nextTicket
  queueLog : s.queueLog = s₀.queueLog
  nextRecord : s₀.nextRecord ≤ s.nextRecord
  uri : ∀ r, r < s₀.nextRecord → (s.records r).getURI = (s₀.records r).getURI

namespace QueueFrame

variable (s) in
lemma refl : QueueFrame s s := ⟨rfl, rfl, rfl, le_rfl, fun _ _ => rfl⟩

lemma kept (hk : Kept s s') (h : QueueFrame s₀ s) : QueueFrame s₀ s' :=
  ⟨hk.startServiceReqList.trans h.reqList, hk.nextTicket.trans h.nextTicket,
    hk.queueLog.trans h.queueLog, hk.nextRecord.symm ▸ h.nextRecord,
    fun r hr => (getURI_of_identity (hk.identity r)).trans (h.uri r hr)⟩

section
variable (h : QueueFrame s₀ s)
include h

protected lemma modifyRecord (r : ServiceRef) {f : ServiceRecord → ServiceRecord}
    (hf : (f (s.records r)).getURI = (s.records r).getURI) :
    QueueFrame s₀ (s.modifyRecord r f) := by
  refine ⟨h.1, h.2, h.3, h.4, fun v hv => ?_⟩
  rcases eq_or_ne v r with rfl | hne
  · simpa [modifyRecord, hf] using h.uri v hv
  · simpa [modifyRecord, Function.update_of_ne hne] using h.uri v hv

lemma setWant (r : ServiceRef) (want : Want) :
    QueueFrame s₀ (s.setWant r want) := h.modifyRecord r rfl

protected lemma createRecord (record : ServiceRecord) : QueueFrame s₀ (s.createRecord record) := by
  refine ⟨h.1, h.2, h.3, h.4.trans (le_succ _), fun v hv => ?_⟩
  have hne : v ≠ s.nextRecord := (hv.trans_le h.nextRecord).ne
  simpa [createRecord, Function.update_of_ne hne] using h.uri v hv

omit h in
lemma takes : Takes (QueueFrame s₀) where
  state r _ := kept ((Kept.refl _).setAbilityState r _)
  terminating _ h := { h with }
  erase _ h := { h with }
  filter _ h := { h with }
  remove _ h := { h with }
  add _ _ h := { h with }
  put _ h := { h with }
  get _ h := { h with }
  create _ _ h := { h.createRecord _ with }

omit h in
variable (s₀) in
lemma closed : Closed (QueueFrame s₀) :=
  ⟨kept, takes.erase, takes.filter, takes.remove, fun r _ h => takes.terminateOrCacheAbility h r⟩

variable (request)

protected lemma stopServiceAbilityLocked : QueueFrame s₀ (s.stopServiceAbilityLocked request) := by
  unfold stopServiceAbilityLocked
  have hf := takes.findServiceRecord h request true
  split
  · rename_i heq
    rwa [heq] at hf
  · rename_i v t heq
    rw [heq] at hf
    exact takes.terminateRecord (hf.kept ((Kept.refl t).handleTerminateDisconnectTask v)) v

end

end QueueFrame

open QueueFrame

variable (s)

def keepsUri (request : ServiceRequest) : ExtensionAnswer → Bool
  | .reuse r =>
    (s.records r).uri = extensionRecordKey request (s.records r).uiExtensionAbilityId
  | _ => true

def queuesUnder (request : ServiceRequest) (r : ServiceRef)
    (isLoadedAbility : Bool) (env : ServiceEnv) : Bool :=
  env.reported → isLoadedAbility → (s.records r).currentState ≠ .active →
    !(s.records r).isUIExtensionAbility → request.want.element.getURI = (s.records r).getURI

def startQueues (request : ServiceRequest) (env : ServiceEnv) : Bool :=
  if request.abilityInfo.extensionAbilityType.isUIExtension then
    s.keepsUri request env.extensionRecord &&
      match s.getOrCreateExtensionRecord request false env.extensionRecord with
      | (none, _) => true
      | (some (r, isLoadedAbility), s) => s.queuesUnder request r isLoadedAbility env
  else
    let ((r, isLoadedAbility), s) := s.getOrCreateServiceRecord request false
    s.queuesUnder request r isLoadedAbility env

def restartsQueue (s : AbilityConnectManager) (envs : ℕ → ServiceEnv) : List QueuedRequest → Bool
  | [] => true
  | q :: rest =>
    let s := s.logQueue [.restarted q.ticket]
    s.startQueues q.request (envs q.ticket) &&
      restartsQueue (s.startAbilityLocked q.request (envs q.ticket)) envs rest

def completeQueues (r : ServiceRef) (envs : ℕ → ServiceEnv) : Bool :=
  let serviceUri := (s.records r).getURI
  let s := s.logQueue [.completed r]
  match s.startServiceReqList.find? serviceUri with
  | none => true
  | some reqList =>
    reqList.all (fun q => q.target = r) &&
      restartsQueue { s with startServiceReqList := s.startServiceReqList.erase serviceUri } envs
        reqList

def queueFits (op : Op) : Bool :=
  match s.completion op with
  | some (s, r, envs) => s.completeQueues r envs
  | none =>
    match op with
    | .startAbility request env => s.startQueues request env
    | .connectAbility request _ _ _ env => s.keepsUri request env.extensionRecord
    | _ => true

variable {s}

section
variable (h : QueueFrame s₀ s)
include h

protected lemma QueueFrame.getOrCreateExtensionRecord (isCreatedByConnect : Bool)
    {answer : ExtensionAnswer} (hu : s.keepsUri request answer = true) :
    QueueFrame s₀ (s.getOrCreateExtensionRecord request isCreatedByConnect answer).2 := by
  cases answer with
  | fail => exact h
  | reuse v =>
    simp only [getOrCreateExtensionRecord]
    split
    · have hflag : QueueFrame s₀ (s.modifyRecord v fun x =>
          { x with isCreateByConnect := isCreatedByConnect }) := h.modifyRecord v rfl
      refine takes.add _ _ (hflag.modifyRecord v ?_)
      have hu' := of_decide_eq_true hu
      simp [modifyRecord, ← hu']
    · exact h
  | create =>
    simp only [getOrCreateExtensionRecord, createExtensionRecord,
      modifyRecord_createRecord, addExtensionRecord_createRecord]
    exact takes.add _ _ (h.createRecord _)

protected lemma QueueFrame.preloadUIExtensionAbility (request : ServiceRequest) :
    QueueFrame s₀ (s.preloadUIExtensionAbility request) := by
  unfold preloadUIExtensionAbility
  split
  · rw [createExtensionRecord, addExtensionRecord_createRecord]
    exact takes.add _ _ (h.createRecord _)
  · exact h

protected lemma QueueFrame.connectAbilityLocked (connect : CallbackRef) (callerTokenId : ℕ)
    (connectInfo : Bool) {env : ServiceEnv} (hu : s.keepsUri request env.extensionRecord = true) :
    QueueFrame s₀ (s.connectAbilityLocked request connect callerTokenId connectInfo env) := by
  have hg : QueueFrame s₀ (s.getOrCreateTargetServiceRecord request connectInfo env).2 := by
    unfold getOrCreateTargetServiceRecord
    split
    · exact h.getOrCreateExtensionRecord true hu
    · exact takes.getOrCreateServiceRecord h request true
  unfold connectAbilityLocked
  split
  · rename_i heq
    rwa [heq] at hg
  rename_i v isLoaded t heq
  rw [heq] at hg
  split
  · exact hg
  have hadd := hg.kept ((Kept.refl t).addConnection v connect callerTokenId env.addDeathRecipient)
  unfold connectTarget handleActiveAbility
  split
  · exact hadd
  split
  · split
    · exact (hadd.setWant v _).kept ((Kept.refl _).completing _)
    · exact hadd.setWant v _
  · exact hadd.modifyRecord v rfl

protected lemma QueueFrame.dispatchInactive (r : ServiceRef) :
    QueueFrame s₀ (s.dispatchInactive r) := by
  unfold dispatchInactive commandAbility
  have hi := h.kept ((Kept.refl s).setAbilityState r .inactive)
  dsimp only
  split
  · exact h
  split
  · exact hi
  split
  · exact hi.modifyRecord r rfl
  · exact .modifyRecord (hi.modifyRecord r rfl) r rfl

end

structure Queued (hand : List QueuedRequest) (s : AbilityConnectManager) : Prop where
  listed : ∀ uri l, s.startServiceReqList.find? uri = some l →
    (l.map QueuedRequest.ticket).Nodup ∧
    ∀ q ∈ l, (s.records q.target).getURI = uri ∧ s.Waits q.ticket q.target
  held : (hand.map QueuedRequest.ticket).Nodup ∧ ∀ q ∈ hand, s.Waits q.ticket q.target ∧
    ∀ uri l, s.startServiceReqList.find? uri = some l → ∀ q' ∈ l, q'.ticket ≠ q.ticket
  waits : ∀ t r, s.Waits t r → (∃ q ∈ hand, q.ticket = t) ∨
    ∃ l, s.startServiceReqList.find? (s.records r).getURI = some l ∧ ∃ q ∈ l, q.ticket = t
  target : ∀ t r r', .enqueued t r ∈ s.queueLog → .enqueued t r' ∈ s.queueLog → r = r'
  made : ∀ t r, .enqueued t r ∈ s.queueLog → r < s.nextRecord ∧ t < s.nextTicket
  begun : ∀ t, Ended s.queueLog t → t < s.nextTicket
  once : ∀ t, s.queueLog.countP (isEnd t) ≤ 1

namespace Queued

lemma relog (h : Queued hand s) (hreq : s'.startServiceReqList = s.startServiceReqList)
    (hticket : s'.nextTicket = s.nextTicket) (hrecord : s.nextRecord ≤ s'.nextRecord)
    (huri : ∀ r, r < s.nextRecord → (s'.records r).getURI = (s.records r).getURI)
    (hin : ∀ t r, .enqueued t r ∈ s'.queueLog ↔ .enqueued t r ∈ s.queueLog)
    (hcount : ∀ t, s'.queueLog.countP (isEnd t) =
      s.queueLog.countP (isEnd t)) : Queued hand s' := by
  have hend : ∀ t, Ended s'.queueLog t ↔ Ended s.queueLog t := fun t => by
    rw [Ended, Ended, ← countP_pos_iff, hcount, countP_pos_iff]
  have hw : ∀ t r, s'.Waits t r ↔ s.Waits t r := fun t r => by rw [Waits, Waits, hin, hend]
  refine ⟨fun uri l hl => ?_, ?_, fun t r hr => ?_, ?_, fun t r hr => ?_, ?_, ?_⟩
  · rw [hreq] at hl
    refine ⟨(h.listed uri l hl).1, fun q hq => ?_⟩
    obtain ⟨hq, hwait⟩ := (h.listed uri l hl).2 q hq
    exact ⟨(huri _ (h.made _ _ hwait.1).1).trans hq, (hw _ _).mpr hwait⟩
  · simpa only [hreq, hw] using h.held
  · have hwait := (hw t r).mp hr
    rw [hreq, huri r (h.made t r hwait.1).1]
    exact h.waits t r hwait
  · simpa only [hin] using h.target
  · obtain ⟨hlt, hlater⟩ := h.made t r ((hin t r).mp hr)
    exact ⟨hlt.trans_le hrecord, hticket.symm ▸ hlater⟩
  · simpa only [hend, hticket] using h.begun
  · simpa [hcount] using h.once

lemma frame (h : Queued hand s) (hf : QueueFrame s s') : Queued hand s' :=
  h.relog hf.reqList hf.nextTicket hf.nextRecord hf.uri (fun _ _ => by rw [hf.queueLog])
    fun _ => by rw [hf.queueLog]

lemma kept (hk : Kept s s') (h : Queued hand s) : Queued hand s' := h.frame ((refl s).kept hk)

lemma waits_lt (h : Queued hand s) {t : ℕ} (hw : s.Waits t r) : t < s.nextTicket :=
  (h.made t r hw.1).2

lemma completed (h : Queued hand s) (r : ServiceRef) : Queued hand (s.logQueue [.completed r]) :=
  h.relog rfl rfl le_rfl (fun _ _ => rfl)
    (fun _ _ => mem_append.trans (or_iff_left fun hm => nomatch mem_singleton.mp hm))
    fun _ => countP_append

lemma getD_listed (h : Queued hand s) (uri : String) :
    (((s.startServiceReqList.find? uri).getD []).map QueuedRequest.ticket).Nodup ∧
    ∀ q ∈ (s.startServiceReqList.find? uri).getD [], (s.records q.target).getURI = uri ∧
      s.Waits q.ticket q.target ∧ ∃ l, s.startServiceReqList.find? uri = some l ∧ q ∈ l := by
  cases hl : s.startServiceReqList.find? uri with
  | none => exact ⟨nodup_nil, fun q hq => nomatch hq⟩
  | some l =>
    refine ⟨(h.listed uri l hl).1, fun q hq => ?_⟩
    obtain ⟨huri, hwait⟩ := (h.listed uri l hl).2 q hq
    exact ⟨huri, hwait, l, rfl, hq⟩

lemma ended {q : QueuedRequest} (h : Queued (q :: hand) s) {e : QueueEvent}
    (he : ∀ t, e.isEnd t = decide (q.ticket = t)) (hn : ∀ t r, e ≠ .enqueued t r) :
    Queued hand (s.logQueue [e]) := by
  obtain ⟨hnodup, hheld⟩ := h.held
  obtain ⟨hwait, hother⟩ := hheld q (mem_cons_self ..)
  have hin : ∀ t v, .enqueued t v ∈ (s.logQueue [e]).queueLog ↔ .enqueued t v ∈ s.queueLog :=
    fun t v => mem_append.trans (or_iff_left fun hm => hn t v (mem_singleton.mp hm).symm)
  have hend : ∀ t, Ended (s.logQueue [e]).queueLog t ↔ Ended s.queueLog t ∨ q.ticket = t := by
    intro t
    refine ended_append.trans (or_congr_right ⟨?_, fun ht => ⟨e, mem_singleton_self e, ?_⟩⟩)
    · rintro ⟨e', he', ht⟩
      rw [mem_singleton.mp he', he] at ht
      exact of_decide_eq_true ht
    · rw [he, decide_eq_true ht]
  have hw : ∀ t v, (s.logQueue [e]).Waits t v ↔ s.Waits t v ∧ q.ticket ≠ t := fun t v => by
    rw [Waits, Waits, hin, hend, not_or, and_assoc]
  refine ⟨fun uri l hl => ?_, ⟨(nodup_cons.mp hnodup).2, fun q' hq' => ?_⟩, fun t v hv => ?_,
    fun t v v' hv hv' => ?_, fun t v hv => ?_, fun t ht => ?_, fun t => ?_⟩
  · refine ⟨(h.listed uri l hl).1, fun q' hq' => ?_⟩
    obtain ⟨huri, hwait'⟩ := (h.listed uri l hl).2 q' hq'
    exact ⟨huri, (hw _ _).mpr ⟨hwait', (hother uri l hl q' hq').symm⟩⟩
  · obtain ⟨hwait', hother'⟩ := hheld q' (mem_cons_of_mem _ hq')
    refine ⟨(hw _ _).mpr ⟨hwait', fun heq => (nodup_cons.mp hnodup).1 ?_⟩, hother'⟩
    exact heq ▸ mem_map_of_mem hq'
  · obtain ⟨hwait', hne⟩ := (hw t v).mp hv
    rcases h.waits t v hwait' with ⟨q', hq', rfl⟩ | hlist
    · rcases mem_cons.mp hq' with rfl | hq'
      · exact absurd rfl hne
      · exact .inl ⟨q', hq', rfl⟩
    · exact .inr hlist
  · exact h.target t v v' ((hin t v).mp hv) ((hin t v').mp hv')
  · exact h.made t v ((hin t v).mp hv)
  · rcases (hend t).mp ht with ht | rfl
    · exact h.begun t ht
    · exact h.waits_lt hwait
  · rw [logQueue, countP_append, countP_singleton, he]
    by_cases ht : q.ticket = t
    · rw [← ht, countP_eq_zero.mpr fun e he hend => hwait.2 ⟨e, he, hend⟩]
      simp
    · rw [decide_eq_false ht]
      exact h.once t

lemma enqueueStartServiceReq (h : Queued hand s) (request : ServiceRequest)
    (hr : r < s.nextRecord) :
    Queued hand (s.enqueueStartServiceReq request r (s.records r).getURI) := by
  have hin : ∀ t v, .enqueued t v ∈ (s.queueLog ++ [.enqueued s.nextTicket r]) ↔
      .enqueued t v ∈ s.queueLog ∨ (t = s.nextTicket ∧ v = r) := by
    intro t v
    rw [mem_append, mem_singleton, enqueued.injEq]
  have hend : ∀ t, Ended (s.queueLog ++ [.enqueued s.nextTicket r]) t ↔ Ended s.queueLog t := by
    refine fun t => ended_append.trans (or_iff_left ?_)
    rintro ⟨e, he, ht⟩
    rw [mem_singleton.mp he] at ht
    cases ht
  have hw : ∀ t v, (s.enqueueStartServiceReq request r (s.records r).getURI).Waits t v ↔
      s.Waits t v ∨ (t = s.nextTicket ∧ v = r) := by
    intro t v
    refine .trans (and_congr (hin t v) (not_congr (hend t))) ?_
    constructor
    · rintro ⟨hold | hnew, ht⟩
      · exact .inl ⟨hold, ht⟩
      · exact .inr hnew
    · rintro (hold | ⟨rfl, rfl⟩)
      · exact ⟨.inl hold.1, hold.2⟩
      · exact ⟨.inr ⟨rfl, rfl⟩, fun ht => (h.begun _ ht).false⟩
  have hfind : ∀ uri, (s.enqueueStartServiceReq request r
      (s.records r).getURI).startServiceReqList.find? uri =
      if (s.records r).getURI = uri then
        some ((s.startServiceReqList.find? (s.records r).getURI).getD [] ++
          [⟨s.nextTicket, r, request⟩])
      else s.startServiceReqList.find? uri := fun uri => find?_update ..
  -- what was listed under the URI, and what is listed now
  have hold := h.getD_listed (s.records r).getURI
  have hnew : ∀ uri l, (s.enqueueStartServiceReq request r
      (s.records r).getURI).startServiceReqList.find? uri = some l → ∀ q ∈ l,
      ((s.records q.target).getURI = uri ∧ s.Waits q.ticket q.target ∧
        ∃ l', s.startServiceReqList.find? uri = some l' ∧ q ∈ l') ∨
      (q = ⟨s.nextTicket, r, request⟩ ∧ uri = (s.records r).getURI) := by
    intro uri l hl q hq
    rw [hfind] at hl
    split_ifs at hl with heq
    · cases hl
      rcases mem_append.mp hq with hq | hq
      · exact .inl (heq ▸ hold.2 q hq)
      · exact .inr ⟨mem_singleton.mp hq, heq.symm⟩
    · obtain ⟨huri, hwait⟩ := (h.listed uri l hl).2 q hq
      exact .inl ⟨huri, hwait, l, hl, hq⟩
  refine ⟨fun uri l hl => ⟨?_, fun q hq => ?_⟩, ⟨h.held.1, fun q hq => ⟨?_, ?_⟩⟩, fun t v hv => ?_,
    fun t v v' hv hv' => ?_, fun t v hv => ?_, fun t ht => ?_, fun t => ?_⟩
  · rw [hfind] at hl
    split at hl
    · cases hl
      rw [map_append, nodup_append]
      refine ⟨hold.1, nodup_singleton _, fun t ht t' ht' => ?_⟩
      obtain ⟨q, hq, rfl⟩ := mem_map.mp ht
      rw [mem_singleton.mp ht']
      exact (h.waits_lt (hold.2 q hq).2.1).ne
    · exact (h.listed uri l hl).1
  · rcases hnew uri l hl q hq with ⟨huri, hwait, -⟩ | ⟨rfl, rfl⟩
    · exact ⟨huri, (hw _ _).mpr (.inl hwait)⟩
    · exact ⟨rfl, (hw _ _).mpr (.inr ⟨rfl, rfl⟩)⟩
  · exact (hw _ _).mpr (.inl (h.held.2 q hq).1)
  · intro uri l hl q' hq'
    rcases hnew uri l hl q' hq' with ⟨-, -, l', hl', hq''⟩ | ⟨rfl, -⟩
    · exact (h.held.2 q hq).2 uri l' hl' q' hq''
    · exact (h.waits_lt (h.held.2 q hq).1).ne'
  · rcases (hw t v).mp hv with hwait | ⟨rfl, rfl⟩
    · refine (h.waits t v hwait).imp_right ?_
      rintro ⟨l, hl, q, hq, rfl⟩
      by_cases heq : (s.records r).getURI = (s.records v).getURI
      · refine ⟨_, (hfind _).trans (if_pos heq), q, mem_append_left _ ?_, rfl⟩
        rw [heq, hl]
        exact hq
      · exact ⟨l, (hfind _).trans ((if_neg heq).trans hl), q, hq, rfl⟩
    · right
      refine ⟨_, (hfind _).trans (if_pos rfl), _, mem_append_right _ (mem_singleton_self _), rfl⟩
  · rcases (hin t v).mp hv with hold₁ | ⟨rfl, rfl⟩
    · rcases (hin t v').mp hv' with hold₂ | ⟨rfl, -⟩
      · exact h.target t v v' hold₁ hold₂
      · exact absurd (h.made _ _ hold₁).2 (lt_irrefl _)
    · rcases (hin _ v').mp hv' with hold₂ | ⟨-, rfl⟩
      · exact absurd (h.made _ _ hold₂).2 (lt_irrefl _)
      · rfl
  · rcases (hin t v).mp hv with hv | ⟨rfl, rfl⟩
    · exact ⟨(h.made t v hv).1, (h.made t v hv).2.trans (lt_succ_self _)⟩
    · exact ⟨hr, lt_succ_self _⟩
  · exact (h.begun t ((hend t).mp ht)).trans (lt_succ_self _)
  · change (s.queueLog ++ [enqueued s.nextTicket r]).countP _ ≤ 1
    rw [countP_append]
    exact h.once t

lemma take (h : Queued [] s) {uri : String} {l : List QueuedRequest}
    (hl : s.startServiceReqList.find? uri = some l) :
    Queued l { s with startServiceReqList := s.startServiceReqList.erase uri } := by
  refine ⟨fun uri' l' hl' => h.listed uri' l' (find?_erase_eq_some.1 hl').2,
    ⟨(h.listed uri l hl).1, fun q hq => ⟨((h.listed uri l hl).2 q hq).2, ?_⟩⟩, fun t v hv => ?_,
    h.target, h.made, h.begun, h.once⟩
  · intro uri' l' hl' q' hq' heq
    obtain ⟨hne, hl'⟩ := find?_erase_eq_some.1 hl'
    obtain ⟨huri, hwait⟩ := (h.listed uri l hl).2 q hq
    obtain ⟨huri', hwait'⟩ := (h.listed uri' l' hl').2 q' hq'
    have hsame := h.target _ _ _ (heq ▸ hwait'.1) hwait.1
    exact hne (huri.symm.trans (hsame ▸ huri'))
  · rcases h.waits t v hv with ⟨q, hq, -⟩ | ⟨l', hl', q, hq, rfl⟩
    · cases hq
    · by_cases heq : uri = (s.records v).getURI
      · rw [← heq, hl] at hl'
        cases hl'
        exact .inl ⟨q, hq, rfl⟩
      · exact .inr ⟨l', find?_erase_eq_some.2 ⟨heq, hl'⟩, q, hq, rfl⟩

protected lemma startTarget (h : Queued hand s) (hr : r < s.nextRecord) {isLoadedAbility : Bool}
    {env : ServiceEnv} (hq : s.queuesUnder request r isLoadedAbility env = true) :
    Queued hand (s.startTarget request r isLoadedAbility env) := by
  unfold startTarget doForegroundUIExtension commandAbility
  have hwant := (refl s).setWant r request.want
  dsimp only
  split
  · exact h
  rename_i hstart
  split
  · exact h.frame (hwant.modifyRecord r rfl)
  rename_i hactive
  split
  · split
    · exact h.frame hwant
    · exact h.enqueueStartServiceReq request hr
  · rename_i hui
    simp only [Bool.not_eq_true', not_or, Bool.not_eq_false] at hstart
    have hstate : (s.records r).currentState ≠ .active := fun hst =>
      hactive ⟨hst, by simpa using hui⟩
    rw [of_decide_eq_true hq hstart.1 hstart.2 hstate (by simpa using hui)]
    exact h.enqueueStartServiceReq request hr

protected lemma startAbilityLocked (h : Queued hand s) (hk : Known s) {env : ServiceEnv}
    (hq : s.startQueues request env = true) :
    Queued hand (s.startAbilityLocked request env) := by
  unfold startAbilityLocked
  unfold startQueues at hq
  split
  · rename_i hui
    rw [if_pos hui] at hq
    obtain ⟨huri, hunder⟩ := Bool.and_eq_true_iff.mp hq
    have hg := h.frame ((refl s).getOrCreateExtensionRecord false huri)
    split
    · rename_i heq
      rwa [heq] at hg
    · rename_i heq
      rw [heq] at hg hunder
      exact hg.startTarget (hk.getOrCreateExtensionRecord request _ _ _ heq).2 hunder
  · rename_i hui
    rw [if_neg hui] at hq
    exact (h.frame (takes.getOrCreateServiceRecord (.refl s) request false)).startTarget
      (hk.getOrCreateServiceRecord request _ _ rfl).2 hq

lemma restartRequests (h : Queued hand s) (hk : Known s) {envs : ℕ → ServiceEnv}
    (hq : s.restartsQueue envs hand = true) : Queued [] (s.restartRequests envs hand) := by
  induction hand generalizing s with
  | nil => exact h
  | cons q rest ih =>
    obtain ⟨hstart, hrest⟩ := Bool.and_eq_true_iff.mp hq
    have hl : Queued rest (s.logQueue [.restarted q.ticket]) :=
      h.ended (fun _ => rfl) fun _ _ => nofun
    have hkl : Known (s.logQueue [.restarted q.ticket]) := hk
    exact ih (hl.startAbilityLocked hkl hstart) (hkl.startAbilityLocked _ _) hrest

protected lemma completeStartServiceReq (h : Queued [] s) (hk : Known s) {envs : ℕ → ServiceEnv}
    (hq : s.completeQueues r envs = true) : Queued [] (s.completeStartServiceReq r envs) := by
  have hc := h.completed r
  unfold completeStartServiceReq
  unfold completeQueues at hq
  dsimp only at hq ⊢
  split
  · exact hc
  · rename_i hl
    rw [hl] at hq
    refine restartRequests (hc.take hl) ?_ (Bool.and_eq_true_iff.mp hq).2
    exact hk.of_maps rfl

protected lemma startServiceTimeout (h : Queued [] s) (abilityUri : String) :
    Queued [] (s.startServiceTimeout abilityUri) := by
  have hdrop : ∀ (l : List QueuedRequest) {t : AbilityConnectManager}, Queued l t →
      Queued [] (t.logQueue (l.map fun q => .timedOut q.ticket)) := by
    intro l
    induction l with
    | nil =>
      intro t ht
      simpa [logQueue] using ht
    | cons q rest ih =>
      intro t ht
      have hq : Queued rest (t.logQueue [.timedOut q.ticket]) :=
        ht.ended (fun _ => rfl) fun _ _ => nofun
      have hrest := ih hq
      simp only [logQueue, append_assoc] at hrest
      exact hrest
  unfold startServiceTimeout
  split
  · exact h
  · rename_i l hl
    exact hdrop l (h.take hl)

end Queued

lemma queueFrame_step {op : Op} (hq : s.queueFits op = true) (hc : s.completion op = none) :
    QueueFrame s (s.step op) ∨ (∃ request env, op = .startAbility request env) ∨
      ∃ uri, op = .startServiceTimeout uri := by
  have h := refl s
  cases op with
  | startAbility request env => exact .inr (.inl ⟨request, env, rfl⟩)
  | preloadUIExtensionAbility request => exact .inl (h.preloadUIExtensionAbility request)
  | connectAbility request connect callerTokenId connectInfo env =>
    exact .inl (h.connectAbilityLocked connect callerTokenId connectInfo hq)
  | stopServiceAbility request => exact .inl (h.stopServiceAbilityLocked request)
  | dispatchInactive r => exact .inl (h.dispatchInactive r)
  | startServiceTimeout uri => exact .inr (.inr ⟨uri, rfl⟩)
  | _ => exact .inl ((closed s).step h hc rfl)

protected lemma Queued.step (h : Queued [] s) (hk : Known s) {op : Op}
    (hq : s.queueFits op = true) : Queued [] (s.step op) := by
  cases hc : s.completion op with
  | some p =>
    unfold queueFits at hq
    rw [hc] at hq
    obtain ⟨hbefore, hafter⟩ := completion_some hc
    exact ((h.kept hbefore).completeStartServiceReq (hk.kept hbefore) hq).kept hafter
  | none =>
    rcases queueFrame_step hq hc with hframe | ⟨request, env, rfl⟩ | ⟨uri, rfl⟩
    · exact h.frame hframe
    · exact h.startAbilityLocked hk hq
    · exact h.startServiceTimeout uri

structure LogGrows (s s' : AbilityConnectManager) : Prop where
  mono : ∀ e ∈ s.queueLog, e ∈ s'.queueLog
  restarted : ∀ t, .restarted t ∈ s'.queueLog → .restarted t ∈ s.queueLog

lemma LogGrows.of_frame (h : QueueFrame s s') : LogGrows s s' :=
  ⟨fun _ he => h.queueLog ▸ he, fun _ he => h.queueLog ▸ he⟩

lemma LogGrows.trans {s'' : AbilityConnectManager} (h : LogGrows s s') (h' : LogGrows s' s'') :
    LogGrows s s'' :=
  ⟨fun e he => h'.mono e (h.mono e he), fun t he => h.restarted t (h'.restarted t he)⟩

variable (s request r) in
lemma logGrows_startTarget (isLoadedAbility : Bool) (env : ServiceEnv) :
    LogGrows s (s.startTarget request r isLoadedAbility env) := by
  have hsame : LogGrows s s := .of_frame (.refl s)
  have hadd : ∀ uri, LogGrows s (s.enqueueStartServiceReq request r uri) := fun uri =>
    ⟨fun e he => mem_append_left _ he, fun t he =>
      (mem_append.mp he).resolve_right fun h => nomatch mem_singleton.mp h⟩
  unfold startTarget doForegroundUIExtension
  dsimp only
  split
  · exact hsame
  split
  · exact ⟨hsame.1, hsame.2⟩
  split
  · split
    · exact ⟨hsame.1, hsame.2⟩
    · exact hadd _
  · exact hadd _

lemma logGrows_startAbilityLocked {env : ServiceEnv} (hq : s.startQueues request env = true) :
    LogGrows s (s.startAbilityLocked request env) := by
  unfold startAbilityLocked
  unfold startQueues at hq
  split
  · rename_i hui
    rw [if_pos hui] at hq
    have hg := LogGrows.of_frame ((refl s).getOrCreateExtensionRecord false
      (Bool.and_eq_true_iff.mp hq).1)
    split
    · rename_i heq
      rwa [heq] at hg
    · rename_i heq
      rw [heq] at hg
      exact hg.trans (logGrows_startTarget ..)
  · exact (LogGrows.of_frame
      (takes.getOrCreateServiceRecord (.refl s) request false)).trans (logGrows_startTarget ..)

lemma restarted_restartRequests {envs : ℕ → ServiceEnv} {l : List QueuedRequest}
    (hq : s.restartsQueue envs l = true) :
    (∀ e ∈ s.queueLog, e ∈ (s.restartRequests envs l).queueLog) ∧
    ∀ t, .restarted t ∈ (s.restartRequests envs l).queueLog ↔
      .restarted t ∈ s.queueLog ∨ ∃ q ∈ l, q.ticket = t := by
  induction l generalizing s with
  | nil =>
    refine ⟨fun e he => he, fun t => (or_iff_left ?_).symm⟩
    rintro ⟨q, hq, -⟩
    cases hq
  | cons q rest ih =>
    obtain ⟨hstart, hrest⟩ := Bool.and_eq_true_iff.mp hq
    have hgrows := logGrows_startAbilityLocked hstart
    obtain ⟨hmono, hiff⟩ := ih hrest
    have hlog : ∀ t, .restarted t ∈ (s.logQueue [.restarted q.ticket]).queueLog ↔
        .restarted t ∈ s.queueLog ∨ q.ticket = t := fun t => by
      rw [logQueue, mem_append, mem_singleton, restarted.injEq, eq_comm]
    refine ⟨fun e he => hmono e (hgrows.mono e (mem_append_left _ he)), fun t => ?_⟩
    simp only [restartRequests, hiff, mem_cons, exists_eq_or_imp, ← or_assoc, ← hlog]
    exact or_congr_left ⟨hgrows.restarted t, hgrows.mono _⟩

def PutAside (s : AbilityConnectManager) (q : QueuedRequest) : Prop :=
  ∃ uri l, s.startServiceReqList.find? uri = some l ∧ q ∈ l

def startAgain (envs : ℕ → ServiceEnv) (s : AbilityConnectManager) (q : QueuedRequest) :
    AbilityConnectManager :=
  (s.logQueue [.restarted q.ticket]).startAbilityLocked q.request (envs q.ticket)

def takeQueue (s : AbilityConnectManager) (r : ServiceRef) : AbilityConnectManager :=
  { s.logQueue [.completed r] with
    startServiceReqList := s.startServiceReqList.erase (s.records r).getURI }

structure Served (s : AbilityConnectManager) (op : Op) : Prop where
  once : ∀ t, (s.step op).queueLog.countP (isEnd t) ≤ 1
  started : ∀ r s' envs, s.completion op = some (s', r, envs) → ∃ l : List QueuedRequest,
    (l.map QueuedRequest.ticket).Nodup ∧ (∀ q, q ∈ l ↔ s.PutAside q ∧ q.target = r) ∧
    (s.step op = l.foldl (startAgain envs) (s'.takeQueue r) ∨
      s.step op = (l.foldl (startAgain envs) (s'.takeQueue r)).terminateAbilityLocked r)
  restarted : ∀ t r s' envs, s.Waits t r → s.completion op = some (s', r, envs) →
    .restarted t ∈ (s.step op).queueLog
  own : ∀ t, .restarted t ∈ (s.step op).queueLog → .restarted t ∉ s.queueLog →
    ∃ r s' envs, s.Waits t r ∧ s.completion op = some (s', r, envs)

lemma restarted_completeStartServiceReq (h : Queued [] s) {envs : ℕ → ServiceEnv}
    (hq : s.completeQueues r envs = true) (t : ℕ) :
    (s.Waits t r → .restarted t ∈ (s.completeStartServiceReq r envs).queueLog) ∧
    (.restarted t ∈ (s.completeStartServiceReq r envs).queueLog → .restarted t ∉ s.queueLog →
      s.Waits t r) := by
  have hlog : .restarted t ∈ (s.logQueue [.completed r]).queueLog → .restarted t ∈ s.queueLog :=
    fun hm => (mem_append.mp hm).resolve_right fun h => nomatch mem_singleton.mp h
  have hwaits : s.Waits t r → ∃ l, s.startServiceReqList.find? (s.records r).getURI = some l ∧
      ∃ q ∈ l, q.ticket = t := fun hw =>
    (h.waits t r hw).resolve_left fun ⟨_, hin, _⟩ => nomatch hin
  unfold completeStartServiceReq
  unfold completeQueues at hq
  dsimp only at hq ⊢
  split
  · rename_i hnone
    refine ⟨fun hw => ?_, fun hm hn => absurd (hlog hm) hn⟩
    obtain ⟨l, hl, -⟩ := hwaits hw
    exact absurd (hl.symm.trans hnone) (Option.some_ne_none l)
  · rename_i l hl
    rw [hl] at hq
    obtain ⟨hown, hrestarts⟩ := Bool.and_eq_true_iff.mp hq
    obtain ⟨-, hiff⟩ := restarted_restartRequests hrestarts
    refine ⟨fun hw => (hiff t).mpr (.inr ?_), fun hm hn => ?_⟩
    · obtain ⟨l', hl', hin⟩ := hwaits hw
      cases hl.symm.trans hl'
      exact hin
    · obtain ⟨q, hin, rfl⟩ := ((hiff t).mp hm).resolve_left fun hm => hn (hlog hm)
      rw [← of_decide_eq_true (all_eq_true.mp hown q hin)]
      exact ((h.listed _ l hl).2 q hin).2

lemma restartRequests_eq_foldl (envs : ℕ → ServiceEnv) (l : List QueuedRequest)
    (s : AbilityConnectManager) : s.restartRequests envs l = l.foldl (startAgain envs) s := by
  induction l generalizing s with
  | nil => rfl
  | cons q rest ih => exact ih _

variable (s r) in
lemma completeStartServiceReq_eq_foldl (envs : ℕ → ServiceEnv) :
    s.completeStartServiceReq r envs = ((s.startServiceReqList.find?
      (s.records r).getURI).getD []).foldl (startAgain envs) (s.takeQueue r) := by
  unfold completeStartServiceReq takeQueue
  dsimp only
  split
  · rename_i hnone
    have hnone : s.startServiceReqList.find? (s.records r).getURI = none := hnone
    have herase : s.startServiceReqList.erase (s.records r).getURI = s.startServiceReqList :=
      SortedMap.ext (KeyList.erase_of_forall_ne (find?_eq_none.mp hnone))
    rw [hnone, herase]
    rfl
  · rename_i l hl
    have hl : s.startServiceReqList.find? (s.records r).getURI = some l := hl
    rw [hl]
    exact restartRequests_eq_foldl envs l _

lemma Queued.mem_getD_iff (h : Queued [] s) {envs : ℕ → ServiceEnv}
    (hq : s.completeQueues r envs = true) (q : QueuedRequest) :
    q ∈ (s.startServiceReqList.find? (s.records r).getURI).getD [] ↔
      s.PutAside q ∧ q.target = r := by
  constructor
  · intro hin
    obtain ⟨-, -, l, hl, hql⟩ := (h.getD_listed _).2 q hin
    refine ⟨⟨_, l, hl, hql⟩, ?_⟩
    unfold completeQueues at hq
    dsimp only [logQueue] at hq
    rw [hl] at hq
    exact of_decide_eq_true (all_eq_true.mp (Bool.and_eq_true_iff.mp hq).1 q hql)
  · rintro ⟨⟨uri, l, hl, hql⟩, rfl⟩
    rw [((h.listed uri l hl).2 q hql).1, hl]
    exact hql

lemma Queued.served (h : Queued [] s) (hk : Known s) {op : Op} (hq : s.queueFits op = true) :
    Served s op := by
  have hstep := h.step hk hq
  cases hc : s.completion op with
  | some p =>
    obtain ⟨t, r, envs⟩ := p
    unfold queueFits at hq
    rw [hc] at hq
    obtain ⟨hbefore, hafter⟩ := completion_some hc
    have hw : ∀ n v, t.Waits n v ↔ s.Waits n v := fun n v => by
      rw [Waits, Waits, hbefore.queueLog]
    refine ⟨hstep.once, fun v s' envs' heq => ?_, fun n v s' envs' hwait heq => ?_,
      fun n hm hn => ⟨r, t, envs, ?_, hc⟩⟩
    · rw [hc] at heq
      cases heq
      have ht := h.kept hbefore
      refine ⟨_, (ht.getD_listed (t.records r).getURI).1, fun q => ?_, ?_⟩
      · rw [ht.mem_getD_iff hq, PutAside, PutAside, hbefore.startServiceReqList]
      · rw [← completeStartServiceReq_eq_foldl]
        exact step_of_completion hc
    · rw [hc] at heq
      cases heq
      rw [hafter.queueLog]
      exact (restarted_completeStartServiceReq (h.kept hbefore) hq n).1 ((hw n r).mpr hwait)
    · rw [hafter.queueLog] at hm
      rw [← hbefore.queueLog] at hn
      exact (hw n r).mp ((restarted_completeStartServiceReq (h.kept hbefore) hq n).2 hm hn)
  | none =>
    refine ⟨hstep.once, fun v s' envs' heq => ?_, fun n v s' envs' _ heq => ?_,
      fun n hm hn => absurd ?_ hn⟩
    · rw [hc] at heq
      cases heq
    · rw [hc] at heq
      cases heq
    rcases queueFrame_step hq hc with hframe | ⟨request, env, rfl⟩ | ⟨uri, rfl⟩
    · exact (LogGrows.of_frame hframe).restarted n hm
    · exact (logGrows_startAbilityLocked hq).restarted n hm
    · simp only [step, startServiceTimeout] at hm
      split at hm
      · exact hm
      · refine (mem_append.mp hm).resolve_right fun hm => ?_
        obtain ⟨q, -, heq⟩ := mem_map.mp hm
        cases heq

lemma queued_init (config : ConnectConfig) (devCapacity procCapacity : UInt32) :
    Queued [] (init config devCapacity procCapacity) := by
  refine ⟨fun uri l hl => absurd hl (by simp [init]), ⟨nodup_nil, fun q hq => nomatch hq⟩,
    fun t r hr => (nomatch hr.1), nofun, nofun, ?_, fun t => zero_le 1⟩
  rintro t ⟨e, he, -⟩
  cases he

theorem run_served (config : ConnectConfig) (devCapacity procCapacity : UInt32) (ops : List Op)
    (op : Op) (h : Runs.Guarded step (fun s op => s.queueFits op = true)
      (init config devCapacity procCapacity) (ops ++ [op])) :
    Served (ops.foldl step (init config devCapacity procCapacity)) op := by
  obtain ⟨hops, hop⟩ := (Runs.guarded_append _ ops [op]).mp h
  obtain ⟨hqueued, hknown⟩ := hops.invariant (I := fun s => Queued [] s ∧ Known s)
    (fun _ op hs hq => ⟨hs.1.step hs.2 hq, hs.2.step op⟩) ⟨queued_init _ _ _, known_init _ _ _⟩
  exact hqueued.served hknown hop.1

def startedTwice (request : ServiceRequest) : List Op :=
  [.startAbility request {}, .startAbility request {}, .attachAbilityThread 0, .dispatchInactive 0]

def commandDone : Op := .scheduleCommandAbilityDone 0 fun _ => {}

theorem startedTwice_served :
    ((startedTwice serviceRequest).foldl step (init sampleConfig 1 1)).Waits 0 0 ∧
    (((startedTwice serviceRequest).foldl step (init sampleConfig 1 1)).step
      commandDone).queueLog = [.enqueued 0 0, .completed 0, .restarted 0] ∧
    Served ((startedTwice serviceRequest).foldl step (init sampleConfig 1 1)) commandDone := by
  refine ⟨⟨by decide +kernel, ?_⟩, by decide +kernel,
    run_served sampleConfig 1 1 (startedTwice serviceRequest) commandDone (by decide +kernel)⟩
  unfold Ended
  decide +kernel

def shortRequest : ServiceRequest :=
  { serviceRequest with want.element.moduleName := "" }

theorem shortRequest_not_served :
    ((startedTwice shortRequest).foldl step (init sampleConfig 1 1)).Waits 0 0 ∧
    (((startedTwice shortRequest).foldl step (init sampleConfig 1 1)).step
      commandDone).queueLog = [.enqueued 0 0, .completed 0] ∧
    ¬ Served ((startedTwice shortRequest).foldl step (init sampleConfig 1 1)) commandDone := by
  have hwaits : ((startedTwice shortRequest).foldl step (init sampleConfig 1 1)).Waits 0 0 := by
    refine ⟨by decide +kernel, ?_⟩
    unfold Ended
    decide +kernel
  refine ⟨hwaits, by decide +kernel, fun h => ?_⟩
  have hrestarted := h.restarted 0 0 _ _ hwaits (by rfl)
  exact absurd hrestarted (by decide +kernel)

end AbilityConnectManager
end AbilityRuntime
