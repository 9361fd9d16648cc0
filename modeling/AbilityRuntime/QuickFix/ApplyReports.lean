import AbilityRuntime.Library.Runs
import AbilityRuntime.QuickFix.ApplyStages

/-! A stage of a quick-fix task goes over to one stage more or tells the result, and success is told
after the patch was switched and deleted. -/

open Option

namespace AbilityRuntime.QuickFix
open Bool Ledger

namespace QuickFixManagerService
open List Nat

def isStage (id : ℕ) (e : QueuedEvent) : Bool := e.applyTask = id && e.posted ≠ .timeoutTask

def isAwaited (id : ℕ) (c : Callback) : Bool := c.applyTask = id && c.held && !c.answered

def isWatching (id : ℕ) (o : AppStateObserver) : Bool := o.applyTask = id && o.registered

def isNotice (id : ℕ) : Note → Bool
  | .notified id' _ _ => id' = id
  | .succeeded _ _ => false

section
variable (s : QuickFixManagerService)

def notices (id : ℕ) : ℕ := s.log.countP (isNotice id)

def stages (id : ℕ) : ℕ :=
  s.events.countP (isStage id) + s.callbacks.countP (isAwaited id) +
    s.observers.countP (isWatching id) + s.notices id

def watches (id : ℕ) : Bool :=
  (s.task id).appStateCallback.any fun observer => s.observers[observer]?.any (isWatching id)

def Asks (id : ℕ) (method : CallbackMethod) : Prop :=
  (∃ e ∈ s.events, e.applyTask = id ∧ e.posted = .request method) ∨
    ∃ c ∈ s.callbacks, c.applyTask = id ∧ c.asked = method

structure Known (s : QuickFixManagerService) : Prop where
  events : ∀ e ∈ s.events, e.applyTask < s.tasks.length
  callbacks : ∀ c ∈ s.callbacks, c.applyTask < s.tasks.length
  observers : ∀ o ∈ s.observers, o.applyTask < s.tasks.length
  log : ∀ id code event, .notified id code event ∈ s.log → id < s.tasks.length

structure Does (id : ℕ) (xs : List Stage) (s t : QuickFixManagerService) : Prop where
  stages : ∀ j, t.stages j ≤ s.stages j + if j = id then xs.length else 0
  asks : ∀ j m, t.Asks j m → s.Asks j m ∨ j = id ∧ .asks m ∈ xs
  log : t.log = s.log ∨ ∃ code, ∃ task : QuickFixManagerApplyTask, .tells code ∈ xs ∧
    t.log = s.log ++ [.notified id code (task.resultEvent code)]
  taskType : ∀ j, (t.task j).taskType = (s.task j).taskType
  length : t.tasks.length = s.tasks.length
  known : Known s → id < s.tasks.length → Known t
  watches : s.watches id = true → t.watches id = true

end

variable {s t u : QuickFixManagerService} {id : ℕ}

lemma Does.refl (id : ℕ) (s : QuickFixManagerService) : Does id [] s s where
  stages j := by simp
  asks j m h := .inl h
  log := .inl rfl
  taskType _ := rfl
  length := rfl
  known h _ := h
  watches h := h

lemma Does.log_eq (h : Does id [] s t) : t.log = s.log := by
  rcases h.log with hlog | ⟨code, event, hmem, -⟩
  · exact hlog
  · cases hmem

variable {xs : List Stage}

lemma Does.after (h : Does id [] s t) (h' : Does id xs t u) : Does id xs s u where
  stages j := by
    have h₁ := h.stages j
    have h₂ := h'.stages j
    simp only [length_nil, ite_self] at h₁
    omega
  asks j m hu := by
    rcases h'.asks j m hu with ht | hx
    · rcases h.asks j m ht with hs | ⟨-, hx⟩
      · exact .inl hs
      · cases hx
    · exact .inr hx
  log := h.log_eq ▸ h'.log
  taskType j := (h'.taskType j).trans (h.taskType j)
  length := h'.length.trans h.length
  known hk hid := h'.known (h.known hk hid) (h.length ▸ hid)
  watches hs := h'.watches (h.watches hs)

lemma Does.before (h : Does id xs s t) (h' : Does id [] t u) : Does id xs s u where
  stages j := by
    have h₁ := h.stages j
    have h₂ := h'.stages j
    simp only [length_nil, ite_self] at h₂
    omega
  asks j m hu := by
    rcases h'.asks j m hu with ht | ⟨-, hx⟩
    · exact h.asks j m ht
    · cases hx
  log := h'.log_eq ▸ h.log
  taskType j := (h'.taskType j).trans (h.taskType j)
  length := h'.length.trans h.length
  known hk hid := h'.known (h.known hk hid) (h.length ▸ hid)
  watches hs := h'.watches (h.watches hs)

lemma does_modifyTask {f : QuickFixManagerApplyTask → QuickFixManagerApplyTask}
    (htype : (f (s.task id)).taskType = (s.task id).taskType)
    (hcall : (f (s.task id)).appStateCallback = (s.task id).appStateCallback) :
    Does id [] s (s.modifyTask id f) where
  stages j := by simp [modifyTask, stages, notices]
  asks j m h := .inl h
  log := .inl rfl
  taskType j := by
    rw [task_modifyTask]
    split_ifs with h
    · rw [← h.1, htype]
    · rfl
  length := length_modify ..
  known hk _ := by
    have hlen : (s.modifyTask id f).tasks.length = s.tasks.length := length_modify ..
    exact ⟨fun e he => hlen ▸ hk.events e he, fun c hc => hlen ▸ hk.callbacks c hc,
      fun o ho => hlen ▸ hk.observers o ho, fun j c ev hn => hlen ▸ hk.log j c ev hn⟩
  watches h := by
    unfold watches at h ⊢
    have hsame : ((s.modifyTask id f).task id).appStateCallback = (s.task id).appStateCallback := by
      rw [task_modifyTask]
      split
      · exact hcall
      · rfl
    rw [hsame]
    exact h

section
variable (s id)

lemma does_notifyAndRemove (code : QuickFixCode) :
    Does id [.tells code] s (s.notifyAndRemove id code) where
  stages j := by
    simp only [notifyAndRemove, notifyApplyStatus, removeSelf, stages, notices, countP_append,
      countP_singleton, isNotice, length_singleton, decide_eq_true_eq, eq_comm (a := id)]
    omega
  asks j m h := .inl h
  log := .inr ⟨code, _, mem_singleton_self _, rfl⟩
  taskType _ := rfl
  length := rfl
  known hk hid := by
    refine { hk with log := fun j c ev hn => ?_ }
    rcases mem_append.mp hn with hn | hn
    · exact hk.log j c ev hn
    · obtain ⟨rfl, -⟩ := Note.notified.inj (mem_singleton.mp hn)
      exact hid
  watches h := h

lemma does_postTask (posted : Posted) (delay : ℕ) :
    Does id posted.stages s (s.postTask id posted delay) where
  stages j := by
    have hcount := (perm_postTask s id posted delay).countP_eq (isStage j)
    have hone : (if isStage j ⟨s.now + delay, id, posted⟩ = true then 1 else 0) ≤
        if j = id then posted.stages.length else 0 := by
      cases posted <;> simp [isStage, Posted.stages, eq_comm (a := id)]
    rw [countP_cons] at hcount
    simp only [stages, notices]
    show _ + List.countP _ s.callbacks + List.countP _ s.observers + List.countP _ s.log ≤ _
    omega
  asks j m h := by
    rcases h with ⟨e, he, hj, hm⟩ | h
    · rcases mem_cons.mp ((perm_postTask s id posted delay).mem_iff.mp he) with rfl | he
      · obtain rfl : posted = .request m := hm
        exact .inr ⟨hj.symm, mem_singleton_self _⟩
      · exact .inl (.inl ⟨e, he, hj, hm⟩)
    · exact .inl (.inr h)
  log := .inl rfl
  taskType _ := rfl
  length := rfl
  known hk hid := by
    refine { hk with events := fun e he => ?_ }
    rcases mem_cons.mp ((perm_postTask s id posted delay).mem_iff.mp he) with rfl | he
    · exact hid
    · exact hk.events e he
  watches h := h

lemma does_removeTimeoutTask : Does id [] s s.removeTimeoutTask where
  stages j := by
    have hcount : s.removeTimeoutTask.events.countP (isStage j) ≤ s.events.countP (isStage j) :=
      filter_sublist.countP_le
    simp only [stages, notices]
    show _ + List.countP _ s.callbacks + List.countP _ s.observers + List.countP _ s.log ≤ _
    omega
  asks j m h := by
    rcases h with ⟨e, he, h⟩ | h
    · exact .inl (.inl ⟨e, (mem_filter.mp he).1, h⟩)
    · exact .inl (.inr h)
  log := .inl rfl
  taskType _ := rfl
  length := rfl
  known hk _ := { hk with events := fun e he => hk.events e (mem_filter.mp he).1 }
  watches h := h

lemma does_handOver (kind : CallbackClass) (asked : CallbackMethod) : Does id [.asks asked] s
      { s with callbacks := s.callbacks ++ [⟨id, kind, asked, true, false⟩] } where
  stages j := by
    simp only [stages, notices, countP_append, countP_singleton, isAwaited,
      length_singleton, eq_comm (a := id), Bool.and_true, Bool.not_false, decide_eq_true_eq]
    omega
  asks j m h := by
    rcases h with h | ⟨c, hc, hj, hm⟩
    · exact .inl (.inl h)
    · rcases mem_append.mp hc with hc | hc
      · exact .inl (.inr ⟨c, hc, hj, hm⟩)
      · obtain rfl := mem_singleton.mp hc
        exact .inr ⟨hj.symm, hm ▸ mem_singleton_self _⟩
  log := .inl rfl
  taskType _ := rfl
  length := rfl
  known hk hid := by
    refine { hk with callbacks := fun c hc => ?_ }
    rcases mem_append.mp hc with hc | hc
    · exact hk.callbacks c hc
    · obtain rfl := mem_singleton.mp hc
      exact hid
  watches h := h

lemma does_register : Does id [.watches] s (s.regAppStateObserver id 0) where
  stages j := by
    simp only [regAppStateObserver, ne_eq, not_true_eq_false, if_false, modifyTask, stages, notices,
      countP_append, countP_singleton, isWatching, length_singleton,
      eq_comm (a := id), Bool.and_true, decide_eq_true_eq]
    omega
  asks j m h := .inl h
  log := .inl rfl
  taskType j := by
    have htask : (s.regAppStateObserver id 0).task j = (s.modifyTask id fun t =>
        { t with appStateCallback := some s.observers.length }).task j := rfl
    rw [htask, task_modifyTask]
    split <;> rfl
  length := length_modify ..
  known hk hid := by
    have hlen : (s.regAppStateObserver id 0).tasks.length = s.tasks.length := length_modify ..
    refine ⟨fun e he => hlen ▸ hk.events e he, fun c hc => hlen ▸ hk.callbacks c hc,
      fun o ho => hlen ▸ ?_, fun j c ev hn => hlen ▸ hk.log j c ev hn⟩
    rcases mem_append.mp ho with ho | ho
    · exact hk.observers o ho
    · obtain rfl := mem_singleton.mp ho
      exact hid
  watches h := by
    have hid : id < s.tasks.length := by
      by_contra hge
      simp [watches, task, getElem?_eq_none (Nat.not_lt.mp hge)] at h
    have htask : (s.regAppStateObserver id 0).task id = (s.modifyTask id fun t =>
        { t with appStateCallback := some s.observers.length }).task id := rfl
    rw [watches, htask, task_modifyTask, if_pos ⟨rfl, hid⟩]
    simp [regAppStateObserver, isWatching]

end

lemma Moves.does {x : Stage} (h : Moves id s x t) : Does id [x] s t := by
  induction h with
  | tells s code => exact does_notifyAndRemove s id code
  | posts s asked =>
    exact (does_postTask s id (.request asked) 0).before (does_postTask _ id .timeoutTask _)
  | @hands s kind asked _ => exact does_handOver s id kind asked
  | watches s => exact does_register s id
  | after htype hcall _ ih => exact (does_modifyTask htype hcall).after ih
  | timed _ ih => exact ih.before (does_postTask _ id .timeoutTask _)

def Goes (id : ℕ) (s t : QuickFixManagerService) : Prop :=
  ∃ xs, xs.length ≤ 1 ∧ (∀ x ∈ xs, s.Warrants id x) ∧ Does id xs s t

lemma Does.goes (h : Does id [] s t) : Goes id s t := ⟨[], zero_le 1, nofun, h⟩

lemma Does.goes_to {x : Stage} (h : Does id [x] s t) (hx : s.Warrants id x) : Goes id s t :=
  ⟨[x], Nat.le_refl 1, fun _ hy => mem_singleton.mp hy ▸ hx, h⟩

lemma Enters.goes (h : Enters id s t) : Goes id s t := by
  obtain ⟨x, hx, hmoves⟩ := h
  exact hmoves.does.goes_to hx

lemma Goes.removeTimeoutTask (h : Goes id s t) : Goes id s t.removeTimeoutTask := by
  obtain ⟨xs, hlen, hw, hdoes⟩ := h
  exact ⟨xs, hlen, hw, hdoes.before (does_removeTimeoutTask t id)⟩

variable {method : CallbackMethod}

lemma goes_call (kind : CallbackClass) {resultCode : ℤ} (result : Option QuickFixResult)
    (env : Answers) (hasked : s.Warrants id (.asks method))
    (hdone : resultCode = 0 → s.Succeeded id method) :
    Goes id s (s.call id kind method resultCode result env) := by
  cases hkind : kind.handles method with
  | false =>
    rw [call_of_not_handles hkind]
    exact (Does.refl id s).goes
  | true =>
    obtain ⟨t, henters, hcall⟩ := enters_call result env hkind hasked hdone
    rw [hcall]
    split
    · exact henters.goes.removeTimeoutTask
    · exact henters.goes

variable (s id) in
lemma goes_handleProcessDied (env : Answers) : Goes id s (s.handleProcessDied id env) := by
  cases hrun : env.isRunning with
  | true =>
    rw [handleProcessDied, if_pos hrun]
    exact (Does.refl id s).goes
  | false => exact (enters_handleProcessDied s id hrun).goes

lemma goes_handleEvent (e : QueuedEvent) (env : Answers)
    (h : ∀ m, e.posted = .request m → s.Warrants e.applyTask (.asks m)) :
    Goes e.applyTask s (s.handleEvent e env) := by
  obtain ⟨time, id, posted⟩ := e
  cases posted with
  | request m => exact (enters_runRequest env.ret (h m rfl)).goes
  | revokeTask =>
    unfold handleEvent
    dsimp only
    split
    · obtain ⟨t, henters, hrun⟩ := enters_runRevokeTask s id env
      rw [hrun]
      split
      · exact henters.goes.removeTimeoutTask
      · exact henters.goes
    · exact (Does.refl id s).goes
  | timeoutTask =>
    have htold : s.Warrants id (.tells .processTimeout) := trivial
    unfold handleEvent
    dsimp only
    split
    · exact (enters_notifyAndRemove htold).goes
    · exact (Does.refl id s).goes

def Earned (earlier : List Note) (n : Note) : Prop :=
  ∀ id code event, n = .notified id code event → event.result = getErrorCode code.toInt ∧
    (code = .ok → .succeeded id .onPatchSwitched ∈ earlier ∧
      .succeeded id .onPatchDeleted ∈ earlier)

structure Sound (s : QuickFixManagerService) : Prop where
  known : Known s
  asks : ∀ id m, s.Asks id m → s.Warrants id (.asks m)
  log : Ledger.Grounded Earned s.log

lemma sound_init : Sound init where
  known := ⟨nofun, nofun, nofun, fun _ _ _ h => by cases h⟩
  asks id m h := by
    rcases h with ⟨e, he, -⟩ | ⟨c, hc, -⟩
    · cases he
    · cases hc
  log := grounded_nil

lemma Does.subset_log (h : Does id xs s t) : ∀ n ∈ s.log, n ∈ t.log := by
  intro n hn
  rcases h.log with hlog | ⟨code, event, -, hlog⟩
  · exact hlog ▸ hn
  · exact hlog ▸ mem_append_left _ hn

lemma Sound.goes (h : Sound s) (hid : id < s.tasks.length) (hg : Goes id s t) : Sound t := by
  obtain ⟨xs, -, hw, hdoes⟩ := hg
  refine ⟨hdoes.known h.known hid, fun j m hj => ?_, ?_⟩
  · refine warrants_mono ?_ hdoes.subset_log (hdoes.taskType j)
    rcases hdoes.asks j m hj with hj | ⟨rfl, hm⟩
    · exact h.asks j m hj
    · exact hw _ hm
  · rcases hdoes.log with hlog | ⟨code, event, hcode, hlog⟩
    · exact hlog ▸ h.log
    · rw [hlog]
      refine h.log.concat fun id' code' event' heq => ?_
      obtain ⟨rfl, rfl, rfl⟩ := Note.notified.inj heq
      refine ⟨rfl, fun hok => ?_⟩
      subst hok
      exact hw _ hcode

lemma Goes.stages (h : Goes id s t) (j : ℕ) :
    t.stages j ≤ s.stages j + if j = id then 1 else 0 := by
  obtain ⟨xs, hlen, -, hdoes⟩ := h
  have hj := hdoes.stages j
  split at hj <;> rename_i hid
  · rw [if_pos hid]
    omega
  · rw [if_neg hid]
    omega

lemma Sound.of_asks (h : Sound s) (hk : Known t) (htasks : t.tasks = s.tasks)
    (hlog : t.log = s.log) (hasks : ∀ id m, t.Asks id m → s.Asks id m) : Sound t where
  known := hk
  asks id m hm := by
    refine warrants_mono (h.asks id m (hasks id m hm)) (fun n hn => hlog ▸ hn) ?_
    rw [task, task, htasks]
  log := hlog ▸ h.log

variable {e : QueuedEvent} {events : List QueuedEvent}

lemma Sound.pop (h : Sound s) (he : s.events = e :: events) :
    Sound { s with events := events } := by
  have hmem (e' : QueuedEvent) (he' : e' ∈ events) : e' ∈ s.events := he ▸ mem_cons_of_mem e he'
  refine h.of_asks ⟨fun e' he' => h.known.events e' (hmem e' he'), h.known.callbacks,
    h.known.observers, h.known.log⟩ rfl rfl fun id m hm => ?_
  rcases hm with ⟨e', he', hm⟩ | hm
  · exact .inl ⟨e', hmem e' he', hm⟩
  · exact .inr hm

lemma stages_pop (he : s.events = e :: events) (j : ℕ) :
    { s with events := events }.stages j + (if isStage j e then 1 else 0) = s.stages j := by
  simp only [stages, notices, he, countP_cons]
  omega

lemma Sound.goes_pop (h : Sound s) (he : s.events = e :: events) (env : Answers) :
    Goes e.applyTask { s with events := events }
    ({ s with events := events }.handleEvent e env) := by
  refine goes_handleEvent e env fun m hm => ?_
  refine warrants_mono (h.asks e.applyTask m (.inl ⟨e, ?_, rfl, hm⟩)) (fun n hn => hn) rfl
  exact he ▸ mem_cons_self ..

protected lemma Sound.runEvent (h : Sound s) (env : Answers) : Sound (s.runEvent env) := by
  unfold runEvent
  split
  · exact h
  · rename_i e events he
    split
    · refine (h.pop he).goes (h.known.events e ?_) (h.goes_pop he env)
      exact he ▸ mem_cons_self ..
    · exact h

variable {callback : ℕ} {f : Callback → Callback}

lemma asks_modify_callbacks (hf : ∀ c, (f c).applyTask = c.applyTask ∧ (f c).asked = c.asked)
    {m : CallbackMethod} (h : { s with callbacks := s.callbacks.modify callback f }.Asks id m) :
    s.Asks id m := by
  rcases h with h | ⟨c, hc, hid, hm⟩
  · exact .inl h
  · rcases mem_modify hc with hc | ⟨b, hb, rfl⟩
    · exact .inr ⟨c, hc, hid, hm⟩
    · exact .inr ⟨b, hb, (hf b).1 ▸ hid, (hf b).2 ▸ hm⟩

lemma Known.modify_callbacks (h : Known s) (hf : ∀ c, (f c).applyTask = c.applyTask)
    (callback : ℕ) :
    Known { s with callbacks := s.callbacks.modify callback f } := by
  refine { h with callbacks := fun c hc => ?_ }
  rcases mem_modify hc with hc | ⟨b, hb, rfl⟩
  · exact h.callbacks c hc
  · exact hf b ▸ h.callbacks b hb

lemma Sound.modify_callbacks (h : Sound s)
    (hf : ∀ c, (f c).applyTask = c.applyTask ∧ (f c).asked = c.asked) (callback : ℕ) :
    Sound { s with callbacks := s.callbacks.modify callback f } :=
  h.of_asks (h.known.modify_callbacks (fun c => (hf c).1) callback) rfl rfl
    fun _ _ => asks_modify_callbacks hf

protected lemma Sound.answer (h : Sound s) (callback id : ℕ) (method : CallbackMethod)
    (resultCode : ℤ) : Sound (s.answer callback id method resultCode) := by
  have hmid := h.modify_callbacks (f := fun c => { c with answered := true })
    (fun _ => ⟨rfl, rfl⟩) callback
  unfold answer
  split
  · refine ⟨⟨hmid.known.events, hmid.known.callbacks, hmid.known.observers, fun j c ev hn => ?_⟩,
      fun j m hm => ?_, h.log.concat fun _ _ _ hn => nomatch hn⟩
    · rcases mem_append.mp hn with hn | hn
      · exact hmid.known.log j c ev hn
      · cases mem_singleton.mp hn
    · exact warrants_mono (hmid.asks j m hm) (fun n hn => mem_append_left _ hn) rfl
  · exact hmid

variable (s) in
lemma stages_answer (callback id : ℕ) (method : CallbackMethod)
    (resultCode : ℤ) (j : ℕ) : (s.answer callback id method resultCode).stages j =
      { s with
        callbacks := s.callbacks.modify callback fun c =>
          { c with answered := true } }.stages j := by
  unfold answer
  split
  · simp only [stages, notices, countP_append, countP_singleton, isNotice,
      Bool.false_eq_true, if_false, Nat.add_zero]
  · rfl

variable {c : Callback}

lemma stages_modify_callbacks (hc : s.callbacks[callback]? = some c) (f : Callback → Callback)
    (j : ℕ) :
    { s with callbacks := s.callbacks.modify callback f }.stages j +
      (if isAwaited j c then 1 else 0) = s.stages j + if isAwaited j (f c) then 1 else 0 := by
  have hcount := countP_modify (p := isAwaited j) (f := f) hc
  simp only [stages, notices]
  omega

lemma stages_answer_add_le (hc : s.callbacks[callback]? = some c) (hheld : c.held = true)
    (hfirst : c.answered = false) (method : CallbackMethod) (resultCode : ℤ) (j : ℕ) :
    (s.answer callback c.applyTask method resultCode).stages j +
      (if j = c.applyTask then 1 else 0) ≤ s.stages j := by
  have hcount := stages_modify_callbacks hc (fun c => { c with answered := true }) j
  have hbefore : isAwaited j c = decide (j = c.applyTask) := by
    simp [isAwaited, hheld, hfirst, eq_comm]
  have hafter : isAwaited j { c with answered := true } = false := by simp [isAwaited]
  rw [hbefore, hafter] at hcount
  rw [stages_answer]
  simp only [decide_eq_true_eq, false_eq_true, if_false] at hcount
  omega

lemma Sound.warrants_answer (h : Sound s) (hc : s.callbacks[callback]? = some c) (resultCode : ℤ) :
    (s.answer callback c.applyTask c.asked resultCode).Warrants c.applyTask (.asks c.asked) ∧
      (resultCode = 0 →
        (s.answer callback c.applyTask c.asked resultCode).Succeeded c.applyTask c.asked) := by
  have hmem := mem_of_getElem? hc
  constructor
  · refine warrants_mono (h.asks c.applyTask c.asked (.inr ⟨c, hmem, rfl, rfl⟩))
      (fun n hn => ?_) rfl
    show n ∈ if resultCode = 0 then _ else _
    split
    · exact mem_append_left _ hn
    · exact hn
  · intro hok
    show _ ∈ if resultCode = 0 then _ else _
    rw [if_pos hok]
    exact mem_append_right _ (mem_singleton_self _)

lemma Sound.goes_answer (h : Sound s) (hc : s.callbacks[callback]? = some c) (resultCode : ℤ)
    (result : Option QuickFixResult) (env : Answers) :
    Goes c.applyTask (s.answer callback c.applyTask c.asked resultCode)
      ((s.answer callback c.applyTask c.asked resultCode).call c.applyTask c.kind c.asked resultCode
        result env) := by
  obtain ⟨hasked, hdone⟩ := h.warrants_answer hc resultCode
  exact goes_call c.kind result env hasked hdone

protected lemma Sound.invoke (h : Sound s) (resultCode : ℤ) (result : Option QuickFixResult)
    (env : Answers) (hfit : ∀ c, s.callbacks[callback]? = some c → method = c.asked) :
    Sound (s.invoke callback method resultCode result env) := by
  unfold invoke
  cases hc : s.callbacks[callback]? with
  | none => exact h
  | some c =>
    obtain rfl := hfit c hc
    dsimp only
    split
    · exact h
    · refine (h.answer callback c.applyTask c.asked resultCode).goes ?_
        (h.goes_answer hc resultCode result env)
      exact h.known.callbacks c (mem_of_getElem? hc)

protected lemma Sound.unregAppStateObserver (h : Sound s) (id : ℕ) (ret : ℤ) :
    Sound (s.unregAppStateObserver id ret) := by
  unfold unregAppStateObserver
  split
  · exact h
  · split
    · exact h
    · refine h.of_asks ⟨h.known.events, h.known.callbacks, fun o ho => ?_, h.known.log⟩ rfl rfl
        fun _ _ hm => hm
      rcases mem_modify ho with ho | ⟨o', ho', rfl⟩
      · exact h.known.observers o ho
      · exact h.known.observers o' ho'

variable (s id) in
lemma stages_unregAppStateObserver_le (ret : ℤ) (j : ℕ) :
    (s.unregAppStateObserver id ret).stages j ≤ s.stages j := by
  unfold unregAppStateObserver
  split
  · exact Nat.le_refl _
  · rename_i observer _
    split
    · exact Nat.le_refl _
    · have hcount := Ledger.countP_modify_le (l := s.observers) (p := isWatching j)
        (f := fun o => { o with registered := false }) (by simp [isWatching]) observer
      simp only [stages, notices]
      omega

lemma stages_unregAppStateObserver_add_le (h : s.watches id = true) (j : ℕ) :
    (s.unregAppStateObserver id 0).stages j + (if j = id then 1 else 0) ≤ s.stages j := by
  obtain ⟨observer, hcall, hany⟩ := (any_eq_true _ _).mp h
  obtain ⟨o, ho, hwatch⟩ := (any_eq_true _ _).mp hany
  have hcount := countP_modify (p := isWatching j) (f := fun o => { o with registered := false }) ho
  have hunreg : s.unregAppStateObserver id 0 = { s with
      observers := s.observers.modify observer fun o => { o with registered := false } } := by
    rw [unregAppStateObserver, hcall]
    rfl
  have hbefore : (if j = id then 1 else 0) ≤ if isWatching j o then 1 else 0 := by
    by_cases hj : j = id
    · simp [hj, hwatch]
    · simp [hj]
  have hafter : isWatching j { o with registered := false } = false := by simp [isWatching]
  rw [hafter] at hcount
  rw [hunreg]
  simp only [stages, notices, false_eq_true, if_false] at hcount ⊢
  omega

lemma Sound.lt_of_asks (h : Sound s) {m : CallbackMethod} (hm : s.Asks id m) :
    id < s.tasks.length := by
  rcases hm with ⟨e, he, rfl, -⟩ | ⟨c, hc, rfl, -⟩
  · exact h.known.events e he
  · exact h.known.callbacks c hc

lemma Known.stages_eq_zero (h : Known s) : s.stages s.tasks.length = 0 := by
  have hevents : s.events.countP (isStage s.tasks.length) = 0 := by
    refine countP_eq_zero.mpr fun e he hstage => ?_
    have hlt := h.events e he
    simp only [isStage, and_eq_true, decide_eq_true_eq] at hstage
    omega
  have hcallbacks : s.callbacks.countP (isAwaited s.tasks.length) = 0 := by
    refine countP_eq_zero.mpr fun c hc hawaited => ?_
    have hlt := h.callbacks c hc
    simp only [isAwaited, and_eq_true, decide_eq_true_eq] at hawaited
    omega
  have hobservers : s.observers.countP (isWatching s.tasks.length) = 0 := by
    refine countP_eq_zero.mpr fun o ho hwatching => ?_
    have hlt := h.observers o ho
    simp only [isWatching, and_eq_true, decide_eq_true_eq] at hwatching
    omega
  have hlog : s.log.countP (isNotice s.tasks.length) = 0 := by
    refine countP_eq_zero.mpr fun n hn hnotice => ?_
    cases n with
    | succeeded => cases hnotice
    | notified id code event =>
      have hlt := h.log id code event hn
      have heq : id = s.tasks.length := of_decide_eq_true hnotice
      omega
  simp [stages, notices, hevents, hcallbacks, hobservers, hlog]

protected lemma Sound.withTask (h : Sound s) (t : QuickFixManagerApplyTask) (type : TaskType) :
    Sound (s.withTask t type) := by
  have hlen := length_withTask s t type
  refine ⟨⟨fun e he => ?_, fun c hc => ?_, fun o ho => ?_, fun j c ev hn => ?_⟩,
    fun j m hm => ?_, h.log⟩
  · exact hlen ▸ lt_succ_of_lt (h.known.events e he)
  · exact hlen ▸ lt_succ_of_lt (h.known.callbacks c hc)
  · exact hlen ▸ lt_succ_of_lt (h.known.observers o ho)
  · exact hlen ▸ lt_succ_of_lt (h.known.log j c ev hn)
  · have hm' : s.Asks j m := hm
    have hj := h.lt_of_asks hm'
    refine warrants_mono (h.asks j m hm') (fun n hn => hn) ?_
    rw [withTask, task_modifyTask, if_neg fun heq => by omega]
    simp [addApplyTask, task, getElem?_append_left hj]

variable (s id) in
lemma goes_postRevokeQuickFixTask : Goes id s (s.postRevokeQuickFixTask id) :=
  ((does_postTask s id .revokeTask 0).before (does_postTask _ id .timeoutTask _)).goes_to trivial

section
variable (s)

def replyFits : QuickFixOp → Bool
  | .callback callback method _ _ _ => s.callbacks[callback]?.all fun c => method = c.asked
  | _ => true

def inTime : QuickFixOp → Bool
  | .runEvent _ =>
    match s.events with
    | [] => true
    | e :: events => e.posted ≠ .timeoutTask || s.now < e.handleTime ||
      !{ s with events := events }.isAlive e.applyTask || s.stages e.applyTask = 0
  | .callback callback _ _ _ _ => s.callbacks[callback]?.all fun c => !c.held || !c.answered
  | .processDied observer env => s.observers[observer]?.all fun o =>
    env.isRunning || s.watches o.applyTask && env.unregisterRet = 0
  | _ => true

end

protected lemma Sound.step (h : Sound s) {o : QuickFixOp} (hfit : s.replyFits o = true) :
    Sound (s.step o) := by
  have hnew (t : QuickFixManagerApplyTask) (type : TaskType) :
      s.tasks.length < (s.withTask t type).tasks.length := by
    rw [length_withTask]
    exact lt_succ_self _
  cases o with
  | applyQuickFix => exact (h.withTask _ _).goes (hnew _ _) (enters_applyQuickFix s).goes
  | revokeQuickFix bundleName patchExists isSoContained =>
    show Sound (s.revokeQuickFix bundleName patchExists isSoContained)
    unfold revokeQuickFix
    split
    · exact h
    · split
      · exact h
      · exact (h.withTask _ .quickFixRevoke).goes (hnew _ _) (goes_postRevokeQuickFixTask _ _)
  | runEvent env => exact h.runEvent env
  | elapse millis =>
    have hk : Known { s with now := s.now + millis } :=
      ⟨h.known.events, h.known.callbacks, h.known.observers, h.known.log⟩
    exact h.of_asks hk rfl rfl fun _ _ hm => hm
  | callback callback method resultCode result env =>
    refine h.invoke resultCode result env fun c hc => ?_
    exact of_decide_eq_true ((all_eq_true _ _).mp hfit c hc)
  | release callback =>
    exact h.modify_callbacks (f := fun c => { c with held := false }) (fun _ => ⟨rfl, rfl⟩) callback
  | processDied observer env =>
    unfold step
    dsimp only
    cases ho : s.observers[observer]? with
    | none => exact h
    | some o =>
      have hdied := h.goes (h.known.observers o (mem_of_getElem? ho))
        (goes_handleProcessDied s _ env)
      exact hdied.unregAppStateObserver _ env.unregisterRet

lemma Goes.stages_le_one (h : Goes id t u) (hone : ∀ j, s.stages j ≤ 1)
    (hroom : ∀ j, t.stages j + (if j = id then 1 else 0) ≤ s.stages j) (j : ℕ) :
    u.stages j ≤ 1 := by
  have hgoes := h.stages j
  have hj := hroom j
  have hs := hone j
  omega

variable {env : Answers}

lemma Sound.stages_runEvent (h : Sound s) (hone : ∀ j, s.stages j ≤ 1)
    (hfit : s.inTime (.runEvent env) = true) (j : ℕ) : (s.runEvent env).stages j ≤ 1 := by
  unfold runEvent
  cases he : s.events with
  | nil => exact hone j
  | cons e events =>
    dsimp only
    split
    · rename_i hdue
      have hpop := stages_pop he
      have hgoes := h.goes_pop he env
      by_cases htime : e.posted = .timeoutTask
      · -- a timeout takes no stage away, so there is none when it tells
        have hnone (k : ℕ) : { s with events := events }.stages k = s.stages k := by
          have hk := hpop k
          simp only [isStage, htime, ne_eq, not_true_eq_false, decide_false, Bool.and_false] at hk
          exact hk
        simp only [inTime, he, htime, ne_eq, not_true_eq_false, decide_false, Bool.false_or,
          or_eq_true, decide_eq_true_eq, Nat.not_lt.mpr hdue, not_eq_true'] at hfit
        rcases hfit with hdead | hzero
        · rw [handleEvent, htime]
          dsimp only
          rw [if_neg (by simp [hdead]), hnone]
          exact hone j
        · have hj := hgoes.stages j
          rw [hnone] at hj
          split_ifs at hj with heq
          · subst heq
            omega
          · have := hone j
            omega
      · refine hgoes.stages_le_one hone (fun k => ?_) j
        have hk := hpop k
        have hstage : isStage k e = decide (k = e.applyTask) := by
          simp [isStage, htime, eq_comm]
        rw [hstage] at hk
        simp only [decide_eq_true_eq] at hk
        omega
    · exact hone j

lemma Sound.stages_invoke (h : Sound s) (hone : ∀ j, s.stages j ≤ 1) {resultCode : ℤ}
    {result : Option QuickFixResult}
    (hreply : s.replyFits (.callback callback method resultCode result env) = true)
    (hfit : s.inTime (.callback callback method resultCode result env) = true) (j : ℕ) :
    (s.invoke callback method resultCode result env).stages j ≤ 1 := by
  unfold invoke
  cases hc : s.callbacks[callback]? with
  | none => exact hone j
  | some c =>
    obtain rfl : method = c.asked := of_decide_eq_true ((all_eq_true _ _).mp hreply c hc)
    have hfirst := (all_eq_true _ _).mp hfit c hc
    dsimp only
    split_ifs with hheld
    · exact hone j
    · have hheld' : c.held = true := by simpa using hheld
      have hanswered : c.answered = false := by simpa [hheld'] using hfirst
      exact (h.goes_answer hc resultCode result env).stages_le_one hone
        (stages_answer_add_le hc hheld' hanswered c.asked resultCode) j

lemma stages_onProcessDied (hone : ∀ j, s.stages j ≤ 1)
    (hfit : env.isRunning = true ∨ s.watches id = true ∧ env.unregisterRet = 0) (j : ℕ) :
    (s.onProcessDied id env).stages j ≤ 1 := by
  have hgoes := goes_handleProcessDied s id env
  unfold onProcessDied
  rcases hfit with hrun | ⟨hwatch, hret⟩
  · have hsame : s.handleProcessDied id env = s := by
      rw [handleProcessDied, if_pos hrun]
    rw [hsame]
    exact Nat.le_trans (stages_unregAppStateObserver_le s id _ j) (hone j)
  · have hbefore := hgoes.stages j
    obtain ⟨xs, -, -, hdoes⟩ := hgoes
    have hafter := stages_unregAppStateObserver_add_le (hdoes.watches hwatch) j
    have hs := hone j
    rw [hret]
    omega

lemma Sound.stages_step (h : Sound s) (hone : ∀ j, s.stages j ≤ 1) {o : QuickFixOp}
    (hreply : s.replyFits o = true) (hfit : s.inTime o = true) (j : ℕ) :
    (s.step o).stages j ≤ 1 := by
  have hnew (type : TaskType) {t : QuickFixManagerService} {task : QuickFixManagerApplyTask}
      (hgoes : Goes s.tasks.length (s.withTask task type) t) : t.stages j ≤ 1 := by
    have hj := hgoes.stages j
    have hsame : (s.withTask task type).stages j = s.stages j := rfl
    rw [hsame] at hj
    split_ifs at hj with heq
    · rw [heq, h.known.stages_eq_zero] at hj
      exact heq ▸ hj
    · exact Nat.le_trans hj (hone j)
  cases o with
  | applyQuickFix => exact hnew _ (enters_applyQuickFix s).goes
  | revokeQuickFix bundleName patchExists isSoContained =>
    show (s.revokeQuickFix bundleName patchExists isSoContained).stages j ≤ 1
    unfold revokeQuickFix
    split
    · exact hone j
    · split
      · exact hone j
      · exact hnew .quickFixRevoke (goes_postRevokeQuickFixTask _ _)
  | runEvent env => exact h.stages_runEvent hone hfit j
  | elapse millis => exact hone j
  | callback callback method resultCode result env => exact h.stages_invoke hone hreply hfit j
  | release callback =>
    have hcount := countP_modify_le (l := s.callbacks) (p := isAwaited j)
      (f := fun c => { c with held := false }) (by simp [isAwaited]) callback
    have hj := hone j
    simp only [step, stages, notices] at hj ⊢
    omega
  | processDied observer env =>
    unfold step
    dsimp only
    cases ho : s.observers[observer]? with
    | none => exact hone j
    | some o =>
      have hdied := (all_eq_true _ _).mp hfit o ho
      refine stages_onProcessDied hone ?_ j
      simpa using hdied

def runOps (ops : List QuickFixOp) : QuickFixManagerService := ops.foldl step init

def fits (s : QuickFixManagerService) (o : QuickFixOp) : Bool := s.replyFits o && s.inTime o

def Honest (s : QuickFixManagerService) : Prop :=
  ∀ earlier id event later, s.log = earlier ++ .notified id .ok event :: later →
    .succeeded id .onPatchSwitched ∈ earlier ∧ .succeeded id .onPatchDeleted ∈ earlier

lemma Sound.honest {s : QuickFixManagerService} (h : Sound s) : Honest s :=
  fun earlier id event later hlog => (h.log earlier _ later hlog id .ok event rfl).2 rfl

structure ReportsOnce (s : QuickFixManagerService) : Prop where
  once : ∀ id, s.notices id ≤ 1
  honest : Honest s

theorem runOps_reportsOnce (ops : List QuickFixOp)
    (h : Runs.Guarded step (fun s o => s.fits o = true) init ops) : ReportsOnce (runOps ops) := by
  have hinv := h.invariant (I := fun s => Sound s ∧ ∀ j, s.stages j ≤ 1) (fun s o hs hok => ?_)
    ⟨sound_init, fun _ => zero_le 1⟩
  · obtain ⟨hsound, hone⟩ := hinv
    exact ⟨fun id => Nat.le_trans (le_add_left _ _) (hone id), hsound.honest⟩
  · obtain ⟨hreply, hfit⟩ := and_eq_true_iff.mp hok
    exact ⟨hs.1.step hreply, hs.1.stages_step hs.2 hreply hfit⟩

def deployResult (isSoContained : Bool) : QuickFixResult :=
  ⟨some "com.example.app", some 1, some 2, some isSoContained, some .hotReload, some [some "entry"]⟩

def threeTasks : List QuickFixOp :=
  [.applyQuickFix, .runEvent {},
    .callback 0 .onPatchDeployed 0 (some (deployResult false)) { isRunning := true },
    .runEvent {}, .callback 1 .onPatchSwitched 0 none {}, .runEvent {},
    .callback 2 .onLoadPatchDone 0 none {}, .runEvent {}, .callback 3 .onPatchDeleted 0 none {},
    .runEvent {}, .callback 4 .onReloadPageDone 0 none {}, .applyQuickFix, .runEvent {},
    .callback 5 .onPatchDeployed 0 (some (deployResult true)) { isRunning := true },
    .processDied 0 {}, .runEvent {}, .callback 6 .onPatchSwitched 7 none {},
    .revokeQuickFix "com.example.app" true false, .runEvent {}, .release 7,
    .elapse timeoutTaskDelayTime, .runEvent {}]

theorem threeTasks_reportsOnce :
    ((runOps threeTasks).notices 0 = 1 ∧ (runOps threeTasks).notices 1 = 1 ∧
      (runOps threeTasks).notices 2 = 1) ∧ ReportsOnce (runOps threeTasks) :=
  ⟨by decide +kernel, runOps_reportsOnce threeTasks (by decide +kernel)⟩

def lateDeployment : List QuickFixOp :=
  [.applyQuickFix, .runEvent {}, .elapse timeoutTaskDelayTime, .runEvent {},
    .callback 0 .onPatchDeployed 0 (some (deployResult false)) {}, .runEvent {},
    .callback 1 .onPatchSwitched 0 none {}, .runEvent {}, .callback 2 .onPatchDeleted 0 none {}]

theorem lateDeployment_notified_twice :
    Runs.Guarded step (fun s o => s.replyFits o = true) init lateDeployment ∧
    ((runOps lateDeployment).log.filterMap fun n =>
      match n with
      | .notified id code _ => some (id, code)
      | .succeeded _ _ => none) = [(0, .processTimeout), (0, .ok)] ∧
    (runOps lateDeployment).notices 0 = 2 := by
  decide +kernel

theorem runOps_honest (ops : List QuickFixOp)
    (h : Runs.Guarded step (fun s o => s.replyFits o = true) init ops) : Honest (runOps ops) := by
  have hsound := h.invariant (I := Sound) (fun _ _ hs hok => hs.step hok) sound_init
  exact hsound.honest

theorem lateDeployment_honest : Honest (runOps lateDeployment) :=
  runOps_honest lateDeployment (by decide +kernel)

end QuickFixManagerService
end AbilityRuntime.QuickFix
