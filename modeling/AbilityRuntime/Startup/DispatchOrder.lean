import AbilityRuntime.Library.Runs
import AbilityRuntime.Startup.DispatchSteps

/-! A run of the dispatcher respects the dependencies. `OnCompletedCallback::Call` marks itself as
called only after its function returned. -/

namespace AbilityRuntime.Startup.StartupTaskDispatcher
open RunState List StartupTopologySort

section Moves
variable {d : StartupTaskDispatcher} {s₀ s s' : RunState}

def ranCount (s : RunState) (which : Completion) : ℕ := s.log.countP (·.isRan which)

structure Moves (s s' : RunState) : Prop where
  stack : ∀ f ∈ s'.stack, f ∈ s.stack ∨ f.isFunc = false
  runs : (∀ f ∈ s.stack, f.isRun = false) →
    (∀ f ∈ s'.stack, f.isRun = false) ∧ s'.returned = s.returned
  callback : s'.callback = s.callback
  log : s.log ⊆ s'.log
  ran : ∀ which, ranCount s' which = ranCount s which

def Acts (s s' : RunState) : Prop :=
  ∃ t, Moves s t ∧ (s' = t ∨ ∃ which result, s' = t.callOnCompleted which result)

def outward (s : RunState) := (s.callback, s.returned, s.log)

namespace Moves

variable (s) in
lemma refl : Moves s s := ⟨fun _ => .inl, fun h => ⟨h, rfl⟩, rfl, .refl _, fun _ => rfl⟩

section
variable (h : Moves s₀ s)
include h

lemma trans (h' : Moves s s') : Moves s₀ s' where
  stack f hf := (h'.stack f hf).elim (h.stack f) .inr
  runs hrun := by
    obtain ⟨hrun', hreturned⟩ := h.runs hrun
    exact ⟨(h'.runs hrun').1, (h'.runs hrun').2.trans hreturned⟩
  callback := h'.callback.trans h.callback
  log := List.Subset.trans h.log h'.log
  ran which := (h'.ran which).trans (h.ran which)

lemma keep (hrest : outward s' = outward s) (hstack : ∀ g ∈ s'.stack, g ∈ s.stack ∨
      g.isFunc = false ∧ ((∀ f ∈ s.stack, f.isRun = false) → g.isRun = false)) :
    Moves s₀ s' := by
  simp only [outward, Prod.mk.injEq] at hrest
  obtain ⟨hcallback, hreturned, hlog⟩ := hrest
  refine h.trans ⟨fun g hg => (hstack g hg).imp_right And.left, fun hrun => ⟨fun g hg => ?_,
    hreturned⟩, hcallback, hlog ▸ .refl _, fun which => by rw [ranCount, ranCount, hlog]⟩
  exact (hstack g hg).elim (hrun g) fun hnew => hnew.2 hrun

lemma same (hrest : outward s' = outward s) (hstack : s'.stack = s.stack) : Moves s₀ s' :=
  h.keep hrest fun _ hg => .inl (hstack ▸ hg)

variable {f : Frame} {stack : List Frame}

lemma push (hf : f.isFunc = false ∧ f.isRun = false) (hrest : outward s' = outward s)
    (hstack : s'.stack = f :: s.stack) : Moves s₀ s' := by
  refine h.keep hrest fun g hg => ?_
  rw [hstack] at hg
  rcases mem_cons.mp hg with rfl | hg
  · exact .inr ⟨hf.1, fun _ => hf.2⟩
  · exact .inl hg

lemma pop (hstack : s.stack = f :: s'.stack) (hrest : outward s' = outward s) : Moves s₀ s' :=
  h.keep hrest fun _ hg => .inl (hstack ▸ mem_cons_of_mem _ hg)

lemma top {f' : Frame} (hstack : s.stack = f :: stack) (hrest : outward s' = outward s)
    (hstack' : s'.stack = f' :: stack)
    (hf : f'.isFunc = false ∧ (f.isRun = false → f'.isRun = false)) : Moves s₀ s' := by
  refine h.keep hrest fun g hg => ?_
  rw [hstack'] at hg
  rw [hstack]
  rcases mem_cons.mp hg with rfl | hg
  · exact .inr ⟨hf.1, fun hrun => hf.2 (hrun f mem_cons_self)⟩
  · exact .inl (mem_cons_of_mem _ hg)

lemma logged {e : Event} (he : ∀ which, e.isRan which = false) :
    Moves s₀ { s with log := e :: s.log } :=
  h.trans ⟨fun _ => .inl, fun hrun => ⟨hrun, rfl⟩, rfl, subset_cons_self _ _,
    fun which => countP_cons_of_neg (by simp [he which])⟩

lemma returns {names : List String} {code : Int32}
    (hstack : s.stack = .run names :: stack) :
    Moves s₀ { s with stack, returned := some code } := by
  refine h.trans ⟨fun f hf => .inl (hstack ▸ mem_cons_of_mem _ hf), fun hrun => ?_, rfl,
    .refl _, fun _ => rfl⟩
  exact absurd (hrun (.run names) (hstack ▸ mem_cons_self)) (by simp [Frame.isRun])

lemma fail {code : Int32} : Moves s₀ (s.fail code) := by
  unfold RunState.fail
  split
  · rename_i hstack
    exact h.returns hstack
  · rename_i hstack
    exact h.pop hstack rfl
  · exact h

variable {name : String}

protected lemma runTaskInit {task : StartupTask} : Moves s₀ (runTaskInit s name task) := by
  have hstarted : Moves s₀ { s with log := .started name :: s.log } := h.logged fun _ => rfl
  unfold runTaskInit
  dsimp only
  split
  · exact hstarted.push ⟨rfl, rfl⟩ rfl rfl
  · exact hstarted.push ⟨rfl, rfl⟩ rfl rfl
  · exact hstarted.same rfl rfl
  · exact hstarted.fail

protected lemma runNext : Moves s₀ (runNext d s name) := by
  unfold runNext
  split
  · exact h.runTaskInit
  · exact h.fail

lemma acts : Acts s₀ s := ⟨s, h, .inl rfl⟩

variable {result : ResultPtr}

lemma calls {which : Completion} : Acts s₀ (s.callOnCompleted which result) :=
  ⟨s, h, .inr ⟨which, result, rfl⟩⟩

lemma reportError : Acts s₀ (s.reportError result) := by
  unfold RunState.reportError
  refine calls ?_
  exact h.push ⟨rfl, rfl⟩ rfl rfl

lemma onErrorResult : Acts s₀ (s.onErrorResult name result) := by
  unfold RunState.onErrorResult
  refine Moves.reportError ?_
  exact h.same rfl rfl

lemma onErrorCode {code : Int32} {message : String} :
    Acts s₀ (s.onErrorCode code message) := by
  unfold RunState.onErrorCode
  refine Moves.reportError ?_
  exact h.same rfl rfl

protected lemma dispatch {result : Option ResultPtr} : Acts s₀ (dispatch d s name result) := by
  have hlogged : Moves s₀ { s with
      log := .dispatched name (result.map ResultPtr.resultCode) :: s.log } :=
    h.logged fun _ => rfl
  unfold dispatch
  split
  · exact hlogged.onErrorCode
  · split_ifs
    · exact hlogged.onErrorResult
    · split
      · unfold notifyChildren
        split
        · exact hlogged.onErrorCode
        · split
          · exact hlogged.onErrorCode
          · exact acts (hlogged.push ⟨rfl, rfl⟩ rfl rfl)
      · exact hlogged.onErrorCode

protected lemma callFunc {result : Option ResultPtr} {func : CallbackFunc} :
    Acts s₀ (callFunc d s result func) := by
  unfold callFunc
  split
  · split_ifs
    · exact h.acts
    · exact h.dispatch
  · exact acts (h.push ⟨rfl, rfl⟩ rfl rfl)
  · exact h.acts

protected lemma notifyChild {child : String} {children : List String}
    {zeroInDegree : List StartupTask} :
    Acts s₀ (notifyChild d s name result child children zeroInDegree) := by
  unfold notifyChild
  split_ifs
  · exact h.onErrorCode
  · split
    · exact h.onErrorCode
    · exact h.onErrorCode
    · rename_i task hfind
      have hlower : Moves s₀ { s with
          stack := .lower name result child task children zeroInDegree :: s.stack } :=
        h.push ⟨rfl, rfl⟩ rfl rfl
      exact acts (hlower.push ⟨rfl, rfl⟩ rfl rfl)

protected lemma lowerAwaitCount : Acts s₀ (lowerAwaitCount d s name result) := by
  have hfinish : Moves s₀ { s with stack := .finish name result :: s.stack } :=
    h.push ⟨rfl, rfl⟩ rfl rfl
  unfold lowerAwaitCount
  dsimp only
  split
  · split_ifs
    · refine calls ?_
      exact hfinish.same rfl rfl
    · exact acts (hfinish.same rfl rfl)
    · exact hfinish.acts
  · exact hfinish.acts

protected lemma lowerTasksCount : Acts s₀ (lowerTasksCount s result) := by
  unfold lowerTasksCount
  dsimp only
  split_ifs
  · refine calls ?_
    exact h.same rfl rfl
  · exact acts (h.same rfl rfl)

end

end Moves

open Moves

variable (s)

lemma acts_advance : Acts s (advance d s) := by
  have h := refl s
  unfold advance
  split
  · exact h.acts
  · rename_i hstack
    exact acts (h.returns hstack)
  · rename_i hstack
    refine Moves.acts (Moves.runNext ?_)
    exact h.top hstack rfl rfl ⟨rfl, id⟩
  · rename_i hstack
    exact acts (h.pop hstack rfl)
  · rename_i hstack
    refine Moves.callFunc ?_
    exact h.top hstack rfl rfl ⟨rfl, id⟩
  · rename_i hstack
    exact acts (h.pop hstack rfl)
  · rename_i name callback callbacks result stack hstack
    have hrest : Moves s { s with stack := .callExtra name callbacks result :: stack } :=
      h.top hstack rfl rfl ⟨rfl, id⟩
    exact acts (hrest.push ⟨rfl, rfl⟩ rfl rfl)
  · rename_i hstack
    exact acts (h.top hstack rfl rfl ⟨rfl, id⟩)
  · rename_i hstack
    refine Moves.notifyChild ?_
    exact h.pop hstack rfl
  · rename_i hstack
    exact acts (h.top hstack rfl rfl ⟨rfl, id⟩)
  · rename_i hstack
    refine Moves.lowerAwaitCount ?_
    exact h.pop hstack rfl
  · rename_i hstack
    refine Moves.acts (Moves.runTaskInit ?_)
    exact h.top hstack rfl rfl ⟨rfl, id⟩
  · rename_i hstack
    refine Moves.lowerTasksCount ?_
    exact h.pop hstack rfl
  · rename_i hstack
    exact acts (h.pop hstack rfl)
  · exact h.acts
  · exact h.acts
  · exact h.acts

variable {s}

lemma acts_step {a : Action} (hfunc : ∀ code, a = .leave code →
    ∀ which stack, s.stack ≠ .func which :: stack) : Acts s (step d s a) := by
  have h := refl s
  cases a with
  | advance => exact acts_advance s
  | leave code =>
    dsimp only [step]
    unfold leave
    split
    · rename_i hstack
      split_ifs
      · exact acts (h.pop hstack rfl)
      · refine Moves.acts (Moves.fail ?_)
        exact h.pop hstack rfl
    · rename_i hstack
      exact acts (h.pop hstack rfl)
    · rename_i hstack
      exact absurd hstack (hfunc code rfl _ _)
    · exact h.acts
  | complete index result =>
    dsimp only [step]
    split_ifs
    · unfold complete
      split
      · exact h.acts
      · exact acts (h.push ⟨rfl, rfl⟩ rfl rfl)
    · exact h.acts
  | drop index =>
    dsimp only [step]
    split_ifs
    · exact acts (h.same rfl rfl)
    · exact h.acts
  | runPosted =>
    dsimp only [step]
    split_ifs
    · unfold runPosted
      split
      · exact h.acts
      · refine calls ?_
        exact h.same rfl rfl
    · exact h.acts
  | otherRun name =>
    dsimp only [step]
    split_ifs
    · unfold otherRun
      split
      · exact acts (h.same rfl rfl)
      · exact acts (h.same rfl rfl)
      · exact h.acts
    · exact h.acts
  | removeResult name =>
    dsimp only [step]
    split_ifs
    · exact acts (h.same rfl rfl)
    · exact h.acts
  | release => exact acts (h.same rfl rfl)

end Moves

section Once
variable {d : StartupTaskDispatcher} {s s' : RunState}

variable (s)

def QuietInFunc (a : Action) : Prop :=
  match a, s.stack with
  | .complete _ _, .func _ :: _ => False
  | _, _ => True

instance (s : RunState) (a : Action) : Decidable (QuietInFunc s a) := by
  unfold QuietInFunc
  split <;> infer_instance

def Settled (which : Completion) : Prop :=
  ranCount s which = 0 ∨ ranCount s which = 1 ∧ ∃ callback, s.callback which = some callback ∧
  callback.isCalled = true

structure Calm (s : RunState) : Prop where
  stack : ∀ f ∈ s.stack, f.isFunc = false
  settled : ∀ which, Settled s which

structure Running (s : RunState) (which : Completion) : Prop where
  stack : ∃ stack, s.stack = .func which :: stack ∧ ∀ f ∈ stack, f.isFunc = false
  ran : ranCount s which = 1
  called : ∃ callback, s.callback which = some callback
  settled : ∀ other, other ≠ which → Settled s other

def Once : Prop := Calm s ∨ ∃ which, Running s which

variable {s}

lemma Once.ranCount_le (h : Once s) (which : Completion) : ranCount s which ≤ 1 := by
  have hsettled : ∀ which, Settled s which → ranCount s which ≤ 1 := by
    rintro which (hnone | ⟨hone, -⟩)
    · exact hnone.le.trans (Nat.zero_le _)
    · exact hone.le
  rcases h with h | ⟨other, h⟩
  · exact hsettled which (h.settled which)
  · by_cases hother : which = other
    · rw [hother, h.ran]
    · exact hsettled which (h.settled which hother)

lemma Calm.moves (h : Calm s) (hm : Moves s s') : Calm s' := by
  refine ⟨fun f hf => (hm.stack f hf).elim (h.stack f) id, fun which => ?_⟩
  rw [Settled, hm.ran, hm.callback]
  exact h.settled which

section
variable (h : Calm s)
include h

lemma Calm.callOnCompleted (which : Completion) (result : ResultPtr) :
    Once (s.callOnCompleted which result) := by
  unfold RunState.callOnCompleted
  split
  · exact .inl h
  · rename_i callback hcallback
    split_ifs with hcalled
    · exact .inl h
    · have hran : ∀ other, ranCount { s with
          stack := .func which :: s.stack
          log := .ran which result.resultCode :: s.log } other =
            (if which = other then 1 else 0) + ranCount s other := by
        intro other
        rw [ranCount, countP_cons, Nat.add_comm]
        simp [ranCount, Event.isRan]
      refine .inr ⟨which, ⟨s.stack, rfl, h.stack⟩, ?_, ⟨callback, hcallback⟩,
        fun other hother => ?_⟩
      · rw [hran, if_pos rfl]
        rcases h.settled which with hnone | ⟨-, callback', hcallback', hdone⟩
        · rw [hnone]
        · rw [hcallback, Option.some.injEq] at hcallback'
          rw [hcallback', hdone] at hcalled
          exact absurd rfl hcalled
      · rw [Settled, hran, if_neg (Ne.symm hother), Nat.zero_add]
        exact h.settled other

lemma Calm.acts (ha : Acts s s') : Once s' := by
  obtain ⟨t, hmoves, rfl | ⟨which, result, rfl⟩⟩ := ha
  · exact .inl (h.moves hmoves)
  · exact (h.moves hmoves).callOnCompleted which result

lemma Calm.step (a : Action) : Once (step d s a) := by
  refine h.acts (acts_step fun code _ which stack hstack => ?_)
  exact absurd (h.stack (.func which) (hstack ▸ mem_cons_self)) (by simp [Frame.isFunc])

end

protected lemma Running.leave {which : Completion} (h : Running s which) (code : Int32) :
    Calm (leave s code) := by
  obtain ⟨stack, hstack, hquiet⟩ := h.stack
  obtain ⟨callback, hcallback⟩ := h.called
  unfold leave
  simp only [hstack]
  refine ⟨hquiet, fun other => ?_⟩
  by_cases hother : other = which
  · subst hother
    exact .inr ⟨h.ran, { callback with isCalled := true }, by simp [hcallback], rfl⟩
  · simp only [Settled, Function.update_of_ne hother]
    exact h.settled other hother

protected lemma Running.step {which : Completion} (h : Running s which) {a : Action}
    (hquiet : QuietInFunc s a) : Once (step d s a) := by
  obtain ⟨stack, hstack, -⟩ := h.stack
  have hsame : ∀ {s' : RunState}, s'.stack = s.stack → s'.callback = s.callback →
      s'.log = s.log → Once s' := by
    intro s' hstack' hcallback hlog
    have hran : ∀ other, ranCount s' other = ranCount s other :=
      fun other => by rw [ranCount, ranCount, hlog]
    refine .inr ⟨which, hstack' ▸ h.stack, (hran which).trans h.ran, hcallback ▸ h.called,
      fun other hother => ?_⟩
    rw [Settled, hran, hcallback]
    exact h.settled other hother
  have hbusy : s.stack.isEmpty = false := by rw [hstack]; rfl
  cases a with
  | advance =>
    have hstop : advance d s = s := by
      unfold StartupTaskDispatcher.advance
      simp [hstack]
    dsimp only [step]
    rw [hstop]
    exact hsame rfl rfl rfl
  | leave code => exact .inl (h.leave code)
  | complete index result => simp only [QuietInFunc, hstack] at hquiet
  | drop index =>
    dsimp only [step]
    split_ifs
    · exact hsame rfl rfl rfl
    · exact hsame rfl rfl rfl
  | runPosted =>
    simp only [step, hbusy]
    exact hsame rfl rfl rfl
  | otherRun name =>
    dsimp only [step]
    split_ifs
    · unfold otherRun
      split <;> exact hsame rfl rfl rfl
    · exact hsame rfl rfl rfl
  | removeResult name =>
    dsimp only [step]
    split_ifs <;> exact hsame rfl rfl rfl
  | release => exact hsame rfl rfl rfl

lemma Once.step (h : Once s) {a : Action} (hquiet : QuietInFunc s a) : Once (step d s a) := by
  rcases h with h | ⟨which, h⟩
  · exact h.step a
  · exact h.step hquiet

lemma once_run (w : World) (callback : Completion → Option OnCompletedCallback) :
    Once (run d w callback) := by
  have hcalm : ∀ {s : RunState}, (∀ f ∈ s.stack, f.isFunc = false) → s.log = [] → Calm s :=
    fun hstack hlog =>
    ⟨hstack, fun which => .inl (by rw [ranCount, hlog]; rfl)⟩
  unfold run runOn
  split
  · exact .inl (hcalm (by simp) rfl)
  · split
    · exact .inl (hcalm (by simp) rfl)
    · split_ifs
      · exact (hcalm (by simp [Frame.isFunc]) rfl).callOnCompleted _ _
      · exact .inl (hcalm (by simp [Frame.isFunc]) rfl)

end Once
section Order
variable {tasks : TaskMap}

lemma mem_doneNames {name : String} {log : List Event} :
    name ∈ doneNames log ↔ .dispatched name (some errOk) ∈ log := by
  rw [doneNames, mem_filterMap]
  constructor
  · rintro ⟨e, he, hdone⟩
    cases e with
    | dispatched n code =>
      simp only [Event.done?] at hdone
      split_ifs at hdone with hcode
      cases hdone
      rwa [hcode] at he
    | started n => exact absurd hdone (by simp [Event.done?])
    | ran which code => exact absurd hdone (by simp [Event.done?])
  · exact fun h => ⟨_, h, by simp [Event.done?]⟩

lemma count_started (log : List Event) (name : String) :
    log.count (.started name) = (startedNames log).count name := by
  induction log with
  | nil => rfl
  | cons e log ih =>
    cases e with
    | started n =>
      have hcons : startedNames (.started n :: log) = n :: startedNames log := rfl
      rw [hcons, count_cons, count_cons, ih]
      simp
    | dispatched n code => rw [count_cons_of_ne (by simp), ih]; rfl
    | ran which code => rw [count_cons_of_ne (by simp), ih]; rfl

lemma Sound.justified {later earlier : List Event} {e : Event}
    (h : Sound tasks (later ++ e :: earlier)) : Justified tasks earlier e := by
  induction later with
  | nil => exact h.1
  | cons _ _ ih => exact ih h.2

structure Respects (tasks : TaskMap) (s : RunState) : Prop where
  started_once : ∀ name, s.log.count (.started name) ≤ 1
  started_after : ∀ later name earlier, s.log = later ++ .started name :: earlier →
    ∀ dep ∈ tasks.deps name, .dispatched dep (some errOk) ∈ earlier
  completed_once : s.log.countP (·.isRan .completed) ≤ 1
  completed_after : ∀ later earlier, s.log = later ++ .ran .completed errOk :: earlier →
    ∀ name ∈ tasks.keys, .dispatched name (some errOk) ∈ earlier
  await_once : s.log.countP (·.isRan .mainThreadAwait) ≤ 1
  await_after : ∀ later earlier, s.log = later ++ .ran .mainThreadAwait errOk :: earlier →
    ∀ name ∈ tasks.keys, waits tasks name = true → .dispatched name (some errOk) ∈ earlier
  no_underflow : s.underflow = false

lemma Inv.respects {s : RunState} (h : Inv tasks s) (honce : Once s) : Respects tasks s where
  started_once name := by
    rw [count_started]
    exact nodup_iff_count_le_one.mp (nodup_append.mp h.graph.starts).2.1 name
  started_after later name earlier hlog dep hdep :=
    mem_doneNames.mp ((hlog ▸ h.sound : Sound tasks (later ++ .started name :: earlier)).justified.2
      dep hdep)
  completed_once := honce.ranCount_le .completed
  completed_after later earlier hlog name hname :=
    mem_doneNames.mp ((hlog ▸ h.sound : Sound tasks (later ++
      .ran .completed errOk :: earlier)).justified rfl name hname)
  await_once := honce.ranCount_le .mainThreadAwait
  await_after later earlier hlog name hname hwait :=
    mem_doneNames.mp
      ((hlog ▸ h.sound : Sound tasks (later ++ .ran .mainThreadAwait errOk :: earlier)).justified
        rfl name hname hwait)
  no_underflow := h.underflow

theorem run_respects_dependencies (tasks : TaskMap) (r : StartupSortResult) (hw : tasks.WellFormed)
    (hsort : sort tasks = some (.ok r)) (w : World)
    (callback : Completion → Option OnCompletedCallback) (actions : List Action)
    (hquiet : Runs.Guarded (step ⟨tasks, some r⟩) (fun s a => QuietInFunc s a ∧ Apart s a)
      (run ⟨tasks, some r⟩ w callback) actions) :
    Respects tasks (actions.foldl (step ⟨tasks, some r⟩) (run ⟨tasks, some r⟩ w callback)) := by
  have hd : Prepared ⟨tasks, some r⟩ := ⟨hw, r, rfl, (sort_ok hw.named hw.counts hsort).1⟩
  obtain ⟨hinv, honce⟩ := hquiet.invariant (I := fun s => Inv tasks s ∧ Once s)
    (fun s a h ha => ⟨h.1.step hd ha.2, h.2.step ha.1⟩) ⟨inv_run hd w callback, once_run w callback⟩
  exact hinv.respects honce

def createdWorld : World where
  objects _ := ⟨.created, none, []⟩
  held := []
  messages := []
  held_other := by simp
  extra_other := by simp
  saving := by simp

def bothCallbacks (_ : Completion) : Option OnCompletedCallback := some ⟨true, false⟩

def pairTasks : TaskMap :=
  (SortedMap.empty.emplace "a" (some { name := "a", dependencies := [] })).emplace
    "b" (some { name := "b", dependencies := ["a", "a"] })

def pairResult : StartupSortResult :=
  ⟨["a"], (SortedMap.empty.emplace "a" ["b", "b"]).emplace "b" []⟩

def pairActions : List Action :=
  [.advance, .complete 0 (some (errOk, "")), .advance, .advance, .advance, .advance,
    .leave errOk, .advance,
    .advance, .leave errOk, .advance, .advance, .advance, .complete 0 (some (errOk, "")), .advance,
    .advance, .advance,
    .advance, .advance, .advance, .advance, .leave errOk, .advance, .leave errOk, .advance,
    .leave errOk, .advance, .leave errOk, .advance]

theorem pair_respects_dependencies : pairTasks.WellFormed ∧
    sort pairTasks = some (.ok pairResult) ∧
    Runs.Guarded (step ⟨pairTasks, some pairResult⟩) (fun s a => QuietInFunc s a ∧ Apart s a)
      (run ⟨pairTasks, some pairResult⟩ createdWorld bothCallbacks) pairActions ∧
    Respects pairTasks (pairActions.foldl (step ⟨pairTasks, some pairResult⟩)
      (run ⟨pairTasks, some pairResult⟩ createdWorld bothCallbacks)) :=
  ⟨by decide, by decide, by decide, run_respects_dependencies pairTasks pairResult (by decide)
    (by decide) createdWorld bothCallbacks pairActions (by decide)⟩

def twoTasks : TaskMap :=
  (SortedMap.empty.emplace "a" (some { name := "a", dependencies := [] })).emplace
    "b" (some { name := "b", dependencies := [] })

def twoResult : StartupSortResult := ⟨["a", "b"], (SortedMap.empty.emplace "a" []).emplace "b" []⟩

def failingActions : List Action :=
  [.advance, .leave errOk, .advance, .leave errOk, .advance,
    .complete 0 (some (errStartupFailedToExecuteStartup, "first")), .advance, .advance, .advance,
    .complete 0 (some (errStartupFailedToExecuteStartup, "second")), .advance, .advance, .advance]

theorem completed_runs_twice : twoTasks.WellFormed ∧
    sort twoTasks = some (.ok twoResult) ∧
    (failingActions.foldl (step ⟨twoTasks, some twoResult⟩)
      (run ⟨twoTasks, some twoResult⟩ createdWorld bothCallbacks)).log =
      [.ran .completed errStartupFailedToExecuteStartup,
        .dispatched "b" (some errStartupFailedToExecuteStartup),
       .ran .completed errStartupFailedToExecuteStartup,
       .dispatched "a" (some errStartupFailedToExecuteStartup), .started "b", .started "a"] := by
  decide

theorem run_starts_in_order (tasks : TaskMap) (r : StartupSortResult) (hw : tasks.WellFormed)
    (hsort : sort tasks = some (.ok r)) (w : World)
    (callback : Completion → Option OnCompletedCallback) (actions : List Action)
    (hapart : Runs.Guarded (step ⟨tasks, some r⟩) Apart (run ⟨tasks, some r⟩ w callback) actions) :
    let s := actions.foldl (step ⟨tasks, some r⟩) (run ⟨tasks, some r⟩ w callback)
    s.underflow = false ∧ (∀ name, s.log.count (.started name) ≤ 1) ∧
      ∀ later name earlier, s.log = later ++ .started name :: earlier →
        ∀ dep ∈ tasks.deps name, .dispatched dep (some errOk) ∈ earlier := by
  have hd : Prepared ⟨tasks, some r⟩ := ⟨hw, r, rfl, (sort_ok hw.named hw.counts hsort).1⟩
  have hinv := hapart.invariant (I := Inv tasks) (fun _ _ h ha => h.step hd ha)
    (inv_run hd w callback)
  refine ⟨hinv.underflow, fun name => ?_, fun later name earlier hlog dep hdep => ?_⟩
  · rw [count_started]
    exact nodup_iff_count_le_one.mp (nodup_append.mp hinv.graph.starts).2.1 name
  · have hsound : Sound tasks (later ++ .started name :: earlier) := hlog ▸ hinv.sound
    exact mem_doneNames.mp (hsound.justified.2 dep hdep)

theorem failing_starts_in_order : twoTasks.WellFormed ∧ sort twoTasks = some (.ok twoResult) ∧
    (failingActions.foldl (step ⟨twoTasks, some twoResult⟩)
      (run ⟨twoTasks, some twoResult⟩ createdWorld bothCallbacks)).underflow = false :=
  ⟨by decide, by decide, (run_starts_in_order twoTasks twoResult (by decide) (by decide)
    createdWorld bothCallbacks failingActions (by decide)).1⟩

end Order

end AbilityRuntime.Startup.StartupTaskDispatcher
