import AbilityRuntime.Startup.DispatchOrder

/-! Beside the run of a dispatcher goes a record of what tasks did with the callbacks that they were
given: the contract of `RunTaskInit` is a condition on both. -/

open List

namespace AbilityRuntime.Startup

namespace Frame

def bad : Frame → Bool
  | .call _ result => result.map ResultPtr.resultCode ≠ some errOk
  | .callExtra _ _ result => result.map ResultPtr.resultCode ≠ some errOk
  | _ => false

end Frame

def CallbackFunc.dispatch? : CallbackFunc → Option String
  | .dispatch name => some name
  | _ => none

namespace StartupTaskDispatcher
open RunState

structure Watched where
  state : RunState
  inside : List String
  refused : List String
  called : List String
  dropped : List String

def starting : List Frame → Option String
  | .run (name :: _) :: _ => some name
  | .start _ _ (task :: _) :: _ => some task.name
  | _ => none

def entered (s s' : RunState) (inside : List String) : List String :=
  if s'.stack.head? = some .taskInit then (starting s.stack).toList ++ inside else inside

def ownNames (s : RunState) (index : ℕ) : List String :=
  ((s.held[index]?).getD []).filterMap CallbackFunc.dispatch?

def watch (d : StartupTaskDispatcher) (w : Watched) (a : Action) : Watched :=
  let state := step d w.state a
  match a with
  | .advance => { w with state, inside := entered w.state state w.inside }
  | .leave code =>
    if w.state.stack.head? = some .taskInit then
      { w with
        state
        inside := w.inside.tail
        refused := if code = errOk then w.refused else w.inside.take 1 ++ w.refused }
    else { w with state }
  | .complete index _ =>
    if outside w.state then { w with state, called := ownNames w.state index ++ w.called }
    else { w with state }
  | .drop index =>
    if outside w.state then { w with state, dropped := ownNames w.state index ++ w.dropped }
    else { w with state }
  | _ => { w with state }

def watched (s : RunState) : Watched := ⟨s, [], [], [], []⟩

def Obeys (w : Watched) : Action → Prop
  | .leave code => w.state.stack.head? = some .taskInit → ∀ name ∈ w.inside.head?,
      if code = errOk then name ∉ w.dropped else name ∉ w.called
  | .complete index _ => ∀ name ∈ ownNames w.state index, name ∉ w.refused
  | .drop index => ∀ name ∈ ownNames w.state index, name ∈ w.refused ∨ name ∈ w.inside
  | .release => w.state.log.any (·.isRan .completed) = true
  | _ => True

def ChildrenStart (w : Watched) (a : Action) : Prop :=
  match a, w.state.stack with
  | .advance, .start _ _ (task :: _) :: _ => (w.state.objects task.name).state ≠ .invalid
  | .leave _, .taskInit :: .run _ :: _ => True
  | .leave code, .taskInit :: _ => code = errOk
  | _, _ => True

def Idle (tasks : TaskMap) (w : Watched) : Prop :=
  w.state.stack = [] ∧ ∀ name ∈ tasks.keys, name ∉ w.refused →
    .dispatch name ∉ w.state.held.flatten ∧
      .dispatch name ∉ (w.state.objects name).extraCallbacks.flatten

def Decided (tasks : TaskMap) (w : Watched) : Prop :=
  w.state.returned = some errOk → Idle tasks w → w.state.log.any (·.isRan .completed) = true

instance (w : Watched) : ∀ a : Action, Decidable (Obeys w a)
  | .leave code => inferInstanceAs (Decidable (w.state.stack.head? = some .taskInit →
      ∀ name ∈ w.inside.head?, if code = errOk then name ∉ w.dropped else name ∉ w.called))
  | .complete index _ => inferInstanceAs (Decidable (∀ name ∈ ownNames w.state index, _))
  | .drop index => inferInstanceAs (Decidable (∀ name ∈ ownNames w.state index, _ ∨ _))
  | .release => inferInstanceAs (Decidable (_ = true))
  | .advance | .runPosted | .otherRun _ | .removeResult _ => instDecidableTrue

instance (w : Watched) : ∀ a : Action, Decidable (ChildrenStart w a)
  | .advance => by
    unfold ChildrenStart
    split <;> infer_instance
  | .leave code => by
    unfold ChildrenStart
    split <;> infer_instance
  | .complete .. | .drop _ | .runPosted | .otherRun _ | .removeResult _ | .release =>
    instDecidableTrue

instance (tasks : TaskMap) (w : Watched) : Decidable (Idle tasks w) := by
  unfold Idle
  infer_instance

instance (tasks : TaskMap) (w : Watched) : Decidable (Decided tasks w) := by
  unfold Decided
  infer_instance

section Extends
variable {d : StartupTaskDispatcher} {s s' s'' : RunState}

structure Extends (s s' : RunState) : Prop where
  log : s.log ⊆ s'.log
  returned : (∀ f ∈ s.stack, f.isRun = false) →
    (∀ f ∈ s'.stack, f.isRun = false) ∧ s'.returned = s.returned

lemma Extends.refl (s : RunState) : Extends s s := ⟨.refl _, fun h => ⟨h, rfl⟩⟩

lemma Extends.trans (h : Extends s s') (h' : Extends s' s'') : Extends s s'' := by
  refine ⟨List.Subset.trans h.log h'.log, fun hrun => ?_⟩
  obtain ⟨hrun', hreturned⟩ := h.returned hrun
  obtain ⟨hrun'', hreturned'⟩ := h'.returned hrun'
  exact ⟨hrun'', hreturned'.trans hreturned⟩

variable (s)

lemma extends_callOnCompleted (which : Completion) (result : ResultPtr) :
    Extends s (s.callOnCompleted which result) := by
  unfold RunState.callOnCompleted
  split
  · exact .refl s
  · split_ifs
    · exact .refl s
    · exact ⟨subset_cons_self _ _, fun hrun => ⟨forall_mem_cons.mpr ⟨rfl, hrun⟩, rfl⟩⟩

lemma extends_step (a : Action) : Extends s (step d s a) := by
  by_cases hfunc : ∀ code, a = .leave code → ∀ which stack, s.stack ≠ .func which :: stack
  · obtain ⟨t, hmoves, hcalls⟩ := acts_step (d := d) hfunc
    have ht : Extends s t := ⟨hmoves.log, hmoves.runs⟩
    rcases hcalls with hsame | ⟨which, result, hcalled⟩
    · rwa [hsame]
    · rw [hcalled]
      exact ht.trans (extends_callOnCompleted t which result)
  · push Not at hfunc
    obtain ⟨code, rfl, which, stack, hstack⟩ := hfunc
    simp only [step, leave, hstack]
    exact ⟨.refl _, fun hrun => ⟨(forall_mem_cons.mp (hstack ▸ hrun)).2, rfl⟩⟩

variable {s}

def Closed (s : RunState) : Prop :=
  s.log.any (·.isRan .completed) = true ∨
    (∀ f ∈ s.stack, f.isRun = false) ∧ ∃ code, s.returned = some code ∧ code ≠ errOk

lemma Closed.extends (h : Closed s) (he : Extends s s') : Closed s' := by
  rcases h with hran | ⟨hrun, code, hreturned, hcode⟩
  · obtain ⟨e, hmem, he'⟩ := any_eq_true.mp hran
    exact .inl (any_eq_true.mpr ⟨e, he.log hmem, he'⟩)
  · obtain ⟨hrun', hreturned'⟩ := he.returned hrun
    exact .inr ⟨hrun', code, hreturned'.trans hreturned, hcode⟩

end Extends

end StartupTaskDispatcher
end AbilityRuntime.Startup
