import Mathlib.Data.List.Basic

/-! Runs of a step function over a list of operations whose every step meets a condition on the
state before it, and the simulation of one run by another. -/

namespace Runs
variable {S T O : Type*} {step : S → O → S} {ok : S → O → Prop}

def Guarded (step : S → O → S) (ok : S → O → Prop) : S → List O → Prop
  | _, [] => True
  | s, o :: os => ok s o ∧ Guarded step ok (step s o) os

instance instDecidableGuarded [∀ s o, Decidable (ok s o)] :
    ∀ (s : S) (ops : List O), Decidable (Guarded step ok s ops)
  | _, [] => isTrue trivial
  | s, o :: os =>
    have := instDecidableGuarded (step s o) os
    inferInstanceAs (Decidable (ok s o ∧ Guarded step ok (step s o) os))

lemma guarded_append (s : S) (as bs : List O) :
    Guarded step ok s (as ++ bs) ↔ Guarded step ok s as ∧ Guarded step ok (as.foldl step s) bs := by
  induction as generalizing s with
  | nil => simp [Guarded]
  | cons a as ih => simp [Guarded, ih, and_assoc]

variable {s : S} {ops : List O}

lemma Guarded.invariant {I : S → Prop} (hstep : ∀ s o, I s → ok s o → I (step s o))
    (hg : Guarded step ok s ops) (h : I s) : I (ops.foldl step s) := by
  induction ops generalizing s with
  | nil => exact h
  | cons o os ih => exact ih hg.2 (hstep s o h hg.1)

theorem guarded_iff_forall_take_of {I P : S → Prop} (hstep : ∀ s o, I s → ok s o → I (step s o))
    (hok : ∀ s o, I s → P (step s o) → ok s o) (hP : ∀ s, I s → P s) (h : I s) (ops : List O) :
    (∀ n, P ((ops.take n).foldl step s)) ↔ Guarded step ok s ops := by
  induction ops generalizing s with
  | nil => simpa [Guarded] using hP s h
  | cons o os ih =>
    constructor
    · intro hall
      have hfirst : ok s o := hok s o h (by simpa using hall 1)
      refine ⟨hfirst, (ih (hstep s o h hfirst)).1 fun n => ?_⟩
      simpa using hall (n + 1)
    · rintro ⟨hfirst, hrest⟩ n
      cases n with
      | zero => exact hP s h
      | succ n => simpa using (ih (hstep s o h hfirst)).2 hrest n

lemma guarded_iff_forall_take {I : S → Prop} (hstep : ∀ s o, I s → (I (step s o) ↔ ok s o))
    (h : I s) (ops : List O) :
    (∀ n, I ((ops.take n).foldl step s)) ↔ Guarded step ok s ops :=
  guarded_iff_forall_take_of (fun s o hs => (hstep s o hs).2) (fun s o hs => (hstep s o hs).1)
    (fun _ hs => hs) h ops

lemma Guarded.and {ok' : S → O → Prop} (h : Guarded step ok s ops) (h' : Guarded step ok' s ops) :
    Guarded step (fun s o => ok s o ∧ ok' s o) s ops := by
  induction ops generalizing s with
  | nil => trivial
  | cons o os ih => exact ⟨⟨h.1, h'.1⟩, ih h.2 h'.2⟩

lemma Guarded.imp {ok' : S → O → Prop} {I : S → Prop} (hstep : ∀ s o, I s → I (step s o))
    (himp : ∀ s o, I s → ok s o → ok' s o) (hg : Guarded step ok s ops) (h : I s) :
    Guarded step ok' s ops := by
  induction ops generalizing s with
  | nil => trivial
  | cons o os ih => exact ⟨himp s o h hg.1, ih hg.2 (hstep s o h)⟩

lemma simulation {step' : T → O → T} {R : S → T → Prop}
    (hstep : ∀ s t o, R s t → R (step s o) (step' t o)) {t : T} (h : R s t) (ops : List O) :
    R (ops.foldl step s) (ops.foldl step' t) := by
  induction ops generalizing s t with
  | nil => exact h
  | cons o os ih => exact ih (hstep s t o h)

end Runs
