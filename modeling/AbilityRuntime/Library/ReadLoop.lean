import Mathlib.Data.List.Basic

/-! Counted read loops over a stream of items. -/

namespace ReadLoop
open List
variable {I S A : Type*}

def loop (read : S → List I → Option (S × List I)) : Nat → S → List I → Option (S × List I)
  | 0, s, p => some (s, p)
  | n + 1, s, p =>
    match read s p with
    | none => none
    | some (s, p) => loop read n s p

variable {read : S → List I → Option (S × List I)}

lemma loop_flatMap {write : A → List I} {put : S → A → S} (l : List A)
    (h : ∀ a ∈ l, ∀ s rest, read s (write a ++ rest) = some (put s a, rest)) (s : S)
    (rest : List I) : loop read l.length s (l.flatMap write ++ rest) =
    some (l.foldl put s, rest) := by
  induction l generalizing s with
  | nil => rfl
  | cons a l ih =>
    have hread := h a mem_cons_self s (l.flatMap write ++ rest)
    rw [flatMap_cons, append_assoc, length_cons, loop, hread]
    exact ih (fun a' ha' => h a' (mem_cons_of_mem _ ha')) (put s a)

lemma loop_flatMap_push {read : List A → List I → Option (List A × List I)} {write : A → List I}
    (l : List A) (h : ∀ a ∈ l, ∀ s rest, read s (write a ++ rest) = some (s ++ [a], rest))
    (rest : List I) : loop read l.length [] (l.flatMap write ++ rest) = some (l, rest) := by
  have hpush : ∀ (l acc : List A), l.foldl (fun acc a => acc ++ [a]) acc = acc ++ l := by
    intro l
    induction l with
    | nil => simp
    | cons a l ih => simp [ih]
  rw [loop_flatMap l h, hpush, nil_append]

lemma loop_invariant {P : Nat → S → Prop}
    (hread : ∀ i s p s' p', P i s → read s p = some (s', p') → P (i + 1) s') {n i : Nat}
    {s s' : S} {p p' : List I} (hs : P i s) (h : loop read n s p = some (s', p')) :
    P (i + n) s' := by
  induction n generalizing i s p with
  | zero =>
    cases h
    exact hs
  | succ n ih =>
    rw [loop] at h
    cases hr : read s p with
    | none => simp [hr] at h
    | some out =>
      obtain ⟨s₁, p₁⟩ := out
      rw [hr] at h
      have hnext := ih (hread i s p s₁ p₁ hs hr) h
      rwa [Nat.add_right_comm] at hnext

end ReadLoop
