import Mathlib.Data.List.Basic
import Mathlib.Data.List.Induction

/-! A store that is written key by key. -/

namespace LastWrite
open List
variable {K V : Type*} [DecidableEq K]

def write (f : K → V) (w : K × V) : K → V := Function.update f w.1 w.2

def last (k : K) (ws : List (K × V)) : Option V :=
  ((ws.filter fun w => w.1 = k).getLast?).map Prod.snd

lemma last_append_singleton (k : K) (ws : List (K × V)) (w : K × V) :
    last k (ws ++ [w]) = if w.1 = k then some w.2 else last k ws := by
  rw [last, filter_append]
  split_ifs with h
  · rw [filter_cons_of_pos (by simpa using h), filter_nil, getLast?_concat]
    rfl
  · rw [filter_cons_of_neg (by simpa using h), filter_nil, append_nil]
    rfl

lemma foldl_write (f : K → V) (ws : List (K × V)) (k : K) :
    ws.foldl write f k = (last k ws).getD (f k) := by
  induction ws using List.reverseRecOn with
  | nil => rfl
  | append_singleton ws w ih =>
    rw [foldl_concat, last_append_singleton, write, Function.update_apply]
    by_cases h : w.1 = k
    · rw [if_pos h, if_pos h.symm]
      rfl
    · rw [if_neg h, if_neg (Ne.symm h), ih]

lemma last_eq_none {k : K} {ws : List (K × V)} : last k ws = none ↔ ∀ w ∈ ws, w.1 ≠ k := by
  rw [last, Option.map_eq_none_iff, getLast?_eq_none_iff, filter_eq_nil_iff]
  simp

theorem foldl_write_eq_iff {ws ws' : List (K × V)} (h : ws.Perm ws') (f : K → V) :
    ws.foldl write f = ws'.foldl write f ↔ ∀ k, last k ws = last k ws' := by
  constructor
  · intro heq k
    have hk := congrFun heq k
    rw [foldl_write, foldl_write] at hk
    have hnone : last k ws = none ↔ last k ws' = none := by
      rw [last_eq_none, last_eq_none]
      exact forall_congr' fun w => by rw [h.mem_iff]
    cases hw : last k ws with
    | none => exact (hnone.mp hw).symm
    | some v =>
      cases hw' : last k ws' with
      | none => rw [hnone.mpr hw'] at hw; cases hw
      | some v' =>
        rw [hw, hw'] at hk
        exact congrArg some hk
  · intro hlast
    funext k
    rw [foldl_write, foldl_write, hlast k]

end LastWrite
