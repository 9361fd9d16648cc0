import Mathlib.Data.Nat.Digits.Lemmas

/-! Variable-length quantities: digits in a base, the lowest first, with a mark on every digit but
the last, and the sign in the lowest bit. -/

namespace Vlq
open List Nat

def digits (b n : ℕ) : List ℕ := if n = 0 then [0] else b.digits n

def mark (b : ℕ) : List ℕ → List ℕ
  | [] => []
  | [d] => [d]
  | d :: d' :: ds => (d + b) :: mark b (d' :: ds)

def write (b n : ℕ) : List ℕ := mark b (digits b n)

section Digits
variable {b n : ℕ}

lemma digits_ne_nil (b n : ℕ) : digits b n ≠ [] := by
  unfold digits
  split_ifs with h
  · simp
  · exact digits_ne_nil_iff_ne_zero.mpr h

lemma digits_lt (hb : 1 < b) : ∀ d ∈ digits b n, d < b := by
  unfold digits
  split_ifs
  · intro d hd
    rw [mem_singleton.mp hd]
    exact zero_lt_of_lt hb
  · exact fun d hd => digits_lt_base hb hd

lemma ofDigits_digits (b n : ℕ) : Nat.ofDigits b (digits b n) = n := by
  unfold digits
  split_ifs with h
  · simp [h]
  · exact Nat.ofDigits_digits b n

lemma length_digits_le (hb : 1 < b) {k : ℕ} (hk : 0 < k) (h : n < b ^ k) :
    (digits b n).length ≤ k := by
  unfold digits
  split_ifs
  · exact hk
  · exact (digits_length_le_iff hb n).mpr h

lemma mark_ne_nil {ds : List ℕ} (h : ds ≠ []) : mark b ds ≠ [] := by
  match ds, h with
  | [_], _ => simp [mark]
  | _ :: _ :: _, _ => simp [mark]

lemma mark_lt {ds : List ℕ} (h : ∀ d ∈ ds, d < b) : ∀ d ∈ mark b ds, d < 2 * b := by
  induction ds with
  | nil => simp [mark]
  | cons d ds ih =>
    obtain ⟨hd, hds⟩ := forall_mem_cons.mp h
    cases ds with
    | nil =>
      refine forall_mem_singleton.mpr ?_
      omega
    | cons d' ds => exact forall_mem_cons.mpr ⟨by omega, ih hds⟩

lemma write_ne_nil (b n : ℕ) : write b n ≠ [] := mark_ne_nil (digits_ne_nil b n)

lemma write_lt (hb : 1 < b) : ∀ d ∈ write b n, d < 2 * b := mark_lt (digits_lt hb)

end Digits

section Read
variable {C S R : Type*} {b bound width : ℕ} {char : ℕ → C} {run : List C → S → R} {acc : ℕ → ℕ → S}
  {fin : ℕ → S} (hmore : ∀ r k d cs, d < b → r + d * b ^ k < bound → k + 1 < width →
    run (char (d + b) :: cs) (acc r k) = run cs (acc (r + d * b ^ k) (k + 1)))
  (hlast : ∀ r k d cs, d < b → r + d * b ^ k < bound → k < width →
    run (char d :: cs) (acc r k) = run cs (fin (r + d * b ^ k)))
include hmore hlast

theorem run_mark {ds : List ℕ} (hne : ds ≠ []) (hds : ∀ d ∈ ds, d < b) {r k : ℕ}
    (hbound : r + b ^ k * Nat.ofDigits b ds < bound) (hwidth : k + ds.length ≤ width)
    (rest : List C) :
    run ((mark b ds).map char ++ rest) (acc r k) =
      run rest (fin (r + b ^ k * Nat.ofDigits b ds)) := by
  induction ds generalizing r k with
  | nil => exact absurd rfl hne
  | cons d ds ih =>
    obtain ⟨hd, hds'⟩ := forall_mem_cons.mp hds
    rw [ofDigits_cons] at hbound ⊢
    rw [length_cons] at hwidth
    -- the value with this digit is `r + d * b ^ k` and the weight goes up
    have hvalue : r + b ^ k * (d + b * ofDigits b ds) =
        r + d * b ^ k + b ^ (k + 1) * ofDigits b ds := by ring
    rw [hvalue] at hbound ⊢
    cases ds with
    | nil => exact hlast r k d rest hd hbound (by simpa using hwidth)
    | cons d' ds =>
      rw [length_cons] at hwidth
      have hstep := hmore r k d ((mark b (d' :: ds)).map char ++ rest) hd (by omega) (by omega)
      rw [mark, map_cons, cons_append, hstep]
      exact ih (cons_ne_nil _ _) hds' hbound (by rw [length_cons]; omega)

lemma run_write (hb : 1 < b) {n : ℕ} (hn : n < bound) (hwidth : (digits b n).length ≤ width)
    (rest : List C) :
    run ((write b n).map char ++ rest) (acc 0 0) = run rest (fin n) := by
  have hvalue : 0 + b ^ 0 * ofDigits b (digits b n) = n := by
    rw [ofDigits_digits, pow_zero, one_mul, zero_add]
  have hrun := run_mark hmore hlast (digits_ne_nil b n) (digits_lt hb)
    (by rwa [hvalue]) (by rwa [zero_add]) rest
  rw [hvalue] at hrun
  exact hrun

end Read

section Signed

def sign (v : ℤ) : ℕ := 2 * v.natAbs + if v < 0 then 1 else 0

lemma sign_div_two (v : ℤ) : sign v / 2 = v.natAbs := by
  unfold sign
  split_ifs <;> omega

lemma sign_mod_two (v : ℤ) : sign v % 2 = if v < 0 then 1 else 0 := by
  unfold sign
  split_ifs <;> omega

lemma sign_lt {v : ℤ} {m : ℕ} (h : v.natAbs < m) : sign v < 2 * m := by
  unfold sign
  split_ifs <;> omega

end Signed

end Vlq
