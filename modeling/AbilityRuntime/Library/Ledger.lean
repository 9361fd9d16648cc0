import Mathlib.Data.List.Basic

/-! Ledgers as lists: how a count of entries changes with one of them, and ledgers whose
every entry rests on the entries before it. -/

namespace Ledger
open List
variable {A : Type*} {l : List A} {p : A → Bool} {f : A → A}

lemma countP_modify {i : ℕ} {a : A} (h : l[i]? = some a) :
    (l.modify i f).countP p + (if p a then 1 else 0) = l.countP p + if p (f a) then 1 else 0 := by
  induction l generalizing i with
  | nil => simp at h
  | cons b l ih =>
    cases i with
    | zero =>
      obtain rfl : b = a := by simpa using h
      simp only [modify_zero_cons, countP_cons]
      omega
    | succ i =>
      have hl := ih (by simpa using h)
      simp only [modify_succ_cons, countP_cons]
      omega

lemma countP_modify_le (hf : ∀ a, p (f a) = true → p a = true) (i : ℕ) :
    (l.modify i f).countP p ≤ l.countP p := by
  cases hi : l[i]? with
  | none =>
    have hsame := modify_eq_self (f := f) (getElem?_eq_none_iff.mp hi)
    exact Nat.le_of_eq (congrArg (countP p) hsame)
  | some a =>
    have hcount := countP_modify (p := p) (f := f) hi
    have hone : (if p (f a) then 1 else 0) ≤ if p a then 1 else 0 := by
      by_cases hp : p (f a) = true
      · simp [hp, hf a hp]
      · simp [hp]
    omega

lemma mem_modify {i : ℕ} {a : A} (h : a ∈ l.modify i f) : a ∈ l ∨ ∃ b ∈ l, a = f b := by
  obtain ⟨k, hk⟩ := mem_iff_getElem?.mp h
  rw [getElem?_modify] at hk
  cases hb : l[k]? with
  | none => simp [hb] at hk
  | some b =>
    have hmem := mem_of_getElem? hb
    simp only [hb, Option.map_eq_map, Option.map_some, Option.some.injEq] at hk
    split at hk
    · exact .inr ⟨b, hmem, hk.symm⟩
    · exact .inl (hk ▸ hmem)

lemma getD_modify (f : A → A) (k j : ℕ) (d : A) :
    (l.modify k f).getD j d = if k = j ∧ j < l.length then f (l.getD j d) else l.getD j d := by
  simp only [getD_eq_getElem?_getD, getElem?_modify]
  cases hj : l[j]? with
  | none =>
    have hge := getElem?_eq_none_iff.mp hj
    rw [if_neg fun h => absurd h.2 (Nat.not_lt.mpr hge)]
    rfl
  | some a =>
    have hlt : j < l.length := (List.getElem?_eq_some_iff.mp hj).1
    by_cases hk : k = j
    · simp [hlt]
    · simp [hk]

lemma getD_concat_default (l : List A) (j : ℕ) (d : A) : (l ++ [d]).getD j d = l.getD j d := by
  simp only [getD_eq_getElem?_getD]
  rcases Nat.lt_or_ge j l.length with hlt | hge
  · rw [getElem?_append_left hlt]
  · rw [getElem?_append_right hge, getElem?_eq_none hge]
    cases j - l.length <;> rfl

lemma any_modify {i : ℕ} (h : ∀ a, l[i]? = some a → p (f a) = p a) :
    (l.modify i f).any p = l.any p := by
  induction l generalizing i with
  | nil => rw [modify_nil]
  | cons b l ih =>
    cases i with
    | zero => rw [modify_zero_cons, any_cons, any_cons, h b rfl]
    | succ i =>
      have hl := ih fun a ha => h a (by simpa using ha)
      rw [modify_succ_cons, any_cons, any_cons, hl]

def Grounded (need : List A → A → Prop) (l : List A) : Prop :=
  ∀ before a after, l = before ++ a :: after → need before a

variable {need : List A → A → Prop}

lemma grounded_nil : Grounded need [] := by
  intro before a after h
  cases before <;> cases h

lemma Grounded.concat (h : Grounded need l) {a : A} (ha : need l a) : Grounded need (l ++ [a]) := by
  intro before b after heq
  rcases append_eq_append_iff.mp heq with ⟨more, rfl, hmore⟩ | ⟨more, rfl, hmore⟩
  · -- `b` is the new entry, as only that one is left after `l`
    cases more with
    | nil =>
      obtain ⟨rfl, -⟩ := cons.inj hmore
      rwa [append_nil]
    | cons c more => simp at hmore
  · cases more with
    | nil =>
      obtain ⟨rfl, -⟩ := cons.inj hmore
      rwa [append_nil] at ha
    | cons c more =>
      obtain ⟨rfl, -⟩ := cons.inj hmore
      exact h before b more rfl

end Ledger
