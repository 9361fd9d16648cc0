import Mathlib.Data.List.Basic

/-! Texts put together from parts with separators between them. -/

namespace Separators
open List
variable {α : Type*}

def Breaks (p : α → Prop) (t : List α) : Prop := ∀ a ∈ t.head?, p a

lemma breaks_nil {p : α → Prop} : Breaks p [] := by
  intro a ha
  cases ha

lemma breaks_cons {p : α → Prop} {a : α} {t : List α} (ha : p a) : Breaks p (a :: t) := by
  intro b hb
  cases hb
  exact ha

lemma append_inj_of_breaks {p : α → Prop} {l l' t t' : List α} (hl : ∀ a ∈ l, ¬ p a)
    (hl' : ∀ a ∈ l', ¬ p a) (ht : Breaks p t) (ht' : Breaks p t') (heq : l ++ t = l' ++ t') :
    l = l' ∧ t = t' := by
  induction l generalizing l' with
  | nil =>
    cases l' with
    | nil => exact ⟨rfl, heq⟩
    | cons b l' =>
      have hb : b ∈ t.head? := congrArg head? heq
      exact absurd (ht b hb) (hl' b mem_cons_self)
  | cons a l ih =>
    cases l' with
    | nil =>
      have ha : a ∈ t'.head? := congrArg head? heq.symm
      exact absurd (ht' a ha) (hl a mem_cons_self)
    | cons b l' =>
      obtain ⟨rfl, hrest⟩ := cons.inj heq
      have hin := fun c hc => hl c (mem_cons_of_mem a hc)
      have hin' := fun c hc => hl' c (mem_cons_of_mem a hc)
      obtain ⟨rfl, rfl⟩ := ih hin hin' hrest
      exact ⟨rfl, rfl⟩

lemma append_cons_inj {a : α} {l l' t t' : List α} (hl : a ∉ l) (hl' : a ∉ l')
    (heq : l ++ a :: t = l' ++ a :: t') : l = l' ∧ t = t' := by
  have hne : ∀ {k : List α}, a ∉ k → ∀ b ∈ k, ¬ b = a := by
    rintro k hk b hb rfl
    exact hk hb
  obtain ⟨hfirst, hrest⟩ :=
    append_inj_of_breaks (hne hl) (hne hl') (breaks_cons rfl) (breaks_cons rfl) heq
  exact ⟨hfirst, (cons.inj hrest).2⟩

section LastOccurrence
variable [DecidableEq α]

def rfind? (a : α) : List α → Option ℕ
  | [] => none
  | b :: l =>
    match rfind? a l with
    | some pos => some (pos + 1)
    | none => if b = a then some 0 else none

lemma rfind?_eq_none {a : α} {l : List α} (h : a ∉ l) : rfind? a l = none := by
  induction l with
  | nil => rfl
  | cons b l ih =>
    rw [mem_cons, not_or] at h
    rw [rfind?, ih h.2]
    exact if_neg fun hb => h.1 hb.symm

lemma rfind?_append_cons {a : α} (l : List α) {t : List α} (h : a ∉ t) :
    rfind? a (l ++ a :: t) = some l.length := by
  induction l with
  | nil =>
    rw [nil_append, rfind?, rfind?_eq_none h]
    exact if_pos rfl
  | cons b l ih => rw [cons_append, rfind?, ih, length_cons]

def cutLast (a : α) (l : List α) : List α :=
  match rfind? a l with
  | none => l
  | some pos => l.take pos

lemma exists_cutLast_append (a : α) (l : List α) : ∃ rest, cutLast a l ++ rest = l := by
  unfold cutLast
  split
  · exact ⟨[], append_nil l⟩
  · exact ⟨_, take_append_drop ..⟩

lemma cutLast_of_notMem {a : α} {l : List α} (h : a ∉ l) : cutLast a l = l := by
  rw [cutLast, rfind?_eq_none h]

lemma cutLast_append_cons {a : α} (l : List α) {t : List α} (h : a ∉ t) :
    cutLast a (l ++ a :: t) = l := by
  rw [cutLast, rfind?_append_cons l h]
  exact take_left

end LastOccurrence

end Separators
