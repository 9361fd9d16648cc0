import Mathlib.Data.Finset.Sort

/-! Finite maps as the list of their pairs in key order. The raw list operations come first, since a
nested inductive type can only store the list. -/

open Option

namespace KeyList
open List
variable {K V W : Type*}

section Lookup
variable [DecidableEq K]

def find? (k : K) : List (K × V) → Option V
  | [] => none
  | p :: l => if p.1 = k then some p.2 else find? k l

def contains (k : K) (l : List (K × V)) : Bool := (find? k l).isSome

def modify (k : K) (f : V → V) (l : List (K × V)) : List (K × V) :=
  l.map fun p => if p.1 = k then (p.1, f p.2) else p

def erase (k : K) (l : List (K × V)) : List (K × V) := l.filter fun p => p.1 ≠ k

end Lookup

def traverse (f : K → V → Option W) (l : List (K × V)) : List (K × W) :=
  l.filterMap fun p => (f p.1 p.2).map fun w => (p.1, w)

def emplace [LinearOrder K] (k : K) (v : V) : List (K × V) → List (K × V)
  | [] => [(k, v)]
  | p :: l => if k < p.1 then (k, v) :: p :: l else if p.1 = k then p :: l else p :: emplace k v l

def Sorted [LT K] (l : List (K × V)) : Prop := l.Pairwise fun a b => a.1 < b.1

section Lookup
variable [DecidableEq K]

@[simp] lemma find?_nil (k : K) : find? k ([] : List (K × V)) = none := rfl

lemma find?_cons (k : K) (p : K × V) (l : List (K × V)) :
    find? k (p :: l) = if p.1 = k then some p.2 else find? k l := rfl

variable {k : K} {l : List (K × V)}

lemma mem_of_find? {v : V} (h : find? k l = some v) : (k, v) ∈ l := by
  induction l with
  | nil => simp at h
  | cons p l ih =>
    rw [find?_cons] at h
    split_ifs at h with hk
    · cases h
      subst hk
      exact mem_cons_self
    · exact mem_cons_of_mem _ (ih h)

lemma find?_eq_none : find? k l = none ↔ ∀ p ∈ l, p.1 ≠ k := by
  induction l with
  | nil => simp
  | cons p l ih =>
    rw [find?_cons]
    by_cases hk : p.1 = k
    · simp [hk]
    · simp [hk, ih]

lemma find?_modify (k k' : K) (f : V → V) (l : List (K × V)) :
    find? k' (modify k f l) = if k = k' then (find? k' l).map f else find? k' l := by
  induction l with
  | nil => simp [modify]
  | cons p l ih =>
    have htail : modify k f (p :: l) = (if p.1 = k then (p.1, f p.2) else p) :: modify k f l := rfl
    rw [htail, find?_cons, find?_cons, ih]
    by_cases hp : p.1 = k
    · by_cases hk : k = k'
      · subst hk
        simp [hp]
      · simp [hp, hk]
    · by_cases hk : k = k'
      · subst hk
        simp [hp]
      · simp [hp, hk]

lemma find?_filter (q : K → Bool) (k : K) (l : List (K × V)) :
    find? k (l.filter fun p => q p.1) = if q k then find? k l else none := by
  induction l with
  | nil => simp
  | cons p l ih =>
    rw [filter_cons, find?_cons]
    by_cases hp : q p.1 = true
    · rw [if_pos hp, find?_cons, ih]
      by_cases hk : p.1 = k
      · subst hk
        simp [hp]
      · simp [hk]
    · rw [if_neg hp, ih]
      by_cases hk : p.1 = k
      · subst hk
        simp [hp]
      · simp [hk]

lemma find?_erase (k k' : K) (l : List (K × V)) :
    find? k' (erase k l) = if k = k' then none else find? k' l := by
  rw [erase, find?_filter fun key => decide (key ≠ k)]
  by_cases hk : k = k'
  · simp [hk]
  · simp [hk, Ne.symm hk]

lemma find?_append_singleton (k : K) (p : K × V) (l : List (K × V)) :
    find? k (l ++ [p]) = (find? k l).or (if p.1 = k then some p.2 else none) := by
  induction l with
  | nil => rfl
  | cons q l ih =>
    rw [cons_append, find?_cons, find?_cons, ih]
    split_ifs <;> rfl

lemma modify_keys (k : K) (f : V → V) (l : List (K × V)) :
    (modify k f l).map Prod.fst = l.map Prod.fst := by
  rw [modify, List.map_map]
  apply map_congr_left
  intro p _
  by_cases hp : p.1 = k <;> simp [hp]

lemma modify_of_forall_ne {f : V → V} (h : ∀ p ∈ l, p.1 ≠ k) : modify k f l = l := by
  have hid : ∀ p ∈ l, (if p.1 = k then (p.1, f p.2) else p) = p := fun p hp => if_neg (h p hp)
  rw [modify, map_congr_left hid, List.map_id']

lemma erase_of_forall_ne (h : ∀ p ∈ l, p.1 ≠ k) : erase k l = l :=
  filter_eq_self.mpr fun p hp => by simpa using h p hp

lemma modify_split {v : V} {f : V → V} {l₁ l₂ : List (K × V)} (h₁ : ∀ p ∈ l₁, p.1 ≠ k)
    (h₂ : ∀ p ∈ l₂, p.1 ≠ k) : modify k f (l₁ ++ (k, v) :: l₂) = l₁ ++ (k, f v) :: l₂ := by
  have hleft : modify k f l₁ = l₁ := modify_of_forall_ne h₁
  have hright : modify k f l₂ = l₂ := modify_of_forall_ne h₂
  simp only [modify, map_append, map_cons, if_true] at hleft hright ⊢
  rw [hleft, hright]

lemma erase_split {v : V} {l₁ l₂ : List (K × V)} (h₁ : ∀ p ∈ l₁, p.1 ≠ k)
    (h₂ : ∀ p ∈ l₂, p.1 ≠ k) : erase k (l₁ ++ (k, v) :: l₂) = l₁ ++ l₂ := by
  have hleft : erase k l₁ = l₁ := erase_of_forall_ne h₁
  have hright : erase k l₂ = l₂ := erase_of_forall_ne h₂
  simp only [erase, filter_append, filter_cons, ne_eq, not_true_eq_false, decide_false,
    Bool.false_eq_true, if_false] at hleft hright ⊢
  rw [hleft, hright]

end Lookup

section Order
variable [LinearOrder K] {p : K × V} {l : List (K × V)}

lemma Sorted.of_cons (h : Sorted (p :: l)) : Sorted l := List.Pairwise.of_cons h

lemma Sorted.head_lt {q : K × V} (h : Sorted (p :: l)) (hq : q ∈ l) :
    p.1 < q.1 := rel_of_pairwise_cons h hq

variable {k : K} {v : V}

lemma find?_eq_some (h : Sorted l) : find? k l = some v ↔ (k, v) ∈ l := by
  refine ⟨mem_of_find?, ?_⟩
  induction l with
  | nil => simp
  | cons p l ih =>
    intro hm
    rw [find?_cons]
    rcases mem_cons.mp hm with rfl | hm
    · simp
    · have hlt := h.head_lt hm
      rw [if_neg (ne_of_lt hlt)]
      exact ih h.of_cons hm

lemma mem_emplace (h : p ∈ emplace k v l) : p = (k, v) ∨ p ∈ l := by
  induction l with
  | nil => simpa [emplace] using h
  | cons q l ih =>
    rw [emplace] at h
    split_ifs at h with h1 h2
    · exact mem_cons.mp h
    · exact .inr h
    · rcases mem_cons.mp h with rfl | h
      · exact .inr mem_cons_self
      · exact (ih h).imp id (mem_cons_of_mem _)

lemma find?_emplace (k k' : K) (v : V) (l : List (K × V)) (h : Sorted l) :
    find? k' (emplace k v l) = if k = k' then some ((find? k l).getD v) else find? k' l := by
  induction l with
  | nil =>
    rw [emplace, find?_cons]
    by_cases hk : k = k' <;> simp
  | cons p l ih =>
    rw [emplace]
    by_cases h1 : k < p.1
    · -- the new key goes first, so it was not among the later, larger keys
      have hnone : find? k (p :: l) = none := by
        rw [find?_eq_none]
        intro q hq
        rcases mem_cons.mp hq with rfl | hq
        · exact ne_of_gt h1
        · exact ne_of_gt (h1.trans (h.head_lt hq))
      rw [if_pos h1, hnone, find?_cons]
      rfl
    rw [if_neg h1]
    by_cases h2 : p.1 = k
    · rw [if_pos h2]
      split_ifs with hk
      · rw [← hk, find?_cons, if_pos h2]
        rfl
      · rfl
    · rw [if_neg h2, find?_cons, ih h.of_cons]
      split_ifs with hp hk
      · exact absurd (hp.trans hk.symm) h2
      · rw [find?_cons, if_pos hp]
      · rw [find?_cons, if_neg h2]
      · rw [find?_cons, if_neg hp]

lemma find?_split (h : Sorted l) (hf : find? k l = some v) :
    ∃ l₁ l₂, l = l₁ ++ (k, v) :: l₂ ∧ (∀ p ∈ l₁, p.1 ≠ k) ∧ ∀ p ∈ l₂, p.1 ≠ k := by
  obtain ⟨l₁, l₂, rfl⟩ := append_of_mem (mem_of_find? hf)
  obtain ⟨-, htail, hcross⟩ := pairwise_append.mp h
  refine ⟨l₁, l₂, rfl, fun p hp => ?_, fun p hp => ?_⟩
  · exact ne_of_lt (hcross p hp (k, v) mem_cons_self)
  · exact ne_of_gt (rel_of_pairwise_cons htail hp)

lemma length_emplace_le (k : K) (v : V) (l : List (K × V)) :
    (emplace k v l).length ≤ l.length + 1 := by
  induction l with
  | nil => exact Nat.le_refl _
  | cons p l ih =>
    rw [emplace]
    split_ifs
    · exact Nat.le_refl _
    · exact Nat.le_succ _
    · exact Nat.succ_le_succ ih

lemma emplace_of_forall_lt (h : ∀ p ∈ l, p.1 < k) : emplace k v l = l ++ [(k, v)] := by
  induction l with
  | nil => rfl
  | cons p l ih =>
    have hp := h p mem_cons_self
    rw [emplace, if_neg (not_lt.mpr hp.le), if_neg (ne_of_lt hp),
      ih fun q hq => h q (mem_cons_of_mem _ hq), cons_append]

lemma modify_self (h : Sorted l) (hf : find? k l = some v) : modify k (fun _ => v) l = l := by
  obtain ⟨l₁, l₂, rfl, h₁, h₂⟩ := find?_split h hf
  exact modify_split h₁ h₂

lemma emplace_split (v : V) (hf : find? k l = none) :
    ∃ l₁ l₂, l = l₁ ++ l₂ ∧ emplace k v l = l₁ ++ (k, v) :: l₂ := by
  induction l with
  | nil => exact ⟨[], [], rfl, rfl⟩
  | cons p l ih =>
    have hne := find?_eq_none.mp hf
    have hp : p.1 ≠ k := hne p mem_cons_self
    rw [emplace]
    split_ifs with h1
    · exact ⟨[], p :: l, rfl, rfl⟩
    · obtain ⟨l₁, l₂, rfl, he⟩ := ih (find?_eq_none.mpr fun q hq => hne q (mem_cons_of_mem _ hq))
      exact ⟨p :: l₁, l₂, rfl, by rw [he, cons_append]⟩

section
variable (h : Sorted l)
include h

lemma emplace_of_mem {w : V} (hf : find? k l = some w) : emplace k v l = l := by
  induction l with
  | nil => simp at hf
  | cons p l ih =>
    rw [find?_cons] at hf
    rw [emplace]
    by_cases hp : p.1 = k
    · rw [if_neg (by rw [hp]; exact lt_irrefl k), if_pos hp]
    · rw [if_neg hp] at hf
      have hlt := h.head_lt (mem_of_find? hf)
      rw [if_neg (not_lt.mpr hlt.le), if_neg hp, ih h.of_cons hf]

lemma sorted_emplace : Sorted (emplace k v l) := by
  induction l with
  | nil => simp [Sorted, emplace]
  | cons p l ih =>
    rw [emplace]
    split_ifs with h1 h2
    · refine h.cons fun q hq => ?_
      rcases mem_cons.mp hq with rfl | hq
      · exact h1
      · exact h1.trans (h.head_lt hq)
    · exact h
    · refine (ih h.of_cons).cons fun q hq => ?_
      rcases mem_emplace hq with rfl | hq
      · exact lt_of_le_of_ne (not_lt.mp h1) h2
      · exact h.head_lt hq

lemma sorted_modify {f : V → V} : Sorted (modify k f l) := by
  have hkeys : (modify k f l).map Prod.fst = l.map Prod.fst := modify_keys k f l
  have hl : (l.map Prod.fst).Pairwise (· < ·) := pairwise_map.mpr h
  rw [← hkeys] at hl
  exact pairwise_map.mp hl

lemma sorted_erase : Sorted (erase k l) := .filter _ h

lemma sorted_traverse {f : K → V → Option W} : Sorted (traverse f l) := by
  refine .filterMap _ ?_ h
  intro a b hab p hp q hq
  obtain ⟨_, _, rfl⟩ := map_eq_some_iff.mp hp
  obtain ⟨_, _, rfl⟩ := map_eq_some_iff.mp hq
  exact hab

end

lemma find?_traverse (f : K → V → Option W) (k : K) (l : List (K × V)) (h : Sorted l) :
    find? k (traverse f l) = (find? k l).bind (f k) := by
  induction l with
  | nil => rfl
  | cons p l ih =>
    have hnone : p.1 = k → find? k l = none := by
      rintro rfl
      rw [find?_eq_none]
      exact fun q hq => ne_of_gt (h.head_lt hq)
    have hcons : traverse f (p :: l) =
        match f p.1 p.2 with
        | none => traverse f l
        | some w => (p.1, w) :: traverse f l := by
      cases hf : f p.1 p.2 <;> simp [traverse, hf]
    rw [hcons, find?_cons]
    cases hf : f p.1 p.2 with
    | none =>
      rw [ih h.of_cons]
      split_ifs with hk
      · rw [hnone hk]
        subst hk
        exact hf.symm
      · rfl
    | some w =>
      rw [find?_cons, ih h.of_cons]
      split_ifs with hk
      · subst hk
        exact hf.symm
      · rfl

lemma find?_eq_some_of_pairwise {α : Type*} {R r : α → α → Prop} {P : α → Bool} {a : α}
    {l : List α} (h : l.Pairwise R) (hR : ∀ b c, R b c → r b c ∧ ¬ r c b) (hrefl : ∀ b, r b b) :
    l.find? P = some a ↔ a ∈ l ∧ P a = true ∧ ∀ b ∈ l, P b = true → r a b := by
  induction h with
  | nil => simp
  | @cons b l hb _ ih =>
    rw [List.find?_cons]
    cases hPb : P b with
    | true =>
      constructor
      · rintro heq
        cases heq
        refine ⟨mem_cons_self, hPb, fun c hc _ => ?_⟩
        rcases mem_cons.mp hc with rfl | hc
        · exact hrefl c
        · exact (hR _ _ (hb c hc)).1
      · rintro ⟨ha, hPa, hmin⟩
        rcases mem_cons.mp ha with rfl | ha
        · rfl
        · exact absurd (hmin b mem_cons_self hPb) (hR _ _ (hb a ha)).2
    | false =>
      simp only [ih]
      constructor
      · rintro ⟨ha, hPa, hmin⟩
        refine ⟨mem_cons_of_mem _ ha, hPa, fun c hc hPc => ?_⟩
        rcases mem_cons.mp hc with rfl | hc
        · exact absurd (hPb.symm.trans hPc) Bool.false_ne_true
        · exact hmin c hc hPc
      · rintro ⟨ha, hPa, hmin⟩
        rcases mem_cons.mp ha with rfl | ha
        · exact absurd (hPb.symm.trans hPa) Bool.false_ne_true
        · exact ⟨ha, hPa, fun c hc => hmin c (mem_cons_of_mem _ hc)⟩

lemma findFirst_eq_some {P : K × V → Bool} (h : Sorted l) :
    l.find? P = some p ↔ p ∈ l ∧ P p = true ∧ ∀ q ∈ l, P q = true → p.1 ≤ q.1 :=
  find?_eq_some_of_pairwise h (fun _ _ hlt => ⟨hlt.le, not_le.mpr hlt⟩) fun _ => le_rfl

lemma reverse_find?_eq_some {P : K × V → Bool} (h : Sorted l) :
    l.reverse.find? P = some p ↔ p ∈ l ∧ P p = true ∧ ∀ q ∈ l, P q = true → q.1 ≤ p.1 := by
  rw [find?_eq_some_of_pairwise (r := fun p q => q.1 ≤ p.1) (pairwise_reverse.mpr h)
    (fun _ _ hlt => ⟨hlt.le, not_le.mpr hlt⟩) fun _ => le_rfl]
  simp only [mem_reverse]

end Order
end KeyList

open KeyList

@[ext] structure SortedMap (K V : Type*) [LinearOrder K] where
  entries : List (K × V)
  sorted : KeyList.Sorted entries
deriving DecidableEq

namespace SortedMap
variable {K V W : Type*} [LinearOrder K]

def empty : SortedMap K V := ⟨[], List.Pairwise.nil⟩

def find? (m : SortedMap K V) (k : K) : Option V := KeyList.find? k m.entries

def contains (m : SortedMap K V) (k : K) : Bool := KeyList.contains k m.entries

variable (m : SortedMap K V)

def size : Nat := m.entries.length

def emplace (m : SortedMap K V) (k : K) (v : V) : SortedMap K V :=
  ⟨KeyList.emplace k v m.entries, KeyList.sorted_emplace m.sorted⟩

def modify (m : SortedMap K V) (k : K) (f : V → V) : SortedMap K V :=
  ⟨KeyList.modify k f m.entries, KeyList.sorted_modify m.sorted⟩

def assign (k : K) (v : V) : SortedMap K V :=
  (m.emplace k v).modify k fun _ => v

/-- Changing a value in place, where an absent key is first created with the value `d`. -/
def update (k : K) (d : V) (f : V → V) : SortedMap K V :=
  (m.emplace k d).modify k f

def erase (m : SortedMap K V) (k : K) : SortedMap K V :=
  ⟨KeyList.erase k m.entries, KeyList.sorted_erase m.sorted⟩

def traverse (m : SortedMap K V) (f : K → V → Option W) : SortedMap K W :=
  ⟨KeyList.traverse f m.entries, KeyList.sorted_traverse m.sorted⟩

@[simp] lemma find?_empty (k : K) : (empty : SortedMap K V).find? k = none := rfl

variable {k : K}

lemma contains_iff {m : SortedMap K V} : m.contains k = true ↔ ∃ v, m.find? k = some v :=
  isSome_iff_exists

lemma contains_eq_false {m : SortedMap K V} : m.contains k = false ↔ m.find? k = none := by
  rw [contains, KeyList.contains, isSome_eq_false_iff, isNone_iff_eq_none]
  rfl

variable {v : V}

lemma mem_entries {m : SortedMap K V} :
    (k, v) ∈ m.entries ↔ m.find? k = some v := (KeyList.find?_eq_some m.sorted).symm

lemma find?_eq_none {m : SortedMap K V} :
    m.find? k = none ↔ ∀ p ∈ m.entries, p.1 ≠ k := KeyList.find?_eq_none

def keys : List K := m.entries.map Prod.fst

lemma mem_keys {m : SortedMap K V} : k ∈ m.keys ↔ m.contains k = true := by
  rw [keys, List.mem_map, contains_iff]
  constructor
  · rintro ⟨p, hp, rfl⟩
    exact ⟨p.2, mem_entries.mp hp⟩
  · rintro ⟨v, hv⟩
    exact ⟨(k, v), mem_entries.mpr hv, rfl⟩

lemma nodup_keys : m.keys.Nodup := List.pairwise_map.mpr (m.sorted.imp fun h => ne_of_lt h)

lemma length_keys : m.keys.length = m.size := List.length_map _

lemma size_le_of_contains {m : SortedMap K V} {n : SortedMap K W}
    (h : ∀ k, m.contains k = true → n.contains k = true) : m.size ≤ n.size := by
  rw [← length_keys, ← length_keys]
  have hsub : m.keys ⊆ n.keys := fun k hk => mem_keys.mpr (h k (mem_keys.mp hk))
  exact (m.nodup_keys.subperm hsub).length_le

lemma find?_emplace (k k' : K) (v : V) :
    (m.emplace k v).find? k' = if k = k' then some ((m.find? k).getD v) else m.find? k' :=
  KeyList.find?_emplace k k' v m.entries m.sorted

lemma find?_modify (k k' : K) (f : V → V) :
    (m.modify k f).find? k' = if k = k' then (m.find? k').map f else m.find? k' :=
  KeyList.find?_modify k k' f m.entries

lemma find?_update (k k' : K) (d : V) (f : V → V) :
    (m.update k d f).find? k' = if k = k' then some (f ((m.find? k).getD d)) else m.find? k' := by
  rw [update, find?_modify, find?_emplace]
  split_ifs <;> rfl

lemma find?_assign (k k' : K) (v : V) :
    (m.assign k v).find? k' = if k = k' then some v else m.find? k' := by
  rw [assign, find?_modify, find?_emplace]
  split_ifs <;> rfl

lemma find?_modify_of_find? {m : SortedMap K V} (h : m.find? k = some v) (f : V → V) (k' : K) :
    (m.modify k f).find? k' = if k = k' then some (f v) else m.find? k' := by
  rw [find?_modify]
  split_ifs with hk
  · rw [← hk, h]
    rfl
  · rfl

lemma find?_erase (k k' : K) : (m.erase k).find? k' = if k = k' then none else m.find? k' :=
  KeyList.find?_erase k k' m.entries

lemma find?_emplace_eq_some {m : SortedMap K V} {k' : K} {w : V} (h : m.find? k = none) :
    (m.emplace k v).find? k' = some w ↔ k' = k ∧ w = v ∨ m.find? k' = some w := by
  rw [find?_emplace, h, getD_none, eq_comm (a := k') (b := k), eq_comm (a := w) (b := v)]
  split_ifs with hk
  · subst hk
    simp [h]
  · simp [hk]

lemma find?_assign_eq_some {m : SortedMap K V} {k' : K} {w : V} :
    (m.assign k v).find? k' = some w ↔ k' = k ∧ w = v ∨ k ≠ k' ∧ m.find? k' = some w := by
  rw [find?_assign, eq_comm (a := k'), eq_comm (a := w)]
  split_ifs with hk <;> simp [hk]

lemma find?_erase_eq_some {m : SortedMap K V} {k' : K} :
    (m.erase k).find? k' = some v ↔ k ≠ k' ∧ m.find? k' = some v := by
  rw [find?_erase]
  split_ifs with hk <;> simp [hk]

lemma contains_emplace (k k' : K) (v : V) :
    (m.emplace k v).contains k' = if k = k' then true else m.contains k' := by
  change ((m.emplace k v).find? k').isSome = _
  rw [find?_emplace]
  split_ifs <;> rfl

lemma contains_assign (k k' : K) (v : V) :
    (m.assign k v).contains k' = if k = k' then true else m.contains k' := by
  change ((m.assign k v).find? k').isSome = _
  rw [find?_assign]
  split_ifs <;> rfl

lemma contains_erase (k k' : K) :
    (m.erase k).contains k' = if k = k' then false else m.contains k' := by
  change ((m.erase k).find? k').isSome = _
  rw [find?_erase]
  split_ifs <;> rfl

lemma find?_traverse (f : K → V → Option W) (k : K) :
    (m.traverse f).find? k = (m.find? k).bind (f k) :=
  KeyList.find?_traverse f k m.entries m.sorted

lemma emplace_of_contains {m : SortedMap K V} (v : V) (h : m.contains k = true) :
    m.emplace k v = m := by
  obtain ⟨w, hw⟩ := contains_iff.mp h
  exact SortedMap.ext (KeyList.emplace_of_mem m.sorted hw)

lemma entries_assign_of_forall_lt {m : SortedMap K V} (v : V) (h : ∀ p ∈ m.entries, p.1 < k) :
    (m.assign k v).entries = m.entries ++ [(k, v)] := by
  change KeyList.modify k (fun _ => v) (KeyList.emplace k v m.entries) = m.entries ++ [(k, v)]
  rw [emplace_of_forall_lt h, modify_split (fun p hp => ne_of_lt (h p hp))]
  exact nofun

lemma foldl_assign_entries : m.entries.foldl (fun acc p => acc.assign p.1 p.2) empty = m := by
  have hsuffix : ∀ (l : List (K × V)) (acc : SortedMap K V), KeyList.Sorted (acc.entries ++ l) →
      (l.foldl (fun acc p => acc.assign p.1 p.2) acc).entries = acc.entries ++ l := by
    intro l
    induction l with
    | nil => exact fun acc _ => (List.append_nil _).symm
    | cons p l ih =>
      intro acc hs
      have hlt : ∀ q ∈ acc.entries, q.1 < p.1 := fun q hq =>
        (List.pairwise_append.mp hs).2.2 q hq p List.mem_cons_self
      have hassign := entries_assign_of_forall_lt p.2 hlt
      have hrest := ih (acc.assign p.1 p.2) (by rwa [hassign, List.append_assoc])
      rw [List.foldl_cons, hrest, hassign, List.append_assoc]
      rfl
  exact SortedMap.ext (hsuffix m.entries empty m.sorted)

lemma size_eq_zero {m : SortedMap K V} : m.size = 0 ↔ ∀ k, m.find? k = none := by
  rw [size, List.length_eq_zero_iff]
  constructor
  · intro h k
    exact find?_eq_none.mpr fun p hp => absurd hp (by rw [h]; exact List.not_mem_nil)
  · intro h
    refine List.eq_nil_iff_forall_not_mem.mpr fun p hp => ?_
    have hfind := mem_entries.mp (show (p.1, p.2) ∈ m.entries from hp)
    rw [h] at hfind
    cases hfind

lemma size_assign_le (k : K) (v : V) : (m.assign k v).size ≤ m.size + 1 := by
  change (KeyList.modify k (fun _ => v) (KeyList.emplace k v m.entries)).length ≤
    m.entries.length + 1
  rw [KeyList.modify, List.length_map]
  exact length_emplace_le k v m.entries

lemma filter_entries (k : K) :
    m.entries.filter (fun p => p.1 = k) = ((m.find? k).map fun v => (k, v)).toList := by
  cases hk : m.find? k with
  | none => exact List.filter_eq_nil_iff.mpr fun p hp => by simpa using find?_eq_none.mp hk p hp
  | some v =>
    obtain ⟨l₁, l₂, hl, h₁, h₂⟩ := KeyList.find?_split m.sorted hk
    have hleft : l₁.filter (fun p => p.1 = k) = [] := List.filter_eq_nil_iff.mpr (by simpa using h₁)
    have hright : l₂.filter (fun p => p.1 = k) = [] :=
      List.filter_eq_nil_iff.mpr (by simpa using h₂)
    rw [hl, List.filter_append, List.filter_cons_of_pos (by simp), hleft, hright]
    rfl

lemma entries_emplace_perm {m : SortedMap K V} (h : m.find? k = none) (v : V) :
    (m.emplace k v).entries.Perm ((k, v) :: m.entries) := by
  obtain ⟨l₁, l₂, hl, hemplace⟩ := KeyList.emplace_split v h
  change (KeyList.emplace k v m.entries).Perm _
  rw [hemplace, hl]
  exact List.perm_middle

lemma entries_perm_erase {m : SortedMap K V} (h : m.find? k = some v) :
    m.entries.Perm ((k, v) :: (m.erase k).entries) := by
  obtain ⟨l₁, l₂, hl, h₁, h₂⟩ := KeyList.find?_split m.sorted h
  have herase : (m.erase k).entries = l₁ ++ l₂ := by
    change KeyList.erase k m.entries = _
    rw [hl, erase_split h₁ h₂]
  rw [herase, hl]
  exact List.perm_middle

lemma exists_size_eq [Infinite K] (v : K → V) (n : ℕ) :
    ∃ m : SortedMap K V, m.size = n ∧ ∀ p ∈ m.entries, p.2 = v p.1 := by
  obtain ⟨s, hs⟩ := Infinite.exists_subset_card_eq K n
  refine ⟨⟨s.sort.map fun k => (k, v k), ?_⟩, ?_, ?_⟩
  · exact List.pairwise_map.mpr s.sortedLT_sort.pairwise
  · rw [size, List.length_map, Finset.length_sort, hs]
  · rintro p hp
    obtain ⟨k, -, rfl⟩ := List.mem_map.mp hp
    rfl

lemma ext_find? {m n : SortedMap K V} (h : ∀ k, m.find? k = n.find? k) : m = n := by
  have hmem : ∀ p, p ∈ m.entries ↔ p ∈ n.entries := by
    intro p
    rw [mem_entries, mem_entries, h]
  have hnodup : ∀ l : SortedMap K V, l.entries.Nodup := fun l =>
    l.sorted.imp fun hlt heq => absurd (congrArg Prod.fst heq) (ne_of_lt hlt)
  have hperm : m.entries.Perm n.entries :=
    (List.perm_ext_iff_of_nodup (hnodup m) (hnodup n)).mpr hmem
  refine SortedMap.ext (hperm.eq_of_pairwise ?_ m.sorted n.sorted)
  intro a b _ _ hab hba
  exact absurd hba (lt_asymm hab)

end SortedMap
