import AbilityRuntime.Library.SortedMap

/-! Tries whose every node keeps a list of entries. A trie stands for the flat list of its entries,
each with the path of its node. -/

inductive PathTrie (K E : Type*) where
  | node (entries : List E) (children : List (K × PathTrie K E))

namespace PathTrie
open List Function KeyList
variable {K E : Type*}

def entries : PathTrie K E → List E
  | node es _ => es

def children : PathTrie K E → List (K × PathTrie K E)
  | node _ cs => cs

def empty : PathTrie K E := node [] []

def isEmpty (t : PathTrie K E) : Bool := t.entries.isEmpty && t.children.isEmpty

def under (k : K) (p : List K × E) : List K × E := (k :: p.1, p.2)

mutual

def toList : PathTrie K E → List (List K × E)
  | node es cs => forest cs ++ es.map fun e => ([], e)

def forest : List (K × PathTrie K E) → List (List K × E)
  | [] => []
  | (k, t) :: cs => (toList t).map (under k) ++ forest cs

end

inductive Ordered [LT K] : PathTrie K E → Prop
  | intro {es : List E} {cs : List (K × PathTrie K E)} (sorted : KeyList.Sorted cs)
      (below : ∀ c ∈ cs, Ordered c.2) : Ordered (node es cs)

variable {cs : List (K × PathTrie K E)}

lemma Ordered.sorted [LT K] {es : List E} (h : (node es cs).Ordered) : KeyList.Sorted cs := by
  cases h with
  | intro hsorted _ => exact hsorted

lemma Ordered.of_mem [LT K] {es : List E} (h : (node es cs).Ordered) : ∀ c ∈ cs, c.2.Ordered := by
  cases h with
  | intro _ hbelow => exact hbelow

lemma ordered_empty [LT K] : (empty : PathTrie K E).Ordered := .intro .nil nofun

inductive Alive : PathTrie K E → Prop
  | intro {es : List E} {cs : List (K × PathTrie K E)} (nonempty : ∀ c ∈ cs, c.2.isEmpty = false)
      (below : ∀ c ∈ cs, Alive c.2) : Alive (node es cs)

lemma Alive.child {es : List E} (h : (node es cs).Alive) {c : K × PathTrie K E} (hc : c ∈ cs) :
    c.2.isEmpty = false ∧ c.2.Alive := by
  cases h with
  | intro hnonempty hbelow => exact ⟨hnonempty c hc, hbelow c hc⟩

lemma alive_of_children (es : List E) (h : ∀ c ∈ cs, c.2.isEmpty = false ∧ c.2.Alive) :
    (node es cs).Alive := .intro (fun c hc => (h c hc).1) fun c hc => (h c hc).2

lemma alive_empty : (empty : PathTrie K E).Alive := alive_of_children [] nofun

lemma toList_of_isEmpty {t : PathTrie K E} (h : t.isEmpty = true) : t.toList = [] := by
  obtain ⟨es, cs⟩ := t
  obtain ⟨hes, hcs⟩ := Bool.and_eq_true_iff.mp h
  obtain rfl : es = [] := isEmpty_iff.mp hes
  obtain rfl : cs = [] := isEmpty_iff.mp hcs
  rfl

lemma forest_append (l₁ l₂ : List (K × PathTrie K E)) :
    forest (l₁ ++ l₂) = forest l₁ ++ forest l₂ := by
  induction l₁ with
  | nil => rfl
  | cons c l₁ ih => simp [forest, ih]

lemma forest_split (k : K) (t : PathTrie K E) (l₁ l₂ : List (K × PathTrie K E)) :
    forest (l₁ ++ (k, t) :: l₂) = forest l₁ ++ (t.toList.map (under k) ++ forest l₂) := by
  rw [forest_append, forest]

lemma exists_under_of_mem_forest {p : List K × E} (h : p ∈ forest cs) : ∃ k q, p = under k q := by
  induction cs with
  | nil => cases h
  | cons c cs ih =>
    rcases mem_append.mp h with hp | hp
    · obtain ⟨q, -, rfl⟩ := mem_map.mp hp
      exact ⟨c.1, q, rfl⟩
    · exact ih hp

section OneKey
variable {k : K} {f : List K × E → Bool} (hf : ∀ k' p, k' ≠ k → f (under k' p) = false)
include hf

lemma filter_forest_of_ne (h : ∀ c ∈ cs, c.1 ≠ k) : (forest cs).filter f = [] := by
  induction cs with
  | nil => rfl
  | cons c cs ih =>
    have hhead : (c.2.toList.map (under c.1)).filter f = [] := by
      rw [filter_eq_nil_iff]
      intro p hp
      obtain ⟨q, -, rfl⟩ := mem_map.mp hp
      simp [hf c.1 q (h c mem_cons_self)]
    have htail := ih fun c' hc' => h c' (mem_cons_of_mem _ hc')
    rw [forest, filter_append, hhead, htail, append_nil]

lemma filter_not_forest_of_ne (h : ∀ c ∈ cs, c.1 ≠ k) :
    (forest cs).filter (fun p => !f p) = forest cs := by
  have hnone := filter_eq_nil_iff.mp (filter_forest_of_ne hf h)
  exact filter_eq_self.mpr fun p hp => by simpa using hnone p hp

lemma filter_forest [LinearOrder K] (h : KeyList.Sorted cs) : (forest cs).filter f =
      match find? k cs with
      | none => []
      | some t => (t.toList.filter fun p => f (under k p)).map (under k) := by
  cases hk : find? k cs with
  | none => exact filter_forest_of_ne hf (find?_eq_none.mp hk)
  | some t =>
    obtain ⟨l₁, l₂, rfl, h₁, h₂⟩ := find?_split h hk
    have hleft := filter_forest_of_ne hf h₁
    have hright := filter_forest_of_ne hf h₂
    rw [forest_split, filter_append, filter_append, hleft, hright, filter_map, append_nil]
    rfl

end OneKey

section Path
variable [LinearOrder K]

def entriesAt : List K → PathTrie K E → List E
  | [], t => t.entries
  | k :: path, t =>
    match find? k t.children with
    | none => []
    | some c => c.entriesAt path

variable (keep : E → Bool) (path : List K)

lemma entriesAt_empty : (empty : PathTrie K E).entriesAt path = [] := by
  cases path <;> rfl

lemma entriesAt_cons (k : K) (path : List K) (es : List E) (cs : List (K × PathTrie K E)) :
    (node es cs).entriesAt (k :: path) = ((find? k cs).getD empty).entriesAt path := by
  rw [entriesAt, children]
  cases find? k cs with
  | none => exact (entriesAt_empty path).symm
  | some c => rfl

def along (keep : E → Bool) : List K → PathTrie K E → List E
  | [], t => t.entries
  | k :: path, t =>
    t.entries.filter keep ++
      match find? k t.children with
      | none => []
      | some c => c.along keep path

lemma Ordered.find?_getD {es : List E} (h : (node es cs).Ordered) (k : K) :
    ((find? k cs).getD empty).Ordered := by
  cases hk : find? k cs with
  | none => exact ordered_empty
  | some c => exact h.of_mem (k, c) (mem_of_find? hk)

variable {t : PathTrie K E}

lemma Ordered.child {c : PathTrie K E} {k : K} (h : t.Ordered)
    (hc : find? k t.children = some c) : c.Ordered := by
  obtain ⟨es, cs⟩ := t
  exact h.of_mem (k, c) (mem_of_find? hc)

def reaches (p : List K × E) : Bool :=
  p.1 = path || (p.1.isPrefixOf path && keep p.2)

lemma reaches_under (k : K) (p : List K × E) :
    reaches keep (k :: path) (under k p) = reaches keep path p := by
  simp [reaches, under]

lemma along_perm (h : t.Ordered) (path : List K) :
    (t.along keep path).Perm ((t.toList.filter (reaches keep path)).map Prod.snd) := by
  induction path generalizing t with
  | nil =>
    obtain ⟨es, cs⟩ := t
    have hforest : (forest cs).filter (reaches keep []) = [] := by
      rw [filter_eq_nil_iff]
      intro p hp
      obtain ⟨k, q, rfl⟩ := exists_under_of_mem_forest hp
      simp [reaches, under]
    have hown : (es.map fun e => (([] : List K), e)).filter (reaches keep []) =
        es.map fun e => ([], e) := by
      simp [reaches]
    rw [toList, filter_append, hforest, hown]
    simp [along, entries]
  | cons k path ih =>
    obtain ⟨es, cs⟩ := t
    have hown :
        ((es.map fun e => ([], e)).filter (reaches keep (k :: path))).map Prod.snd =
        es.filter keep := by
      simp [filter_map, reaches, comp_def]
    have hbelow : (match find? k cs with | none => [] | some c => c.along keep path).Perm
        (((forest cs).filter (reaches keep (k :: path))).map Prod.snd) := by
      rw [filter_forest (fun k' p (hk : k' ≠ k) => by simp [reaches, under, hk]) h.sorted]
      cases hk : find? k cs with
      | none => exact .refl _
      | some c =>
        simp only [reaches_under, map_map]
        exact ih (h.child hk)
    rw [toList, filter_append, map_append, hown]
    exact (List.Perm.append_left _ hbelow).trans perm_append_comm

lemma length_entriesAt (h : t.Ordered) (path : List K) :
    (t.entriesAt path).length = t.toList.countP fun p => p.1 = path := by
  induction path generalizing t with
  | nil =>
    obtain ⟨es, cs⟩ := t
    have hforest : (forest cs).countP (fun p => p.1 = []) = 0 := by
      rw [countP_eq_zero]
      intro p hp
      obtain ⟨k, q, rfl⟩ := exists_under_of_mem_forest hp
      simp [under]
    rw [toList, countP_append, hforest]
    simp [entriesAt, entries, comp_def]
  | cons k path ih =>
    obtain ⟨es, cs⟩ := t
    have hne : ∀ k' (p : List K × E), k' ≠ k → decide ((under k' p).1 = k :: path) = false := by
      intro k' p hk
      simp [under, hk]
    have hown : (es.map fun e => ([], e)).countP (fun p => p.1 = k :: path) = 0 := by
      simp
    rw [toList, countP_append, hown, countP_eq_length_filter, filter_forest hne h.sorted]
    simp only [entriesAt, children]
    cases hk : find? k cs with
    | none => rfl
    | some c =>
      rw [length_map, ← countP_eq_length_filter, ih (h.child hk)]
      simp [under]

end Path

section Update
variable [LinearOrder K] {k : K} {cs : List (K × PathTrie K E)} {c : PathTrie K E} {es : List E}

lemma Ordered.modify (h : (node es cs).Ordered) (hc : c.Ordered) :
    (node es (modify k (fun _ => c) cs)).Ordered := by
  refine .intro (sorted_modify h.sorted) fun p hp => ?_
  obtain ⟨q, hq, rfl⟩ := mem_map.mp hp
  split_ifs
  · exact hc
  · exact h.of_mem q hq

lemma Ordered.emplace (h : (node es cs).Ordered) (hc : c.Ordered) :
    (node es (emplace k c cs)).Ordered := by
  refine .intro (sorted_emplace h.sorted) fun p hp => ?_
  rcases mem_emplace hp with rfl | hp
  · exact hc
  · exact h.of_mem p hp

lemma Ordered.erase (h : (node es cs).Ordered) : (node es (erase k cs)).Ordered :=
  .intro (sorted_erase h.sorted) fun p hp => h.of_mem p (mem_of_mem_filter hp)

lemma Alive.find?_getD (h : (node es cs).Alive) : ((find? k cs).getD empty).Alive := by
  cases hk : find? k cs with
  | none => exact alive_empty
  | some c => exact (h.child (mem_of_find? hk)).2

lemma Alive.modify (h : ∀ p ∈ cs, p.1 ≠ k → p.2.isEmpty = false ∧ p.2.Alive)
    (hc : c.isEmpty = false ∧ c.Alive) : (node es (modify k (fun _ => c) cs)).Alive := by
  refine alive_of_children es fun p hp => ?_
  obtain ⟨q, hq, rfl⟩ := mem_map.mp hp
  split_ifs with hk
  · exact hc
  · exact h q hq hk

lemma forest_insert_perm (h : KeyList.Sorted cs) {p : List K × E}
    (hc : c.toList.Perm (p :: ((find? k cs).getD empty).toList)) :
    (forest (modify k (fun _ => c) (emplace k empty cs))).Perm
    (under k p :: forest cs) := by
  have hunder := hc.map (under k)
  cases hk : find? k cs with
  | none =>
    obtain ⟨l₁, l₂, rfl, he⟩ := emplace_split empty hk
    have hne := find?_eq_none.mp hk
    rw [hk] at hunder
    rw [he, modify_split (fun q hq => hne q (mem_append_left _ hq))
      fun q hq => hne q (mem_append_right _ hq), forest_split, forest_append]
    exact ((hunder.append_right _).append_left _).trans perm_middle
  | some c₀ =>
    rw [hk] at hunder
    rw [emplace_of_mem h hk]
    obtain ⟨l₁, l₂, rfl, h₁, h₂⟩ := find?_split h hk
    rw [modify_split h₁ h₂, forest_split, forest_split]
    exact ((hunder.append_right _).append_left _).trans perm_middle

lemma forest_filter_not {f : List K × E → Bool} (hf : ∀ k' p, k' ≠ k → f (under k' p) = false)
    (h : KeyList.Sorted cs) {c' : PathTrie K E} (hk : find? k cs = some c)
    (hc : c'.toList = c.toList.filter fun p => !f (under k p)) :
    forest (if c'.isEmpty then erase k cs else modify k (fun _ => c') cs) =
      (forest cs).filter fun p => !f p := by
  obtain ⟨l₁, l₂, rfl, h₁, h₂⟩ := find?_split h hk
  have hmid : (c.toList.map (under k)).filter (fun p => !f p) = c'.toList.map (under k) := by
    rw [filter_map, hc]
    rfl
  rw [forest_split, filter_append, filter_append, filter_not_forest_of_ne hf h₁,
    filter_not_forest_of_ne hf h₂, hmid]
  split_ifs with hdead
  · rw [erase_split h₁ h₂, forest_append, toList_of_isEmpty hdead]
    rfl
  · rw [modify_split h₁ h₂, forest_split]

end Update
end PathTrie
