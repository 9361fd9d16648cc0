import Mathlib.Data.List.Nodup
import Mathlib.Data.List.Perm.Subperm

/-! Items kept on shelves, where every item also remembers a shelf. -/

structure Shelves (L M : Type*) where
  content : L → List M
  owner : M → Option L

namespace Shelves
open Function
variable {L M : Type*} [DecidableEq L] [DecidableEq M] {s : Shelves L M} {l l' : L} {m x : M}

def pushTop (s : Shelves L M) (l : L) (m : M) : Shelves L M :=
  if (s.content l).head? = some m then s
  else
    { content := Function.update s.content l (m :: (s.content l).filter (· ≠ m))
      owner := Function.update s.owner m (some l) }

def take (s : Shelves L M) (l : L) (m : M) : Shelves L M :=
  { s with content := Function.update s.content l ((s.content l).erase m) }

structure Filed (s : Shelves L M) : Prop where
  nodup : ∀ l, (s.content l).Nodup
  owned : ∀ l m, m ∈ s.content l → s.owner m = some l

omit [DecidableEq L] [DecidableEq M] in
lemma Filed.eq_of_mem (h : s.Filed) (hl : m ∈ s.content l) (hl' : m ∈ s.content l') : l = l' :=
  Option.some.inj ((h.owned l m hl).symm.trans (h.owned l' m hl'))

lemma mem_pushTop : x ∈ (s.pushTop l m).content l' ↔ (l' = l ∧ x = m) ∨ x ∈ s.content l' := by
  unfold pushTop
  split_ifs with htop
  · constructor
    · exact .inr
    · rintro (⟨rfl, rfl⟩ | hx)
      · exact List.mem_of_head? htop
      · exact hx
  · by_cases hl : l' = l
    · subst hl
      by_cases hx : x = m <;> simp [hx]
    · simp [hl]

lemma mem_take (hn : (s.content l).Nodup) :
    x ∈ (s.take l m).content l' ↔ x ∈ s.content l' ∧ ¬ (l' = l ∧ x = m) := by
  unfold take
  by_cases hl : l' = l
  · subst hl
    simp only [update_self, hn.mem_erase_iff, true_and]
    exact and_comm
  · simp [hl]

lemma content_take_self : (s.take l m).content l = (s.content l).erase m := update_self ..

lemma content_take_of_ne (h : l' ≠ l) : (s.take l m).content l' = s.content l' := update_of_ne h ..

lemma content_pushTop_of_ne (h : l' ≠ l) : (s.pushTop l m).content l' = s.content l' := by
  unfold pushTop
  split_ifs
  · rfl
  · exact update_of_ne h ..

lemma content_pushTop_self_iff :
    (s.pushTop l m).content l = s.content l ↔ (s.content l).head? = some m := by
  unfold pushTop
  split_ifs with htop
  · exact iff_of_true rfl htop
  · refine iff_of_false (fun h => htop ?_) htop
    rw [← h]
    simp

lemma owner_pushTop_of_ne (h : x ≠ m) : (s.pushTop l m).owner x = s.owner x := by
  unfold pushTop
  split_ifs
  · rfl
  · exact update_of_ne h ..

omit [DecidableEq L] [DecidableEq M] in
lemma Filed.sublist (h : s.Filed) {content : L → List M}
    (hsub : ∀ l, (content l).Sublist (s.content l)) : { s with content := content }.Filed where
  nodup l := (h.nodup l).sublist (hsub l)
  owned l x hx := h.owned l x ((hsub l).subset hx)

lemma content_take_sublist (l' : L) : ((s.take l m).content l').Sublist (s.content l') := by
  by_cases hl : l' = l
  · subst hl
    rw [content_take_self]
    exact List.erase_sublist
  · rw [content_take_of_ne hl]

protected lemma Filed.pushTop (h : s.Filed) (hm : ∀ l', m ∈ s.content l' → l' = l) :
    (s.pushTop l m).Filed := by
  by_cases htop : (s.content l).head? = some m
  · rw [pushTop, if_pos htop]
    exact h
  have howner : (s.pushTop l m).owner = Function.update s.owner m (some l) := by
    rw [pushTop, if_neg htop]
  refine ⟨fun l' => ?_, fun l' x hx => ?_⟩
  · by_cases hl : l' = l
    · subst hl
      rw [pushTop, if_neg htop]
      simp only [update_self]
      exact List.nodup_cons.2 ⟨by simp, (h.nodup l').filter _⟩
    · rw [content_pushTop_of_ne hl]
      exact h.nodup l'
  · rw [howner]
    rcases mem_pushTop.1 hx with ⟨rfl, rfl⟩ | hold
    · exact update_self ..
    · by_cases hxm : x = m
      · subst hxm
        rw [update_self, hm l' hold]
      · rw [update_of_ne hxm]
        exact h.owned l' x hold

omit [DecidableEq L] [DecidableEq M] in
lemma Filed.nodup_flatMap (h : s.Filed) {ls : List L} (hls : ls.Nodup) :
    (ls.flatMap s.content).Nodup := by
  refine List.nodup_flatMap.2 ⟨fun l _ => h.nodup l, hls.imp fun hne => ?_⟩
  intro m hm hm'
  exact hne (h.eq_of_mem hm hm')

end Shelves
