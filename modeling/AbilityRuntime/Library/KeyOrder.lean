import AbilityRuntime.Library.Runs
import AbilityRuntime.Library.SortedMap

/-! Maps whose keys a comparison of the program tells apart. -/

namespace KeyOrder
variable {K V : Type}

inductive MapOp (K V : Type)
  | emplace (k : K) (v : V)
  | erase (k : K)

def apply [LinearOrder K] (m : SortedMap K V) : MapOp K V → SortedMap K V
  | .emplace k v => m.emplace k v
  | .erase k => m.erase k

def meaning [DecidableEq K] (f : K → Option V) : MapOp K V → K → Option V
  | .emplace k v => Function.update f k (some ((f k).getD v))
  | .erase k => Function.update f k none

def Orders (cmp : K → K → Bool) (keys : Set K) : Prop :=
  ∃ _ : LinearOrder keys, (∀ a b : keys, a < b ↔ cmp a b) ∧
    ∀ (V : Type) (ops : List (MapOp keys V)),
      (ops.foldl apply SortedMap.empty).find? = ops.foldl meaning fun _ => none

lemma find?_apply [LinearOrder K] (m : SortedMap K V) (o : MapOp K V) :
    (apply m o).find? = meaning m.find? o := by
  funext k
  cases o with
  | emplace k' v =>
    rw [apply, SortedMap.find?_emplace, meaning, Function.update_apply]
    simp only [eq_comm]
  | erase k' =>
    rw [apply, SortedMap.find?_erase, meaning, Function.update_apply]
    simp only [eq_comm]

theorem orders_iff {le : K → K → Prop} [IsPartialOrder K le] {cmp : K → K → Bool}
    (hcmp : ∀ a b, cmp a b ↔ ¬ le b a) {keys : Set K} :
    Orders cmp keys ↔ ∀ a ∈ keys, ∀ b ∈ keys, le a b ∨ le b a := by
  constructor
  · rintro ⟨_, hlt, -⟩ a ha b hb
    by_contra hnone
    rw [not_or] at hnone
    have hab := (hlt ⟨a, ha⟩ ⟨b, hb⟩).mpr ((hcmp a b).mpr hnone.2)
    exact hab.asymm ((hlt ⟨b, hb⟩ ⟨a, ha⟩).mpr ((hcmp b a).mpr hnone.1))
  · intro htotal
    let _ : LinearOrder keys :=
      { le := fun a b => le a b
        le_refl := fun a => refl_of le a.1
        le_trans := fun a b c => trans_of le
        le_antisymm := fun a b hab hba => Subtype.ext (antisymm_of le hab hba)
        le_total := fun a b => htotal a a.2 b b.2
        toDecidableLE := Classical.decRel _ }
    refine ⟨inferInstance, fun a b => not_le.symm.trans (hcmp a b).symm, fun V ops => ?_⟩
    refine Runs.simulation (R := fun (m : SortedMap keys V) f => m.find? = f) ?_ rfl ops
    rintro m _ o rfl
    exact find?_apply m o

end KeyOrder
