import Mathlib.Data.Int.Notation
import Mathlib.Data.List.Nodup
import AbilityRuntime.Library.Runs

/-! Preloaded UI extensions and the starts that take them. -/

namespace AbilityRuntime
open List Runs

structure PreLoadUIExtensionMapKey where
  abilityName : String
  bundleName : String
  moduleName : String
  hostBundleName : String
  deriving DecidableEq

/-- Records stand for themselves by `extensionRecordId_`, and a key without records has no entry in
the map. `picked` is what the start that holds `serialMutex_` was given and has not erased yet. -/
structure PreloadUIExtensions where
  preloadUIExtensionMap : PreLoadUIExtensionMapKey → List ℤ := fun _ => []
  picked : Option ℤ := none
  added : List ℤ := []
  given : List ℤ := []
  gone : List ℤ := []

inductive PreloadOp
  | dispatchInactive (id : ℤ)
  | isPreloadExtensionRecord (key : PreLoadUIExtensionMapKey)
  | removePreloadUIExtensionRecord
  | removePreloadUIExtensionRecordById (id : ℤ)

namespace PreloadUIExtensions
variable (keyOf : ℤ → PreLoadUIExtensionMapKey) (s : PreloadUIExtensions) (id : ℤ)

def setRecords (f : List ℤ → List ℤ) : PreloadUIExtensions :=
  { s with
    preloadUIExtensionMap := fun key =>
      if key = keyOf id then f (s.preloadUIExtensionMap key) else s.preloadUIExtensionMap key }

def addPreloadUIExtensionRecord : PreloadUIExtensions :=
  { s.setRecords keyOf id (· ++ [id]) with added := id :: s.added }

def isPreloadExtensionRecord (key : PreLoadUIExtensionMapKey) : PreloadUIExtensions :=
  match s.preloadUIExtensionMap key with
  | [] => s
  | id :: _ => { s with picked := some id, given := id :: s.given }

def removePreloadUIExtensionRecordById : PreloadUIExtensions :=
  { s.setRecords keyOf id (·.erase id) with gone := id :: s.gone }

def removePreloadUIExtensionRecord : PreloadUIExtensions :=
  { s.setRecords keyOf id tail with picked := none }

/-- The end of a record is cleared by its id at any time, as `UnloadUIExtensionAbility` does not
wait for `serialMutex_`; a record is inactivating once. -/
def step (o : PreloadOp) : PreloadUIExtensions :=
  match o, s.picked with
  | .removePreloadUIExtensionRecordById id, _ => s.removePreloadUIExtensionRecordById keyOf id
  | .removePreloadUIExtensionRecord, some id => s.removePreloadUIExtensionRecord keyOf id
  | .dispatchInactive id, none =>
    if id ∈ s.added then s else s.addPreloadUIExtensionRecord keyOf id
  | .isPreloadExtensionRecord key, none => s.isPreloadExtensionRecord key
  | _, _ => s

def Holds : Prop := id ∈ s.preloadUIExtensionMap (keyOf id)

def UsedOnce : Prop :=
  s.given.Nodup ∧ ∀ id ∈ s.added, s.Holds keyOf id ∨ id ∈ s.given ∨ id ∈ s.gone

def Fits (o : PreloadOp) : Prop := ∀ id ∈ s.picked, o ≠ .removePreloadUIExtensionRecordById id

structure Inv : Prop where
  usedOnce : s.UsedOnce keyOf
  nodup : ∀ key, (s.preloadUIExtensionMap key).Nodup
  home : ∀ key, ∀ id ∈ s.preloadUIExtensionMap key, keyOf id = key
  added : ∀ id, s.Holds keyOf id ∨ id ∈ s.given → id ∈ s.added
  picked : ∀ id ∈ s.given, s.Holds keyOf id → s.picked = some id
  first : ∀ id, s.picked = some id →
    (s.preloadUIExtensionMap (keyOf id)).head? = some id ∧ id ∈ s.given

variable {keyOf s id}

lemma holds_add {x : ℤ} : (s.addPreloadUIExtensionRecord keyOf id).Holds keyOf x ↔
    s.Holds keyOf x ∨ x = id := by
  simp only [Holds, addPreloadUIExtensionRecord, setRecords]
  grind

lemma Inv.add (h : s.Inv keyOf) (hx : id ∉ s.added) :
    (s.addPreloadUIExtensionRecord keyOf id).Inv keyOf where
  usedOnce := by
    refine ⟨h.usedOnce.1, fun x hadded => ?_⟩
    rcases mem_cons.mp hadded with he | hold
    · exact .inl (holds_add.mpr (.inr he))
    · exact (h.usedOnce.2 x hold).imp_left fun hin => holds_add.mpr (.inl hin)
  nodup key := by
    have hnew : ¬ s.Holds keyOf id := fun hin => hx (h.added id (.inl hin))
    have hlist := h.nodup key
    grind [Holds, addPreloadUIExtensionRecord, setRecords]
  home key x hin := by
    have hold := h.home key x
    grind [addPreloadUIExtensionRecord, setRecords]
  added x hor := by
    rcases hor with hin | hgiven
    · exact mem_cons.mpr ((holds_add.mp hin).symm.imp_right fun hold => h.added x (.inl hold))
    · exact mem_cons_of_mem _ (h.added x (.inr hgiven))
  picked x hgiven hin := by
    rcases holds_add.mp hin with hold | rfl
    · exact h.picked x hgiven hold
    · exact absurd (h.added x (.inr hgiven)) hx
  first x hpicked := by
    obtain ⟨hhead, hgiven⟩ := h.first x hpicked
    refine ⟨?_, hgiven⟩
    grind [addPreloadUIExtensionRecord, setRecords]

lemma Inv.pick (h : s.Inv keyOf) (hnone : s.picked = none) (key : PreLoadUIExtensionMapKey) :
    (s.isPreloadExtensionRecord key).Inv keyOf := by
  unfold isPreloadExtensionRecord
  split
  · exact h
  rename_i id ids hlist
  have hkey : keyOf id = key := h.home key id (hlist ▸ mem_cons_self)
  have hin : s.Holds keyOf id := by
    rw [Holds, hkey, hlist]
    exact mem_cons_self
  have hfresh {x : ℤ} (hx : s.Holds keyOf x) : x ∉ s.given := fun hgiven =>
    nomatch hnone.symm.trans (h.picked x hgiven hx)
  refine ⟨⟨nodup_cons.mpr ⟨hfresh hin, h.usedOnce.1⟩, fun x hadded => ?_⟩, h.nodup, h.home,
    fun x hor => ?_, fun x hgiven hx => ?_, fun x hpicked => ?_⟩
  · exact (h.usedOnce.2 x hadded).imp_right (.imp_left (mem_cons_of_mem _))
  · rcases hor with hx | hgiven
    · exact h.added x (.inl hx)
    · exact (mem_cons.mp hgiven).elim (fun he => he ▸ h.added id (.inl hin))
        fun hold => h.added x (.inr hold)
  · exact congrArg some ((mem_cons.mp hgiven).resolve_right (hfresh hx)).symm
  · obtain rfl := Option.some.inj hpicked
    refine ⟨?_, mem_cons_self⟩
    rw [hkey, hlist, head?_cons]

lemma sublist_erase (key : PreLoadUIExtensionMapKey) :
    (s.setRecords keyOf id (·.erase id)).preloadUIExtensionMap key <+
      s.preloadUIExtensionMap key := by
  simp only [setRecords]
  split_ifs
  · exact erase_sublist
  · exact .refl _

lemma Inv.holds_erase (h : s.Inv keyOf) {x : ℤ} :
    (s.setRecords keyOf id (·.erase id)).Holds keyOf x ↔ s.Holds keyOf x ∧ x ≠ id := by
  have hlist := (h.nodup (keyOf id)).mem_erase_iff (a := x) (b := id)
  simp only [Holds, setRecords]
  grind

lemma Inv.erase (h : s.Inv keyOf) {picked : Option ℤ} {gone : List ℤ}
    (hpicked : ∀ x, picked = some x ↔ s.picked = some x ∧ x ≠ id)
    (hgone : id ∈ s.given ∨ id ∈ gone) (hsub : s.gone ⊆ gone) :
    { s.setRecords keyOf id (·.erase id) with picked, gone }.Inv keyOf where
  usedOnce := by
    refine ⟨h.usedOnce.1, fun x hadded => ?_⟩
    by_cases he : x = id
    · exact .inr (he ▸ hgone)
    · exact (h.usedOnce.2 x hadded).imp (fun hin => h.holds_erase.mpr ⟨hin, he⟩)
        (.imp_right fun hold => hsub hold)
  nodup key := (h.nodup key).sublist (sublist_erase key)
  home key x hin := h.home key x ((sublist_erase key).subset hin)
  added x hor := h.added x (hor.imp_left fun hin => (h.holds_erase.mp hin).1)
  picked x hgiven hin := by
    obtain ⟨hheld, hne⟩ := h.holds_erase.mp hin
    exact (hpicked x).mpr ⟨h.picked x hgiven hheld, hne⟩
  first x hx := by
    obtain ⟨hold, hne⟩ := (hpicked x).mp hx
    obtain ⟨hhead, hgiven⟩ := h.first x hold
    refine ⟨?_, hgiven⟩
    grind [setRecords, head?_eq_some_iff]

lemma Inv.removeById (h : s.Inv keyOf) (hx : s.picked ≠ some id) :
    (s.removePreloadUIExtensionRecordById keyOf id).Inv keyOf :=
  h.erase (fun _ => ⟨fun hold => ⟨hold, fun he => hx (he ▸ hold)⟩, And.left⟩) (.inr mem_cons_self)
    (subset_cons_self ..)

lemma Inv.remove (h : s.Inv keyOf) (hx : s.picked = some id) :
    (s.removePreloadUIExtensionRecord keyOf id).Inv keyOf := by
  obtain ⟨hhead, hgiven⟩ := h.first id hx
  -- the first record is still the one that was given, so it is the one that is erased
  have htail : s.setRecords keyOf id tail = s.setRecords keyOf id (·.erase id) := by
    obtain ⟨ids, hlist⟩ := head?_eq_some_iff.mp hhead
    simp only [setRecords]
    congr
    grind
  have hnone (x : ℤ) : none = some x ↔ s.picked = some x ∧ x ≠ id :=
    iff_of_false nofun fun ⟨hold, hne⟩ => hne (Option.some.inj (hold.symm.trans hx))
  unfold removePreloadUIExtensionRecord
  rw [htail]
  exact h.erase hnone (.inl hgiven) (Subset.refl _)

lemma Inv.step (h : s.Inv keyOf) (o : PreloadOp) (ho : s.Fits o) : (s.step keyOf o).Inv keyOf := by
  unfold PreloadUIExtensions.step
  split
  · exact h.removeById fun hx => ho _ hx rfl
  · exact h.remove ‹_›
  · split_ifs with hx
    · exact h
    · exact h.add hx
  · exact h.pick ‹_› _
  · exact h

theorem usedOnce_of_fits (ops : List PreloadOp) (hg : Guarded (step keyOf) Fits {} ops) :
    (ops.foldl (step keyOf) {}).UsedOnce keyOf := by
  have hinit : Inv keyOf {} := by constructor <;> simp [Holds, UsedOnce]
  exact (hg.invariant (fun _ o hs ho => hs.step o ho) hinit).usedOnce

def key : PreLoadUIExtensionMapKey := ⟨"", "", "", ""⟩

theorem taken_usedOnce : UsedOnce (fun _ => key) (foldl (step fun _ => key) {}
    [.dispatchInactive 1, .dispatchInactive 2, .isPreloadExtensionRecord key,
      .removePreloadUIExtensionRecord, .removePreloadUIExtensionRecordById 1]) :=
  usedOnce_of_fits _ (by simp [Guarded, Fits, step, isPreloadExtensionRecord,
    addPreloadUIExtensionRecord, setRecords, removePreloadUIExtensionRecord])

end PreloadUIExtensions

end AbilityRuntime
