import AbilityRuntime.Library.Runs
import AbilityRuntime.UriPerm.Verify

/-! Revocation for one ability, and which grants survive it. -/

namespace AbilityRuntime.UriPerm
open Runs List TableOp

variable (tokenId : TokenId) (abilityId : AbilityId)

def GrantInfo.holds (g : GrantInfo) : Prop :=
  g.targetTokenId = tokenId ∧ abilityId ∈ g.abilityIds

lemma removeFromList_cons (it : GrantInfo) (list : List GrantInfo) :
    ¬ it.holds tokenId abilityId ∧ (removeFromList tokenId abilityId (it :: list)).1 =
        it :: (removeFromList tokenId abilityId list).1 ∨
      it.holds tokenId abilityId ∧ it.autoRemove = false ∧
        (removeFromList tokenId abilityId (it :: list)).1 =
          (it.removeAbilityId abilityId).2 :: (removeFromList tokenId abilityId list).1 ∨
      it.holds tokenId abilityId ∧ it.autoRemove = true ∧
        (removeFromList tokenId abilityId (it :: list)).1 =
          if it.abilityIds.erase abilityId = ∅ then list
            else (it.removeAbilityId abilityId).2 :: list := by
  by_cases ht : it.targetTokenId = tokenId
  · by_cases ha : abilityId ∈ it.abilityIds
    · cases hr : it.autoRemove with
      | false => exact .inr (.inl ⟨⟨ht, ha⟩, rfl, by
          simp [removeFromList, ht, GrantInfo.removeAbilityId, hr]⟩)
      | true =>
        refine .inr (.inr ⟨⟨ht, ha⟩, rfl, ?_⟩)
        by_cases he : it.abilityIds.erase abilityId = ∅ <;>
          simp [removeFromList, ht, GrantInfo.removeAbilityId, GrantInfo.isEmptyAbilityId, ha, hr,
            he]
    · refine .inl ⟨fun h => ha h.2, ?_⟩
      have hsame : (it.removeAbilityId abilityId).2 = it := by
        simp [GrantInfo.removeAbilityId, Finset.erase_eq_of_notMem ha]
      simp only [removeFromList, ht, ne_eq, not_true_eq_false, if_false]
      rw [if_pos (by simp [GrantInfo.removeAbilityId, ha]), hsame]
  · exact .inl ⟨fun h => ht h.1, by simp [removeFromList, ht]⟩

lemma not_holds_removeAbilityId (g : GrantInfo) :
    ¬ (g.removeAbilityId abilityId).2.holds tokenId abilityId := fun h =>
  Finset.notMem_erase abilityId g.abilityIds h.2

theorem removeFromList_complete_iff (list : List GrantInfo) :
    (∀ g ∈ (removeFromList tokenId abilityId list).1, ¬ g.holds tokenId abilityId) ↔
      list.Pairwise fun g g' =>
        ¬ (g.holds tokenId abilityId ∧ g.autoRemove = true ∧ g'.holds tokenId abilityId) := by
  induction list with
  | nil => simp [removeFromList]
  | cons it list ih =>
    rw [pairwise_cons]
    rcases removeFromList_cons tokenId abilityId it list with ⟨hn, he⟩ | ⟨hh, hr, he⟩ | ⟨hh, hr, he⟩
    · rw [he, forall_mem_cons, ih]
      simp [hn]
    · rw [he, forall_mem_cons, ih]
      simp [hr, not_holds_removeAbilityId]
    · -- the loop stops here, so the rest of the list has to be free of holders
      have hrest : (∀ g ∈ list, ¬ g.holds tokenId abilityId) ↔
          (∀ g' ∈ list, ¬ (it.holds tokenId abilityId ∧ it.autoRemove = true ∧
            g'.holds tokenId abilityId)) ∧
            list.Pairwise fun g g' =>
              ¬ (g.holds tokenId abilityId ∧ g.autoRemove = true ∧ g'.holds tokenId abilityId) := by
        simp only [hh, hr, true_and]
        refine ⟨fun h => ⟨h, ?_⟩, fun h => h.1⟩
        exact pairwise_of_forall_mem_list fun g hg g' _ hb => h g hg hb.1
      rw [← hrest, he]
      split_ifs
      · rfl
      · rw [forall_mem_cons]
        simp [not_holds_removeAbilityId]

theorem mem_removeFromList {tokenId : TokenId} {abilityId : AbilityId} {list : List GrantInfo}
    {g' : GrantInfo} (h : g' ∈ (removeFromList tokenId abilityId list).1) :
    ∃ g ∈ list, g' = g ∨ g' = (g.removeAbilityId abilityId).2 ∧
      (g.autoRemove = false ∨ g.abilityIds.erase abilityId ≠ ∅) := by
  induction list with
  | nil => cases h
  | cons it list ih =>
    rcases removeFromList_cons tokenId abilityId it list with ⟨-, he⟩ | ⟨-, hr, he⟩ | ⟨-, -, he⟩
    · rw [he] at h
      rcases mem_cons.mp h with rfl | h
      · exact ⟨g', mem_cons_self, .inl rfl⟩
      · obtain ⟨g, hg, hor⟩ := ih h
        exact ⟨g, mem_cons_of_mem it hg, hor⟩
    · rw [he] at h
      rcases mem_cons.mp h with rfl | h
      · exact ⟨it, mem_cons_self, .inr ⟨rfl, .inl hr⟩⟩
      · obtain ⟨g, hg, hor⟩ := ih h
        exact ⟨g, mem_cons_of_mem it hg, hor⟩
    · rw [he] at h
      split_ifs at h with hempty
      · exact ⟨g', mem_cons_of_mem it h, .inl rfl⟩
      · rcases mem_cons.mp h with rfl | h
        · exact ⟨it, mem_cons_self, .inr ⟨rfl, .inr hempty⟩⟩
        · exact ⟨g', mem_cons_of_mem it h, .inl rfl⟩

lemma filter_removeFromList (list : List GrantInfo) :
    (removeFromList tokenId abilityId list).1.filter (fun g => g.targetTokenId ≠ tokenId) =
      list.filter fun g => g.targetTokenId ≠ tokenId := by
  induction list with
  | nil => rfl
  | cons it list ih =>
    rcases removeFromList_cons tokenId abilityId it list with ⟨-, he⟩ | ⟨hh, -, he⟩ | ⟨hh, -, he⟩
    · rw [he, filter_cons, filter_cons, ih]
    · simpa [he, GrantInfo.removeAbilityId, hh.1] using ih
    · rw [he]
      split_ifs <;> simp [GrantInfo.removeAbilityId, hh.1]

structure RevokeComplete (before after : UriMap) (tokenId : TokenId) (abilityId : AbilityId) :
    Prop where
  ability_gone : ∀ uri, ∀ g ∈ records after uri, g.targetTokenId = tokenId →
    abilityId ∉ g.abilityIds
  emptied_gone : ∀ uri, ∀ g ∈ records before uri, ∀ g' ∈ records after uri, g'.key = g.key →
    g'.autoRemove = true → g.abilityIds ≠ ∅ → g'.abilityIds ≠ ∅
  others_kept : ∀ uri, (records after uri).filter (fun g => g.targetTokenId ≠ tokenId) =
    (records before uri).filter fun g => g.targetTokenId ≠ tokenId

lemma emptied_gone_removeUriRecord {m : UriMap} (hm : UniqueGrants m) (tokenId : TokenId)
    (abilityId : AbilityId) (uri : String) {g g' : GrantInfo} (hg : g ∈ records m uri)
    (hg' : g' ∈ records (removeUriRecord m tokenId abilityId).1 uri) (hk : g'.key = g.key)
    (hr : g'.autoRemove = true) (hne : g.abilityIds ≠ ∅) : g'.abilityIds ≠ ∅ := by
  rw [records_removeUriRecord] at hg'
  obtain ⟨g₀, hg₀, rfl | ⟨rfl, hor⟩⟩ := mem_removeFromList hg'
  · rwa [inj_on_of_nodup_map (hm uri) hg₀ hg hk]
  · rcases hor with ha | hids
    · rw [GrantInfo.removeAbilityId, ha] at hr
      cases hr
    · exact hids

theorem removeUriRecord_complete_iff (ops : List TableOp) (tokenId : TokenId)
    (abilityId : AbilityId) :
    RevokeComplete (runTable ops) (removeUriRecord (runTable ops) tokenId abilityId).1 tokenId
        abilityId ↔
      ∀ uri, (records (runTable ops) uri).Pairwise fun g g' =>
        ¬ (g.holds tokenId abilityId ∧ g.autoRemove = true ∧ g'.holds tokenId abilityId) := by
  have hgone (uri : String) :
      (∀ g ∈ records (removeUriRecord (runTable ops) tokenId abilityId).1 uri,
        g.targetTokenId = tokenId → abilityId ∉ g.abilityIds) ↔
      (records (runTable ops) uri).Pairwise fun g g' =>
        ¬ (g.holds tokenId abilityId ∧ g.autoRemove = true ∧ g'.holds tokenId abilityId) := by
    rw [← removeFromList_complete_iff, records_removeUriRecord]
    simp [GrantInfo.holds]
  constructor
  · exact fun h uri => (hgone uri).mp (h.ability_gone uri)
  · intro h
    refine ⟨fun uri => (hgone uri).mpr (h uri), fun uri g hg g' hg' => ?_, fun uri => ?_⟩
    · exact emptied_gone_removeUriRecord (uniqueGrants_runTable ops) tokenId abilityId uri hg hg'
    · rw [records_removeUriRecord, filter_removeFromList]

def twoGrantors : List TableOp :=
  [.addTempUriPermission "file://docs/a" flagReadUri 10 20 5,
    .addTempUriPermission "file://docs/a" flagReadUri 11 20 5]

theorem removeUriRecord_incomplete :
    ¬ ∀ (ops : List TableOp) (tokenId : TokenId) (abilityId : AbilityId),
      abilityId ≠ defaultAbilityId →
      RevokeComplete (runTable ops) (removeUriRecord (runTable ops) tokenId abilityId).1 tokenId
        abilityId := by
  intro h
  have hgone := (h twoGrantors 20 5 (by decide)).ability_gone "file://docs/a"
  exact absurd hgone (by decide)

def Unbound (m : UriMap) (uri : String) (flag : UInt32) (fromTokenId targetTokenId : TokenId) :
    Prop :=
  ∃ g ∈ records m uri, g.between fromTokenId targetTokenId ∧
    covers g.flag (requestedFlag flag) = true ∧ g.autoRemove = false

def keepsUnbound (m : UriMap) : TableOp → Prop
  | .addTempUriPermission uri flag fromTokenId targetTokenId abilityId =>
    ∀ item ∈ records m uri, item.between fromTokenId targetTokenId →
      ¬ (abilityId ≠ defaultAbilityId ∧ item.autoRemove = false ∧
          item.flag &&& flagWriteUri = 0 ∧ flag &&& flagWriteUri ≠ 0) ∧
      ¬ (abilityId = defaultAbilityId ∧ item.autoRemove = true ∧
          item.flag &&& flagWriteUri ≠ 0 ∧ flag &&& flagWriteUri = 0)
  | _ => True

def keepsRecord (uri : String) (fromTokenId targetTokenId : TokenId) (m : UriMap) (op : TableOp) :
    Prop :=
  match op with
  | .revokeAll _ _ | .revokeManually _ _ _ _ =>
    ∀ g ∈ records m uri, g.between fromTokenId targetTokenId → g ∈ records (op.apply m) uri
  | _ => True

instance (m : UriMap) (op : TableOp) : Decidable (keepsUnbound m op) :=
  match op with
  | .addTempUriPermission .. => inferInstanceAs (Decidable (∀ item ∈ _, _ → _ ∧ _))
  | .removeUriRecord .. | .revokeAll .. | .revokeManually .. => isTrue trivial

instance (uri : String) (a b : TokenId) (m : UriMap) (op : TableOp) :
    Decidable (keepsRecord uri a b m op) :=
  match op with
  | .revokeAll .. | .revokeManually .. => inferInstanceAs (Decidable (∀ g ∈ _, _ → _ ∈ _))
  | .addTempUriPermission .. | .removeUriRecord .. => isTrue trivial

namespace GrantInfo

@[simp] lemma autoRemove_addAbilityId (g : GrantInfo) (a : AbilityId) :
    (g.addAbilityId a).autoRemove = g.autoRemove := by
  unfold addAbilityId
  split_ifs <;> rfl

lemma autoRemove_regrant_default {g : GrantInfo} {flag : UInt32}
    (h : ¬ (g.autoRemove = true ∧ g.flag &&& flagWriteUri ≠ 0 ∧ flag &&& flagWriteUri = 0)) :
    (g.regrant flag defaultAbilityId).autoRemove = false := by
  simp only [regrant, flag_addAbilityId]
  split_ifs with h1 h2 h3
  · rfl
  · simpa [h2] using h
  · rfl
  · simp at h3

lemma autoRemove_regrant_ability {g : GrantInfo} {flag : UInt32} {a : AbilityId}
    (ha : a ≠ defaultAbilityId) (hr : g.autoRemove = false)
    (h : ¬ (g.flag &&& flagWriteUri = 0 ∧ flag &&& flagWriteUri ≠ 0)) :
    (g.regrant flag a).autoRemove = false := by
  simp only [regrant, flag_addAbilityId]
  rw [if_neg h]
  split_ifs with h2 h3
  · simpa using hr
  · simp [ha] at h3
  · simpa using hr

lemma covers_regrant_self (g : GrantInfo) (flag : UInt32) (a : AbilityId) :
    covers (g.regrant flag a).flag (requestedFlag flag) = true := by
  rw [covers_requestedFlag]
  intro hw
  by_cases hg : g.flag &&& flagWriteUri = 0
  · have hor : (g.flag ||| flagWriteUri) &&& flagWriteUri ≠ 0 := by
      rw [or_and_eq, ne_eq, UInt32.or_eq_zero_iff]
      exact fun h => absurd h.2 (by decide)
    simpa [regrant, hg, hw] using hor
  · exact write_regrant flag a hg

end GrantInfo

open GrantInfo

lemma unbound_regrant {g : GrantInfo} {flag flag' : UInt32} {a : AbilityId}
    (hr : g.autoRemove = false) (hc : covers g.flag (requestedFlag flag) = true)
    (h : ¬ (a ≠ defaultAbilityId ∧ g.autoRemove = false ∧ g.flag &&& flagWriteUri = 0 ∧
      flag' &&& flagWriteUri ≠ 0)) :
    covers (g.regrant flag' a).flag (requestedFlag flag) = true ∧
    (g.regrant flag' a).autoRemove = false := by
  refine ⟨covers_regrant flag' a hc, ?_⟩
  by_cases ha : a = defaultAbilityId
  · subst ha
    exact autoRemove_regrant_default fun hb => by simp [hr] at hb
  · exact autoRemove_regrant_ability ha hr fun hb => h ⟨ha, hr, hb⟩

lemma mem_addToList_default {list : List GrantInfo} {flag : UInt32}
    {fromTokenId targetTokenId : TokenId}
    (h : ∀ item ∈ list, item.between fromTokenId targetTokenId →
      ¬ (item.autoRemove = true ∧ item.flag &&& flagWriteUri ≠ 0 ∧ flag &&& flagWriteUri = 0)) :
    ∃ g ∈ addToList flag fromTokenId targetTokenId defaultAbilityId list,
      g.between fromTokenId targetTokenId ∧ covers g.flag (requestedFlag flag) = true ∧
        g.autoRemove = false := by
  induction list with
  | nil =>
    refine ⟨_, mem_singleton.mpr rfl, between_iff_key.mpr (key_newGrant ..), ?_, ?_⟩
    · rw [covers_requestedFlag]
      simp [newGrant]
    · simp [newGrant]
  | cons item list ih =>
    rw [addToList]
    split_ifs with hb
    · refine ⟨_, mem_cons_self, ?_, covers_regrant_self .., ?_⟩
      · rw [between_iff_key, key_regrant]
        exact between_iff_key.mp hb
      · exact autoRemove_regrant_default (h item mem_cons_self hb)
    · obtain ⟨g, hg, hp⟩ := ih fun i hi => h i (mem_cons_of_mem _ hi)
      exact ⟨g, mem_cons_of_mem _ hg, hp⟩

lemma mem_removeFromList_of_unbound {g : GrantInfo} {list : List GrantInfo} (tokenId : TokenId)
    (abilityId : AbilityId) (hg : g ∈ list) (hr : g.autoRemove = false) :
    g ∈ (removeFromList tokenId abilityId list).1 ∨
      (g.removeAbilityId abilityId).2 ∈ (removeFromList tokenId abilityId list).1 := by
  induction list with
  | nil => cases hg
  | cons it list ih =>
    have hrest (hg : g ∈ list) (x : GrantInfo) :
        g ∈ x :: (removeFromList tokenId abilityId list).1 ∨
          (g.removeAbilityId abilityId).2 ∈ x :: (removeFromList tokenId abilityId list).1 :=
      (ih hg).imp (mem_cons_of_mem _) (mem_cons_of_mem _)
    rcases removeFromList_cons tokenId abilityId it list with ⟨-, he⟩ | ⟨-, -, he⟩ | ⟨-, ha, he⟩
    · rw [he]
      rcases mem_cons.mp hg with rfl | hg
      · exact .inl mem_cons_self
      · exact hrest hg _
    · rw [he]
      rcases mem_cons.mp hg with rfl | hg
      · exact .inr mem_cons_self
      · exact hrest hg _
    · rcases mem_cons.mp hg with rfl | hg
      · rw [hr] at ha
        cases ha
      · rw [he]
        split_ifs
        · exact .inl hg
        · exact .inl (mem_cons_of_mem _ hg)

lemma unbound_apply {m : UriMap} {uri : String} {flag : UInt32}
    {fromTokenId targetTokenId : TokenId}
    (h : Unbound m uri flag fromTokenId targetTokenId) {op : TableOp} (hc : keepsUnbound m op)
    (hk : keepsRecord uri fromTokenId targetTokenId m op) :
    Unbound (op.apply m) uri flag fromTokenId targetTokenId := by
  obtain ⟨g, hg, hb, hcov, hr⟩ := h
  cases op with
  | addTempUriPermission uri' flag' fromTokenId' targetTokenId' abilityId =>
    by_cases hu : uri' = uri
    · subst hu
      unfold Unbound apply
      rw [records_addTempUriPermission, if_pos rfl]
      rcases mem_addToList_of_mem flag' fromTokenId' targetTokenId' abilityId hg with hm | ⟨hb', hm⟩
      · exact ⟨g, hm, hb, hcov, hr⟩
      · refine ⟨_, hm, ?_, unbound_regrant hr hcov (hc g hg hb').1⟩
        rw [between_iff_key, key_regrant]
        exact between_iff_key.mp hb
    · refine ⟨g, ?_, hb, hcov, hr⟩
      simpa [apply, records_addTempUriPermission, hu] using hg
  | removeUriRecord tokenId abilityId =>
    unfold Unbound apply
    rw [records_removeUriRecord]
    rcases mem_removeFromList_of_unbound tokenId abilityId hg hr with hm | hm
    · exact ⟨g, hm, hb, hcov, hr⟩
    · exact ⟨_, hm, hb, hcov, hr⟩
  | revokeAll _ _ => exact ⟨g, hk g hg hb, hb, hcov, hr⟩
  | revokeManually _ _ _ _ => exact ⟨g, hk g hg hb, hb, hcov, hr⟩

theorem defaultGrant_survives (before after : List TableOp) (uri : String) (flag : UInt32)
    (fromTokenId targetTokenId : TokenId)
    (hc : Guarded apply keepsUnbound SortedMap.empty
      (before ++ .addTempUriPermission uri flag fromTokenId targetTokenId defaultAbilityId ::
        after))
    (hk : Guarded apply (keepsRecord uri fromTokenId targetTokenId)
      (runTable (before ++ [.addTempUriPermission uri flag fromTokenId targetTokenId
        defaultAbilityId])) after) :
    ∃ g ∈ records (runTable
        (before ++ .addTempUriPermission uri flag fromTokenId targetTokenId defaultAbilityId ::
          after)) uri,
      g.between fromTokenId targetTokenId ∧ covers g.flag (requestedFlag flag) = true := by
  rw [append_cons, guarded_append] at hc
  obtain ⟨hcb, hca⟩ := hc
  rw [guarded_append] at hcb
  have hgrant : Unbound
      (runTable (before ++ [.addTempUriPermission uri flag fromTokenId targetTokenId
        defaultAbilityId]))
      uri flag fromTokenId targetTokenId := by
    have hitems := hcb.2.1
    unfold Unbound runTable
    rw [foldl_append, foldl_cons, foldl_nil]
    simp only [apply, records_addTempUriPermission]
    exact mem_addToList_default fun item hi hb hbad => (hitems item hi hb).2 ⟨rfl, hbad⟩
  have hend := (hca.and hk).invariant
    (I := fun m => Unbound m uri flag fromTokenId targetTokenId)
    (fun m op hm hok => unbound_apply hm hok.1 hok.2) hgrant
  rw [append_cons, runTable, foldl_append]
  obtain ⟨g, hg, hb, hcov, -⟩ := hend
  exact ⟨g, hg, hb, hcov⟩

theorem defaultGrant_survives_readGrant : ∃ g ∈ records (runTable
        ([] ++ .addTempUriPermission "file://docs/a" flagReadUri 10 20 defaultAbilityId ::
          [.addTempUriPermission "file://docs/a" flagReadUri 10 20 5, .removeUriRecord 20 5]))
          "file://docs/a",
      g.between 10 20 ∧ covers g.flag (requestedFlag flagReadUri) = true :=
  defaultGrant_survives [] _ _ _ 10 20 (by decide) (by decide)

theorem defaultGrant_lost : ¬ ∀ (before after : List TableOp) (uri : String)
    (flag : UInt32) (fromTokenId targetTokenId : TokenId),
      Guarded apply (keepsRecord uri fromTokenId targetTokenId)
        (runTable (before ++ [.addTempUriPermission uri flag fromTokenId targetTokenId
          defaultAbilityId])) after →
      ∃ g ∈ records (runTable
          (before ++ .addTempUriPermission uri flag fromTokenId targetTokenId defaultAbilityId ::
            after)) uri,
        g.between fromTokenId targetTokenId ∧ covers g.flag (requestedFlag flag) = true := by
  intro h
  have hrecord := h [] [.addTempUriPermission "file://docs/a" flagWriteUri 10 20 5,
    .removeUriRecord 20 5]
    "file://docs/a" flagReadUri 10 20 (by decide)
  exact absurd hrecord (by decide)

end AbilityRuntime.UriPerm
