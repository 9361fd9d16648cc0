import AbilityRuntime.AbilityMgr.MissionListManager

/-! What the operations of the manager do to its lists. A list that is not linked yet counts as held
while an operation works on it. -/

namespace AbilityRuntime
namespace MissionLists
open List Shelves
variable {s s' : MissionLists} {loc loc' : Option ListRef} {l t : ListRef} {m x : MissionRef}

variable (s) (loc)

def Reached (l : ListRef) : Prop :=
  s.isAlive l = true ∨ loc = some l

def Held (m : MissionRef) : Prop :=
  ∃ l, s.Reached loc l ∧ m ∈ s.missions l

structure Arranged (s : MissionLists) : Prop where
  filed : s.shelves.Filed
  unborn : ∀ m, s.nextMission ≤ m → s.shelves.owner m = none
  current_nodup : s.currentMissionLists.Nodup
  current_kind : ∀ l ∈ s.currentMissionLists, l.isDefault = false
  unused : ∀ n, s.nextList ≤ n → s.missions (.current n) = []

def NoneEmpty : Prop :=
  ∀ n, .current n ∈ s.currentMissionLists → s.missions (.current n) ≠ []

def LauncherLinked : Prop :=
  s.missions .launcherList ≠ [] → .launcherList ∈ s.currentMissionLists ∨ loc = some .launcherList

variable {loc} {s}

structure Effect (loc loc' : Option ListRef) (gone new : MissionRef → Prop)
    (s s' : MissionLists) : Prop where
  arranged : s'.Arranged
  kept : ∀ m, s.Held loc m → s'.Held loc' m ∨ gone m
  origin : ∀ m, s'.Held loc' m → s.Held loc m ∨ new m
  grows : s.nextMission ≤ s'.nextMission
  makes : s.nextList ≤ s'.nextList
  launcher : s.LauncherLinked loc → s'.LauncherLinked loc'

abbrev Reorders (loc loc' : Option ListRef) (s s' : MissionLists) : Prop :=
  Effect loc loc' (fun _ => False) (fun _ => False) s s'

lemma isAlive_of_mem (h : l ∈ s.currentMissionLists) : s.isAlive l = true := by
  cases l with
  | current n => exact decide_eq_true h
  | _ => rfl

lemma isAlive_current {n : ℕ} : s.isAlive (.current n) = true ↔
    .current n ∈ s.currentMissionLists :=
  decide_eq_true_iff

lemma Arranged.mem_owner (h : s.Arranged) (hm : m ∈ s.missions l) : s.shelves.owner m = some l :=
  h.filed.owned l m hm

lemma Arranged.eq_of_mem (h : s.Arranged) (hm : m ∈ s.missions l) (hm' : m ∈ s.missions t) :
    l = t :=
  h.filed.eq_of_mem hm hm'

lemma Arranged.lt_of_mem (h : s.Arranged) (hm : m ∈ s.missions l) : m < s.nextMission := by
  by_contra hge
  have hnone := h.unborn m (not_lt.1 hge)
  rw [h.mem_owner hm] at hnone
  cases hnone

lemma Arranged.lt_of_mem_current (h : s.Arranged) {n : ℕ} (hm : m ∈ s.missions (.current n)) :
    n < s.nextList := by
  by_contra hge
  rw [h.unused n (not_lt.1 hge)] at hm
  cases hm

lemma getMissionList_eq (h : s.getMissionList m = some l) :
    s.shelves.owner m = some l ∧ s.isAlive l = true :=
  Option.filter_eq_some_iff.1 h

lemma Arranged.getMissionList_of_mem (h : s.Arranged) (hm : m ∈ s.missions l)
    (hl : s.isAlive l = true) : s.getMissionList m = some l :=
  Option.filter_eq_some_iff.2 ⟨h.mem_owner hm, hl⟩

lemma Arranged.mem_of_getMissionList (h : s.Arranged) (hheld : s.Held none m)
    (hl : s.getMissionList m = some l) : m ∈ s.missions l := by
  obtain ⟨k, -, hm⟩ := hheld
  have heq : k = l := Option.some.inj ((h.mem_owner hm).symm.trans (getMissionList_eq hl).1)
  exact heq ▸ hm

lemma Held.mono (h : s.Held none m) : s.Held loc m := by
  obtain ⟨l, hl | hl, hm⟩ := h
  · exact ⟨l, .inl hl, hm⟩
  · cases hl

namespace Effect
variable {gone gone' new new' : MissionRef → Prop}

lemma refl (h : s.Arranged) : Effect loc loc gone new s s :=
  ⟨h, fun _ hm => .inl hm, fun _ hm => .inl hm, le_rfl, le_rfl, id⟩

lemma trans {s₁ s₂ s₃ : MissionLists} {l₁ l₂ l₃ : Option ListRef} (h : Effect l₁ l₂ gone new s₁ s₂)
    (h' : Effect l₂ l₃ gone new s₂ s₃) : Effect l₁ l₃ gone new s₁ s₃ where
  __ := h'
  kept m hm := (h.kept m hm).elim (h'.kept m) .inr
  origin m hm := (h'.origin m hm).elim (h.origin m) .inr
  grows := h.grows.trans h'.grows
  makes := h.makes.trans h'.makes
  launcher := h'.launcher ∘ h.launcher

lemma weaken (h : Effect loc loc' gone new s s') (hg : ∀ m, gone m → gone' m)
    (hn : ∀ m, new m → new' m) : Effect loc loc' gone' new' s s' where
  __ := h
  kept m hm := (h.kept m hm).imp_right (hg m)
  origin m hm := (h.origin m hm).imp_right (hn m)

end Effect

lemma missions_removeMission_of_ne {k : ListRef} (h : k ≠ l) :
    (s.removeMission l m).missions k = s.missions k :=
  content_take_of_ne h

lemma Arranged.mem_removeMission (h : s.Arranged) {k : ListRef} :
    x ∈ (s.removeMission l m).missions k ↔ x ∈ s.missions k ∧ ¬ (k = l ∧ x = m) :=
  mem_take (h.filed.nodup l)

lemma mem_addMissionToTop {k : ListRef} :
    x ∈ (s.addMissionToTop l m).missions k ↔ (k = l ∧ x = m) ∨ x ∈ s.missions k :=
  mem_pushTop

variable {content : ListRef → List MissionRef}

section
variable (h : s.Arranged)
include h

lemma Arranged.shrink (hsub : ∀ l, (content l).Sublist (s.missions l)) :
    { s with shelves := { s.shelves with content := content } }.Arranged where
  filed := h.filed.sublist hsub
  __ := h
  unused n hn := by
    have hle := hsub (.current n)
    rw [h.unused n hn] at hle
    exact sublist_nil.1 hle

lemma Arranged.removeMission (l : ListRef) (m : MissionRef) : (s.removeMission l m).Arranged :=
  h.shrink content_take_sublist

lemma Arranged.addMissionToTop (hborn : m < s.nextMission)
    (hlist : ∀ n, l = .current n → n < s.nextList) (hm : ∀ k, m ∈ s.missions k → k = l) :
    (s.addMissionToTop l m).Arranged where
  filed := h.filed.pushTop hm
  unborn x hx := by
    have hne : x ≠ m := fun hxm => absurd hx (not_le.2 (hxm ▸ hborn))
    exact (owner_pushTop_of_ne hne).trans (h.unborn x hx)
  __ := h
  unused n hn := by
    have hne : ListRef.current n ≠ l := fun hl => absurd (hlist n hl.symm) (not_lt.2 hn)
    exact (content_pushTop_of_ne hne).trans (h.unused n hn)

lemma Effect.shrink {gone : MissionRef → Prop} (hsub : ∀ l, (content l).Sublist (s.missions l))
    (hgone : ∀ l, ∀ x ∈ s.missions l, x ∈ content l ∨ gone x) :
    Effect loc loc gone (fun _ => False) s
      { s with shelves := { s.shelves with content := content } } where
  arranged := h.shrink hsub
  kept x := by
    rintro ⟨k, hk, hx⟩
    exact (hgone k x hx).imp_left fun hin => ⟨k, hk, hin⟩
  origin x := by
    rintro ⟨k, hk, hx⟩
    exact .inl ⟨k, hk, (hsub k).subset hx⟩
  grows := le_rfl
  makes := le_rfl
  launcher hlink hne := hlink fun hnil => hne <| by
    have hle := hsub .launcherList
    rw [hnil] at hle
    exact sublist_nil.1 hle

lemma Effect.removeMission (l : ListRef) (m : MissionRef) :
    Effect loc loc (· = m) (fun _ => False) s (s.removeMission l m) := by
  refine Effect.shrink h content_take_sublist fun k x hx => ?_
  by_cases hxm : x = m
  · exact .inr hxm
  · exact .inl (h.mem_removeMission.2 ⟨hx, fun hc => hxm hc.2⟩)

lemma Effect.addMissionToTop (hborn : m < s.nextMission)
    (hlist : ∀ n, l = .current n → n < s.nextList) (hl : s.Reached loc l)
    (hm : ∀ k, m ∈ s.missions k → k = l)
    (hlaunch : l = .launcherList → loc = some l ∨ m ∈ s.missions l) :
    Effect loc loc (fun _ => False) (fun x => x = m ∧ ∀ k, m ∉ s.missions k) s
      (s.addMissionToTop l m) where
  arranged := h.addMissionToTop hborn hlist hm
  kept x := by
    rintro ⟨k, hk, hx⟩
    exact .inl ⟨k, hk, mem_addMissionToTop.2 (.inr hx)⟩
  origin x := by
    rintro ⟨k, hk, hx⟩
    rcases mem_addMissionToTop.1 hx with ⟨rfl, rfl⟩ | hold
    · by_cases hin : x ∈ s.missions k
      · exact .inl ⟨k, hl, hin⟩
      · exact .inr ⟨rfl, fun k' hk' => hin (hm k' hk' ▸ hk')⟩
    · exact .inl ⟨k, hk, hold⟩
  grows := le_rfl
  makes := le_rfl
  launcher hlink hne := by
    by_cases hnil : s.missions .launcherList = []
    · obtain ⟨x, hx⟩ := exists_mem_of_ne_nil _ hne
      rcases mem_addMissionToTop.1 hx with ⟨rfl, rfl⟩ | hold
      · refine .inr ((hlaunch rfl).resolve_right fun hin => ?_)
        rw [hnil] at hin
        cases hin
      · rw [hnil] at hold
        cases hold
    · exact hlink hnil

lemma Effect.move (hm : m ∈ s.missions l) (hl : s.Reached loc l)
    (hlist : ∀ n, t = .current n → n < s.nextList) (ht : s.Reached loc t)
    (hlaunch : t = .launcherList → loc = some t) :
    Reorders loc loc s ((s.removeMission l m).addMissionToTop t m) := by
  have hout : ∀ k, m ∉ (s.removeMission l m).missions k := fun k hk => by
    obtain ⟨hold, hne⟩ := h.mem_removeMission.1 hk
    exact hne ⟨h.eq_of_mem hold hm, rfl⟩
  have hboth := ((Effect.removeMission h l m).weaken (fun _ => id) fun _ => False.elim).trans
    ((Effect.addMissionToTop (h.removeMission l m) (h.lt_of_mem hm) hlist ht
      (fun k hk => absurd hk (hout k)) fun hl => .inl (hlaunch hl)).weaken
        (fun _ => False.elim) fun _ => id)
  refine { hboth with kept := fun x hx => ?_, origin := fun x hx => ?_ }
  · refine .inl ((hboth.kept x hx).elim id ?_)
    rintro rfl
    exact ⟨t, ht, mem_addMissionToTop.2 (.inl ⟨rfl, rfl⟩)⟩
  · refine .inl ((hboth.origin x hx).elim id ?_)
    rintro ⟨rfl, -⟩
    exact ⟨l, hl, hm⟩

theorem Effect.relink {lists : List ListRef} (hnodup : lists.Nodup)
    (hkind : ∀ l ∈ lists, l.isDefault = false)
    (hreach : ∀ l, s.missions l ≠ [] → (s.Reached loc l ↔
      { s with currentMissionLists := lists }.Reached loc' l))
    (hlaunch : .launcherList ∈ s.currentMissionLists ∨ loc = some .launcherList →
      s.missions .launcherList ≠ [] → .launcherList ∈ lists ∨ loc' = some .launcherList) :
    Reorders loc loc' s { s with currentMissionLists := lists } where
  arranged := ⟨h.filed, h.unborn, hnodup, hkind, h.unused⟩
  kept x := by
    rintro ⟨k, hk, hx⟩
    exact .inl ⟨k, (hreach k (ne_nil_of_mem hx)).1 hk, hx⟩
  origin x := by
    rintro ⟨k, hk, hx⟩
    exact .inl ⟨k, (hreach k (ne_nil_of_mem hx)).2 hk, hx⟩
  grows := le_rfl
  makes := le_rfl
  launcher hlink hne := hlaunch (hlink hne) hne

end

lemma isEmpty_iff : s.isEmpty l = true ↔ s.missions l = [] := List.isEmpty_iff

section
variable (h : s.Arranged)
include h

lemma Effect.unlink (hl : s.missions l = []) {lists : List ListRef}
    (hsub : lists.Sublist s.currentMissionLists)
    (hmem : ∀ k ∈ s.currentMissionLists, k ≠ l → k ∈ lists) :
    Reorders loc loc s { s with currentMissionLists := lists } := by
  refine .relink h (h.current_nodup.sublist hsub)
    (fun k hk => h.current_kind k (hsub.subset hk)) (fun k hk => ?_) fun hlink hne =>
      hlink.imp_left fun hin => hmem _ hin fun hkl => hne (hkl ▸ hl)
  have hne : k ≠ l := fun hkl => hk (hkl ▸ hl)
  refine or_congr_left ?_
  cases k with
  | current n =>
    rw [isAlive_current, isAlive_current]
    exact ⟨fun hin => hmem _ hin hne, fun hin => hsub.subset hin⟩
  | _ => exact .rfl

lemma Effect.raise {gone new : MissionRef → Prop} (hin : m ∈ s.missions t) (ht : s.Reached loc t)
    (hmade : ∀ n, t = .current n → n < s.nextList) :
    Effect loc loc gone new s (s.addMissionToTop t m) := by
  refine (Effect.addMissionToTop h (h.lt_of_mem hin) hmade ht
    (fun k hk => h.eq_of_mem hk hin) fun _ => .inr hin).weaken (fun _ => False.elim) ?_
  rintro x ⟨-, hnot⟩
  exact absurd hin (hnot t)

lemma Effect.born : Reorders loc loc s
      { s with nextMission := s.nextMission + 1 } where
  arranged := { h with unborn := fun m hm => h.unborn m (Nat.le_of_succ_le hm) }
  kept _ hm := .inl hm
  origin _ hm := .inl hm
  grows := Nat.le_succ _
  makes := le_rfl
  launcher := id

lemma Effect.makeMissionList : Reorders none (some (.current s.nextList)) s
      { s with nextList := s.nextList + 1 } where
  arranged := { h with unused := fun n hn => h.unused n (Nat.le_of_succ_le hn) }
  kept _ hm := .inl hm.mono
  origin m := by
    rintro ⟨k, hk | hk, hm⟩
    · exact .inl ⟨k, .inl hk, hm⟩
    · cases hk
      exact absurd (h.lt_of_mem_current hm) (lt_irrefl _)
  grows := le_rfl
  makes := Nat.le_succ _
  launcher hlink hne := .inl ((hlink hne).elim id nofun)

lemma Effect.take_hold (ht : s.isAlive t = true) : Reorders none (some t) s s where
  arranged := h
  kept _ hm := .inl hm.mono
  origin m := by
    rintro ⟨k, hk | hk, hm⟩
    · exact .inl ⟨k, .inl hk, hm⟩
    · exact .inl ⟨k, .inl (Option.some.inj hk ▸ ht), hm⟩
  grows := le_rfl
  makes := le_rfl
  launcher hlink hne := .inl ((hlink hne).elim id nofun)

lemma Effect.let_go (ht : t ∈ s.currentMissionLists ∨ s.missions t = []) :
    Reorders (some t) none s s where
  arranged := h
  kept m := by
    rintro ⟨k, hk | hk, hm⟩
    · exact .inl ⟨k, .inl hk, hm⟩
    · cases hk
      rcases ht with hin | hnil
      · exact .inl ⟨t, .inl (isAlive_of_mem hin), hm⟩
      · rw [hnil] at hm
        cases hm
  origin _ hm := .inl hm.mono
  grows := le_rfl
  makes := le_rfl
  launcher hlink hne := by
    rcases hlink hne with hin | hloc
    · exact .inl hin
    · cases hloc
      exact .inl (ht.resolve_right hne)

end

lemma NoneEmpty.of_subset (h : s.NoneEmpty)
    (hsub : ∀ n, .current n ∈ s'.currentMissionLists → s'.missions (.current n) = [] →
      .current n ∈ s.currentMissionLists ∧ s.missions (.current n) = []) : s'.NoneEmpty := by
  intro n hn hnil
  obtain ⟨hlinked, hempty⟩ := hsub n hn hnil
  exact h n hlinked hempty

lemma NoneEmpty.addMissionToTop (h : s.NoneEmpty) (l : ListRef) (m : MissionRef) :
    (s.addMissionToTop l m).NoneEmpty := by
  refine h.of_subset fun n hlink hnil => ⟨hlink, eq_nil_iff_forall_not_mem.2 fun x hx => ?_⟩
  have hmem : x ∈ (s.addMissionToTop l m).missions (.current n) := mem_addMissionToTop.2 (.inr hx)
  rw [hnil] at hmem
  cases hmem

lemma NoneEmpty.removeMission (h : s.NoneEmpty) (hl : ∀ n, .current n ≠ l) :
    (s.removeMission l m).NoneEmpty := by
  refine h.of_subset fun n hlink hnil => ⟨hlink, ?_⟩
  exact (missions_removeMission_of_ne (hl n)).symm.trans hnil

protected lemma Effect.unlinkEmpty (h : s.Arranged) (l : ListRef) :
    Reorders loc loc s (s.unlinkEmpty l) := by
  unfold unlinkEmpty
  split_ifs with hempty
  · exact .unlink h (isEmpty_iff.1 hempty) erase_sublist fun _ hk hne => (mem_erase_of_ne hne).2 hk
  · exact .refl h

variable {start : MissionLists}

protected lemma NoneEmpty.unlinkEmpty (h : start.NoneEmpty) (hnodup : s.currentMissionLists.Nodup)
    (hcurrent : s.currentMissionLists = start.currentMissionLists)
    (hothers : ∀ n, .current n ≠ l → s.missions (.current n) = [] →
      start.missions (.current n) = []) :
    (s.unlinkEmpty l).NoneEmpty := by
  refine h.of_subset fun n hn hnil => ?_
  unfold unlinkEmpty at hn hnil
  split_ifs at hn hnil with hempty
  · obtain ⟨hne, hin⟩ := hnodup.mem_erase_iff.1 hn
    exact ⟨hcurrent ▸ hin, hothers n hne hnil⟩
  · have hne : .current n ≠ l := by
      rintro rfl
      exact hempty (isEmpty_iff.2 hnil)
    exact ⟨hcurrent ▸ hn, hothers n hne hnil⟩

lemma Effect.withdraw (h : s.Arranged) (l : ListRef) (m : MissionRef) :
    Effect loc loc (· = m) (fun _ => False) s (s.withdraw l m) := by
  have hremoved : Effect loc loc (· = m) (fun _ => False) s (s.removeMission l m) :=
    .removeMission h l m
  exact hremoved.trans ((Effect.unlinkEmpty hremoved.arranged l).weaken
    (fun _ => False.elim) fun _ => id)

lemma NoneEmpty.withdraw (h : s.NoneEmpty) (ha : s.Arranged) (l : ListRef) (m : MissionRef) :
    (s.withdraw l m).NoneEmpty :=
  h.unlinkEmpty ha.current_nodup rfl fun _ hn => (missions_removeMission_of_ne hn).symm.trans

lemma settle_eq (h : s.currentMissionLists.Nodup) (l t : ListRef) (m : MissionRef) :
    s.settle l t m = (s.addMissionToTop t m).unlinkEmpty l := by
  have hne : ∀ k ∈ s.currentMissionLists, (k != l) = decide (k ≠ l) := fun k _ => by
    by_cases hk : k = l <;> simp [hk]
  have herase : s.currentMissionLists.erase l = s.currentMissionLists.filter (· ≠ l) := by
    rw [h.erase_eq_filter l, filter_congr hne]
  unfold settle unlinkEmpty
  dsimp only
  split_ifs
  · exact congrArg (fun ls => { s.addMissionToTop t m with currentMissionLists := ls }) herase.symm
  · rfl

lemma mem_settle : m ∈ (s.settle l t m).missions t := by
  have hin : m ∈ (s.addMissionToTop t m).missions t := mem_addMissionToTop.2 (.inl ⟨rfl, rfl⟩)
  unfold settle
  dsimp only
  split_ifs
  · exact hin
  · exact hin

lemma Effect.settle {gone new : MissionRef → Prop}
    (h : Effect loc loc gone new start (s.addMissionToTop t m)) :
    Effect loc loc gone new start (s.settle l t m) := by
  have hnodup : s.currentMissionLists.Nodup := h.arranged.current_nodup
  rw [settle_eq hnodup]
  exact h.trans ((Effect.unlinkEmpty h.arranged l).weaken (fun _ => False.elim) fun _ => False.elim)

lemma NoneEmpty.settle (h : start.NoneEmpty) (hnodup : s.currentMissionLists.Nodup)
    (hcurrent : s.currentMissionLists = start.currentMissionLists)
    (hothers : ∀ n, .current n ≠ l → s.missions (.current n) = start.missions (.current n)) :
    (s.settle l t m).NoneEmpty := by
  rw [settle_eq hnodup]
  refine h.unlinkEmpty hnodup hcurrent fun n hne hnil => ?_
  rw [← hothers n hne]
  refine eq_nil_iff_forall_not_mem.2 fun x hx => ?_
  have hin : x ∈ (s.addMissionToTop t m).missions (.current n) := mem_addMissionToTop.2 (.inr hx)
  rw [hnil] at hin
  cases hin

end MissionLists
end AbilityRuntime
