import AbilityRuntime.AbilityMgr.MissionArrangement

/-! The effect of each function of the manager on the lists, the missions and the terminating marks.
-/

open Function

namespace AbilityRuntime.MissionListManager
open MissionLists List Option
variable {s s' : MissionListManager} {loc loc' : Option ListRef} {l t : ListRef}
  {r m : MissionRef} {gone gone' new new' : MissionRef → Prop}

def Marked (s : MissionListManager) (m : MissionRef) : Prop := (s.records m).isTerminating = true

structure Steady (s s' : MissionListManager) : Prop where
  lists : s'.lists = s.lists
  missions : s'.missions = s.missions
  marked : ∀ m, s.Marked m → s'.Marked m

structure Evolves (loc loc' : Option ListRef) (gone new : MissionRef → Prop)
    (s s' : MissionListManager) : Prop where
  before : s.lists.Arranged
  effect : Effect loc loc' (fun m => s'.Marked m ∨ gone m) new s.lists s'.lists
  noneEmpty : s.lists.NoneEmpty → s'.lists.NoneEmpty
  missions : ∀ m < s.lists.nextMission, s'.missions m = s.missions m
  marked : ∀ m < s.lists.nextMission, s.Marked m → s'.Marked m

abbrev Regroups (loc loc' : Option ListRef) (s s' : MissionListManager) : Prop :=
  Evolves loc loc' (fun _ => False) (fun _ => False) s s'

lemma Steady.refl (s : MissionListManager) : Steady s s := ⟨rfl, rfl, fun _ => id⟩

lemma Steady.trans {s₁ s₂ s₃ : MissionListManager} (h : Steady s₁ s₂) (h' : Steady s₂ s₃) :
    Steady s₁ s₃ :=
  ⟨h'.lists.trans h.lists, h'.missions.trans h.missions, fun m hm => h'.marked m (h.marked m hm)⟩

variable (s r) in
lemma Steady.modify {f : AbilityRecord → AbilityRecord}
    (hf : ∀ a : AbilityRecord, a.isTerminating = true → (f a).isTerminating = true) :
    Steady s (s.modify r f) := by
  refine ⟨rfl, rfl, fun m hm => ?_⟩
  by_cases hmr : m = r
  · subst hmr
    change (Function.update s.records m (f (s.records m)) m).isTerminating = true
    rw [update_self]
    exact hf _ hm
  · change (Function.update s.records r (f (s.records r)) m).isTerminating = true
    rw [update_of_ne hmr]
    exact hm

lemma lt_of_held (h : s.lists.Arranged) (hm : s.lists.Held loc m) : m < s.lists.nextMission := by
  obtain ⟨l, -, hin⟩ := hm
  exact h.lt_of_mem hin

namespace Evolves

lemma of_steady (h : Steady s s') (ha : s.lists.Arranged) : Evolves loc loc gone new s s' where
  before := ha
  effect := by
    rw [h.lists]
    exact .refl ha
  noneEmpty hn := by
    rw [h.lists]
    exact hn
  missions m _ := congrFun h.missions m
  marked m _ := h.marked m

lemma of_effect (ha : s.lists.Arranged) (h : Effect loc loc' gone new s.lists s'.lists)
    (hn : s.lists.NoneEmpty → s'.lists.NoneEmpty) (hm : s'.missions = s.missions)
    (hr : s'.records = s.records) : Evolves loc loc' gone new s s' where
  before := ha
  effect := h.weaken (fun _ => .inr) fun _ => id
  noneEmpty := hn
  missions m _ := congrFun hm m
  marked m _ hmark := by
    unfold Marked
    rw [hr]
    exact hmark

lemma trans {s₁ s₂ s₃ : MissionListManager} {l₁ l₂ l₃ : Option ListRef}
    (h : Evolves l₁ l₂ gone new s₁ s₂) (h' : Evolves l₂ l₃ gone new s₂ s₃) :
    Evolves l₁ l₃ gone new s₁ s₃ where
  __ := h
  effect := by
    refine ⟨h'.effect.arranged, fun m hm => ?_, fun m hm => ?_,
      h.effect.grows.trans h'.effect.grows, h.effect.makes.trans h'.effect.makes,
      h'.effect.launcher ∘ h.effect.launcher⟩
    · have hborn := (lt_of_held h.before hm).trans_le h.effect.grows
      rcases h.effect.kept m hm with hheld | hmark | hgone
      · exact h'.effect.kept m hheld
      · exact .inr (.inl (h'.marked m hborn hmark))
      · exact .inr (.inr hgone)
    · exact (h'.effect.origin m hm).elim (h.effect.origin m) .inr
  noneEmpty := h'.noneEmpty ∘ h.noneEmpty
  missions m hm := (h'.missions m (hm.trans_le h.effect.grows)).trans (h.missions m hm)
  marked m hm hmark := h'.marked m (hm.trans_le h.effect.grows) (h.marked m hm hmark)

variable (h : Evolves loc loc' gone new s s')
include h

lemma weaken (hg : ∀ m, gone m → gone' m)
    (hn : ∀ m, new m → new' m) : Evolves loc loc' gone' new' s s' :=
  { h with effect := h.effect.weaken (fun m => .imp_right (hg m)) hn }

lemma steady {u : MissionListManager} (h' : Steady s' u) : Evolves loc loc' gone new s u :=
  h.trans (.of_steady h' h.effect.arranged)

lemma absorb (hm : ∀ m, gone m → s.Marked m) : Evolves loc loc' (fun _ => False) new s s' where
  __ := h
  effect := by
    refine ⟨h.effect.arranged, fun m hheld => ?_, h.effect.origin, h.effect.grows,
      h.effect.makes, h.effect.launcher⟩
    rcases h.effect.kept m hheld with hkept | hmark | hgone
    · exact .inl hkept
    · exact .inr (.inl hmark)
    · exact .inr (.inl (h.marked m (lt_of_held h.before hheld) (hm m hgone)))

end Evolves

lemma held_of_mem (hl : s.lists.isAlive l = true) (hm : m ∈ s.lists.missions l) :
    s.lists.Held loc m :=
  ⟨l, .inl hl, hm⟩

lemma isAlive_of_mem_searchedLists (h : l ∈ s.searchedLists) : s.lists.isAlive l = true := by
  rcases mem_append.1 h with hin | hin
  · exact isAlive_of_mem hin
  · simp only [mem_cons, not_mem_nil, or_false] at hin
    rcases hin with rfl | rfl | rfl <;> rfl

lemma isAlive_of_mem_countedLists (h : l ∈ s.countedLists) : s.lists.isAlive l = true := by
  rcases mem_append.1 h with hin | hin
  · exact isAlive_of_mem hin
  · simp only [mem_cons, not_mem_nil, or_false] at hin
    rcases hin with rfl | rfl <;> rfl

lemma held_of_getMissionById {id : ℤ} (h : s.getMissionById id = some m) : s.lists.Held loc m := by
  obtain ⟨l, hl, hfind⟩ := exists_of_findSome?_eq_some h
  exact held_of_mem (isAlive_of_mem_searchedLists hl) (mem_of_find?_eq_some hfind)

variable {name : String}

lemma mem_of_getRecentStandardMission (h : s.getRecentStandardMission name l = some m) :
    m ∈ s.lists.missions l := by
  unfold getRecentStandardMission at h
  split_ifs at h
  refine foldlRecOn (motive := fun best => best.1 = some m → m ∈ s.lists.missions l) _
    (s.laterStandard name) (by simp) (fun best ih x hx hm => ?_) h
  unfold laterStandard at hm
  split_ifs at hm
  · exact some.inj hm ▸ hx
  · exact ih hm

lemma held_of_laterReused {ls : List ListRef} (hls : ∀ l ∈ ls, s.lists.isAlive l = true)
    {time : String} (h : (ls.foldl (s.laterReused name) (none, time)).1 = some m) :
    s.lists.Held loc m := by
  refine foldlRecOn (motive := fun best => best.1 = some m → s.lists.Held loc m) ls
    (s.laterReused name) (by simp) (fun best ih k hk hm => ?_) h
  unfold laterReused at hm
  split at hm
  next x hx =>
    split_ifs at hm
    · cases hm
      exact held_of_mem (hls k hk) (mem_of_getRecentStandardMission hx)
    · exact ih hm
  next => exact ih hm

variable {request : AbilityRequest}

lemma isAlive_of_mem_launcherFirst (h : l ∈ launcherFirst request) : s.lists.isAlive l = true := by
  unfold launcherFirst at h
  split_ifs at h
  · obtain rfl := mem_singleton.1 h
    rfl
  · cases h

lemma isAlive_of_mem_reuseLists {k : ListRef} (hk : s.lists.isAlive k = true)
    (h : l ∈ launcherFirst request ++ s.lists.currentMissionLists ++ [k]) :
    s.lists.isAlive l = true := by
  rcases mem_append.1 h with hin | hin
  · exact (mem_append.1 hin).elim isAlive_of_mem_launcherFirst isAlive_of_mem
  · exact mem_singleton.1 hin ▸ hk

lemma held_of_getReusedMission (h : s.getReusedMission request = some m) : s.lists.Held loc m := by
  unfold getReusedMission at h
  split at h
  next =>
    obtain ⟨l, hl, hfind⟩ := exists_of_findSome?_eq_some h
    refine held_of_mem (isAlive_of_mem_reuseLists rfl hl) ?_
    unfold getSpecifiedMission at hfind
    split_ifs at hfind
    exact mem_of_find?_eq_some hfind
  next =>
    unfold getReusedStandardMission at h
    split_ifs at h
    split at h
    next x hx =>
      cases h
      obtain ⟨l, hl, hfind⟩ := exists_of_findSome?_eq_some hx
      exact held_of_mem (isAlive_of_mem_launcherFirst hl) (mem_of_getRecentStandardMission hfind)
    next =>
      refine held_of_laterReused (fun l hl => ?_) h
      exact (mem_append.1 hl).elim isAlive_of_mem fun hin => mem_singleton.1 hin ▸ rfl
  next =>
    obtain ⟨l, hl, hfind⟩ := exists_of_findSome?_eq_some h
    refine held_of_mem (isAlive_of_mem_reuseLists rfl hl) ?_
    unfold getSingletonMissionByName at hfind
    split_ifs at hfind
    exact mem_of_find?_eq_some hfind

lemma held_of_findEarliestMission (h : s.findEarliestMission = some m) : s.lists.Held loc m := by
  refine foldlRecOn (motive := fun target => target = some m → s.lists.Held loc m) _
    s.earlier (by simp) (fun target ih x hx hm => ?_) h
  unfold earlier at hm
  split_ifs at hm
  · exact ih hm
  · obtain ⟨l, hl, hin⟩ := mem_flatMap.1 hx
    exact some.inj hm ▸ held_of_mem (isAlive_of_mem_countedLists hl) hin

variable (s l r)

protected lemma Steady.needTopAbility : Steady s (s.needTopAbility l r).2 := by
  unfold needTopAbility
  split
  · exact .refl s
  · split_ifs
    · split
      · dsimp only
        exact .modify s r fun _ ha => ha
      · exact .refl s
    · exact .refl s

protected lemma Steady.setNextAbility : Steady s (s.setNextAbility l r) := by
  have htop := Steady.needTopAbility s l r
  unfold setNextAbility
  split
  next s₁ hs =>
    rw [hs] at htop
    exact htop
  next top s₁ hs =>
    have hs₁ : Steady s s₁ := by
      rw [hs] at htop
      exact htop
    split
    · exact hs₁
    · split_ifs
      · exact hs₁.trans (.modify _ _ fun _ ha => ha)
      · exact hs₁

variable {s l r}

lemma marked_foregroundNext {a : AbilityRecord} (h : a.isTerminating = true) :
    (foregroundNext a).isTerminating = true := by
  unfold foregroundNext
  split_ifs <;> exact h

lemma marked_processForegroundAbility {a : AbilityRecord} (h : a.isTerminating = true) :
    (processForegroundAbility a).isTerminating = true := by
  unfold processForegroundAbility
  split_ifs
  · exact marked_foregroundNext h
  · exact h

lemma Steady.scheduleTarget (s : MissionListManager) (top caller : Option MissionRef)
    (request : AbilityRequest) (focus : Option MissionRef) (target : MissionRef) :
    Steady s (s.scheduleTarget top caller request focus target) := by
  refine .trans ?_ (.modify _ _ fun _ => marked_processForegroundAbility)
  split
  · split
    · exact .modify _ _ fun _ ha => ha
    · exact .refl s
  · split
    · exact .modify _ _ fun _ ha => ha
    · exact .refl s

variable (s r)

protected lemma Steady.terminatePreviousAbility : Steady s (s.terminatePreviousAbility r) := by
  unfold terminatePreviousAbility
  split
  · exact .refl s
  · split_ifs
    · exact .refl s
    · have hpre : Steady s (s.modify r fun a => { a with preAbilityRecord := none }) :=
        .modify s r fun _ ha => ha
      dsimp only
      split
      · exact hpre.trans (.modify _ _ fun _ ha => ha)
      · exact hpre.trans (.modify _ _ fun _ ha => ha)
      · exact hpre

protected lemma Steady.attachAbilityThread : Steady s (s.attachAbilityThread r) := by
  unfold attachAbilityThread
  split
  · exact .refl s
  · exact .modify _ _ fun _ ha => ha

protected lemma Steady.onAbilityRequestDone : Steady s (s.onAbilityRequestDone r) := by
  unfold onAbilityRequestDone
  split
  · exact .refl s
  · exact .modify _ _ fun _ ha => ha

protected lemma Steady.updateMissionTime
    (time : String) : Steady s (s.updateMissionTime r time) := by
  unfold updateMissionTime
  split
  · exact .refl s
  · exact .modify _ _ fun _ ha => ha

protected lemma Steady.completeForegroundSuccess
    (time : String) : Steady s (s.completeForegroundSuccess r time) := by
  unfold completeForegroundSuccess
  dsimp only
  have hfront : Steady s (s.modify r fun a => { a with currentState := .foreground }) :=
    .modify s r fun _ ha => ha
  have hprev := (hfront.trans (.updateMissionTime _ r time)).trans (.terminatePreviousAbility _ r)
  split
  · exact hprev.trans (.modify _ _ fun _ ha => ha)
  · exact hprev.trans (.modify _ _ fun _ ha => ha)
  · exact hprev

variable {s r}

lemma Steady.terminateBackgrounded (rs : List MissionRef) (s : MissionListManager) :
    Steady s (s.terminateBackgrounded rs) := by
  induction rs generalizing s with
  | nil => exact .refl s
  | cons r rs ih =>
    refine .trans ?_ (ih _)
    split_ifs
    · exact .modify _ _ fun _ ha => ha
    · exact .refl s

variable (s r)

protected lemma Steady.completeBackground : Steady s (s.completeBackground r) := by
  unfold completeBackground
  split
  · exact .refl s
  · refine .trans ?_ (.terminateBackgrounded _ _)
    exact .modify s r fun _ ha => ha

protected lemma Steady.minimizeAbility
    (fromUser : Bool) : Steady s (s.minimizeAbility r fromUser) := by
  unfold minimizeAbility
  split
  · exact .refl s
  next r _ =>
    have hpending : Steady s (s.modify r fun a => { a with pendingState := .background }) :=
      .modify s r fun _ ha => ha
    dsimp only
    split
    · exact hpending
    · exact hpending.trans (.modify _ _ fun _ ha => ha)

variable {s r}

protected lemma Steady.signRestartAppFlag (s : MissionListManager) (bundleName : String) :
    Steady s (s.signRestartAppFlag bundleName) := by
  refine ⟨rfl, rfl, fun m hm => ?_⟩
  unfold signRestartAppFlag Marked
  dsimp only
  split_ifs <;> exact hm

section
variable (ha : s.lists.Arranged)
include ha

protected lemma Evolves.removeTerminatingAbility (r : MissionRef) (flag : Bool) :
    Evolves loc loc (· = r) (fun _ => False) s (s.removeTerminatingAbility r flag) := by
  unfold removeTerminatingAbility
  split
  · exact .of_steady (.modify s r fun _ h => h) ha
  · split
    · exact .of_steady (.refl s) ha
    · split
      · exact .of_steady (.refl s) ha
      next l _ =>
        have hlisted : Evolves loc loc (· = r) (fun _ => False) s
            { s with
              lists := s.lists.withdraw l r
              terminateAbilityList := s.terminateAbilityList ++ [r] } :=
          .of_effect ha (.withdraw ha l r) (fun hn => hn.withdraw ha l r) rfl rfl
        have hnext := hlisted.steady
          (.modify _ r (f := fun a => { a with nextAbilityRecord := none }) fun _ h => h)
        dsimp only
        split
        · exact hnext.steady (.setNextAbility _ l r)
        · exact hnext

protected lemma Evolves.terminateAbilityLocked (r : MissionRef) (flag : Bool) :
    Evolves loc loc (· = r) (fun _ => False) s (s.terminateAbilityLocked r flag) := by
  have hremoved : Evolves loc loc (· = r) (fun _ => False) s (s.removeTerminatingAbility r flag) :=
    .removeTerminatingAbility ha r flag
  unfold terminateAbilityLocked
  dsimp only
  split
  · have hpending := hremoved.steady
      (.modify _ r (f := fun a => { a with pendingState := .background }) fun _ h => h)
    split
    · exact hpending.steady (.modify _ _ fun _ h => marked_foregroundNext h)
    · exact hpending.steady (.modify _ _ fun _ h => h)
  · split
    · exact hremoved.steady (.modify _ _ fun _ h => h)
    · exact hremoved

lemma Evolves.terminateMarked (r : MissionRef) (flag : Bool) : Regroups loc loc s
      ((s.modify r fun a => { a with isTerminating := true }).terminateAbilityLocked r flag) := by
  have hmark : Regroups loc loc s
      (s.modify r fun a => { a with isTerminating := true }) :=
    .of_steady (.modify s r fun _ _ => rfl) ha
  refine hmark.trans ((Evolves.terminateAbilityLocked hmark.effect.arranged r flag).absorb ?_)
  rintro m rfl
  change (update s.records m _ m).isTerminating = true
  rw [update_self]

protected lemma Evolves.terminateAbilityInner (r : MissionRef) (flag : Bool) :
    Regroups loc loc s (s.terminateAbilityInner r flag).2 := by
  unfold terminateAbilityInner
  split
  · exact .of_steady (.refl s) ha
  · split
    · exact .of_steady (.refl s) ha
    · exact .terminateMarked ha r _

end

variable (s r) in
lemma terminateAbilityInner_fst (flag : Bool) : (s.terminateAbilityInner r flag).1 = .ok := by
  unfold terminateAbilityInner
  split
  · rfl
  · split <;> rfl

variable (s)

lemma checkLimit_snd : s.checkLimit.2 = s ∨
      ∃ m, s.findEarliestMission = some m ∧
        s.checkLimit.2 = (s.terminateAbilityInner m true).2 := by
  unfold checkLimit
  split
  · split
    next m hm =>
      refine .inr ⟨m, hm, ?_⟩
      split <;> simp_all only
    next => exact .inl rfl
  · exact .inl rfl

theorem checkLimit_fst : s.checkLimit.1 = false := by
  unfold checkLimit
  split
  · split
    next m hm =>
      have hok := terminateAbilityInner_fst s m true
      split
      · rfl
      next code s' hne heq =>
        rw [heq] at hok
        exact absurd hok hne
    next => rfl
  · rfl

lemma checkLimit_eq : s.checkLimit = (false, s.checkLimit.2) := Prod.ext (checkLimit_fst s) rfl

variable {s}

lemma Evolves.checkLimit (ha : s.lists.Arranged) : Regroups loc loc s s.checkLimit.2 := by
  rcases checkLimit_snd s with hs | ⟨m, -, hs⟩
  · rw [hs]
    exact .of_steady (.refl s) ha
  · rw [hs]
    exact .terminateAbilityInner ha m true

structure Target (s : MissionListManager) (t : ListRef) : Prop where
  not_default : t.isDefault = false
  made : ∀ n, t = .current n → n < s.lists.nextList

lemma Target.of_alive (ha : s.lists.Arranged) (hn : s.lists.NoneEmpty)
    (ht : s.lists.isAlive t = true) (hd : t.isDefault = false) : s.Target t := by
  refine ⟨hd, ?_⟩
  rintro n rfl
  obtain ⟨m, hm⟩ := exists_mem_of_ne_nil _ (hn n (isAlive_current.1 ht))
  exact ha.lt_of_mem_current hm

lemma Target.evolves {gone new : MissionRef → Prop} (h : s.Target t)
    (he : Evolves loc loc' gone new s s') : s'.Target t :=
  ⟨h.not_default, fun n hn => (h.made n hn).trans_le he.effect.makes⟩

def defaultCaller (s : MissionListManager) (callerAbility : Option MissionRef)
    (request : AbilityRequest) : Option MissionRef :=
  if request.isLauncherApp then none
  else
    (callerAbility.filter fun c => !(s.missions c).isLauncherApp).bind fun c =>
      (s.getMissionById (s.missions c).missionId).filter fun m =>
        (s.lists.getMissionList m).any ListRef.isDefault

structure Chosen (s : MissionListManager) (callerAbility : Option MissionRef)
    (request : AbilityRequest) (t : ListRef) (s' : MissionListManager) : Prop where
  holding : Evolves none (some t) (fun _ => False) (fun _ => False) s s'
  letting_go : Evolves none none (fun m => s.defaultCaller callerAbility request = some m)
    (fun _ => False) s s'
  target : s'.Target t
  missions : s'.missions = s.missions
  records : s'.records = s.records

lemma Evolves.makeMissionList (ha : s.lists.Arranged) :
    Regroups none (some (.current s.lists.nextList)) s
      { s with lists := s.lists.makeMissionList.2 } :=
  .of_effect ha (.makeMissionList ha) id rfl rfl

variable {caller : Option MissionRef}

section
variable (ha : s.lists.Arranged)
include ha

lemma Chosen.of_alive (hn : s.lists.NoneEmpty)
    (ht : s.lists.isAlive t = true) (hd : t.isDefault = false) : Chosen s caller request t s where
  holding := .of_effect ha (.take_hold ha ht) id rfl rfl
  letting_go := .of_steady (.refl s) ha
  target := .of_alive ha hn ht hd
  missions := rfl
  records := rfl

lemma Chosen.of_make : Chosen s caller request (.current s.lists.nextList)
      { s with lists := s.lists.makeMissionList.2 } := by
  have hmake := Effect.makeMissionList ha
  have hgo := hmake.trans (Effect.let_go hmake.arranged (.inr (ha.unused _ le_rfl)))
  exact
    { holding := .makeMissionList ha
      letting_go := .of_effect ha (hgo.weaken (fun _ => False.elim) fun _ => id) id rfl rfl
      target := ⟨rfl, fun n hn => ListRef.current.inj hn ▸ Nat.lt_succ_self _⟩
      missions := rfl
      records := rfl }

lemma chosen_getTargetMissionListByLauncher (hn : s.lists.NoneEmpty) :
    Chosen s caller request (s.getTargetMissionListByLauncher request).1
      (s.getTargetMissionListByLauncher request).2 := by
  unfold getTargetMissionListByLauncher
  split
  next l hl =>
    obtain ⟨m, -, hlist⟩ := bind_eq_some_iff.1 hl
    split
    · exact .of_make ha
    next hd => exact .of_alive ha hn (getMissionList_eq hlist).2 (Bool.not_eq_true _ ▸ hd)
  next => exact .of_make ha

lemma Chosen.of_move {c : MissionRef} (hheld : s.lists.Held none c)
    (hl : s.lists.getMissionList c = some l) (hd : l.isDefault = true)
    (hcaller : s.defaultCaller caller request = some c) :
    Chosen s caller request (.current s.lists.nextList)
      { s with
        lists := (s.lists.makeMissionList.2.removeMission l c).addMissionToTop
          (.current s.lists.nextList) c } := by
  have hin := ha.mem_of_getMissionList hheld hl
  have halive := (getMissionList_eq hl).2
  have hmake := Effect.makeMissionList ha
  have hmade : ∀ n, ListRef.current s.lists.nextList = .current n → n < s.lists.nextList + 1 :=
    fun n hn => ListRef.current.inj hn ▸ Nat.lt_succ_self _
  have hmove := hmake.trans (.move hmake.arranged hin (.inl halive) hmade (.inr rfl) fun _ => rfl)
  have hgo : Effect none none (fun m => m = c) (fun _ => False) s.lists
      ((s.lists.makeMissionList.2.removeMission l c).addMissionToTop
        (.current s.lists.nextList) c) := by
    refine ⟨hmove.arranged, fun m hm => ?_, fun m hm => hmove.origin m hm.mono, hmove.grows,
      hmove.makes, fun hlink hne => (hmove.launcher hlink hne).imp_right nofun⟩
    by_cases hmc : m = c
    · exact .inr hmc
    · obtain ⟨k, hk | hk, hkm⟩ := hm
      · exact .inl ⟨k, .inl hk, mem_addMissionToTop.2 (.inr
          (hmake.arranged.mem_removeMission.2 ⟨hkm, fun hc => hmc hc.2⟩))⟩
      · cases hk
  have hnone : s.lists.NoneEmpty → ((s.lists.makeMissionList.2.removeMission l c).addMissionToTop
      (.current s.lists.nextList) c).NoneEmpty := by
    intro hn
    have hremoved : (s.lists.makeMissionList.2.removeMission l c).NoneEmpty :=
      .removeMission hn fun n hc => by
        subst hc
        cases hd
    exact hremoved.addMissionToTop _ c
  exact
    { holding := .of_effect ha hmove hnone rfl rfl
      letting_go := .of_effect ha
        (hgo.weaken (fun m hm => hcaller.trans (congrArg some hm.symm)) fun _ => id) hnone rfl rfl
      target := ⟨rfl, hmade⟩
      missions := rfl
      records := rfl }

lemma getTargetMissionList_cases (hn : s.lists.NoneEmpty) :
    s.getTargetMissionList caller request = (none, s) ∨
      ∃ t s', s.getTargetMissionList caller request = (some t, s') ∧
        Chosen s caller request t s' := by
  unfold getTargetMissionList
  split
  · exact .inr ⟨_, _, rfl, .of_alive ha hn rfl rfl⟩
  next hlauncher =>
    split
    next => exact .inr ⟨_, _, rfl, .of_make ha⟩
    next c =>
      split
      · exact .inr ⟨_, _, rfl, chosen_getTargetMissionListByLauncher ha hn⟩
      next hc =>
        unfold getTargetMissionListByDefault
        split
        next => exact .inl rfl
        next mission hmission =>
          split
          next => exact .inl rfl
          next l hl =>
            split
            next hd =>
              refine .inr ⟨_, _, rfl, .of_move ha (held_of_getMissionById hmission) hl hd ?_⟩
              unfold defaultCaller
              rw [if_neg hlauncher]
              refine bind_eq_some_iff.2
                ⟨c, filter_eq_some_iff.2 ⟨rfl, by simpa using hc⟩,
                  filter_eq_some_iff.2 ⟨hmission, ?_⟩⟩
              rw [hl]
              exact hd
            next hd =>
              exact .inr ⟨_, _, rfl,
                .of_alive ha hn (getMissionList_eq hl).2 (Bool.not_eq_true _ ▸ hd)⟩

end

def Unplaced (s : MissionListManager) (m : MissionRef) : Prop :=
  s.lists.shelves.owner m = none ∧ m < s.lists.nextMission

lemma Evolves.makeMission (ha : s.lists.Arranged) (mission : Mission) (time : String) :
    Regroups loc loc s (s.makeMission mission time).2 where
  before := ha
  effect := (Effect.born ha).weaken (fun _ => False.elim) fun _ => id
  noneEmpty := id
  missions _ hm := update_of_ne (Nat.ne_of_lt hm) _ _
  marked m hm hmark := by
    change (update s.records s.lists.nextMission _ m).isTerminating = true
    rw [update_of_ne (Nat.ne_of_lt hm)]
    exact hmark

lemma missions_makeMission (s : MissionListManager) (mission : Mission) (time : String) :
    (s.makeMission mission time).2.missions s.lists.nextMission = mission :=
  update_self ..

lemma unplaced_makeMission (ha : s.lists.Arranged) (mission : Mission) (time : String) :
    (s.makeMission mission time).2.Unplaced (s.makeMission mission time).1 :=
  ⟨ha.unborn _ le_rfl, Nat.lt_succ_self _⟩

structure Got (s : MissionListManager) (request : AbilityRequest) (env : StartEnv)
    (m : MissionRef) (s' : MissionListManager) : Prop where
  evolves : ∀ loc, Evolves loc loc (fun _ => False) (fun _ => False) s s'
  target : Steady s s' ∧ s.getReusedMission request = some m ∨
    s.getReusedMission request = none ∧ ∃ missionId, env.missionInfoId = some missionId ∧
      m = s.checkLimit.2.lists.nextMission ∧ s'.Unplaced m ∧
      Steady (s.checkLimit.2.makeMission (request.mission missionId) env.currentTime).2 s'

lemma getTargetMissionAndAbility_cases (ha : s.lists.Arranged) (request : AbilityRequest)
    (env : StartEnv) :
    s.getTargetMissionAndAbility request env = (none, false, s) ∨
      ∃ m s', s.getTargetMissionAndAbility request env = (some m, false, s') ∧
        Got s request env m s' := by
  unfold getTargetMissionAndAbility
  split
  next m hm => exact .inr ⟨m, s, rfl, fun _ => .of_steady (.refl s) ha, .inl ⟨.refl s, hm⟩⟩
  next hnone =>
    split
    next => exact .inl rfl
    next missionId hid =>
      have hlimit : ∀ loc, Regroups loc loc s s.checkLimit.2 := fun _ => .checkLimit ha
      have ha' := (hlimit none).effect.arranged
      rw [checkLimit_eq s]
      exact .inr ⟨_, _, rfl, fun loc => (hlimit loc).trans (.makeMission ha' _ _),
        .inr ⟨hnone, missionId, hid, rfl, unplaced_makeMission ha' _ _, .refl _⟩⟩

lemma Got.steady {env : StartEnv} {s₁ s₂ : MissionListManager} (h : Got s request env m s₁)
    (h' : Steady s₁ s₂) : Got s request env m s₂ where
  evolves loc := (h.evolves loc).steady h'
  target := by
    rcases h.target with ⟨hs, hm⟩ | ⟨hnone, id, hid, hm, hplace, hs⟩
    · exact .inl ⟨hs.trans h', hm⟩
    · refine .inr ⟨hnone, id, hid, hm, ?_, hs.trans h'⟩
      unfold Unplaced
      rw [h'.lists]
      exact hplace

theorem getTargetMission_cases (ha : s.lists.Arranged) (request : AbilityRequest) (env : StartEnv) :
    (∃ ret m s', s.getTargetMission request env = (ret, m, s') ∧ ret ≠ .getTargetMissionOver ∧
      ∀ loc, Regroups loc loc s s') ∨
      ∃ m s', s.getTargetMission request env = (.getTargetMissionOver, some m, s') ∧
        Got s request env m s' := by
  unfold getTargetMission
  rcases getTargetMissionAndAbility_cases ha request env with hs | ⟨m, s', hs, hgot⟩
  · rw [hs]
    exact .inl ⟨_, _, _, rfl, nofun, fun _ => .of_steady (.refl s) ha⟩
  · rw [hs]
    dsimp only
    have hpending : Steady s' (s'.modify m fun a => { a with pendingState := .foreground }) :=
      .modify s' m fun _ h => h
    split
    · exact .inl ⟨_, _, _, rfl, nofun, hgot.evolves⟩
    · split
      · exact .inl ⟨_, _, _, rfl, nofun, hgot.evolves⟩
      · split
        · exact .inl ⟨_, _, _, rfl, nofun, fun loc => (hgot.evolves loc).steady hpending⟩
        · exact .inr ⟨m, _, rfl, hgot.steady hpending⟩

lemma Got.placing {env : StartEnv} (h : Got s request env m s') :
    s'.lists.Held none m ∨ s'.Unplaced m := by
  rcases h.target with ⟨hs, hm⟩ | ⟨-, -, -, -, hplace, -⟩
  · rw [hs.lists]
    exact .inl (held_of_getReusedMission hm)
  · exact .inr hplace

end AbilityRuntime.MissionListManager
