import AbilityRuntime.AbilityMgr.MissionPartition

/-! The limits on the number of missions hold along every run in which each new mission finds room.
-/

namespace AbilityRuntime.MissionListManager
open MissionLists List Option Nat
variable {s s' : MissionListManager} {loc loc' : Option ListRef} {m : MissionRef}
  {p : Mission → Bool} {b : Birth}

section
variable (s loc)

def inHand : List MissionRef :=
  match loc with
  | none => []
  | some l => if s.lists.isAlive l then [] else s.lists.missions l

def heldMissions : List MissionRef :=
  s.lists.allMissions ++ s.inHand loc

def heldCount (p : Mission → Bool) : ℕ :=
  (s.heldMissions loc).countP fun m => p (s.missions m)

end

lemma mem_inHand {l : ListRef} :
    m ∈ s.inHand (some l) ↔ s.lists.isAlive l = false ∧ m ∈ s.lists.missions l := by
  unfold inHand
  cases h : s.lists.isAlive l <;> simp [h]

lemma mem_heldMissions : m ∈ s.heldMissions loc ↔ s.lists.Held loc m := by
  unfold heldMissions
  rw [mem_append, mem_allMissions]
  constructor
  · rintro (hheld | hhand)
    · exact hheld.mono
    · cases loc with
      | none => cases hhand
      | some l => exact ⟨l, .inr rfl, (mem_inHand.1 hhand).2⟩
  · rintro ⟨l, hreached, hin⟩
    cases halive : s.lists.isAlive l with
    | true => exact .inl ⟨l, .inl halive, hin⟩
    | false =>
      have hloc : loc = some l := hreached.resolve_left (by simp [halive])
      subst hloc
      exact .inr (mem_inHand.2 ⟨halive, hin⟩)

lemma nodup_heldMissions (ha : s.lists.Arranged) : (s.heldMissions loc).Nodup := by
  refine .append (nodup_allMissions ha) ?_ fun m hm hhand => ?_
  · cases loc with
    | none => exact nodup_nil
    | some l =>
      unfold inHand
      dsimp only
      split
      · exact nodup_nil
      · exact ha.filed.nodup l
  · cases loc with
    | none => cases hhand
    | some l =>
      obtain ⟨hdead, hin⟩ := mem_inHand.1 hhand
      obtain ⟨k, hk, hin'⟩ := mem_allMissions.1 hm
      have halive : s.lists.isAlive k = true := hk.resolve_right nofun
      rw [ha.eq_of_mem hin' hin, hdead] at halive
      cases halive

lemma heldCount_none :
    s.heldCount none p = s.lists.allMissions.countP fun m => p (s.missions m) := by
  unfold heldCount heldMissions inHand
  rw [append_nil]

lemma Evolves.heldCount_le {gone new : MissionRef → Prop} (h : Evolves loc loc' gone new s s')
    (extra : List MissionRef) (hextra : ∀ m, new m → p (s'.missions m) = true → m ∈ extra) :
    s'.heldCount loc' p ≤ s.heldCount loc p + extra.length := by
  unfold heldCount
  rw [countP_eq_length_filter, countP_eq_length_filter, ← length_append]
  refine (((nodup_heldMissions h.effect.arranged).filter _).subperm fun m hm => ?_).length_le
  obtain ⟨hheld, hp⟩ := mem_filter.1 hm
  rcases h.effect.origin m (mem_heldMissions.1 hheld) with hbefore | hnew
  · refine mem_append_left _ (mem_filter.2 ⟨mem_heldMissions.2 hbefore, ?_⟩)
    rwa [h.missions m (lt_of_held h.before hbefore)] at hp
  · exact mem_append_right _ (hextra m hnew hp)

lemma Evolves.heldCount_le_of_none {gone : MissionRef → Prop}
    (h : Evolves loc loc' gone (fun _ => False) s s') : s'.heldCount loc' p ≤ s.heldCount loc p :=
  h.heldCount_le [] fun _ => False.elim

def terminatedByLimit (s : MissionListManager) : Option MissionRef :=
  if s.isReachToLimitLocked then
    s.findEarliestMission.filter fun m => !(s.records m).isTerminating &&
      m ∉ s.terminateAbilityList && s.getMissionById (s.missions m).missionId = some m
  else none

lemma counted_of_findEarliestMission (h : s.findEarliestMission = some m) :
    ∃ l ∈ s.countedLists, m ∈ s.lists.missions l := by
  refine foldlRecOn (motive := fun target => target = some m →
    ∃ l ∈ s.countedLists, m ∈ s.lists.missions l) _ s.earlier (by simp)
    (fun target ih x hx hm => ?_) h
  unfold earlier at hm
  split_ifs at hm
  · exact ih hm
  · exact some.inj hm ▸ mem_flatMap.1 hx

lemma not_mem_withdraw {lists : MissionLists} {l : ListRef} (ha : lists.Arranged)
    (hl : lists.getMissionList m = some l) (k : ListRef) : m ∉ (lists.withdraw l m).missions k := by
  have hsame : (lists.withdraw l m).missions k = (lists.removeMission l m).missions k := by
    unfold withdraw unlinkEmpty
    split <;> rfl
  rw [hsame]
  intro hin
  obtain ⟨hbefore, hother⟩ := (Shelves.mem_take (ha.filed.nodup l)).1 hin
  exact hother ⟨some.inj ((ha.mem_owner hbefore).symm.trans (getMissionList_eq hl).1), rfl⟩

lemma lists_terminateAbilityLocked {l : ListRef} (hnot : m ∉ s.terminateAbilityList)
    (hid : s.getMissionById (s.missions m).missionId = some m)
    (hl : s.lists.getMissionList m = some l) (flag : Bool) :
    (s.terminateAbilityLocked m flag).lists = s.lists.withdraw l m := by
  have hremoved : (s.removeTerminatingAbility m flag).lists = s.lists.withdraw l m := by
    unfold removeTerminatingAbility
    rw [if_neg hnot, hid]
    dsimp only
    rw [hl]
    dsimp only
    split
    · exact (Steady.setNextAbility _ l m).lists
    · rfl
  rw [← hremoved]
  unfold terminateAbilityLocked
  dsimp only
  split
  · split <;> rfl
  · split <;> rfl

lemma held_of_terminatedByLimit (h : s.terminatedByLimit = some m) : s.lists.Held loc m := by
  unfold terminatedByLimit at h
  split_ifs at h
  exact held_of_findEarliestMission (filter_eq_some_iff.1 h).1

lemma not_held_of_terminatedByLimit (ha : s.lists.Arranged) (h : s.terminatedByLimit = some m) :
    ¬ s.checkLimit.2.lists.Held loc m := by
  unfold terminatedByLimit at h
  split_ifs at h with hreach
  obtain ⟨hearliest, hkept⟩ := filter_eq_some_iff.1 h
  simp only [Bool.and_eq_true, Bool.not_eq_true', decide_eq_true_eq] at hkept
  obtain ⟨⟨halive, hnot⟩, hid⟩ := hkept
  obtain ⟨l, hcounted, hin⟩ := counted_of_findEarliestMission hearliest
  have hl := ha.getMissionList_of_mem hin (isAlive_of_mem_countedLists hcounted)
  have htoken : (s.getAbilityRecordByTokenInner (some m)).isNone = false := by
    unfold getAbilityRecordByTokenInner getAliveAbilityRecordByToken
    have hany : (s.countedLists.any fun l => m ∈ s.lists.missions l) = true :=
      any_eq_true.2 ⟨l, hcounted, decide_eq_true hin⟩
    simp [hnot, hany]
  have hlists : s.checkLimit.2.lists = s.lists.withdraw l m := by
    have hinner : (s.terminateAbilityInner m true).2.lists = s.lists.withdraw l m := by
      unfold terminateAbilityInner
      rw [if_neg (by simp [halive]), if_neg (by simp [htoken])]
      exact lists_terminateAbilityLocked (s := s.modify m _) hnot hid hl _
    have hok := terminateAbilityInner_fst s m true
    unfold checkLimit
    rw [if_pos hreach, hearliest]
    dsimp only
    split
    next s' heq => rwa [heq] at hinner
    next s' hne heq =>
      rw [heq] at hok
      exact absurd hok hne
  rintro ⟨k, -, hk⟩
  rw [hlists] at hk
  exact not_mem_withdraw ha hl k hk

def hasRoom (s : MissionListManager) (b : Birth) (limit : ℕ) (p : Mission → Bool) : Bool :=
  s.heldCount none p < limit ||
    b.checked.terminatedByLimit.any fun m => p (b.checked.missions m)

def hasSingleRoom (s : MissionListManager) (b : Birth) : Bool :=
  s.hasRoom b singleMaxInstanceCount fun mission => mission.uid = b.uid

def singleChecked (s : MissionListManager) : Op → Bool
  | .startAbility request _ => (s.getReusedMission request).isNone
  | _ => false

def roomy (s : MissionListManager) (op : Op) : Bool :=
  (s.stepStartBirth op).all (fun b => s.hasRoom b maxInstanceCount (fun _ => true) &&
      (s.singleChecked op || s.hasSingleRoom b)) &&
    (s.stepFrontBirth op).all fun b => s.hasRoom b maxInstanceCount (fun _ => true) &&
      s.hasSingleRoom b

structure Limited (s : MissionListManager) : Prop where
  total : s.heldCount none (fun _ => true) ≤ maxInstanceCount
  single : ∀ uid : ℤ, s.heldCount none (fun mission => mission.uid = uid) ≤ singleMaxInstanceCount

lemma Made.heldCount_lt {limit : ℕ} (h : Made s s' b) (hroom : s.hasRoom b limit p = true)
    (hl : s.heldCount none p ≤ limit) : b.state.heldCount b.loc p < limit := by
  have hbefore := h.before.heldCount_le_of_none (p := p)
  rcases Bool.or_eq_true_iff.1 hroom with hfew | hleaves
  · exact (h.limit.heldCount_le_of_none.trans hbefore).trans_lt (of_decide_eq_true hfew)
  · obtain ⟨m, hm, hp⟩ := (any_eq_true _ _).1 hleaves
    refine lt_of_lt_of_le ?_ (hbefore.trans hl)
    have hgone : m ∉ b.state.heldMissions b.loc := fun hin =>
      not_held_of_terminatedByLimit h.before.effect.arranged hm (mem_heldMissions.1 hin)
    have hheld : m ∈ b.checked.heldMissions b.loc :=
      mem_heldMissions.2 (held_of_terminatedByLimit hm)
    unfold heldCount
    rw [countP_eq_length_filter, countP_eq_length_filter]
    have hnodup : (m :: (b.state.heldMissions b.loc).filter
        fun m => p (b.state.missions m)).Nodup :=
      nodup_cons.2 ⟨fun hin => hgone (mem_filter.1 hin).1,
        (nodup_heldMissions h.limit.effect.arranged).filter _⟩
    refine (hnodup.subperm fun x hx => ?_).length_le
    rcases mem_cons.1 hx with rfl | hx
    · exact mem_filter.2 ⟨hheld, hp⟩
    · obtain ⟨hin, hpx⟩ := mem_filter.1 hx
      have hbefore := (h.limit.effect.origin x (mem_heldMissions.1 hin)).resolve_right id
      refine mem_filter.2 ⟨mem_heldMissions.2 hbefore, ?_⟩
      rwa [h.limit.missions x (lt_of_held h.limit.before hbefore)] at hpx

lemma heldCount_le_counted (ha : s.lists.Arranged) (hlaunch : s.lists.LauncherLinked none)
    (uid : ℤ) :
    s.heldCount none (fun mission => mission.uid = uid) ≤
      (s.countedLists.map (s.getMissionCountByUid uid)).sum := by
  have hcounted : (s.countedLists.map (s.getMissionCountByUid uid)).sum =
      (s.countedLists.flatMap s.lists.missions).countP fun m => (s.missions m).uid = uid := by
    rw [countP_flatMap]
    rfl
  rw [hcounted, heldCount_none, countP_eq_length_filter, countP_eq_length_filter]
  refine (((nodup_allMissions ha).filter _).subperm fun m hm => ?_).length_le
  obtain ⟨hin, huid⟩ := mem_filter.1 hm
  refine mem_filter.2 ⟨?_, huid⟩
  obtain ⟨l, hl, hml⟩ := mem_allMissions.1 hin
  refine mem_flatMap.2 ⟨l, ?_, hml⟩
  have halive : s.lists.isAlive l = true := hl.resolve_right nofun
  cases l with
  | launcherList =>
    have hlinked := (hlaunch (ne_nil_of_mem hml)).resolve_right nofun
    exact mem_append_left _ hlinked
  | current n => exact mem_append_left _ (isAlive_current.1 halive)
  | _ => exact mem_append_right _ (by simp)

lemma singleLimit_of_startBirth {request : AbilityRequest} {env : StartEnv}
    (hb : s.stepStartBirth (.startAbility request env) = some b)
    (hnone : (s.getReusedMission request).isNone = true) :
    b.uid = request.uid ∧ s.isReachToSingleLimitLocked b.uid = false := by
  obtain ⟨c, hc, hbirth⟩ := bind_eq_some_iff.1 hb
  simp only [startCall] at hc
  split at hc
  · cases hc
  next hlimit =>
    split at hc
    · cases hc
    · unfold startCallOf at hc
      split at hc
      · cases hc
      · cases hc
        have huid : b.uid = request.uid := by
          unfold startBirth at hbirth
          split at hbirth
          · cases hbirth
          · split at hbirth
            · rw [← some.inj hbirth]
            · cases hbirth
        refine ⟨huid, ?_⟩
        rw [huid]
        unfold checkSingleLimit at hlimit
        rw [hnone] at hlimit
        exact Bool.not_eq_true _ ▸ hlimit

lemma hasSingleRoom_of_singleChecked {op : Op} (ha : s.lists.Arranged)
    (hlaunch : s.lists.LauncherLinked none) (hb : s.stepStartBirth op = some b)
    (hchecked : s.singleChecked op = true) : s.hasSingleRoom b = true := by
  cases op with
  | startAbility request env =>
    obtain ⟨-, hreach⟩ := singleLimit_of_startBirth hb hchecked
    refine Bool.or_eq_true_iff.2 (.inl (decide_eq_true ?_))
    exact (heldCount_le_counted ha hlaunch b.uid).trans_lt (not_le.1 (of_decide_eq_false hreach))
  | _ => cases hchecked

lemma Limited.of_evolves {gone : MissionRef → Prop} (hl : s.Limited)
    (h : Evolves none none gone (fun _ => False) s s') : s'.Limited :=
  ⟨h.heldCount_le_of_none.trans hl.total, fun uid => h.heldCount_le_of_none.trans (hl.single uid)⟩

lemma Limited.of_made (hl : s.Limited) (h : Made s s' b)
    (hroom : s.hasRoom b maxInstanceCount (fun _ => true) = true)
    (hsingle : s.hasSingleRoom b = true) : s'.Limited where
  total := by
    have hafter := h.after.heldCount_le (p := fun _ => true) [b.state.lists.nextMission]
      fun m hm _ => mem_singleton.2 hm
    exact hafter.trans (h.heldCount_lt hroom hl.total)
  single uid := by
    have hbefore : b.state.heldCount b.loc (fun mission => mission.uid = uid) ≤
        singleMaxInstanceCount :=
      (h.before.trans h.limit).heldCount_le_of_none.trans (hl.single uid)
    by_cases huid : b.uid = uid
    · subst huid
      have hafter := h.after.heldCount_le (p := fun mission => mission.uid = b.uid)
        [b.state.lists.nextMission] fun m hm _ => mem_singleton.2 hm
      exact hafter.trans (h.heldCount_lt hsingle (hl.single b.uid))
    · have hafter := h.after.heldCount_le (p := fun mission => mission.uid = uid) []
        fun m hm hp => by
          rw [hm, h.uid] at hp
          exact absurd (of_decide_eq_true hp) huid
      exact hafter.trans hbefore

lemma limited_step {op : Op} (ha : s.lists.Arranged) (hn : s.lists.NoneEmpty)
    (hlaunch : s.lists.LauncherLinked none) (hl : s.Limited) (horderly : s.orderly op = true)
    (hroomy : s.roomy op = true) : (s.step op).Limited := by
  obtain ⟨hstart, hfront⟩ := Bool.and_eq_true_iff.1 hroomy
  rcases step_cases ha hn horderly with h | ⟨b, hb | hb, h⟩
  · exact hl.of_evolves h
  · rw [hb] at hstart
    obtain ⟨hroom, hsingle⟩ := Bool.and_eq_true_iff.1 hstart
    refine hl.of_made h hroom ?_
    exact (Bool.or_eq_true_iff.1 hsingle).elim (hasSingleRoom_of_singleChecked ha hlaunch hb) id
  · rw [hb] at hfront
    obtain ⟨hroom, hsingle⟩ := Bool.and_eq_true_iff.1 hfront
    exact hl.of_made h hroom hsingle

abbrev Roomy (s : MissionListManager) (ops : List Op) : Prop :=
  Runs.Guarded step (fun s op => s.orderly op = true ∧ s.roomy op = true) s ops

theorem run_limited {ops : List Op} (h : Roomy init ops) :
    (ops.foldl step init).lists.allMissions.length ≤ maxInstanceCount ∧
      ∀ uid : ℤ, ((ops.foldl step init).lists.allMissions.countP fun m =>
        ((ops.foldl step init).missions m).uid = uid) ≤ singleMaxInstanceCount := by
  have hinit : init.Limited := ⟨zero_le _, fun _ => zero_le _⟩
  have hrun := h.invariant (I := fun s => (s.lists.Arranged ∧ s.lists.NoneEmpty) ∧
      s.lists.LauncherLinked none ∧ s.Limited)
    (fun s op hi hok => by
      obtain ⟨⟨ha, hn⟩, hlaunch, hl⟩ := hi
      have hstep := evolves_step ha hn hok.1
      exact ⟨⟨hstep.effect.arranged, hstep.noneEmpty hn⟩, hstep.effect.launcher hlaunch,
        limited_step ha hn hlaunch hl hok.1 hok.2⟩)
    ⟨⟨arranged_init, noneEmpty_init⟩, fun hne => absurd rfl hne, hinit⟩
  obtain ⟨-, -, hl⟩ := hrun
  refine ⟨?_, fun uid => ?_⟩
  · have htotal := hl.total
    rw [heldCount_none, countP_true] at htotal
    exact htotal
  · have hsingle := hl.single uid
    rwa [heldCount_none] at hsingle

theorem mainEdit_limited : Roomy init mainEditOps ∧
      (mainEditOps.foldl step init).lists.allMissions.length ≤ maxInstanceCount := by
  have hroomy : Roomy init mainEditOps := by decide +kernel
  exact ⟨hroomy, (run_limited hroomy).1⟩

def noteInfo : FrontInfo := ⟨"note", false, sampleRequest none "Main"⟩

def frontOps (n : ℕ) : List Op :=
  (List.range n).map fun i : ℕ => .moveMissionToFront i false (some noteInfo)

structure Fronted (n : ℕ) (s : MissionListManager) : Prop where
  arranged : s.lists.Arranged
  noneEmpty : s.lists.NoneEmpty
  next : s.lists.nextMission = n
  made : ∀ m < n, s.missions m = noteInfo.mission m
  length : s.lists.allMissions.length = n

lemma missionId_of_getMissionById {id : ℤ} (h : s.getMissionById id = some m) :
    (s.missions m).missionId = id := by
  obtain ⟨l, -, hfind⟩ := exists_of_findSome?_eq_some h
  have hid := find?_some hfind
  exact of_decide_eq_true hid

lemma getMissionCount_le (ha : s.lists.Arranged) :
    s.getMissionCount ≤ s.lists.allMissions.length := by
  have hcount : s.getMissionCount = (s.countedLists.flatMap s.lists.missions).length := by
    rw [length_flatMap]
    rfl
  have hnodup : s.countedLists.Nodup := by
    refine List.Nodup.append ha.current_nodup (by decide) fun l hl hd => ?_
    have hkind := ha.current_kind l hl
    simp only [mem_cons, not_mem_nil, or_false] at hd
    rcases hd with rfl | rfl <;> cases hkind
  rw [hcount]
  refine ((ha.filed.nodup_flatMap hnodup).subperm fun m hm => ?_).length_le
  obtain ⟨l, hl, hin⟩ := mem_flatMap.1 hm
  exact mem_allMissions.2 (held_of_mem (isAlive_of_mem_countedLists hl) hin)

lemma moveMissionToFront_new {missionId : ℤ} (info : FrontInfo) (ha : s.lists.Arranged)
    (hnone : s.getMissionById missionId = none) (hroom : s.isReachToLimitLocked = false) :
    (s.step (.moveMissionToFront missionId false (some info))).lists =
        ({ s.lists with
          nextList := s.lists.nextList + 1
          nextMission := s.lists.nextMission + 1 }.addMissionToTop (.current s.lists.nextList)
            s.lists.nextMission).moveMissionListToTop (.current s.lists.nextList) ∧
      (s.step (.moveMissionToFront missionId false (some info))).missions s.lists.nextMission =
        info.mission missionId := by
  have hlimit : s.checkLimit = (false, s) := by
    unfold checkLimit
    rw [hroom]
    rfl
  have howner : s.lists.shelves.owner s.lists.nextMission = none := ha.unborn _ le_rfl
  simp only [step]
  unfold moveMissionToFrontInner getTargetMissionListById
  rw [hnone, hlimit]
  simp [makeMission, makeMissionList, moveMissionToTargetList, getMissionList, howner, modify,
    MissionListManager.moveMissionListToTop]

lemma mem_allMissions_front {lists : MissionLists} (ha : lists.Arranged) (hn : lists.NoneEmpty) :
    m ∈ (({ lists with
        nextList := lists.nextList + 1
        nextMission := lists.nextMission + 1 }.addMissionToTop (.current lists.nextList)
          lists.nextMission).moveMissionListToTop (.current lists.nextList)).allMissions ↔
      m = lists.nextMission ∨ m ∈ lists.allMissions := by
  have hempty := ha.unused lists.nextList le_rfl
  have hunlinked : .current lists.nextList ∉ lists.currentMissionLists := fun hin => hn _ hin hempty
  have hhead : lists.currentMissionLists.head? ≠ some (.current lists.nextList) :=
    fun h => hunlinked (mem_of_head? h)
  have halive (l : ListRef) : (({ lists with
        nextList := lists.nextList + 1
        nextMission := lists.nextMission + 1 }.addMissionToTop (.current lists.nextList)
          lists.nextMission).moveMissionListToTop (.current lists.nextList)).isAlive l = true ↔
      l = .current lists.nextList ∨ lists.isAlive l = true := by
    unfold MissionLists.moveMissionListToTop addMissionToTop
    rw [if_neg hhead]
    cases l with
    | current n => by_cases h : n = lists.nextList <;> simp [isAlive, h]
    | _ => simp [isAlive]
  have hcontent (l : ListRef) : m ∈ (({ lists with
        nextList := lists.nextList + 1
        nextMission := lists.nextMission + 1 }.addMissionToTop (.current lists.nextList)
          lists.nextMission).moveMissionListToTop (.current lists.nextList)).missions l ↔
      (l = .current lists.nextList ∧ m = lists.nextMission) ∨ m ∈ lists.missions l := by
    unfold MissionLists.moveMissionListToTop addMissionToTop
    rw [if_neg hhead]
    exact Shelves.mem_pushTop
  rw [mem_allMissions, mem_allMissions]
  constructor
  · rintro ⟨l, hl, hm⟩
    rcases (hcontent l).1 hm with ⟨-, hnew⟩ | hin
    · exact .inl hnew
    · rcases (halive l).1 (hl.resolve_right (some_ne_none l).symm) with rfl | hlive
      · rw [hempty] at hin
        cases hin
      · exact .inr ⟨l, .inl hlive, hin⟩
  · rintro (hnew | ⟨l, hl, hin⟩)
    · exact ⟨_, .inl ((halive _).2 (.inl rfl)), (hcontent _).2 (.inl ⟨rfl, hnew⟩)⟩
    · have hlive := hl.resolve_right (some_ne_none l).symm
      exact ⟨l, .inl ((halive l).2 (.inr hlive)), (hcontent l).2 (.inr hin)⟩

lemma fronted_step {n : ℕ} (h : Fronted n s) (hn : n < maxInstanceCount) :
    Fronted (n + 1) (s.step (.moveMissionToFront n false (some noteInfo))) := by
  have hnone : s.getMissionById n = none := by
    refine eq_none_iff_forall_ne_some.2 fun m hm => ?_
    have hheld : s.lists.Held none m := held_of_getMissionById hm
    have hlt : m < n := h.next ▸ lt_of_held h.arranged hheld
    have hid := missionId_of_getMissionById hm
    rw [h.made m hlt] at hid
    exact hlt.ne (Int.ofNat_inj.1 hid)
  have hroom : s.isReachToLimitLocked = false := by
    refine decide_eq_false (not_le.2 ?_)
    exact (getMissionCount_le h.arranged).trans_lt (h.length ▸ hn)
  obtain ⟨hlists, hmission⟩ := moveMissionToFront_new noteInfo h.arranged hnone hroom
  have horderly : s.orderly (.moveMissionToFront n false (some noteInfo)) = true := rfl
  have hstep := evolves_step h.arranged h.noneEmpty horderly
  have hnext := congrArg nextMission hlists
  refine ⟨hstep.effect.arranged, hstep.noneEmpty h.noneEmpty, ?_, fun m hm => ?_, ?_⟩
  · rw [hnext, ← h.next]
    unfold MissionLists.moveMissionListToTop
    split <;> rfl
  · rcases Nat.lt_succ_iff_lt_or_eq.1 hm with hlt | rfl
    · exact (hstep.missions m (h.next.symm ▸ hlt)).trans (h.made m hlt)
    · rwa [h.next] at hmission
  · have hmem : ∀ m, m ∈ (s.step (.moveMissionToFront n false (some noteInfo))).lists.allMissions ↔
        m ∈ s.lists.nextMission :: s.lists.allMissions := by
      intro m
      rw [hlists, mem_allMissions_front h.arranged h.noneEmpty, mem_cons]
    have hnodup : (s.lists.nextMission :: s.lists.allMissions).Nodup := by
      refine nodup_cons.2 ⟨fun hin => ?_, nodup_allMissions h.arranged⟩
      exact lt_irrefl _ (lt_of_held h.arranged (mem_allMissions.1 hin))
    have hall := nodup_allMissions hstep.effect.arranged
    have hperm := (perm_ext_iff_of_nodup hall hnodup).2 hmem
    rw [hperm.length_eq, length_cons, h.length]

lemma fronted_run (n : ℕ) (hn : n ≤ maxInstanceCount) :
    Fronted n ((frontOps n).foldl step init) := by
  induction n with
  | zero => exact ⟨arranged_init, noneEmpty_init, rfl, fun _ hm => absurd hm (not_lt_zero _), rfl⟩
  | succ n ih =>
    have hsplit : frontOps (n + 1) = frontOps n ++
        [.moveMissionToFront n false (some noteInfo)] := by
      unfold frontOps
      rw [range_succ, map_append]
      rfl
    rw [hsplit, foldl_append]
    exact fronted_step (ih (le_of_succ_le hn)) hn

theorem front_exceeds_single :
    singleMaxInstanceCount < ((frontOps 129).foldl step init).lists.allMissions.countP fun m =>
      (((frontOps 129).foldl step init).missions m).uid = 20010001 := by
  have h := fronted_run 129 (by decide)
  have hall : (((frontOps 129).foldl step init).lists.allMissions.countP fun m =>
      (((frontOps 129).foldl step init).missions m).uid = 20010001) = 129 := by
    rw [countP_eq_length.2, h.length]
    intro m hm
    have hlt : m < 129 := h.next ▸ lt_of_held h.arranged (mem_allMissions.1 hm)
    rw [h.made m hlt]
    rfl
  rw [hall]
  decide

end AbilityRuntime.MissionListManager
