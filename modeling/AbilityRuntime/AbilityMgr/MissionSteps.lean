import AbilityRuntime.AbilityMgr.MissionMoves

/-! Moving a mission to its target list, and the effect of whole operations. -/

namespace AbilityRuntime.MissionListManager
open MissionLists List
variable {s s' : MissionListManager} {loc loc' : Option ListRef} {l t : ListRef}
  {r m : MissionRef}

lemma isDefault_defaultList (mission : Mission) : (defaultList mission).isDefault = true := by
  unfold defaultList
  split_ifs <;> rfl

lemma isAlive_of_isDefault {s : MissionLists} (h : l.isDefault = true) : s.isAlive l = true := by
  cases l with
  | current n => cases h
  | _ => rfl

lemma current_ne_of_isDefault (h : l.isDefault = true) (n : ℕ) : ListRef.current n ≠ l := by
  rintro rfl
  cases h

structure MovedAbove (l : ListRef) (m : MissionRef) (lists lists' : MissionLists) : Prop where
  effect : ∀ loc, lists.Reached loc l →
    Effect loc loc (fun _ => False) (fun _ => False) lists lists'
  mission : m ∈ lists.missions l → m ∈ lists'.missions l
  others : ∀ n, ListRef.current n ≠ l → lists'.missions (.current n) = lists.missions (.current n)
  current : lists'.currentMissionLists = lists.currentMissionLists
  nextList : lists'.nextList = lists.nextList

lemma movedAbove_moveAbove (missions : MissionRef → Mission) (m : MissionRef)
    (items : List MissionRef) {lists : MissionLists} (ha : lists.Arranged)
    (hitems : ∀ x ∈ items, x ∈ lists.missions l) (hnodup : items.Nodup) :
    MovedAbove l m lists (moveAbove missions m l items lists) := by
  induction items generalizing lists with
  | nil => exact ⟨fun _ _ => .refl ha, id, fun _ _ => rfl, rfl, rfl⟩
  | cons item rest ih =>
    unfold moveAbove
    split_ifs with hitem
    · exact ⟨fun _ _ => .refl ha, id, fun _ _ => rfl, rfl, rfl⟩
    · have hd := isDefault_defaultList (missions item)
      have hmove : ∀ loc, lists.Reached loc l → Reorders loc loc
          lists ((lists.removeMission l item).addMissionToTop (defaultList (missions item)) item) :=
        fun loc hreach => .move ha (hitems item mem_cons_self) hreach
          (fun n hn => absurd hn.symm (current_ne_of_isDefault hd n))
          (.inl (isAlive_of_isDefault hd)) fun hlaunch => by
            rw [hlaunch] at hd
            cases hd
      have hstay : ∀ x ∈ lists.missions l, x ≠ item →
          x ∈ ((lists.removeMission l item).addMissionToTop
            (defaultList (missions item)) item).missions l :=
        fun x hx hxi => mem_addMissionToTop.2
          (.inr (ha.mem_removeMission.2 ⟨hx, fun hc => hxi hc.2⟩))
      obtain ⟨hnotin, hrest⟩ := nodup_cons.1 hnodup
      have hnext := ih (hmove (some l) (.inr rfl)).arranged
        (fun x hx => hstay x (hitems x (mem_cons_of_mem item hx)) fun hxi => hnotin (hxi ▸ hx))
        hrest
      refine ⟨fun loc hreach => (hmove loc hreach).trans (hnext.effect loc hreach), fun hm => ?_,
        fun n hn => ?_, hnext.current, hnext.nextList⟩
      · exact hnext.mission (hstay m hm fun h => hitem h.symm)
      · rw [hnext.others n hn]
        refine (Shelves.content_pushTop_of_ne (current_ne_of_isDefault hd n)).trans ?_
        exact Shelves.content_take_of_ne hn

lemma movedAbove_moveNoneTop (ha : s.lists.Arranged) (hlist : s.lists.getMissionList m = some l) :
    MovedAbove l m s.lists (s.moveNoneTopMissionToDefaultList m).lists ∧
      (s.moveNoneTopMissionToDefaultList m).missions = s.missions ∧
      (s.moveNoneTopMissionToDefaultList m).records = s.records := by
  unfold moveNoneTopMissionToDefaultList
  rw [hlist]
  exact ⟨movedAbove_moveAbove s.missions m _ ha (fun _ => id) (ha.filed.nodup l), rfl, rfl⟩

def LauncherFiled (s : MissionListManager) (isCallFromLauncher : Bool) (t : ListRef)
    (m : MissionRef) : Prop :=
  isCallFromLauncher = true → t = .launcherList →
    ∀ l, s.lists.getMissionList m = some l → l = .launcherList

lemma Unplaced.not_mem (h : s.Unplaced m) (ha : s.lists.Arranged) (l : ListRef) :
    m ∉ s.lists.missions l := by
  intro hin
  have howner := ha.mem_owner hin
  rw [h.1] at howner
  cases howner

lemma evolves_settle (ha : s.lists.Arranged) (ht : s.Target t) (hin : m ∈ s.lists.missions l)
    (hlist : s.lists.getMissionList m = some l) (hl : l.isDefault = false) (launcher : Bool) :
    Regroups (some t) (some t) s
      { s.leaveList launcher t l m with
        lists := (s.leaveList launcher t l m).lists.settle l t m } := by
  obtain ⟨habove, hmissions, hrecords⟩ := movedAbove_moveNoneTop ha hlist
  have halive := (getMissionList_eq hlist).2
  have heffect := habove.effect (some t) (.inl halive)
  have hmade : ∀ n, t = .current n → n < (s.moveNoneTopMissionToDefaultList m).lists.nextList := by
    rw [habove.nextList]
    exact ht.made
  unfold leaveList
  split_ifs with hne hpop
  · have hreach : (s.moveNoneTopMissionToDefaultList m).lists.Reached (some t) l := by
      refine .inl ?_
      cases l with
      | current n =>
        rw [isAlive_current, habove.current]
        exact isAlive_current.1 halive
      | _ => rfl
    have hmove := heffect.trans
      (.move heffect.arranged (habove.mission hin) hreach hmade (.inr rfl) fun _ => rfl)
    refine .of_effect ha hmove.settle (fun hn => ?_) hmissions hrecords
    refine hn.settle heffect.arranged.current_nodup habove.current fun n hnl => ?_
    exact (missions_removeMission_of_ne hnl).trans (habove.others n hnl)
  · obtain rfl := not_not.1 hne
    have hraise := heffect.trans (.raise heffect.arranged (habove.mission hin) (.inr rfl) hmade)
    exact .of_effect ha hraise.settle
      (fun hn => hn.settle heffect.arranged.current_nodup habove.current habove.others) hmissions
      hrecords
  · obtain rfl := not_not.1 hne
    exact .of_effect ha (Effect.raise ha hin (.inr rfl) ht.made).settle
      (fun hn => hn.settle ha.current_nodup rfl fun _ _ => rfl) rfl rfl

variable {launcher : Bool}

lemma evolves_moveMissionToTargetList (ha : s.lists.Arranged) (ht : s.Target t)
    (hm : s.lists.Held none m ∨ s.Unplaced m) (hlaunch : s.LauncherFiled launcher t m) :
    Evolves (some t) (some t) (fun _ => False) (fun x => x = m ∧ s.Unplaced m) s
      (s.moveMissionToTargetList launcher t m) := by
  unfold moveMissionToTargetList
  split
  next hnone =>
    have hplace : s.Unplaced m := by
      refine hm.resolve_left fun ⟨k, hk, hin⟩ => ?_
      rcases hk with hk | hk
      · rw [ha.getMissionList_of_mem hin hk] at hnone
        cases hnone
      · cases hk
    have hadd := Effect.addMissionToTop ha hplace.2 ht.made
      (.inr rfl : s.lists.Reached (some t) t)
      (fun k hk => absurd hk (hplace.not_mem ha k)) fun _ => .inl rfl
    exact .of_effect ha (hadd.weaken (fun _ => id) fun x hx => ⟨hx.1, hplace⟩)
      (fun hn => hn.addMissionToTop t m) rfl rfl
  next l hlist =>
    have hheld : s.lists.Held none m := by
      refine hm.resolve_right fun hplace => ?_
      have howner := hplace.1
      rw [(getMissionList_eq hlist).1] at howner
      cases howner
    have hin := ha.mem_of_getMissionList hheld hlist
    split
    next hcase =>
      obtain ⟨hcall, htarget⟩ : launcher = true ∧ t = .launcherList := by simpa using hcase
      have hl := hlaunch hcall htarget l hlist
      have hin' : m ∈ s.lists.missions t := by
        rw [htarget, ← hl]
        exact hin
      exact .of_effect ha (.raise ha hin' (.inr rfl) ht.made)
        (fun hn => hn.addMissionToTop t m) rfl rfl
    next =>
      split
      next hd =>
        have hmove := Effect.move ha hin (.inl (getMissionList_eq hlist).2) ht.made
          (.inr rfl : s.lists.Reached (some t) t) fun _ => rfl
        refine .of_effect ha (hmove.weaken (fun _ => id) fun _ => False.elim) (fun hn => ?_) rfl rfl
        exact (hn.removeMission (current_ne_of_isDefault hd)).addMissionToTop t m
      next hd =>
        have hl : l.isDefault = false := Bool.not_eq_true _ ▸ hd
        exact (evolves_settle ha ht hin hlist hl launcher).weaken (fun _ => id) fun _ => False.elim

lemma mem_moveMissionToTargetList :
    m ∈ (s.moveMissionToTargetList launcher t m).lists.missions t := by
  have hadd : ∀ lists : MissionLists, m ∈ (lists.addMissionToTop t m).missions t :=
    fun _ => mem_addMissionToTop.2 (.inl ⟨rfl, rfl⟩)
  unfold moveMissionToTargetList
  split
  · exact hadd _
  · split
    · exact hadd _
    · split
      · exact hadd _
      · exact mem_settle

lemma evolves_moveMissionListToTop (ha : s.lists.Arranged) (ht : s.Target t)
    (hne : s.lists.missions t ≠ []) :
    Regroups (some t) none s (s.moveMissionListToTop t) := by
  unfold MissionListManager.moveMissionListToTop MissionLists.moveMissionListToTop
  split
  next hhead =>
    exact .of_effect ha (.let_go ha (.inl (mem_of_head? hhead))) id
      rfl rfl
  next =>
    have hmem : ∀ k, k ∈ t :: s.lists.currentMissionLists.filter (· ≠ t) ↔
        k ∈ s.lists.currentMissionLists ∨ some t = some k := by
      intro k
      by_cases hk : k = t
      · simp [hk]
      · simp [hk, Ne.symm hk]
    refine .of_effect ha (.relink ha ?_ ?_ (fun k _ => ?_) fun hlink _ => .inl ?_)
      (fun hn => ?_) rfl rfl
    · exact nodup_cons.2 ⟨by simp, ha.current_nodup.filter _⟩
    · intro k hk
      rcases (hmem k).1 hk with hin | heq
      · exact ha.current_kind k hin
      · exact Option.some.inj heq ▸ ht.not_default
    · unfold Reached
      cases k with
      | current n =>
        rw [isAlive_current, isAlive_current]
        simpa using (hmem (.current n)).symm
      | _ => simp [isAlive]
    · exact (hmem _).2 hlink
    · intro n hn'
      rcases (hmem _).1 hn' with hin | heq
      · exact hn n hin
      · exact Option.some.inj heq ▸ hne

def startsThrough (s : MissionListManager) (callerAbility : Option MissionRef)
    (request : AbilityRequest) (env : StartEnv) : Bool :=
  match s.getTargetMissionList callerAbility request with
  | (none, _) => false
  | (some _, s) => (s.getTargetMission request env).1 = .getTargetMissionOver

def launcherFiled (s : MissionListManager) (callerAbility : Option MissionRef)
    (request : AbilityRequest) : Bool :=
  !(request.isLauncherApp && callerAbility.any fun c => (s.missions c).isLauncherApp) ||
    (s.getReusedMission request).all fun m => s.lists.getMissionList m = some .launcherList

variable {caller : Option MissionRef} {request : AbilityRequest} {s₁ : MissionListManager}

lemma reused_of_launcherTarget (hcall : (caller.any fun c => (s.missions c).isLauncherApp) = true)
    (hfiled : s.launcherFiled caller request = true)
    (htarget : s.getTargetMissionList caller request = (some .launcherList, s₁)) :
    s₁ = s ∧ ∀ m, s.getReusedMission request = some m →
      s.lists.getMissionList m = some .launcherList := by
  obtain ⟨c, rfl, hc⟩ := (Option.any_eq_true _ _).1 hcall
  unfold getTargetMissionList at htarget
  split at htarget
  next hlauncher =>
    refine ⟨(congrArg Prod.snd htarget).symm, fun m hm => ?_⟩
    unfold launcherFiled at hfiled
    simpa [hlauncher, hcall, hm] using hfiled
  next =>
    dsimp only at htarget
    rw [if_pos hc] at htarget
    unfold getTargetMissionListByLauncher at htarget
    split at htarget
    next l hl =>
      split at htarget
      · cases htarget
      · obtain ⟨hl', hs⟩ := Prod.mk.inj htarget
        cases hl'
        refine ⟨hs.symm, fun m hm => ?_⟩
        rw [hm] at hl
        exact hl
    next => cases htarget

variable {env : StartEnv}

lemma launcherFiled_of_got {s₂ : MissionListManager}
    (hfiled : s.launcherFiled caller request = true)
    (htarget : s.getTargetMissionList caller request = (some t, s₁))
    (hgot : Got s₁ request env m s₂) :
    s₂.LauncherFiled (caller.any fun c => (s.missions c).isLauncherApp) t m := by
  intro hcall ht l hl
  subst ht
  obtain ⟨rfl, hreused⟩ := reused_of_launcherTarget hcall hfiled htarget
  rcases hgot.target with ⟨hs, hm⟩ | ⟨-, -, -, -, hplace, -⟩
  · rw [hs.lists, hreused m hm] at hl
    exact (Option.some.inj hl).symm
  · have howner := (getMissionList_eq hl).1
    rw [hplace.1] at howner
    cases howner

structure Birth where
  loc : Option ListRef
  checked : MissionListManager
  uid : ℤ

def Birth.state (b : Birth) : MissionListManager := b.checked.checkLimit.2

structure Made (s s' : MissionListManager) (b : Birth) : Prop where
  before : Evolves none b.loc (fun _ => False) (fun _ => False) s b.checked
  after : Evolves b.loc none (fun _ => False) (· = b.state.lists.nextMission) b.state s'
  uid : (s'.missions b.state.lists.nextMission).uid = b.uid

def startBirth (s : MissionListManager) (callerAbility : Option MissionRef)
    (request : AbilityRequest) (env : StartEnv) : Option Birth :=
  match s.getTargetMissionList callerAbility request with
  | (none, _) => none
  | (some t, s) =>
    if (s.getReusedMission request).isNone && env.missionInfoId.isSome then
      some { loc := some t, checked := s, uid := request.uid }
    else none

def frontBirth (s : MissionListManager) (missionId : ℤ) (info : Option FrontInfo) : Option Birth :=
  match s.getMissionById missionId, info with
  | none, some info => some { loc := none, checked := s, uid := info.request.uid }
  | _, _ => none

lemma evolves_moveToTarget (ha : s.lists.Arranged) (ht : s.Target t)
    (hm : s.lists.Held none m ∨ s.Unplaced m) (hlaunch : s.LauncherFiled launcher t m) :
    Evolves (some t) none (fun _ => False) (fun x => x = m ∧ s.Unplaced m) s
      ((s.moveMissionToTargetList launcher t m).moveMissionListToTop t) := by
  have hmove := evolves_moveMissionToTargetList ha ht hm hlaunch
  refine hmove.trans ((evolves_moveMissionListToTop hmove.effect.arranged
    (ht.evolves hmove) ?_).weaken (fun _ => id) fun _ => False.elim)
  exact ne_nil_of_mem mem_moveMissionToTargetList

lemma Evolves.weaken_new {gone new new' : MissionRef → Prop} (h : Evolves loc loc' gone new s s')
    (hn : ∀ m, new m → new' m) : Evolves loc loc' gone new' s s' :=
  h.weaken (fun _ => id) hn

lemma Got.finish {s₂ : MissionListManager}
    (hlist : s.getTargetMissionList caller request = (some t, s₁))
    (hchosen : Chosen s caller request t s₁) (hgot : Got s₁ request env m s₂)
    (hmoved : Evolves (some t) none (fun _ => False) (fun x => x = m ∧ s₂.Unplaced m) s₂ s') :
    Regroups none none s s' ∨ ∃ b, s.startBirth caller request env = some b ∧ Made s s' b := by
  rcases hgot.target with ⟨hs, hm⟩ | ⟨hnone, missionId, hid, hm, -, hs⟩
  · refine .inl ?_
    refine (hchosen.holding.trans (hgot.evolves (some t))).trans (hmoved.weaken_new ?_)
    rintro x ⟨-, hplace⟩
    have hheld : s₂.lists.Held none m := by
      rw [hs.lists]
      exact held_of_getReusedMission hm
    obtain ⟨l, -, hin⟩ := hheld
    exact hplace.not_mem (hgot.evolves none).effect.arranged l hin
  · refine .inr ⟨⟨some t, s₁, request.uid⟩, ?_, ?_⟩
    · simp [startBirth, hlist, hnone, hid]
    have ha₁ := hchosen.holding.effect.arranged
    have hlimit : Regroups (some t) (some t) s₁ s₁.checkLimit.2 := .checkLimit ha₁
    have hmake : Regroups (some t) (some t) s₁.checkLimit.2 s₂ :=
      (Evolves.makeMission hlimit.effect.arranged _ _).steady hs
    have hborn : m < s₂.lists.nextMission := by
      rw [hs.lists, hm]
      exact Nat.lt_succ_self _
    refine ⟨hchosen.holding,
      (hmake.weaken_new fun _ => False.elim).trans (hmoved.weaken_new fun x hx => hx.1.trans hm),
      ?_⟩
    dsimp only [Birth.state]
    rw [← hm, hmoved.missions m hborn, hs.missions, hm, missions_makeMission]
    rfl

theorem startAbilityLocked_cases (ha : s.lists.Arranged) (hn : s.lists.NoneEmpty)
    (top caller : Option MissionRef) (env : StartEnv)
    (hfiled : s.launcherFiled caller request = true) :
    (s.startsThrough caller request env = false ∧
      Evolves none none (fun m => s.defaultCaller caller request = some m) (fun _ => False) s
        (s.startAbilityLocked top caller request env).2) ∨
    Regroups none none s (s.startAbilityLocked top caller request env).2 ∨
    ∃ b, s.startBirth caller request env = some b ∧
      Made s (s.startAbilityLocked top caller request env).2 b := by
  rcases getTargetMissionList_cases ha hn with hlist | ⟨t, s₁, hlist, hchosen⟩
  · unfold startAbilityLocked
    rw [hlist]
    exact .inr (.inl (.of_steady (.refl s) ha))
  · have ha₁ := hchosen.holding.effect.arranged
    rcases getTargetMission_cases ha₁ request env with ⟨ret, m, s₂, hget, hret, hs₂⟩ |
      ⟨m, s₂, hget, hgot⟩
    · refine .inl ⟨?_, ?_⟩
      · unfold startsThrough
        rw [hlist]
        simp [hget, hret]
      · have hgo := hchosen.letting_go.trans ((hs₂ none).weaken (fun _ => False.elim) fun _ => id)
        unfold startAbilityLocked
        rw [hlist]
        dsimp only
        rw [hget]
        cases ret with
        | getTargetMissionOver => exact absurd rfl hret
        | _ => exact hgo
    · have hevolves := hgot.evolves none
      have hmoved := (evolves_moveToTarget hevolves.effect.arranged
        (hchosen.target.evolves hevolves) hgot.placing
        (launcherFiled_of_got hfiled hlist hgot)).steady
          (.scheduleTarget _ top caller request env.focusAbility m)
      have hfinish := hgot.finish hlist hchosen hmoved
      unfold startAbilityLocked
      rw [hlist]
      dsimp only
      rw [hget]
      exact .inr hfinish

lemma evolves_toFront {n : ℕ} (ha : s.lists.Arranged) (hn : n < s.lists.nextList)
    (hm : s.lists.Held none m ∨ s.Unplaced m) (launcher : Bool) :
    Evolves (some (.current n)) none (fun _ => False) (fun x => x = m ∧ s.Unplaced m) s
      (((s.moveMissionToTargetList launcher (.current n) m).moveMissionListToTop
        (.current n)).modify m processForegroundAbility) := by
  have ht : s.Target (.current n) := ⟨rfl, fun k hk => ListRef.current.inj hk ▸ hn⟩
  have hfiled : s.LauncherFiled launcher (.current n) m := fun _ h => nomatch h
  exact (evolves_moveToTarget ha ht hm hfiled).steady
    (.modify _ _ fun _ => marked_processForegroundAbility)

lemma moveMissionToFrontInner_cases (ha : s.lists.Arranged) (hn : s.lists.NoneEmpty)
    (missionId : ℤ) (launcher : Bool) (info : Option FrontInfo) :
    Regroups none none s (s.moveMissionToFrontInner missionId launcher info).2 ∨
    ∃ b, s.frontBirth missionId info = some b ∧
      Made s (s.moveMissionToFrontInner missionId launcher info).2 b := by
  have hstay : Regroups none none s s := .of_steady (.refl s) ha
  unfold moveMissionToFrontInner getTargetMissionListById
  cases hmission : s.getMissionById missionId with
  | some mission =>
    have hheld : s.lists.Held none mission := held_of_getMissionById hmission
    have hplaced : ¬ s.Unplaced mission := fun hplace =>
      hheld.elim fun l hl => hplace.not_mem ha l hl.2
    refine .inl ?_
    dsimp only
    cases hlist : s.lists.getMissionList mission with
    | none => exact hstay
    | some l =>
      cases l with
      | launcherList => exact hstay
      | current n =>
        have halive := (getMissionList_eq hlist).2
        have htarget := Target.of_alive ha hn halive rfl
        have hhold : Regroups none (some (.current n)) s s :=
          .of_effect ha (.take_hold ha halive) id rfl rfl
        exact hhold.trans ((evolves_toFront ha (htarget.made n rfl) (.inl hheld)
          launcher).weaken_new fun _ hx => hplaced hx.2)
      | _ =>
        have hmake := Evolves.makeMissionList ha
        exact hmake.trans ((evolves_toFront hmake.effect.arranged (Nat.lt_succ_self _)
          (.inl hheld) launcher).weaken_new fun _ hx => hplaced hx.2)
  | none =>
    cases info with
    | none => exact .inl hstay
    | some info =>
      refine .inr ⟨⟨none, s, info.request.uid⟩, ?_, ?_⟩
      · unfold frontBirth
        rw [hmission]
      have hlimit : Regroups none none s s.checkLimit.2 := .checkLimit ha
      have ha' := hlimit.effect.arranged
      have hmake : Regroups none none s.checkLimit.2
          (s.checkLimit.2.makeMission (info.mission missionId) "0").2 :=
        .makeMission ha' _ _
      have hlist := hmake.trans (.makeMissionList hmake.effect.arranged)
      have hfront := evolves_toFront hlist.effect.arranged (Nat.lt_succ_self _)
        (.inr (unplaced_makeMission ha' (info.mission missionId) "0")) launcher
      rw [checkLimit_eq s]
      refine ⟨hstay, (hlist.weaken_new fun _ => False.elim).trans
        (hfront.weaken_new fun x hx => hx.1), ?_⟩
      exact (congrArg Mission.uid (hfront.missions _ (Nat.lt_succ_self _))).trans
        (congrArg Mission.uid (missions_makeMission _ (info.mission missionId) "0"))

structure StartCall where
  state : MissionListManager
  caller : Option MissionRef
  request : AbilityRequest
  env : StartEnv

structure FrontCall where
  state : MissionListManager
  missionId : ℤ
  isCallerFromLauncher : Bool
  info : Option FrontInfo

variable (s)

def startCallOf (request : AbilityRequest) (env : StartEnv) :
    Option StartCall :=
  if request.launchMode = .specified then none
  else some ⟨s, s.getAbilityRecordByTokenInner request.callerToken, request, env⟩

def frontStartCall (env : StartEnv) : Option StartCall :=
  match s.waitingAbilityQueue with
  | [] => none
  | request :: rest => { s with waitingAbilityQueue := rest }.startCallOf request env

def acceptedMission (want : String × String) (flag : String) :
    Option MissionRef :=
  if flag = "" then none else s.getMissionBySpecifiedFlag want.1 want.2 flag

def startCall : Op → Option StartCall
  | .startAbility request env =>
    if s.checkSingleLimit request then none
    else if s.isTopForegrounding &&
        !s.getCurrentTopAbilityLocked.any fun top => (s.records top).restartAppFlag then none
    else s.startCallOf request env
  | .startWaitingAbility env => if s.isTopForegrounding then none else s.frontStartCall env
  | .onAcceptWantResponse want flag _ env =>
    match s.waitingAbilityQueue with
    | [] => none
    | request :: rest =>
      let s := { s with waitingAbilityQueue := rest }
      match s.acceptedMission want flag with
      | some _ => none
      | none => some ⟨s, s.getAbilityRecordByTokenInner request.callerToken,
          { request with specifiedFlag := flag }, env⟩
  | .onStartSpecifiedAbilityTimeoutResponse env =>
    match s.waitingAbilityQueue with
    | [] => none
    | _ :: rest => { s with waitingAbilityQueue := rest }.frontStartCall env
  | _ => none

def frontCall : Op → Option FrontCall
  | .moveMissionToFront missionId isCallerFromLauncher info =>
    some ⟨s, missionId, isCallerFromLauncher, info⟩
  | .onAcceptWantResponse want flag info _ =>
    match s.waitingAbilityQueue with
    | [] => none
    | request :: rest =>
      let s := { s with waitingAbilityQueue := rest }
      (s.acceptedMission want flag).map fun mission =>
        ⟨s, (s.missions mission).missionId,
          request.callerToken.any fun c => (s.missions c).isLauncherApp, info⟩
  | .backToCaller caller info =>
    if s.getCurrentTopAbilityLocked = some caller ∧ (s.records caller).currentState = .foreground
    then none
    else some ⟨s, (s.missions caller).missionId, false, info⟩
  | _ => none

variable {s}

inductive Calls (s : MissionListManager) (op : Op) (s' : MissionListManager) : Prop
  | start (c : StartCall) (top : Option MissionRef) (h : s.startCall op = some c)
      (hs : Steady s c.state)
      (hs' : s' = (c.state.startAbilityLocked top c.caller c.request c.env).2)
  | front (c : FrontCall) (h : s.frontCall op = some c) (hs : Steady s c.state)
      (hs' : s' = (c.state.moveMissionToFrontInner c.missionId c.isCallerFromLauncher c.info).2)
  | steady (hs : Steady s s')

lemma Steady.of_queue {queue : List AbilityRequest} :
    Steady s { s with waitingAbilityQueue := queue } :=
  ⟨rfl, rfl, fun _ => id⟩

lemma calls_startAbilityFrom {op : Op} {u : MissionListManager}
    (hcall : s.startCall op = u.startCallOf request env) (hs : Steady s u)
    (top : Option MissionRef) :
    Calls s op (u.startAbilityFrom top (u.getAbilityRecordByTokenInner request.callerToken)
      request env).2 := by
  unfold startCallOf at hcall
  unfold startAbilityFrom
  split_ifs at hcall ⊢
  · exact .steady (hs.trans ⟨rfl, rfl, fun _ => id⟩)
  · exact .start _ top hcall hs rfl

lemma calls_startFront {op : Op} {u : MissionListManager}
    (hcall : s.startCall op = u.frontStartCall env) (hs : Steady s u) :
    Calls s op (u.startFront env) := by
  unfold frontStartCall at hcall
  unfold startFront
  cases hqueue : u.waitingAbilityQueue with
  | nil => exact .steady hs
  | cons request rest =>
    rw [hqueue] at hcall
    exact calls_startAbilityFrom hcall (hs.trans .of_queue) _

variable (s request env) in
lemma calls_startAbility : Calls s (.startAbility request env) (s.startAbility request env).2 := by
  unfold startAbility
  split
  · exact .steady (.refl s)
  next hlimit =>
    dsimp only
    split
    · exact .steady .of_queue
    next hwait =>
      refine calls_startAbilityFrom ?_ (.refl s) _
      simp only [startCall]
      rw [if_neg hlimit, if_neg hwait]

variable (s env) in
lemma calls_startWaitingAbility :
    Calls s (.startWaitingAbility env) (s.startWaitingAbility env) := by
  unfold startWaitingAbility
  split
  · exact .steady (.refl s)
  next htop =>
    refine calls_startFront ?_ (.refl s)
    simp only [startCall]
    rw [if_neg htop]

lemma calls_onAcceptWantResponse (s : MissionListManager) (want : String × String)
    (flag : String) (info : Option FrontInfo) (env : StartEnv) :
    Calls s (.onAcceptWantResponse want flag info env)
      (s.onAcceptWantResponse want flag info env) := by
  unfold onAcceptWantResponse
  cases hqueue : s.waitingAbilityQueue with
  | nil => exact .steady (.refl s)
  | cons request rest =>
    let u : MissionListManager := { s with waitingAbilityQueue := rest }
    have hstart (hnone : u.acceptedMission want flag = none) :
        Calls s (.onAcceptWantResponse want flag info env)
          (u.startAbilityLocked u.getCurrentTopAbilityLocked
            (u.getAbilityRecordByTokenInner request.callerToken)
            { request with specifiedFlag := flag } env).2 := by
      refine .start ⟨u, u.getAbilityRecordByTokenInner request.callerToken,
        { request with specifiedFlag := flag }, env⟩ _ ?_ .of_queue rfl
      dsimp only [u] at hnone ⊢
      simp [startCall, hqueue, hnone]
    dsimp only
    split_ifs with hflag
    · exact hstart (if_pos hflag)
    · split
      next hnone => exact hstart ((if_neg hflag).trans hnone)
      next mission hsome =>
        refine .front ⟨u, (u.missions mission).missionId,
          request.callerToken.any fun c => (u.missions c).isLauncherApp, info⟩ ?_ .of_queue rfl
        simp only [frontCall, hqueue]
        exact congrArg (Option.map _) ((if_neg hflag).trans hsome)

variable (s env) in
lemma calls_onTimeoutResponse : Calls s (.onStartSpecifiedAbilityTimeoutResponse env)
      (s.onStartSpecifiedAbilityTimeoutResponse env) := by
  unfold onStartSpecifiedAbilityTimeoutResponse
  cases hqueue : s.waitingAbilityQueue with
  | nil => exact .steady (.refl s)
  | cons request rest =>
    refine calls_startFront ?_ .of_queue
    simp only [startCall, hqueue]

lemma calls_backToCaller (s : MissionListManager) (caller : MissionRef) (info : Option FrontInfo) :
    Calls s (.backToCaller caller info) (s.backToCaller caller info) := by
  unfold backToCaller
  split
  · exact .steady (.refl s)
  next htop =>
    refine .front ⟨_, _, _, _⟩ ?_ (.refl s) rfl
    simp only [frontCall]
    rw [if_neg htop]

end AbilityRuntime.MissionListManager
