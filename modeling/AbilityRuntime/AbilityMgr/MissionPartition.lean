import AbilityRuntime.Library.Runs
import AbilityRuntime.AbilityMgr.MissionSteps

/-! The mission lists partition the missions along every run whose steps are orderly. -/

namespace AbilityRuntime.MissionListManager
open MissionLists List Function
variable {s s' : MissionListManager} {l t : ListRef} {r m : MissionRef}

variable (s)

def ownMission (r : MissionRef) : Bool :=
  (s.getMissionById (s.missions r).missionId).all (· = r)

def onTop (r : MissionRef) : Bool :=
  ((s.getMissionById (s.missions r).missionId).bind s.lists.getMissionList).all fun l =>
    s.lists.getTopMission l = some r

def ownDeath (r : MissionRef) : Bool :=
  ((s.records r).isTerminating && !(s.missions r).isLauncherApp) || s.ownMission r

def orderlyStart (callerAbility : Option MissionRef)
    (request : AbilityRequest) (env : StartEnv) : Bool :=
  s.launcherFiled callerAbility request &&
    (s.startsThrough callerAbility request env || (s.defaultCaller callerAbility request).isNone)

variable {s}

lemma own_of_found (h : s.ownMission r = true)
    (hm : s.getMissionById (s.missions r).missionId = some m) : m = r := by
  unfold ownMission at h
  rw [hm] at h
  exact of_decide_eq_true h

lemma Evolves.absorb_after {loc loc' : Option ListRef} {gone new : MissionRef → Prop}
    (h : Evolves loc loc' gone new s s') (hm : ∀ m, gone m → s'.Marked m) :
    Evolves loc loc' (fun _ => False) new s s' where
  __ := h
  effect := by
    refine ⟨h.effect.arranged, fun m hheld => ?_, h.effect.origin, h.effect.grows,
      h.effect.makes, h.effect.launcher⟩
    exact (h.effect.kept m hheld).imp_right fun hgone => .inl (hgone.elim id (hm m))

section
variable (ha : s.lists.Arranged)
include ha

lemma evolves_removeBackgroundingAbility (htop : s.onTop r = true) :
    Regroups none none s (s.removeBackgroundingAbility r) := by
  have hstay : Regroups none none s s := .of_steady (.refl s) ha
  unfold removeBackgroundingAbility
  split
  · exact hstay
  next l hl =>
    have hhead : s.lists.getTopMission l = some r := by
      unfold onTop at htop
      rw [hl] at htop
      exact of_decide_eq_true htop
    rw [hhead]
    obtain ⟨mission, -, hlist⟩ := Option.bind_eq_some_iff.1 hl
    have hd := isDefault_defaultList (s.missions r)
    have hin : r ∈ s.lists.missions l := mem_of_head? hhead
    have hmove : Reorders none none s.lists
        ((s.lists.removeMission l r).addMissionToTop (defaultList (s.missions r)) r) :=
      .move ha hin (.inl (getMissionList_eq hlist).2)
        (fun n hn => absurd hn.symm (current_ne_of_isDefault hd n))
        (.inl (isAlive_of_isDefault hd)) fun hlaunch => by
          rw [hlaunch] at hd
          cases hd
    have hsettle : Regroups none none s
        { s with
          lists := (s.lists.removeMission l r).settle l (defaultList (s.missions r)) r } :=
      .of_effect ha hmove.settle
        (fun hn => hn.settle ha.current_nodup rfl fun n hnl =>
          missions_removeMission_of_ne hnl) rfl rfl
    have hnext := hsettle.steady
      (.modify _ r (f := fun a => { a with nextAbilityRecord := none }) fun _ h => h)
    dsimp only [removeMissionByAbilityRecord]
    rw [← settle_eq (ha.removeMission l r).current_nodup]
    split
    · exact hnext.steady (.setNextAbility _ l r)
    · exact hnext

lemma evolves_moveAbilityToBackground (htop : s.onTop r = true) (animaEnabled : Bool) :
    Regroups none none s (s.moveAbilityToBackground r animaEnabled) := by
  have hremoved := evolves_removeBackgroundingAbility ha htop
  unfold moveAbilityToBackground
  dsimp only
  split
  · have hpending := hremoved.steady
      (.modify _ r (f := fun a => { a with pendingState := .background }) fun _ h => h)
    split
    · exact hpending.steady (.modify _ _ fun _ h => marked_foregroundNext h)
    · split
      · exact hpending
      · exact hpending.steady (.modify _ _ fun _ h => h)
  · exact hremoved

lemma evolves_quitList (l : ListRef) (m : MissionRef) :
    Evolves none none (· = m) (fun _ => False) s { s with lists := quitList s.lists l m } := by
  unfold quitList
  split
  · exact .of_effect ha (.withdraw ha _ m) (fun hn => hn.withdraw ha _ m) rfl rfl
  next hne =>
    exact .of_effect ha (.removeMission ha l m)
      (fun hn => hn.removeMission fun n hl => hne n hl.symm) rfl rfl

lemma evolves_handleLauncherDied (hown : s.ownMission r = true) :
    Evolves none none (· = r) (fun _ => False) s (s.handleLauncherDied r) := by
  have hstay : Evolves none none (· = r) (fun _ => False) s s := .of_steady (.refl s) ha
  unfold handleLauncherDied
  split
  · exact hstay
  next mission hmission =>
    obtain rfl := own_of_found hown hmission
    split
    · exact hstay
    · split
      · exact hstay.steady (.modify _ _ fun _ h => h)
      · exact evolves_quitList ha .launcherList mission

lemma evolves_handleAbilityDiedByDefault
    (hown : (s.records r).isTerminating = true ∨ s.ownMission r = true) :
    Evolves none none (· = r) (fun _ => False) s (s.handleAbilityDiedByDefault r) := by
  have hstay : Evolves none none (· = r) (fun _ => False) s s := .of_steady (.refl s) ha
  unfold handleAbilityDiedByDefault
  split
  · exact .of_steady ⟨rfl, rfl, fun _ => id⟩ ha
  next hmark =>
    split
    · exact hstay
    next mission hmission =>
      obtain rfl := own_of_found (hown.resolve_left hmark) hmission
      split
      · exact hstay
      next l _ => exact evolves_quitList ha l mission

lemma evolves_onAbilityDied (hown : s.ownDeath r = true) (isCurrentUser : Bool) :
    Evolves none none (· = r) (fun _ => False) s (s.onAbilityDied r isCurrentUser) := by
  have hdied : ∀ {s₁ : MissionListManager}, Steady s s₁ → s₁.ownDeath r = true →
      Evolves none none (· = r) (fun _ => False) s
        (if (s₁.missions r).isLauncherApp then s₁.handleLauncherDied r
          else s₁.handleAbilityDiedByDefault r) := by
    intro s₁ hs hown₁
    have ha₁ : s₁.lists.Arranged := hs.lists ▸ ha
    refine (Evolves.of_steady hs ha).trans ?_
    unfold ownDeath at hown₁
    split
    next hlauncher =>
      rw [hlauncher, Bool.not_true, Bool.and_false] at hown₁
      exact evolves_handleLauncherDied ha₁ hown₁
    next =>
      refine evolves_handleAbilityDiedByDefault ha₁ ?_
      exact (Bool.or_eq_true_iff.1 hown₁).imp_left fun h => (Bool.and_eq_true_iff.1 h).1
  unfold onAbilityDied
  split
  · exact .of_steady (.modify s r fun _ h => h) ha
  · split
    · refine hdied (.modify s r fun _ h => h) ?_
      unfold ownDeath at hown ⊢
      unfold modify
      dsimp only
      rw [update_self]
      exact hown
    · exact hdied (.refl s) hown

section
variable (hown : s.ownMission r = true)
include hown

lemma evolves_moveToTerminateList :
    Evolves none none (fun m => m = r ∧ (s.records r).currentState = .initial) (fun _ => False) s
      (s.moveToTerminateList r) := by
  unfold moveToTerminateList
  split
  · exact .of_steady (.refl s) ha
  next mission hmission =>
    obtain rfl := own_of_found hown hmission
    split
    · exact .of_steady (.refl s) ha
    next l _ =>
      have hquit := evolves_quitList ha l mission
      dsimp only
      split
      next hinitial => exact hquit.weaken (fun m hm => ⟨hm, hinitial⟩) fun _ => id
      next =>
        have hmark := hquit.steady (.modify _ mission
          (f := fun a => { a with isTerminating := true }) fun _ _ => rfl)
        have hlisted := hmark.steady (u := { s with
          lists := quitList s.lists l mission
          records := update s.records mission { s.records mission with isTerminating := true }
          terminateAbilityList := s.terminateAbilityList ++ [mission] }) ⟨rfl, rfl, fun _ => id⟩
        refine (hlisted.absorb_after ?_).weaken (fun _ => False.elim) fun _ => id
        rintro m rfl
        unfold Marked
        dsimp only
        rw [update_self]

lemma evolves_handleForegroundTimeout : Regroups none none s (s.handleForegroundTimeout r) := by
  unfold handleForegroundTimeout
  split
  · exact .of_steady (.refl s) ha
  next hstate =>
    split
    · exact .of_steady (.refl s) ha
    · refine (evolves_moveToTerminateList ha hown).weaken ?_ fun _ => id
      rintro m ⟨-, hinitial⟩
      rw [hinitial] at hstate
      exact hstate nofun

lemma evolves_onTimeOut (msg : TimeoutMsg) :
    Evolves none none (fun m => msg = .load ∧ m = r) (fun _ => False) s (s.onTimeOut msg r) := by
  unfold onTimeOut
  split
  · exact .of_steady (.refl s) ha
  next r' hr =>
    obtain ⟨hr', -⟩ := Option.filter_eq_some_iff.1 hr
    cases hr'
    cases msg with
    | load =>
      have hloaded : Evolves none none (fun m => TimeoutMsg.load = .load ∧ m = r)
          (fun _ => False) s (s.modify r fun a => { a with isLoading := false }) :=
        .of_steady (.modify s r fun _ h => h) ha
      dsimp only
      split
      · exact hloaded
      · exact hloaded.trans ((evolves_moveToTerminateList hloaded.effect.arranged hown).weaken
          (fun m hm => ⟨rfl, hm.1⟩) fun _ => id)
    | foreground =>
      exact (evolves_handleForegroundTimeout ha hown).weaken (fun _ => False.elim) fun _ => id

lemma evolves_completeForegroundFailed (state : AbilityState) :
    Regroups none none s (s.completeForegroundFailed r state) := by
  unfold completeForegroundFailed
  split
  · refine .of_steady (.trans ?_ (.terminatePreviousAbility _ r)) ha
    exact .modify s r fun _ h => h
  · exact .of_steady (.modify s r fun _ h => h) ha
  · exact (evolves_handleForegroundTimeout ha hown).steady (.terminatePreviousAbility _ r)

end

lemma evolves_clearMission (missionId : ℤ) (stop : Bool) :
    Regroups none none s (s.clearMission missionId stop) := by
  have hstay : Regroups none none s s := .of_steady (.refl s) ha
  unfold clearMission clearMissionLocked
  dsimp only
  split
  · exact hstay
  · split
    · exact hstay
    · split
      · exact hstay
      · split
        · exact hstay
        · split
          · exact hstay
          · split
            · exact hstay
            · split
              · exact hstay
              · exact .terminateMarked ha _ false

lemma evolves_completeTerminate (r : MissionRef) :
    Evolves none none (fun m => (s.records r).currentState = .terminating ∧
      (s.records r).preAbilityRecord = some m) (fun _ => False) s (s.completeTerminate r) := by
  unfold completeTerminate
  split
  · exact .of_steady (.refl s) ha
  next hstate =>
    split
    next pre hpre =>
      have hlocked : Evolves none none (· = pre) (fun _ => False) s
          (s.terminateAbilityLocked pre false) :=
        .terminateAbilityLocked ha pre false
      exact (hlocked.weaken (fun m hm => ⟨not_not.1 hstate, hpre.trans (congrArg some hm.symm)⟩)
        fun _ => id).steady ⟨rfl, rfl, fun _ => id⟩
    next => exact .of_steady ⟨rfl, rfl, fun _ => id⟩ ha

lemma evolves_backToLauncher (hown : (s.getLauncherRoot.all fun root => s.ownMission root) = true) :
    Regroups none none s s.backToLauncher := by
  have hstay : Regroups none none s s := .of_steady (.refl s) ha
  unfold backToLauncher
  split
  · exact hstay
  next root hroot =>
    split
    · exact hstay
    · split
      · exact hstay
      next mission hmission =>
        rw [hroot] at hown
        obtain rfl := own_of_found hown hmission
        have hin : mission ∈ s.lists.missions .launcherList := mem_of_find?_eq_some hroot
        have hraise : Regroups none (some .launcherList) s
            { s with lists := s.lists.addMissionToTop .launcherList mission } :=
          .of_effect ha ((Effect.take_hold ha rfl).trans (.raise ha hin (.inr rfl) nofun))
            (fun hn => hn.addMissionToTop _ _) rfl rfl
        have htop := hraise.trans (evolves_moveMissionListToTop hraise.effect.arranged ⟨rfl, nofun⟩
          (ne_nil_of_mem (mem_addMissionToTop.2 (.inl ⟨rfl, rfl⟩))))
        refine (htop.steady (u := { s with
          lists := (s.lists.addMissionToTop .launcherList mission).moveMissionListToTop
            .launcherList
          waitingAbilityQueue := [] }) ⟨rfl, rfl, fun _ => id⟩).steady (.modify _ _ fun a h => ?_)
        split_ifs <;> exact h

end

lemma effect_handleUnInstallApp {lists : MissionLists} (ha : lists.Arranged)
    (bundleName : String) (uid : ℤ) (l : ListRef) :
    Effect none none (fun m => s.matchedInitialMission bundleName uid m = true) (fun _ => False)
      lists (s.handleUnInstallApp bundleName uid lists l) := by
  refine .shrink ha (fun k => ?_) fun k x hx => ?_
  · by_cases hk : k = l
    · subst hk
      rw [update_self]
      exact filter_sublist
    · rw [update_of_ne hk]
      exact .refl _
  · by_cases hmatch : s.matchedInitialMission bundleName uid x = true
    · exact .inr hmatch
    · refine .inl ?_
      by_cases hk : k = l
      · subst hk
        rw [update_self]
        exact mem_filter.2 ⟨hx, by simpa using hmatch⟩
      · rw [update_of_ne hk]
        exact hx

lemma evolves_addUninstallTags (ha : s.lists.Arranged) (bundleName : String) (uid : ℤ) :
    Evolves none none (fun m => s.matchedInitialMission bundleName uid m = true) (fun _ => False) s
      (s.addUninstallTags bundleName uid) := by
  -- the loop keeps the lists tidy turn by turn: a list that is emptied is unlinked at once
  have hloop : Effect none none (fun m => s.matchedInitialMission bundleName uid m = true)
      (fun _ => False) s.lists
      (s.lists.currentMissionLists.foldl (s.uninstallFrom bundleName uid) s.lists) ∧
      (s.lists.NoneEmpty → (s.lists.currentMissionLists.foldl
        (s.uninstallFrom bundleName uid) s.lists).NoneEmpty) := by
    refine foldlRecOn (motive := fun lists => Effect none none
      (fun m => s.matchedInitialMission bundleName uid m = true) (fun _ => False) s.lists lists ∧
        (s.lists.NoneEmpty → lists.NoneEmpty)) _ _ ⟨.refl ha, id⟩ ?_
    rintro lists ⟨heffect, hnone⟩ l -
    have hhandle := effect_handleUnInstallApp (s := s) heffect.arranged bundleName uid l
    have hunlink := hhandle.trans ((Effect.unlinkEmpty hhandle.arranged l).weaken
      (fun _ => False.elim) fun _ => id)
    refine ⟨heffect.trans hunlink, fun hn => ?_⟩
    exact (hnone hn).unlinkEmpty heffect.arranged.current_nodup rfl fun n hne hnil =>
      (update_of_ne hne ..).symm.trans hnil
  have hsingle := hloop.1.trans (effect_handleUnInstallApp hloop.1.arranged bundleName uid
    .defaultSingleList)
  have hstandard := hsingle.trans (effect_handleUnInstallApp hsingle.arranged bundleName uid
    .defaultStandardList)
  exact .of_effect ha hstandard (fun hn n hlink hnil => hloop.2 hn n hlink hnil) rfl rfl

variable (s)

def orderly (op : Op) : Bool :=
  (s.startCall op).all (fun c => c.state.orderlyStart c.caller c.request c.env) &&
    match op with
    | .moveAbilityToBackground r _ => s.onTop r
    | .onAbilityDied r _ => s.ownDeath r
    | .onTimeOut _ r => s.ownMission r
    | .completeForegroundFailed r _ => s.ownMission r
    | .backToLauncher => s.getLauncherRoot.all fun root => s.ownMission root
    | _ => true

def ends (op : Op) (m : MissionRef) : Bool :=
  match op with
  | .onAbilityDied r _ => m = r
  | .onTimeOut msg r => msg = .load ∧ m = r
  | .uninstallApp bundleName uid => s.matchedInitialMission bundleName uid m
  | .completeTerminate r =>
    (s.records r).currentState = .terminating ∧ (s.records r).preAbilityRecord = some m
  | _ => false

def stepStartBirth (op : Op) : Option Birth :=
  (s.startCall op).bind fun c => c.state.startBirth c.caller c.request c.env

def stepFrontBirth (op : Op) : Option Birth :=
  (s.frontCall op).bind fun c => c.state.frontBirth c.missionId c.info

variable {s}

lemma Made.limit {b : Birth} (h : Made s s' b) : Regroups b.loc b.loc b.checked b.state :=
  .checkLimit h.before.effect.arranged

lemma Made.steady_left {u : MissionListManager} {b : Birth} (h : Made u s' b) (hs : Steady s u)
    (ha : s.lists.Arranged) : Made s s' b :=
  ⟨(Evolves.of_steady hs ha).trans h.before, h.after, h.uid⟩

lemma evolves_startAbilityLocked (ha : s.lists.Arranged) (hn : s.lists.NoneEmpty)
    (top caller : Option MissionRef) {request : AbilityRequest} {env : StartEnv}
    (h : s.orderlyStart caller request env = true) :
    Regroups none none s (s.startAbilityLocked top caller request env).2 ∨
    ∃ b, s.startBirth caller request env = some b ∧
      Made s (s.startAbilityLocked top caller request env).2 b := by
  obtain ⟨hfiled, hthrough⟩ := Bool.and_eq_true_iff.1 h
  rcases startAbilityLocked_cases ha hn top caller env hfiled with ⟨hfail, hlost⟩ | hrest
  · rw [hfail] at hthrough
    refine .inl (hlost.weaken (fun m hm => ?_) fun _ => id)
    rw [hm] at hthrough
    cases hthrough
  · exact hrest

lemma Calls.evolves {op : Op} (h : Calls s op s') (ha : s.lists.Arranged)
    (hn : s.lists.NoneEmpty) (horderly : s.orderly op = true) :
    Regroups none none s s' ∨
      ∃ b, (s.stepStartBirth op = some b ∨ s.stepFrontBirth op = some b) ∧ Made s s' b := by
  cases h with
  | steady hs => exact .inl (.of_steady hs ha)
  | start c top hcall hs hs' =>
    have hstart := (Bool.and_eq_true_iff.1 horderly).1
    rw [hcall] at hstart
    rw [hs']
    rcases evolves_startAbilityLocked (hs.lists ▸ ha) (hs.lists ▸ hn) top c.caller hstart with
      hmoves | ⟨b, hb, hmade⟩
    · exact .inl ((Evolves.of_steady hs ha).trans hmoves)
    · refine .inr ⟨b, .inl ?_, hmade.steady_left hs ha⟩
      unfold stepStartBirth
      rw [hcall]
      exact hb
  | front c hcall hs hs' =>
    rw [hs']
    rcases moveMissionToFrontInner_cases (hs.lists ▸ ha) (hs.lists ▸ hn) c.missionId
      c.isCallerFromLauncher c.info with hmoves | ⟨b, hb, hmade⟩
    · exact .inl ((Evolves.of_steady hs ha).trans hmoves)
    · refine .inr ⟨b, .inr ?_, hmade.steady_left hs ha⟩
      unfold stepFrontBirth
      rw [hcall]
      exact hb

lemma step_cases (ha : s.lists.Arranged) (hn : s.lists.NoneEmpty) {op : Op}
    (horderly : s.orderly op = true) :
    Evolves none none (fun m => s.ends op m = true) (fun _ => False) s (s.step op) ∨
      ∃ b, (s.stepStartBirth op = some b ∨ s.stepFrontBirth op = some b) ∧
        Made s (s.step op) b := by
  have hquiet {s' : MissionListManager}
      (h : Regroups none none s s') :
      Evolves none none (fun m => s.ends op m = true) (fun _ => False) s s' :=
    h.weaken (fun _ => False.elim) fun _ => id
  have hcalls (h : Calls s op (s.step op)) := (h.evolves ha hn horderly).imp_left hquiet
  have hcond := (Bool.and_eq_true_iff.1 horderly).2
  cases op with
  | startAbility request env => exact hcalls (calls_startAbility s request env)
  | startWaitingAbility env => exact hcalls (calls_startWaitingAbility s env)
  | onAcceptWantResponse want flag info env =>
    exact hcalls (calls_onAcceptWantResponse s want flag info env)
  | onStartSpecifiedAbilityTimeoutResponse env => exact hcalls (calls_onTimeoutResponse s env)
  | moveMissionToFront missionId isCallerFromLauncher info =>
    exact hcalls (.front _ rfl (.refl s) rfl)
  | backToCaller caller info => exact hcalls (calls_backToCaller s caller info)
  | moveAbilityToBackground r animaEnabled =>
    exact .inl (hquiet (evolves_moveAbilityToBackground ha hcond animaEnabled))
  | minimizeAbility r fromUser => exact .inl (.of_steady (.minimizeAbility s r fromUser) ha)
  | terminateAbility r flag => exact .inl (hquiet (.terminateAbilityInner ha r flag))
  | clearMission missionId stop => exact .inl (hquiet (evolves_clearMission ha missionId stop))
  | onAbilityDied r isCurrentUser =>
    exact .inl ((evolves_onAbilityDied ha hcond isCurrentUser).weaken
      (fun _ => decide_eq_true) fun _ => id)
  | onTimeOut msg r =>
    exact .inl ((evolves_onTimeOut ha hcond msg).weaken (fun _ => decide_eq_true) fun _ => id)
  | completeForegroundFailed r state =>
    exact .inl (hquiet (evolves_completeForegroundFailed ha hcond state))
  | uninstallApp bundleName uid => exact .inl (evolves_addUninstallTags ha bundleName uid)
  | attachAbilityThread r => exact .inl (.of_steady (.attachAbilityThread s r) ha)
  | onAbilityRequestDone r => exact .inl (.of_steady (.onAbilityRequestDone s r) ha)
  | completeForegroundSuccess r time =>
    exact .inl (.of_steady (.completeForegroundSuccess s r time) ha)
  | completeBackground r => exact .inl (.of_steady (.completeBackground s r) ha)
  | completeTerminate r =>
    exact .inl ((evolves_completeTerminate ha r).weaken (fun _ => decide_eq_true) fun _ => id)
  | signRestartAppFlag bundleName => exact .inl (.of_steady (.signRestartAppFlag s bundleName) ha)
  | backToLauncher => exact .inl (hquiet (evolves_backToLauncher ha hcond))

lemma evolves_step (ha : s.lists.Arranged) (hn : s.lists.NoneEmpty) {op : Op}
    (horderly : s.orderly op = true) :
    Evolves none none (fun m => s.ends op m = true) (fun _ => True) s (s.step op) := by
  rcases step_cases ha hn horderly with h | ⟨b, -, h⟩
  · exact h.weaken_new fun _ => False.elim
  · exact (((h.before.trans h.limit).weaken_new fun _ => False.elim).trans h.after).weaken
      (fun _ => False.elim) fun _ _ => trivial

def ended (m : MissionRef) : MissionListManager → List Op → Bool
  | _, [] => false
  | s, op :: ops =>
    s.ends op m || ((s.step op).records m).isTerminating || ended m (s.step op) ops

def Placed (s : MissionListManager) (m : MissionRef) : Prop :=
  s.lists.allMissions.count m = 1 ∧
    ∃ l ∈ s.lists.allLists, m ∈ s.lists.missions l ∧ s.lists.getMissionList m = some l

lemma mem_allLists {s : MissionLists} : l ∈ s.allLists ↔ s.isAlive l = true := by
  cases l with
  | current n => simp [allLists, isAlive_current]
  | _ => simp [allLists, isAlive]

lemma mem_allMissions {s : MissionLists} : m ∈ s.allMissions ↔ s.Held none m := by
  unfold allMissions Held Reached
  simp [mem_allLists]

lemma nodup_allLists {s : MissionLists} (ha : s.Arranged) : s.allLists.Nodup := by
  refine .append (by decide) (ha.current_nodup.filter _) fun l hl hcur => ?_
  obtain ⟨hin, hne⟩ := mem_filter.1 hcur
  have hkind := ha.current_kind l hin
  simp only [mem_cons, not_mem_nil, or_false] at hl
  rcases hl with rfl | rfl | rfl
  · exact absurd rfl (of_decide_eq_true hne)
  · cases hkind
  · cases hkind

lemma nodup_allMissions {s : MissionLists} (ha : s.Arranged) : s.allMissions.Nodup :=
  ha.filed.nodup_flatMap (nodup_allLists ha)

lemma Placed.of_held (ha : s.lists.Arranged) (h : s.lists.Held none m) : s.Placed m := by
  refine ⟨count_eq_one_of_mem (nodup_allMissions ha) (mem_allMissions.2 h), ?_⟩
  obtain ⟨l, hl, hin⟩ := h
  have halive : s.lists.isAlive l = true := hl.resolve_right nofun
  exact ⟨l, mem_allLists.2 halive, hin, ha.getMissionList_of_mem hin halive⟩

lemma arranged_init : init.lists.Arranged where
  filed := ⟨fun _ => nodup_nil, fun _ _ hm => nomatch hm⟩
  unborn _ _ := rfl
  current_nodup := nodup_singleton _
  current_kind l hl := by
    obtain rfl := mem_singleton.1 hl
    rfl
  unused _ _ := rfl

lemma noneEmpty_init : init.lists.NoneEmpty := fun _ hn => nomatch mem_singleton.1 hn

abbrev Orderly (s : MissionListManager) (ops : List Op) : Prop :=
  Runs.Guarded step (fun s op => s.orderly op = true) s ops

lemma arranged_run {ops : List Op} (h : Orderly s ops) (ha : s.lists.Arranged)
    (hn : s.lists.NoneEmpty) :
    (ops.foldl step s).lists.Arranged ∧ (ops.foldl step s).lists.NoneEmpty :=
  h.invariant (I := fun s => s.lists.Arranged ∧ s.lists.NoneEmpty)
    (fun _ _ hi horderly =>
      have hstep := evolves_step hi.1 hi.2 horderly
      ⟨hstep.effect.arranged, hstep.noneEmpty hi.2⟩) ⟨ha, hn⟩

lemma held_run {ops : List Op} (h : Orderly s ops) (ha : s.lists.Arranged)
    (hn : s.lists.NoneEmpty) (hm : s.lists.Held none m) (hlive : ended m s ops = false) :
    (ops.foldl step s).lists.Held none m := by
  induction ops generalizing s with
  | nil => exact hm
  | cons op ops ih =>
    have hstep := evolves_step ha hn h.1
    simp only [ended, Bool.or_eq_false_iff] at hlive
    obtain ⟨⟨hends, hmark⟩, hrest⟩ := hlive
    refine ih h.2 hstep.effect.arranged (hstep.noneEmpty hn) ?_ hrest
    rcases hstep.effect.kept m hm with hheld | hmarked | hgone
    · exact hheld
    · exact absurd hmarked (by simp [Marked, hmark])
    · exact absurd hgone (by simp [hends])

theorem run_partitioned {ops : List Op} (h : Orderly init ops) :
    (∀ pre post, ops = pre ++ post → ∀ m ∈ (pre.foldl step init).lists.allMissions,
      ended m (pre.foldl step init) post = false → (ops.foldl step init).Placed m) ∧
      (ops.foldl step init).lists.NoneEmpty := by
  obtain ⟨ha, hn⟩ := arranged_run h arranged_init noneEmpty_init
  refine ⟨?_, hn⟩
  rintro pre post rfl m hm hlive
  obtain ⟨hpre, hpost⟩ := (Runs.guarded_append init pre post).1 h
  obtain ⟨hapre, hnpre⟩ := arranged_run hpre arranged_init noneEmpty_init
  refine .of_held ha ?_
  rw [foldl_append]
  exact held_run hpost hapre hnpre (mem_allMissions.1 hm) hlive

def sampleRequest (callerToken : Option MissionRef) (abilityName : String) : AbilityRequest where
  requestCode := -1
  callerToken := callerToken
  uid := 20010001
  bundleName := "com.ohos.notepad"
  abilityName := abilityName
  moduleName := "entry"
  appIndex := 0
  launchMode := .standard
  isLauncherApp := false
  excludeFromMissions := false
  unclearableMission := false
  startRecent := false
  specifiedFlag := ""
  backToOtherMissionStack := false

def foregroundOps (r : MissionRef) (callerToken : Option MissionRef) (abilityName : String) :
    List Op :=
  [.startAbility (sampleRequest callerToken abilityName) ⟨some r, "1", none⟩,
    .attachAbilityThread r, .onAbilityRequestDone r, .completeForegroundSuccess r "2"]

def mainEditOps : List Op := foregroundOps 0 none "Main" ++ foregroundOps 1 (some 0) "Edit"

def mainEditOrderly : List Op :=
  [.moveAbilityToBackground 1 true, .completeBackground 1, .moveMissionToFront 1 false none,
    .terminateAbility 0 true]

theorem mainEdit_partitioned : Orderly init (mainEditOps ++ mainEditOrderly) ∧
      1 ∈ (mainEditOps.foldl step init).lists.allMissions ∧
      ended 1 (mainEditOps.foldl step init) mainEditOrderly = false ∧
      ((mainEditOps ++ mainEditOrderly).foldl step init).Placed 1 := by
  have horderly : Orderly init (mainEditOps ++ mainEditOrderly) := by decide +kernel
  have hin : 1 ∈ (mainEditOps.foldl step init).lists.allMissions := by decide +kernel
  have hlive : ended 1 (mainEditOps.foldl step init) mainEditOrderly = false := by decide +kernel
  exact ⟨horderly, hin, hlive,
    (run_partitioned horderly).1 mainEditOps mainEditOrderly rfl 1 hin hlive⟩

def mainBehindOps : List Op := [.moveAbilityToBackground 0 true]

theorem background_below_top : 0 ∈ (mainEditOps.foldl step init).lists.allMissions ∧
      ended 0 (mainEditOps.foldl step init) mainBehindOps = false ∧
      ((mainEditOps ++ mainBehindOps).foldl step init).lists.allMissions.count 0 = 0 ∧
      ((mainEditOps ++ mainBehindOps).foldl step init).lists.allMissions.count 1 = 2 := by
  decide +kernel

def KeepsMissions (s s' : MissionListManager) : Prop :=
  ∀ l ∈ s.lists.allLists, l ∈ s'.lists.allLists ∧ s'.lists.missions l = s.lists.missions l

section
variable {caller : Option MissionRef} {request : AbilityRequest} {env : StartEnv}

/-- The mission of the caller is held by a default list, which loses it. The second case cannot come
about: the list that is made for the mission is a new one. -/
def movesCaller (s : MissionListManager) (caller : Option MissionRef) (request : AbilityRequest) :
    Prop :=
  ∃ m l, s.defaultCaller caller request = some m ∧ s.lists.getMissionList m = some l ∧
    (m ∈ s.lists.missions l ∨ .current s.lists.nextList ∈ s.lists.allLists ∧
      (s.lists.missions (.current s.lists.nextList)).head? ≠ some m)

lemma keepsMissions_move_iff {s' : MissionListManager} (hd : l.isDefault = true)
    (hs' : s'.lists = (s.lists.makeMissionList.2.removeMission l m).addMissionToTop
      (.current s.lists.nextList) m) :
    KeepsMissions s s' ↔ ¬ (m ∈ s.lists.missions l ∨ .current s.lists.nextList ∈ s.lists.allLists ∧
      (s.lists.missions (.current s.lists.nextList)).head? ≠ some m) := by
  have hne := current_ne_of_isDefault hd s.lists.nextList
  have hnew : s'.lists.missions (.current s.lists.nextList) =
      s.lists.missions (.current s.lists.nextList) ↔
      (s.lists.missions (.current s.lists.nextList)).head? = some m := by
    have hiff := Shelves.content_pushTop_self_iff (s := s.lists.shelves.take l m)
      (l := .current s.lists.nextList) (m := m)
    rw [Shelves.content_take_of_ne hne] at hiff
    rw [hs']
    exact hiff
  have hrest (k : ListRef) (hk : k ≠ .current s.lists.nextList) :
      s'.lists.missions k = (s.lists.shelves.take l m).content k := by
    rw [hs']
    exact Shelves.content_pushTop_of_ne hk
  have hold : s'.lists.missions l = s.lists.missions l ↔ m ∉ s.lists.missions l := by
    rw [hrest l hne.symm, Shelves.content_take_self]
    exact erase_eq_self_iff
  have hlists : s'.lists.allLists = s.lists.allLists := by rw [hs']; rfl
  rw [not_or, not_and, not_not, ← hold, ← hnew, KeepsMissions, hlists]
  constructor
  · exact fun h => ⟨(h l (mem_allLists.2 (isAlive_of_isDefault hd))).2, fun hin => (h _ hin).2⟩
  · rintro ⟨hl, hn⟩ k hk
    refine ⟨hk, ?_⟩
    by_cases hkn : k = .current s.lists.nextList
    · exact hkn ▸ hn (hkn ▸ hk)
    · by_cases hkl : k = l
      · exact hkl ▸ hl
      · rw [hrest k hkn, Shelves.content_take_of_ne hkl]
        rfl

lemma keepsMissions_getTargetMissionList_iff :
    KeepsMissions s (s.getTargetMissionList caller request).2 ↔ ¬ s.movesCaller caller request := by
  -- a list that is only made changes none of the others
  have hstay {s' : MissionListManager} (hs' : KeepsMissions s s')
      (hcaller : s.defaultCaller caller request = none) :
      KeepsMissions s s' ↔ ¬ s.movesCaller caller request :=
    iff_of_true hs' fun ⟨_, _, hm, _⟩ => nomatch hcaller.symm.trans hm
  have hsame : KeepsMissions s s := fun l hl => ⟨hl, rfl⟩
  unfold getTargetMissionList
  split
  next hlauncher => exact hstay hsame (if_pos hlauncher)
  next hlauncher =>
    split
    · exact hstay hsame (if_neg hlauncher)
    next c =>
      split
      next hc =>
        refine hstay ?_ (by simp [defaultCaller, hc, Option.filter])
        dsimp only
        unfold getTargetMissionListByLauncher
        split
        · split <;> exact hsame
        · exact hsame
      next hc =>
        unfold getTargetMissionListByDefault
        split
        next hmission => exact hstay hsame (by simp [defaultCaller, hc, hmission, Option.filter])
        next mission hmission =>
          split
          next hl => exact hstay hsame (by simp [defaultCaller, hc, hmission, hl, Option.filter])
          next l hl =>
            split
            next hd =>
              have hcaller : s.defaultCaller (some c) request = some mission := by
                simp [defaultCaller, hlauncher, hc, hmission, hl, hd, Option.filter]
              rw [keepsMissions_move_iff hd rfl, movesCaller]
              simp [hcaller, hl]
            next hd =>
              exact hstay hsame (by simp [defaultCaller, hc, hmission, hl, hd, Option.filter])

lemma lists_getTargetMission (h : (s.getTargetMission request env).1 ≠ .getTargetMissionOver) :
    (s.getTargetMission request env).2.2.lists = s.lists := by
  unfold getTargetMission getTargetMissionAndAbility at h ⊢
  cases hm : s.getReusedMission request with
  | some m =>
    dsimp only
    split_ifs <;> rfl
  | none =>
    cases hid : env.missionInfoId with
    | none => rfl
    | some missionId =>
      rw [hm, hid, checkLimit_eq s] at h
      exact absurd (by simp [makeMission, modify]) h

variable (s)

lemma lists_startAbilityLocked (top : Option MissionRef)
    (hthrough : s.startsThrough caller request env = false) :
    (s.startAbilityLocked top caller request env).2.lists =
      (s.getTargetMissionList caller request).2.lists := by
  unfold startsThrough at hthrough
  unfold startAbilityLocked
  rcases htarget : s.getTargetMissionList caller request with ⟨_ | t, s₁⟩
  · rfl
  · rw [htarget] at hthrough
    have hlists := lists_getTargetMission (of_decide_eq_false hthrough)
    dsimp only at hthrough ⊢
    split
    next hget =>
      rw [hget] at hthrough
      cases hthrough
    next hget =>
      rw [hget] at hlists
      exact hlists

theorem startAbilityLocked_keepsMissions_iff (top : Option MissionRef)
    (hthrough : s.startsThrough caller request env = false) :
    KeepsMissions s (s.startAbilityLocked top caller request env).2 ↔
      ¬ s.movesCaller caller request := by
  rw [← keepsMissions_getTargetMissionList_iff]
  unfold KeepsMissions
  rw [lists_startAbilityLocked s top hthrough]

end

def viewLoading : MissionListManager :=
  (foregroundOps 0 none "Main" ++ [Op.moveAbilityToBackground 0 true,
    .startAbility (sampleRequest none "View") ⟨some 1, "3", none⟩]).foldl step init

def viewRequest (callerToken : Option MissionRef) : AbilityRequest :=
  { sampleRequest callerToken "View" with startRecent := true }

theorem viewLoading_keepsMissions : KeepsMissions viewLoading
    (viewLoading.startAbilityLocked none none (viewRequest none) ⟨none, "4", none⟩).2 := by
  rw [startAbilityLocked_keepsMissions_iff viewLoading none (by decide +kernel)]
  rintro ⟨m, l, hm, -⟩
  cases hm

theorem viewLoading_loses_caller :
    viewLoading.startsThrough (some 0) (viewRequest (some 0)) ⟨none, "4", none⟩ = false ∧
      viewLoading.isReachToLimitLocked = false ∧
      0 ∈ viewLoading.lists.missions .defaultStandardList ∧
      0 ∉ (viewLoading.startAbility (viewRequest (some 0))
        ⟨none, "4", none⟩).2.lists.allMissions := by
  decide +kernel

end AbilityRuntime.MissionListManager
