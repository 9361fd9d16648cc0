import AbilityRuntime.AbilityMgr.HeldSessions

/-! Which record a specified ability's reuse ends at. -/

namespace AbilityRuntime.SceneBoard
open UIAbilityRecord

namespace SessionAbilities
open List
variable {s t : SessionAbilities} {r : ℕ} {call : StartCall} {info : SpecifiedInfo}

structure Filed (s : SessionAbilities) : Prop where
  filed : ∀ r, s.IsHeld r → (s.record r).specifiedFlag ≠ "" →
    (s.specifiedKey r, r) ∈ s.specifiedAbilityMap
  alone : ∀ r, s.IsHeld r → (s.record r).specifiedFlag ≠ "" →
    ∀ p ∈ s.specifiedAbilityMap, p.1 = s.specifiedKey r → p.2 = r

lemma filed_init : Filed {} where
  filed := by
    rintro r ⟨persistentId, h⟩
    cases h
  alone := nofun

lemma specifiedKey_eq {j : ℕ} (h : (t.record j).identity = (s.record j).identity) :
    t.specifiedKey j = s.specifiedKey j ∧
      (t.record j).specifiedFlag = (s.record j).specifiedFlag := by
  have hinfo : (t.record j).abilityInfo = (s.record j).abilityInfo := congrArg (·.1) h
  have hflag : (t.record j).specifiedFlag = (s.record j).specifiedFlag := congrArg (·.2.2.2) h
  unfold specifiedKey
  rw [hinfo, hflag]
  exact ⟨rfl, rfl⟩

lemma Filed.evolves (h : Filed s) (he : Evolves r s t) : Filed t where
  filed := by
    intro j hheld hflag
    obtain ⟨hkey, hsame⟩ := specifiedKey_eq (he.identity j)
    rw [hkey]
    exact he.kept _ (h.filed j (he.isHeld hheld) (hsame ▸ hflag)) hheld
  alone := by
    intro j hheld hflag p hp hpkey
    obtain ⟨hkey, hsame⟩ := specifiedKey_eq (he.identity j)
    exact h.alone j (he.isHeld hheld) (hsame ▸ hflag) p (he.specified p hp) (hpkey.trans hkey)

lemma Filed.startUIAbility (h : Filed s) (hheld : Held s) (call : StartCall)
    (persistentId : ℤ) : Filed (s.startUIAbility call persistentId).1 := by
  rcases startUIAbility_cases s call persistentId with ⟨r, -, hs⟩ | ⟨hnew, hs⟩ | hs
  · rw [hs]
    exact h.evolves (evolves_of_works (works_renewed call))
  · rw [hs]
    generalize hmade : (createAbilityRecord call.request persistentId).start call.isLoaded = made
    have hflagless : made.specifiedFlag = "" := by
      rw [← hmade]
      exact congrArg (·.2.2.2) (works_start (createAbilityRecord _ persistentId) _).identity
    generalize ht : { s with
      records := s.records ++ [made]
      sessionAbilityMap := s.sessionAbilityMap.emplace persistentId s.records.length } = t
    have hspecified : t.specifiedAbilityMap = s.specifiedAbilityMap := by rw [← ht]
    -- a record with a flag is an old one
    have hold : ∀ j, t.IsHeld j → (t.record j).specifiedFlag ≠ "" →
        s.IsHeld j ∧ t.record j = s.record j := by
      rintro j ⟨id, hfind⟩ hflag
      subst ht
      rcases (SortedMap.find?_emplace_eq_some hnew).1 hfind with ⟨-, rfl⟩ | hfind
      · exact absurd ((congrArg specifiedFlag (by simp [record])).trans hflagless) hflag
      · exact ⟨⟨id, hfind⟩, getD_append s.records [made] {} j (hheld.known id j hfind)⟩
    have hkey : ∀ j, t.record j = s.record j → t.specifiedKey j = s.specifiedKey j := by
      intro j hrecord
      unfold specifiedKey
      rw [hrecord]
    constructor
    · intro j hj hflag
      obtain ⟨hjs, hrecord⟩ := hold j hj hflag
      rw [hspecified, hkey j hrecord]
      exact h.filed j hjs (hrecord ▸ hflag)
    · intro j hj hflag p hp hpkey
      obtain ⟨hjs, hrecord⟩ := hold j hj hflag
      rw [hspecified] at hp
      exact h.alone j hjs (hrecord ▸ hflag) p hp (hpkey.trans (hkey j hrecord))
  · rw [hs]
    exact h

def isFree (s : SessionAbilities) (info : SpecifiedInfo) (r : ℕ) : Bool :=
  info.abilityName = (s.record r).abilityInfo.name ∧
    info.bundleName = (s.record r).abilityInfo.bundleName ∧
    s.specifiedAbilityMap.all fun p => p.1 ≠ info ∨ p.2 = r

lemma mem_setSpecified {p : SpecifiedInfo × ℕ} :
    p ∈ (s.setSpecified call info r).specifiedAbilityMap →
      p ∈ s.specifiedAbilityMap ∨ p = (info, r) := by
  intro hp
  unfold setSpecified at hp
  split at hp
  · exact .inl hp
  · exact (mem_insertIdx (Nat.min_le_right _ _)).mp hp |>.symm

lemma mem_setSpecified_of_mem {p : SpecifiedInfo × ℕ} (hp : p ∈ s.specifiedAbilityMap) :
    p ∈ (s.setSpecified call info r).specifiedAbilityMap := by
  unfold setSpecified
  split
  · exact hp
  · exact (mem_insertIdx (Nat.min_le_right _ _)).mpr (.inr hp)

lemma Filed.setSpecified (h : Filed s) (hheld : Held s) (call : StartCall)
    (hfree : s.isFree info r = true) : Filed (s.setSpecified call info r) := by
  obtain ⟨hname, hbundle, hall⟩ := of_decide_eq_true hfree
  have hown : ∀ p ∈ s.specifiedAbilityMap, p.1 = info → p.2 = r := by
    intro p hp hpinfo
    have hp' := of_decide_eq_true (all_eq_true.mp hall p hp)
    exact hp'.resolve_left fun hne => hne hpinfo
  have hself : (s.setSpecified call info r).IsHeld r →
      (s.setSpecified call info r).specifiedKey r = info := by
    rintro ⟨persistentId, hfind⟩
    have hrecord : (s.setSpecified call info r).record r =
        { s.record r with specifiedFlag := info.flag } :=
      record_modifyRecord_self (hheld.known persistentId r hfind)
    unfold specifiedKey
    rw [hrecord, ← hname, ← hbundle]
  have hothers : ∀ j, j ≠ r → (s.setSpecified call info r).record j = s.record j :=
    fun j hj => record_modifyRecord_of_ne hj
  have hkey : ∀ j, j ≠ r → (s.setSpecified call info r).specifiedKey j = s.specifiedKey j := by
    intro j hj
    unfold specifiedKey
    rw [hothers j hj]
  constructor
  · intro j hj hflag
    by_cases hjr : j = r
    · subst hjr
      rw [hself hj]
      unfold setSpecified
      split_ifs with hmet
      · obtain ⟨p, hp, hpinfo⟩ := any_eq_true.mp hmet.2
        have hpinfo := of_decide_eq_true hpinfo
        rw [← hpinfo, ← hown p hp hpinfo]
        exact hp
      · exact (mem_insertIdx (Nat.min_le_right _ _)).mpr (.inl rfl)
    · rw [hothers j hjr] at hflag
      rw [hkey j hjr]
      exact mem_setSpecified_of_mem (h.filed j hj hflag)
  · intro j hj hflag p hp hpkey
    by_cases hjr : j = r
    · subst hjr
      rw [hself hj] at hpkey
      rcases mem_setSpecified hp with hin | rfl
      · exact hown p hin hpkey
      · rfl
    · rw [hothers j hjr] at hflag
      rw [hkey j hjr] at hpkey
      rcases mem_setSpecified hp with hin | rfl
      · exact h.alone j hj hflag p hin hpkey
      · -- the record `j` would stand under the entry that is free for `r`
        exact absurd (hown _ (h.filed j hj hflag) hpkey.symm) hjr

lemma getReusedSpecifiedPersistentId_spec {request : AbilityRequest} {pick : ℕ}
    (h : s.getReusedSpecifiedPersistentId request pick ≠ 0) :
    ∃ j, s.sessionAbilityMap.find? (s.getReusedSpecifiedPersistentId request pick) = some j ∧
      (s.record j).specifiedFlag = request.specifiedFlag ∧
      s.checkProperties j request .specified = true := by
  unfold getReusedSpecifiedPersistentId at h ⊢
  split_ifs at h with hmode
  · exact absurd rfl h
  · rw [if_neg hmode]
    dsimp only at h ⊢
    generalize hfitting : (s.sessionAbilityMap.entries.filter fun p =>
      (s.record p.2).specifiedFlag = request.specifiedFlag ∧
        s.checkProperties p.2 request .specified) = fitting at h ⊢
    cases hpick : fitting[pick % fitting.length]? with
    | none => simp [hpick] at h
    | some p =>
      have hmem := mem_of_getElem? hpick
      rw [← hfitting] at hmem
      obtain ⟨hentry, hfits⟩ := mem_filter.mp hmem
      obtain ⟨hflag, hproperties⟩ := of_decide_eq_true hfits
      exact ⟨p.2, SortedMap.mem_entries.mp hentry, hflag, hproperties⟩

lemma getReusedSpecifiedAbility_spec {want : Want} {flag : String}
    (h : s.getReusedSpecifiedAbility want flag = some r) :
    (⟨want.abilityName, want.bundleName, flag⟩, r) ∈ s.specifiedAbilityMap := by
  obtain ⟨p, hp, rfl⟩ := Option.map_eq_some_iff.mp h
  have hfits := find?_some hp
  obtain ⟨hflag, hname, hbundle⟩ := of_decide_eq_true hfits
  rw [hflag, hname, hbundle]
  exact mem_of_find?_eq_some hp

end SessionAbilities

open SessionAbilities

namespace UIAbilityLifecycleManager
variable {m : UIAbilityLifecycleManager} {want : Want} {flag : String} {requestId pick : ℕ}

def IsInstance (a : UIAbilityRecord) (request : AbilityRequest) (flag : String) : Prop :=
  a.abilityInfo.bundleName = request.abilityInfo.bundleName ∧
    a.abilityInfo.moduleName = request.abilityInfo.moduleName ∧
    a.abilityInfo.name = request.abilityInfo.name ∧
    a.appIndex = request.want.appIndex ∧ a.specifiedFlag = flag

def Fronts (m n : UIAbilityLifecycleManager) (request : AbilityRequest) (persistentId : ℤ)
    (r : ℕ) : Prop :=
  (n.sessions.record r).want = (m.sessions.record r).setWant request.want ∧
    (∀ j, j ≠ r → n.sessions.record j = m.sessions.record j) ∧
    (m.canSend request.callerToken = true →
      n.activations = m.activations ++ [⟨m.issued, persistentId, false⟩])

variable (m)

def ReusesHeld (want : Want) (flag : String)
    (requestId pick : ℕ) : Prop :=
  ∀ request r, m.specifiedRequestMap.find? requestId = some request →
    m.reusedAbility want request flag pick = some r →
    m.sessions.sessionAbilityMap.find? (m.reusedPersistentId request flag pick) = some r ∧
      IsInstance (m.sessions.record r) request flag ∧
      Fronts m (m.onAcceptWantResponse want flag requestId pick) request
        (m.reusedPersistentId request flag pick) r

def namesOwn : Op → Bool
  | .startUIAbility call =>
    m.activations.head?.all fun a =>
      let started := m.sessions.startUIAbility call (sessionFor a call)
      m.specifiedInfoQueue.head?.all fun entry =>
        !call.isValidSession || call.request.abilityInfo.launchMode ≠ .specified ||
          started.2.all fun r => started.1.isFree entry.info r
  | .onAcceptWantResponse want _ requestId _ =>
    (m.specifiedRequestMap.find? requestId).all fun request =>
      want.abilityName = request.abilityInfo.name ∧
        want.bundleName = request.abilityInfo.bundleName
  | _ => true

variable {m}

lemma filed_step (hheld : m.sessions.Held) (h : m.sessions.Filed) (op : Op)
    (hok : m.namesOwn op = true) : (m.step op).sessions.Filed := by
  have hmoves := moves_step m op
  generalize (m.step op).sessions = t at hmoves ⊢
  cases hmoves with
  | same => exact h
  | reused r want => exact h.evolves (evolves_setWant _ r want)
  | started _ _ => exact h.startUIAbility hheld _ _
  | @specified call a rest entry entries r hactivations hvalid hqueue hstarted hmode =>
    have hfree : (m.sessions.startUIAbility call (sessionFor a call)).1.isFree
        entry.info r = true := by
      simpa [namesOwn, hactivations, hqueue, hvalid, hmode, hstarted] using hok
    have hfiled := h.startUIAbility hheld call (sessionFor a call)
    exact hfiled.setSpecified (hheld.startUIAbility call _) call hfree
  | minimized r =>
    exact h.evolves (evolves_of_works works_minimizeUIAbility)
  | closed r isClearSession => exact h.evolves (hheld.closeUIAbility r isClearSession)
  | died r => exact h.evolves (evolves_modifyRecord _ r tame_onProcessDied)
  | happened r k reply => exact h.evolves (hheld.happen r k reply)

lemma answerRequest_reused {request : AbilityRequest} {r : ℕ}
    (hmode : request.abilityInfo.launchMode = .specified)
    (hpersistent : m.reusedPersistentId request flag pick ≠ 0)
    (hr : m.reusedAbility want request flag pick = some r) :
    m.answerRequest want request flag pick =
      { m with sessions := m.sessions.setWant r request.want }.moveAbilityToFront request r := by
  unfold answerRequest
  rw [if_neg (not_not_intro hmode), if_neg hpersistent, hr]

lemma fronts_onAcceptWantResponse {request : AbilityRequest} {r : ℕ}
    (hrequest : m.specifiedRequestMap.find? requestId = some request)
    (hmode : request.abilityInfo.launchMode = .specified)
    (hr : m.reusedAbility want request flag pick = some r)
    (hknown : r < m.sessions.records.length) :
    Fronts m (m.onAcceptWantResponse want flag requestId pick) request
      (m.sessions.record r).persistentId r := by
  have hpersistent : m.reusedPersistentId request flag pick ≠ 0 := by
    intro hzero
    unfold reusedAbility at hr
    rw [if_pos hzero] at hr
    cases hr
  have hself : (m.sessions.setWant r request.want).record r =
      { m.sessions.record r with
        want := (m.sessions.record r).setWant request.want, isNewWant := true } :=
    record_modifyRecord_self hknown
  have hsame : m.onAcceptWantResponse want flag requestId pick =
      { m with
        specifiedRequestMap := m.specifiedRequestMap.erase requestId
        sessions := m.sessions.setWant r request.want }.moveAbilityToFront request r := by
    unfold onAcceptWantResponse
    rw [hrequest]
    exact answerRequest_reused hmode hpersistent hr
  have hsessions : (m.onAcceptWantResponse want flag requestId pick).sessions =
      m.sessions.setWant r request.want := by
    rw [hsame]
    exact sessions_sendSessionInfoToSCB _ _ _
  refine ⟨?_, ?_, ?_⟩
  · rw [hsessions, hself]
  · intro j hj
    rw [hsessions]
    exact record_modifyRecord_of_ne hj
  · intro hsend
    rw [hsame]
    unfold moveAbilityToFront sendSessionInfoToSCB
    rw [if_pos (by exact hsend)]
    rw [hself]

lemma reusesHeld (hheld : m.sessions.Held) (h : m.sessions.Filed)
    (hok : m.namesOwn (.onAcceptWantResponse want flag requestId pick) = true) :
    ReusesHeld m want flag requestId pick := by
  intro request r hrequest hr
  simp only [namesOwn, hrequest] at hok
  obtain ⟨hwantName, hwantBundle⟩ := of_decide_eq_true hok
  have hspecified : m.sessions.getReusedSpecifiedAbility want flag = some r ∧
      m.reusedPersistentId request flag pick ≠ 0 := by
    unfold reusedAbility at hr
    split at hr
    · cases hr
    · exact ⟨hr, ‹_›⟩
  have hflag : flag ≠ "" := by
    intro hempty
    exact hspecified.2 (if_pos hempty)
  have hpersistent : m.reusedPersistentId request flag pick =
      m.sessions.getReusedSpecifiedPersistentId { request with specifiedFlag := flag } pick := by
    unfold reusedPersistentId flagged
    rw [if_neg hflag, if_neg hflag]
  rw [hpersistent] at hspecified
  obtain ⟨j, hj, hjflag, hproperties⟩ := getReusedSpecifiedPersistentId_spec hspecified.2
  obtain ⟨hmode, hname, hbundle, hmodule, hindex⟩ := of_decide_eq_true hproperties
  -- the entry found by name, bundle and flag is the one of the record of the session
  have hkey : ⟨want.abilityName, want.bundleName, flag⟩ =
      m.sessions.specifiedKey j := by
    unfold specifiedKey
    rw [hwantName, hwantBundle, ← hname, ← hbundle, hjflag]
  have hentry := getReusedSpecifiedAbility_spec hspecified.1
  have hrj : r = j := h.alone j ⟨_, hj⟩ (hjflag ▸ hflag) _ hentry hkey
  subst hrj
  have hrequestMode : request.abilityInfo.launchMode = .specified := by
    by_contra hother
    apply hspecified.2
    exact if_pos hother
  refine ⟨?_, ⟨hbundle.symm, hmodule.symm, hname.symm, hindex.symm, hjflag⟩, ?_⟩
  · rw [hpersistent]
    exact hj
  · rw [hpersistent, ← hheld.session _ r hj]
    exact fronts_onAcceptWantResponse hrequest hrequestMode hr (hheld.known _ r hj)

theorem run_reusesHeld (ops : List Op) (want : Want) (flag : String) (requestId pick : ℕ)
    (h : Runs.Guarded step (fun m op => m.namesOwn op = true) {}
      (ops ++ [.onAcceptWantResponse want flag requestId pick])) :
    ReusesHeld (run ops) want flag requestId pick := by
  obtain ⟨hops, hlast⟩ := (Runs.guarded_append _ _ _).mp h
  have hfiled : (run ops).sessions.Held ∧ (run ops).sessions.Filed :=
    hops.invariant (I := fun m => m.sessions.Held ∧ m.sessions.Filed)
      (fun _ op hm hok => ⟨held_step hm.1 op, filed_step hm.1 hm.2 op hok⟩)
      ⟨held_init, filed_init⟩
  exact reusesHeld hfiled.1 hfiled.2 hlast.1

def openDocument : List Op :=
  .setRootSceneSession :: specifiedStart editor "a" 0 ++
    [.startUIAbility { request := editor, newPersistentId := 1 },
      .notifySCBToStartUIAbility editor 0]

theorem openDocument_reusesHeld : Runs.Guarded step (fun m op => m.namesOwn op = true) {}
        (openDocument ++ [.onAcceptWantResponse editor.want "a" 1 0]) ∧
      (run openDocument).reusedAbility editor.want editor "a" 0 = some 0 ∧
      ReusesHeld (run openDocument) editor.want "a" 1 0 := by
  have hguarded : Runs.Guarded step (fun m op => m.namesOwn op = true) {}
      (openDocument ++ [.onAcceptWantResponse editor.want "a" 1 0]) := by
    decide +kernel
  exact ⟨hguarded, by decide +kernel, run_reusesHeld openDocument editor.want "a" 1 0 hguarded⟩

def editorClone : AbilityRequest := { editor with want := { editor.want with appIndex := 1 } }

def twoClones : List Op :=
  .setRootSceneSession :: specifiedStart editor "a" 0 ++
    [.startUIAbility { request := editor, newPersistentId := 1 }] ++
    specifiedStart editorClone "a" 1 ++
    [.startUIAbility { request := editorClone, newPersistentId := 2 },
      .notifySCBToStartUIAbility editorClone 0]

theorem twoClones_reuses_other : (run twoClones).reusedPersistentId editorClone "a" 0 = 2 ∧
      (run twoClones).sessions.sessionAbilityMap.find? 2 = some 1 ∧
      (run twoClones).reusedAbility editorClone.want editorClone "a" 0 = some 0 ∧
      ((run twoClones).sessions.record 0).appIndex = 0 ∧
      ¬ ReusesHeld (run twoClones) editorClone.want "a" 2 0 := by
  refine ⟨by decide +kernel, by decide +kernel, by decide +kernel, by decide +kernel, ?_⟩
  intro hreuses
  have hsession := (hreuses editorClone 0 (by decide +kernel) (by decide +kernel)).1
  revert hsession
  decide +kernel

end UIAbilityLifecycleManager

end AbilityRuntime.SceneBoard
