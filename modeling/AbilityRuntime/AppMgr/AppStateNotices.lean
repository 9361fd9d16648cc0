import AbilityRuntime.Library.ChangeLog
import AbilityRuntime.AppMgr.AppRunningRecord

/-! The running records of all processes, and what is told about an application when a process comes
to the foreground or leaves it. An application is a bundle name with a uid; the manager compares
bundle names alone. -/

namespace AbilityRuntime.AppMgr
open AppRunningRecord List SortedMap

structure AppStateData where
  bundleName : String
  uid : ℤ
  state : ApplicationState

structure AppMgrServiceInner where
  appRunningRecordMap : SortedMap ℤ AppRunningRecord
  notified : List AppStateData

inductive ProcessOp
  | launchApplication (recordId : ℤ) (bundleName : String) (uid : ℤ)
      (extensionType : ExtensionAbilityType) (pid : ℤ)
  | applicationForegrounded (recordId : ℤ)
  | applicationBackgrounded (recordId : ℤ)
  | onRemoteDied (recordId : ℤ)

namespace AppRunningRecord

def isForegroundApplication (r : AppRunningRecord) : Bool :=
  r.isApplication && r.curState = .foreground

def application (r : AppRunningRecord) : String × ℤ := (r.mainBundleName, r.mainUid)

end AppRunningRecord

namespace AppMgrServiceInner

def init : AppMgrServiceInner := ⟨.empty, []⟩

variable (s : AppMgrServiceInner)

def isApplicationFirstForeground (recordId : ℤ)
    (foregroundingRecord : AppRunningRecord) : Bool :=
  foregroundingRecord.isApplication && s.appRunningRecordMap.entries.all fun e =>
    !(e.2.mainBundleName = foregroundingRecord.mainBundleName && e.2.isForegroundApplication &&
      e.1 ≠ recordId)

def isApplicationBackground (bundleName : String) : Bool :=
  s.appRunningRecordMap.entries.all fun e =>
    !(e.2.isForegroundApplication && e.2.mainBundleName = bundleName)

def onAppStateChanged (appRecord : AppRunningRecord)
    (state : ApplicationState) (needNotifyApp : Bool) : AppMgrServiceInner :=
  if needNotifyApp then
    { s with notified := s.notified ++ [⟨appRecord.mainBundleName, appRecord.mainUid, state⟩] }
  else s

/-- The scan of the records reads nothing that the rest of the answer changes, so that
the record is stored with all its changes first. -/
def applicationForegrounded (s : AppMgrServiceInner) (recordId : ℤ) : AppMgrServiceInner :=
  match s.appRunningRecordMap.find? recordId with
  | none => s
  | some r =>
    let s := { s with
      appRunningRecordMap := s.appRunningRecordMap.modify recordId (·.applicationForegrounded) }
    if r.curState = .ready ∨ r.curState = .background then
      s.onAppStateChanged r .foreground (s.isApplicationFirstForeground recordId r)
    else s

def applicationBackgrounded (s : AppMgrServiceInner) (recordId : ℤ) : AppMgrServiceInner :=
  match s.appRunningRecordMap.find? recordId with
  | none => s
  | some r =>
    let s := { s with
      appRunningRecordMap := s.appRunningRecordMap.modify recordId (·.applicationBackgrounded) }
    if r.curState = .foreground then
      s.onAppStateChanged r .background
        (r.isApplication && s.isApplicationBackground r.mainBundleName)
    else s

/-- The record is taken out of the map; the app-level notification is not among what
`ClearAppRunningData` sends. -/
def onRemoteDied (recordId : ℤ) : AppMgrServiceInner :=
  { s with appRunningRecordMap := s.appRunningRecordMap.erase recordId }

def step : ProcessOp → AppMgrServiceInner
  | .launchApplication recordId bundleName uid extensionType pid =>
    let r := launched bundleName uid extensionType pid
    { s with appRunningRecordMap := s.appRunningRecordMap.emplace recordId r }
  | .applicationForegrounded recordId => s.applicationForegrounded recordId
  | .applicationBackgrounded recordId => s.applicationBackgrounded recordId
  | .onRemoteDied recordId => s.onRemoteDied recordId

def toldAbout (app : String × ℤ) (notified : List AppStateData) : List Bool :=
  (notified.filter fun d => (d.bundleName, d.uid) = app).map fun d => d.state = .foreground

def IsForeground (app : String × ℤ) : Prop :=
  ∃ recordId r, s.appRunningRecordMap.find? recordId = some r ∧
    r.isForegroundApplication = true ∧ r.application = app

def Informed : Prop :=
  ∀ app, Follows (toldAbout app s.notified) (s.IsForeground app)

def hasOther (recordId : ℤ) (p : AppRunningRecord → Bool) : Bool :=
  s.appRunningRecordMap.entries.any fun e =>
    e.1 ≠ recordId && e.2.isForegroundApplication && p e.2

def isSeen (recordId : ℤ) (r : AppRunningRecord) : Bool :=
  s.hasOther recordId (·.application = r.application) ||
    !s.hasOther recordId (·.mainBundleName = r.mainBundleName)

def fits : ProcessOp → Bool
  | .launchApplication .. => true
  | .applicationForegrounded recordId =>
    match s.appRunningRecordMap.find? recordId with
    | none => true
    | some r => !(r.isApplication && (r.curState = .ready || r.curState = .background)) ||
        s.isSeen recordId r
  | .applicationBackgrounded recordId =>
    match s.appRunningRecordMap.find? recordId with
    | none => true
    | some r => !r.isForegroundApplication || s.isSeen recordId r
  | .onRemoteDied recordId =>
    match s.appRunningRecordMap.find? recordId with
    | none => true
    | some r => !r.isForegroundApplication ||
        s.hasOther recordId (·.application = r.application)

variable {s : AppMgrServiceInner} {recordId : ℤ}

lemma hasOther_iff {p : AppRunningRecord → Bool} :
    s.hasOther recordId p = true ↔ ∃ id r, id ≠ recordId ∧
      s.appRunningRecordMap.find? id = some r ∧ r.isForegroundApplication = true ∧ p r = true := by
  rw [hasOther, any_eq_true]
  constructor
  · rintro ⟨⟨id, r⟩, hmem, h⟩
    simp only [Bool.and_eq_true, decide_eq_true_eq] at h
    exact ⟨id, r, h.1.1, mem_entries.mp hmem, h.1.2, h.2⟩
  · rintro ⟨id, r, hne, hfind, hfg, hp⟩
    exact ⟨(id, r), mem_entries.mpr hfind, by simp [hne, hfg, hp]⟩

variable {r : AppRunningRecord}

lemma isForeground_iff (h : s.appRunningRecordMap.find? recordId = some r) (app : String × ℤ) :
    s.IsForeground app ↔ s.hasOther recordId (·.application = app) = true ∨
      (r.isForegroundApplication = true ∧ r.application = app) := by
  rw [hasOther_iff]
  constructor
  · rintro ⟨id, r', hfind, hfg, happ⟩
    rcases eq_or_ne id recordId with rfl | hne
    · cases h.symm.trans hfind
      exact .inr ⟨hfg, happ⟩
    · exact .inl ⟨id, r', hne, hfind, hfg, decide_eq_true happ⟩
  · rintro (⟨id, r', -, hfind, hfg, happ⟩ | ⟨hfg, happ⟩)
    · exact ⟨id, r', hfind, hfg, of_decide_eq_true happ⟩
    · exact ⟨recordId, r, h, hfg, happ⟩

lemma hasOther_modify (s : AppMgrServiceInner) (recordId : ℤ)
    (f : AppRunningRecord → AppRunningRecord) (p : AppRunningRecord → Bool) :
    { s with appRunningRecordMap := s.appRunningRecordMap.modify recordId f }.hasOther recordId p =
      s.hasOther recordId p := by
  refine Bool.eq_iff_iff.mpr ?_
  rw [hasOther_iff, hasOther_iff]
  refine exists_congr fun id => exists_congr fun r => and_congr_right fun hne => ?_
  rw [find?_modify, if_neg (Ne.symm hne)]

variable (s recordId r) in
lemma isApplicationFirstForeground_eq : s.isApplicationFirstForeground recordId r =
      (r.isApplication && !s.hasOther recordId (·.mainBundleName = r.mainBundleName)) := by
  rw [isApplicationFirstForeground, hasOther, not_any_eq_all_not]
  congr 2
  funext e
  simp only [Bool.and_comm, Bool.and_left_comm]

lemma isApplicationBackground_eq (h : s.appRunningRecordMap.find? recordId = some r)
    (hr : r.isForegroundApplication = false) (bundleName : String) :
    s.isApplicationBackground bundleName =
      !s.hasOther recordId (·.mainBundleName = bundleName) := by
  rw [isApplicationBackground, hasOther, not_any_eq_all_not]
  refine Bool.eq_iff_iff.mpr ?_
  rw [all_eq_true, all_eq_true]
  refine forall₂_congr fun ⟨id, r'⟩ hmem => ?_
  rcases eq_or_ne id recordId with rfl | hne
  · cases h.symm.trans (mem_entries.mp hmem)
    simp [hr]
  · simp [hne]

lemma toldAbout_append (app : String × ℤ) (l l' : List AppStateData) :
    toldAbout app (l ++ l') = toldAbout app l ++ toldAbout app l' := by
  rw [toldAbout, filter_append, map_append]
  rfl

lemma Informed.change {s' : AppMgrServiceInner} (h : Informed s) {r' : AppRunningRecord}
    (hr : s.appRunningRecordMap.find? recordId = some r)
    (hr' : s'.appRunningRecordMap.find? recordId = some r') (hsame : SameApplication r r')
    (ho : ∀ p, s'.hasOther recordId p = s.hasOther recordId p)
    (hn : s'.notified = s.notified ++
      if r.isForegroundApplication ≠ r'.isForegroundApplication ∧
          s.hasOther recordId (·.application = r.application) = false then
        [⟨r.mainBundleName, r.mainUid,
          if r'.isForegroundApplication then .foreground else .background⟩]
      else []) :
    Informed s' := by
  intro app
  have happ : r'.application = r.application := by
    rw [AppRunningRecord.application, hsame.mainBundleName, hsame.mainUid]
    rfl
  have hbefore := isForeground_iff hr app
  have hafter := isForeground_iff hr' app
  rw [happ, ho] at hafter
  have hfollows := h app
  by_cases hown : r.application = app
  · subst hown
    rw [hn, toldAbout_append]
    split
    · -- the record is the only one that counts, and it changes sides
      rename_i hchange
      rw [hchange.2] at hbefore hafter
      have htold : toldAbout r.application [⟨r.mainBundleName, r.mainUid,
          if r'.isForegroundApplication then .foreground else .background⟩] =
          [r'.isForegroundApplication] := by
        simp only [toldAbout, AppRunningRecord.application]
        cases r'.isForegroundApplication <;> simp
      rw [htold]
      refine hfollows.concat (hbefore.trans ?_) (hafter.trans ?_)
      · cases hb : r.isForegroundApplication <;> cases hb' : r'.isForegroundApplication <;> simp_all
      · simp
    · rename_i hchange
      have htold : toldAbout r.application [] = [] := rfl
      rw [htold, append_nil]
      refine hfollows.congr (hbefore.trans (.trans ?_ hafter.symm))
      cases hother : s.hasOther recordId (·.application = r.application) with
      | true => simp
      | false =>
        have heq : r.isForegroundApplication = r'.isForegroundApplication := by
          by_contra hne
          exact hchange ⟨hne, hother⟩
        rw [heq]
  · obtain ⟨d, hd, hmem⟩ : ∃ d, s'.notified = s.notified ++ d ∧
        ∀ x ∈ d, (x.bundleName, x.uid) = r.application :=
      ⟨_, hn, by split <;> simp [AppRunningRecord.application]⟩
    have htold : toldAbout app d = [] := by
      rw [toldAbout, map_eq_nil_iff, filter_eq_nil_iff]
      intro x hx hxa
      exact hown ((hmem x hx).symm.trans (of_decide_eq_true hxa))
    rw [hd, toldAbout_append, htold, append_nil]
    refine hfollows.congr (hbefore.trans (.trans ?_ hafter.symm))
    simp [hown]

variable (s r)

lemma onAppStateChanged_notified (state : ApplicationState) (needNotifyApp : Bool) :
    (s.onAppStateChanged r state needNotifyApp).notified = s.notified ++
      if needNotifyApp then [⟨r.mainBundleName, r.mainUid, state⟩] else [] := by
  unfold onAppStateChanged
  split <;> simp

@[simp] lemma onAppStateChanged_appRunningRecordMap (state : ApplicationState)
    (needNotifyApp : Bool) :
    (s.onAppStateChanged r state needNotifyApp).appRunningRecordMap = s.appRunningRecordMap := by
  unfold onAppStateChanged
  split <;> rfl

variable {s r}

lemma hasOther_of_isSeen (h : s.isSeen recordId r = true) :
    s.hasOther recordId (·.mainBundleName = r.mainBundleName) =
      s.hasOther recordId (·.application = r.application) := by
  have hmono (ho : s.hasOther recordId (·.application = r.application) = true) :
      s.hasOther recordId (·.mainBundleName = r.mainBundleName) = true := by
    rw [hasOther_iff] at ho ⊢
    obtain ⟨id, r', hne, hfind, hfg, happ⟩ := ho
    exact ⟨id, r', hne, hfind, hfg, decide_eq_true (congrArg Prod.fst (of_decide_eq_true happ))⟩
  rcases Bool.or_eq_true_iff.mp h with ho | ho
  · rw [ho, hmono ho]
  · have hnone : s.hasOther recordId (·.mainBundleName = r.mainBundleName) = false := by
      simpa using ho
    rw [hnone]
    by_contra hne
    exact absurd (hmono (by simpa using Ne.symm hne)) (by simp [hnone])

variable {f : AppRunningRecord → AppRunningRecord}

section
variable (h : Informed s)
include h

lemma Informed.moved (hr : s.appRunningRecordMap.find? recordId = some r)
    (hsame : SameApplication r (f r)) {state : ApplicationState}
    (hf : r.isApplication = true → s.isSeen recordId r = true)
    (hmoves : r.isForegroundApplication ≠ (f r).isForegroundApplication ↔ r.isApplication = true)
    (hstate : r.isApplication = true → state = if (f r).isForegroundApplication then .foreground
      else .background) :
    Informed ({ s with appRunningRecordMap := s.appRunningRecordMap.modify recordId f }
      |>.onAppStateChanged r state
        (r.isApplication && !s.hasOther recordId (·.mainBundleName = r.mainBundleName))) := by
  refine h.change hr ?_ hsame (fun p => ?_) ?_
  · rw [onAppStateChanged_appRunningRecordMap, find?_modify, if_pos rfl, hr]
    rfl
  · rw [← hasOther_modify s recordId f p]
    unfold hasOther
    rw [onAppStateChanged_appRunningRecordMap]
  · rw [onAppStateChanged_notified]
    simp only [hmoves]
    cases happ : r.isApplication with
    | false => simp
    | true =>
      rw [hasOther_of_isSeen (hf happ), hstate happ]
      simp

lemma Informed.unmoved (hr : s.appRunningRecordMap.find? recordId = some r)
    (hsame : SameApplication r (f r)) (hcur : (f r).curState = r.curState) :
    Informed { s with appRunningRecordMap := s.appRunningRecordMap.modify recordId f } := by
  have hfg : r.isForegroundApplication = (f r).isForegroundApplication := by
    rw [isForegroundApplication, isForegroundApplication, isApplication, isApplication, hcur,
      hsame.extensionType]
  refine h.change hr ?_ hsame (hasOther_modify s recordId f) ?_
  · rw [find?_modify, if_pos rfl, hr]
    rfl
  · rw [if_neg fun hmoves => hmoves.1 hfg, append_nil]

protected lemma Informed.applicationForegrounded
    (hf : s.fits (.applicationForegrounded recordId) = true) :
    Informed (s.applicationForegrounded recordId) := by
  unfold applicationForegrounded
  cases hr : s.appRunningRecordMap.find? recordId with
  | none => exact h
  | some r =>
    simp only [fits, hr] at hf
    dsimp only
    have hsame := r.applicationForegrounded_same
    have hcur := r.applicationForegrounded_curState
    split_ifs with hmoves
    · rw [if_pos hmoves] at hcur
      have hold : r.isForegroundApplication = false := by
        rw [isForegroundApplication]
        rcases hmoves with hm | hm <;> simp [hm]
      have hnew : r.applicationForegrounded.isForegroundApplication = r.isApplication := by
        rw [isForegroundApplication, hcur, isApplication, isApplication, hsame.extensionType]
        simp
      rw [isApplicationFirstForeground_eq, hasOther_modify]
      refine h.moved hr hsame (fun happ => ?_) (by simp [hold, hnew]) fun happ => ?_
      · rcases hmoves with hm | hm <;> simpa [happ, hm] using hf
      · rw [hnew, happ, if_pos rfl]
    · rw [if_neg hmoves] at hcur
      exact h.unmoved hr hsame hcur

protected lemma Informed.applicationBackgrounded
    (hf : s.fits (.applicationBackgrounded recordId) = true) :
    Informed (s.applicationBackgrounded recordId) := by
  unfold applicationBackgrounded
  cases hr : s.appRunningRecordMap.find? recordId with
  | none => exact h
  | some r =>
    simp only [fits, hr] at hf
    dsimp only
    have hsame := r.applicationBackgrounded_same
    have hcur := r.applicationBackgrounded_curState
    split_ifs with hmoves
    · rw [if_pos hmoves] at hcur
      have hold : r.isForegroundApplication = r.isApplication := by
        rw [isForegroundApplication, hmoves]
        simp
      have hnew : r.applicationBackgrounded.isForegroundApplication = false := by
        rw [isForegroundApplication, hcur]
        simp
      have hr' : (s.appRunningRecordMap.modify recordId (·.applicationBackgrounded)).find?
          recordId = some r.applicationBackgrounded := by
        rw [find?_modify, if_pos rfl, hr]
        rfl
      rw [isApplicationBackground_eq hr' hnew, hasOther_modify]
      refine h.moved hr hsame (fun happ => by simpa [hold, happ] using hf)
        (by simp [hold, hnew]) fun _ => ?_
      rw [hnew]
      rfl
    · rw [if_neg hmoves] at hcur
      exact h.unmoved hr hsame hcur

protected lemma Informed.onRemoteDied
    (hf : s.fits (.onRemoteDied recordId) = true) : Informed (s.onRemoteDied recordId) := by
  intro app
  refine (h app).congr ?_
  have hkept (id : ℤ) (r : AppRunningRecord) :
      (s.onRemoteDied recordId).appRunningRecordMap.find? id = some r ↔
        id ≠ recordId ∧ s.appRunningRecordMap.find? id = some r := by
    simp only [onRemoteDied, find?_erase]
    split <;> grind
  constructor
  · rintro ⟨id, r, hfind, hfg, happ⟩
    rcases eq_or_ne id recordId with rfl | hne
    · -- the process that dies is not the only one of its application
      simp only [fits, hfind, hfg, Bool.not_true, Bool.false_or] at hf
      obtain ⟨id', r', hne, hfind', hfg', happ'⟩ := hasOther_iff.mp hf
      exact ⟨id', r', (hkept id' r').mpr ⟨hne, hfind'⟩, hfg', (of_decide_eq_true happ').trans happ⟩
    · exact ⟨id, r, (hkept id r).mpr ⟨hne, hfind⟩, hfg, happ⟩
  · rintro ⟨id, r, hfind, hfg, happ⟩
    exact ⟨id, r, ((hkept id r).mp hfind).2, hfg, happ⟩

protected lemma Informed.step {o : ProcessOp} (hf : s.fits o = true) : Informed (s.step o) := by
  cases o with
  | launchApplication recordId bundleName uid ext pid =>
    intro app
    refine (h app).congr (exists_congr fun id => exists_congr fun r => ?_)
    simp only [step, find?_emplace]
    split_ifs with hid
    · subst hid
      cases hfind : s.appRunningRecordMap.find? recordId with
      | none =>
        refine iff_of_false (fun hc => absurd hc.1 nofun) ?_
        rintro ⟨hnew, hfg, -⟩
        cases hnew
        simp [isForegroundApplication, launched] at hfg
      | some r' => simp
    · rfl
  | applicationForegrounded recordId => exact h.applicationForegrounded hf
  | applicationBackgrounded recordId => exact h.applicationBackgrounded hf
  | onRemoteDied recordId => exact h.onRemoteDied hf

end

theorem run_informed (ops : List ProcessOp)
    (hg : Runs.Guarded step (fun s o => s.fits o = true) init ops) :
    Informed (ops.foldl step init) :=
  hg.invariant (fun _ _ h hf => h.step hf)
    fun _ => follows_nil fun ⟨_, _, hfind, _⟩ => absurd hfind nofun

def cloneLater : List ProcessOp :=
  [.launchApplication 1 "com.example.app" 20010001 .other 100,
    .launchApplication 2 "com.example.app" 20010001 .other 101,
    .launchApplication 3 "com.example.app" 20010002 .other 102,
    .applicationForegrounded 1, .applicationForegrounded 2, .onRemoteDied 1,
    .applicationBackgrounded 2, .applicationForegrounded 3]

theorem cloneLater_informed : Informed (cloneLater.foldl step init) :=
  run_informed cloneLater (by decide +kernel)

theorem death_in_foreground_not_informed :
    ¬Informed ([ProcessOp.launchApplication 1 "com.example.app" 20010001 .other 100,
      .applicationForegrounded 1, .onRemoteDied 1,
      .launchApplication 2 "com.example.app" 20010001 .other 101,
      .applicationForegrounded 2].foldl step init) := by
  intro h
  exact absurd (h ("com.example.app", 20010001)).1 (by decide +kernel)

end AppMgrServiceInner
end AbilityRuntime.AppMgr
