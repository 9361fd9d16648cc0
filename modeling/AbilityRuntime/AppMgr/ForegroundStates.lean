import AbilityRuntime.AppMgr.AppRunningRecord

/-! The states of the application and of its abilities agree whenever nothing is outstanding; at
the end, the focus flag of the record against those of its abilities. -/

namespace AbilityRuntime.AppMgr
open SortedMap Finset AbilityRunningRecord

structure ForegroundRun where
  record : AppRunningRecord
  asked : SortedMap AbilityToken AbilityState

inductive ForegroundOp
  | launchAbility (token : AbilityToken) (type : AbilityType)
      (extensionAbilityType : ExtensionAbilityType)
  | updateAbilityState (token : AbilityToken) (state : AbilityState)
  | onWindowVisibilityChanged (infos : List WindowVisibilityInfo)
  | reply

namespace AppRunningRecord

def accepts (r : AppRunningRecord) (token : AbilityToken) (state : AbilityState) : Bool :=
  match r.abilities.find? token with
  | none => false
  | some ability =>
    match state with
    | .foreground => (ability.state = .ready ∨ ability.state = .background) ∧
        (r.curState = .ready ∨ r.curState = .background ∨ r.curState = .foreground)
    | .background => ability.state = .foreground ∨ ability.state = .ready
    | _ => false

def reply (r : AppRunningRecord) : AppRunningRecord :=
  match r.scheduled with
  | [] => r
  | .foregroundRunning :: rest => { r with scheduled := rest }.applicationForegrounded
  | .backgroundRunning :: rest => { r with scheduled := rest }.applicationBackgrounded

lemma updateAbilityState_of_not_accepts {r : AppRunningRecord} {token : AbilityToken}
    {state : AbilityState} (h : r.accepts token state = false) :
    r.updateAbilityState token state = r := by
  unfold accepts at h
  unfold updateAbilityState
  cases ha : r.abilities.find? token with
  | none => rfl
  | some ability =>
    rw [ha] at h
    cases state with
    | foreground =>
      simp only [reduceCtorEq, if_false, if_true, abilityForeground]
      split
      · rfl
      · split
        · rfl
        · grind
    | background =>
      have hstate : ability.state ≠ .foreground ∧ ability.state ≠ .ready := by
        simpa using h
      simp only [reduceCtorEq, if_false, if_true, abilityBackground]
      rw [if_pos hstate, ite_self]
    | _ => simp

lemma updateAbilityState_of_accepts {r : AppRunningRecord} {token : AbilityToken}
    {state : AbilityState} (h : r.accepts token state = true) :
    ∃ a, r.abilities.find? token = some a ∧
      (state = .foreground ∧ r.updateAbilityState token state = r.abilityForeground token a ∨
        state = .background ∧ r.updateAbilityState token state = r.abilityBackground token a) := by
  cases ha : r.abilities.find? token with
  | none => simp [accepts, ha] at h
  | some a =>
    refine ⟨a, rfl, ?_⟩
    simp only [accepts, ha] at h
    unfold updateAbilityState
    rw [ha]
    cases state with
    | foreground => grind
    | background => grind
    | _ => cases h

end AppRunningRecord

namespace ForegroundRun
open AppRunningRecord

def init (bundleName : String) (uid : ℤ) (extensionType : ExtensionAbilityType) (pid : ℤ) :
    ForegroundRun := ⟨launched bundleName uid extensionType pid, .empty⟩

def step (s : ForegroundRun) : ForegroundOp → ForegroundRun
  | .launchAbility token type extensionAbilityType =>
    { s with record := s.record.launchAbility token type extensionAbilityType }
  | .updateAbilityState token state =>
    ⟨s.record.updateAbilityState token state,
      if s.record.accepts token state then s.asked.assign token state else s.asked⟩
  | .onWindowVisibilityChanged infos =>
      { s with record := s.record.onWindowVisibilityChanged infos }
  | .reply => { s with record := s.record.reply }

end ForegroundRun

namespace AppRunningRecord

variable (r : AppRunningRecord)

def foregroundFits (token : AbilityToken) : Bool :=
  match r.abilities.find? token with
  | none => true
  | some ability => ability.isPageOrUIExtension

def backgroundFits (token : AbilityToken) : Bool :=
  !r.accepts token .background ||
    (token ∉ r.foregroundingAbilityTokens ∧
      ((r.onAbilityStateChanged token .background).isShown = true ∨
        if r.curState = .foreground then r.foregroundingAbilityTokens = ∅
        else r.isShown = false ∨ r.foregroundingAbilityTokens ≠ ∅))

def windowsFit (infos : List WindowVisibilityInfo) : Bool :=
  infos = [] ∨ infos.foldl (windowChanged r.pid) r.windowIds ≠ ∅ ∨
    if r.isAbilitytiesBackground then r.foregroundingAbilityTokens = ∅
    else r.hasForegroundAbility = true ∨ r.foregroundingAbilityTokens ≠ ∅ ∨ r.windowIds = ∅

def fits : ForegroundOp → Bool
  | .updateAbilityState token .foreground => r.foregroundFits token
  | .updateAbilityState token .background => r.backgroundFits token
  | .onWindowVisibilityChanged infos => r.windowsFit infos
  | _ => true

lemma startForegrounding_eq : r.startForegrounding = { r with
      pendingState := .foregrounding
      scheduled := r.scheduled ++ if r.pendingState = .ready then [.foregroundRunning]
        else [] } := by
  unfold startForegrounding scheduleForegroundRunning
  split <;> simp

lemma startBackgrounding_eq : r.startBackgrounding = { r with
      pendingState := .backgrounding
      scheduled := r.scheduled ++ if r.pendingState = .ready then [.backgroundRunning]
        else [] } := by
  unfold startBackgrounding scheduleBackgroundRunning
  split <;> simp

lemma onWindowVisibilityChanged_eq {infos : List WindowVisibilityInfo}
    {windows : Finset ℕ} (hne : infos ≠ [])
    (hw : infos.foldl (windowChanged r.pid) r.windowIds = windows) :
    r.onWindowVisibilityChanged infos =
      if windows ≠ ∅ then
        if r.pendingState = .ready ∧ r.curState = .foreground then { r with windowIds := windows }
        else { r with windowIds := windows }.startForegrounding
      else if r.isAbilitytiesBackground ∧ (r.pendingState = .ready → r.curState = .foreground) then
        { r with windowIds := windows }.startBackgrounding
      else { r with windowIds := windows } := by
  unfold onWindowVisibilityChanged startForegrounding startBackgrounding
  rw [if_neg hne, hw]
  dsimp only
  have hbg : { r with windowIds := windows }.isAbilitytiesBackground = r.isAbilitytiesBackground :=
    rfl
  rw [hbg]
  by_cases hp : r.pendingState = .ready <;> by_cases hw' : windows = ∅ <;>
    by_cases hc : r.curState = .foreground <;> simp [hp, hw']

variable {r : AppRunningRecord}

lemma hasForegroundAbility_of_background (h : r.isAbilitytiesBackground = true) :
    r.hasForegroundAbility = false := by
  rw [hasForegroundAbility, List.any_eq_false]
  intro e he hf
  have hbg := List.all_eq_true.mp h e he
  simp only [isForeground, decide_eq_true_eq] at hf
  simp [hf.1, hf.2] at hbg

lemma isShown_iff (r : AppRunningRecord) : r.isShown = true ↔ r.windowIds ≠ ∅ ∨
      ∃ token a, r.abilities.find? token = some a ∧ a.isForeground = true := by
  rw [isShown, decide_eq_true_iff, hasForegroundAbility_iff]

lemma find?_onAbilityStateChanged (r : AppRunningRecord) (token t : AbilityToken)
    (state : AbilityState) :
    (r.onAbilityStateChanged token state).abilities.find? t =
      if token = t then (r.abilities.find? t).map fun a => { a with state := state }
      else r.abilities.find? t := find?_modify ..

variable {a : AbilityRunningRecord}

lemma find?_onAbilityStateChanged_self {token : AbilityToken}
    (ha : r.abilities.find? token = some a) (state : AbilityState) :
    (r.onAbilityStateChanged token state).abilities.find? token =
      some { a with state := state } := by
  rw [find?_onAbilityStateChanged, if_pos rfl, ha]
  rfl

lemma isShown_onForeground {token : AbilityToken} (ha : r.abilities.find? token = some a)
    (hp : a.isPageOrUIExtension = true) :
    (r.onAbilityStateChanged token .foreground).isShown = true := by
  refine (isShown_iff _).mpr (.inr ⟨token, _, find?_onAbilityStateChanged_self ha _, ?_⟩)
  simpa [isForeground, isPageOrUIExtension] using hp

lemma isShown_of_onBackground {token : AbilityToken}
    (h : (r.onAbilityStateChanged token .background).isShown = true) : r.isShown = true := by
  rw [isShown_iff] at h ⊢
  refine h.imp id fun ⟨t, a, ha, hf⟩ => ⟨t, a, ?_, hf⟩
  rw [find?_onAbilityStateChanged] at ha
  split at ha
  · obtain ⟨b, -, rfl⟩ := Option.map_eq_some_iff.mp ha
    simp [isForeground] at hf
  · exact ha

lemma find?_launchAbility (r : AppRunningRecord) (token t : AbilityToken) (type : AbilityType)
    (ext : ExtensionAbilityType) (h : (r.launchAbility token type ext).abilities.find? t = some a) :
    r.abilities.find? t = some a ∨ (r.abilities.find? t = none ∧ a = ⟨type, ext, .ready⟩) := by
  simp only [launchAbility, find?_emplace] at h
  split_ifs at h with htoken
  · subst htoken
    cases hb : r.abilities.find? token with
    | none => exact .inr ⟨rfl, by simpa [hb] using h.symm⟩
    | some b => exact .inl (by simpa [hb] using h)
  · exact .inl h

lemma find?_launchAbility_of_find? {t : AbilityToken} (h : r.abilities.find? t = some a)
    (token : AbilityToken) (type : AbilityType) (ext : ExtensionAbilityType) :
    (r.launchAbility token type ext).abilities.find? t = some a := by
  simp only [launchAbility, find?_emplace]
  grind

variable (r)

lemma isShown_launchAbility (token : AbilityToken) (type : AbilityType)
    (ext : ExtensionAbilityType) : (r.launchAbility token type ext).isShown = r.isShown := by
  refine Bool.eq_iff_iff.mpr ?_
  rw [isShown_iff, isShown_iff]
  refine or_congr .rfl ⟨fun ⟨t, a, ha, hf⟩ => ?_, fun ⟨t, a, ha, hf⟩ =>
    ⟨t, a, find?_launchAbility_of_find? ha token type ext, hf⟩⟩
  rcases find?_launchAbility r token t type ext ha with h | ⟨-, rfl⟩
  · exact ⟨t, a, h, hf⟩
  · simp [isForeground] at hf

lemma find?_popForegroundingAbilityTokens (t : AbilityToken) :
    r.popForegroundingAbilityTokens.abilities.find? t = (r.abilities.find? t).map fun a =>
      if t ∈ r.foregroundingAbilityTokens then { a with state := .foreground } else a := by
  simp only [popForegroundingAbilityTokens, find?_traverse]
  cases r.abilities.find? t <;> rfl

end AppRunningRecord

namespace AppRunningRecord
variable {r : AppRunningRecord}

inductive Phase (r : AppRunningRecord) : Prop
  | quiet (hs : r.scheduled = []) (hp : r.pendingState = .ready)
      (hc : r.curState = .ready ∨ r.curState = .background ∨ r.curState = .foreground)
  | raising (hs : r.scheduled = [.foregroundRunning]) (hp : r.pendingState ≠ .ready)
      (hc : r.curState = .ready ∨ r.curState = .background)
  | lowering (hs : r.scheduled = [.backgroundRunning]) (hp : r.pendingState ≠ .ready)
      (hc : r.curState = .foreground)

lemma Phase.congr {r' : AppRunningRecord} (h : Phase r) (hs : r'.scheduled = r.scheduled)
    (hp : r'.pendingState = r.pendingState) (hc : r'.curState = r.curState) : Phase r' := by
  rcases h with ⟨hs', hp', hc'⟩ | ⟨hs', hp', hc'⟩ | ⟨hs', hp', hc'⟩
  · exact .quiet (hs.trans hs') (hp.trans hp') (hc ▸ hc')
  · exact .raising (hs.trans hs') (hp ▸ hp') (hc ▸ hc')
  · exact .lowering (hs.trans hs') (hp ▸ hp') (hc.trans hc')

lemma Phase.curState (h : Phase r) :
    r.curState = .ready ∨ r.curState = .background ∨ r.curState = .foreground := by
  rcases h with ⟨-, -, hc⟩ | ⟨-, -, hc⟩ | ⟨-, -, hc⟩
  · exact hc
  · exact hc.imp_right .inl
  · exact .inr (.inr hc)

lemma Phase.startForegrounding (h : Phase r)
    (hr : r.pendingState = .ready → r.curState ≠ .foreground) : Phase r.startForegrounding := by
  rw [startForegrounding_eq]
  rcases h with ⟨hs, hp, hc⟩ | ⟨hs, hp, hc⟩ | ⟨hs, hp, hc⟩
  · exact .raising (by simp [hs, hp]) nofun (hc.imp_right fun hc => hc.resolve_right (hr hp))
  · exact .raising (by simp [hs, hp]) nofun hc
  · exact .lowering (by simp [hs, hp]) nofun hc

lemma Phase.startBackgrounding (h : Phase r)
    (hr : r.pendingState = .ready → r.curState = .foreground) : Phase r.startBackgrounding := by
  rw [startBackgrounding_eq]
  rcases h with ⟨hs, hp, hc⟩ | ⟨hs, hp, hc⟩ | ⟨hs, hp, hc⟩
  · exact .lowering (by simp [hs, hp]) nofun (hr hp)
  · exact .raising (by simp [hs, hp]) nofun hc
  · exact .lowering (by simp [hs, hp]) nofun hc

def headsForeground (r : AppRunningRecord) : Bool :=
  match r.pendingState with
  | .ready => r.curState = .foreground
  | .foregrounding => true
  | .backgrounding => false

def IsWanted (r : AppRunningRecord) : Prop :=
  r.isShown = true ∨ r.foregroundingAbilityTokens ≠ ∅

structure Consistent (r : AppRunningRecord) : Prop where
  phase : Phase r
  waiting : r.foregroundingAbilityTokens ≠ ∅ → r.pendingState = .foregrounding
  heads : r.isLauncher = false → (r.headsForeground = true ↔ r.IsWanted)
  page : ∀ token ∈ r.foregroundingAbilityTokens, ∃ a, r.abilities.find? token = some a ∧
    a.isPageOrUIExtension = true

lemma consistent_launched (bundleName : String) (uid : ℤ) (ext : ExtensionAbilityType)
    (pid : ℤ) : Consistent (launched bundleName uid ext pid) where
  phase := .quiet rfl rfl (.inl rfl)
  waiting h := absurd rfl h
  heads _ := iff_of_false nofun (not_or.mpr ⟨by simp [isShown, hasForegroundAbility, launched,
    empty], by simp [launched]⟩)
  page _ ht := absurd ht (notMem_empty _)

namespace Consistent

lemma launchAbility (h : Consistent r) (token : AbilityToken) (type : AbilityType)
    (ext : ExtensionAbilityType) : Consistent (r.launchAbility token type ext) where
  phase := h.phase.congr rfl rfl rfl
  __ := h
  heads hl := by
    refine (h.heads hl).trans ?_
    rw [IsWanted, IsWanted, isShown_launchAbility]
    rfl
  page t ht := by
    obtain ⟨a, ha, hp⟩ := h.page t ht
    exact ⟨a, find?_launchAbility_of_find? ha token type ext, hp⟩

variable {token : AbilityToken}

lemma onAbilityStateChanged (h : Consistent r) {state : AbilityState}
    (hw : r.isLauncher = false → (r.IsWanted ↔ (r.onAbilityStateChanged token state).IsWanted)) :
    Consistent (r.onAbilityStateChanged token state) where
  phase := h.phase.congr rfl rfl rfl
  __ := h
  heads hl := (h.heads hl).trans (hw hl)
  page t ht := by
    obtain ⟨a, ha, hp⟩ := h.page t ht
    rw [find?_onAbilityStateChanged, ha]
    split
    · exact ⟨_, rfl, hp⟩
    · exact ⟨a, rfl, hp⟩

lemma startForegrounding (h : Consistent r) (tokens : Finset AbilityToken) (windows : Finset ℕ)
    (hr : r.pendingState = .ready → r.curState ≠ .foreground)
    (hw : { r with foregroundingAbilityTokens := tokens, windowIds := windows }.IsWanted)
    (hp : ∀ token ∈ tokens, ∃ a, r.abilities.find? token = some a ∧ a.isPageOrUIExtension = true) :
    Consistent { r.startForegrounding with
      foregroundingAbilityTokens := tokens, windowIds := windows } where
  phase := (h.phase.startForegrounding hr).congr rfl rfl rfl
  waiting _ := by rw [startForegrounding_eq]
  heads _ := iff_of_true (by simp [headsForeground, startForegrounding_eq]) (by
    rw [startForegrounding_eq]
    exact hw)
  page := by
    rw [startForegrounding_eq]
    exact hp

lemma startBackgrounding (h : Phase r) (hr : r.pendingState = .ready → r.curState = .foreground)
    (hw : r.isShown = false) (ht : r.foregroundingAbilityTokens = ∅) :
    Consistent r.startBackgrounding where
  phase := h.startBackgrounding hr
  waiting hne := absurd (by rw [startBackgrounding_eq]; exact ht) hne
  heads _ := by
    refine iff_of_false (by simp [headsForeground, startBackgrounding_eq]) ?_
    rw [startBackgrounding_eq]
    rintro (hs | hs)
    · exact Bool.false_ne_true (hw.symm.trans hs)
    · exact hs ht
  page := by
    rw [startBackgrounding_eq]
    intro token hmem
    simp [ht] at hmem

section
variable (h : Consistent r)
include h

protected lemma abilityForeground {a : AbilityRunningRecord}
    (ha : r.abilities.find? token = some a) (hp : a.isPageOrUIExtension = true) :
    Consistent (r.abilityForeground token a) := by
  unfold abilityForeground
  split
  · exact h
  split
  · -- the application stays in the foreground, where the ability joins the shown ones
    rename_i hnow
    refine h.onAbilityStateChanged fun hl => ?_
    refine iff_of_true ((h.heads hl).mp ?_) (.inl (isShown_onForeground ha hp))
    unfold headsForeground
    cases hpend : r.pendingState with
    | ready => exact decide_eq_true hnow.1
    | foregrounding => rfl
    | backgrounding => exact absurd hpend hnow.2
  · rename_i hnow
    rw [if_pos h.phase.curState]
    have hr : r.pendingState = .ready → r.curState ≠ .foreground :=
      fun hready hcur => hnow ⟨hcur, by simp [hready]⟩
    have hpage : ∀ t ∈ insert token r.foregroundingAbilityTokens,
        ∃ a, r.abilities.find? t = some a ∧ a.isPageOrUIExtension = true := by
      intro t ht
      rcases mem_insert.mp ht with rfl | ht
      · exact ⟨a, ha, hp⟩
      · exact h.page t ht
    have hnew := h.startForegrounding _ r.windowIds hr
      (.inr (insert_ne_empty token r.foregroundingAbilityTokens)) hpage
    rw [startForegrounding_eq] at hnew ⊢
    exact hnew

protected lemma abilityBackground {a : AbilityRunningRecord}
    (hacc : r.accepts token .background = true) (hf : r.backgroundFits token = true) :
    Consistent (r.abilityBackground token a) := by
  unfold abilityBackground
  split
  · exact h
  rw [backgroundFits, hacc] at hf
  have hcond := (of_decide_eq_true hf).2
  have hphase : Phase (r.onAbilityStateChanged token .background) := h.phase.congr rfl rfl rfl
  dsimp only
  split
  · rename_i hcur
    have hcur : r.curState = .foreground := hcur.resolve_right fun hcached => by
      have hne := h.phase.curState
      rw [show r.curState = .cached from hcached] at hne
      simp at hne
    split_ifs with hidle
    · -- nothing is shown any more: the application turns to the background
      rename_i hidle
      have hshown : (r.onAbilityStateChanged token .background).isShown = false := by
        simp [isShown, hidle.1, hidle.2.2]
      rw [hshown, if_pos hcur] at hcond
      exact startBackgrounding hphase (fun _ => hcur) hshown (hcond.resolve_left nofun)
    · refine h.onAbilityStateChanged fun hl => ?_
      have hshown : (r.onAbilityStateChanged token .background).isShown = true := by
        by_contra hno
        rw [isShown, decide_eq_true_iff, not_or, not_not, Bool.not_eq_true] at hno
        exact hidle ⟨hno.2, hl, hno.1⟩
      exact iff_of_true (.inl (isShown_of_onBackground hshown)) (.inl hshown)
  · -- an application that is not in the foreground takes no notice
    rename_i hcur
    refine h.onAbilityStateChanged fun _ => ?_
    have hne : r.curState ≠ .foreground := fun hcf => hcur (.inl hcf)
    rw [if_neg hne] at hcond
    rcases hcond with hshown | hnone | hwait
    · exact iff_of_true (.inl (isShown_of_onBackground hshown)) (.inl hshown)
    · have hnone' : (r.onAbilityStateChanged token .background).isShown ≠ true := fun hs =>
        Bool.false_ne_true (hnone.symm.trans (isShown_of_onBackground hs))
      have hiff : r.isShown = true ↔ (r.onAbilityStateChanged token .background).isShown = true :=
        iff_of_false (by simp [hnone]) hnone'
      exact or_congr hiff .rfl
    · exact iff_of_true (.inr hwait) (.inr hwait)

lemma updateAbilityState {state : AbilityState}
    (hf : r.fits (.updateAbilityState token state) = true) :
    Consistent (r.updateAbilityState token state) := by
  by_cases hacc : r.accepts token state = true
  · obtain ⟨a, ha, ⟨rfl, hr⟩ | ⟨rfl, hr⟩⟩ := updateAbilityState_of_accepts hacc
    · simp only [fits, foregroundFits, ha] at hf
      exact hr ▸ h.abilityForeground ha hf
    · exact hr ▸ h.abilityBackground hacc hf
  · rwa [updateAbilityState_of_not_accepts (eq_false_of_ne_true hacc)]

lemma withWindows {windows : Finset ℕ}
    (hw : r.isLauncher = false → (r.IsWanted ↔ { r with windowIds := windows }.IsWanted)) :
    Consistent { r with windowIds := windows } where
  phase := h.phase.congr rfl rfl rfl
  __ := h
  heads hl := (h.heads hl).trans (hw hl)

protected lemma onWindowVisibilityChanged {infos : List WindowVisibilityInfo}
    (hf : r.windowsFit infos = true) : Consistent (r.onWindowVisibilityChanged infos) := by
  by_cases hinfos : infos = []
  · unfold onWindowVisibilityChanged
    rwa [if_pos hinfos]
  have hcond := (of_decide_eq_true hf).resolve_left hinfos
  rw [onWindowVisibilityChanged_eq r hinfos rfl]
  generalize infos.foldl (windowChanged r.pid) r.windowIds = windows at hcond ⊢
  by_cases hw : windows = ∅
  · rw [if_neg (not_not.mpr hw)]
    have hcond := hcond.resolve_left (not_not.mpr hw)
    split_ifs with hbg
    · -- every ability is in the background: the application follows the last window
      rename_i hbg
      rw [if_pos hbg.1] at hcond
      refine startBackgrounding (h.phase.congr rfl rfl rfl) hbg.2 ?_ hcond
      have hnone : { r with windowIds := windows }.hasForegroundAbility = false :=
        hasForegroundAbility_of_background hbg.1
      rw [isShown, hnone]
      simp [hw]
    · refine h.withWindows fun hl => ?_
      by_cases hback : r.isAbilitytiesBackground = true
      · -- the application is in the background already, so nothing was shown
        have hidle : r.pendingState = .ready ∧ r.curState ≠ .foreground := by
          by_contra hno
          exact hbg ⟨hback, by tauto⟩
        have hnot : ¬r.IsWanted := by
          rw [← h.heads hl, headsForeground, hidle.1]
          simpa using hidle.2
        refine iff_of_false hnot fun hnew => hnot (hnew.imp_left fun hs => ?_)
        rw [isShown, decide_eq_true_iff] at hs ⊢
        exact .inr (hs.resolve_left (not_not.mpr hw))
      · rw [if_neg hback] at hcond
        rcases hcond with hfg | hwait | hnone
        · exact iff_of_true (.inl (decide_eq_true (.inr hfg))) (.inl (decide_eq_true (.inr hfg)))
        · exact iff_of_true (.inr hwait) (.inr hwait)
        · rw [hw, ← hnone]
  · rw [if_pos hw]
    have hshown : { r with windowIds := windows }.isShown = true := decide_eq_true (.inl hw)
    split_ifs with hcur
    · refine h.withWindows fun hl => iff_of_true ((h.heads hl).mp ?_) (.inl hshown)
      rw [headsForeground, hcur.1]
      exact decide_eq_true hcur.2
    · have hnew := h.startForegrounding r.foregroundingAbilityTokens windows
        (fun hp hc => hcur ⟨hp, hc⟩) (.inl hshown) h.page
      rw [startForegrounding_eq] at hnew ⊢
      exact hnew

lemma isShown_pop : r.popForegroundingAbilityTokens.isShown = true ↔ r.IsWanted := by
  rw [IsWanted, isShown_iff, isShown_iff, or_assoc]
  refine or_congr .rfl ⟨?_, ?_⟩
  · rintro ⟨t, a, ha, hf⟩
    rw [find?_popForegroundingAbilityTokens] at ha
    obtain ⟨b, hb, hab⟩ := Option.map_eq_some_iff.mp ha
    by_cases ht : t ∈ r.foregroundingAbilityTokens
    · exact .inr (ne_empty_of_mem ht)
    · rw [if_neg ht] at hab
      exact .inl ⟨t, a, hab ▸ hb, hf⟩
  · rintro (⟨t, a, ha, hf⟩ | hne)
    · have hstate : a.state = .foreground := (of_decide_eq_true hf).1
      refine ⟨t, a, ?_, hf⟩
      rw [find?_popForegroundingAbilityTokens, ha, Option.map_some]
      split
      · rw [← hstate]
      · rfl
    · obtain ⟨t, ht⟩ := nonempty_iff_ne_empty.mpr hne
      obtain ⟨a, ha, hp⟩ := h.page t ht
      refine ⟨t, { a with state := .foreground }, ?_, decide_eq_true ⟨rfl, hp⟩⟩
      rw [find?_popForegroundingAbilityTokens, ha, Option.map_some, if_pos ht]

lemma isWanted (hl : r.isLauncher = false) (hp : r.pendingState = .foregrounding) :
    r.IsWanted := (h.heads hl).mp (by rw [headsForeground, hp])

lemma not_isWanted (hl : r.isLauncher = false) (hp : r.pendingState = .backgrounding) :
    ¬r.IsWanted := by
  rw [← h.heads hl, headsForeground, hp]
  exact Bool.false_ne_true

lemma foregrounded (hp : r.pendingState ≠ .ready)
    (hc : r.curState = .ready ∨ r.curState = .background) :
    Consistent { r with scheduled := [] }.applicationForegrounded := by
  have hshown := h.isShown_pop
  unfold applicationForegrounded
  rw [if_pos hc]
  cases hpend : r.pendingState with
  | ready => exact absurd hpend hp
  | foregrounding =>
    refine ⟨.quiet rfl rfl (.inr (.inr rfl)), fun hne => absurd rfl hne, fun hl => ?_,
      fun _ ht => absurd ht (notMem_empty _)⟩
    exact iff_of_true rfl (.inl (hshown.mpr (h.isWanted hl hpend)))
  | backgrounding =>
    refine ⟨.lowering rfl nofun rfl, fun hne => absurd rfl hne, fun hl => ?_,
      fun _ ht => absurd ht (notMem_empty _)⟩
    have hnot := h.not_isWanted hl hpend
    exact iff_of_false nofun (not_or.mpr ⟨fun hs => hnot (hshown.mp hs), fun hne => hne rfl⟩)

lemma backgrounded (hp : r.pendingState ≠ .ready) (hc : r.curState = .foreground) :
    Consistent { r with scheduled := [] }.applicationBackgrounded := by
  unfold applicationBackgrounded
  rw [if_pos hc]
  cases hpend : r.pendingState with
  | ready => exact absurd hpend hp
  | foregrounding =>
    exact ⟨.raising rfl nofun (.inr rfl), fun _ => rfl,
      fun hl => iff_of_true rfl (h.isWanted hl hpend), h.page⟩
  | backgrounding =>
    have hnone : ¬r.foregroundingAbilityTokens ≠ ∅ := fun hne => by
      have hfg := h.waiting hne
      rw [hpend] at hfg
      cases hfg
    exact ⟨.quiet rfl rfl (.inr (.inl rfl)), fun hne => absurd hne hnone,
      fun hl => iff_of_false nofun (h.not_isWanted hl hpend), h.page⟩

protected lemma reply : Consistent r.reply := by
  unfold reply
  rcases h.phase with ⟨hs, -, -⟩ | ⟨hs, hp, hc⟩ | ⟨hs, hp, hc⟩
  · rw [hs]
    exact h
  · rw [hs]
    exact h.foregrounded hp hc
  · rw [hs]
    exact h.backgrounded hp hc

end

end Consistent

def Answers (r : AppRunningRecord) (asked : SortedMap AbilityToken AbilityState) : Prop :=
  ∀ t state, asked.find? t = some state → ∃ a, r.abilities.find? t = some a ∧
    if t ∈ r.foregroundingAbilityTokens then state = .foreground else a.state = state

namespace Answers
variable {asked : SortedMap AbilityToken AbilityState}

section
variable (h : r.Answers asked)
include h

lemma congr {r' : AppRunningRecord} (ha : r'.abilities = r.abilities)
    (ht : r'.foregroundingAbilityTokens = r.foregroundingAbilityTokens) : r'.Answers asked := by
  intro t state hs
  rw [ha, ht]
  exact h t state hs

lemma launchAbility (token : AbilityToken) (type : AbilityType) (ext : ExtensionAbilityType) :
    (r.launchAbility token type ext).Answers asked := by
  intro t state hs
  obtain ⟨a, ha, hif⟩ := h t state hs
  exact ⟨a, find?_launchAbility_of_find? ha token type ext, hif⟩

protected lemma onWindowVisibilityChanged (infos : List WindowVisibilityInfo) :
    (r.onWindowVisibilityChanged infos).Answers asked := by
  by_cases hinfos : infos = []
  · unfold onWindowVisibilityChanged
    rwa [if_pos hinfos]
  rw [onWindowVisibilityChanged_eq r hinfos rfl, startForegrounding_eq, startBackgrounding_eq]
  repeat' split
  all_goals exact h.congr rfl rfl

lemma popForegroundingAbilityTokens : r.popForegroundingAbilityTokens.Answers asked := by
  intro t state hs
  obtain ⟨a, ha, hif⟩ := h t state hs
  rw [find?_popForegroundingAbilityTokens, ha]
  refine ⟨_, rfl, ?_⟩
  have hout : t ∉ r.popForegroundingAbilityTokens.foregroundingAbilityTokens := notMem_empty t
  rw [if_neg hout]
  split_ifs with ht
  · rw [if_pos ht] at hif
    exact hif.symm
  · rwa [if_neg ht] at hif

protected lemma reply : r.reply.Answers asked := by
  unfold reply
  split
  · exact h
  · rename_i rest _
    have hcur (c : ApplicationState) :
        { r with scheduled := rest, curState := c }.Answers asked := h.congr rfl rfl
    unfold applicationForegrounded
    dsimp only
    split <;> split <;> exact (popForegroundingAbilityTokens (hcur _)).congr rfl rfl
  · unfold applicationBackgrounded
    dsimp only
    split <;> split <;> exact h.congr rfl rfl

end

variable {token : AbilityToken} {a : AbilityRunningRecord}

section
variable (h : r.Answers asked)
include h

lemma assign {r' : AppRunningRecord} {state : AbilityState} (ha : r'.abilities.find? token = some a)
    (hif : if token ∈ r'.foregroundingAbilityTokens then state = .foreground else a.state = state)
    (ho : ∀ t, token ≠ t → r'.abilities.find? t = r.abilities.find? t ∧
      (t ∈ r'.foregroundingAbilityTokens ↔ t ∈ r.foregroundingAbilityTokens)) :
    r'.Answers (asked.assign token state) := by
  intro t state' hs
  rw [find?_assign] at hs
  split_ifs at hs with heq
  · subst heq
    cases hs
    exact ⟨a, ha, hif⟩
  · obtain ⟨hfind, hmem⟩ := ho t heq
    simp only [hfind, hmem]
    exact h t state' hs

protected lemma abilityForeground (ha : r.abilities.find? token = some a)
    (hacc : r.accepts token .foreground = true) :
    (r.abilityForeground token a).Answers (asked.assign token .foreground) := by
  simp only [accepts, ha, decide_eq_true_eq] at hacc
  have hstate : ¬(a.state ≠ .ready ∧ a.state ≠ .background) := by
    rw [not_and_or, not_not, not_not]
    exact hacc.1
  unfold abilityForeground
  rw [if_neg hstate, if_pos hacc.2]
  split
  · refine h.assign (find?_onAbilityStateChanged_self ha _) (by split <;> rfl)
      fun t hne => ⟨?_, .rfl⟩
    rw [find?_onAbilityStateChanged, if_neg hne]
  · rw [startForegrounding_eq]
    refine h.assign ha ?_ fun t hne => ⟨rfl, ?_⟩
    · rw [if_pos (mem_insert_self ..)]
    · rw [mem_insert, or_iff_right (Ne.symm hne)]

protected lemma abilityBackground (ha : r.abilities.find? token = some a)
    (hacc : r.accepts token .background = true) (hf : r.backgroundFits token = true) :
    (r.abilityBackground token a).Answers (asked.assign token .background) := by
  rw [backgroundFits, hacc] at hf
  have hout := (of_decide_eq_true hf).1
  simp only [accepts, ha, decide_eq_true_eq] at hacc
  have hstate : ¬(a.state ≠ .foreground ∧ a.state ≠ .ready) := by
    rw [not_and_or, not_not, not_not]
    exact hacc
  have hanswers : (r.onAbilityStateChanged token .background).Answers
      (asked.assign token .background) := by
    refine h.assign (find?_onAbilityStateChanged_self ha _) ?_ fun t hne => ⟨?_, .rfl⟩
    · exact (if_neg hout).symm ▸ rfl
    · rw [find?_onAbilityStateChanged, if_neg hne]
  unfold abilityBackground
  rw [if_neg hstate]
  dsimp only
  rw [startBackgrounding_eq]
  repeat' split
  all_goals exact hanswers.congr rfl rfl

lemma updateAbilityState {state : AbilityState}
    (hf : r.fits (.updateAbilityState token state) = true) :
    (r.updateAbilityState token state).Answers
      (if r.accepts token state then asked.assign token state else asked) := by
  by_cases hacc : r.accepts token state = true
  · rw [if_pos hacc]
    obtain ⟨a, ha, ⟨rfl, hr⟩ | ⟨rfl, hr⟩⟩ := updateAbilityState_of_accepts hacc
    · exact hr ▸ h.abilityForeground ha hacc
    · exact hr ▸ h.abilityBackground ha hacc hf
  · rwa [if_neg hacc, updateAbilityState_of_not_accepts (eq_false_of_ne_true hacc)]

end

end Answers
end AppRunningRecord

namespace ForegroundRun
open AppRunningRecord

structure Agrees (s : ForegroundRun) : Prop where
  pending : s.record.pendingState = .ready
  waiting : s.record.foregroundingAbilityTokens = ∅
  answered : ∀ token a state, s.record.abilities.find? token = some a →
    a.isPageOrUIExtension = true → s.asked.find? token = some state → a.state = state
  foreground : s.record.isLauncher = false → (s.record.curState = .foreground ↔
    s.record.windowIds ≠ ∅ ∨ s.record.hasForegroundAbility = true)

lemma step_consistent {s : ForegroundRun} {o : ForegroundOp}
    (h : s.record.Consistent ∧ s.record.Answers s.asked) (hf : s.record.fits o = true) :
    (s.step o).record.Consistent ∧ (s.step o).record.Answers (s.step o).asked := by
  cases o with
  | launchAbility token type ext =>
    exact ⟨h.1.launchAbility token type ext, h.2.launchAbility token type ext⟩
  | updateAbilityState token state => exact ⟨h.1.updateAbilityState hf, h.2.updateAbilityState hf⟩
  | onWindowVisibilityChanged infos =>
    exact ⟨h.1.onWindowVisibilityChanged hf, h.2.onWindowVisibilityChanged infos⟩
  | reply => exact ⟨h.1.reply, h.2.reply⟩

lemma agrees_of_consistent {s : ForegroundRun} (h : s.record.Consistent)
    (ha : s.record.Answers s.asked) (hq : s.record.scheduled = []) : Agrees s := by
  have hpend : s.record.pendingState = .ready := by
    rcases h.phase with ⟨-, hp, -⟩ | ⟨hs, -, -⟩ | ⟨hs, -, -⟩
    · exact hp
    · exact absurd (hq.symm.trans hs) nofun
    · exact absurd (hq.symm.trans hs) nofun
  have hwait : s.record.foregroundingAbilityTokens = ∅ := by
    by_contra hne
    exact absurd (hpend.symm.trans (h.waiting hne)) nofun
  refine ⟨hpend, hwait, fun token a state hfind _ hask => ?_, fun hl => ?_⟩
  · obtain ⟨b, hb, hif⟩ := ha token state hask
    cases hfind.symm.trans hb
    rwa [hwait] at hif
  · have hheads := h.heads hl
    rw [headsForeground, hpend, IsWanted, hwait, ne_self_iff_false, or_false, isShown] at hheads
    simpa using hheads

theorem run_settles (bundleName : String) (uid : ℤ) (ext : ExtensionAbilityType) (pid : ℤ)
    (ops : List ForegroundOp)
    (hg : Runs.Guarded step (fun s o => s.record.fits o = true) (init bundleName uid ext pid) ops)
    (hq : (ops.foldl step (init bundleName uid ext pid)).record.scheduled = []) :
    Agrees (ops.foldl step (init bundleName uid ext pid)) := by
  have hinv := hg.invariant
    (I := fun s : ForegroundRun => s.record.Consistent ∧ s.record.Answers s.asked)
    (fun _ _ h hf => step_consistent h hf)
    ⟨consistent_launched bundleName uid ext pid, fun t state hs => absurd hs nofun⟩
  exact agrees_of_consistent hinv.1 hinv.2 hq

def turningBack : List ForegroundOp :=
  [.launchAbility 1 .page .other, .launchAbility 2 .page .other,
    .updateAbilityState 1 .foreground, .reply, .updateAbilityState 1 .background,
    .updateAbilityState 2 .foreground, .onWindowVisibilityChanged [⟨7, 100, .noOcclusion⟩], .reply,
    .onWindowVisibilityChanged [⟨7, 100, .totallyOcclusion⟩], .reply]

theorem turningBack_agrees :
    Agrees (turningBack.foldl step (init "com.example.app" 20010001 .other 100)) :=
  run_settles "com.example.app" 20010001 .other 100 turningBack (by decide +kernel)
    (by decide +kernel)

theorem waiting_ability_not_agrees :
    let s := [ForegroundOp.launchAbility 1 .page .other, .updateAbilityState 1 .foreground,
      .updateAbilityState 1 .background, .reply].foldl step
        (init "com.example.app" 20010001 .other 100)
    s.record.scheduled = [] ∧ ¬Agrees s := by
  refine ⟨by decide +kernel, fun h => ?_⟩
  exact absurd (h.answered 1 ⟨.page, .other, .foreground⟩ .background (by decide +kernel)
    (by decide) (by decide +kernel)) (by decide)

end ForegroundRun

structure FocusRecord where
  isFocused : Bool := false
  /-- What `GetAbilities` collects from the modules: the focus flag for each token. -/
  abilities : SortedMap AbilityToken Bool := .empty
  terminateAbilities : Finset AbilityToken := ∅

inductive FocusOp
  | addAbility (token : AbilityToken)
  | updateAbilityFocusState (token : AbilityToken) (isFocus : Bool)
  | terminateAbility (token : AbilityToken)
  /-- A module without abilities stays when the process is kept alive or cached. -/
  | abilityTerminated (token : AbilityToken) (hasEventHandler keepsModules : Bool)

namespace FocusRecord

def hasFocus (abilities : SortedMap AbilityToken Bool) : Bool := abilities.entries.any (·.2)

variable (moduleOf : AbilityToken → ℕ) (s : FocusRecord) (token : AbilityToken)

def updateAbilityFocusState (isFocus : Bool) : FocusRecord :=
  match s.abilities.find? token with
  | none => s
  | some lastFocusState =>
    if lastFocusState = isFocus then s
    else
      let abilities := s.abilities.assign token isFocus
      { s with abilities, isFocused := isFocus || s.isFocused && hasFocus abilities }

def terminateAbility : FocusRecord :=
  if s.abilities.contains token then
    { s with
      abilities := s.abilities.erase token
      terminateAbilities := insert token s.terminateAbilities }
  else s

def removeModuleRecord (module : ℕ) : FocusRecord :=
  { s with
    abilities := s.abilities.traverse fun t a => if moduleOf t = module then none else some a
    terminateAbilities := s.terminateAbilities.filter (moduleOf · ≠ module) }

def abilityTerminated (hasEventHandler keepsModules : Bool) : FocusRecord :=
  if token ∈ s.terminateAbilities then
    let s := { s with
      terminateAbilities :=
        if hasEventHandler then s.terminateAbilities.erase token else s.terminateAbilities }
    if (∀ e ∈ s.abilities.entries, moduleOf e.1 ≠ moduleOf token) ∧ !keepsModules then
      s.removeModuleRecord moduleOf (moduleOf token)
    else s
  else s

def step : FocusOp → FocusRecord
  | .addAbility token => { s with abilities := s.abilities.emplace token false }
  | .updateAbilityFocusState token isFocus => s.updateAbilityFocusState token isFocus
  | .terminateAbility token => s.terminateAbility token
  | .abilityTerminated token hasEventHandler keepsModules =>
    s.abilityTerminated moduleOf token hasEventHandler keepsModules

def Exact : Prop := s.isFocused = hasFocus s.abilities

def Fits : FocusOp → Prop
  | .terminateAbility token => s.abilities.find? token = some true →
      ∃ t ≠ token, s.abilities.find? t = some true
  | _ => True

variable {s}

lemma hasFocus_iff {m : SortedMap AbilityToken Bool} :
    hasFocus m = true ↔ ∃ t, m.find? t = some true := by
  simp [hasFocus, mem_entries]

section
variable (h : s.Exact)
include h

lemma Exact.congr {s' : FocusRecord} (hf : s'.isFocused = s.isFocused)
    (ha : ∀ t, s'.abilities.find? t = some true ↔ s.abilities.find? t = some true) :
    s'.Exact := by
  rw [Exact, hf, h, Bool.eq_iff_iff, hasFocus_iff, hasFocus_iff]
  exact exists_congr fun t => (ha t).symm

protected lemma Exact.updateAbilityFocusState (isFocus : Bool) :
    (s.updateAbilityFocusState token isFocus).Exact := by
  unfold updateAbilityFocusState
  split
  · exact h
  rename_i hlast
  split
  · exact h
  rename_i hne
  cases isFocus with
  | true => exact (hasFocus_iff.mpr ⟨token, by rw [find?_assign, if_pos rfl]⟩).symm
  | false =>
    have hold : s.isFocused = true := h.trans (hasFocus_iff.mpr ⟨token, by simpa [hlast] using hne⟩)
    simp [Exact, hold]

protected lemma Exact.abilityTerminated (hasEventHandler keepsModules : Bool) :
    (s.abilityTerminated moduleOf token hasEventHandler keepsModules).Exact := by
  unfold abilityTerminated
  split
  · dsimp only
    split
    · rename_i hleaves
      refine h.congr rfl fun t => ?_
      rw [removeModuleRecord, find?_traverse]
      cases ht : s.abilities.find? t with
      | none => rfl
      | some a => rw [Option.bind_some, if_neg (hleaves.1 (t, a) (mem_entries.mpr ht))]
    · exact h
  · exact h

lemma exact_step_iff (op : FocusOp) : (s.step moduleOf op).Exact ↔ s.Fits op := by
  cases op with
  | addAbility token =>
    refine iff_of_true (h.congr rfl fun t => ?_) trivial
    simp only [step, find?_emplace]
    split_ifs with ht
    · rw [← ht]
      cases s.abilities.find? token <;> simp
    · rfl
  | updateAbilityFocusState token isFocus =>
    exact iff_of_true (h.updateAbilityFocusState token isFocus) trivial
  | terminateAbility token =>
    rw [step, terminateAbility, Fits]
    split_ifs with hin
    · rw [Exact, h, Bool.eq_iff_iff, hasFocus_iff, hasFocus_iff]
      simp only [find?_erase_eq_some]
      grind
    · exact iff_of_true h fun ht => absurd (contains_iff.mpr ⟨true, ht⟩) hin
  | abilityTerminated token hasEventHandler keepsModules =>
    exact iff_of_true (h.abilityTerminated moduleOf token hasEventHandler keepsModules) trivial

end

theorem focus_exact_iff (ops : List FocusOp) :
    (∀ n, ((ops.take n).foldl (step moduleOf) {}).Exact) ↔
      Runs.Guarded (step moduleOf) Fits {} ops :=
  Runs.guarded_iff_forall_take (I := Exact) (fun _ op h => exact_step_iff moduleOf h op)
    (by rfl) ops

theorem terminated_not_exact : ¬ ([.addAbility 1, .updateAbilityFocusState 1 true,
    .terminateAbility 1].foldl (step fun _ => 0) {}).Exact := by
  unfold Exact
  decide

end FocusRecord

end AbilityRuntime.AppMgr
