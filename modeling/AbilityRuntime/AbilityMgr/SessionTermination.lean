import AbilityRuntime.AbilityMgr.HeldSessions

/-! Termination is final as long as what was prepared for a live ability does not come after it. -/

open List

namespace AbilityRuntime.SceneBoard

namespace UIAbilityRecord
variable {a b c : UIAbilityRecord} {k : Outstanding}

structure Keeps (a b : UIAbilityRecord) : Prop extends Grows a b where
  state : a.state = .terminating → b.state = .terminating

variable (a)

lemma keeps_refl : Keeps a a := ⟨grows_refl a, id⟩

lemma grows_terminate : Grows a a.terminate := by
  have htimeout : Grows a a.terminateTimeoutTask := (grows_refl a).ite (grows_post a _)
  exact { htimeout.trans (grows_post _ .terminate) with }

lemma keeps_dispatch {p : Prop} [Decidable p] {timeout task : Outstanding}
    (hk : timeout ≠ .onAbilityDied ∧ timeout ≠ .completeTerminate) :
    Keeps a (if p then a else (a.cancel timeout).post task) := by
  refine ⟨(works_dispatch a hk).toGrows, fun hstate => ?_⟩
  split_ifs <;> exact hstate

lemma keeps_attachAbilityThread (attached : Bool) : Keeps a (a.attachAbilityThread attached) := by
  refine ⟨(works_attachAbilityThread a attached).toGrows, fun hstate => ?_⟩
  unfold attachAbilityThread postForegroundTimeoutTask
  dsimp only
  split_ifs <;> exact hstate

lemma keeps_minimizeUIAbility : Keeps a a.minimizeUIAbility := by
  refine ⟨(works_minimizeUIAbility a).toGrows, fun hterm => ?_⟩
  unfold minimizeUIAbility
  split_ifs with hpending hstate
  · exact hterm
  · exact hterm
  · exact absurd (hterm ▸ not_not.mp hstate) (by decide)

variable {a}

structure SoundAt (a : UIAbilityRecord) (listed : Prop) : Prop where
  died : a.processDied = true → .onAbilityDied ∈ a.outstanding ∨ a.state = .terminating
  unwatched : a.isWatched = false → a.state = .terminating
  listed : listed → a.processDied = true ∨ a.isWatched = false →
    .onAbilityDied ∈ a.outstanding ∨
      (.completeTerminate ∈ a.outstanding ∧ a.state = .terminating)

lemma SoundAt.keeps {l l' : Prop} (h : SoundAt a l) (hk : Keeps a b) (hl : l' → l) :
    SoundAt b l' where
  died := by
    rw [hk.processDied]
    intro hdied
    exact (h.died hdied).imp (fun hin => hk.tasks _ hin (.inl rfl)) hk.state
  unwatched := by
    rw [hk.isWatched]
    exact fun hwatched => hk.state (h.unwatched hwatched)
  listed := by
    rw [hk.processDied, hk.isWatched]
    intro hl' hgone
    rcases h.listed (hl hl') hgone with hin | ⟨hin, hstate⟩
    · exact .inl (hk.tasks _ hin (.inl rfl))
    · exact .inr ⟨hk.tasks _ hin (.inr rfl), hk.state hstate⟩

lemma SoundAt.grows {l : Prop} (h : SoundAt a l) (hg : Grows a b)
    (hstate : a.state ≠ .terminating) (l' : Prop) : SoundAt b l' := by
  have hwatched : b.isWatched ≠ false := by
    rw [hg.isWatched]
    exact fun hw => hstate (h.unwatched hw)
  have htold : b.processDied = true → .onAbilityDied ∈ b.outstanding := by
    rw [hg.processDied]
    intro hdied
    exact hg.tasks _ ((h.died hdied).resolve_right hstate) (.inl rfl)
  refine ⟨fun hdied => .inl (htold hdied), fun hw => absurd hw hwatched, ?_⟩
  intro _ hgone
  exact .inl (htold (hgone.resolve_right hwatched))

protected lemma SoundAt.onProcessDied {l : Prop} (h : SoundAt a l) : SoundAt a.onProcessDied l := by
  unfold onProcessDied
  split
  · exact h
  · split
    · have hin : .onAbilityDied ∈ (a.post .onAbilityDied).outstanding :=
        mem_append_right _ mem_cons_self
      exact ⟨fun _ => .inl hin, h.unwatched, fun _ _ => .inl hin⟩
    · -- nobody is told any more: the record was terminated before
      rename_i hwatched
      have hwatched := eq_false_of_ne_true hwatched
      refine ⟨fun _ => .inr (h.unwatched hwatched), h.unwatched, ?_⟩
      intro hl _
      exact h.listed hl (.inr hwatched)

lemma SoundAt.take_completeTerminate {l : Prop} (h : SoundAt a l)
    (hstate : a.state ≠ .terminating) : SoundAt (a.take .completeTerminate) l := by
  have hkept : ∀ {x : Outstanding}, x = .onAbilityDied → x ∈ a.outstanding →
      x ∈ (a.take .completeTerminate).outstanding := by
    rintro x rfl hx
    exact (mem_erase_of_ne (by decide)).mpr hx
  refine ⟨?_, h.unwatched, ?_⟩
  · intro hdied
    exact (h.died hdied).imp (hkept rfl) id
  · intro hl hgone
    rcases h.listed hl hgone with hin | ⟨-, hterm⟩
    · exact .inl (hkept rfl hin)
    · exact absurd hterm hstate

lemma soundAt_die (a : UIAbilityRecord) (l : Prop) : SoundAt a.die.dispatchTerminate l := by
  have hterm : a.die.dispatchTerminate.state = .terminating := by
    unfold dispatchTerminate
    split <;> rfl
  have hin : .completeTerminate ∈ a.die.dispatchTerminate.outstanding := by
    unfold dispatchTerminate
    rw [if_neg (by exact not_not_intro rfl)]
    exact mem_append_right _ mem_cons_self
  exact ⟨fun _ => .inr hterm, fun _ => hterm, fun _ _ => .inr ⟨hin, hterm⟩⟩

end UIAbilityRecord

open UIAbilityRecord

namespace SessionAbilities
variable {s t : SessionAbilities} {r : ℕ} {f : UIAbilityRecord → UIAbilityRecord}

def Sound (s : SessionAbilities) : Prop :=
  ∀ r, SoundAt (s.record r) (r ∈ s.terminateAbilityList)

def Ends (r : ℕ) (s t : SessionAbilities) : Prop :=
  SoundAt (t.record r) (r ∈ t.terminateAbilityList) ∧
    ((s.record r).state = .terminating → (t.record r).state = .terminating)

lemma Sound.evolves (h : Sound s) (he : Evolves r s t) (hown : Ends r s t) :
    Sound t ∧ ∀ j, (s.record j).state = .terminating → (t.record j).state = .terminating := by
  have hterminate : ∀ a : UIAbilityRecord, Keeps a a.terminate :=
    fun a => ⟨grows_terminate a, fun _ => rfl⟩
  constructor
  · intro j
    by_cases hjr : j = r
    · rw [hjr]
      exact hown.1
    · have hlisted := (he.listed j hjr).mp
      rcases he.others j hjr with hsame | ⟨-, -, hterm⟩
      · rw [hsame]
        exact (h j).keeps (keeps_refl _) hlisted
      · rw [hterm]
        exact (h j).keeps (hterminate _) hlisted
  · intro j
    by_cases hjr : j = r
    · rw [hjr]
      exact hown.2
    · rcases he.others j hjr with hsame | ⟨-, -, hterm⟩
      · rw [hsame]
        exact id
      · rw [hterm]
        exact fun _ => rfl

variable (s r)

lemma grows_modifyRecord (hf : ∀ a, Grows a (f a)) :
    Grows (s.record r) ((s.modifyRecord r f).record r) :=
  modifyRecord_of (hf _) (grows_refl _)

variable {s r}

lemma Sound.ends_keeps (h : Sound s) (hf : Keeps (s.record r) (f (s.record r))) :
    Ends r s (s.modifyRecord r f) := by
  have hkeeps : Keeps (s.record r) ((s.modifyRecord r f).record r) :=
    modifyRecord_of hf (keeps_refl _)
  exact ⟨(h r).keeps hkeeps id, hkeeps.state⟩

lemma Sound.ends_grows (h : Sound s) (hstate : (s.record r).state ≠ .terminating)
    (hg : Grows (s.record r) (t.record r)) : Ends r s t :=
  ⟨(h r).grows hg hstate _, fun hterm => absurd hterm hstate⟩

variable (s r) in
lemma grows_closeUIAbility (isClearSession : Bool) :
    Grows (s.record r) ((s.closeUIAbility r isClearSession).record r) := by
  have hmark : Grows (s.record r)
      (((s.modifyRecord r fun a => { a with isTerminating := true }).eraseAbilityRecord r).record
        r) := by
    rw [record_eraseAbilityRecord]
    exact grows_modifyRecord s r fun _ => grows_of_outstanding rfl rfl rfl
  unfold SessionAbilities.closeUIAbility
  dsimp only
  split
  · exact grows_refl _
  · split
    · split
      · exact hmark
      · exact hmark.trans (grows_modifyRecord _ r fun a => grows_cancel a (by decide) (by decide))
    · split
      · exact hmark
      · split
        · refine hmark.trans (grows_modifyRecord (pushTerminateAbility _ r) r fun a => ?_)
          have hmarked : Grows a { a with pendingState := .background } :=
            grows_of_outstanding rfl rfl rfl
          exact hmarked.trans (works_moveToBackground _).toGrows
        · split
          · exact hmark.trans (grows_modifyRecord (pushTerminateAbility _ r) r grows_terminate)
          · exact hmark

def isClosable (s : SessionAbilities) (r : ℕ) : Bool :=
  (s.record r).state ≠ .terminating || (s.record r).isTerminating

lemma Sound.closeUIAbility (h : Sound s) (hok : s.isClosable r = true)
    (isClearSession : Bool) : Ends r s (s.closeUIAbility r isClearSession) := by
  by_cases hstate : (s.record r).state = .terminating
  · have hterm : ((s.record r).isTerminating && !(s.record r).isForeground) = true := by
      have hterminating : (s.record r).isTerminating = true := by
        simpa [isClosable, hstate] using hok
      have hforeground : (s.record r).isForeground = false := by
        unfold isForeground
        rw [hstate]
        rfl
      rw [hterminating, hforeground]
      rfl
    rw [closeUIAbility_of_terminating isClearSession hterm]
    exact ⟨h r, id⟩
  · exact h.ends_grows hstate (grows_closeUIAbility s r isClearSession)

protected lemma Sound.handleForegroundFailed (h : Sound s) (r : ℕ) :
    Ends r s (s.handleForegroundFailed r) := by
  unfold handleForegroundFailed
  split_ifs with hstate
  · exact ⟨h r, id⟩
  · refine h.ends_grows (fun hterm => hstate (hterm ▸ by decide)) ?_
    have hclose := grows_closeUIAbility (s.eraseAbilityRecord r) r false
    rw [record_eraseAbilityRecord] at hclose
    exact hclose

protected lemma Sound.completeBackground (h : Sound s) (r : ℕ) :
    Ends r s (s.completeBackground r) := by
  unfold completeBackground
  split_ifs with hstate
  · exact ⟨h r, id⟩
  · refine h.ends_grows (fun hterm => hstate (hterm ▸ by decide)) ?_
    have hback := grows_modifyRecord s r fun a => (works_completeBackground a).toGrows
    rcases record_foldl_terminateInBackground s.terminateAbilityList
        (s.modifyRecord r (·.completeBackground)) r with hsame | ⟨-, -, hterm⟩
    · rw [hsame]
      exact hback
    · rw [hterm]
      exact hback.trans (grows_terminate _)

lemma ends_completeTerminate (hstate : (s.record r).state = .terminating) :
    Ends r s (s.completeTerminate r) := by
  have hterm : ((s.completeTerminate r).record r).state = .terminating := by
    unfold completeTerminate
    rw [if_neg (not_not_intro hstate)]
    change ((s.modifyRecord r _).record r).state = _
    rw [record_modifyRecord]
    split
    · exact hstate
    · exact hstate
  have hout : r ∉ (s.completeTerminate r).terminateAbilityList := by
    unfold completeTerminate
    rw [if_neg (not_not_intro hstate)]
    intro hin
    exact of_decide_eq_true (mem_filter.mp hin).2 rfl
  exact ⟨⟨fun _ => .inr hterm, fun _ => hterm, fun hin => absurd hin hout⟩, fun _ => hterm⟩

lemma completeTerminate_of_ne (hstate : (s.record r).state ≠ .terminating) :
    s.completeTerminate r = s := if_pos hstate

lemma ends_onAbilityDied (hr : r < s.records.length) : Ends r s (s.onAbilityDied r) := by
  have hrecord : (s.onAbilityDied r).record r = (s.record r).die.dispatchTerminate := by
    unfold onAbilityDied
    rw [eraseAbilityRecord_pushTerminateAbility, eraseAbilityRecord_modifyRecord]
    have hlength : r < (s.eraseAbilityRecord r).records.length := by
      rw [records_eraseAbilityRecord]
      exact hr
    change (((s.eraseAbilityRecord r).modifyRecord r (·.die)).modifyRecord r
      (·.dispatchTerminate)).record r = _
    rw [record_modifyRecord_self (by rw [length_modifyRecord]; exact hlength),
      record_modifyRecord_self hlength, record_eraseAbilityRecord]
  unfold Ends
  rw [hrecord]
  refine ⟨soundAt_die _ _, fun _ => ?_⟩
  unfold dispatchTerminate
  split <;> rfl

def isTimely (s : SessionAbilities) (r : ℕ) : Outstanding → Bool
  | .completeForegroundSuccess | .foregroundWindowFreezed => (s.record r).state ≠ .terminating
  | .moveToForeground | .terminateSession => s.isClosable r
  | _ => true

lemma Sound.onAbilityRequestDone (h : Sound s) (hok : s.isClosable r = true) :
    Ends r s (s.modifyRecord r (·.onAbilityRequestDone)) := by
  by_cases hstate : (s.record r).state = .terminating
  · have hterminating : (s.record r).isTerminating = true := by
      simpa [isClosable, hstate] using hok
    refine h.ends_keeps ?_
    unfold UIAbilityRecord.onAbilityRequestDone
    rw [if_pos hterminating]
    exact ⟨grows_cancel _ (by decide) (by decide), id⟩
  · exact h.ends_grows hstate (grows_modifyRecord s r fun a =>
      (works_onAbilityRequestDone a).toGrows)

lemma Sound.onProcessDied (h : Sound s) (r : ℕ) :
    Ends r s (s.modifyRecord r (·.onProcessDied)) := by
  have hstate : ∀ a : UIAbilityRecord, a.onProcessDied.state = a.state := by
    intro a
    unfold UIAbilityRecord.onProcessDied
    split
    · rfl
    · split <;> rfl
  exact modifyRecord_of (p := fun a => SoundAt a _ ∧ (_ → a.state = .terminating))
    ⟨(h r).onProcessDied, fun hterm => (hstate _).trans hterm⟩ ⟨h r, id⟩

lemma Sound.handle (h : Sound s) (hr : r < s.records.length) (reply : Reply)
    {k : Outstanding} (hok : s.isTimely r k = true) : Ends r s (s.handle r reply k) := by
  have hite : ∀ {c : Bool} {t : SessionAbilities}, Ends r s t →
      Ends r s (if c then t else s) := by
    intro c t ht
    split
    · exact ht
    · exact ⟨h r, id⟩
  have herase : Ends r s (s.eraseAbilityRecord r) := by
    unfold Ends
    rw [record_eraseAbilityRecord, terminateAbilityList_eraseAbilityRecord]
    exact ⟨h r, id⟩
  have hcomplete : Ends r s (s.completeTerminate r) := by
    by_cases hstate : (s.record r).state = .terminating
    · exact ends_completeTerminate hstate
    · rw [completeTerminate_of_ne hstate]
      exact ⟨h r, id⟩
  cases k with
  | load => exact hite (h.ends_keeps (keeps_attachAbilityThread _ _))
  | moveToForeground => exact hite (h.onAbilityRequestDone hok)
  | foregroundNew => exact hite (h.ends_keeps (keeps_dispatch _ ⟨by decide, by decide⟩))
  | backgroundNew => exact hite (h.ends_keeps (keeps_dispatch _ ⟨by decide, by decide⟩))
  | terminate => exact hite (h.ends_keeps (keeps_dispatch _ ⟨by decide, by decide⟩))
  | loadTimeout => exact hite herase
  | foregroundTimeout =>
    refine hite ?_
    unfold handleForegroundTimeout
    split
    · exact ⟨h r, id⟩
    · exact herase
  | backgroundTimeout => exact h.completeBackground r
  | terminateTimeout => exact h.ends_keeps ⟨grows_post _ _, id⟩
  | completeForegroundSuccess =>
    exact h.ends_grows (of_decide_eq_true hok)
      (grows_modifyRecord s r fun a => (works_completeForegroundSuccess a).toGrows)
  | foregroundWindowFreezed =>
    exact h.ends_grows (of_decide_eq_true hok)
      (grows_modifyRecord s r fun a => (works_windowFreezed a).toGrows)
  | handleForegroundFailed => exact h.handleForegroundFailed r
  | completeBackground => exact h.completeBackground r
  | completeTerminate => exact hcomplete
  | delayKillProcess => exact hcomplete
  | onAbilityDied => exact ends_onAbilityDied hr
  | terminateSession => exact h.closeUIAbility hok false

protected lemma Sound.happen (h : Sound s) (r : ℕ) (k : Outstanding) (reply : Reply)
    (hok : s.isTimely r k = true) : Ends r s (s.happen r k reply) := by
  unfold happen
  split_ifs with hk
  · have hknown := lt_length_of_mem_outstanding hk
    have hrecord : (s.modifyRecord r (·.take k)).record r = (s.record r).take k :=
      record_modifyRecord_self hknown
    have hknown' : r < (s.modifyRecord r (·.take k)).records.length := by
      rw [length_modifyRecord]
      exact hknown
    -- the record is in the same state when the step comes
    have hback : ∀ {t : SessionAbilities}, Ends r (s.modifyRecord r (·.take k)) t →
        Ends r s t := by
      intro t ht
      refine ⟨ht.1, fun hstate => ht.2 ?_⟩
      rw [hrecord]
      exact hstate
    have htimely : (s.modifyRecord r (·.take k)).isTimely r k = true := by
      unfold isTimely isClosable
      rw [hrecord]
      exact hok
    by_cases hdied : k = .onAbilityDied
    · subst hdied
      exact hback (ends_onAbilityDied hknown')
    · by_cases hcomplete : k = .completeTerminate
      · subst hcomplete
        by_cases hstate : (s.record r).state = .terminating
        · exact hback (ends_completeTerminate (by rw [hrecord]; exact hstate))
        · have hsame : (s.modifyRecord r (·.take .completeTerminate)).completeTerminate r =
              s.modifyRecord r (·.take .completeTerminate) :=
            completeTerminate_of_ne (by rw [hrecord]; exact hstate)
          change Ends r s ((s.modifyRecord r (·.take .completeTerminate)).completeTerminate r)
          rw [hsame]
          unfold Ends
          rw [hrecord]
          exact ⟨(h r).take_completeTerminate hstate, id⟩
      · have htaken := h.evolves (evolves_modifyRecord s r (tame_take k))
          (h.ends_keeps ⟨grows_take _ hdied hcomplete, id⟩)
        exact hback (htaken.1.handle hknown' reply htimely)
  · exact ⟨h r, id⟩

lemma sound_init : Sound {} := by
  intro r
  refine ⟨fun h => ?_, fun h => ?_, fun h => nomatch h⟩
  · cases h
  · cases h

lemma Sound.startUIAbility (h : Sound s) (hheld : Held s) (call : StartCall) (persistentId : ℤ) :
    Sound (s.startUIAbility call persistentId).1 ∧
      ∀ j, (s.record j).state = .terminating →
        ((s.startUIAbility call persistentId).1.record j).state = .terminating := by
  rcases startUIAbility_cases s call persistentId with ⟨r, hfind, hs⟩ | ⟨-, hs⟩ | hs
  · rw [hs]
    refine h.evolves (evolves_of_works (works_renewed call)) ?_
    exact h.ends_grows (hheld.alive r ⟨_, hfind⟩).2.1
      (grows_modifyRecord s r fun a => (works_renewed call a).toGrows)
  · rw [hs]
    generalize hmade : (createAbilityRecord call.request persistentId).start call.isLoaded = made
    have hgrows : Grows (createAbilityRecord call.request persistentId) made :=
      hmade ▸ (works_start _ _).toGrows
    have hcases : ∀ j, (s.records ++ [made]).getD j {} = s.record j ∨
        (s.records ++ [made]).getD j {} = made := by
      intro j
      rcases Nat.lt_trichotomy j s.records.length with hlt | rfl | hgt
      · exact .inl (getD_append _ _ _ _ hlt)
      · exact .inr (by simp)
      · left
        unfold record
        rw [getD_eq_default _ _ (Nat.le_of_lt hgt),
          getD_eq_default _ _ (by rw [length_append]; exact hgt)]
    constructor
    · intro j
      change SoundAt ((s.records ++ [made]).getD j {}) (j ∈ s.terminateAbilityList)
      rcases hcases j with hrec | hrec
      · rw [hrec]
        exact h j
      · rw [hrec]
        have hdied : made.processDied ≠ true := by
          rw [hgrows.processDied]
          exact Bool.false_ne_true
        have hwatched : made.isWatched ≠ false := by
          rw [hgrows.isWatched]
          intro hw
          cases hw
        exact ⟨fun hd => absurd hd hdied, fun hw => absurd hw hwatched,
          fun _ hgone => absurd hgone (not_or.mpr ⟨hdied, hwatched⟩)⟩
    · intro j hterm
      have hlt : j < s.records.length := by
        apply lt_length_of_ne
        intro hdefault
        rw [hdefault] at hterm
        cases hterm
      change ((s.records ++ [made]).getD j {}).state = _
      rw [getD_append _ _ _ _ hlt]
      exact hterm
  · rw [hs]
    exact ⟨h, fun _ => id⟩

lemma Sound.setSpecified (h : Sound s) (call : StartCall) (info : SpecifiedInfo) (r : ℕ) :
    Sound (s.setSpecified call info r) ∧
      ∀ j, (s.record j).state = .terminating →
        ((s.setSpecified call info r).record j).state = .terminating := by
  have hkeeps : ∀ j, Keeps (s.record j) ((s.setSpecified call info r).record j) := by
    intro j
    change Keeps _ ((s.modifyRecord r _).record j)
    rw [record_modifyRecord]
    split
    · exact ⟨grows_of_outstanding rfl rfl rfl, id⟩
    · exact keeps_refl _
  exact ⟨fun j => (h j).keeps (hkeeps j) id, fun j => (hkeeps j).state⟩

end SessionAbilities

open SessionAbilities

namespace UIAbilityLifecycleManager
variable {m : UIAbilityLifecycleManager}

def isTimely (m : UIAbilityLifecycleManager) : Op → Bool
  | .happen r k _ => m.sessions.isTimely r k
  | .closeUIAbility r _ => m.sessions.isClosable r
  | _ => true

lemma sound_step (hheld : m.sessions.Held) (h : m.sessions.Sound) (op : Op)
    (hok : m.isTimely op = true) :
    (m.step op).sessions.Sound ∧ ∀ j, (m.sessions.record j).state = .terminating →
      ((m.step op).sessions.record j).state = .terminating := by
  have hmoves := moves_step m op
  generalize (m.step op).sessions = t at hmoves ⊢
  cases hmoves with
  | same => exact ⟨h, fun _ => id⟩
  | reused r want =>
    exact h.evolves (evolves_setWant _ r want) (h.ends_keeps ⟨grows_of_outstanding rfl rfl rfl, id⟩)
  | started _ _ => exact h.startUIAbility hheld _ _
  | @specified call a _ entry _ r _ _ _ _ _ =>
    have hstart := h.startUIAbility hheld call (sessionFor a call)
    have hset := hstart.1.setSpecified call entry.info r
    exact ⟨hset.1, fun j hterm => hset.2 j (hstart.2 j hterm)⟩
  | minimized r =>
    exact h.evolves
      (evolves_of_works works_minimizeUIAbility)
      (h.ends_keeps (keeps_minimizeUIAbility _))
  | closed r isClearSession =>
    exact h.evolves (hheld.closeUIAbility r isClearSession) (h.closeUIAbility hok isClearSession)
  | died r =>
    exact h.evolves (evolves_modifyRecord _ r tame_onProcessDied) (h.onProcessDied r)
  | happened r k reply => exact h.evolves (hheld.happen r k reply) (h.happen r k reply hok)

def TerminatesFor (ops more : List Op) : Prop :=
  (∀ r, ((run ops).sessions.record r).state = .terminating →
      ((run (ops ++ more)).sessions.record r).state = .terminating) ∧
    ((∀ r, ∀ k ∈ ((run ops).sessions.record r).outstanding, k.isTask = false) →
      ∀ r ∈ (run ops).sessions.terminateAbilityList,
        ((run ops).sessions.record r).processDied = false)

theorem run_terminatesFor (ops more : List Op)
    (h : Runs.Guarded step (fun m op => m.isTimely op = true) {} (ops ++ more)) :
    TerminatesFor ops more := by
  obtain ⟨hops, hmore⟩ := (Runs.guarded_append _ _ _).mp h
  have hsound : (run ops).sessions.Held ∧ (run ops).sessions.Sound :=
    hops.invariant (I := fun m => m.sessions.Held ∧ m.sessions.Sound)
      (fun _ op hm hok => ⟨held_step hm.1 op, (sound_step hm.1 hm.2 op hok).1⟩)
      ⟨held_init, sound_init⟩
  constructor
  · intro r hterm
    have hlater := hmore.invariant
      (I := fun m => (m.sessions.Held ∧ m.sessions.Sound) ∧
        (m.sessions.record r).state = .terminating)
      (fun _ op hm hok => by
        obtain ⟨hsound', hstays⟩ := sound_step hm.1.1 hm.1.2 op hok
        exact ⟨⟨held_step hm.1.1 op, hsound'⟩, hstays r hm.2⟩)
      ⟨hsound, hterm⟩
    unfold run
    rw [foldl_append]
    exact hlater.2
  · intro hnone r hin
    by_contra hdied
    have hdied := eq_true_of_ne_false hdied
    rcases (hsound.2 r).listed hin (.inl hdied) with htask | ⟨htask, -⟩
    · cases hnone r _ htask
    · cases hnone r _ htask

def diedInForeground : List Op :=
  notesStarted ++ comesToForeground 0 ++ [.processDied 0, .happen 0 .onAbilityDied {}]

theorem diedInForeground_terminatesFor : Runs.Guarded step (fun m op => m.isTimely op = true) {}
        (diedInForeground ++ [.happen 0 .completeTerminate {}]) ∧
      ((run diedInForeground).sessions.record 0).state = .terminating ∧
      (run diedInForeground).sessions.terminateAbilityList = [0] ∧
      (run (diedInForeground ++
        [.happen 0 .completeTerminate {}])).sessions.terminateAbilityList = [] ∧
      TerminatesFor diedInForeground [.happen 0 .completeTerminate {}] := by
  have hguarded : Runs.Guarded step (fun m op => m.isTimely op = true) {}
      (diedInForeground ++ [.happen 0 .completeTerminate {}]) := by
    decide +kernel
  exact ⟨hguarded, by decide +kernel, by decide +kernel, by decide +kernel,
    run_terminatesFor diedInForeground [.happen 0 .completeTerminate {}] hguarded⟩

def diedAfterReply : List Op :=
  notesStarted ++ [.happen 0 .load {}, .happen 0 .moveToForeground {},
    .happen 0 .foregroundNew {}, .processDied 0, .happen 0 .onAbilityDied {}]

def staleTasks : List Op :=
  [.happen 0 .completeForegroundSuccess {}, .happen 0 .completeTerminate {}]

theorem diedAfterReply_not_terminatesFor :
    ((run diedAfterReply).sessions.record 0).state = .terminating ∧
      ((run (diedAfterReply ++ staleTasks)).sessions.record 0).state = .foreground ∧
      ((run (diedAfterReply ++ staleTasks)).sessions.record 0).outstanding = [] ∧
      ((run (diedAfterReply ++ staleTasks)).sessions.record 0).processDied = true ∧
      (run (diedAfterReply ++ staleTasks)).sessions.terminateAbilityList = [0] ∧
      ¬ TerminatesFor diedAfterReply staleTasks := by
  refine ⟨by decide +kernel, by decide +kernel, by decide +kernel, by decide +kernel,
    by decide +kernel, ?_⟩
  intro hfinal
  have hstate := hfinal.1 0 (by decide +kernel)
  revert hstate
  decide +kernel

end UIAbilityLifecycleManager

end AbilityRuntime.SceneBoard
