import AbilityRuntime.Library.Runs
import Mathlib.Data.Finset.Card

/-! The uids of render processes. A render process, its record and its pid are known by the start
they come from, and a host by its record, which is there from the beginning. The death of an
attached render process and the notice of it are one step. `lastRenderUid_` is `startUid` at first,
so `startUid + 1` is given first. The call of `KillRenderProcess` in `ApplicationTerminated`, with
the host still in the map, is left out. -/

namespace AbilityRuntime.RenderUid
open Function Finset

/-- The spawn client is asked; the process is there and its record is not added yet; the record is
in `renderRecordMap_` of its host, or it is not. -/
inductive Stage
  | spawning
  | spawned
  | listed
  | unlisted
  deriving DecidableEq

structure RenderRecord where
  hostPid : ℕ := 0
  uid : ℕ := 0
  stage : Stage := .unlisted
  alive : Bool := false
  scheduler : Bool := false

@[simp]
def RenderRecord.isHeld (r : RenderRecord) : Bool := r.stage = .spawning || r.alive

structure Config where
  startUid : ℕ
  endUid : ℕ
  isUseMultiRenderProcess : Bool
  isLimitMaximumOfRenderProcess : Bool

/-- `gone` are the hosts that have left `appRunningRecordMap_`, `killed` those of them for which
`KillRenderProcess` was called, and `toKill` the render processes that it has still to kill. -/
structure AppMgrServiceInner where
  renderUidSet : Finset ℕ
  lastRenderUid : ℕ
  renders : ℕ → RenderRecord
  nextPid : ℕ
  isGPU : Finset ℕ
  gone : Finset ℕ
  killed : Finset ℕ
  toKill : Finset ℕ

namespace AppMgrServiceInner

def init (c : Config) : AppMgrServiceInner := ⟨∅, c.startUid, fun _ => {}, 0, ∅, ∅, ∅, ∅⟩

section
variable (s : AppMgrServiceInner)

def scan (first last : ℕ) : Option ℕ :=
  (List.range' first (last + 1 - first)).find? (· ∉ s.renderUidSet)

variable (c : Config)

def generateRenderUid : Option ℕ :=
  let needSecondScan := decide (s.lastRenderUid + 1 ≤ c.endUid)
  let uid := if needSecondScan then s.lastRenderUid + 1 else c.startUid
  if s.renderUidSet = ∅ then some uid
  else (s.scan uid c.endUid).or
    (if needSecondScan then s.scan c.startUid s.lastRenderUid else none)

def renderRecordMap (hostPid : ℕ) : Finset ℕ :=
  (Finset.range s.nextPid).filter fun pid =>
    (s.renders pid).hostPid = hostPid ∧ (s.renders pid).stage = .listed

def setIsGPU (hostPid : ℕ) (gpu : Bool) : AppMgrServiceInner :=
  { s with isGPU := if gpu then insert hostPid s.isGPU else s.isGPU }

def enterRender (hostPid uid : ℕ) : AppMgrServiceInner :=
  { s with
    renderUidSet := insert uid s.renderUidSet
    lastRenderUid := uid
    renders := Function.update s.renders s.nextPid { hostPid, uid, stage := .spawning }
    nextPid := s.nextPid + 1 }

def phoneMaxRenderProcessNum : ℕ := 40

def childNumLimit (hostPid : ℕ) : ℕ :=
  if hostPid ∈ s.isGPU then phoneMaxRenderProcessNum + 1 else phoneMaxRenderProcessNum

/-- `StartRenderProcess` up to the call of the spawn client. -/
def startRenderProcess (hostPid : ℕ) (isGPU : Bool) : AppMgrServiceInner :=
  let records := s.renderRecordMap hostPid
  if hostPid ∈ s.gone then s
  else if !isGPU ∧ !c.isUseMultiRenderProcess ∧ ∃ pid ∈ records, (s.renders pid).alive then s
  else
    let s := s.setIsGPU hostPid isGPU
    if c.isLimitMaximumOfRenderProcess ∧ s.childNumLimit hostPid ≤ records.card then s
    else match s.generateRenderUid c with
      | none => s
      | some uid => s.enterRender hostPid uid

def modify (pid : ℕ) (f : RenderRecord → RenderRecord) : AppMgrServiceInner :=
  { s with renders := Function.update s.renders pid (f (s.renders pid)) }

def eraseUid (uid : ℕ) : AppMgrServiceInner :=
  { s with renderUidSet := s.renderUidSet.erase uid }

def startProcessDone (pid : ℕ) (succeeded : Bool) : AppMgrServiceInner :=
  if (s.renders pid).stage ≠ .spawning then s
  else if succeeded then s.modify pid ({ · with stage := .spawned, alive := true })
  else (s.modify pid ({ · with stage := .unlisted })).eraseUid (s.renders pid).uid

/-- The map of the host has the uids for keys, and keeps the record that it has. -/
def addRenderRecord (pid : ℕ) : AppMgrServiceInner :=
  let r := s.renders pid
  if r.stage ≠ .spawned then s
  else if ∃ pid' ∈ s.renderRecordMap r.hostPid, (s.renders pid').uid = r.uid then
    s.modify pid ({ · with stage := .unlisted })
  else s.modify pid ({ · with stage := .listed })

def attachRenderProcess (pid : ℕ) : AppMgrServiceInner :=
  let r := s.renders pid
  if r.alive ∧ r.stage = .listed ∧ r.hostPid ∉ s.gone then
    s.modify pid ({ · with scheduler := true })
  else s

def isFound (r : RenderRecord) : Bool :=
  r.stage = .listed ∧ r.scheduler ∧ r.hostPid ∉ s.gone

def renderDied (pid : ℕ) : AppMgrServiceInner :=
  let r := s.renders pid
  if !r.alive then s
  else if s.isFound r then
    (s.modify pid ({ · with alive := false, stage := .unlisted })).eraseUid r.uid
  else s.modify pid ({ · with alive := false })

def killRenderProcess (hostPid : ℕ) : AppMgrServiceInner :=
  if hostPid ∈ s.gone ∧ hostPid ∉ s.killed then
    { s with
      killed := insert hostPid s.killed
      toKill := s.toKill ∪ s.renderRecordMap hostPid }
  else s

def killProcessByPid (pid : ℕ) : AppMgrServiceInner :=
  if pid ∈ s.toKill then
    ({ s with toKill := s.toKill.erase pid }.modify pid ({ · with alive := false })).eraseUid
      (s.renders pid).uid
  else s

inductive Op
  | startRenderProcess (hostPid : ℕ) (isGPU : Bool)
  | startProcessDone (pid : ℕ) (succeeded : Bool)
  | addRenderRecord (pid : ℕ)
  | attachRenderProcess (pid : ℕ)
  | renderDied (pid : ℕ)
  | onRemoteDied (hostPid : ℕ)
  | killRenderProcess (hostPid : ℕ)
  | killProcessByPid (pid : ℕ)

def step (s : AppMgrServiceInner) : Op → AppMgrServiceInner
  | .startRenderProcess hostPid isGPU => s.startRenderProcess c hostPid isGPU
  | .startProcessDone pid succeeded => s.startProcessDone pid succeeded
  | .addRenderRecord pid => s.addRenderRecord pid
  | .attachRenderProcess pid => s.attachRenderProcess pid
  | .renderDied pid => s.renderDied pid
  | .onRemoteDied hostPid => { s with gone := insert hostPid s.gone }
  | .killRenderProcess hostPid => s.killRenderProcess hostPid
  | .killProcessByPid pid => s.killProcessByPid pid

def run (ops : List Op) : AppMgrServiceInner := ops.foldl (step c) (init c)

def Holds (pid uid : ℕ) : Prop :=
  (s.renders pid).isHeld = true ∧ (s.renders pid).uid = uid

structure Exact : Prop where
  apart : ∀ pid pid' uid, s.Holds pid uid → s.Holds pid' uid → pid = pid'
  mem_iff : ∀ uid, uid ∈ s.renderUidSet ↔ ∃ pid, s.Holds pid uid

structure Isolated (c : Config) (s : AppMgrServiceInner) : Prop extends Exact s where
  full : s.generateRenderUid c = none →
    ∀ uid, c.startUid ≤ uid → uid ≤ c.endUid → ∃ pid, s.Holds pid uid

def deathFits : Op → Bool
  | .renderDied pid => !(s.renders pid).alive || s.isFound (s.renders pid)
  | _ => true

end

variable {c : Config} {s s' : AppMgrServiceInner} {pid uid : ℕ}

section
variable {first last : ℕ}

lemma mem_of_scan_eq_none (h : s.scan first last = none) (hfirst : first ≤ uid)
    (hlast : uid ≤ last) : uid ∈ s.renderUidSet := by
  have hmem : uid ∈ List.range' first (last + 1 - first) := by
    rw [List.mem_range'_1]
    omega
  simpa using List.find?_eq_none.mp h uid hmem

lemma not_mem_of_scan (h : s.scan first last = some uid) : uid ∉ s.renderUidSet := by
  have hfound := List.find?_some h
  simpa using hfound

end

theorem mem_of_generateRenderUid_eq_none (h : s.generateRenderUid c = none)
    (hstart : c.startUid ≤ uid) (hend : uid ≤ c.endUid) : uid ∈ s.renderUidSet := by
  unfold generateRenderUid at h
  split at h
  · cases h
  obtain ⟨hfirst, hsecond⟩ := Option.or_eq_none_iff.mp h
  by_cases hlast : s.lastRenderUid + 1 ≤ c.endUid
  · simp only [hlast] at hfirst hsecond
    rcases Nat.lt_or_ge s.lastRenderUid uid with hlt | hge
    · exact mem_of_scan_eq_none hfirst hlt hend
    · exact mem_of_scan_eq_none hsecond hstart hge
  · simp only [hlast] at hfirst
    exact mem_of_scan_eq_none hfirst hstart hend

lemma not_mem_of_generateRenderUid (h : s.generateRenderUid c = some uid) :
    uid ∉ s.renderUidSet := by
  unfold generateRenderUid at h
  split at h
  · rename_i hempty
    simp [hempty]
  rcases Option.or_eq_some_iff.mp h with hscan | ⟨-, hscan⟩
  · exact not_mem_of_scan hscan
  · split at hscan
    · exact not_mem_of_scan hscan
    · cases hscan

lemma Exact.isolated (h : Exact s) : Isolated c s :=
  ⟨h, fun hnone _ hstart hend =>
    (h.mem_iff _).mp (mem_of_generateRenderUid_eq_none hnone hstart hend)⟩

structure Sound (s : AppMgrServiceInner) (pid : ℕ) (r : RenderRecord) : Prop where
  spawning : r.stage = .spawning → r.alive = false
  spawned : r.stage = .spawned → r.alive = true
  listed : r.stage = .listed → r.hostPid ∉ s.killed → r.alive = true
  toKill : pid ∈ s.toKill → r.stage = .listed ∧ r.alive = true ∧ r.hostPid ∈ s.killed
  made : s.nextPid ≤ pid → r.stage = .unlisted ∧ r.alive = false

structure Tracked (s : AppMgrServiceInner) : Prop extends Exact s where
  sound : ∀ pid, Sound s pid (s.renders pid)
  gone : s.killed ⊆ s.gone

lemma tracked_init (c : Config) : Tracked (init c) where
  apart _ _ _ h := nomatch h.1
  mem_iff uid := ⟨fun h => absurd h (notMem_empty uid), fun ⟨_, h⟩ => nomatch h.1⟩
  sound _ := ⟨nofun, nofun, nofun, fun h => absurd h (notMem_empty _), fun _ => ⟨rfl, rfl⟩⟩
  gone := Finset.Subset.refl _

lemma Exact.congr (h : Exact s) (hset : s'.renderUidSet = s.renderUidSet)
    (hholds : ∀ pid uid, s'.Holds pid uid ↔ s.Holds pid uid) : Exact s' where
  apart pid pid' uid hp hp' := h.apart pid pid' uid ((hholds _ _).mp hp) ((hholds _ _).mp hp')
  mem_iff uid := by
    rw [hset, h.mem_iff]
    exact exists_congr fun pid => (hholds pid uid).symm

variable {f : RenderRecord → RenderRecord}

lemma holds_modify (huid : (f (s.renders pid)).uid = (s.renders pid).uid) (pid' uid : ℕ) :
    (s.modify pid f).Holds pid' uid ↔
      (if pid' = pid then (f (s.renders pid)).isHeld else (s.renders pid').isHeld) = true ∧
        (s.renders pid').uid = uid := by
  simp only [Holds, modify, update_apply]
  split_ifs with hp
  · rw [huid, hp]
  · rfl

section
variable (h : Tracked s)
include h

section
variable (hf : Sound s pid (f (s.renders pid)))
include hf

lemma Tracked.sound_modify (pid' : ℕ) : Sound s pid' ((s.modify pid f).renders pid') := by
  simp only [modify, update_apply]
  split_ifs with hp
  · rwa [hp]
  · exact h.sound pid'

lemma Tracked.keep (huid : (f (s.renders pid)).uid = (s.renders pid).uid)
    (hheld : (f (s.renders pid)).isHeld = (s.renders pid).isHeld) : Tracked (s.modify pid f) where
  toExact := h.toExact.congr rfl fun pid' uid => by
    rw [holds_modify huid, hheld]
    split_ifs with hp
    · rw [hp]
      rfl
    · rfl
  sound pid' := have hr := h.sound_modify hf pid'
    { hr with }
  __ := h

lemma Tracked.release (huid : (f (s.renders pid)).uid = (s.renders pid).uid)
    (hheld : (s.renders pid).isHeld = true) (hfree : (f (s.renders pid)).isHeld = false) :
    Tracked ((s.modify pid f).eraseUid (s.renders pid).uid) := by
  have hholds (pid' uid : ℕ) :
      ((s.modify pid f).eraseUid (s.renders pid).uid).Holds pid' uid ↔
        pid' ≠ pid ∧ s.Holds pid' uid := by
    refine (holds_modify huid pid' uid).trans ?_
    rw [hfree]
    split_ifs with hp
    · simp [hp]
    · simp [hp, Holds]
  refine ⟨⟨fun p p' uid hp hp' => h.apart p p' uid ((hholds _ _).mp hp).2 ((hholds _ _).mp hp').2,
    fun uid => ?_⟩, fun pid' => ?_, h.gone⟩
  · rw [eraseUid, mem_erase]
    constructor
    · rintro ⟨hne, hmem⟩
      obtain ⟨p, hp⟩ := (h.mem_iff uid).mp hmem
      refine ⟨p, (hholds _ _).mpr ⟨?_, hp⟩⟩
      rintro rfl
      exact hne hp.2.symm
    · rintro ⟨p, hp⟩
      obtain ⟨hne, hp⟩ := (hholds _ _).mp hp
      refine ⟨?_, (h.mem_iff uid).mpr ⟨p, hp⟩⟩
      rintro rfl
      exact hne (h.apart p pid _ hp ⟨hheld, rfl⟩)
  · have hr := h.sound_modify hf pid'
    exact { hr with }

end

lemma Tracked.hosts {isGPU toKill gone : Finset ℕ} (hkill : toKill ⊆ s.toKill)
    (hgone : s.gone ⊆ gone) : Tracked { s with isGPU, toKill, gone } where
  toExact := h.toExact.congr rfl fun _ _ => .rfl
  sound pid := have hr := h.sound pid
    ⟨hr.1, hr.2, hr.3, fun hp => hr.4 (hkill hp), hr.5⟩
  gone := h.gone.trans hgone

protected lemma Tracked.enterRender (hnew : uid ∉ s.renderUidSet) (hostPid : ℕ) :
    Tracked (s.enterRender hostPid uid) := by
  have hholds (pid u : ℕ) : (s.enterRender hostPid uid).Holds pid u ↔
      if pid = s.nextPid then uid = u else s.Holds pid u := by
    simp only [Holds, enterRender, update_apply]
    split_ifs
    · simp
    · rfl
  have hfree (pid : ℕ) : ¬ s.Holds pid uid := fun hp => hnew ((h.mem_iff uid).mpr ⟨pid, hp⟩)
  refine ⟨⟨fun pid pid' u hp hp' => ?_, fun u => ?_⟩, fun pid => ?_, h.gone⟩
  · rw [hholds] at hp hp'
    split_ifs at hp hp' with h₁ h₂ h₂
    · rw [h₁, h₂]
    · exact absurd (hp ▸ hp') (hfree pid')
    · exact absurd (hp' ▸ hp) (hfree pid)
    · exact h.apart pid pid' u hp hp'
  · have hnext : ¬ s.Holds s.nextPid u := fun hp => by
      have hr := (h.sound s.nextPid).made le_rfl
      simp [Holds, hr] at hp
    simp only [hholds]
    rw [enterRender, mem_insert, h.mem_iff]
    constructor
    · rintro (rfl | ⟨pid, hp⟩)
      · exact ⟨s.nextPid, by simp⟩
      · have hne : pid ≠ s.nextPid := by
          rintro rfl
          exact hnext hp
        exact ⟨pid, by rwa [if_neg hne]⟩
    · rintro ⟨pid, hp⟩
      split_ifs at hp
      · exact .inl hp.symm
      · exact .inr ⟨pid, hp⟩
  · simp only [enterRender, update_apply]
    have hr := h.sound pid
    split_ifs with hp
    · refine ⟨fun _ => rfl, nofun, nofun, fun hkill => ?_, fun hle => absurd hle (by simp [hp])⟩
      have halive := (hr.toKill hkill).2.1
      rw [(hr.made hp.ge).2] at halive
      cases halive
    · exact ⟨hr.1, hr.2, hr.3, hr.4, fun hle => hr.made (Nat.le_of_succ_le hle)⟩

protected lemma Tracked.startRenderProcess (hostPid : ℕ) (isGPU : Bool) :
    Tracked (s.startRenderProcess c hostPid isGPU) := by
  have hgpu : Tracked (s.setIsGPU hostPid isGPU) :=
    h.hosts (Finset.Subset.refl _) (Finset.Subset.refl _)
  unfold startRenderProcess
  dsimp only
  split
  · exact h
  split
  · exact h
  split
  · exact hgpu
  split
  · exact hgpu
  · rename_i hgen
    exact hgpu.enterRender (not_mem_of_generateRenderUid hgen) hostPid

end

lemma Sound.busy {r : RenderRecord} (h : Sound s pid r)
    (hstage : r.stage = .spawning ∨ r.stage = .spawned) : pid ∉ s.toKill ∧ ¬ s.nextPid ≤ pid := by
  constructor
  · intro hp
    rw [(h.toKill hp).1] at hstage
    simp at hstage
  · intro hle
    rw [(h.made hle).1] at hstage
    simp at hstage

section
variable (h : Tracked s)
include h

variable (pid)

protected lemma Tracked.startProcessDone (succeeded : Bool) :
    Tracked (s.startProcessDone pid succeeded) := by
  unfold startProcessDone
  split
  · exact h
  rename_i hstage
  rw [not_not] at hstage
  obtain ⟨hkill, hmade⟩ := (h.sound pid).busy (.inl hstage)
  have hheld : (s.renders pid).isHeld = true := by simp [hstage]
  split
  · exact h.keep ⟨nofun, fun _ => rfl, nofun, (absurd · hkill), (absurd · hmade)⟩ rfl hheld.symm
  · exact h.release ⟨nofun, nofun, nofun, (absurd · hkill), (absurd · hmade)⟩ rfl hheld
      ((h.sound pid).spawning hstage)

protected lemma Tracked.addRenderRecord : Tracked (s.addRenderRecord pid) := by
  unfold addRenderRecord
  dsimp only
  split
  · exact h
  rename_i hstage
  rw [not_not] at hstage
  obtain ⟨hkill, hmade⟩ := (h.sound pid).busy (.inr hstage)
  have halive := (h.sound pid).spawned hstage
  split
  · refine h.keep ⟨nofun, nofun, nofun, (absurd · hkill), (absurd · hmade)⟩ rfl ?_
    simp [hstage]
  · refine h.keep ⟨nofun, nofun, fun _ _ => halive, (absurd · hkill), (absurd · hmade)⟩ rfl ?_
    simp [hstage]

protected lemma Tracked.attachRenderProcess : Tracked (s.attachRenderProcess pid) := by
  unfold attachRenderProcess
  dsimp only
  split
  · have hr := h.sound pid
    exact h.keep { hr with } rfl rfl
  · exact h

protected lemma Tracked.killRenderProcess (hostPid : ℕ) :
    Tracked (s.killRenderProcess hostPid) := by
  unfold killRenderProcess
  split_ifs with hhost
  · refine ⟨h.toExact.congr rfl fun _ _ => .rfl, fun pid => ?_, insert_subset hhost.1 h.gone⟩
    have hr := h.sound pid
    refine ⟨hr.1, hr.2, fun hstage hk => hr.listed hstage fun hin => ?_, fun hp => ?_, hr.5⟩
    · exact hk (mem_insert_of_mem hin)
    rcases mem_union.mp hp with hp | hp
    · obtain ⟨hstage, halive, hkilled⟩ := hr.toKill hp
      exact ⟨hstage, halive, mem_insert_of_mem hkilled⟩
    · obtain ⟨-, rfl, hstage⟩ := mem_filter.mp hp
      exact ⟨hstage, hr.listed hstage hhost.2, mem_insert_self _ _⟩
  · exact h

protected lemma Tracked.killProcessByPid : Tracked (s.killProcessByPid pid) := by
  unfold killProcessByPid
  split_ifs with hkill
  · obtain ⟨hstage, halive, hkilled⟩ := (h.sound pid).toKill hkill
    have hless : Tracked { s with toKill := s.toKill.erase pid } :=
      h.hosts (erase_subset _ _) (Finset.Subset.refl _)
    refine hless.release ⟨fun _ => rfl, fun hs => ?_, fun _ hk => absurd hkilled hk,
      fun hp => absurd hp (notMem_erase _ _), fun hle => ?_⟩ rfl ?_ ?_
    · exact nomatch hstage.symm.trans hs
    · exact nomatch hstage.symm.trans ((h.sound pid).made hle).1
    · simp [halive]
    · simp [hstage]
  · exact h

protected theorem Tracked.renderDied (hfits : s.deathFits (.renderDied pid) = true) :
    Tracked (s.renderDied pid) := by
  unfold renderDied
  dsimp only
  split
  · exact h
  rename_i halive
  have halive : (s.renders pid).alive = true := by simpa using halive
  have hfound : s.isFound (s.renders pid) = true := by simpa [deathFits, halive] using hfits
  rw [if_pos hfound]
  obtain ⟨-, -, hgone⟩ : _ ∧ _ ∧ (s.renders pid).hostPid ∉ s.gone := of_decide_eq_true hfound
  refine h.release ⟨fun _ => rfl, nofun, nofun, fun hp => ?_, fun _ => ⟨rfl, rfl⟩⟩ rfl ?_ rfl
  · exact absurd (h.gone ((h.sound pid).toKill hp).2.2) hgone
  · simp [halive]

lemma Tracked.deathFits_of_exact (hexact : Exact (s.renderDied pid)) :
    s.deathFits (.renderDied pid) = true := by
  by_contra hnot
  obtain ⟨halive, hlost⟩ : (s.renders pid).alive = true ∧ s.isFound (s.renders pid) = false := by
    simpa [deathFits] using hnot
  have hdied : s.renderDied pid = s.modify pid ({ · with alive := false }) := by
    simp [renderDied, halive, hlost]
  have hold : s.Holds pid (s.renders pid).uid := ⟨by simp [halive], rfl⟩
  rw [hdied] at hexact
  obtain ⟨pid', hp⟩ := (hexact.mem_iff _).mp ((h.mem_iff _).mpr ⟨pid, hold⟩)
  rw [holds_modify rfl] at hp
  split_ifs at hp with heq
  · have hstage : (s.renders pid).stage = .spawning := by simpa using hp.1
    rw [(h.sound pid).spawning hstage] at halive
    cases halive
  · exact heq (h.apart pid' pid _ hp hold)

lemma Tracked.step {op : Op} (hfits : s.deathFits op = true) : Tracked (s.step c op) := by
  cases op with
  | startRenderProcess hostPid isGPU => exact h.startRenderProcess hostPid isGPU
  | startProcessDone pid succeeded => exact h.startProcessDone pid succeeded
  | addRenderRecord pid => exact h.addRenderRecord pid
  | attachRenderProcess pid => exact h.attachRenderProcess pid
  | renderDied pid => exact h.renderDied pid hfits
  | onRemoteDied hostPid => exact h.hosts (Finset.Subset.refl _) (subset_insert _ _)
  | killRenderProcess hostPid => exact h.killRenderProcess hostPid
  | killProcessByPid pid => exact h.killProcessByPid pid

end

theorem run_isolated_iff (c : Config) (ops : List Op) : (∀ n, Isolated c (run c (ops.take n))) ↔
      Runs.Guarded (step c) (fun s op => s.deathFits op = true) (init c) ops := by
  refine Runs.guarded_iff_forall_take_of (fun s op hs hok => hs.step hok)
    (fun s op hs hnext => ?_) (fun s hs => hs.toExact.isolated) (tracked_init c) ops
  cases op with
  | renderDied pid => exact hs.deathFits_of_exact pid hnext.toExact
  | _ => rfl

def webConfig : Config := ⟨1000001, 1099999, true, false⟩

theorem diedUnattached_not_isolated : ¬ ∀ ops, Isolated webConfig (run webConfig ops) := by
  intro h
  have hrun := h [.startRenderProcess 7 false, .startProcessDone 0 true, .addRenderRecord 0,
    .renderDied 0]
  obtain ⟨pid, hheld, -⟩ := (hrun.mem_iff 1000002).mp (by decide +kernel)
  cases pid with
  | zero => exact absurd hheld (by decide +kernel)
  | succ pid => exact Bool.false_ne_true hheld

end AppMgrServiceInner
end AbilityRuntime.RenderUid
