import Mathlib.Data.String.Basic
import AbilityRuntime.Library.SortedMap
import AbilityRuntime.Library.Runs

/-! The list of mission infos, newest first, and the map of the mission ids given out (`false`) or
saved (`true`). The persistence manager submits a task for a save or a delete, or answers false. -/

namespace AbilityRuntime
open List SortedMap

structure MissionInfo where
  id : ℤ
  runningState : ℤ
  lockedState : Bool
  continuable : Bool
  time : String
  label : String
  iconPath : String
  want : String
  abilityState : ℤ
  unclearable : Bool
  continueState : ℤ
  deriving DecidableEq

structure InnerMissionInfo where
  missionInfo : MissionInfo
  missionName : String
  missionAffinity : String
  launchMode : ℤ
  startMethod : ℤ
  bundleName : String
  uid : ℤ
  isTemporary : Bool
  specifiedFlag : String
  hasRecoverInfo : Bool
  collaboratorType : ℤ
  deriving DecidableEq

def InnerMissionInfo.id (info : InnerMissionInfo) : ℤ := info.missionInfo.id
def InnerMissionInfo.time (info : InnerMissionInfo) : String := info.missionInfo.time

inductive MissionTask
  | save (info : InnerMissionInfo)
  | delete (missionId : ℤ)
  deriving DecidableEq

def minMissionId : ℤ := 1
def maxMissionId : ℤ := 2147483647

structure MissionInfoMgr where
  missionInfoList : List InnerMissionInfo
  missionIdMap : SortedMap ℤ Bool
  currentMissionId : ℤ
  submitted : List MissionTask

namespace MissionInfoMgr

def firstFree (missionIdMap : SortedMap ℤ Bool) : ℕ → ℤ → Option ℤ
  | 0, _ => none
  | n + 1, index =>
    if missionIdMap.contains index then firstFree missionIdMap n (index + 1) else some index

variable (s : MissionInfoMgr)

def generateMissionId : Option ℤ × MissionInfoMgr :=
  let currentMissionId := if s.currentMissionId = maxMissionId then minMissionId
    else s.currentMissionId
  match firstFree s.missionIdMap (maxMissionId - currentMissionId).toNat currentMissionId with
  | some missionId =>
    (some missionId, { s with
      missionIdMap := s.missionIdMap.assign missionId false
      currentMissionId := missionId + 1 })
  | none => (none, { s with currentMissionId := currentMissionId })

def insertByTime (info : InnerMissionInfo) : List InnerMissionInfo → List InnerMissionInfo
  | [] => [info]
  | a :: l => if a.time < info.time then info :: a :: l else a :: insertByTime info l

variable (info : InnerMissionInfo)

/-- `saved` is the answer of the persistence manager to a save, here and below. -/
def addMissionInfoInner (saved : Bool) : Bool × MissionInfoMgr :=
  if s.missionIdMap.find? info.id = some true then (false, s)
  else if !saved then (false, s)
  else (true, { s with
    missionInfoList := insertByTime info s.missionInfoList
    missionIdMap := s.missionIdMap.assign info.id true
    submitted := s.submitted ++ [.save info] })

def addMissionInfo := addMissionInfoInner

def replaceById (missionId : ℤ) (f : InnerMissionInfo → InnerMissionInfo) :
    List InnerMissionInfo → List InnerMissionInfo
  | [] => []
  | a :: l => if a.id = missionId then f a :: l else a :: replaceById missionId f l

def updateMissionInfo (saved : Bool) : Bool × MissionInfoMgr :=
  if s.missionIdMap.find? info.id ≠ some true then (false, s)
  else
    match s.missionInfoList.find? fun a => a.id = info.id with
    | none => (false, s)
    | some old =>
      if info.time = old.time then
        let s := { s with missionInfoList := replaceById info.id (fun _ => info) s.missionInfoList }
        if saved then (true, { s with submitted := s.submitted ++ [.save info] }) else (false, s)
      else
        let s := { s with
          missionInfoList := s.missionInfoList.eraseP fun a => a.id = info.id
          missionIdMap := s.missionIdMap.erase info.id }
        addMissionInfoInner s info saved

def deleteMissionInfo (missionId : ℤ) (deleted : Bool) : Bool × MissionInfoMgr :=
  match s.missionIdMap.find? missionId with
  | none => (true, s)
  | some false => (true, { s with missionIdMap := s.missionIdMap.erase missionId })
  | some true =>
    if !deleted then (false, s)
    else (true, { s with
      missionInfoList := s.missionInfoList.eraseP fun a => a.id = missionId
      missionIdMap := s.missionIdMap.erase missionId
      submitted := s.submitted ++ [.delete missionId] })

def clearable (isBackgroundTaskUid : ℤ → Bool) (info : InnerMissionInfo) : Bool :=
  !(info.missionInfo.lockedState || isBackgroundTaskUid info.uid ||
    (info.missionInfo.unclearable && info.missionInfo.runningState == 0))

/-- What the loop of `DeleteAllMissionInfos` does with one info that it takes; the answer of the
persistence manager is not looked at. -/
def deleteOne (deleted : ℤ → Bool) (s : MissionInfoMgr) (info : InnerMissionInfo) :
    MissionInfoMgr :=
  { s with
    missionInfoList := s.missionInfoList.eraseP fun a => a.id = info.id
    missionIdMap := s.missionIdMap.erase info.id
    submitted := s.submitted ++ if deleted info.id then [.delete info.id] else [] }

def deleteAllMissionInfos (isBackgroundTaskUid : ℤ → Bool)
    (deleted : ℤ → Bool) : List ℤ × MissionInfoMgr :=
  let taken := s.missionInfoList.filter (clearable isBackgroundTaskUid)
  (taken.map InnerMissionInfo.id, taken.foldl (deleteOne deleted) s)

def withContinueState (state : ℤ) (info : InnerMissionInfo) : InnerMissionInfo :=
  { info with missionInfo := { info.missionInfo with continueState := state } }

def withLabel (label : String) (info : InnerMissionInfo) : InnerMissionInfo :=
  { info with missionInfo := { info.missionInfo with label := label } }

def updateMissionContinueState (missionId state : ℤ) : ℤ × MissionInfoMgr :=
  if missionId ≤ 0 then (-1, s)
  else if s.missionInfoList.any fun a => a.id = missionId then
    (0, { s with
      missionInfoList := replaceById missionId (withContinueState state) s.missionInfoList })
  else (-1, s)

def updateMissionLabel (missionId : ℤ) (label : String) (saved : Bool) : ℤ × MissionInfoMgr :=
  match s.missionInfoList.find? fun a => a.id = missionId with
  | none => (-1, s)
  | some old =>
    let s := { s with
      missionInfoList := replaceById missionId (withLabel label) s.missionInfoList }
    if saved then (0, { s with submitted := s.submitted ++ [.save (withLabel label old)] })
    else (-1, s)

/-- The matched missions are appended to what the caller's list has, and all of them are deleted;
`deleted` are the answers in turn. -/
def handleUnInstallApp (bundleName : String) (uid : ℤ) (missions : List ℤ)
    (deleted : ℕ → Bool) : List ℤ × MissionInfoMgr :=
  let matched := s.missionInfoList.filter fun a => a.bundleName = bundleName ∧ a.uid = uid
  let missions := missions ++ matched.map InnerMissionInfo.id
  (missions, missions.zipIdx.foldl (fun s p => (s.deleteMissionInfo p.1 (deleted p.2)).2) s)

/-- `stored` are the mission files in the order of the directory; the temporary ones are removed
and not loaded. Without a storage nothing is loaded. -/
def init (stored : List InnerMissionInfo) (loaded : Bool) : MissionInfoMgr :=
  let list := if loaded then
      (stored.filter fun a => !a.isTemporary).insertionSort fun a b => b.time ≤ a.time
    else []
  { missionInfoList := list
    missionIdMap := list.foldl (fun m a => m.assign a.id true) SortedMap.empty
    currentMissionId := minMissionId
    submitted := [] }

inductive Op
  | generateMissionId
  | addMissionInfo (info : InnerMissionInfo) (saved : Bool)
  | updateMissionInfo (info : InnerMissionInfo) (saved : Bool)
  | deleteMissionInfo (missionId : ℤ) (deleted : Bool)
  | deleteAllMissionInfos (isBackgroundTaskUid deleted : ℤ → Bool)
  | updateMissionLabel (missionId : ℤ) (label : String) (saved : Bool)
  | updateMissionContinueState (missionId state : ℤ)
  | handleUnInstallApp (bundleName : String) (uid : ℤ) (missions : List ℤ) (deleted : ℕ → Bool)

def step : Op → MissionInfoMgr
  | .generateMissionId => s.generateMissionId.2
  | .addMissionInfo info saved => (s.addMissionInfo info saved).2
  | .updateMissionInfo info saved => (s.updateMissionInfo info saved).2
  | .deleteMissionInfo missionId deleted => (s.deleteMissionInfo missionId deleted).2
  | .deleteAllMissionInfos background deleted => (s.deleteAllMissionInfos background deleted).2
  | .updateMissionLabel missionId label saved => (s.updateMissionLabel missionId label saved).2
  | .updateMissionContinueState missionId state => (s.updateMissionContinueState missionId state).2
  | .handleUnInstallApp bundleName uid missions deleted =>
    (s.handleUnInstallApp bundleName uid missions deleted).2

def ids : List ℤ := s.missionInfoList.map InnerMissionInfo.id

structure Booked (s : MissionInfoMgr) : Prop where
  sorted : s.missionInfoList.Pairwise fun a b => b.time ≤ a.time
  nodup : s.ids.Nodup
  saved : ∀ id, s.missionIdMap.find? id = some true ↔ id ∈ s.ids

lemma insertByTime_perm (l : List InnerMissionInfo) : (insertByTime info l).Perm (info :: l) := by
  induction l with
  | nil => exact .refl _
  | cons a l ih =>
    rw [insertByTime]
    split_ifs
    · exact .refl _
    · exact (ih.cons a).trans (.swap info a l)

variable {l : List InnerMissionInfo}

lemma pairwise_insertByTime (h : l.Pairwise fun a b => b.time ≤ a.time) :
    (insertByTime info l).Pairwise fun a b => b.time ≤ a.time := by
  induction l with
  | nil => exact pairwise_singleton _ info
  | cons a l ih =>
    obtain ⟨ha, hl⟩ := pairwise_cons.mp h
    rw [insertByTime]
    split_ifs with hlt
    · refine pairwise_cons.mpr ⟨fun b hb => ?_, h⟩
      rcases mem_cons.mp hb with rfl | hb
      · exact hlt.le
      · exact (ha b hb).trans hlt.le
    · refine pairwise_cons.mpr ⟨fun b hb => ?_, ih hl⟩
      rcases mem_cons.mp ((insertByTime_perm info l).subset hb) with rfl | hb
      · exact not_lt.mp hlt
      · exact ha b hb

lemma map_id_eraseP (missionId : ℤ) (l : List InnerMissionInfo) :
    (l.eraseP fun a => a.id = missionId).map InnerMissionInfo.id =
      (l.map InnerMissionInfo.id).erase missionId := by
  induction l with
  | nil => rfl
  | cons a l ih =>
    by_cases ha : a.id = missionId
    · rw [eraseP_cons_of_pos (by simpa using ha), map_cons, ha, erase_cons_head]
    · rw [eraseP_cons_of_neg (by simpa using ha), map_cons, map_cons, ih,
        erase_cons_tail (by simpa using ha)]

def InnerMissionInfo.key : ℤ × String := (info.id, info.time)

lemma map_key_replaceById {missionId : ℤ} {f : InnerMissionInfo → InnerMissionInfo}
    (hf : ∀ a, l.find? (fun a => a.id = missionId) = some a →
      InnerMissionInfo.key (f a) = InnerMissionInfo.key a) :
    (replaceById missionId f l).map InnerMissionInfo.key = l.map InnerMissionInfo.key := by
  induction l with
  | nil => rfl
  | cons a l ih =>
    rw [replaceById]
    split_ifs with ha
    · have hkey := hf a (find?_cons_of_pos (by simpa using ha))
      rw [map_cons, map_cons, hkey]
    · rw [map_cons, map_cons, ih fun b hb => hf b (by
        rwa [find?_cons_of_neg (by simpa using ha)])]

lemma map_id_of_keys {l' : List InnerMissionInfo}
    (hkeys : l'.map InnerMissionInfo.key = l.map InnerMissionInfo.key) :
    l'.map InnerMissionInfo.id = l.map InnerMissionInfo.id := by
  have hfst := congrArg (map Prod.fst) hkeys
  rwa [map_map, map_map] at hfst

lemma map_key_replaceById_const {info old : InnerMissionInfo}
    (hold : l.find? (fun a => a.id = info.id) = some old) (htime : info.time = old.time) :
    (replaceById info.id (fun _ => info) l).map InnerMissionInfo.key =
      l.map InnerMissionInfo.key := by
  refine map_key_replaceById fun a ha => ?_
  have hid : a.id = info.id := by simpa using find?_some ha
  rw [hold, Option.some.injEq] at ha
  exact Prod.ext hid.symm (htime.trans (congrArg _ ha))

section Booking
variable {s s' : MissionInfoMgr}

lemma Booked.of_keys (h : Booked s) (hkeys : s'.missionInfoList.map InnerMissionInfo.key =
      s.missionInfoList.map InnerMissionInfo.key)
    (hmap : ∀ id, s'.missionIdMap.find? id = some true ↔ s.missionIdMap.find? id = some true) :
    Booked s' := by
  have hids : s'.ids = s.ids := map_id_of_keys hkeys
  have hsorted : (s'.missionInfoList.map InnerMissionInfo.key).Pairwise fun a b => b.2 ≤ a.2 := by
    rw [hkeys]
    exact pairwise_map.mpr h.sorted
  refine ⟨pairwise_map.mp hsorted, hids ▸ h.nodup, fun id => ?_⟩
  rw [hmap, hids]
  exact h.saved id

lemma Booked.remove (h : Booked s) (missionId : ℤ)
    (hlist : s'.missionInfoList = s.missionInfoList.eraseP fun a => a.id = missionId)
    (hmap : s'.missionIdMap = s.missionIdMap.erase missionId) : Booked s' := by
  have hids : s'.ids = s.ids.erase missionId := by rw [ids, hlist, map_id_eraseP, ids]
  refine ⟨?_, ?_, fun id => ?_⟩
  · rw [hlist]
    exact h.sorted.sublist eraseP_sublist
  · rw [hids]
    exact h.nodup.erase missionId
  · rw [hmap, hids, h.nodup.mem_erase_iff, find?_erase]
    split_ifs with hid
    · exact iff_of_false (by simp) fun hmem => hmem.1 hid.symm
    · rw [h.saved, and_iff_right (Ne.symm hid)]

lemma Booked.add (h : Booked s) {info : InnerMissionInfo}
    (hnew : s.missionIdMap.find? info.id ≠ some true)
    (hlist : s'.missionInfoList = insertByTime info s.missionInfoList)
    (hmap : s'.missionIdMap = s.missionIdMap.assign info.id true) : Booked s' := by
  have hids : s'.ids.Perm (info.id :: s.ids) := by
    rw [ids, hlist]
    exact (insertByTime_perm info s.missionInfoList).map InnerMissionInfo.id
  refine ⟨?_, ?_, fun id => ?_⟩
  · rw [hlist]
    exact pairwise_insertByTime info h.sorted
  · have hfresh : ¬ _ := fun hmem => hnew ((h.saved _).mpr hmem)
    exact hids.nodup_iff.mpr (nodup_cons.mpr ⟨hfresh, h.nodup⟩)
  · rw [hmap, hids.mem_iff, mem_cons, find?_assign]
    split_ifs with hid
    · exact iff_of_true rfl (.inl hid.symm)
    · rw [h.saved, or_iff_right (Ne.symm hid)]

lemma firstFree_spec {m : SortedMap ℤ Bool} {n : ℕ} {index missionId : ℤ}
    (h : firstFree m n index = some missionId) :
    m.find? missionId = none ∧ index ≤ missionId ∧ missionId < index + n := by
  induction n generalizing index with
  | zero => cases h
  | succ n ih =>
    rw [firstFree] at h
    split_ifs at h with hc
    · obtain ⟨hfree, hle, hlt⟩ := ih h
      exact ⟨hfree, by omega, by omega⟩
    · rw [Option.some.injEq] at h
      subst h
      exact ⟨contains_eq_false.mp (Bool.eq_false_iff.mpr hc), le_rfl, by omega⟩

section
variable (h : Booked s)
include h

protected lemma Booked.generateMissionId : Booked s.generateMissionId.2 := by
  rw [generateMissionId]
  split
  · rename_i hfree
    refine h.of_keys rfl fun id => ?_
    rw [find?_assign]
    split_ifs with hid
    · rw [← hid, (firstFree_spec hfree).1]
      simp
    · rfl
  · exact h.of_keys rfl fun id => .rfl

protected lemma Booked.addMissionInfoInner (info : InnerMissionInfo)
    (saved : Bool) : Booked (s.addMissionInfoInner info saved).2 := by
  rw [addMissionInfoInner]
  split_ifs with hsaved hok
  · exact h
  · exact h
  · exact h.add hsaved rfl rfl

protected lemma Booked.updateMissionInfo (info : InnerMissionInfo) (saved : Bool) :
    Booked (s.updateMissionInfo info saved).2 := by
  rw [updateMissionInfo]
  by_cases hsaved : s.missionIdMap.find? info.id ≠ some true
  · rw [if_pos hsaved]
    exact h
  · rw [if_neg hsaved]
    cases hold : s.missionInfoList.find? fun a => a.id = info.id with
    | none => exact h
    | some old =>
      dsimp only
      by_cases htime : info.time = old.time
      · have hkeys := map_key_replaceById_const hold htime
        rw [if_pos htime]
        cases saved with
        | false => exact h.of_keys hkeys fun id => .rfl
        | true => exact h.of_keys hkeys fun id => .rfl
      · rw [if_neg htime]
        exact .addMissionInfoInner (h.remove info.id rfl rfl) info saved

protected lemma Booked.deleteMissionInfo (missionId : ℤ) (deleted : Bool) :
    Booked (s.deleteMissionInfo missionId deleted).2 := by
  rw [deleteMissionInfo]
  split
  · exact h
  · rename_i hfind
    refine h.of_keys rfl fun id => ?_
    rw [find?_erase]
    split_ifs with hid
    · rw [← hid, hfind]
      simp
    · rfl
  · split_ifs
    · exact h
    · exact h.remove missionId rfl rfl

lemma booked_step (op : Op) : Booked (step s op) := by
  cases op with
  | generateMissionId => exact h.generateMissionId
  | addMissionInfo info saved => exact h.addMissionInfoInner info saved
  | updateMissionInfo info saved => exact h.updateMissionInfo info saved
  | deleteMissionInfo missionId deleted => exact h.deleteMissionInfo missionId deleted
  | deleteAllMissionInfos background deleted =>
    refine foldlRecOn _ _ h fun s hs info _ => ?_
    exact hs.remove info.id rfl rfl
  | updateMissionLabel missionId label saved =>
    rw [step, updateMissionLabel]
    split
    · exact h
    · cases saved with
      | false => exact h.of_keys (map_key_replaceById fun a _ => rfl) fun id => .rfl
      | true => exact h.of_keys (map_key_replaceById fun a _ => rfl) fun id => .rfl
  | updateMissionContinueState missionId state =>
    rw [step, updateMissionContinueState]
    split_ifs
    · exact h
    · exact h.of_keys (map_key_replaceById fun a _ => rfl) fun id => .rfl
    · exact h
  | handleUnInstallApp bundleName uid missions deleted =>
    refine foldlRecOn _ _ h fun s hs p _ => ?_
    exact hs.deleteMissionInfo p.1 (deleted p.2)

end

lemma find?_foldl_assign (l : List InnerMissionInfo) (m : SortedMap ℤ Bool) (id : ℤ) :
    (l.foldl (fun m a => m.assign a.id true) m).find? id = some true ↔
      m.find? id = some true ∨ id ∈ l.map InnerMissionInfo.id := by
  induction l generalizing m with
  | nil => simp
  | cons a l ih =>
    rw [foldl_cons, ih, find?_assign, map_cons, mem_cons]
    split_ifs with ha
    · exact iff_of_true (.inl rfl) (.inr (.inl ha.symm))
    · rw [or_iff_right (Ne.symm ha)]

lemma booked_init {stored : List InnerMissionInfo}
    (h : (stored.map InnerMissionInfo.id).Nodup) (loaded : Bool) : Booked (init stored loaded) := by
  have hmap : (init stored loaded).missionIdMap =
      (init stored loaded).missionInfoList.foldl (fun m a => m.assign a.id true) .empty := rfl
  have hsaved : ∀ id, (init stored loaded).missionIdMap.find? id = some true ↔
      id ∈ (init stored loaded).ids := by
    intro id
    rw [hmap, find?_foldl_assign, ids]
    simp
  cases loaded with
  | false => exact ⟨.nil, nodup_nil, hsaved⟩
  | true =>
    refine ⟨pairwise_insertionSort _ _, ?_, hsaved⟩
    have hperm := (perm_insertionSort (fun a b : InnerMissionInfo => b.time ≤ a.time)
      (stored.filter fun a => !a.isTemporary)).map InnerMissionInfo.id
    exact hperm.nodup_iff.mpr (h.sublist (filter_sublist.map _))

end Booking

theorem run_booked {stored : List InnerMissionInfo} (h : (stored.map InnerMissionInfo.id).Nodup)
    (loaded : Bool) (ops : List Op) : Booked (ops.foldl step (init stored loaded)) :=
  foldlRecOn ops step (booked_init h loaded) fun _ hs op _ => booked_step hs op

def sampleInfo (id : ℤ) (time : String) : InnerMissionInfo where
  missionInfo := ⟨id, 0, false, false, time, "", "", "", 0, false, 0⟩
  missionName := ""
  missionAffinity := ""
  launchMode := 1
  startMethod := 0
  bundleName := "b"
  uid := 100
  isTemporary := false
  specifiedFlag := ""
  hasRecoverInfo := false
  collaboratorType := 0

theorem touched_booked : ([sampleInfo 1 "10", sampleInfo 2 "20"].map InnerMissionInfo.id).Nodup ∧
    ([.generateMissionId, .updateMissionInfo (sampleInfo 1 "30") true].foldl step
      (init [sampleInfo 1 "10", sampleInfo 2 "20"] true)).ids = [1, 2] ∧
    Booked ([.generateMissionId, .updateMissionInfo (sampleInfo 1 "30") true].foldl step
      (init [sampleInfo 1 "10", sampleInfo 2 "20"] true)) := by
  have hnodup : ([sampleInfo 1 "10", sampleInfo 2 "20"].map InnerMissionInfo.id).Nodup := by
    decide
  exact ⟨hnodup, by decide, run_booked hnodup true _⟩

def Unharmed (r : Bool × MissionInfoMgr) : Prop :=
  r.1 = false → r.2.missionInfoList = s.missionInfoList ∧ r.2.missionIdMap = s.missionIdMap

lemma replaceById_const_eq_self {info old : InnerMissionInfo}
    (h : l.find? (fun a => a.id = info.id) = some old) :
    replaceById info.id (fun _ => info) l = l ↔ old = info := by
  induction l with
  | nil => cases h
  | cons a l ih =>
    rw [replaceById]
    by_cases ha : a.id = info.id
    · rw [find?_cons_of_pos (by simpa using ha), Option.some.injEq] at h
      rw [if_pos ha, h, cons.injEq, and_iff_left rfl, eq_comm]
    · rw [find?_cons_of_neg (by simpa using ha)] at h
      rw [if_neg ha, cons.injEq, and_iff_right rfl, ih h]

lemma unharmed_addMissionInfo (saved : Bool) : s.Unharmed (s.addMissionInfo info saved) := by
  unfold Unharmed addMissionInfo addMissionInfoInner
  split_ifs <;> simp

lemma unharmed_deleteMissionInfo (missionId : ℤ) (deleted : Bool) :
    s.Unharmed (s.deleteMissionInfo missionId deleted) := by
  unfold Unharmed deleteMissionInfo
  split
  · simp
  · simp
  · split_ifs <;> simp

lemma unharmed_updateMissionInfo_iff (saved : Bool) : s.Unharmed (s.updateMissionInfo info saved) ↔
      saved = true ∨ s.missionIdMap.find? info.id ≠ some true ∨
        ∀ old, s.missionInfoList.find? (fun a => a.id = info.id) = some old → old = info := by
  have herased : (s.missionIdMap.erase info.id).find? info.id = none := by
    rw [find?_erase, if_pos rfl]
  unfold Unharmed updateMissionInfo
  by_cases hid : s.missionIdMap.find? info.id = some true
  · have hlost : s.missionIdMap.erase info.id ≠ s.missionIdMap := fun he => by
      rw [he, hid] at herased
      cases herased
    cases hold : s.missionInfoList.find? fun a => a.id = info.id with
    | none => simp
    | some old =>
      by_cases htime : info.time = old.time
      · cases saved <;> simp [hid, htime, replaceById_const_eq_self hold]
      · have hne : old ≠ info := fun he => htime (he ▸ rfl)
        cases saved <;> simp [hid, htime, addMissionInfoInner, herased, hlost, hne]
  · simp [hid]

theorem failed_unharmed_iff (missionId : ℤ) (saved deleted : Bool) :
    s.Unharmed (s.addMissionInfo info saved) ∧ s.Unharmed (s.deleteMissionInfo missionId deleted) ∧
      (s.Unharmed (s.updateMissionInfo info saved) ↔
        saved = true ∨ s.missionIdMap.find? info.id ≠ some true ∨
          ∀ old, s.missionInfoList.find? (fun a => a.id = info.id) = some old → old = info) :=
  ⟨unharmed_addMissionInfo s info saved, unharmed_deleteMissionInfo s missionId deleted,
    unharmed_updateMissionInfo_iff s info saved⟩

theorem failedTouch_loses : ¬ (init [sampleInfo 1 "10"] true).Unharmed
      ((init [sampleInfo 1 "10"] true).updateMissionInfo (sampleInfo 1 "20") false) ∧
    ((init [sampleInfo 1 "10"] true).updateMissionInfo (sampleInfo 1 "20") false).2.ids = [] := by
  refine ⟨fun h => ?_, by decide⟩
  have hsame := congrArg (map InnerMissionInfo.id) (h (by decide)).1
  exact absurd hsame (by decide)

/-- A call, or another `Init`, which loads the missions anew and keeps `currentMissionId_`. -/
inductive Event
  | call (op : Op)
  | init (stored : List InnerMissionInfo) (loaded : Bool)

def happen : Event → MissionInfoMgr
  | .call op => s.step op
  | .init stored loaded =>
    { init stored loaded with currentMissionId := s.currentMissionId, submitted := s.submitted }

variable (events : List Event)

def run : MissionInfoMgr := events.foldl happen (init [] false)

def Free (id : ℤ) : Prop :=
  minMissionId ≤ id ∧ id < maxMissionId ∧ s.missionIdMap.find? id = none

def cursor : ℤ := if s.currentMissionId = maxMissionId then minMissionId else s.currentMissionId

structure Allocates : Prop where
  isSome_iff : s.generateMissionId.1.isSome = true ↔ ∃ id, s.Free id
  free : ∀ id, s.generateMissionId.1 = some id → s.Free id
  reserves : ∀ id, s.generateMissionId.1 = some id → ∀ id',
    s.generateMissionId.2.missionIdMap.find? id' =
      if id = id' then some false else s.missionIdMap.find? id'

lemma isSome_firstFree {m : SortedMap ℤ Bool} {n : ℕ} {index id : ℤ} (hle : index ≤ id)
    (hlt : id < index + n) (hid : m.find? id = none) : (firstFree m n index).isSome = true := by
  induction n generalizing index with
  | zero => omega
  | succ n ih =>
    rw [firstFree]
    split_ifs with hc
    · have hne : index ≠ id := by
        rintro rfl
        rw [contains_eq_false.mpr hid] at hc
        cases hc
      exact ih (by omega) (by omega)
    · rfl

lemma generateMissionId_fst : s.generateMissionId.1 =
    firstFree s.missionIdMap (maxMissionId - s.cursor).toNat s.cursor := by
  unfold generateMissionId cursor
  dsimp only
  split <;> rename_i h <;> exact h.symm

variable {s}

section
variable (hmin : minMissionId ≤ s.cursor)
include hmin

lemma free_generateMissionId {id : ℤ}
    (h : s.generateMissionId.1 = some id) : s.Free id ∧ s.cursor ≤ id := by
  rw [generateMissionId_fst] at h
  obtain ⟨hfree, hle, hlt⟩ := firstFree_spec h
  exact ⟨⟨hmin.trans hle, by omega, hfree⟩, hle⟩

lemma isSome_generateMissionId_iff :
    s.generateMissionId.1.isSome = true ↔ ∃ id, s.cursor ≤ id ∧ s.Free id := by
  constructor
  · intro h
    obtain ⟨id, hid⟩ := Option.isSome_iff_exists.mp h
    obtain ⟨hfree, hle⟩ := free_generateMissionId hmin hid
    exact ⟨id, hle, hfree⟩
  · rintro ⟨id, hle, -, hlt, hnone⟩
    rw [generateMissionId_fst]
    exact isSome_firstFree hle (by omega) hnone

lemma allocates_iff : s.Allocates ↔ ((∃ id, s.Free id) → ∃ id, s.cursor ≤ id ∧ s.Free id) := by
  have hsome := isSome_generateMissionId_iff hmin
  refine ⟨fun h hfree => hsome.mp (h.isSome_iff.mpr hfree), fun h => ⟨?_, ?_, ?_⟩⟩
  · rw [hsome]
    exact ⟨fun ⟨id, _, hid⟩ => ⟨id, hid⟩, h⟩
  · exact fun id hid => (free_generateMissionId hmin hid).1
  · intro id hid id'
    unfold generateMissionId at hid ⊢
    dsimp only at hid ⊢
    split at hid
    · cases hid
      exact find?_assign ..
    · cases hid

end

lemma currentMissionId_addMissionInfoInner (saved : Bool) :
    (s.addMissionInfoInner info saved).2.currentMissionId = s.currentMissionId := by
  unfold addMissionInfoInner
  split_ifs <;> rfl

lemma currentMissionId_deleteMissionInfo (missionId : ℤ) (deleted : Bool) :
    (s.deleteMissionInfo missionId deleted).2.currentMissionId = s.currentMissionId := by
  unfold deleteMissionInfo
  split
  · rfl
  · rfl
  · split_ifs <;> rfl

lemma min_le_cursor (h : minMissionId ≤ s.currentMissionId) : minMissionId ≤ s.cursor := by
  unfold cursor
  split_ifs
  · exact le_rfl
  · exact h

lemma min_le_step (h : minMissionId ≤ s.currentMissionId) (op : Op) :
    minMissionId ≤ (s.step op).currentMissionId := by
  cases op with
  | generateMissionId =>
    have hmin := min_le_cursor h
    unfold step generateMissionId
    dsimp only
    split
    · rename_i hid
      have hle := hmin.trans (firstFree_spec hid).2.1
      exact hle.trans (Int.le_add_one le_rfl)
    · exact hmin
  | addMissionInfo info saved => exact h.trans (currentMissionId_addMissionInfoInner info saved).ge
  | updateMissionInfo info saved =>
    rw [step, updateMissionInfo]
    split
    · exact h
    split
    · exact h
    split
    · split <;> exact h
    · exact h.trans (currentMissionId_addMissionInfoInner info saved).ge
  | deleteMissionInfo missionId deleted =>
    exact h.trans (currentMissionId_deleteMissionInfo missionId deleted).ge
  | deleteAllMissionInfos background deleted =>
    exact foldlRecOn (motive := fun t : MissionInfoMgr => minMissionId ≤ t.currentMissionId)
      _ _ h fun _ hs _ _ => hs
  | updateMissionLabel missionId label saved =>
    rw [step, updateMissionLabel]
    split
    · exact h
    · split_ifs <;> exact h
  | updateMissionContinueState missionId state =>
    rw [step, updateMissionContinueState]
    split_ifs <;> exact h
  | handleUnInstallApp bundleName uid missions deleted =>
    exact foldlRecOn (motive := fun t : MissionInfoMgr => minMissionId ≤ t.currentMissionId)
      _ _ h fun _ hs _ _ => hs.trans (currentMissionId_deleteMissionInfo _ _).ge

lemma min_le_run : minMissionId ≤ (run events).currentMissionId := by
  refine foldlRecOn (motive := fun t : MissionInfoMgr => minMissionId ≤ t.currentMissionId)
    _ _ le_rfl fun s hs e _ => ?_
  cases e with
  | call op => exact min_le_step hs op
  | init stored loaded => exact hs

theorem run_allocates_iff : (run events).Allocates ↔
      ((∃ id, (run events).Free id) → ∃ id, (run events).cursor ≤ id ∧ (run events).Free id) :=
  allocates_iff (min_le_cursor (min_le_run events))

def upToLast (n : ℕ) : List Event :=
  .init [sampleInfo 2147483646 "10"] true ::
    (List.range n).flatMap fun k : ℕ =>
      [.call .generateMissionId, .call (.deleteMissionInfo (k + 1) true)]

lemma run_upToLast {n : ℕ} (h : n ≤ 2147483645) : (run (upToLast n)).currentMissionId = n + 1 ∧
      ∀ id, (run (upToLast n)).missionIdMap.find? id =
        if 2147483646 = id then some true else none := by
  induction n with
  | zero => exact ⟨rfl, fun id => find?_assign _ _ _ _⟩
  | succ n ih =>
    obtain ⟨hcur, hmap⟩ := ih (by omega)
    have hrun : run (upToLast (n + 1)) =
        ((run (upToLast n)).generateMissionId.2.deleteMissionInfo (n + 1) true).2 := by
      rw [run, upToLast, range_succ, flatMap_append, ← cons_append, foldl_append]
      rfl
    have hfree : (run (upToLast n)).missionIdMap.contains (n + 1) = false := by
      rw [contains_eq_false, hmap, if_neg (by omega)]
    obtain ⟨k, hk⟩ : ∃ k, (maxMissionId - (n + 1)).toNat = k + 1 :=
      Nat.exists_eq_add_one.mpr (by unfold maxMissionId; omega)
    have hne : n + 1 ≠ maxMissionId := by omega
    have hgen : (run (upToLast n)).generateMissionId.2 = { run (upToLast n) with
        missionIdMap := (run (upToLast n)).missionIdMap.assign (n + 1) false
        currentMissionId := n + 1 + 1 } := by
      simp only [generateMissionId, hcur, if_neg hne, hk, firstFree, hfree]
      rfl
    have hreserved := find?_assign (run (upToLast n)).missionIdMap (n + 1 : ℤ) (n + 1) false
    rw [if_pos rfl] at hreserved
    rw [hrun, hgen]
    simp only [deleteMissionInfo, hreserved]
    refine ⟨by rfl, fun id => ?_⟩
    rw [find?_erase, find?_assign, hmap]
    by_cases hid : n + 1 = id
    · rw [if_pos hid, if_neg (by omega)]
    · rw [if_neg hid, if_neg hid]

theorem upToLast_not_allocates : ¬ (run (upToLast 2147483645)).Allocates := by
  obtain ⟨hcur, hmap⟩ := run_upToLast le_rfl
  intro h
  have hfree : (run (upToLast 2147483645)).Free 1 := ⟨by decide, by decide, hmap 1⟩
  obtain ⟨id, hle, -, hlt, hnone⟩ := (run_allocates_iff _).mp h ⟨1, hfree⟩
  rw [cursor, hcur, if_neg (by decide)] at hle
  obtain rfl : id = 2147483646 := by unfold maxMissionId at hlt; omega
  rw [hmap] at hnone
  cases hnone

end MissionInfoMgr

structure SnapshotSaves where
  savingSnapshot : SortedMap ℤ UInt32 := .empty
  saves : List (ℤ × Bool) := []

inductive SnapshotOp
  | start (missionId : ℤ) (isPull : Bool)
  | finish (missionId : ℤ) (isPull : Bool)

namespace SnapshotSaves
variable (s : SnapshotSaves) (missionId : ℤ)

def countSnapshot : SortedMap ℤ UInt32 :=
  match s.savingSnapshot.find? missionId with
  | none => s.savingSnapshot.assign missionId 1
  | some savingCount => s.savingSnapshot.assign missionId (savingCount + 1)

def completeSaveSnapshot : SortedMap ℤ UInt32 :=
  match s.savingSnapshot.find? missionId with
  | none => s.savingSnapshot
  | some savingCount =>
    if savingCount - 1 = 0 then s.savingSnapshot.erase missionId
    else s.savingSnapshot.assign missionId (savingCount - 1)

def step : SnapshotOp → SnapshotSaves
  | .start missionId isPull =>
    ⟨if isPull then s.countSnapshot missionId else s.savingSnapshot, (missionId, isPull) :: s.saves⟩
  | .finish missionId isPull =>
    if (missionId, isPull) ∈ s.saves then
      ⟨s.completeSaveSnapshot missionId, s.saves.erase (missionId, isPull)⟩
    else s

def pulls : ℕ := s.saves.count (missionId, true)

def Counts : Option UInt32 → ℕ → Prop
  | none, n => n = 0
  | some savingCount, n => savingCount.toNat = n ∧ n ≠ 0

def Exact : Prop := ∀ missionId, Counts (s.savingSnapshot.find? missionId) (s.pulls missionId)

def Fits : SnapshotOp → Prop
  | .start missionId isPull => isPull = true → s.pulls missionId + 1 < 2 ^ 32
  | .finish missionId isPull => (missionId, isPull) ∈ s.saves → isPull = false →
      s.pulls missionId = 0

variable {s missionId}

lemma find?_countSnapshot (id : ℤ) (hid : missionId ≠ id) :
    (s.countSnapshot missionId).find? id = s.savingSnapshot.find? id := by
  unfold countSnapshot
  split <;> rw [find?_assign, if_neg hid]

lemma find?_completeSaveSnapshot (id : ℤ) (hid : missionId ≠ id) :
    (s.completeSaveSnapshot missionId).find? id = s.savingSnapshot.find? id := by
  unfold completeSaveSnapshot
  split
  · rfl
  split
  · rw [find?_erase, if_neg hid]
  · rw [find?_assign, if_neg hid]

section
variable {m : SortedMap ℤ UInt32} {saves : List (ℤ × Bool)} (h : s.Exact)
include h

lemma exact_iff_counts (hm : ∀ id, missionId ≠ id → m.find? id = s.savingSnapshot.find? id)
    (hsaves : ∀ id, missionId ≠ id → saves.count (id, true) = s.pulls id) :
    Exact ⟨m, saves⟩ ↔ Counts (m.find? missionId) (saves.count (missionId, true)) := by
  refine ⟨fun h' => h' missionId, fun h' id => ?_⟩
  by_cases hid : missionId = id
  · exact hid ▸ h'
  · rw [hm id hid, pulls, hsaves id hid]
    exact h id

lemma counts_countSnapshot : Counts ((s.countSnapshot missionId).find? missionId)
    (s.pulls missionId + 1) ↔ s.pulls missionId + 1 < 2 ^ 32 := by
  have hown := h missionId
  unfold countSnapshot
  cases hfind : s.savingSnapshot.find? missionId with
  | none =>
    rw [hfind] at hown
    simp [Counts, find?_assign, show s.pulls missionId = 0 from hown]
  | some savingCount =>
    rw [hfind] at hown
    simp only [find?_assign, if_true, Counts, UInt32.toNat_add, UInt32.toNat_one, hown.1]
    omega

lemma counts_completeSaveSnapshot (isPull : Bool) :
    Counts ((s.completeSaveSnapshot missionId).find? missionId)
      (s.pulls missionId - if isPull then 1 else 0) ↔
      (isPull = false → s.pulls missionId = 0) := by
  have hown := h missionId
  unfold completeSaveSnapshot
  cases hfind : s.savingSnapshot.find? missionId with
  | none =>
    rw [hfind] at hown
    simp [Counts, hfind, show s.pulls missionId = 0 from hown]
  | some savingCount =>
    rw [hfind] at hown
    have hlt := savingCount.toNat_lt
    have hsub : (savingCount - 1).toNat = s.pulls missionId - 1 := by
      have hcount := hown.1
      have hne := hown.2
      rw [UInt32.toNat_sub, UInt32.toNat_one]
      omega
    have hzero : savingCount - 1 = 0 ↔ s.pulls missionId - 1 = 0 := by
      rw [← hsub, ← UInt32.toNat_inj, UInt32.toNat_zero]
    simp only [hzero]
    split_ifs <;> simp [find?_erase, find?_assign, Counts] <;> grind

lemma exact_step_iff (op : SnapshotOp) : (s.step op).Exact ↔ s.Fits op := by
  cases op with
  | start missionId isPull =>
    cases isPull with
    | false =>
      refine iff_of_true (fun id => ?_) nofun
      have hpulls : (s.step (.start missionId false)).pulls id = s.pulls id := by
        simp [step, pulls]
      rw [hpulls]
      exact h id
    | true =>
      rw [step, if_pos rfl, exact_iff_counts h find?_countSnapshot, count_cons_self]
      · exact (counts_countSnapshot h).trans (imp_iff_right rfl).symm
      · intro id hid
        simp [pulls, hid]
  | finish missionId isPull =>
    rw [step, Fits]
    split_ifs with hmem
    · have hpulls : (s.saves.erase (missionId, isPull)).count (missionId, true) =
          s.pulls missionId - if isPull then 1 else 0 := by
        cases isPull <;> simp [pulls]
      rw [exact_iff_counts h find?_completeSaveSnapshot, hpulls, counts_completeSaveSnapshot h,
        imp_iff_right hmem]
      intro id hid
      rw [count_erase_of_ne (by simp [Ne.symm hid]), pulls]
    · exact iff_of_true h fun hin => absurd hin hmem

end

theorem exact_iff_fits (ops : List SnapshotOp) :
    (∀ n, ((ops.take n).foldl step {}).Exact) ↔ Runs.Guarded step Fits {} ops :=
  Runs.guarded_iff_forall_take (I := Exact) (fun _ op h => exact_step_iff h op)
    (fun _ => by rfl) ops

theorem push_not_exact :
    ¬ ([.start 1 false, .start 1 true, .finish 1 false].foldl step {}).Exact := by
  intro h
  exact absurd (show 1 = 0 from h 1) (by decide)

end SnapshotSaves

end AbilityRuntime
