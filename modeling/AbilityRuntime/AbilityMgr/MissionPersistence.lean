import AbilityRuntime.Library.LastWrite
import AbilityRuntime.AbilityMgr.MissionInfoMgr
import AbilityRuntime.Library.JsonValue

/-! The mission files on disk. The accepted saves and deletes are tasks of their own and run in any
order. -/

namespace AbilityRuntime
open List LastWrite

abbrev MissionFiles := ℤ → Option InnerMissionInfo

def MissionTask.write : MissionTask → ℤ × Option InnerMissionInfo
  | .save info => (info.id, some info)
  | .delete missionId => (missionId, none)

def MissionFiles.run (files : MissionFiles) (task : MissionTask) : MissionFiles :=
  LastWrite.write files task.write

namespace MissionInfoMgr

def storedFiles (stored : List InnerMissionInfo) : MissionFiles := fun missionId =>
  (stored.filter fun a => !a.isTemporary).find? fun a => a.id = missionId

def lastSave (files : MissionFiles) (tasks : List MissionTask) (missionId : ℤ) :
    Option InnerMissionInfo :=
  tasks.foldl (fun content task =>
    match task with
    | .save info => if info.id = missionId then some info else content
    | .delete _ => content) (files missionId)

def Stored (files₀ files : MissionFiles) (s : MissionInfoMgr) : Prop :=
  ∀ missionId, files missionId =
    if missionId ∈ s.ids then lastSave files₀ s.submitted missionId else none

def Op.Accepted : Op → Prop
  | .addMissionInfo _ saved => saved = true
  | .updateMissionInfo _ saved => saved = true
  | .deleteMissionInfo _ deleted => deleted = true
  | .deleteAllMissionInfos _ deleted => ∀ missionId, deleted missionId = true
  | .updateMissionLabel _ _ saved => saved = true
  | .handleUnInstallApp _ _ _ deleted => ∀ n, deleted n = true
  | _ => True

def inOrder (files₀ : MissionFiles) (s : MissionInfoMgr) : MissionFiles :=
  s.submitted.foldl MissionFiles.run files₀

section Effects
variable {files₀ : MissionFiles} {s s' : MissionInfoMgr}

lemma Stored.same (h : Stored files₀ (inOrder files₀ s) s) (htasks : s'.submitted = s.submitted)
    (hids : ∀ k, k ∈ s'.ids ↔ k ∈ s.ids) : Stored files₀ (inOrder files₀ s') s' := by
  intro k
  rw [inOrder, htasks, if_congr (hids k) rfl rfl]
  exact h k

lemma lastSave_append_save (tasks : List MissionTask) (info : InnerMissionInfo) (k : ℤ) :
    lastSave files₀ (tasks ++ [.save info]) k =
      if info.id = k then some info else lastSave files₀ tasks k := by
  rw [lastSave, foldl_concat]
  rfl

lemma lastSave_append_delete (tasks : List MissionTask) (missionId k : ℤ) :
    lastSave files₀ (tasks ++ [.delete missionId]) k = lastSave files₀ tasks k := by
  rw [lastSave, foldl_concat]
  rfl

section
variable (h : Stored files₀ (inOrder files₀ s) s)
include h

lemma Stored.save {info : InnerMissionInfo} (htasks : s'.submitted = s.submitted ++ [.save info])
    (hids : ∀ k, k ∈ s'.ids ↔ k = info.id ∨ k ∈ s.ids) :
    Stored files₀ (inOrder files₀ s') s' := by
  intro k
  rw [inOrder, htasks, foldl_concat, lastSave_append_save, if_congr (hids k) rfl rfl,
    MissionFiles.run, MissionTask.write, write]
  by_cases hk : k = info.id
  · rw [if_pos hk.symm, if_pos (.inl hk), hk, Function.update_self]
  · rw [if_neg (Ne.symm hk), Function.update_of_ne hk, if_congr (or_iff_right hk) rfl rfl]
    exact h k

lemma Stored.delete {missionId : ℤ} (htasks : s'.submitted = s.submitted ++ [.delete missionId])
    (hids : ∀ k, k ∈ s'.ids ↔ k ≠ missionId ∧ k ∈ s.ids) :
    Stored files₀ (inOrder files₀ s') s' := by
  intro k
  rw [inOrder, htasks, foldl_concat, lastSave_append_delete, if_congr (hids k) rfl rfl,
    MissionFiles.run, MissionTask.write, write]
  by_cases hk : k = missionId
  · rw [hk, Function.update_self, if_neg fun hne => hne.1 rfl]
  · rw [Function.update_of_ne hk, if_congr (and_iff_right hk) rfl rfl]
    exact h k

protected lemma Stored.addMissionInfoInner (info : InnerMissionInfo) :
    Stored files₀ (inOrder files₀ (s.addMissionInfoInner info true).2)
      (s.addMissionInfoInner info true).2 := by
  rw [addMissionInfoInner]
  split_ifs with hsaved hok
  · exact h
  · exact h
  · refine h.save rfl fun k => ?_
    have hperm := (insertByTime_perm info s.missionInfoList).map InnerMissionInfo.id
    rw [ids, hperm.mem_iff, map_cons, mem_cons, ids]

end

protected lemma Stored.updateMissionInfo (hb : Booked s) (h : Stored files₀ (inOrder files₀ s) s)
    (info : InnerMissionInfo) :
    Stored files₀ (inOrder files₀ (s.updateMissionInfo info true).2)
      (s.updateMissionInfo info true).2 := by
  rw [updateMissionInfo]
  by_cases hsaved : s.missionIdMap.find? info.id ≠ some true
  · rw [if_pos hsaved]
    exact h
  · rw [if_neg hsaved]
    have hmem : info.id ∈ s.ids := (hb.saved info.id).mp (not_not.mp hsaved)
    cases hold : s.missionInfoList.find? fun a => a.id = info.id with
    | none => exact h
    | some old =>
      dsimp only
      by_cases htime : info.time = old.time
      · rw [if_pos htime]
        refine h.save rfl fun k => ?_
        change
          k ∈ (replaceById info.id (fun _ => info) s.missionInfoList).map InnerMissionInfo.id ↔ _
        rw [map_id_of_keys (map_key_replaceById_const hold htime)]
        exact ⟨.inr, fun hk => hk.elim (fun hk => hk ▸ hmem) id⟩
      · rw [if_neg htime]
        have hfree : (s.missionIdMap.erase info.id).find? info.id ≠ some true := by
          rw [SortedMap.find?_erase]
          simp
        rw [addMissionInfoInner, if_neg hfree, if_neg (by simp)]
        refine h.save rfl fun k => ?_
        have hperm := (insertByTime_perm info (s.missionInfoList.eraseP fun a =>
          a.id = info.id)).map InnerMissionInfo.id
        rw [ids, hperm.mem_iff, map_cons, mem_cons, map_id_eraseP, ← ids, hb.nodup.mem_erase_iff]
        by_cases hk : k = info.id
        · exact iff_of_true (.inl hk) (.inl hk)
        · rw [or_iff_right hk, or_iff_right hk, and_iff_right hk]

lemma Stored.remove (hb : Booked s) (h : Stored files₀ (inOrder files₀ s) s) {missionId : ℤ}
    (hlist : s'.missionInfoList = s.missionInfoList.eraseP fun a => a.id = missionId)
    (htasks : s'.submitted = s.submitted ++ [.delete missionId]) :
    Stored files₀ (inOrder files₀ s') s' := by
  refine h.delete htasks fun k => ?_
  rw [ids, hlist, map_id_eraseP, ← ids, hb.nodup.mem_erase_iff]

protected lemma Stored.deleteMissionInfo (hb : Booked s) (h : Stored files₀ (inOrder files₀ s) s)
    (missionId : ℤ) :
    Stored files₀ (inOrder files₀ (s.deleteMissionInfo missionId true).2)
      (s.deleteMissionInfo missionId true).2 := by
  rw [deleteMissionInfo]
  split
  · exact h
  · exact h.same rfl fun k => .rfl
  · exact h.remove hb rfl rfl

lemma stored_step (hb : Booked s) (h : Stored files₀ (inOrder files₀ s) s) {op : Op}
    (hop : op.Accepted) : Stored files₀ (inOrder files₀ (step s op)) (step s op) := by
  cases op with
  | generateMissionId =>
    rw [step, generateMissionId]
    split
    · exact h.same rfl fun k => .rfl
    · exact h.same rfl fun k => .rfl
  | addMissionInfo info saved =>
    obtain rfl : saved = true := hop
    exact h.addMissionInfoInner info
  | updateMissionInfo info saved =>
    obtain rfl : saved = true := hop
    exact h.updateMissionInfo hb info
  | deleteMissionInfo missionId deleted =>
    obtain rfl : deleted = true := hop
    exact h.deleteMissionInfo hb missionId
  | deleteAllMissionInfos background deleted =>
    -- both invariants are carried through the loop
    refine (foldlRecOn (motive := fun s => Booked s ∧ Stored files₀ (inOrder files₀ s) s) _ _
      ⟨hb, h⟩ fun s hs info _ => ⟨hs.1.remove info.id rfl rfl, hs.2.remove hs.1 rfl ?_⟩).2
    rw [deleteOne, if_pos (hop info.id)]
  | updateMissionLabel missionId label saved =>
    obtain rfl : saved = true := hop
    rw [step, updateMissionLabel]
    cases hold : s.missionInfoList.find? fun a => a.id = missionId with
    | none => exact h
    | some old =>
      refine h.save rfl fun k => ?_
      have hmem : old.id ∈ s.ids := mem_map_of_mem (mem_of_find?_eq_some hold)
      change k ∈ (replaceById missionId (withLabel label) s.missionInfoList).map
        InnerMissionInfo.id ↔ _
      have hkeys := map_key_replaceById (f := withLabel label)
        fun a (_ : s.missionInfoList.find? (fun a => a.id = missionId) = some a) => rfl
      rw [map_id_of_keys hkeys]
      exact ⟨.inr, fun hk => hk.elim (fun hk => hk ▸ hmem) id⟩
  | updateMissionContinueState missionId state =>
    rw [step, updateMissionContinueState]
    split_ifs
    · exact h
    · refine h.same rfl fun k => ?_
      have hkeys := map_key_replaceById (f := withContinueState state)
        fun a (_ : s.missionInfoList.find? (fun a => a.id = missionId) = some a) => rfl
      rw [ids, map_id_of_keys hkeys, ← ids]
    · exact h
  | handleUnInstallApp bundleName uid missions deleted =>
    refine (foldlRecOn (motive := fun s => Booked s ∧ Stored files₀ (inOrder files₀ s) s) _ _
      ⟨hb, h⟩ fun s hs p _ => ⟨hs.1.deleteMissionInfo p.1 _, ?_⟩).2
    rw [hop p.2]
    exact hs.2.deleteMissionInfo hs.1 p.1

lemma stored_init {stored : List InnerMissionInfo} :
    Stored (storedFiles stored) (inOrder (storedFiles stored) (init stored true))
      (init stored true) := by
  intro k
  change storedFiles stored k = if k ∈ (init stored true).ids then storedFiles stored k else none
  by_cases hk : k ∈ (init stored true).ids
  · rw [if_pos hk]
  · rw [if_neg hk]
    refine find?_eq_none.mpr fun a ha => ?_
    have hmem : a ∈ (init stored true).missionInfoList := (mem_insertionSort _).mpr ha
    have hne : a.id ≠ k := fun heq => hk (heq ▸ mem_map_of_mem hmem)
    simpa using hne

end Effects

theorem files_stored_iff {stored : List InnerMissionInfo}
    (hstored : (stored.map InnerMissionInfo.id).Nodup) {ops : List Op}
    (hops : ∀ op ∈ ops, op.Accepted) {order : List MissionTask}
    (horder : order.Perm (ops.foldl step (init stored true)).submitted) :
    Stored (storedFiles stored) (order.foldl MissionFiles.run (storedFiles stored))
        (ops.foldl step (init stored true)) ↔
      ∀ missionId, LastWrite.last missionId (order.map MissionTask.write) =
        LastWrite.last missionId
          ((ops.foldl step (init stored true)).submitted.map MissionTask.write) := by
  have hinv : Booked (ops.foldl step (init stored true)) ∧
      Stored (storedFiles stored) (inOrder (storedFiles stored) (ops.foldl step (init stored true)))
        (ops.foldl step (init stored true)) :=
    foldlRecOn (motive := fun s =>
        Booked s ∧ Stored (storedFiles stored) (inOrder (storedFiles stored) s) s) ops step
      ⟨booked_init hstored true, stored_init⟩
      fun s hs op hop => ⟨booked_step hs.1 op, stored_step hs.1 hs.2 (hops op hop)⟩
  have hrun : ∀ tasks : List MissionTask, tasks.foldl .run (storedFiles stored) =
      (tasks.map MissionTask.write).foldl write (storedFiles stored) := by
    intro tasks
    rw [foldl_map]
    rfl
  rw [← foldl_write_eq_iff (horder.map MissionTask.write) (storedFiles stored), ← hrun, ← hrun]
  constructor
  · intro hfiles
    funext k
    rw [hfiles k]
    exact (hinv.2 k).symm
  · intro heq k
    rw [heq]
    exact hinv.2 k

def sampleOps : List Op :=
  [.addMissionInfo (sampleInfo 1 "10") true, .updateMissionInfo (sampleInfo 1 "20") true,
    .deleteMissionInfo 1 true]

theorem sampleOps_stored : (([] : List InnerMissionInfo).map InnerMissionInfo.id).Nodup ∧
    (∀ op ∈ sampleOps, op.Accepted) ∧
    [.save (sampleInfo 1 "20"), .save (sampleInfo 1 "10"), .delete 1].Perm
      (sampleOps.foldl step (init [] true)).submitted ∧
    Stored (storedFiles []) ([.save (sampleInfo 1 "20"), .save (sampleInfo 1 "10"),
      .delete 1].foldl MissionFiles.run (storedFiles []))
      (sampleOps.foldl step (init [] true)) := by
  have hops : ∀ op ∈ sampleOps, op.Accepted := by
    simp [sampleOps, Op.Accepted]
  have hperm : [.save (sampleInfo 1 "20"), .save (sampleInfo 1 "10"), .delete 1].Perm
      (sampleOps.foldl step (init [] true)).submitted := by decide
  have hnodup : ([].map InnerMissionInfo.id).Nodup := nodup_nil
  refine ⟨hnodup, hops, hperm, (files_stored_iff hnodup hops hperm).mpr ?_⟩
  intro missionId
  by_cases hid : 1 = missionId
  · subst hid
    decide
  · have hsub : (sampleOps.foldl step (init [] true)).submitted =
        [.save (sampleInfo 1 "10"), .save (sampleInfo 1 "20"), .delete 1] := by decide
    rw [hsub]
    simp [last, MissionTask.write, sampleInfo, InnerMissionInfo.id, hid]

theorem delete_overtaken :
    (∀ op ∈ [Op.addMissionInfo (sampleInfo 1 "10") true, .deleteMissionInfo 1 true], op.Accepted) ∧
    [.delete 1, .save (sampleInfo 1 "10")].Perm
      ([Op.addMissionInfo (sampleInfo 1 "10") true, .deleteMissionInfo 1 true].foldl step
        (init [] true)).submitted ∧
    ¬ Stored (storedFiles []) ([.delete 1, .save (sampleInfo 1 "10")].foldl MissionFiles.run
      (storedFiles [])) ([Op.addMissionInfo (sampleInfo 1 "10") true,
        .deleteMissionInfo 1 true].foldl step (init [] true)) := by
  refine ⟨by simp [Op.Accepted], by decide, fun h => ?_⟩
  exact absurd (h 1) (by decide)

end MissionInfoMgr

namespace InnerMissionInfo
open MissionInfoMgr
variable (x : InnerMissionInfo)

def toJson : JsonValue := .object
  [("MissionName", .string x.missionName), ("LaunchMode", .integer x.launchMode),
    ("IsTemporary", .bool x.isTemporary), ("BundleName", .string x.bundleName),
    ("StartMethod", .integer x.startMethod), ("Uid", .integer x.uid),
    ("SpecFlag", .string x.specifiedFlag), ("MissionId", .integer x.missionInfo.id),
    ("RunningState", .integer x.missionInfo.runningState),
    ("LockedState", .bool x.missionInfo.lockedState),
    ("Continuable", .bool x.missionInfo.continuable), ("Time", .string x.missionInfo.time),
    ("Label", .string x.missionInfo.label), ("IconPath", .string x.missionInfo.iconPath),
    ("Want", .string x.missionInfo.want), ("hasRecoverInfo", .bool x.hasRecoverInfo)]

def fromJson (value : JsonValue) : Option InnerMissionInfo := do
  return {
    missionName := ← value.stringAt "MissionName"
    launchMode := ← value.numberAt "LaunchMode"
    isTemporary := ← value.boolAt "IsTemporary"
    startMethod := ← value.numberAt "StartMethod"
    bundleName := ← value.stringAt "BundleName"
    uid := ← value.numberAt "Uid"
    specifiedFlag := ← value.stringAt "SpecFlag"
    missionInfo := {
      id := ← value.numberAt "MissionId"
      runningState := ← value.numberAt "RunningState"
      lockedState := ← value.boolAt "LockedState"
      continuable := ← value.boolAt "Continuable"
      time := ← value.stringAt "Time"
      label := ← value.stringAt "Label"
      iconPath := ← value.stringAt "IconPath"
      want := ← value.stringAt "Want"
      abilityState := -1
      unclearable := false
      continueState := 0 }
    hasRecoverInfo := ← value.boolAt "hasRecoverInfo"
    missionAffinity := ""
    collaboratorType := 0 }

/-- Whether the search of `FindReusedMissionInfo` stops at the info; the launch modes are
`SINGLETON`, `STANDARD` and `SPECIFIED` from zero on. -/
def isReused (missionName flag : String) (isFindRecentStandard : Bool) : Bool :=
  missionName = x.missionName &&
    (isFindRecentStandard && x.launchMode = 1 || x.launchMode = 0 ||
      x.launchMode = 2 && flag = x.specifiedFlag)

structure Restored (y : InnerMissionInfo) : Prop where
  fields : y = { x with
    missionAffinity := y.missionAffinity
    collaboratorType := y.collaboratorType
    missionInfo := { x.missionInfo with
      abilityState := y.missionInfo.abilityState
      continueState := y.missionInfo.continueState } }
  reused : y.isReused = x.isReused
  matched : ∀ bundleName uid, y.bundleName = bundleName ∧ y.uid = uid ↔
    x.bundleName = bundleName ∧ x.uid = uid
  cleared : ∀ isBackgroundTaskUid, clearable isBackgroundTaskUid y =
    clearable isBackgroundTaskUid x

lemma fromJson_toJson : fromJson x.toJson = some { x with
    missionAffinity := ""
    collaboratorType := 0
    missionInfo := { x.missionInfo with
      abilityState := -1, unclearable := false, continueState := 0 } } := by
  rfl

theorem restored_iff :
    (∃ y, fromJson x.toJson = some y ∧ x.Restored y) ↔ x.missionInfo.unclearable = false := by
  rw [fromJson_toJson]
  constructor
  · rintro ⟨_, ⟨⟩, h⟩
    exact (congrArg (·.missionInfo.unclearable) h.fields).symm
  · intro h
    obtain ⟨⟨⟩⟩ := x
    cases h
    exact ⟨_, rfl, rfl, rfl, fun _ _ => .rfl, fun _ => rfl⟩

theorem unclearable_not_restored : let info := (sampleInfo 1 "10").missionInfo
    let x := { sampleInfo 1 "10" with missionInfo := { info with unclearable := true } }
    clearable (fun _ => false) x = false ∧
      (fromJson x.toJson).map (clearable fun _ => false) = some true :=
  ⟨rfl, rfl⟩

end InnerMissionInfo

end AbilityRuntime
