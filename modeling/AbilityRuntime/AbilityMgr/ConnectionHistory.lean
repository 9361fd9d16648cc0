import AbilityRuntime.AbilityMgr.ConnectionStateManager

/-! What the observers of connections are told: the notifications are a log of the changes of the
two maps, unless a caller is not known. -/

namespace AbilityRuntime
open ChangeLog List SortedMap ConnectedDataAbility ConnectedTarget

namespace ConnectionStateItem
variable {item item' : ConnectionStateItem} {o : Option (ConnectedTarget × ConnectionData)}
  {token : ℕ}

def connection? (item : ConnectionStateItem) : ConnectedTarget → Option ConnectionData
  | .extension token =>
    (item.connectionMap.find? token).map fun e => item.generateConnectionData e.info
  | .dataAbility token =>
    (item.dataAbilityMap.find? token).map fun e => item.generateConnectionData e.info

structure Sound (item : ConnectionStateItem) : Prop where
  connections : ∀ token e, item.connectionMap.find? token = some e → e.connections ≠ []
  callers : ∀ token e, item.dataAbilityMap.find? token = some e → e.callers ≠ []

structure Told (added : Bool) (item : ConnectionStateItem)
    (result : Option (ConnectedTarget × ConnectionData) × ConnectionStateItem) : Prop where
  sound : Sound result.2
  callerPid : result.2.callerPid = item.callerPid
  own : ∀ p ∈ result.1, p.2.callerPid = item.callerPid
  reports : Reports item.connection? result.2.connection?
    (result.1.toList.map fun p => ⟨p.1, p.2, added⟩)

lemma Sound.told (h : Sound item) (added : Bool) : Told added item (none, item) :=
  ⟨h, rfl, fun _ hp => (nomatch hp), .refl fun _ => rfl⟩

section
variable {m : SortedMap ℕ ConnectedExtension} {entry : Option ConnectedExtension}
  (hm : ∀ t, m.find? t = if token = t then entry else item.connectionMap.find? t)
include hm

lemma Sound.extension (h : Sound item) (hentry : ∀ e ∈ entry, e.connections ≠ []) :
    Sound { item with connectionMap := m } := by
  refine ⟨fun token' e he => ?_, h.callers⟩
  rw [hm] at he
  split_ifs at he with htoken
  · exact hentry e he
  · exact h.connections token' e he

lemma connection?_extension (target : ConnectedTarget) :
    ({ item with connectionMap := m } : ConnectionStateItem).connection? target =
      if target = .extension token then entry.map fun e => item.generateConnectionData e.info
      else item.connection? target := by
  cases target with
  | extension token' =>
    simp only [connection?, hm, extension.injEq, eq_comm]
    split <;> rfl
  | dataAbility token' => rfl

end

section
variable {m : SortedMap ℕ ConnectedDataAbility} {entry : Option ConnectedDataAbility}
  (hm : ∀ t, m.find? t = if token = t then entry else item.dataAbilityMap.find? t)
include hm

lemma Sound.dataAbility (h : Sound item) (hentry : ∀ e ∈ entry, e.callers ≠ []) :
    Sound { item with dataAbilityMap := m } := by
  refine ⟨h.connections, fun token' e he => ?_⟩
  rw [hm] at he
  split_ifs at he with htoken
  · exact hentry e he
  · exact h.callers token' e he

lemma connection?_dataAbility (target : ConnectedTarget) :
    ({ item with dataAbilityMap := m } : ConnectionStateItem).connection? target =
      if target = .dataAbility token then entry.map fun e => item.generateConnectionData e.info
      else item.connection? target := by
  cases target with
  | extension token' => rfl
  | dataAbility token' =>
    simp only [connection?, hm, dataAbility.injEq, eq_comm]
    split <;> rfl

end

variable {target : ConnectedTarget} {data : ConnectionData}

lemma told_keep {added : Bool} (hsound : Sound item') (hpid : item'.callerPid = item.callerPid)
    (hentry : ∀ t, item'.connection? t = if t = target then some data else item.connection? t)
    (hold : item.connection? target = some data) : Told added item (none, item') := by
  refine ⟨hsound, hpid, fun _ hp => (nomatch hp), .refl fun t => ?_⟩
  rw [hentry]
  split_ifs with ht
  · rw [ht, hold]
  · rfl

lemma told_assign {notified : Bool} (hsound : Sound item')
    (hpid : item'.callerPid = item.callerPid) (hdata : data.callerPid = item.callerPid)
    (hentry : ∀ t, item'.connection? t = if t = target then some data else item.connection? t)
    (hnew : item.connection? target = if notified then none else some data) :
    Told true item (if notified then some (target, data) else none, item') := by
  cases notified with
  | false => exact told_keep hsound hpid hentry hnew
  | true =>
    refine ⟨hsound, hpid, fun p hp => ?_, .added hnew ?_ fun t ht => ?_⟩
    · cases hp
      exact hdata
    · exact (hentry target).trans (if_pos rfl)
    · exact (hentry t).trans (if_neg ht)

lemma told_erase (hsound : Sound item') (hpid : item'.callerPid = item.callerPid)
    (hdata : data.callerPid = item.callerPid)
    (hentry : ∀ t, item'.connection? t = if t = target then none else item.connection? t)
    (hold : item.connection? target = some data) :
    Told false item (some (target, data), item') := by
  refine ⟨hsound, hpid, fun p hp => ?_, .removed hold ?_ fun t ht => ?_⟩
  · cases hp
    exact hdata
  · exact (hentry target).trans (if_pos rfl)
  · exact (hentry t).trans (if_neg ht)

lemma map_of_or {E α : Type} {old new : Option E} {e : E} (f : E → α) (empty : E → Bool)
    (hold : ∀ e ∈ old, empty e = false) (hnew : ∀ e ∈ new, empty e = true)
    (h : old.or new = some e) : old.map f = if empty e then none else some (f e) := by
  cases old with
  | none => simp [hnew e h]
  | some e' =>
    cases h
    simp [hold e rfl]

section
variable (h : Sound item)
include h

lemma told_addConnection (record : ConnectionView) :
    Told true item (item.addConnection record) := by
  unfold addConnection
  split
  · rename_i token connection _ _
    cases hfind : (item.connectionMap.find? token).or (record.abilityRecord.map .create) with
    | none => exact h.told true
    | some e =>
      have hnonempty : (if connection ∈ e.connections then e.connections
          else e.connections ++ [connection]) ≠ [] := by
        split
        · exact ne_nil_of_mem ‹_›
        · simp
      refine told_assign (h.extension (fun _ => find?_assign ..) (by simpa using hnonempty)) rfl
        rfl (connection?_extension fun _ => find?_assign ..) ?_
      exact map_of_or _ (·.connections.isEmpty)
        (fun e he => by simpa using h.connections token e he) (by simp [ConnectedExtension.create])
        hfind
  · exact h.told true

lemma told_removeConnection (record : ConnectionView) :
    Told false item (item.removeConnection record) := by
  unfold removeConnection
  split
  · rename_i token connection _ _
    cases hfind : item.connectionMap.find? token with
    | none => exact h.told false
    | some e =>
      dsimp only [ConnectedExtension.removeConnection]
      have hold : item.connection? (.extension token) =
          some (item.generateConnectionData e.info) := by
        simp [connection?, hfind]
      split_ifs with hrest
      · exact told_erase (h.extension (fun _ => find?_erase ..) (by simp)) rfl rfl
          (connection?_extension fun _ => find?_erase ..) hold
      · exact told_keep (h.extension (fun _ => find?_assign ..) (by simpa using hrest)) rfl
          (connection?_extension fun _ => find?_assign ..) hold
  · exact h.told false

lemma told_addDataAbilityConnection {caller : DataAbilityCaller}
    (hcaller : caller.isKnown = true) (dataAbility : DataAbilityView) :
    Told true item (item.addDataAbilityConnection caller dataAbility) := by
  unfold addDataAbilityConnection
  split
  · exact h.told true
  rename_i token _
  cases hfind : (item.dataAbilityMap.find? token).or (dataAbility.abilityRecord.map .create) with
  | none => exact h.told true
  | some e =>
    simp only [addCaller, hcaller]
    have hnonempty : (if e.callers.any (·.isOf caller) then e.callers
        else e.callers ++ [⟨caller.isNotHap, caller.callerPid, caller.callerToken⟩]) ≠ [] := by
      split_ifs with hany
      · obtain ⟨c, hc, -⟩ := any_eq_true.mp hany
        exact ne_nil_of_mem hc
      · simp
    refine told_assign (h.dataAbility (fun _ => find?_assign ..) (by simpa using hnonempty)) rfl
      rfl (connection?_dataAbility fun _ => find?_assign ..) ?_
    exact map_of_or _ (·.callers.isEmpty) (fun e he => by simpa using h.callers token e he)
      (by simp [create]) hfind

lemma told_removeDataAbilityConnection (caller : DataAbilityCaller)
    (dataAbility : DataAbilityView) :
    Told false item (item.removeDataAbilityConnection caller dataAbility) := by
  unfold removeDataAbilityConnection
  split
  · exact h.told false
  rename_i token _
  cases hfind : item.dataAbilityMap.find? token with
  | none => exact h.told false
  | some e =>
    have hold : item.connection? (.dataAbility token) =
        some (item.generateConnectionData e.info) := by
      simp [connection?, hfind]
    have hinfo : (e.removeCaller caller).2.info = e.info := by
      unfold removeCaller
      split <;> rfl
    dsimp only
    split_ifs with hrest
    · rw [hinfo]
      exact told_erase (h.dataAbility (fun _ => find?_erase ..) (by simp)) rfl rfl
        (connection?_dataAbility fun _ => find?_erase ..) hold
    · have hnonempty : (e.removeCaller caller).2.callers ≠ [] := by
        cases hknown : caller.isKnown with
        | false => simpa [removeCaller, hknown] using h.callers token e hfind
        | true =>
          simp only [removeCaller, hknown] at hrest ⊢
          exact fun hnil => hrest (isEmpty_iff.mpr hnil)
      refine told_keep (h.dataAbility (fun _ => find?_assign ..) (by simpa using hnonempty)) rfl
        (connection?_dataAbility fun _ => find?_assign ..) ?_
      simpa only [hinfo] using hold

lemma told_handleDataAbilityDied (token : ℕ) :
    Told false item (item.handleDataAbilityDied token) := by
  unfold handleDataAbilityDied
  cases hfind : item.dataAbilityMap.find? token with
  | none => exact h.told false
  | some e =>
    refine told_erase (h.dataAbility (fun _ => find?_erase ..) (by simp)) rfl rfl
      (connection?_dataAbility fun _ => find?_erase ..) ?_
    simp [connection?, hfind]

end

lemma filter_entries_map {E : Type} (m : SortedMap ℕ E) (g : E → ConnectionData)
    {f : ℕ → ConnectedTarget} (hf : f.Injective) :
    (m.entries.map fun e => (f e.1, g e.2)).filter (fun p => p.1 = f token) =
      ((m.find? token).map fun e => (f token, g e)).toList := by
  simp only [filter_map, Function.comp_def, hf.eq_iff, m.filter_entries]
  cases m.find? token <;> rfl

variable (item target) in
lemma filter_allTargets : item.allTargets.filter (fun p => p.1 = target) =
      ((item.connection? target).map fun data => (target, data)).toList := by
  rw [allTargets, filter_append]
  cases target with
  | extension token =>
    rw [filter_entries_map item.connectionMap (fun e => item.generateConnectionData e.info)
      fun _ _ => extension.inj, connection?]
    cases item.connectionMap.find? token <;> simp [filter_map]
  | dataAbility token =>
    rw [filter_entries_map item.dataAbilityMap (fun e => item.generateConnectionData e.info)
      fun _ _ => dataAbility.inj, connection?]
    cases item.dataAbilityMap.find? token <;> simp [filter_map]

lemma mem_allTargets : (target, data) ∈ item.allTargets ↔ item.connection? target = some data := by
  have hfilter : (target, data) ∈ item.allTargets ↔
      (target, data) ∈ item.allTargets.filter (fun p => p.1 = target) := by
    simp
  rw [hfilter, filter_allTargets]
  cases item.connection? target <;> simp [eq_comm]

variable (item)

lemma nodup_allTargets : (item.allTargets.map Prod.fst).Nodup := by
  rw [allTargets, map_append, map_map, map_map, nodup_append]
  refine ⟨?_, ?_, fun t ht t' ht' => ?_⟩
  · have hkeys := item.connectionMap.nodup_keys.map fun _ _ => extension.inj
    rwa [SortedMap.keys, map_map] at hkeys
  · have hkeys := item.dataAbilityMap.nodup_keys.map fun _ _ => dataAbility.inj
    rwa [SortedMap.keys, map_map] at hkeys
  · obtain ⟨e, -, rfl⟩ := mem_map.mp ht
    obtain ⟨e', -, rfl⟩ := mem_map.mp ht'
    intro heq
    cases heq

lemma reports_allTargets :
    Reports item.connection? (fun _ => none) (item.allTargets.map fun p => ⟨p.1, p.2, false⟩) := by
  refine ⟨fun target => ?_, fun _ _ _ _ hw => nomatch hw⟩
  rw [about, filter_map]
  change (item.allTargets.filter fun p => decide (p.1 = target)).map _ = _
  rw [filter_allTargets]
  cases item.connection? target <;> rfl

variable {item}

lemma callerPid_of_mem_allTargets {p : ConnectedTarget × ConnectionData}
    (hp : p ∈ item.allTargets) : p.2.callerPid = item.callerPid := by
  rcases mem_append.mp hp with hp | hp
  all_goals
    obtain ⟨e, -, rfl⟩ := mem_map.mp hp
    rfl

lemma connection?_of_isEmpty (h : item.isEmpty = true) (target : ConnectedTarget) :
    item.connection? target = none := by
  obtain ⟨hext, hdata⟩ := Bool.and_eq_true_iff.mp h
  have hnone : ∀ data, item.connection? target ≠ some data := fun data hsome => by
    have hin := mem_allTargets.mpr hsome
    rw [allTargets, isEmpty_iff.mp hext, isEmpty_iff.mp hdata] at hin
    cases hin
  exact Option.eq_none_iff_forall_ne_some.mpr hnone

end ConnectionStateItem

namespace ConnectionStateManager
open ConnectionStateItem
variable {s s' : ConnectionStateManager}

def table (s : ConnectionStateManager) (key : ℤ × ConnectedTarget) : Option ConnectionData :=
  (s.connectionStates.find? key.1).bind fun item => item.connection? key.2

structure Sound (s : ConnectionStateManager) : Prop where
  item : ∀ pid item, s.connectionStates.find? pid = some item →
    item.callerPid = pid ∧ item.Sound
  off : s.observerController = false → ∀ pid, s.connectionStates.find? pid = none
  tracks : Tracks s.notifications s.table

variable {data : List (ConnectedTarget × ConnectionData)}

lemma notify_inside {pid : ℤ} {added : Bool} (h : ∀ p ∈ data, p.2.callerPid = pid) :
    (data.map fun p => (⟨(p.2.callerPid, p.1), p.2, added⟩ : Change _ _)) =
      (data.map fun p => (⟨p.1, p.2, added⟩ : Change _ _)).map (Change.inside pid) := by
  rw [map_map]
  refine map_congr_left fun p hp => ?_
  simp [Change.inside, h p hp]

variable {item : ConnectionStateItem}

section
variable (h : Sound s)
include h

lemma Sound.assign (hon : s.observerController = true) {pid : ℤ} {added : Bool}
    {result : Option (ConnectedTarget × ConnectionData) × ConnectionStateItem}
    (hpid : item.callerPid = pid) (hold : ∀ t, s.table (pid, t) = item.connection? t)
    (ht : Told added item result) :
    Sound ({ s with connectionStates := s.connectionStates.assign pid result.2 }.notify added
      result.1.toList) := by
  refine ⟨fun pid' item' hitem => ?_, fun hoff => absurd (hon.symm.trans hoff) (by simp), ?_⟩
  · rcases find?_assign_eq_some.1 hitem with ⟨rfl, rfl⟩ | ⟨-, hitem⟩
    · exact ⟨ht.callerPid.trans hpid, ht.sound⟩
    · exact h.item pid' item' hitem
  · refine h.tracks.append ?_
    rw [notify_inside fun p hp => (ht.own p (Option.mem_toList.mp hp)).trans hpid]
    refine ht.reports.inside hold (fun t => ?_) fun pid' t hne => ?_
    · simp [table, notify, find?_assign]
    · simp [table, notify, find?_assign, if_neg hne.symm]

lemma Sound.erase (hon : s.observerController = true) {pid : ℤ}
    (hitem : s.connectionStates.find? pid = some item)
    (hown : ∀ p ∈ data, p.2.callerPid = item.callerPid)
    (hr : Reports item.connection? (fun _ => none) (data.map fun p => ⟨p.1, p.2, false⟩)) :
    Sound ({ s with connectionStates := s.connectionStates.erase pid }.notify false data) := by
  refine ⟨fun pid' item' hitem' => ?_, fun hoff => absurd (hon.symm.trans hoff) (by simp), ?_⟩
  · exact h.item pid' item' (find?_erase_eq_some.1 hitem').2
  · refine h.tracks.append ?_
    rw [notify_inside fun p hp => (hown p hp).trans (h.item pid item hitem).1]
    refine hr.inside (fun t => ?_) (fun t => ?_) fun pid' t hne => ?_
    · simp [table, hitem]
    · simp [table, notify, find?_erase]
    · simp [table, notify, find?_erase, if_neg hne.symm]

lemma Sound.getD (callerUid pid : ℤ) (callerName : String) :
    let item := (s.connectionStates.find? pid).getD
      (createConnectionStateItem callerUid pid callerName)
    item.Sound ∧ item.callerPid = pid ∧ ∀ t, s.table (pid, t) = item.connection? t := by
  cases hitem : s.connectionStates.find? pid with
  | none =>
    refine ⟨⟨by simp [createConnectionStateItem], by simp [createConnectionStateItem]⟩, rfl,
      fun t => ?_⟩
    rw [table, hitem]
    cases t <;> rfl
  | some item =>
    refine ⟨(h.item pid item hitem).2, (h.item pid item hitem).1, fun t => ?_⟩
    rw [table, hitem]
    rfl

protected lemma Sound.addConnection (record : ConnectionView) : Sound (s.addConnection record) := by
  unfold addConnection
  split_ifs with hon
  · exact h
  · obtain ⟨hsound, hpid, hold⟩ := h.getD record.callerUid record.callerPid record.callerName
    exact h.assign (by simpa using hon) hpid hold (told_addConnection hsound record)

protected lemma Sound.addDataAbilityConnection {caller : DataAbilityCaller}
    (hcaller : caller.isKnown = true) (record : DataAbilityView) :
    Sound (s.addDataAbilityConnection caller record) := by
  unfold addDataAbilityConnection
  split_ifs with hcheck
  · exact h
  · simp only [Bool.not_eq_true', Bool.not_eq_false] at hcheck
    have hon := (Bool.and_eq_true_iff.mp hcheck).1
    obtain ⟨hsound, hpid, hold⟩ := h.getD caller.callerUid caller.callerPid caller.callerName
    exact h.assign hon hpid hold (told_addDataAbilityConnection hsound hcaller record)

protected lemma Sound.updateItem (hon : s.observerController = true) (pid : ℤ)
    {remove : ConnectionStateItem → Option (ConnectedTarget × ConnectionData) × ConnectionStateItem}
    (hremove : ∀ item, item.Sound → Told false item (remove item)) :
    Sound ((s.updateItem pid remove).2.notify false (s.updateItem pid remove).1.toList) := by
  unfold updateItem
  split
  · simpa [notify] using h
  rename_i item hitem
  obtain ⟨hpid, hsound⟩ := h.item pid item hitem
  have ht := hremove item hsound
  dsimp only
  split_ifs with hempty
  · refine h.erase hon hitem (fun p hp => ht.own p (Option.mem_toList.mp hp)) ?_
    have hnone : (remove item).2.connection? = fun _ => none :=
      funext (connection?_of_isEmpty (Bool.and_eq_true_iff.mp hempty).2)
    exact hnone ▸ ht.reports
  · refine h.assign hon hpid (fun t => ?_) ht
    rw [table, hitem]
    rfl

protected lemma Sound.handleCallerDied (pid : ℤ) : Sound (s.handleCallerDied pid) := by
  unfold handleCallerDied
  split
  · exact h
  rename_i item hitem
  have hon : s.observerController = true := by
    by_contra hoff
    exact absurd (hitem.symm.trans (h.off (by simpa using hoff) pid)) (Option.some_ne_none item)
  rw [if_pos hon]
  exact h.erase hon hitem (fun p hp => callerPid_of_mem_allTargets hp) (reports_allTargets item)

protected lemma Sound.removeConnection (record : ConnectionView)
    (isCallerDied : Bool) : Sound (s.removeConnection record isCallerDied) := by
  unfold removeConnection
  split
  · exact h
  rename_i hon
  split
  · exact h.handleCallerDied _
  · exact h.updateItem (by simpa using hon) _ fun item hitem => told_removeConnection hitem record

protected lemma Sound.removeDataAbilityConnection (caller : DataAbilityCaller)
    (record : DataAbilityView) : Sound (s.removeDataAbilityConnection caller record) := by
  unfold removeDataAbilityConnection
  split_ifs with hcheck
  · exact h
  · simp only [Bool.not_eq_true', Bool.not_eq_false] at hcheck
    have hon := (Bool.and_eq_true_iff.mp hcheck).1
    exact h.updateItem hon _ fun item hitem => told_removeDataAbilityConnection hitem caller record

protected lemma Sound.handleDataAbilityDied (record : DataAbilityView) :
    Sound (s.handleDataAbilityDied record) := by
  unfold handleDataAbilityDied
  split
  · exact h
  rename_i token _
  have htold : ∀ pid item, s.connectionStates.find? pid = some item →
      Told false item (item.handleDataAbilityDied token) := fun pid item hitem =>
    told_handleDataAbilityDied (h.item pid item hitem).2 token
  have hfind : ∀ pid, (s.connectionStates.traverse fun _ item =>
      item.afterDataAbilityDied token).find? pid =
      (s.connectionStates.find? pid).bind fun item => item.afterDataAbilityDied token :=
    fun pid => find?_traverse ..
  have hitems : ∀ pid item', (s.connectionStates.traverse fun _ item =>
      item.afterDataAbilityDied token).find? pid = some item' →
      item'.callerPid = pid ∧ item'.Sound := by
    intro pid item' hitem'
    rw [hfind] at hitem'
    obtain ⟨item, hitem, hrest⟩ := Option.bind_eq_some_iff.mp hitem'
    unfold afterDataAbilityDied at hrest
    dsimp only at hrest
    split at hrest
    · cases hrest
    · cases hrest
      have ht := htold pid item hitem
      exact ⟨ht.callerPid.trans (h.item pid item hitem).1, ht.sound⟩
  by_cases hon : s.observerController = true
  · rw [if_pos hon]
    refine ⟨hitems, fun hoff => absurd (hon.symm.trans hoff) (by simp), h.tracks.append ?_⟩
    have hevents : (s.connectionStates.entries.flatMap fun e =>
        (e.2.handleDataAbilityDied token).1.toList).map
          (fun p => (⟨(p.2.callerPid, p.1), p.2, false⟩ : Change _ _)) =
        s.connectionStates.entries.flatMap fun e =>
          ((e.2.handleDataAbilityDied token).1.toList.map fun p =>
            ⟨p.1, p.2, false⟩).map (.inside e.1) := by
      rw [map_flatMap]
      refine flatMap_congr fun e he => notify_inside fun p hp => ?_
      have hitem := mem_entries.mp he
      exact ((htold _ _ hitem).own p (Option.mem_toList.mp hp)).trans (h.item _ _ hitem).1
    rw [hevents]
    refine .entries (fun item => item.connection?)
      (fun item => (item.handleDataAbilityDied token).2.connection?)
      (fun pid item hitem => (htold pid item hitem).reports) ?_ fun pid t => ?_
    · exact fun _ _ => rfl
    simp only [table, notify, hfind, Option.bind_assoc]
    refine Option.bind_congr fun item _ => ?_
    unfold afterDataAbilityDied
    dsimp only
    split_ifs with hempty
    · exact (connection?_of_isEmpty hempty t).symm
    · rfl
  · -- nothing was ever added
    have hnone := h.off (by simpa using hon)
    have hsame : table { s with
        connectionStates := s.connectionStates.traverse fun _ item =>
          item.afterDataAbilityDied token } = s.table := by
      funext key
      simp [table, hfind, hnone]
    rw [if_neg hon]
    exact ⟨hitems, fun _ pid => (hfind pid).trans (by rw [hnone]; rfl), hsame ▸ h.tracks⟩

end

def Op.isKnown : Op → Bool
  | .addDataAbilityConnection caller _ => caller.isKnown
  | _ => true

protected lemma Sound.step (h : Sound s) {op : Op} (hop : op.isKnown = true) :
    Sound (s.step op) := by
  cases op with
  | init => exact { h with off := fun hoff => (nomatch hoff) }
  | addConnection record => exact h.addConnection record
  | removeConnection record isCallerDied => exact h.removeConnection record isCallerDied
  | addDataAbilityConnection caller record => exact h.addDataAbilityConnection hop record
  | removeDataAbilityConnection caller record => exact h.removeDataAbilityConnection caller record
  | handleDataAbilityDied record => exact h.handleDataAbilityDied record
  | handleDataAbilityCallerDied callerPid =>
    simp only [step, handleDataAbilityCallerDied]
    split
    · exact h
    · exact h.handleCallerDied callerPid
  | handleAppDied pid => exact h.handleCallerDied pid

lemma sound_empty : Sound empty :=
  ⟨fun pid item h => absurd h (by simp [empty]), fun _ pid => find?_empty pid, tracks_nil⟩

def connectedTargets (s : ConnectionStateManager) :
    List ((ℤ × ConnectedTarget) × ConnectionData) :=
  s.connectionStates.entries.flatMap fun e => e.2.allTargets.map fun p => ((e.1, p.1), p.2)

variable (s) in
lemma getConnectionData_eq : s.getConnectionData = s.connectedTargets.map Prod.snd := by
  simp only [getConnectionData, connectedTargets, generateAllConnectionData, map_flatMap, map_map]
  rfl

lemma mem_connectedTargets {key : ℤ × ConnectedTarget} {data : ConnectionData} :
    (key, data) ∈ s.connectedTargets ↔ s.table key = some data := by
  rw [connectedTargets, mem_flatMap, table, Option.bind_eq_some_iff]
  constructor
  · rintro ⟨⟨pid, item⟩, hitem, hin⟩
    obtain ⟨⟨t, d⟩, hp, heq⟩ := mem_map.mp hin
    cases heq
    exact ⟨item, mem_entries.mp hitem, mem_allTargets.mp hp⟩
  · rintro ⟨item, hitem, hentry⟩
    exact ⟨(key.1, item), mem_entries.mpr hitem,
      mem_map.mpr ⟨(key.2, data), mem_allTargets.mpr hentry, rfl⟩⟩

variable (s) in
lemma nodup_connectedTargets : (s.connectedTargets.map Prod.fst).Nodup := by
  rw [connectedTargets, map_flatMap, nodup_flatMap]
  refine ⟨fun e _ => ?_, ?_⟩
  · have := (nodup_allTargets e.2).map (f := fun t => (e.1, t)) fun a b h => (Prod.ext_iff.mp h).2
    rwa [map_map] at this ⊢
  · refine s.connectionStates.sorted.imp fun {e e'} hlt => ?_
    intro key hkey hkey'
    obtain ⟨p, hp, rfl⟩ := mem_map.mp hkey
    obtain ⟨p', hp', heq⟩ := mem_map.mp hkey'
    obtain ⟨q, -, rfl⟩ := mem_map.mp hp
    obtain ⟨q', -, rfl⟩ := mem_map.mp hp'
    exact hlt.ne (congrArg (fun k => k.1) heq).symm

structure ObserversInformed (s : ConnectionStateManager) : Prop where
  alternates : ∀ key, Alternates ((about key s.notifications).map Change.added)
  returned : s.getConnectionData = s.connectedTargets.map Prod.snd
  once : (s.connectedTargets.map Prod.fst).Nodup
  last : ∀ key data, (key, data) ∈ s.connectedTargets ↔
    (about key s.notifications).getLast? = some ⟨key, data, true⟩

theorem run_observersInformed (ops : List Op) (h : ∀ op ∈ ops, op.isKnown = true) :
    ObserversInformed (ops.foldl step empty) := by
  have hs : Sound (ops.foldl step empty) :=
    foldlRecOn _ _ sound_empty fun _ hs op hop => hs.step (h op hop)
  exact ⟨hs.tracks.alternates, getConnectionData_eq _, nodup_connectedTargets _,
    fun key data => mem_connectedTargets.trans (hs.tracks.last key data)⟩

def sampleTarget : TargetAbility :=
  ⟨20, 200, ⟨"", "com.example.data", "entry", "DataAbility", .data, .other, ""⟩⟩

def sampleCaller (callerToken : Option ℕ) : DataAbilityCaller :=
  ⟨false, 10, 100, "com.example.caller", callerToken⟩

def sampleDataAbility : DataAbilityView := ⟨some sampleTarget, some 7⟩

def callerOps (callerToken : Option ℕ) : List Op :=
  [.init, .addDataAbilityConnection (sampleCaller callerToken) sampleDataAbility, .handleAppDied 10]

theorem caller_observersInformed :
    ((callerOps (some 3)).foldl step empty).notifications.map (fun c => (c.key, c.added)) =
      [((10, .dataAbility 7), true), ((10, .dataAbility 7), false)] ∧
    ObserversInformed ((callerOps (some 3)).foldl step empty) :=
  ⟨by decide +kernel, run_observersInformed (callerOps (some 3)) (by decide)⟩

theorem unknown_caller_not_informed :
    ((callerOps none).foldl step empty).notifications.map (fun c => (c.key, c.added)) =
      [((10, .dataAbility 7), false)] ∧
    ¬ ObserversInformed ((callerOps none).foldl step empty) := by
  refine ⟨by decide +kernel, fun h => ?_⟩
  exact absurd (h.alternates (10, .dataAbility 7)) (by decide +kernel)

end ConnectionStateManager
end AbilityRuntime
