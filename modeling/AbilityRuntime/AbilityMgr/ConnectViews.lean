import AbilityRuntime.AbilityMgr.ConnectFrames

/-! A connection is kept in the list of its callback and in the list of its target. `Views` is given
the records that have left their target and not yet the map. -/

open Function

namespace AbilityRuntime
namespace AbilityConnectManager
open List SortedMap ConnectionRecord
variable {s s' : AbilityConnectManager} {full : Prop} {gone : Set ConnectionRef}
  {c : ConnectionRef}

variable (s)

def Listed (c : ConnectionRef) : Prop :=
  c ∈ (s.records (s.connections c).targetService).connRecordList

def Mapped (c : ConnectionRef) : Prop :=
  ∃ l, s.connectMap.find? (s.connections c).callback = some l ∧ c ∈ l

variable {s}

structure Views (full : Prop) (gone : Set ConnectionRef) (s : AbilityConnectManager) : Prop where
  entry : ∀ o l, s.connectMap.find? o = some l →
    l ≠ [] ∧ l.Nodup ∧ ∀ c ∈ l, (s.connections c).callback = o
  target : ∀ r, ∀ c ∈ (s.records r).connRecordList, (s.connections c).targetService = r
  nodup : ∀ r, (s.records r).connRecordList.Nodup
  agree : ∀ c ∉ gone, s.Mapped c ↔ s.Listed c
  left : ∀ c ∈ gone, ¬ s.Listed c
  old : ∀ c, s.Mapped c → c < s.nextConnection
  unmade : ∀ r, s.nextRecord ≤ r → (s.records r).connRecordList = []
  live : ∀ c, s.Listed c → (s.connections c).state ≠ .disconnected
  timeouts : ∀ p ∈ s.connectTimeouts, p.2.Nodup ∧ ∀ c ∈ p.2,
    (s.connections c).targetService = p.1 ∧ c < s.nextConnection
  recipients : full → ∀ o, s.recipientMap.contains o = s.connectMap.contains o

lemma modifyConnection_apply {α : Type*} (p : ConnectionRecord → α)
    {f : ConnectionRecord → ConnectionRecord} (hf : p (f (s.connections c)) = p (s.connections c))
    (x : ConnectionRef) : p ((s.modifyConnection c f).connections x) = p (s.connections x) := by
  rcases eq_or_ne x c with rfl | hx
  · simpa [modifyConnection] using hf
  · simp [modifyConnection, update_of_ne hx]

namespace Views

variable {r : ServiceRef}

section
variable (h : Views full gone s)
include h

lemma listed (hc : c ∈ (s.records r).connRecordList) : s.Listed c := by
  rw [Listed, h.target r c hc]
  exact hc

lemma lt_of_listed (hc : s.Listed c) : c < s.nextConnection :=
  h.old c ((h.agree c fun hg => h.left c hg hc).mpr hc)

lemma frame (hf : Frame s s') : Views full gone s' := by
  have hlist : ∀ r, (s'.records r).connRecordList = (s.records r).connRecordList := fun r =>
    (hf.connRecordList r).elim id fun hr => hr.2.trans (h.unmade r hr.1).symm
  have hl : ∀ c, s'.Listed c ↔ s.Listed c := fun c => by rw [Listed, Listed, hf.1, hlist]
  have hm : ∀ c, s'.Mapped c ↔ s.Mapped c := fun c => by rw [Mapped, Mapped, hf.1, hf.3]
  refine ⟨?_, ?_, ?_, ?_, ?_, ?_, ?_, ?_, ?_, ?_⟩
  · simpa only [hf.1, hf.3] using h.entry
  · simpa only [hf.1, hlist] using h.target
  · simpa [hlist] using h.nodup
  · simpa [hl, hm] using h.agree
  · simpa [hl] using h.left
  · simpa [hm, hf.2] using h.old
  · exact fun r hr => (hlist r).trans (h.unmade r (hf.nextRecord.trans hr))
  · simpa [hl, hf.1] using h.live
  · simpa only [hf.connectTimeouts, hf.1, hf.2] using h.timeouts
  · simpa [hf.connectMap, hf.recipientMap] using h.recipients

protected lemma modifyConnection {f : ConnectionRecord → ConnectionRecord}
    (ht : (f (s.connections c)).targetService = (s.connections c).targetService)
    (hb : (f (s.connections c)).callback = (s.connections c).callback)
    (hs : s.Listed c → (f (s.connections c)).state ≠ .disconnected) :
    Views full gone (s.modifyConnection c f) := by
  have htarget := modifyConnection_apply targetService ht
  have hcallback := modifyConnection_apply callback hb
  have hl : ∀ x, (s.modifyConnection c f).Listed x ↔ s.Listed x := fun x => by
    rw [Listed, htarget]
    rfl
  have hm : ∀ x, (s.modifyConnection c f).Mapped x ↔ s.Mapped x := fun x => by
    rw [Mapped, hcallback]
    rfl
  refine ⟨?_, ?_, h.nodup, ?_, ?_, ?_, h.unmade, ?_, ?_, h.recipients⟩
  · simp only [hcallback]
    exact h.entry
  · simp only [htarget]
    exact h.target
  · simpa [hl, hm] using h.agree
  · simpa [hl] using h.left
  · simp only [hm]
    exact h.old
  · intro x hx
    rw [hl] at hx
    rcases eq_or_ne x c with rfl | hne
    · simpa [modifyConnection] using hs hx
    · simpa [modifyConnection, update_of_ne hne] using h.live x hx
  · simp only [htarget]
    exact h.timeouts

lemma removeFromList (hr : (s.connections c).targetService = r) :
    Views full (insert c gone) (s.removeConnectRecordFromList r c) := by
  have hlist : ∀ x, x ∈ ((s.removeConnectRecordFromList r c).records
      (s.connections x).targetService).connRecordList ↔ s.Listed x ∧ x ≠ c := by
    intro x
    unfold removeConnectRecordFromList modifyRecord
    rcases eq_or_ne (s.connections x).targetService r with hx | hx
    · simp [hx, ServiceRecord.removeConnectRecordFromList, Listed]
    · have hne : x ≠ c := fun he => hx (he ▸ hr)
      simp [hx, Listed, hne]
  have hsub : ∀ r', ((s.removeConnectRecordFromList r c).records r').connRecordList.Sublist
      (s.records r').connRecordList := by
    intro r'
    unfold removeConnectRecordFromList modifyRecord
    rcases eq_or_ne r' r with rfl | hx
    · simp [ServiceRecord.removeConnectRecordFromList]
    · simp [hx]
  refine ⟨h.entry, fun r' x hx => h.target r' x ((hsub r').subset hx),
    fun r' => (h.nodup r').sublist (hsub r'), fun x hx => ?_, fun x hx hl => ?_, h.old,
    fun r' hr' => ?_, fun x hx => h.live x ((hlist x).mp hx).1, h.timeouts, h.recipients⟩
  · rw [Set.mem_insert_iff, not_or] at hx
    refine (h.agree x hx.2).trans ?_
    exact ⟨fun hl => (hlist x).mpr ⟨hl, hx.1⟩, fun hl => ((hlist x).mp hl).1⟩
  · have hl' := (hlist x).mp hl
    exact (hx.resolve_left hl'.2 |> h.left x) hl'.1
  · have := hsub r'
    rw [h.unmade r' hr'] at this
    exact sublist_nil.mp this

lemma not_listed_removeFromList (hr : (s.connections c).targetService = r) :
    ¬ (s.removeConnectRecordFromList r c).Listed c :=
  (h.removeFromList hr).left c (Set.mem_insert _ _)

lemma find_entry {e : CallbackRef × List ConnectionRef}
    (he : (s.connectMap.entries.find? fun e => e.2.contains c) = some e) :
    s.connectMap.find? e.1 = some e.2 ∧ c ∈ e.2 ∧ (s.connections c).callback = e.1 := by
  have hm := mem_entries.mp (mem_of_find?_eq_some he)
  have hc : c ∈ e.2 := by simpa using find?_some he
  exact ⟨hm, hc, (h.entry _ _ hm).2.2 c hc⟩

lemma removeFromMap (hc : ¬ s.Listed c) :
    Views full (gone \ {c}) (s.removeConnectionRecordFromMap c) := by
  -- the records and the connections stay; the map is described by what it holds afterwards
  have key : ∀ m : SortedMap CallbackRef (List ConnectionRef), ∀ m',
      (∀ o l, m.find? o = some l → l ≠ [] ∧ l.Nodup ∧ ∀ x ∈ l, (s.connections x).callback = o) →
      (∀ x, (∃ l, m.find? (s.connections x).callback = some l ∧ x ∈ l) ↔ s.Mapped x ∧ x ≠ c) →
      (full → ∀ o, m'.contains o = m.contains o) →
      Views full (gone \ {c}) { s with connectMap := m, recipientMap := m' } := by
    intro m m' hentry hmapped hrec
    refine ⟨hentry, h.target, h.nodup, fun x hx => ?_, fun x hx => h.left x hx.1, fun x hx => ?_,
      h.unmade, h.live, h.timeouts, hrec⟩
    · refine (hmapped x).trans ?_
      rcases eq_or_ne x c with rfl | hne
      · exact ⟨fun hx => absurd rfl hx.2, fun hl => absurd hl hc⟩
      · have hg : x ∉ gone := fun hg => hx ⟨hg, hne⟩
        exact ⟨fun hm => (h.agree x hg).mp hm.1, fun hl => ⟨(h.agree x hg).mpr hl, hne⟩⟩
    · exact h.old x ((hmapped x).mp hx).1
  unfold removeConnectionRecordFromMap
  split
  · rename_i hnone
    refine key s.connectMap s.recipientMap h.entry
      (fun x => ⟨fun hx => ⟨hx, ?_⟩, fun hx => hx.1⟩) h.recipients
    rintro rfl
    obtain ⟨l, hl, hx⟩ := hx
    have := find?_eq_none.mp hnone _ (mem_entries.mpr hl)
    simp [hx] at this
  · rename_i o l hfind
    obtain ⟨hl, hcl, ho⟩ := h.find_entry hfind
    dsimp only at hl hcl ho ⊢
    have hother : ∀ x o', (s.connections x).callback = o' → o' ≠ o →
        (s.Mapped x ↔ s.Mapped x ∧ x ≠ c) := fun x o' hx hne =>
      ⟨fun hm => ⟨hm, fun he => hne (hx ▸ he ▸ ho)⟩, fun hm => hm.1⟩
    split
    · rename_i hempty
      refine key _ _ (fun o' l' hl' => ?_) (fun x => ?_) fun hfull o' => ?_
      · exact h.entry o' l' (find?_erase_eq_some.1 hl').2
      · rcases eq_or_ne (s.connections x).callback o with hx | hx
        · have hone : x ∈ l → x = c := by simpa using (filter_eq_nil_iff.mp
            (isEmpty_iff.mp hempty) x)
          simp only [find?_erase, hx, Mapped, hl]
          simpa using hone
        · simp only [find?_erase, hx.symm]
          exact hother x _ rfl hx
      · rw [contains_erase, contains_erase, h.recipients hfull]
    · rename_i hne
      refine key _ _ (fun o' l' hl' => ?_) (fun x => ?_) fun hfull o' => ?_
      · rcases find?_assign_eq_some.1 hl' with ⟨rfl, rfl⟩ | ⟨-, hl'⟩
        · obtain ⟨-, hn, hcb⟩ := h.entry o' l hl
          exact ⟨fun hnil => hne (isEmpty_iff.mpr hnil), hn.filter _,
            fun x hx => hcb x (mem_filter.mp hx).1⟩
        · exact h.entry o' l' hl'
      · rcases eq_or_ne (s.connections x).callback o with hx | hx
        · simp only [find?_assign, hx, Mapped, hl]
          simp
        · simp only [find?_assign, hx.symm]
          exact hother x _ rfl hx
      · rw [h.recipients hfull, contains_assign]
        split_ifs with hoo
        · rw [← hoo]
          exact contains_iff.mpr ⟨l, hl⟩
        · rfl

end

end Views

variable (s c)

@[simp] lemma connections_removeFromMap :
    (s.removeConnectionRecordFromMap c).connections = s.connections := by
  unfold removeConnectionRecordFromMap
  split
  · rfl
  · dsimp only
    split <;> rfl

@[simp] lemma records_removeFromMap :
    (s.removeConnectionRecordFromMap c).records = s.records := by
  unfold removeConnectionRecordFromMap
  split
  · rfl
  · dsimp only
    split <;> rfl

@[simp] lemma target_completeDisconnect
    (isCallerDied : Bool) (x : ConnectionRef) :
    ((s.completeDisconnect c isCallerDied).connections x).targetService =
      (s.connections x).targetService :=
  modifyConnection_apply _ (completeDisconnect_ends _ _).1 x

variable {s c}

namespace Views

lemma completeConnect (h : Views full gone s) (c : ConnectionRef) :
    Views full gone (s.completeConnect c) := by
  obtain ⟨ht, hb, hs⟩ := completeConnect_ends (s.connections c)
    (s.records (s.connections c).targetService).connRemoteObject
  refine (h.modifyConnection ht hb fun _ => ?_).frame ((Frame.refl _).setAbilityState _ _)
  rw [hs]
  split <;> decide

lemma completeDisconnect (h : Views full gone s) (hc : ¬ s.Listed c) (isCallerDied : Bool) :
    Views full gone (s.completeDisconnect c isCallerDied) := by
  obtain ⟨ht, hb, -⟩ := completeDisconnect_ends (s.connections c) isCallerDied
  exact h.modifyConnection ht hb fun hl => absurd hl hc

variable {r : ServiceRef}

lemma leave (h : Views full gone s) (hr : (s.connections c).targetService = r)
    (isCallerDied : Bool) :
    Views full (insert c gone)
      ((s.completeDisconnect c isCallerDied).removeConnectRecordFromList r c) :=
  (h.removeFromList hr).completeDisconnect (h.not_listed_removeFromList hr) isCallerDied

lemma leaveMap (h : Views full {c} s) : Views full ∅ (s.removeConnectionRecordFromMap c) := by
  have := h.removeFromMap (h.left c rfl)
  rwa [Set.sdiff_self] at this

protected lemma disconnectDirectly (h : Views full ∅ s)
    (hr : (s.connections c).targetService = r) : Views full ∅ (disconnectDirectly r s c) := by
  have hl := h.leave hr false
  rw [insert_empty_eq] at hl
  exact hl.leaveMap

variable {l : List ConnectionRef}

lemma disconnectAll (h : Views full ∅ s) (hl : ∀ c ∈ l, (s.connections c).targetService = r) :
    Views full ∅ (l.foldl (disconnectDirectly r) s) := by
  induction l generalizing s with
  | nil => exact h
  | cons c rest ih =>
    refine ih (h.disconnectDirectly (hl c (mem_cons_self ..))) fun x hx => ?_
    simp only [AbilityConnectManager.disconnectDirectly, connections_removeFromMap]
    exact (target_completeDisconnect s c false x).trans (hl x (mem_cons_of_mem _ hx))

protected lemma handleTerminateDisconnectTask (h : Views full ∅ s) (r : ServiceRef) :
    Views full ∅ (s.handleTerminateDisconnectTask r) := h.disconnectAll (h.target r)

variable (full) in
lemma steady : Steady (Views full ∅) :=
  ⟨fun hf h => h.frame hf, fun r h => h.handleTerminateDisconnectTask r⟩

variable {result : ConnectResult}

protected theorem disconnectAbility (h : Views full gone s)
    (hd : s.disconnectAbility c = (result, s')) :
    (result ≠ .ok ∧ s' = s ∧ (s.connections c).state ≠ .connected) ∨
    (result = .ok ∧ (s'.connections c).state = .disconnecting ∧ Views full gone s') ∨
    (result = .ok ∧ (s'.connections c).state = .disconnected ∧ Views full (insert c gone) s') := by
  have hs : Views full gone (s.modifyConnection c (·.setConnectState .disconnecting)) :=
    h.modifyConnection rfl rfl nofun
  unfold disconnectAbility at hd
  split at hd
  · rename_i hne
    cases hd
    exact .inl ⟨by decide, rfl, hne⟩
  dsimp only at hd
  right
  split at hd
  · cases hd
    left
    exact ⟨rfl, by simp [modifyConnection, setConnectState], hs⟩
  · cases hd
    right
    have ht := modifyConnection_apply (s := s) (c := c) (f := (·.setConnectState .disconnecting))
      targetService rfl c
    refine ⟨rfl, ?_, ?_⟩
    · simp [modifyConnection, setConnectState]
    · exact (hs.removeFromList ht).modifyConnection rfl rfl
        fun hl => absurd hl (hs.not_listed_removeFromList ht)

lemma setOf_mem_snoc (list : List ConnectionRef) (c : ConnectionRef) :
    {x | x ∈ list ++ [c]} = insert c {x | x ∈ list} := by
  ext x
  simp [or_comm]

variable {list : List ConnectionRef}

section
variable (h : Views full {x | x ∈ list} s)
include h

protected lemma disconnectRecordNormal {list' : List ConnectionRef}
    {callerDied : Bool} (hd : s.disconnectRecordNormal list c callerDied = (result, list', s')) :
    Views full {x | x ∈ list'} s' := by
  unfold disconnectRecordNormal at hd
  split at hd
  · rename_i heq
    rcases h.disconnectAbility heq with ⟨hok, -⟩ | ⟨-, hst, ht⟩ | ⟨-, hst, ht⟩
    · exact absurd rfl hok
    · rw [if_neg (by rw [hst]; decide)] at hd
      cases hd
      exact ht
    · rw [if_pos hst] at hd
      cases hd
      rw [setOf_mem_snoc]
      exact ht.completeDisconnect (ht.left c (Set.mem_insert _ _)) callerDied
  · rename_i hne heq
    cases hd
    rcases h.disconnectAbility heq with ⟨-, rfl, -⟩ | ⟨hok, -⟩ | ⟨hok, -⟩
    · exact h
    · exact absurd hok hne
    · exact absurd hok hne

protected lemma disconnectRecordForce (c : ConnectionRef) :
    Views full {x | x ∈ (s.disconnectRecordForce list c).1} (s.disconnectRecordForce list c).2 := by
  have hl := h.leave (c := c) rfl true
  rw [← setOf_mem_snoc] at hl
  unfold disconnectRecordForce
  dsimp only
  split
  · exact Views.frame hl (Frame.takes.terminateRecord (.refl _) _)
  · exact hl

protected lemma disconnectRecords {callerDied : Bool} {callingTokenId : ℕ}
    {list' : List ConnectionRef}
    (hd : disconnectRecords callerDied callingTokenId l list s = (result, list', s')) :
    Views full {x | x ∈ list'} s' := by
  induction l generalizing list s with
  | nil =>
    cases hd
    exact h
  | cons c rest ih =>
    unfold disconnectRecords at hd
    split at hd
    · exact ih h hd
    split at hd
    · rename_i heq
      exact ih (h.disconnectRecordNormal heq) hd
    · rename_i heq
      have hn := h.disconnectRecordNormal heq
      split at hd
      · exact ih (hn.disconnectRecordForce c) hd
      · cases hd
        exact hn

end

lemma leaveAll (h : Views full gone s) (hl : ∀ c ∈ l, ¬ s.Listed c) :
    Views full (gone \ {x | x ∈ l}) (l.foldl removeConnectionRecordFromMap s) := by
  induction l generalizing s gone with
  | nil => simpa using h
  | cons c rest ih =>
    have hs := ih (h.removeFromMap (hl c (mem_cons_self ..))) fun x hx => by
      rw [Listed, connections_removeFromMap, records_removeFromMap]
      exact hl x (mem_cons_of_mem _ hx)
    have hset : gone \ {x | x ∈ c :: rest} = (gone \ {c}) \ {x | x ∈ rest} := by
      ext x
      simp [and_assoc]
    rwa [hset]

section
variable (h : Views full ∅ s)
include h

protected lemma disconnectAbilityLocked (connect : CallbackRef) (callerDied : Bool)
    (callingTokenId : ℕ) :
    Views full ∅ (s.disconnectAbilityLocked connect callerDied callingTokenId).2 := by
  unfold disconnectAbilityLocked
  split
  · exact h
  obtain ⟨result, list, t, hd⟩ : ∃ result list t, disconnectRecords callerDied
      callingTokenId (s.getConnectRecordListFromMap connect) [] s = (result, list, t) :=
    ⟨_, _, _, rfl⟩
  have hempty : {x | x ∈ ([] : List ConnectionRef)} = ∅ := by simp
  have ht := Views.disconnectRecords (hempty.symm ▸ h) hd
  have hleave := ht.leaveAll fun x hx => ht.left x hx
  rw [Set.sdiff_self] at hleave
  simpa [hd] using hleave

protected lemma handleCallBackDiedTask : Views full ∅ s.handleCallBackDiedTask := by
  unfold handleCallBackDiedTask
  split
  · exact h
  · exact (h.frame ((Frame.refl s).died _)).disconnectAbilityLocked _ true _

protected lemma clearConnCallBacks (connect : CallbackRef) :
    Views full ∅ (s.clearConnCallBacks connect) := by
  unfold clearConnCallBacks
  split
  · exact h
  · exact foldlRecOn _ _
      (h.frame ((Frame.refl s).died _)) fun t ht c _ => ht.modifyConnection rfl rfl (ht.live c)

protected lemma handleExtensionDisconnectTask (c : ConnectionRef) :
    Views full ∅ (s.handleExtensionDisconnectTask c) := by
  unfold handleExtensionDisconnectTask
  obtain ⟨result, t, hd⟩ : ∃ result t, s.disconnectAbility c = (result, t) := ⟨_, _, rfl⟩
  simp only [hd]
  rcases h.disconnectAbility hd with ⟨-, rfl, -⟩ | ⟨-, hst, ht⟩ | ⟨-, hst, ht⟩
  · split
    · -- the record had been disconnected before, so it is in neither view
      rename_i hst
      have hc : ¬ t.Listed c := fun hl => h.live c hl hst
      have hg := (h.completeDisconnect hc false).removeFromMap
        (fun hl => hc (by rwa [Listed, target_completeDisconnect] at hl))
      rwa [Set.empty_sdiff] at hg
    · exact h
  · rw [if_neg (by rw [hst]; decide)]
    exact ht
  · rw [if_pos hst]
    rw [insert_empty_eq] at ht
    exact (ht.completeDisconnect (ht.left c rfl) false).leaveMap

protected lemma scheduleDisconnectAbilityDoneLocked (r : ServiceRef) (sessionExist : Bool) :
    Views full ∅ (s.scheduleDisconnectAbilityDoneLocked r sessionExist) := by
  unfold scheduleDisconnectAbilityDoneLocked
  split
  · exact h
  split
  · exact h
  rename_i c hc
  split
  · exact h
  have ht := h.target r c (mem_of_find?_eq_some hc)
  have hl := h.leave ht (!(s.connections c).connCallback)
  rw [insert_empty_eq] at hl
  dsimp only
  split
  · exact (hl.frame (Frame.takes.terminateOrCacheAbility (.refl _) r)).leaveMap
  · exact hl.leaveMap

end

variable (s) in
lemma getConnectRecordListFromMap_eq (connect : CallbackRef) :
    (s.getConnectRecordListFromMap connect = [] ∧ s.connectMap.find? connect = none) ∨
    s.connectMap.find? connect = some (s.getConnectRecordListFromMap connect) := by
  unfold getConnectRecordListFromMap
  cases hf : s.connectMap.find? connect with
  | none => exact .inl ⟨rfl, rfl⟩
  | some l => exact .inr rfl

lemma mem_getConnectRecordListFromMap (h : Views full gone s) {connect : CallbackRef} :
    c ∈ s.getConnectRecordListFromMap connect ↔
      s.Mapped c ∧ (s.connections c).callback = connect := by
  constructor
  · intro hc
    rcases getConnectRecordListFromMap_eq s connect with ⟨hnil, -⟩ | hsome
    · rw [hnil] at hc
      cases hc
    · have hcb := (h.entry _ _ hsome).2.2 c hc
      exact ⟨⟨_, hcb ▸ hsome, hc⟩, hcb⟩
  · rintro ⟨⟨l, hl, hc⟩, rfl⟩
    rwa [getConnectRecordListFromMap, hl]

variable (s r) in
lemma addConnection_eq (connect : CallbackRef) (callerTokenId : ℕ) (added : Bool) :
    s.addConnection r connect callerTokenId added =
      { (s.createConnectionRecord r connect callerTokenId).modifyRecord r
          (·.addConnectRecordToList s.nextConnection) with
        connectMap := s.connectMap.assign connect
          (s.getConnectRecordListFromMap connect ++ [s.nextConnection])
        recipientMap := if (s.getConnectRecordListFromMap connect).isEmpty then
          (s.addConnectDeathRecipient connect added).recipientMap else s.recipientMap } := by
  unfold addConnection addConnectObjectToMap
  cases hl : s.getConnectRecordListFromMap connect with
  | nil =>
    unfold addConnectDeathRecipient
    cases hc : s.recipientMap.contains connect <;> cases added <;>
      simp [hc, modifyRecord, createConnectionRecord]
  | cons c l => rfl

lemma recipients_addConnection (h : Views full gone s) (connect : CallbackRef) {added : Bool}
    (hadd : full → added = true) (l : List ConnectionRef) (hfull : full) (o : CallbackRef) :
    (if (s.getConnectRecordListFromMap connect).isEmpty then
      (s.addConnectDeathRecipient connect added).recipientMap else s.recipientMap).contains o =
    (s.connectMap.assign connect l).contains o := by
  have hrec := h.recipients hfull
  rw [contains_assign]
  rcases getConnectRecordListFromMap_eq s connect with ⟨hnil, hnone⟩ | hsome
  · have hc : s.recipientMap.contains connect = false := by
      rw [hrec]
      exact contains_eq_false.mpr hnone
    simp [hnil, addConnectDeathRecipient, hc, hadd hfull, contains_emplace, hrec]
  · have hne : (s.getConnectRecordListFromMap connect).isEmpty = false :=
      isEmpty_eq_false_iff.mpr (h.entry _ _ hsome).1
    simp only [hne, Bool.false_eq_true, if_false, hrec]
    split_ifs with ho
    · exact contains_iff.mpr ⟨_, ho ▸ hsome⟩
    · rfl

section
variable (h : Views full ∅ s)
include h

lemma addConnection (hr : r < s.nextRecord) (connect : CallbackRef) (callerTokenId : ℕ)
    {added : Bool} (hadd : full → added = true) :
    Views full ∅ (s.addConnection r connect callerTokenId added) := by
  have hnew : ∀ r', s.nextConnection ∉ (s.records r').connRecordList := fun r' hn =>
    lt_irrefl _ (h.lt_of_listed (h.listed hn))
  have hold : ∀ o l, s.connectMap.find? o = some l → ∀ x ∈ l, x < s.nextConnection :=
    fun o l hl x hx => h.old x ⟨l, by rwa [(h.entry o l hl).2.2 x hx], hx⟩
  have hrec := h.recipients_addConnection connect hadd
    (s.getConnectRecordListFromMap connect ++ [s.nextConnection])
  rw [addConnection_eq]
  set c := s.nextConnection with hc
  set l₀ := s.getConnectRecordListFromMap connect with hl₀
  have hl₀mem : ∀ x ∈ l₀, (s.connections x).callback = connect ∧ x < c := by
    intro x hx
    obtain ⟨hm, hcb⟩ := h.mem_getConnectRecordListFromMap.mp hx
    exact ⟨hcb, h.old x hm⟩
  have hl₀nodup : l₀.Nodup := by
    rcases getConnectRecordListFromMap_eq s connect with ⟨hnil, -⟩ | hsome
    · rw [hl₀, hnil]
      exact nodup_nil
    · exact (h.entry _ _ hsome).2.1
  -- the record of the new connection, and the old ones
  set conn : ConnectionRef → ConnectionRecord :=
    ((s.createConnectionRecord r connect callerTokenId).modifyRecord r
      (·.addConnectRecordToList c)).connections with hconn
  have hconn_self : (conn c).targetService = r ∧ (conn c).callback = connect ∧
      (conn c).state = .connecting := by
    simp [hconn, modifyRecord, createConnectionRecord, ← hc, setConnectState]
  have hconn_ne : ∀ x, x ≠ c → conn x = s.connections x := fun x hx => by
    simp [hconn, modifyRecord, createConnectionRecord, ← hc, hx]
  set recs : ServiceRef → ServiceRecord :=
    ((s.createConnectionRecord r connect callerTokenId).modifyRecord r
      (·.addConnectRecordToList c)).records with hrecs
  have hlist : ∀ r', (recs r').connRecordList =
      (s.records r').connRecordList ++ (if r' = r then [c] else []) := by
    intro r'
    rcases eq_or_ne r' r with rfl | hne
    · simp [hrecs, modifyRecord, createConnectionRecord, ServiceRecord.addConnectRecordToList,
        hnew r']
    · simp [hrecs, modifyRecord, createConnectionRecord, hne]
  have hlisted : ∀ x, x ∈ (recs (conn x).targetService).connRecordList ↔ x = c ∨ s.Listed x := by
    intro x
    rcases eq_or_ne x c with rfl | hx
    · simp [hlist, hconn_self]
    · simp only [hconn_ne x hx, hlist, mem_append, hx, false_or]
      constructor
      · rintro (hm | hm)
        · exact hm
        · split at hm
          · exact absurd (mem_singleton.mp hm) hx
          · cases hm
      · exact .inl
  have hmapped : ∀ x, (∃ l, (s.connectMap.assign connect (l₀ ++ [c])).find? (conn x).callback =
      some l ∧ x ∈ l) ↔ x = c ∨ s.Mapped x := by
    intro x
    simp only [find?_assign]
    rcases eq_or_ne x c with rfl | hx
    · simp [hconn_self]
    · simp only [hconn_ne x hx, hx, false_or]
      rcases eq_or_ne connect (s.connections x).callback with ho | ho
      · simp only [ho, if_true, Option.some.injEq, exists_eq_left', mem_append,
          mem_singleton, hx, or_false]
        exact h.mem_getConnectRecordListFromMap.trans (and_iff_left ho.symm)
      · simp only [ho]
        exact .rfl
  refine ⟨fun o l hl => ?_, fun r' x hx => ?_, fun r' => ?_, fun x _ => ?_,
    fun x hx => absurd hx (Set.notMem_empty x), fun x hx => ?_, fun r' hr' => ?_, fun x hx => ?_,
    fun p hp => ⟨(h.timeouts p hp).1, fun x hx => ?_⟩, hrec⟩
  · rcases find?_assign_eq_some.1 hl with ⟨ho, rfl⟩ | ⟨-, hl⟩
    · refine ⟨by simp, nodup_append.mpr ⟨hl₀nodup, by simp, fun a ha b hb => ?_⟩, fun x hx => ?_⟩
      · rw [mem_singleton.mp hb]
        exact (hl₀mem a ha).2.ne
      · rcases mem_append.mp hx with hx | hx
        · exact (congrArg _ (hconn_ne x (hl₀mem x hx).2.ne)).trans ((hl₀mem x hx).1.trans ho.symm)
        · rw [mem_singleton.mp hx]
          exact hconn_self.2.1.trans ho.symm
    · have hent := h.entry o l hl
      exact ⟨hent.1, hent.2.1, fun x hx =>
        (congrArg _ (hconn_ne x (hold o l hl x hx).ne)).trans (hent.2.2 x hx)⟩
  · have hx' := hlist r' ▸ hx
    rcases mem_append.mp hx' with hx' | hx'
    · have hne : x ≠ c := fun he => hnew r' (he ▸ hx')
      exact (congrArg _ (hconn_ne x hne)).trans (h.target r' x hx')
    · split_ifs at hx' with hrr
      · rw [mem_singleton.mp hx']
        exact hconn_self.1.trans hrr.symm
      · cases hx'
  · rw [hlist]
    refine nodup_append.mpr ⟨h.nodup r', by split <;> simp, fun a ha b hb => ?_⟩
    split at hb
    · rw [mem_singleton.mp hb]
      exact fun he => hnew r' (he ▸ ha)
    · cases hb
  · exact (hmapped x).trans (((or_congr_right (h.agree x (Set.notMem_empty x)))).trans
      (hlisted x).symm)
  · rcases (hmapped x).mp hx with rfl | hm
    · exact Nat.lt_succ_self _
    · exact (h.old x hm).trans (Nat.lt_succ_self _)
  · have hne : r' ≠ r := fun he => absurd hr (Nat.not_lt.mpr (he ▸ hr'))
    rw [hlist, h.unmade r' hr', if_neg hne]
    rfl
  · show (conn x).state ≠ .disconnected
    rcases (hlisted x).mp hx with rfl | hm
    · rw [hconn_self.2.2]
      decide
    · rw [hconn_ne x (h.lt_of_listed hm).ne]
      exact h.live x hm
  · obtain ⟨ht, hlt⟩ := (h.timeouts p hp).2 x hx
    exact ⟨(congrArg _ (hconn_ne x hlt.ne)).trans ht, hlt.trans (Nat.lt_succ_self _)⟩

protected lemma connectAbilityLocked (hk : Known s) (request : ServiceRequest)
    (connect : CallbackRef) (callerTokenId : ℕ) (connectInfo : Bool) {env : ServiceEnv}
    (hadd : full → env.addDeathRecipient = true) :
    Views full ∅ (s.connectAbilityLocked request connect callerTokenId connectInfo env) := by
  unfold connectAbilityLocked
  split
  · rename_i heq
    exact getOrCreateTarget_none heq ▸ h
  rename_i r isLoaded t heq
  have hf : Frame s t := by
    have := (Frame.refl s).getOrCreateTargetServiceRecord request connectInfo env
    rwa [heq] at this
  have hr := (hk.getOrCreateTargetServiceRecord request connectInfo env heq).2
  split
  · exact h.frame hf
  · exact ((h.frame hf).addConnection hr connect callerTokenId hadd).frame
      ((Frame.refl _).connectTarget r request _ _ _)

variable (r)

protected lemma handleStartTimeoutTask : Views full ∅ (s.handleStartTimeoutTask r) := by
  have hd := h.disconnectAll (l := s.getConnectingRecordList r) fun c hc =>
    h.target r c (mem_filter.mp hc).1
  unfold handleStartTimeoutTask
  dsimp only
  split_ifs
  · exact (steady full).ends.removeServiceAbility ((steady full).ends.moveToTerminatingMap hd r) r
  · exact hd

lemma readConnectList : Views full ∅ (s.readConnectList r) := by
  refine { h with timeouts := fun p hp => ?_ }
  rcases mem_append.mp hp with hp | hp
  · exact h.timeouts p hp
  · rw [mem_singleton.mp hp]
    exact ⟨h.nodup r, fun c hc => ⟨h.target r c hc, h.lt_of_listed (h.listed hc)⟩⟩

protected lemma handleConnectTimeoutTask : Views full ∅ s.handleConnectTimeoutTask := by
  unfold handleConnectTimeoutTask
  split
  · exact h
  rename_i r l rest heq
  have hs : Views full ∅ { s with connectTimeouts := rest } :=
    { h with timeouts := fun p hp => h.timeouts p (heq ▸ mem_cons_of_mem _ hp) }
  have hd := hs.disconnectAll fun c hc => ((h.timeouts (r, l) (heq ▸ mem_cons_self ..)).2 c hc).1
  dsimp only
  split_ifs
  · exact hd
  · exact (steady full).ends.terminateRecord hd r

end

protected lemma connectDoneOf (h : Views full gone s) (r : ServiceRef) (c : ConnectionRef) :
    Views full gone (connectDoneOf r s c) := by
  have hc : Views full gone (s.scheduleConnectAbilityDone c) := by
    unfold scheduleConnectAbilityDone
    split
    · exact h.completeConnect c
    · exact h
  unfold connectDoneOf postExtensionDelayDisconnectTask
  dsimp only
  split_ifs
  · exact hc
  · exact hc.frame ((Frame.refl _).delaying _)
  · exact hc

section
variable (h : Views full ∅ s)
include h

protected lemma scheduleConnectAbilityDoneLocked (r : ServiceRef) (remoteObject : Bool)
    (envs : ℕ → ServiceEnv) :
    Views full ∅ (s.scheduleConnectAbilityDoneLocked r remoteObject envs) := by
  unfold scheduleConnectAbilityDoneLocked
  split
  · refine Views.frame ?_ ((Frame.refl _).completeStartServiceReq r envs)
    refine foldlRecOn _ _
      (h.frame ((Frame.refl s).modifyRecord r rfl)) fun _ ht c _ => ht.connectDoneOf r c
  · exact h

variable (c)

protected lemma runCompleteConnectTask : Views full ∅ (s.runCompleteConnectTask c) := by
  have hnext (remoteObject : Bool) :
      Views full ∅ (s.modifyConnection c (·.completeNext remoteObject)) := by
    obtain ⟨ht, hb, hs⟩ := completeNext_ends (s.connections c) remoteObject
    exact h.modifyConnection ht hb fun hl => hs (h.live c hl)
  unfold runCompleteConnectTask
  dsimp only
  split
  · split
    · exact (hnext _).frame ((Frame.refl _).completing _)
    · exact h
  · exact (hnext _).frame ((Frame.refl _).setAbilityState _ _)
  · exact hnext _

protected lemma runDelayDisconnectTask : Views full ∅ (s.runDelayDisconnectTask c) := by
  unfold runDelayDisconnectTask
  split
  · exact (h.frame ((Frame.refl s).delaying _)).handleExtensionDisconnectTask c
  · exact h

end

end Views

def Op.addsRecipient : Op → Bool
  | .connectAbility _ _ _ _ env => env.addDeathRecipient
  | _ => true

lemma Views.step (h : Views full ∅ s) (hk : Known s) (op : Op)
    (hadd : full → op.addsRecipient = true) : Views full ∅ (s.step op) := by
  cases op with
  | connectAbility request connect callerTokenId connectInfo env =>
    exact h.connectAbilityLocked hk request connect callerTokenId connectInfo hadd
  | disconnectAbility connect callingTokenId =>
    exact h.disconnectAbilityLocked connect false callingTokenId
  | clearConnCallBacks connect => exact h.clearConnCallBacks connect
  | handleCallBackDiedTask => exact h.handleCallBackDiedTask
  | scheduleConnectAbilityDone r remoteObject envs =>
    exact h.scheduleConnectAbilityDoneLocked r remoteObject envs
  | scheduleDisconnectAbilityDone r sessionExist =>
    exact h.scheduleDisconnectAbilityDoneLocked r sessionExist
  | handleStartTimeoutTask r => exact h.handleStartTimeoutTask r
  | readConnectList r => exact h.readConnectList r
  | handleConnectTimeoutTask => exact h.handleConnectTimeoutTask
  | completeConnectTask c => exact h.runCompleteConnectTask c
  | delayDisconnectTask c => exact h.runDelayDisconnectTask c
  | _ => exact (Views.steady full).step h rfl

lemma known_init (config : ConnectConfig) (devCapacity procCapacity : UInt32) :
    Known (init config devCapacity procCapacity) := by
  rintro r (⟨key, hf⟩ | hc)
  · exact absurd hf (by simp [init])
  · exact absurd hc (AbilityCacheManager.not_holds_init _ _ r)

lemma views_init (full : Prop) (config : ConnectConfig) (devCapacity procCapacity : UInt32) :
    Views full ∅ (init config devCapacity procCapacity) := by
  have hm : ∀ c, ¬ (init config devCapacity procCapacity).Mapped c := by
    rintro c ⟨l, hl, -⟩
    exact absurd hl (by simp [init])
  have hl : ∀ c, ¬ (init config devCapacity procCapacity).Listed c := fun c hc => nomatch hc
  exact ⟨fun o l ho => absurd ho (by simp [init]), nofun,
    fun r => nodup_nil, fun c _ => iff_of_false (hm c) (hl c),
    fun c hc => absurd hc (Set.notMem_empty c), fun c hc => absurd hc (hm c), fun r _ => rfl,
    fun c hc => absurd hc (hl c), nofun, fun _ o => rfl⟩

lemma views_run (full : Prop) (config : ConnectConfig) (devCapacity procCapacity : UInt32)
    (ops : List Op) (hadd : ∀ op ∈ ops, full → op.addsRecipient = true) :
    Views full ∅ (ops.foldl step (init config devCapacity procCapacity)) := by
  have key := foldlRecOn (motive := fun t => Known t ∧ Views full ∅ t) ops step
    ⟨known_init config devCapacity procCapacity, views_init full _ _ _⟩
    fun t ht op hop => ⟨ht.1.step op, ht.2.step ht.1 op (hadd op hop)⟩
  exact key.2

structure ViewsAgree (s : AbilityConnectManager) : Prop where
  same : ∀ c, s.Mapped c ↔ s.Listed c
  nonempty : ∀ o l, s.connectMap.find? o = some l → l ≠ []
  mapped_once : (s.connectMap.entries.flatMap Prod.snd).Nodup
  own_callback : ∀ o l, s.connectMap.find? o = some l → ∀ c ∈ l, (s.connections c).callback = o
  listed_once : ∀ r, (s.records r).connRecordList.Nodup
  own_target : ∀ r, ∀ c ∈ (s.records r).connRecordList, (s.connections c).targetService = r

lemma Views.viewsAgree (h : Views full ∅ s) : ViewsAgree s := by
  refine ⟨fun c => h.agree c (Set.notMem_empty c), fun o l hl => (h.entry o l hl).1, ?_,
    fun o l hl => (h.entry o l hl).2.2, h.nodup, h.target⟩
  rw [nodup_flatMap]
  refine ⟨fun e he => (h.entry _ _ (mem_entries.mp he)).2.1, ?_⟩
  -- entries under different keys hold records of different callbacks
  refine s.connectMap.sorted.imp_of_mem fun {e e'} he he' hlt => ?_
  intro c hc hc'
  have h₁ := (h.entry _ _ (mem_entries.mp he)).2.2 c hc
  have h₂ := (h.entry _ _ (mem_entries.mp he')).2.2 c hc'
  exact hlt.ne (h₁.symm.trans h₂)

theorem run_viewsAgree (config : ConnectConfig) (devCapacity procCapacity : UInt32)
    (ops : List Op) :
    ViewsAgree (ops.foldl step (init config devCapacity procCapacity)) ∧
    ((∀ op ∈ ops, op.addsRecipient = true) →
      ∀ o, (ops.foldl step (init config devCapacity procCapacity)).recipientMap.contains o =
        (ops.foldl step (init config devCapacity procCapacity)).connectMap.contains o) :=
  ⟨(views_run False config _ _ ops fun _ _ hf => hf.elim).viewsAgree,
    fun hadd => (views_run True config _ _ ops fun op hop _ => hadd op hop).recipients
      trivial⟩

theorem run_connections_live (config : ConnectConfig) (devCapacity procCapacity : UInt32)
    (ops : List Op) :
    let s := ops.foldl step (init config devCapacity procCapacity)
    Known s ∧ (∀ c, s.Listed c → (s.connections c).state ≠ .disconnected) ∧
      ∀ p ∈ s.connectTimeouts, p.2.Nodup ∧ ∀ c ∈ p.2,
        (s.connections c).targetService = p.1 ∧ c < s.nextConnection := by
  have hviews := views_run False config devCapacity procCapacity ops fun _ _ hf => hf.elim
  have hknown := foldlRecOn (motive := Known) ops step (known_init config devCapacity procCapacity)
    fun _ hk op _ => hk.step op
  exact ⟨hknown, hviews.live, hviews.timeouts⟩

def sampleConfig : ConnectConfig := ⟨[], fun _ => -1, 0⟩

def serviceInfo : AbilityInfo :=
  ⟨"", "com.example.service", "entry", "ServiceAbility", .extension, .service, "service"⟩

def serviceRequest : ServiceRequest :=
  ⟨⟨serviceInfo.element serviceInfo.bundleName, 0, 0, 0, "", false⟩, serviceInfo, ⟨1, by decide⟩⟩

def connectedOps : List Op :=
  [.connectAbility serviceRequest 1 100 false {}, .attachAbilityThread 0, .dispatchInactive 0,
    .scheduleConnectAbilityDone 0 true fun _ => {}, .connectAbility serviceRequest 2 100 false {}]

theorem connected_viewsAgree :
    (connectedOps.foldl step (init sampleConfig 1 1)).connectMap.entries = [(1, [0]), (2, [1])] ∧
    ViewsAgree (connectedOps.foldl step (init sampleConfig 1 1)) ∧
    ∀ o, (connectedOps.foldl step (init sampleConfig 1 1)).recipientMap.contains o =
      (connectedOps.foldl step (init sampleConfig 1 1)).connectMap.contains o :=
  ⟨by decide +kernel, (run_viewsAgree sampleConfig 1 1 connectedOps).1,
    (run_viewsAgree sampleConfig 1 1 connectedOps).2 (by decide)⟩

def xiaoyiBundleName : String := "com.huawei.hmos.vassistant"

/-- The result of `GetProcessRunningInfos` is given; nothing else of the report can fail. -/
def reportXiaoYiToRSSIfNeeded (abilityInfo : AbilityInfo) (getProcessRunningInfos : ℤ) : ℤ :=
  if abilityInfo.type ≠ .extension ∨ abilityInfo.bundleName ≠ xiaoyiBundleName then 0
  else getProcessRunningInfos

inductive ConnectRet
  | errOk | errNullObject
  | notReported (ret : ℤ)
  deriving DecidableEq

abbrev WindowExtensionMap := SortedMap CallbackRef (AccessTokenId × ℕ)

section Returned
variable (s) (windows : WindowExtensionMap) (request : ServiceRequest) (connect : CallbackRef)
  (callerTokenId : ℕ) (connectInfo : Bool) (sessionInfo : Option ℕ) (env : ServiceEnv)
  (getProcessRunningInfos : ℤ)

def addWindowExtension (r : ServiceRef) : WindowExtensionMap :=
  match sessionInfo with
  | none => windows
  | some session =>
    if (s.records r).abilityInfo.extensionAbilityType.isWindowExtension then
      windows.emplace connect ((s.records r).accessTokenId, session)
    else windows

def connectAbilityReturned : ConnectRet × AbilityConnectManager × WindowExtensionMap :=
  let ret := reportXiaoYiToRSSIfNeeded request.abilityInfo getProcessRunningInfos
  let env := { env with reported := ret = 0 }
  let s' := s.connectAbilityLocked request connect callerTokenId connectInfo env
  match s.getOrCreateTargetServiceRecord request connectInfo env with
  | (none, _) => (.errNullObject, s', windows)
  | (some (r, isLoadedAbility), t) =>
    if isLoadedAbility ∧ t.isAbilityConnected r (t.getConnectRecordListFromMap connect) then
      (.errOk, s', windows)
    else (if ret = 0 then .errOk else .notReported ret, s',
      t.addWindowExtension windows connect sessionInfo r)

def NoTrace (result : ConnectRet × AbilityConnectManager × WindowExtensionMap) : Prop :=
  result.1 ≠ .errOk → result.2.1.connectMap = s.connectMap ∧
    (∀ r, (result.2.1.records r).connRecordList = (s.records r).connRecordList) ∧
    result.2.2 = windows

/-- The request is for an extension of the assistant whose processes cannot be asked for, and gets
a target to which the callback is not connected yet. -/
def entersUnreported : Prop :=
  request.abilityInfo.type = .extension ∧ request.abilityInfo.bundleName = xiaoyiBundleName ∧
    getProcessRunningInfos ≠ 0 ∧
    ∃ target, (s.getOrCreateTargetServiceRecord request connectInfo env).1 = some target ∧
      ¬ (target.2 = true ∧
        s.isAbilityConnected target.1 (s.getConnectRecordListFromMap connect) = true)

lemma entersUnreported_iff :
    s.entersUnreported request connect connectInfo env getProcessRunningInfos ↔
      reportXiaoYiToRSSIfNeeded request.abilityInfo getProcessRunningInfos ≠ 0 ∧
        ∃ target, (s.getOrCreateTargetServiceRecord request connectInfo env).1 = some target ∧
          ¬ (target.2 = true ∧
            s.isAbilityConnected target.1 (s.getConnectRecordListFromMap connect) = true) := by
  unfold entersUnreported reportXiaoYiToRSSIfNeeded
  split_ifs with h
  · rcases h with h | h <;> simp [h]
  · push Not at h
    simp [h]

theorem noTrace_iff : NoTrace s windows (s.connectAbilityReturned windows request connect
      callerTokenId connectInfo sessionInfo env getProcessRunningInfos) ↔
    ¬ s.entersUnreported request connect connectInfo env getProcessRunningInfos := by
  rw [entersUnreported_iff]
  unfold NoTrace connectAbilityReturned connectAbilityLocked
  generalize reportXiaoYiToRSSIfNeeded request.abilityInfo getProcessRunningInfos = ret
  have henv : s.getOrCreateTargetServiceRecord request connectInfo
      { env with reported := ret = 0 } =
      s.getOrCreateTargetServiceRecord request connectInfo env := rfl
  have hframe := (Frame.refl s).getOrCreateTargetServiceRecord request connectInfo env
  rcases htarget : s.getOrCreateTargetServiceRecord request connectInfo env
    with ⟨_ | ⟨r, isLoaded⟩, t⟩
  · have ht := getOrCreateTarget_none htarget
    simp [henv, htarget, ht]
  · replace hframe : Frame s t := by rwa [htarget] at hframe
    have hconn : t.isAbilityConnected r (t.getConnectRecordListFromMap connect) =
        s.isAbilityConnected r (s.getConnectRecordListFromMap connect) := by
      simp only [isAbilityConnected, getConnectRecordListFromMap, hframe.connectMap,
        hframe.connections]
    simp only [henv, htarget, hconn]
    split_ifs with hconnected hzero
    · simp [hconnected]
    · simp [hzero]
    · refine iff_of_false (fun h => ?_) (not_not.mpr ⟨hzero, _, rfl, hconnected⟩)
      have hassign := (h nofun).1
      simp only [connectTarget, hzero, Views.addConnection_eq] at hassign
      rw [← hframe.connectMap] at hassign
      have hfind := congrArg (fun m => (m.find? connect).getD []) hassign
      simp [find?_assign, getConnectRecordListFromMap] at hfind

def xiaoyiRequest : ServiceRequest :=
  { serviceRequest with abilityInfo := { serviceInfo with bundleName := xiaoyiBundleName } }

theorem notReported_trace : ¬ NoTrace (init sampleConfig 1 1) .empty
    ((init sampleConfig 1 1).connectAbilityReturned .empty xiaoyiRequest 1 100 false none {}
      5) := by
  intro h
  have hentries := congrArg entries (h (by decide +kernel)).1
  revert hentries
  decide +kernel

end Returned

end AbilityConnectManager
end AbilityRuntime
