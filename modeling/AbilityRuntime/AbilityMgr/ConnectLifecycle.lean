import AbilityRuntime.AbilityMgr.ConnectViews

/-! The life of a connection as others see it, in the runs in which no posted task is overtaken. -/

namespace AbilityRuntime
open List ConnectionState

def ConnectionState.rank : ConnectionState → ℕ
  | .init => 0
  | .connecting => 1
  | .connected => 2
  | .disconnecting => 3
  | .disconnected => 4

lemma ConnectionState.rank_lt {st : ConnectionState} (h : st ≠ .disconnected) : st.rank < 4 := by
  cases st <;> first | decide | exact absurd rfl h

namespace ConnectEvent

def since : ConnectEvent → ConnectionState
  | setConnectState state => state
  | onAbilityConnectDone => .connected
  | addConnection => .connected
  | onAbilityDisconnectDone => .disconnected
  | removeConnection _ => .disconnected

def isRemoveConnection : ConnectEvent → Bool
  | removeConnection _ => true
  | _ => false

def mayPrecede : ConnectEvent → ConnectEvent → Bool
  | setConnectState x, setConnectState y => x.rank ≤ y.rank
  | onAbilityConnectDone, onAbilityConnectDone => false
  | onAbilityDisconnectDone, onAbilityDisconnectDone => false
  | onAbilityDisconnectDone, onAbilityConnectDone => false
  | removeConnection _, addConnection => false
  | _, _ => true

def state? : ConnectEvent → Option ConnectionState
  | setConnectState state => some state
  | _ => none

end ConnectEvent

open ConnectEvent

structure LivesOnce (events : List ConnectEvent) : Prop where
  forward : (events.filterMap state?).Pairwise fun x y => x.rank ≤ y.rank
  connectDone_once : events.count onAbilityConnectDone ≤ 1
  disconnectDone_once : events.count onAbilityDisconnectDone ≤ 1
  done_order : events.Pairwise fun a b => a = onAbilityDisconnectDone → b ≠ onAbilityConnectDone
  not_added_again : events.Pairwise fun a b => a.isRemoveConnection = true → b ≠ addConnection

lemma count_le_one_of_pairwise {e : ConnectEvent} {l : List ConnectEvent}
    (h : l.Pairwise fun a b => a = e → b ≠ e) : l.count e ≤ 1 := by
  induction l with
  | nil => exact Nat.zero_le _
  | cons a l ih =>
    rw [pairwise_cons] at h
    by_cases ha : a = e
    · have : l.count e = 0 := count_eq_zero.mpr fun he => h.1 e he ha rfl
      simp [ha, this]
    · simpa [count_cons_of_ne ha] using ih h.2

lemma LivesOnce.of_pairwise {l : List ConnectEvent}
    (h : l.Pairwise fun a b => mayPrecede a b = true) : LivesOnce l := by
  refine ⟨?_, count_le_one_of_pairwise (h.imp ?_), count_le_one_of_pairwise (h.imp ?_), h.imp ?_,
    h.imp ?_⟩
  · rw [pairwise_filterMap]
    refine h.imp fun {a b} hab x hx y hy => ?_
    cases a <;> cases hx
    cases b <;> cases hy
    simpa [mayPrecede] using hab
  · rintro a b hab rfl rfl
    simp [mayPrecede] at hab
  · rintro a b hab rfl rfl
    simp [mayPrecede] at hab
  · rintro a b hab rfl rfl
    simp [mayPrecede] at hab
  · rintro a b hab ha rfl
    cases a <;> simp [isRemoveConnection, mayPrecede] at ha hab

namespace ConnectionRecord
variable {c : ConnectionRecord}

structure Life (c : ConnectionRecord) : Prop where
  order : c.events.Pairwise fun a b => mayPrecede a b = true
  reached : ∀ e ∈ c.events, e.since.rank ≤ c.state.rank
  pending : c.completing ≠ .idle → 2 ≤ c.state.rank
  unsent : onAbilityConnectDone ∈ c.events → c.completing = .idle ∨ c.completing = .addConnection

def Open (c : ConnectionRecord) : Prop :=
  ∀ e ∈ c.events, e ≠ onAbilityDisconnectDone ∧ e.isRemoveConnection = false

lemma Life.open_ (h : Life c) (hst : c.state ≠ .disconnected) : Open c := by
  intro e he
  have hlt := (h.reached e he).trans_lt (rank_lt hst)
  cases e <;> simp_all [since, rank, isRemoveConnection]

variable {e : ConnectEvent}

lemma pairwise_snoc {l : List ConnectEvent} (h : l.Pairwise fun a b => mayPrecede a b = true)
    (he : ∀ a ∈ l, mayPrecede a e = true) :
    (l ++ [e]).Pairwise fun a b => mayPrecede a b = true :=
  pairwise_append.mpr ⟨h, pairwise_singleton _ _, fun a ha _ hb => mem_singleton.mp hb ▸ he a ha⟩

lemma Life.setConnectState (h : Life c) (st : ConnectionState) (hst : c.state.rank ≤ st.rank) :
    Life (c.setConnectState st) := by
  refine ⟨pairwise_snoc h.order fun a ha => ?_, fun e he => ?_, fun hc => (h.pending hc).trans hst,
    fun he => ?_⟩
  · have := h.reached a ha
    cases a <;> simp_all [mayPrecede, since]
    omega
  · rcases mem_append.mp he with he | he
    · exact (h.reached e he).trans hst
    · rw [mem_singleton.mp he]
      exact le_rfl
  · rcases mem_append.mp he with he | he
    · exact h.unsent he
    · exact absurd (mem_singleton.mp he) nofun

lemma Life.emit (h : Life c) (hs : e.since.rank ≤ c.state.rank)
    (he : ∀ a ∈ c.events, mayPrecede a e = true)
    (hc : e = onAbilityConnectDone → c.completing = .idle ∨ c.completing = .addConnection) :
    Life (c.emit e) := by
  refine ⟨pairwise_snoc h.order he, fun a ha => ?_, h.pending, fun ha => ?_⟩
  · rcases mem_append.mp ha with ha | ha
    · exact h.reached a ha
    · rw [mem_singleton.mp ha]
      exact hs
  · rcases mem_append.mp ha with ha | ha
    · exact h.unsent ha
    · exact hc (mem_singleton.mp ha).symm

lemma Open.setConnectState (h : Open c) (st : ConnectionState) : Open (c.setConnectState st) := by
  intro e he
  rcases mem_append.mp he with he | he
  · exact h e he
  · rw [mem_singleton.mp he]
    exact ⟨ConnectEvent.noConfusion, rfl⟩

protected lemma Life.emitToCallback (h : Life c) (hs : e.since.rank ≤ c.state.rank)
    (he : ∀ a ∈ c.events, mayPrecede a e = true)
    (hc : e = onAbilityConnectDone → c.completing = .idle ∨ c.completing = .addConnection) :
    Life (c.emitToCallback e) := by
  unfold emitToCallback
  split
  · exact h.emit hs he hc
  · exact h

lemma Life.idle_of_connecting (h : Life c) (hst : c.state = .connecting) :
    c.completing = .idle := by
  by_contra hne
  have hrank := h.pending hne
  rw [hst] at hrank
  exact absurd hrank (by decide)

lemma Life.mayPrecede_addConnection (h : Life c) (hst : c.state ≠ .disconnected) :
    ∀ a ∈ c.events, mayPrecede a .addConnection = true := by
  intro a ha
  have hopen := (h.open_ hst a ha).2
  cases a <;> first | rfl | cases hopen

lemma Life.completeNext (h : Life c) (remoteObject : Bool)
    (hst : if c.completing = .idle then c.state = .connecting else c.state ≠ .disconnected) :
    Life (c.completeNext remoteObject) := by
  unfold ConnectionRecord.completeNext
  split
  · rename_i hidle
    rw [if_pos hidle] at hst
    have hconn := h.setConnectState .connected (by rw [hst]; decide)
    refine ⟨hconn.order, hconn.reached, fun _ => le_rfl, fun he => ?_⟩
    rcases mem_append.mp he with he | he
    · have hrank := h.reached _ he
      rw [hst] at hrank
      exact absurd hrank (by decide)
    · exact absurd (mem_singleton.mp he) nofun
  all_goals
    rename_i hstage
    rw [if_neg (by rw [hstage]; exact nofun)] at hst
    have hpending := h.pending (by rw [hstage]; exact nofun)
  · refine ⟨h.order, h.reached, fun _ => hpending, fun he => ?_⟩
    exact absurd (h.unsent he) (by simp [hstage])
  · have hlost := h.setConnectState .disconnecting (Nat.le_of_lt_succ (rank_lt hst))
    exact ⟨hlost.order, hlost.reached, fun hne => absurd rfl hne, fun _ => .inl rfl⟩
  · exact ⟨h.order, h.reached, fun _ => hpending, fun _ => .inr rfl⟩
  · have hsent : onAbilityConnectDone ∉ c.events := fun he =>
      absurd (h.unsent he) (by simp [hstage])
    have hnext : Life { c with completing := .addConnection } :=
      ⟨h.order, h.reached, fun _ => hpending, fun _ => .inr rfl⟩
    refine hnext.emit hpending (fun a ha => ?_) fun _ => .inr rfl
    have hdone := (h.open_ hst a ha).1
    cases a <;> first | rfl | exact absurd ha hsent | exact absurd rfl hdone
  · have hadd : Life (c.emit .addConnection) :=
      h.emit hpending (h.mayPrecede_addConnection hst) nofun
    exact ⟨hadd.order, hadd.reached, fun hne => absurd rfl hne, fun _ => .inl rfl⟩

lemma Life.completeConnect (h : Life c) (hst : c.state = .connecting) (remoteObject : Bool) :
    Life (c.completeConnect remoteObject) := by
  have hconn : Life (c.setConnectState .connected) := h.setConnectState _ (by rw [hst]; decide)
  cases remoteObject with
  | false => exact hconn.setConnectState _ (Nat.le_succ 2)
  | true =>
    have hd : Life ((c.setConnectState .connected).emitToCallback .onAbilityConnectDone) := by
      refine hconn.emitToCallback le_rfl (fun a ha => ?_) fun _ => .inl (h.idle_of_connecting hst)
      rcases mem_append.mp ha with ha | ha
      · have hr := h.reached a ha
        cases a <;> simp_all [since, rank, mayPrecede]
      · rw [mem_singleton.mp ha]
        rfl
    have hstate := (emitToCallback_ends (c.setConnectState .connected) .onAbilityConnectDone).2.2
    refine hd.emit (by rw [hstate]; exact le_rfl) (hd.mayPrecede_addConnection ?_) nofun
    rw [hstate]
    exact nofun

lemma Life.completeDisconnect (h : Life c) (ho : Open c) (isCallerDied : Bool) :
    Life (c.completeDisconnect isCallerDied) := by
  have hst : c.state.rank ≤ disconnected.rank := by
    cases c.state <;> decide
  have hd := h.setConnectState _ hst
  have hopen := ho.setConnectState .disconnected
  have hdone : Life ((c.setConnectState .disconnected).emitToCallback
      .onAbilityDisconnectDone) := by
    refine hd.emitToCallback le_rfl (fun a ha => ?_) nofun
    have := (hopen a ha).1
    cases a <;> first | rfl | exact absurd rfl this
  refine hdone.emit ?_ (fun a _ => ?_) nofun
  · rw [(emitToCallback_ends _ _).2.2]
    exact le_rfl
  · cases a <;> rfl

end ConnectionRecord

namespace AbilityConnectManager
variable {s s' : AbilityConnectManager} {full : Prop} {c : ConnectionRef}

def Lives (s : AbilityConnectManager) : Prop := ∀ c, (s.connections c).Life

def Undisconnected (s : AbilityConnectManager) (l : List ConnectionRef) : Prop :=
  ∀ c ∈ l, (s.connections c).state ≠ .disconnected

def OnlyAt (c : ConnectionRef) (s s' : AbilityConnectManager) : Prop :=
  ∀ x, x ≠ c → s'.connections x = s.connections x

variable (s c) (f : ConnectionRecord → ConnectionRecord)

lemma onlyAt_modifyConnection : OnlyAt c s (s.modifyConnection c f) :=
  fun _ hx => Function.update_of_ne hx ..

variable {s c}

lemma OnlyAt.undisconnected (h : OnlyAt c s s') {rest : List ConnectionRef}
    (hn : (c :: rest).Nodup) (hl : s.Undisconnected (c :: rest)) : s'.Undisconnected rest := by
  intro x hx
  have hne : x ≠ c := fun he => (nodup_cons.mp hn).1 (he ▸ hx)
  rw [h x hne]
  exact hl x (mem_cons_of_mem _ hx)

namespace Lives

section
variable (h : Lives s)
include h

lemma frame (hf : Frame s s') : Lives s' := by
  intro c
  rw [hf.connections]
  exact h c

protected lemma modifyConnection {f : ConnectionRecord → ConnectionRecord}
    (hf : (f (s.connections c)).Life) : Lives (s.modifyConnection c f) := by
  intro x
  rcases eq_or_ne x c with rfl | hx
  · simpa [modifyConnection] using hf
  · simpa [modifyConnection, Function.update_of_ne hx] using h x

lemma completeConnect (hst : (s.connections c).state = .connecting) : Lives (s.completeConnect c) :=
  (h.modifyConnection ((h c).completeConnect hst _)).frame ((Frame.refl _).setAbilityState _ _)

lemma completeDisconnect (ho : (s.connections c).Open) (isCallerDied : Bool) :
    Lives (s.completeDisconnect c isCallerDied) :=
  h.modifyConnection ((h c).completeDisconnect ho isCallerDied)

lemma removeFromMap (c : ConnectionRef) : Lives (s.removeConnectionRecordFromMap c) := by
  intro x
  rw [connections_removeFromMap]
  exact h x

protected lemma disconnectDirectly (r : ServiceRef)
    (hst : (s.connections c).state ≠ .disconnected) : Lives (disconnectDirectly r s c) :=
  (show Lives ((s.completeDisconnect c false).removeConnectRecordFromList r c) from
    h.completeDisconnect ((h c).open_ hst) false).removeFromMap c

end

lemma onlyAt_disconnectDirectly (r : ServiceRef) (s : AbilityConnectManager)
    (c : ConnectionRef) : OnlyAt c s (disconnectDirectly r s c) := by
  intro x hx
  rw [disconnectDirectly, connections_removeFromMap]
  exact onlyAt_modifyConnection s c (·.completeDisconnect false) x hx

lemma disconnectAll (h : Lives s) (r : ServiceRef) {l : List ConnectionRef} (hn : l.Nodup)
    (hl : s.Undisconnected l) : Lives (l.foldl (disconnectDirectly r) s) := by
  induction l generalizing s with
  | nil => exact h
  | cons c rest ih =>
    exact ih (h.disconnectDirectly r (hl c (mem_cons_self ..))) (nodup_cons.mp hn).2
      ((onlyAt_disconnectDirectly r s c).undisconnected hn hl)

variable {result : ConnectResult}

section
variable (h : Lives s)
include h

section
variable (hst : (s.connections c).state ≠ .disconnected)
include hst

protected lemma disconnectAbility (hd : s.disconnectAbility c = (result, s')) :
    Lives s' ∧ OnlyAt c s s' ∧ (s'.connections c).Open ∧ (result ≠ .ok → s' = s) := by
  have ho := (h c).open_ hst
  unfold disconnectAbility at hd
  split at hd
  · cases hd
    exact ⟨h, fun _ _ => rfl, ho, fun _ => rfl⟩
  rename_i hconn
  have hconn' : (s.connections c).state = .connected := by simpa using hconn
  have hlife : ((s.connections c).setConnectState .disconnecting).Life :=
    (h c).setConnectState _ (by rw [hconn']; exact Nat.le_succ 2)
  have hopen := ho.setConnectState .disconnecting
  have h₁ := h.modifyConnection (f := (·.setConnectState .disconnecting)) hlife
  have hself : (s.modifyConnection c (·.setConnectState .disconnecting)).connections c = _ :=
    Function.update_self ..
  dsimp only at hd
  split at hd
  · cases hd
    exact ⟨h₁, onlyAt_modifyConnection s c _, hself ▸ hopen, fun hne => absurd rfl hne⟩
  · cases hd
    have hl := hlife.setConnectState .disconnected (Nat.le_succ 3)
    refine ⟨.modifyConnection h₁ (f := (·.setConnectState .disconnected)) (hself ▸ hl),
      fun x hx => ?_, ?_, fun hne => absurd rfl hne⟩
    · exact (onlyAt_modifyConnection _ c _ x hx).trans
        (onlyAt_modifyConnection s c (·.setConnectState .disconnecting) x hx)
    · rw [show (modifyConnection _ c _).connections c = _ from Function.update_self ..]
      exact (hself ▸ hopen).setConnectState .disconnected

protected lemma disconnectRecordNormal {list list' : List ConnectionRef} {callerDied : Bool}
    (hd : s.disconnectRecordNormal list c callerDied = (result, list', s')) :
    Lives s' ∧ OnlyAt c s s' ∧ (result ≠ .ok → s' = s) := by
  unfold disconnectRecordNormal at hd
  split at hd
  · rename_i t heq
    obtain ⟨ht, hat, hopen, -⟩ := h.disconnectAbility hst heq
    split at hd
    · cases hd
      exact ⟨ht.completeDisconnect hopen callerDied,
        fun x hx => (onlyAt_modifyConnection t c _ x hx).trans (hat x hx),
        fun hne => absurd rfl hne⟩
    · cases hd
      exact ⟨ht, hat, fun hne => absurd rfl hne⟩
  · rename_i heq
    cases hd
    obtain ⟨ht, hat, -, hsame⟩ := h.disconnectAbility hst heq
    exact ⟨ht, hat, hsame⟩

protected lemma disconnectRecordForce (list : List ConnectionRef) :
    Lives (s.disconnectRecordForce list c).2 ∧ OnlyAt c s (s.disconnectRecordForce list c).2 := by
  have hl : Lives ((s.removeConnectRecordFromList (s.connections c).targetService
      c).completeDisconnect c true) :=
    completeDisconnect h ((h c).open_ hst) true
  have hat : OnlyAt c s ((s.removeConnectRecordFromList (s.connections c).targetService
      c).completeDisconnect c true) := onlyAt_modifyConnection _ c _
  unfold disconnectRecordForce
  dsimp only
  split
  · have hf := Frame.takes.terminateRecord (.refl ((s.removeConnectRecordFromList
      (s.connections c).targetService c).completeDisconnect c true)) (s.connections c).targetService
    exact ⟨hl.frame hf, fun x hx => (congrFun hf.connections x).trans (hat x hx)⟩
  · exact ⟨hl, hat⟩

end

protected lemma disconnectRecords {callerDied : Bool} {callingTokenId : ℕ}
    {l list list' : List ConnectionRef} (hn : l.Nodup) (hl : s.Undisconnected l)
    (hd : disconnectRecords callerDied callingTokenId l list s = (result, list', s')) :
    Lives s' := by
  induction l generalizing list s with
  | nil =>
    cases hd
    exact h
  | cons c rest ih =>
    have hst := hl c (mem_cons_self ..)
    have hrest := (nodup_cons.mp hn).2
    unfold disconnectRecords at hd
    split at hd
    · exact ih h hrest (fun x hx => hl x (mem_cons_of_mem _ hx)) hd
    split at hd
    · rename_i heq
      obtain ⟨ht, hat, -⟩ := h.disconnectRecordNormal hst heq
      exact ih ht hrest (hat.undisconnected hn hl) hd
    · rename_i list₁ t hne heq
      obtain ⟨ht, -, hsame⟩ := h.disconnectRecordNormal hst heq
      obtain rfl := hsame hne
      split at hd
      · obtain ⟨hf, hat⟩ := h.disconnectRecordForce hst list₁
        exact ih hf hrest (hat.undisconnected hn hl) hd
      · cases hd
        exact h

protected lemma disconnectAbilityLocked (hv : Views full ∅ s)
    (connect : CallbackRef) (callerDied : Bool) (callingTokenId : ℕ) :
    Lives (s.disconnectAbilityLocked connect callerDied callingTokenId).2 := by
  unfold disconnectAbilityLocked
  split
  · exact h
  rename_i hne
  have hfind : s.connectMap.find? connect = some (s.getConnectRecordListFromMap connect) :=
    (Views.getConnectRecordListFromMap_eq s connect).resolve_left fun hnil => hne hnil.1
  have hn := (hv.entry _ _ hfind).2.1
  have hl : s.Undisconnected (s.getConnectRecordListFromMap connect) := fun x hx =>
    hv.live x ((hv.agree x (Set.notMem_empty x)).mp (hv.mem_getConnectRecordListFromMap.mp hx).1)
  obtain ⟨result, list, t, hd⟩ : ∃ result list t, disconnectRecords callerDied
      callingTokenId (s.getConnectRecordListFromMap connect) [] s = (result, list, t) :=
    ⟨_, _, _, rfl⟩
  simp only [hd]
  exact foldlRecOn _ _ (h.disconnectRecords hn hl hd) fun _ ht c _ => ht.removeFromMap c

protected lemma handleExtensionDisconnectTask (hst : (s.connections c).state ≠ .disconnected) :
    Lives (s.handleExtensionDisconnectTask c) := by
  unfold handleExtensionDisconnectTask
  obtain ⟨result, t, hd⟩ : ∃ result t, s.disconnectAbility c = (result, t) := ⟨_, _, rfl⟩
  simp only [hd]
  obtain ⟨ht, -, hopen, -⟩ := h.disconnectAbility hst hd
  split
  · exact (ht.completeDisconnect hopen false).removeFromMap c
  · exact ht

protected lemma scheduleDisconnectAbilityDoneLocked (r : ServiceRef)
    (sessionExist : Bool) : Lives (s.scheduleDisconnectAbilityDoneLocked r sessionExist) := by
  unfold scheduleDisconnectAbilityDoneLocked
  split
  · exact h
  split
  · exact h
  rename_i c hc
  split
  · exact h
  have hst : (s.connections c).state = .disconnecting := by simpa using find?_some hc
  have hd : Lives ((s.completeDisconnect c
      (!(s.connections c).connCallback)).removeConnectRecordFromList r c) :=
    h.completeDisconnect ((h c).open_ (by rw [hst]; exact noConfusion)) _
  dsimp only
  split
  · exact (hd.frame (Frame.takes.terminateOrCacheAbility (.refl _) r)).removeFromMap c
  · exact hd.removeFromMap c

protected lemma connectDoneOf (r : ServiceRef) (c : ConnectionRef) :
    Lives (connectDoneOf r s c) := by
  have hc : Lives (s.scheduleConnectAbilityDone c) := by
    unfold scheduleConnectAbilityDone
    split_ifs with hst
    · exact h.completeConnect hst
    · exact h
  unfold connectDoneOf postExtensionDelayDisconnectTask
  dsimp only
  split_ifs
  · exact hc
  · exact hc.frame ((Frame.refl _).delaying _)
  · exact hc

end

lemma undisconnected_list (hv : Views full ∅ s) (r : ServiceRef) :
    s.Undisconnected (s.records r).connRecordList := fun c hc => hv.live c (hv.listed hc)

protected lemma handleTerminateDisconnectTask (h : Lives s) (hv : Views full ∅ s)
    (r : ServiceRef) : Lives (s.handleTerminateDisconnectTask r) :=
  h.disconnectAll r (hv.nodup r) (undisconnected_list hv r)

variable (full) in
lemma steady : Steady fun s => Views full ∅ s ∧ Lives s :=
  ⟨fun hf h => ⟨h.1.frame hf, h.2.frame hf⟩, fun r h =>
    ⟨h.1.handleTerminateDisconnectTask r, h.2.handleTerminateDisconnectTask h.1 r⟩⟩

lemma addConnection (h : Lives s) (r : ServiceRef) (connect : CallbackRef) (callerTokenId : ℕ)
    (added : Bool) : Lives (s.addConnection r connect callerTokenId added) := by
  rw [Views.addConnection_eq]
  intro x
  have hinit : ConnectionRecord.Life { targetService := r, callback := connect, callerTokenId } :=
    ⟨.nil, nofun, fun hne => absurd rfl hne, nofun⟩
  rcases eq_or_ne x s.nextConnection with rfl | hx
  · simpa [modifyRecord, createConnectionRecord] using
      hinit.setConnectState .connecting (Nat.zero_le 1)
  · simpa [modifyRecord, createConnectionRecord, hx] using h x

end Lives

def timely (s : AbilityConnectManager) : Op → Bool
  | .completeConnectTask c =>
    if (s.connections c).completing = .idle then
      c ∉ s.completeConnectTasks ∨ (s.connections c).state = .connecting
    else (s.connections c).state ≠ .disconnected
  | .delayDisconnectTask c =>
    c ∉ s.delayDisconnectTasks ∨ (s.connections c).state ≠ .disconnected
  | .handleConnectTimeoutTask =>
    match s.connectTimeouts with
    | [] => true
    | (_, connectList) :: _ =>
      connectList.all fun c => (s.connections c).state ≠ .disconnected
  | _ => true

protected lemma Lives.runCompleteConnectTask (h : Lives s)
    (ht : s.timely (.completeConnectTask c) = true) : Lives (s.runCompleteConnectTask c) := by
  have hnext (hst : if (s.connections c).completing = .idle then (s.connections c).state =
      .connecting else (s.connections c).state ≠ .disconnected) (remoteObject : Bool) :
      Lives (s.modifyConnection c (·.completeNext remoteObject)) :=
    h.modifyConnection ((h c).completeNext remoteObject hst)
  unfold runCompleteConnectTask
  dsimp only [timely] at ht ⊢
  split
  · rename_i hidle
    split
    · rename_i hc
      exact (hnext (by simpa [hidle, hc] using ht) _).frame ((Frame.refl _).completing _)
    · exact h
  · rename_i hstage
    exact (hnext (by simpa [hstage] using ht) _).frame ((Frame.refl _).setAbilityState _ _)
  · rename_i hstage _
    have hidle : (s.connections c).completing ≠ .idle := hstage
    exact hnext (by simpa [hidle] using ht) _

protected lemma Lives.step (h : Lives s) (hv : Views full ∅ s) (op : Op)
    (ht : s.timely op = true) : Lives (s.step op) := by
  cases op with
  | connectAbility request connect callerTokenId connectInfo env =>
    simp only [step, connectAbilityLocked]
    have hf := h.frame ((Frame.refl s).getOrCreateTargetServiceRecord request connectInfo env)
    split
    · rename_i heq
      rwa [heq] at hf
    · rename_i r isLoaded t heq
      rw [heq] at hf
      split
      · exact hf
      · exact (Lives.addConnection hf r connect callerTokenId _).frame
          ((Frame.refl _).connectTarget r request _ _ _)
  | disconnectAbility connect callingTokenId =>
    exact h.disconnectAbilityLocked hv connect false callingTokenId
  | clearConnCallBacks connect =>
    simp only [step, clearConnCallBacks]
    split
    · exact h
    · exact foldlRecOn _ _ (h.frame ((Frame.refl s).died _))
        fun t ht c _ => ht.modifyConnection { ht c with }
  | handleCallBackDiedTask =>
    simp only [step, handleCallBackDiedTask]
    split
    · exact h
    · rename_i rest _
      have hf := (Frame.refl s).died rest
      exact (h.frame hf).disconnectAbilityLocked (hv.frame hf) _ true _
  | scheduleConnectAbilityDone r remoteObject envs =>
    simp only [step, scheduleConnectAbilityDoneLocked]
    split
    · refine Lives.frame ?_ ((Frame.refl _).completeStartServiceReq r envs)
      exact foldlRecOn _ _ (h.frame ((Frame.refl s).modifyRecord r rfl))
        fun _ ht c _ => ht.connectDoneOf r c
    · exact h
  | scheduleDisconnectAbilityDone r sessionExist =>
    exact h.scheduleDisconnectAbilityDoneLocked r sessionExist
  | handleStartTimeoutTask r =>
    simp only [step, handleStartTimeoutTask]
    have hd := h.disconnectAll r (l := s.getConnectingRecordList r) ((hv.nodup r).filter _)
      fun c hc => Lives.undisconnected_list hv r c (mem_filter.mp hc).1
    split
    · exact hd.frame (Frame.takes.removeServiceAbility
        (Frame.takes.moveToTerminatingMap (.refl _) r) r)
    · exact hd
  | readConnectList r => exact h
  | handleConnectTimeoutTask =>
    simp only [step, handleConnectTimeoutTask]
    split
    · exact h
    rename_i r l rest heq
    have hl : s.Undisconnected l := by simpa [timely, heq, Undisconnected] using ht
    have hn := (hv.timeouts (r, l) (heq ▸ mem_cons_self ..)).1
    have hd := Lives.disconnectAll (s := { s with connectTimeouts := rest }) h r hn hl
    split
    · exact hd
    · exact hd.frame (Frame.takes.terminateRecord (.refl _) r)
  | completeConnectTask c =>
    exact h.runCompleteConnectTask ht
  | delayDisconnectTask c =>
    simp only [step, runDelayDisconnectTask]
    split_ifs with hc
    · have hst : (s.connections c).state ≠ .disconnected := by simpa [timely, hc] using ht
      exact (h.frame ((Frame.refl s).delaying _)).handleExtensionDisconnectTask hst
    · exact h
  | _ => exact ((Lives.steady full).step ⟨hv, h⟩ rfl).2

def timelyOps : List Op :=
  connectedOps ++ replicate 4 (.completeConnectTask 1) ++ [.terminateAbility 0]

/-- The service is terminated when `n` stages of the posted `CompleteConnect` have run. -/
def overtakenOps (n : ℕ) : List Op :=
  connectedOps ++ replicate n (.completeConnectTask 1) ++
    .terminateAbility 0 :: replicate (4 - n) (.completeConnectTask 1)

def overtakenEvents (n : ℕ) : List ConnectEvent :=
  (((overtakenOps n).foldl step (init sampleConfig 1 1)).connections 1).events

end AbilityConnectManager
end AbilityRuntime
