import AbilityRuntime.DataObs.ChangeInfo
import AbilityRuntime.DataObs.Node
import AbilityRuntime.Library.Runs

/-! `DataObsMgrInner` and `DataObsMgrInnerPref`: a list of observers for each uri and one death
recipient for each client. Several proxies can stand for a client, and the code compares now the
remote objects, now the proxies. -/

open Option

namespace AbilityRuntime.DataObs
open Runs List SortedMap Nat

variable {Uri Obs Remote : Type} [DecidableEq Remote]

structure ObsTable (Obs Remote : Type) where
  observers : SortedMap String (List Obs)
  obsRecipient : Finset Remote

variable (env : Env Uri Obs Remote) (s : ObsTable Obs Remote)

namespace ObsTable

def init : ObsTable Obs Remote := ⟨SortedMap.empty, ∅⟩

def sameClient (dataObserver obs : Obs) : Bool :=
  env.asObject obs = env.asObject dataObserver

def addObsDeathRecipient (recipients : Finset Remote) (dataObserver : Obs) : Finset Remote :=
  match env.asObject dataObserver with
  | none => recipients
  | some remote => insert remote recipients

def removeObsDeathRecipient (recipients : Finset Remote) : Option Remote → Finset Remote
  | none => recipients
  | some remote => recipients.erase remote

def handleRegisterObserver (uri : Uri) (dataObserver : Obs) : Status × ObsTable Obs Remote :=
  let key := env.toString uri
  let observers := s.observers.emplace key []
  let list := (observers.find? key).getD []
  if s.observers.contains key && decide (list.length > obsNumMax) then
    (.dataobsServiceObsLimmit, { s with observers := observers })
  else if list.any (sameClient env dataObserver) then (.obsExist, { s with observers := observers })
  else (.success, ⟨observers.modify key (· ++ [dataObserver]),
    addObsDeathRecipient env s.obsRecipient dataObserver⟩)

def putList (observers : SortedMap String (List Obs)) (key : String) (list : List Obs) :
    SortedMap String (List Obs) :=
  if list.isEmpty then observers.erase key else observers.modify key fun _ => list

/-- The part of `HandleUnregisterObserver` that changes `observers_`, if it finds the client:
`remove(*obs)` takes away every copy of the proxy that was found. -/
def dropObserver [DecidableEq Obs] (observers : SortedMap String (List Obs)) (uri : Uri)
    (dataObserver : Obs) : Option (SortedMap String (List Obs)) :=
  match observers.find? (env.toString uri) with
  | none => none
  | some list =>
    match list.find? (sameClient env dataObserver) with
    | none => none
    | some obs => some (putList observers (env.toString uri) (list.filter (· ≠ obs)))

def haveRegistered [DecidableEq Obs] (observers : SortedMap String (List Obs))
    (dataObserver : Obs) : Bool :=
  observers.entries.any fun p => p.2.contains dataObserver

def handleUnregisterObserver [DecidableEq Obs] (uri : Uri) (dataObserver : Obs) :
    Status × ObsTable Obs Remote :=
  match dropObserver env s.observers uri dataObserver with
  | none => (.noObsForUri, s)
  | some observers => (.success, ⟨observers,
    if haveRegistered observers dataObserver then s.obsRecipient
    else removeObsDeathRecipient s.obsRecipient (env.asObject dataObserver)⟩)

/-- `RemoveObs`: the first match of every list is erased, and empty lists go. -/
def removeObs (dataObserver : Remote) : ObsTable Obs Remote :=
  ⟨s.observers.traverse fun _ obsList =>
    let obsList := obsList.eraseP fun obs => env.asObject obs = some dataObserver
    if obsList.isEmpty then none else some obsList,
    removeObsDeathRecipient s.obsRecipient (some dataObserver)⟩

def onCallBackDied : Option Remote → ObsTable Obs Remote
  | none => s
  | some remote => removeObs env s remote

end ObsTable

open ObsTable

namespace DataObsMgrInner

def handleRegisterObserver := ObsTable.handleRegisterObserver env
def handleUnregisterObserver [DecidableEq Obs] := ObsTable.handleUnregisterObserver env
def onCallBackDied := ObsTable.onCallBackDied env

end DataObsMgrInner

open DataObsMgrInner

namespace DataObsMgrInnerPref

def handleRegisterObserver := ObsTable.handleRegisterObserver env
def handleUnregisterObserver [DecidableEq Obs] := ObsTable.handleUnregisterObserver env
def onCallBackDied := ObsTable.onCallBackDied env

end DataObsMgrInnerPref

open DataObsMgrInnerPref

inductive InnerOp (Uri Obs Remote : Type) where
  | registerObserver (uri : Uri) (dataObserver : Obs)
  | unregisterObserver (uri : Uri) (dataObserver : Obs)
  | callBackDied (remote : Option Remote)

def DataObsMgrInner.apply [DecidableEq Obs] (s : ObsTable Obs Remote) :
    InnerOp Uri Obs Remote → ObsTable Obs Remote
  | .registerObserver uri obs => (handleRegisterObserver env s uri obs).2
  | .unregisterObserver uri obs => (handleUnregisterObserver env s uri obs).2
  | .callBackDied remote => onCallBackDied env s remote

def DataObsMgrInnerPref.apply [DecidableEq Obs] (s : ObsTable Obs Remote) :
    InnerOp Uri Obs Remote → ObsTable Obs Remote
  | .registerObserver uri obs => (handleRegisterObserver env s uri obs).2
  | .unregisterObserver uri obs => (handleUnregisterObserver env s uri obs).2
  | .callBackDied remote => onCallBackDied env s remote

inductive Mgr where
  | inner
  | pref

def Mgr.apply [DecidableEq Obs] (env : Env Uri Obs Remote) :
    Mgr → ObsTable Obs Remote → InnerOp Uri Obs Remote → ObsTable Obs Remote
  | .inner => DataObsMgrInner.apply env
  | .pref => DataObsMgrInnerPref.apply env

def Mgr.run [DecidableEq Obs] (env : Env Uri Obs Remote) (mgr : Mgr)
    (ops : List (InnerOp Uri Obs Remote)) : ObsTable Obs Remote :=
  ops.foldl (mgr.apply env) init

namespace ObsTable

variable (observers : SortedMap String (List Obs))

def listOf (key : String) : List Obs :=
  (observers.find? key).getD []

lemma listOf_emplace (key key' : String) :
    listOf (observers.emplace key []) key' = listOf observers key' := by
  rw [listOf, find?_emplace]
  split_ifs with h
  · subst h
    rfl
  · rfl

lemma listOf_putList {observers : SortedMap String (List Obs)} {key : String}
    (h : observers.contains key = true) (list : List Obs) (key' : String) :
    listOf (putList observers key list) key' = if key = key' then list
    else listOf observers key' := by
  obtain ⟨old, hold⟩ := contains_iff.mp h
  unfold putList listOf
  split_ifs with hnil hk hk
  · rw [find?_erase, if_pos hk, isEmpty_iff.mp hnil]
    rfl
  · rw [find?_erase, if_neg hk]
  · rw [find?_modify, if_pos hk, ← hk, hold]
    rfl
  · rw [find?_modify, if_neg hk]

lemma listOf_removeObs (r : Remote) (key : String) : listOf (removeObs env s r).observers key =
      (listOf s.observers key).eraseP fun obs => env.asObject obs = some r := by
  unfold listOf removeObs
  rw [find?_traverse]
  cases s.observers.find? key with
  | none => rfl
  | some list =>
    simp only [bind_some]
    split_ifs with hnil
    · exact (isEmpty_iff.mp hnil).symm
    · rfl

lemma dropObserver_eq_some [DecidableEq Obs] {env : Env Uri Obs Remote}
    {observers rest : SortedMap String (List Obs)} {uri : Uri}
    {dataObserver : Obs} (h : dropObserver env observers uri dataObserver = some rest) :
    ∃ obs ∈ listOf observers (env.toString uri), env.asObject obs = env.asObject dataObserver ∧
      ∀ key, listOf rest key =
        if env.toString uri = key then (listOf observers key).filter (· ≠ obs)
          else listOf observers key := by
  unfold dropObserver at h
  cases hf : observers.find? (env.toString uri) with
  | none => simp [hf] at h
  | some list =>
    cases hobs : list.find? (sameClient env dataObserver) with
    | none => simp [hf, hobs] at h
    | some obs =>
      simp only [hf, hobs, some.injEq] at h
      subst h
      have hlist : listOf observers (env.toString uri) = list := by
        rw [listOf, hf, getD_some]
      have hsame : sameClient env dataObserver obs = true := find?_some hobs
      refine ⟨obs, hlist ▸ mem_of_find?_eq_some hobs, of_decide_eq_true hsame, fun key => ?_⟩
      rw [listOf_putList (contains_iff.mpr ⟨list, hf⟩)]
      split_ifs with hk
      · rw [← hk, hlist]
      · rfl

theorem handleRegisterObserver_cases (uri : Uri) (dataObserver : Obs) :
    ((handleRegisterObserver env s uri dataObserver).1 ≠ .success ∧
      ((listOf s.observers (env.toString uri)).length > obsNumMax ∨
        ∃ obs ∈ listOf s.observers (env.toString uri),
          env.asObject obs = env.asObject dataObserver) ∧
      (handleRegisterObserver env s uri dataObserver).2 = s) ∨
    ((handleRegisterObserver env s uri dataObserver).1 = .success ∧
      (listOf s.observers (env.toString uri)).length ≤ obsNumMax ∧
      (∀ obs ∈ listOf s.observers (env.toString uri), env.asObject obs ≠
        env.asObject dataObserver) ∧
      (∀ key, (handleRegisterObserver env s uri dataObserver).2.observers.find? key =
        if env.toString uri = key then some (listOf s.observers key ++ [dataObserver])
          else s.observers.find? key) ∧
      (handleRegisterObserver env s uri dataObserver).2.obsRecipient =
        addObsDeathRecipient env s.obsRecipient dataObserver) := by
  have hlist : ((s.observers.emplace (env.toString uri) []).find? (env.toString uri)).getD [] =
      listOf s.observers (env.toString uri) := listOf_emplace _ _ _
  have hsame (h : s.observers.contains (env.toString uri) = true) :
      s.observers.emplace (env.toString uri) [] = s.observers := emplace_of_contains [] h
  have hnil (h : ¬ s.observers.contains (env.toString uri) = true) :
      listOf s.observers (env.toString uri) = [] := by
    rw [listOf, contains_eq_false.mp (Bool.not_eq_true _ ▸ h), getD_none]
  simp only [handleRegisterObserver, hlist]
  split_ifs with hfull hdup
  · obtain ⟨hin, hlen⟩ := Bool.and_eq_true_iff.mp hfull
    exact .inl ⟨(fun h => nomatch h), .inl (of_decide_eq_true hlen), by rw [hsame hin]⟩
  · obtain ⟨obs, hobs, he⟩ := any_eq_true.mp hdup
    have hin : s.observers.contains (env.toString uri) = true := by
      by_contra hout
      rw [hnil hout] at hobs
      cases hobs
    exact .inl ⟨(fun h => nomatch h), .inr ⟨obs, hobs, of_decide_eq_true he⟩, by rw [hsame hin]⟩
  · refine .inr ⟨rfl, ?_, fun obs hobs he => hdup (any_eq_true.mpr ⟨obs, hobs,
      decide_eq_true he⟩), fun key => ?_, rfl⟩
    · by_contra hlen
      by_cases hin : s.observers.contains (env.toString uri) = true
      · exact hfull (Bool.and_eq_true_iff.mpr ⟨hin, decide_eq_true (not_le.mp hlen)⟩)
      · rw [hnil hin] at hlen
        exact hlen (zero_le _)
    · rw [find?_modify, find?_emplace]
      split_ifs with hk
      · rw [hk]
        rfl
      · rfl

def HasClient (r : Remote) : Prop :=
  ∃ p ∈ observers.entries, ∃ obs ∈ p.2, env.asObject obs = some r

lemma exists_listOf (P : Obs → Prop) :
    (∃ p ∈ observers.entries, ∃ obs ∈ p.2, P obs) ↔ ∃ key, ∃ obs ∈ listOf observers key, P obs := by
  constructor
  · rintro ⟨p, hp, obs, hobs, h⟩
    have hfind := mem_entries.mp hp
    exact ⟨p.1, obs, by rwa [listOf, hfind], h⟩
  · rintro ⟨key, obs, hobs, h⟩
    unfold listOf at hobs
    cases hfind : observers.find? key with
    | none => simp [hfind] at hobs
    | some list =>
      rw [hfind] at hobs
      exact ⟨(key, list), mem_entries.mpr hfind, obs, hobs, h⟩

lemma haveRegistered_iff [DecidableEq Obs] {observers : SortedMap String (List Obs)}
    {dataObserver : Obs} :
    haveRegistered observers dataObserver = true ↔ ∃ key, dataObserver ∈ listOf observers key := by
  have h := exists_listOf observers fun obs => obs = dataObserver
  simpa [haveRegistered] using h

structure Consistent : Prop where
  unique : ∀ key, ((listOf s.observers key).map env.asObject).Nodup
  recipient : ∀ r, r ∈ s.obsRecipient ↔ HasClient env s.observers r

section
variable {env : Env Uri Obs Remote} {s : ObsTable Obs Remote}

omit [DecidableEq Remote] in
lemma hasClient_iff {observers : SortedMap String (List Obs)} {r : Remote} :
    HasClient env observers r ↔ ∃ key, ∃ obs ∈ listOf observers key, env.asObject obs = some r :=
  exists_listOf observers fun obs => env.asObject obs = some r

variable {recipients : Finset Remote}

lemma mem_addObsDeathRecipient {dataObserver : Obs} {r : Remote} :
    r ∈ addObsDeathRecipient env recipients dataObserver ↔
      env.asObject dataObserver = some r ∨ r ∈ recipients := by
  unfold addObsDeathRecipient
  cases env.asObject dataObserver with
  | none => simp
  | some remote => simp [eq_comm]

lemma mem_removeObsDeathRecipient {target : Option Remote} {r : Remote} :
    r ∈ removeObsDeathRecipient recipients target ↔ target ≠ some r ∧ r ∈ recipients := by
  cases target with
  | none => simp [removeObsDeathRecipient]
  | some remote => simp [removeObsDeathRecipient, eq_comm]

lemma listOf_of_find? {observers observers' : SortedMap String (List Obs)} {key : String}
    {obs : Obs} (h : ∀ key', observers'.find? key' = if key = key' then
      some (listOf observers key' ++ [obs]) else observers.find? key') (key' : String) :
    listOf observers' key' =
      if key = key' then listOf observers key' ++ [obs] else listOf observers key' := by
  rw [listOf, h]
  split_ifs <;> rfl

lemma unique_register (h : ∀ key, ((listOf s.observers key).map env.asObject).Nodup) (uri : Uri)
    (dataObserver : Obs) (key : String) :
    ((listOf (handleRegisterObserver env s uri dataObserver).2.observers key).map
      env.asObject).Nodup := by
  rcases handleRegisterObserver_cases env s uri dataObserver with
    ⟨-, -, he⟩ | ⟨-, -, hnew, hfind, -⟩
  · rw [he]
    exact h key
  rw [listOf_of_find? hfind]
  split_ifs with hk
  · subst hk
    rw [map_append, nodup_append]
    refine ⟨h _, nodup_singleton _, fun a ha b hb => ?_⟩
    obtain ⟨obs, hobs, rfl⟩ := mem_map.mp ha
    rw [mem_singleton.mp hb]
    exact hnew obs hobs
  · exact h key

lemma consistent_register (h : Consistent env s) (uri : Uri) (dataObserver : Obs) :
    Consistent env (handleRegisterObserver env s uri dataObserver).2 := by
  have hunique := unique_register h.unique uri dataObserver
  rcases handleRegisterObserver_cases env s uri dataObserver with
    ⟨-, -, he⟩ | ⟨-, -, hnew, hfind, hrec⟩
  · rwa [he]
  · have hlists := listOf_of_find? hfind
    refine ⟨hunique, fun r => ?_⟩
    · rw [hrec, mem_addObsDeathRecipient, h.recipient r, hasClient_iff, hasClient_iff]
      simp only [hlists]
      constructor
      · rintro (hr | ⟨key, obs, hobs, hr⟩)
        · exact ⟨env.toString uri, dataObserver, by simp, hr⟩
        · refine ⟨key, obs, ?_, hr⟩
          split_ifs
          · exact mem_append_left _ hobs
          · exact hobs
      · rintro ⟨key, obs, hobs, hr⟩
        split_ifs at hobs
        · rcases mem_append.mp hobs with hobs | hobs
          · exact .inr ⟨key, obs, hobs, hr⟩
          · exact .inl (mem_singleton.mp hobs ▸ hr)
        · exact .inr ⟨key, obs, hobs, hr⟩

lemma mem_eraseP_client {list : List Obs} (h : (list.map env.asObject).Nodup)
    (r : Remote) {obs : Obs} :
    obs ∈ list.eraseP (fun o => env.asObject o = some r) ↔
    obs ∈ list ∧ env.asObject obs ≠ some r := by
  induction list with
  | nil => simp
  | cons o list ih =>
    obtain ⟨hfresh, hrest⟩ := nodup_cons.mp h
    have hother : ∀ o' ∈ list, env.asObject o' ≠ env.asObject o := fun o' ho' he =>
      hfresh (mem_map.mpr ⟨o', ho', he⟩)
    by_cases ho : env.asObject o = some r
    · rw [eraseP_cons_of_pos (by simpa using ho)]
      constructor
      · intro hobs
        exact ⟨mem_cons_of_mem _ hobs, ho ▸ hother obs hobs⟩
      · rintro ⟨hobs, hne⟩
        rcases mem_cons.mp hobs with rfl | hobs
        · exact absurd ho hne
        · exact hobs
    · rw [eraseP_cons_of_neg (by simpa using ho), mem_cons, mem_cons, ih hrest]
      constructor
      · rintro (rfl | ⟨hobs, hne⟩)
        · exact ⟨.inl rfl, ho⟩
        · exact ⟨.inr hobs, hne⟩
      · rintro ⟨rfl | hobs, hne⟩
        · exact .inl rfl
        · exact .inr ⟨hobs, hne⟩

lemma unique_removeObs (h : ∀ key, ((listOf s.observers key).map env.asObject).Nodup)
    (r : Remote) (key : String) :
    ((listOf (removeObs env s r).observers key).map env.asObject).Nodup := by
  rw [listOf_removeObs]
  exact (h key).sublist (eraseP_sublist.map _)

lemma consistent_removeObs (h : Consistent env s) (r : Remote) :
    Consistent env (removeObs env s r) := by
  refine ⟨unique_removeObs h.unique r, fun r' => ?_⟩
  · have hrec : r' ∈ (removeObs env s r).obsRecipient ↔ some r ≠ some r' ∧ r' ∈ s.obsRecipient :=
      mem_removeObsDeathRecipient
    rw [hrec, h.recipient r', hasClient_iff, hasClient_iff]
    simp only [listOf_removeObs, mem_eraseP_client (h.unique _)]
    constructor
    · rintro ⟨hne, key, obs, hobs, hr⟩
      exact ⟨key, obs, ⟨hobs, fun he => hne (he.symm.trans hr)⟩, hr⟩
    · rintro ⟨key, obs, ⟨hobs, hne⟩, hr⟩
      exact ⟨fun he => hne (hr.trans he.symm), key, obs, hobs, hr⟩

end

def keepsClient [DecidableEq Obs] (s : ObsTable Obs Remote) : InnerOp Uri Obs Remote → Prop
  | .unregisterObserver uri dataObserver =>
    ∀ rest, dropObserver env s.observers uri dataObserver = some rest →
    ∀ r, env.asObject dataObserver = some r → HasClient env rest r →
    haveRegistered rest dataObserver = true
  | _ => True

section
variable [DecidableEq Obs] {env : Env Uri Obs Remote} {s : ObsTable Obs Remote}

lemma unique_of_drop (h : ∀ key, ((listOf s.observers key).map env.asObject).Nodup) {uri : Uri}
    {dataObserver : Obs}
    {rest : SortedMap String (List Obs)}
    (hdrop : dropObserver env s.observers uri dataObserver = some rest)
    (key : String) : ((listOf rest key).map env.asObject).Nodup := by
  obtain ⟨obs, -, -, hlists⟩ := dropObserver_eq_some hdrop
  rw [hlists]
  split_ifs
  · exact (h key).sublist (filter_sublist.map _)
  · exact h key

lemma hasClient_of_drop {uri : Uri} {dataObserver : Obs}
    {observers rest : SortedMap String (List Obs)}
    (hdrop : dropObserver env observers uri dataObserver = some rest) {r : Remote}
    (hr : env.asObject dataObserver ≠ some r) : HasClient env rest r ↔
    HasClient env observers r := by
  obtain ⟨obs, -, hsame, hlists⟩ := dropObserver_eq_some hdrop
  rw [hasClient_iff, hasClient_iff]
  constructor
  · rintro ⟨key, o, ho, hclient⟩
    rw [hlists] at ho
    split_ifs at ho
    · exact ⟨key, o, mem_of_mem_filter ho, hclient⟩
    · exact ⟨key, o, ho, hclient⟩
  · rintro ⟨key, o, ho, hclient⟩
    have hne : o ≠ obs := by
      rintro rfl
      exact hr (hsame.symm.trans hclient)
    refine ⟨key, o, ?_, hclient⟩
    rw [hlists]
    split_ifs
    · exact mem_filter.mpr ⟨ho, by simpa using hne⟩
    · exact ho

lemma consistent_unregister_iff (h : Consistent env s) (uri : Uri) (dataObserver : Obs) :
    Consistent env (handleUnregisterObserver env s uri dataObserver).2 ↔
      keepsClient env s (.unregisterObserver uri dataObserver) := by
  cases hdrop : dropObserver env s.observers uri dataObserver with
  | none =>
    simp only [handleUnregisterObserver, keepsClient, hdrop]
    exact iff_of_true h fun _ he => absurd he (some_ne_none _).symm
  | some rest =>
    obtain ⟨obs, hobs, hsame, -⟩ := dropObserver_eq_some hdrop
    have hwas : ∀ r, env.asObject dataObserver = some r → r ∈ s.obsRecipient := fun r hr =>
      (h.recipient r).mpr (hasClient_iff.mpr ⟨_, obs, hobs, hsame.trans hr⟩)
    have hproxy : ∀ r, env.asObject dataObserver = some r →
        haveRegistered rest dataObserver = true →
        HasClient env rest r := by
      intro r hr hreg
      obtain ⟨key, hkey⟩ := haveRegistered_iff.mp hreg
      exact hasClient_iff.mpr ⟨key, dataObserver, hkey, hr⟩
    simp only [handleUnregisterObserver, keepsClient, hdrop, some.injEq, forall_eq']
    constructor
    · intro hafter r hr hclient
      by_contra hreg
      have hmem := (hafter.recipient r).mpr hclient
      rw [if_neg hreg, mem_removeObsDeathRecipient] at hmem
      exact hmem.1 hr
    · intro hkeep
      refine ⟨unique_of_drop h.unique hdrop, fun r => ?_⟩
      by_cases hr : env.asObject dataObserver = some r
      · -- the client of the call: its recipient stays iff the proxy is still registered
        split_ifs with hreg
        · exact iff_of_true (hwas r hr) (hproxy r hr hreg)
        · rw [mem_removeObsDeathRecipient]
          exact iff_of_false (fun hm => hm.1 hr) fun hclient => hreg (hkeep r hr hclient)
      · rw [hasClient_of_drop hdrop hr, ← h.recipient r]
        split_ifs
        · exact .rfl
        · rw [mem_removeObsDeathRecipient, and_iff_right hr]

lemma consistent_apply_iff (h : Consistent env s) (mgr : Mgr) (op : InnerOp Uri Obs Remote) :
    Consistent env (mgr.apply env s op) ↔ keepsClient env s op := by
  cases op with
  | registerObserver uri obs =>
    have hreg := iff_of_true (consistent_register h uri obs) trivial
    cases mgr <;> exact hreg
  | unregisterObserver uri obs =>
    have hun := consistent_unregister_iff h uri obs
    cases mgr <;> exact hun
  | callBackDied remote =>
    have hdied : Consistent env (onCallBackDied env s remote) := by
      cases remote with
      | none => exact h
      | some r => exact consistent_removeObs h r
    have hiff := iff_of_true hdied trivial
    cases mgr <;> exact hiff

end

omit [DecidableEq Remote] in
lemma consistent_init : Consistent env (init : ObsTable Obs Remote) where
  unique := fun _ => nodup_nil
  recipient := fun _ => iff_of_false (Finset.notMem_empty _) fun ⟨_, hp, _⟩ => nomatch hp

end ObsTable

theorem run_recipient_iff_client [DecidableEq Obs] (env : Env Uri Obs Remote) (mgr : Mgr)
    (ops : List (InnerOp Uri Obs Remote))
    (h : Guarded (mgr.apply env) (keepsClient env) init ops) (r : Remote) :
    r ∈ (mgr.run env ops).obsRecipient ↔ HasClient env (mgr.run env ops).observers r := by
  have hfinal : Consistent env (mgr.run env ops) :=
    h.invariant (fun s op hs hok => (consistent_apply_iff hs mgr op).mpr hok) (consistent_init env)
  exact hfinal.recipient r

def tensEnv : Env String Nat Nat where
  ofString := id
  toString := id
  getScheme := id
  getAuthority := id
  getPathSegments := fun _ => []
  ofString_toString := fun _ => rfl
  asObject := fun obs => some (obs / 10)

def registerTwo : List (InnerOp String Nat Nat) :=
  [.registerObserver "a" 11, .registerObserver "b" 11, .unregisterObserver "a" 11]

theorem run_recipient_registerTwo : 1 ∈ (Mgr.inner.run tensEnv registerTwo).obsRecipient := by
  refine (run_recipient_iff_client tensEnv .inner registerTwo
    ⟨trivial, trivial, ?_, trivial⟩ 1).mpr ?_
  · intro rest hrest _ _ _
    cases hrest
    decide
  · exact ⟨("b", [11]), by decide, 11, by decide, rfl⟩

theorem run_recipient_lost : ¬ ∃ mgr : Mgr, ∀ (ops : List (InnerOp String Nat Nat)) (r : Nat),
      r ∈ (mgr.run tensEnv ops).obsRecipient ↔
        HasClient tensEnv (mgr.run tensEnv ops).observers r := by
  rintro ⟨mgr, h⟩
  have hlost := h [.registerObserver "a" 11, .registerObserver "b" 12, .unregisterObserver "a" 13] 1
  have hstill : HasClient tensEnv
      (mgr.run tensEnv [.registerObserver "a" 11, .registerObserver "b" 12,
        .unregisterObserver "a" 13]).observers 1 := by
    refine ⟨("b", [12]), ?_, 12, by decide, rfl⟩
    cases mgr <;> decide
  have hmem := hlost.mpr hstill
  cases mgr <;> exact absurd hmem (by decide)

namespace ObsTable

structure Lists (env : Env Uri Obs Remote) (n : ℕ) (s : ObsTable Obs Remote) : Prop where
  nonempty : ∀ key, s.observers.find? key ≠ some []
  bounded : ∀ key, (listOf s.observers key).length ≤ n
  unique : ∀ key, ((listOf s.observers key).map env.asObject).Nodup

def hasRoom : InnerOp Uri Obs Remote → Prop
  | .registerObserver uri dataObserver =>
    (listOf s.observers (env.toString uri)).length = obsNumMax →
      ∃ obs ∈ listOf s.observers (env.toString uri), env.asObject obs = env.asObject dataObserver
  | _ => True

section
variable {env : Env Uri Obs Remote} {s : ObsTable Obs Remote} {n : ℕ}

section
variable (h : Lists env n s)
include h

lemma lists_register (uri : Uri) (dataObserver : Obs)
    (hn : (handleRegisterObserver env s uri dataObserver).1 = .success →
      (listOf s.observers (env.toString uri)).length < n) :
    Lists env n (handleRegisterObserver env s uri dataObserver).2 := by
  refine ⟨fun key => ?_, fun key => ?_, unique_register h.unique uri dataObserver⟩
  all_goals
    rcases handleRegisterObserver_cases env s uri dataObserver with
      ⟨-, -, he⟩ | ⟨hok, -, -, hfind, -⟩
  · rw [he]
    exact h.nonempty key
  · rw [hfind]
    split_ifs
    · simp
    · exact h.nonempty key
  · rw [he]
    exact h.bounded key
  · rw [listOf_of_find? hfind]
    split_ifs with hk
    · rw [← hk, length_append]
      exact hn hok
    · exact h.bounded key

lemma lists_removeObs (r : Remote) : Lists env n (removeObs env s r) := by
  refine ⟨fun key => ?_, fun key => ?_, unique_removeObs h.unique r⟩
  · rw [removeObs, find?_traverse]
    cases s.observers.find? key with
    | none => exact (some_ne_none _).symm
    | some list =>
      rw [bind_some]
      dsimp only
      split_ifs with hnil
      · exact (some_ne_none _).symm
      · exact fun he => hnil (isEmpty_iff.mpr (some.inj he))
  · rw [listOf_removeObs]
    exact eraseP_sublist.length_le.trans (h.bounded key)

lemma lists_unregister [DecidableEq Obs] (uri : Uri) (dataObserver : Obs) :
    Lists env n (handleUnregisterObserver env s uri dataObserver).2 := by
  unfold handleUnregisterObserver
  cases hdrop : dropObserver env s.observers uri dataObserver with
  | none => exact h
  | some rest =>
    obtain ⟨obs, -, -, hlists⟩ := dropObserver_eq_some hdrop
    refine ⟨fun key => ?_, fun key => ?_, unique_of_drop h.unique hdrop⟩
    · obtain ⟨list, rfl⟩ : ∃ list, rest = putList s.observers (env.toString uri) list := by
        unfold dropObserver at hdrop
        split at hdrop
        · cases hdrop
        split at hdrop
        · cases hdrop
        · exact ⟨_, (some.inj hdrop).symm⟩
      unfold putList
      split_ifs with hnil
      · rw [find?_erase]
        split_ifs
        · exact (some_ne_none _).symm
        · exact h.nonempty key
      · rw [find?_modify]
        split_ifs
        · cases s.observers.find? key with
          | none => exact (some_ne_none _).symm
          | some old => exact fun he => hnil (isEmpty_iff.mpr (some.inj he))
        · exact h.nonempty key
    · rw [hlists]
      split_ifs
      · exact (length_filter_le _ _).trans (h.bounded key)
      · exact h.bounded key

lemma lists_apply [DecidableEq Obs] (mgr : Mgr) (op : InnerOp Uri Obs Remote)
    (hn : ∀ uri obs, op = .registerObserver uri obs →
      (handleRegisterObserver env s uri obs).1 = .success →
      (listOf s.observers (env.toString uri)).length < n) : Lists env n (mgr.apply env s op) := by
  cases op with
  | registerObserver uri obs =>
    have hreg := lists_register h uri obs (hn uri obs rfl)
    cases mgr <;> exact hreg
  | unregisterObserver uri obs =>
    have hun := lists_unregister h uri obs
    cases mgr <;> exact hun
  | callBackDied remote =>
    have hdied : Lists env n (onCallBackDied env s remote) := by
      cases remote with
      | none => exact h
      | some r => exact lists_removeObs h r
    cases mgr <;> exact hdied

end

lemma lists_apply_iff [DecidableEq Obs] (h : Lists env obsNumMax s) (mgr : Mgr)
    (op : InnerOp Uri Obs Remote) :
    Lists env obsNumMax (mgr.apply env s op) ↔ hasRoom env s op := by
  cases op with
  | registerObserver uri obs =>
    constructor
    · intro hafter hlen
      by_contra hnone
      have hlists : Lists env obsNumMax (handleRegisterObserver env s uri obs).2 := by
        cases mgr <;> exact hafter
      rcases handleRegisterObserver_cases env s uri obs with ⟨-, hor, -⟩ | ⟨-, -, -, hfind, -⟩
      · exact hor.elim (fun hgt => absurd hlen (ne_of_gt hgt)) hnone
      · have hle := hlists.bounded (env.toString uri)
        rw [listOf_of_find? hfind, if_pos rfl, length_append, hlen] at hle
        exact absurd hle (not_succ_le_self _)
    · intro hroom
      refine lists_apply h mgr _ fun uri' obs' he hok => ?_
      cases he
      refine lt_of_le_of_ne (h.bounded _) fun hlen => ?_
      obtain ⟨o, ho, hsame⟩ := hroom hlen
      rcases handleRegisterObserver_cases env s uri obs with ⟨hfail, -, -⟩ | ⟨-, -, hnew, -, -⟩
      · exact hfail hok
      · exact hnew o ho hsame
  | unregisterObserver uri obs =>
    exact iff_of_true (lists_apply h mgr _ fun _ _ he => nomatch he) trivial
  | callBackDied remote => exact iff_of_true (lists_apply h mgr _ fun _ _ he => nomatch he) trivial

omit [DecidableEq Remote] in
lemma lists_init (n : ℕ) : Lists env n (init : ObsTable Obs Remote) :=
  ⟨fun _ => (some_ne_none _).symm, fun _ => zero_le n, fun _ => nodup_nil⟩

end
end ObsTable

def Mgr.handleRegisterObserver :
    Mgr → ObsTable Obs Remote → Uri → Obs → Status × ObsTable Obs Remote
  | .inner => DataObsMgrInner.handleRegisterObserver env
  | .pref => DataObsMgrInnerPref.handleRegisterObserver env

theorem run_lists_bounded [DecidableEq Obs] (env : Env Uri Obs Remote) (mgr : Mgr)
    (ops : List (InnerOp Uri Obs Remote)) :
    Lists env (obsNumMax + 1) (mgr.run env ops) ∧
    (∀ uri dataObserver,
      (mgr.handleRegisterObserver env (mgr.run env ops) uri dataObserver).1 ≠ .success →
      (mgr.handleRegisterObserver env (mgr.run env ops) uri dataObserver).2 = mgr.run env ops) ∧
    ((∀ n, Lists env obsNumMax (mgr.run env (ops.take n))) ↔
      Guarded (mgr.apply env) (hasRoom env) init ops) := by
  refine ⟨?_, fun uri dataObserver hfail => ?_, ?_⟩
  · refine foldlRecOn ops _ (lists_init _)
      fun s hs op _ => lists_apply hs mgr op fun uri obs _ hok => ?_
    rcases handleRegisterObserver_cases env s uri obs with ⟨hfail, -, -⟩ | ⟨-, hlen, -, -, -⟩
    · exact absurd hok hfail
    · exact lt_succ_of_le hlen
  · generalize mgr.run env ops = s at hfail ⊢
    have hor := handleRegisterObserver_cases env s uri dataObserver
    cases mgr <;> exact hor.elim (fun h => h.2.2) fun h => absurd h.1 hfail
  · exact guarded_iff_forall_take (I := Lists env obsNumMax)
      (fun s op hs => lists_apply_iff hs mgr op) (lists_init obsNumMax) ops

theorem run_lists_exceed : ¬ ∃ mgr : Mgr, ∀ (ops : List (InnerOp String Nat Nat)) (key : String),
    (listOf (mgr.run tensEnv ops).observers key).length ≤ obsNumMax := by
  rintro ⟨mgr, h⟩
  have hle := h ((range 51).map fun k => .registerObserver "a" (10 * k)) "a"
  cases mgr <;> exact absurd hle (by decide +kernel)

end AbilityRuntime.DataObs
