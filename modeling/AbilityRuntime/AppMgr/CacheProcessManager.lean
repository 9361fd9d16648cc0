import Mathlib.Data.String.Basic
import AbilityRuntime.Library.SortedMap
import AbilityRuntime.Library.Runs

/-! The cache of processes that have closed their last ability. `Record` stands for the record
objects, ordered by address; bundle name and uid are fixed, everything else is read when a call is
made. -/

open Option

namespace AbilityRuntime
open List SortedMap

inductive SupportProcessCacheState
  | unspecified
  | support
  | notSupport

structure HapAbilityInfo where
  isExtension : Bool
  isServiceType : Bool

structure HapModuleInfo where
  abilityInfos : List HapAbilityInfo
  extensionInfos : List Bool

structure AppRunningInfo where
  apiTargetVersion : Option ℤ
  allModuleRecord : List (Option HapModuleInfo)
  isAttachedToStatusBar : Bool
  isKeepAliveApp : Bool
  hasParentAppRecord : Bool
  processCacheBlocked : Bool
  supportProcessCacheState : SupportProcessCacheState

inductive CacheEvent (Record : Type)
  | appCached (r : Record)
  | appReady (r : Record)
  | killApplicationByRecord (r : Record)

abbrev SameAppSet (Record : Type) := SortedMap String (SortedMap ℤ (Finset Record))

structure CacheProcessManager (Record : Type) where
  maxProcCacheNum : ℤ
  cachedAppRecordQueue : List Record
  appMgr : Bool
  shouldCheckApi : Bool
  shouldCheckSupport : Bool
  sameAppSet : SameAppSet Record
  srvExtRecords : Finset Record
  srvExtCheckedFlag : Finset Record
  events : List (CacheEvent Record)

structure CacheHost (Record : Type) where
  bundleName : Record → String
  uid : Record → ℤ
  shellAssistantBundleName : String

def api12 : ℤ := 12
def apiVersionMod : ℤ := 100

namespace CacheProcessManager
variable {Record : Type} [LinearOrder Record] (host : CacheHost Record) (m : SameAppSet Record)
  (s : CacheProcessManager Record)

def queryEnableProcessCache : Bool := 0 < s.maxProcCacheNum

variable (r : Record) (uidMap : SortedMap ℤ (Finset Record))

def addToUidMap : SortedMap ℤ (Finset Record) :=
  if uidMap.contains (host.uid r) then uidMap.modify (host.uid r) (insert r)
  else uidMap.emplace (host.uid r) {r}

def addToApplicationSet : SameAppSet Record :=
  let m := m.emplace (host.bundleName r) (SortedMap.empty.emplace (host.uid r) {r})
  m.modify (host.bundleName r) (addToUidMap host r)

def removeFromApplicationSet : SameAppSet Record :=
  match m.find? (host.bundleName r) with
  | none => m
  | some uidMap =>
    match uidMap.find? (host.uid r) with
    | none => m
    | some recordSet =>
      let uidMap := uidMap.modify (host.uid r) fun _ => recordSet.erase r
      let uidMap := if recordSet.erase r = ∅ then uidMap.erase (host.uid r) else uidMap
      if uidMap.size = 0 then m.erase (host.bundleName r)
      else m.modify (host.bundleName r) fun _ => uidMap

def isCachedProcess : Bool :=
  r ∈ s.cachedAppRecordQueue

def removeCacheLoop (r : Record) : List Record → SameAppSet Record → List Record × SameAppSet Record
  | [], m => ([], m)
  | r' :: queue, m =>
    if r = r' then removeCacheLoop r queue (removeFromApplicationSet host m r')
    else
      let (queue, m) := removeCacheLoop r queue m
      (r' :: queue, m)

def removeCacheRecord : CacheProcessManager Record :=
  let (queue, m) := removeCacheLoop host r s.cachedAppRecordQueue s.sameAppSet
  { s with cachedAppRecordQueue := queue, sameAppSet := m }

/-- The loop of `ShrinkAndKillCache` with the records to clean; the front is read through a
reference that `pop_front` has left dangling, and is taken to be what it was. -/
def shrinkLoop (maxProcCacheNum : ℤ) :
    List Record → SameAppSet Record → List Record × List Record × SameAppSet Record
  | [], m => ([], [], m)
  | r :: queue, m =>
    if (r :: queue).length > maxProcCacheNum then
      let (cleanList, queue, m) := shrinkLoop maxProcCacheNum queue
        (removeFromApplicationSet host m r)
      (r :: cleanList, queue, m)
    else ([], r :: queue, m)

def killProcessByRecord (s : CacheProcessManager Record) (r : Record) :
    CacheProcessManager Record :=
  if s.appMgr then
    { s with events := s.events ++ [.appReady r, .killApplicationByRecord r] }
  else s

def shrinkAndKillCache : CacheProcessManager Record :=
  if s.maxProcCacheNum ≤ 0 then s
  else
    let (cleanList, queue, m) := shrinkLoop host s.maxProcCacheNum
      s.cachedAppRecordQueue s.sameAppSet
    cleanList.foldl killProcessByRecord { s with cachedAppRecordQueue := queue, sameAppSet := m }

variable (info : AppRunningInfo)

def penddingCacheProcess : Bool × CacheProcessManager Record :=
  if !s.queryEnableProcessCache then (false, s)
  else if info.isKeepAliveApp then (false, s)
  else (true, shrinkAndKillCache host { s with
    cachedAppRecordQueue := s.cachedAppRecordQueue ++ [r]
    sameAppSet := addToApplicationSet host s.sameAppSet r })

def HapModuleInfo.hasService (m : HapModuleInfo) : Bool :=
  m.abilityInfos.any (fun a => a.isExtension && a.isServiceType) || m.extensionInfos.any id

def isAppContainsSrvExt : Bool × CacheProcessManager Record :=
  if r ∈ s.srvExtCheckedFlag then (decide (r ∈ s.srvExtRecords), s)
  else
    let records :=
      if info.allModuleRecord.any fun m => m.any HapModuleInfo.hasService then
        insert r s.srvExtRecords
      else s.srvExtRecords
    (decide (r ∈ records),
      { s with srvExtRecords := records, srvExtCheckedFlag := insert r s.srvExtCheckedFlag })

def isAppSupportProcessCacheInnerFirst : Bool :=
  if host.bundleName r = host.shellAssistantBundleName then false
  else if info.processCacheBlocked then false
  else
    match info.supportProcessCacheState with
    | .unspecified => !s.shouldCheckSupport
    | .support => true
    | .notSupport => false

def isAppSupportProcessCache : Bool × CacheProcessManager Record :=
  match info.apiTargetVersion with
  | none => (false, s)
  | some apiTargetVersion =>
    if s.shouldCheckApi && apiTargetVersion.tmod apiVersionMod < api12 then (false, s)
    else
      let (containsSrvExt, s) := s.isAppContainsSrvExt r info
      (!containsSrvExt && !info.isAttachedToStatusBar && !info.isKeepAliveApp &&
        !info.hasParentAppRecord && isAppSupportProcessCacheInnerFirst host s r info, s)

def isAppShouldCache : Bool × CacheProcessManager Record :=
  if !s.queryEnableProcessCache then (false, s)
  else if s.isCachedProcess r then (true, s)
  else isAppSupportProcessCache host s r info

structure TerminateCall (Record : Type) where
  appRecord : Option Record
  clearMissionFlag : Bool
  isLastPageAbilityRecord : Bool
  isLastAbilityRecord : Bool
  isMemorySizeSufficent : Bool
  info : AppRunningInfo

variable (c : TerminateCall Record)

def TerminateCall.isLastAbility : Bool :=
  if c.clearMissionFlag then c.isLastPageAbilityRecord else c.isLastAbilityRecord

def TerminateCall.asks : Bool :=
  c.isLastAbility && (!c.info.isKeepAliveApp || !c.isMemorySizeSufficent)

def prepareTerminate : CacheProcessManager Record :=
  match c.appRecord with
  | none => s
  | some r =>
    if c.asks then
      match isAppShouldCache host s r c.info with
      | (true, s) => (penddingCacheProcess host s r c.info).2
      | (false, s) => s
    else s

def allCachedLoop (bundleName : String) (uid : ℤ) (cachedSet : Finset Record) :
    List (Record × AppRunningInfo) → CacheProcessManager Record → Bool × CacheProcessManager Record
  | [], s => (true, s)
  | (r, info) :: running, s =>
    if host.bundleName r = bundleName ∧ host.uid r = uid then
      let (supportCache, s) := isAppSupportProcessCache host s r info
      if (r ∉ cachedSet && supportCache) || !supportCache then (false, s)
      else allCachedLoop bundleName uid cachedSet running s
    else allCachedLoop bundleName uid cachedSet running s

def checkAndNotifyCachedState
    (running : List (Record × AppRunningInfo)) : Bool × CacheProcessManager Record :=
  if !s.appMgr then (false, s)
  else
    match (s.sameAppSet.find? (host.bundleName r)).bind fun m => m.find? (host.uid r) with
    | none => (false, s)
    | some recordSet =>
      match recordSet.min with
      | ⊤ => (false, s)
      | (notifyRecord : Record) =>
        match allCachedLoop host (host.bundleName r) (host.uid r) recordSet running s with
        | (false, s) => (false, s)
        | (true, s) => (true, { s with events := s.events ++ [.appCached notifyRecord] })

def onProcessKilled (appRecord : Option Record)
    (running : List (Record × AppRunningInfo)) : CacheProcessManager Record :=
  match s.queryEnableProcessCache, appRecord with
  | true, some r =>
    let (_, s) := checkAndNotifyCachedState host s r running
    let s := { s with
      srvExtRecords := s.srvExtRecords.erase r
      srvExtCheckedFlag := s.srvExtCheckedFlag.erase r }
    if s.isCachedProcess r then removeCacheRecord host s r else s
  | _, _ => s

def reuseCachedProcess (appRecord : Option Record) : Bool × CacheProcessManager Record :=
  match s.queryEnableProcessCache, appRecord with
  | true, some r =>
    if s.isCachedProcess r then
      let s := removeCacheRecord host s r
      (true, if s.appMgr then { s with events := s.events ++ [.appReady r] } else s)
    else (false, s)
  | _, _ => (false, s)

inductive Op (Record : Type)
  | prepareTerminate (call : TerminateCall Record)
  | reuseCachedProcess (appRecord : Option Record)
  | onProcessKilled (appRecord : Option Record) (running : List (Record × AppRunningInfo))

def step : Op Record → CacheProcessManager Record
  | .prepareTerminate call => prepareTerminate host s call
  | .reuseCachedProcess r => (reuseCachedProcess host s r).2
  | .onProcessKilled r running => onProcessKilled host s r running

def init (maxProcCacheNum : ℤ) (appMgr shouldCheckApi shouldCheckSupport : Bool) :
    CacheProcessManager Record :=
  ⟨maxProcCacheNum, [], appMgr, shouldCheckApi, shouldCheckSupport, SortedMap.empty, ∅, ∅, []⟩

def lookup (bundleName : String) (uid : ℤ) : Option (Finset Record) :=
  (m.find? bundleName).bind fun uidMap => uidMap.find? uid

structure NoEmpty (m : SameAppSet Record) : Prop where
  uidMap : ∀ b uidMap, m.find? b = some uidMap → uidMap.size ≠ 0
  recordSet : ∀ b u recordSet, lookup m b u = some recordSet → recordSet ≠ ∅

lemma find?_addToUidMap (u : ℤ) : (addToUidMap host r uidMap).find? u =
      if host.uid r = u then some (insert r ((uidMap.find? u).getD ∅)) else uidMap.find? u := by
  rw [addToUidMap]
  split_ifs with hcontains hu hu
  · obtain ⟨recordSet, hset⟩ := contains_iff.mp hcontains
    rw [find?_modify, if_pos hu, ← hu, hset]
    rfl
  · rw [find?_modify, if_neg hu]
  · have hnone := contains_eq_false.mp (Bool.eq_false_iff.mpr hcontains)
    rw [find?_emplace, if_pos hu, ← hu, hnone]
    rfl
  · rw [find?_emplace, if_neg hu]

lemma find?_addToApplicationSet (b : String) : (addToApplicationSet host m r).find? b =
      if host.bundleName r = b then
        some (addToUidMap host r ((m.find? b).getD (SortedMap.empty.emplace (host.uid r) {r})))
      else m.find? b := by
  rw [addToApplicationSet, find?_modify, find?_emplace]
  split_ifs with hb
  · rw [hb]
    rfl
  · rfl

lemma lookup_addToApplicationSet (b : String) (u : ℤ) : lookup (addToApplicationSet host m r) b u =
      if host.bundleName r = b ∧ host.uid r = u then some (insert r ((lookup m b u).getD ∅))
      else lookup m b u := by
  rw [lookup, find?_addToApplicationSet, lookup]
  by_cases hb : host.bundleName r = b
  · rw [if_pos hb, bind_some, find?_addToUidMap]
    by_cases hu : host.uid r = u
    · rw [if_pos hu, if_pos ⟨hb, hu⟩]
      cases m.find? b with
      | none =>
        -- the new inner map already holds the record when it is inserted again
        simp [find?_emplace, hu]
      | some uidMap => rfl
    · rw [if_neg hu, if_neg fun h => hu h.2]
      cases m.find? b with
      | none => simp [find?_emplace, hu]
      | some uidMap => rfl
  · rw [if_neg hb, if_neg fun h => hb h.1]

def withoutRecord (recordSet : Finset Record) : Option (Finset Record) :=
  if recordSet.erase r = ∅ then none else some (recordSet.erase r)

def removeFromUidMap (recordSet : Finset Record) : SortedMap ℤ (Finset Record) :=
  let uidMap := uidMap.modify (host.uid r) fun _ => recordSet.erase r
  if recordSet.erase r = ∅ then uidMap.erase (host.uid r) else uidMap

lemma find?_removeFromUidMap {r : Record} {uidMap : SortedMap ℤ (Finset Record)}
    {recordSet : Finset Record} (h : uidMap.find? (host.uid r) = some recordSet) (u : ℤ) :
    (removeFromUidMap host r uidMap recordSet).find? u =
      if host.uid r = u then withoutRecord r recordSet else uidMap.find? u := by
  rw [removeFromUidMap, withoutRecord]
  split_ifs with hempty hu hu
  · rw [find?_erase, if_pos hu]
  · rw [find?_erase, if_neg hu, find?_modify_of_find? h, if_neg hu]
  · rw [find?_modify_of_find? h, if_pos hu]
  · rw [find?_modify_of_find? h, if_neg hu]

lemma find?_removeFromApplicationSet {m : SameAppSet Record} {r : Record}
    {uidMap : SortedMap ℤ (Finset Record)} {recordSet : Finset Record}
    (hm : m.find? (host.bundleName r) = some uidMap)
    (hset : uidMap.find? (host.uid r) = some recordSet) (b : String) :
    (removeFromApplicationSet host m r).find? b =
      if host.bundleName r = b then
        if (removeFromUidMap host r uidMap recordSet).size = 0 then none
        else some (removeFromUidMap host r uidMap recordSet)
      else m.find? b := by
  rw [removeFromApplicationSet, hm]
  simp only [hset]
  change (if (removeFromUidMap host r uidMap recordSet).size = 0 then m.erase (host.bundleName r)
    else m.modify (host.bundleName r) fun _ => removeFromUidMap host r uidMap recordSet).find? b = _
  split_ifs with hsize hb hb
  · rw [find?_erase, if_pos hb]
  · rw [find?_erase, if_neg hb]
  · rw [find?_modify_of_find? hm, if_pos hb]
  · rw [find?_modify_of_find? hm, if_neg hb]

variable {m r} in
lemma removeFromApplicationSet_of_none (h : lookup m (host.bundleName r) (host.uid r) = none) :
    removeFromApplicationSet host m r = m := by
  rw [removeFromApplicationSet]
  cases hm : m.find? (host.bundleName r) with
  | none => rfl
  | some uidMap =>
    rw [lookup, hm, bind_some] at h
    simp only [h]

lemma lookup_removeFromApplicationSet (b : String) (u : ℤ) :
    lookup (removeFromApplicationSet host m r) b u =
      if host.bundleName r = b ∧ host.uid r = u then (lookup m b u).bind (withoutRecord r)
      else lookup m b u := by
  cases hold : lookup m (host.bundleName r) (host.uid r) with
  | none =>
    rw [removeFromApplicationSet_of_none host hold]
    split_ifs with h
    · rw [← h.1, ← h.2, hold]
      rfl
    · rfl
  | some recordSet =>
    obtain ⟨uidMap, hm, hset⟩ := bind_eq_some_iff.mp hold
    rw [lookup, find?_removeFromApplicationSet host hm hset, lookup]
    by_cases hb : host.bundleName r = b
    · have hlookup : (if (removeFromUidMap host r uidMap recordSet).size = 0 then none
          else some (removeFromUidMap host r uidMap recordSet)).bind (·.find? u) =
          (removeFromUidMap host r uidMap recordSet).find? u := by
        split_ifs with hsize
        · exact (size_eq_zero.mp hsize u).symm
        · rfl
      rw [if_pos hb, ← hb, hm, bind_some, hlookup, find?_removeFromUidMap host hset u]
      by_cases hu : host.uid r = u
      · rw [if_pos hu, if_pos ⟨rfl, hu⟩, ← hu, hset]
        rfl
      · rw [if_neg hu, if_neg fun h => hu h.2]
    · rw [if_neg hb, if_neg fun h => hb h.1]

lemma NoEmpty.addToApplicationSet {m : SameAppSet Record} (h : NoEmpty m) (r : Record) :
    NoEmpty (addToApplicationSet host m r) := by
  constructor
  · intro b uidMap hfind hsize
    rw [find?_addToApplicationSet] at hfind
    split_ifs at hfind with hb
    · rw [some.injEq] at hfind
      have hnone := size_eq_zero.mp hsize (host.uid r)
      rw [← hfind, find?_addToUidMap, if_pos rfl] at hnone
      cases hnone
    · exact h.uidMap b uidMap hfind hsize
  · intro b u recordSet hlookup
    rw [lookup_addToApplicationSet] at hlookup
    split_ifs at hlookup with hbu
    · rw [some.injEq] at hlookup
      rw [← hlookup]
      exact Finset.insert_ne_empty r _
    · exact h.recordSet b u recordSet hlookup

protected lemma NoEmpty.removeFromApplicationSet {m : SameAppSet Record} (h : NoEmpty m)
    (r : Record) : NoEmpty (removeFromApplicationSet host m r) := by
  constructor
  · intro b uidMap hfind
    cases hold : lookup m (host.bundleName r) (host.uid r) with
    | none =>
      rw [removeFromApplicationSet_of_none host hold] at hfind
      exact h.uidMap b uidMap hfind
    | some recordSet =>
      obtain ⟨uidMap', hm, hset⟩ := bind_eq_some_iff.mp hold
      rw [find?_removeFromApplicationSet host hm hset] at hfind
      split_ifs at hfind with hb hsize
      · rw [some.injEq] at hfind
        rwa [← hfind]
      · exact h.uidMap b uidMap hfind
  · intro b u recordSet hlookup
    rw [lookup_removeFromApplicationSet] at hlookup
    split_ifs at hlookup with hbu
    · obtain ⟨recordSet', -, hwithout⟩ := bind_eq_some_iff.mp hlookup
      rw [withoutRecord] at hwithout
      split_ifs at hwithout with hempty
      rw [some.injEq] at hwithout
      rwa [← hwithout]
    · exact h.recordSet b u recordSet hlookup

def recordsOf (bundleName : String) (uid : ℤ) : Finset Record :=
  (lookup m bundleName uid).getD ∅

lemma mem_recordsOf_add {m : SameAppSet Record} {r r' : Record} {b : String} {u : ℤ} :
    r' ∈ recordsOf (addToApplicationSet host m r) b u ↔
      r' ∈ recordsOf m b u ∨ r' = r ∧ host.bundleName r = b ∧ host.uid r = u := by
  rw [recordsOf, lookup_addToApplicationSet]
  split_ifs with h
  · rw [getD_some, Finset.mem_insert]
    tauto
  · tauto

lemma mem_recordsOf_remove {m : SameAppSet Record} {r r' : Record} {b : String} {u : ℤ} :
    r' ∈ recordsOf (removeFromApplicationSet host m r) b u ↔
      r' ∈ recordsOf m b u ∧ ¬ (r' = r ∧ host.bundleName r = b ∧ host.uid r = u) := by
  rw [recordsOf, lookup_removeFromApplicationSet]
  split_ifs with h
  · have herase : ((lookup m b u).bind (withoutRecord r)).getD ∅ =
        ((lookup m b u).getD ∅).erase r := by
      cases lookup m b u with
      | none => rfl
      | some recordSet =>
        rw [bind_some, withoutRecord]
        split_ifs with hempty
        · exact hempty.symm
        · rfl
    rw [herase, Finset.mem_erase]
    tauto
  · tauto

structure SetsOf (queue : List Record) (m : SameAppSet Record) : Prop where
  noEmpty : NoEmpty m
  mem : ∀ b u r, r ∈ recordsOf m b u ↔ r ∈ queue ∧ host.bundleName r = b ∧ host.uid r = u

section Sets
variable {host} {m : SameAppSet Record} {queue queue' : List Record} {r : Record}

lemma SetsOf.add (h : SetsOf host queue m) (r : Record) :
    SetsOf host (queue ++ [r]) (addToApplicationSet host m r) := by
  refine ⟨h.noEmpty.addToApplicationSet host r, fun b u r' => ?_⟩
  rw [mem_recordsOf_add, h.mem, mem_append, mem_singleton]
  constructor
  · rintro (⟨hr, hb, hu⟩ | ⟨rfl, hb, hu⟩)
    · exact ⟨.inl hr, hb, hu⟩
    · exact ⟨.inr rfl, hb, hu⟩
  · rintro ⟨hr | rfl, hb, hu⟩
    · exact .inl ⟨hr, hb, hu⟩
    · exact .inr ⟨rfl, hb, hu⟩

omit [LinearOrder Record] in
lemma SetsOf.without {m' : SameAppSet Record} (h : SetsOf host queue m) (hno : NoEmpty m')
    (hm : ∀ b u r', r' ∈ recordsOf m' b u ↔ r' ∈ recordsOf m b u ∧
      ¬ (r ∈ queue ∧ r' = r ∧ host.bundleName r = b ∧ host.uid r = u))
    (hqueue : ∀ r', r' ∈ queue' ↔ r' ∈ queue ∧ r' ≠ r) : SetsOf host queue' m' := by
  refine ⟨hno, fun b u r' => ?_⟩
  rw [hm, h.mem, hqueue]
  constructor
  · rintro ⟨⟨hr, hb, hu⟩, hne⟩
    exact ⟨⟨hr, fun heq => hne ⟨heq ▸ hr, heq, heq ▸ hb, heq ▸ hu⟩⟩, hb, hu⟩
  · rintro ⟨⟨hr, hne⟩, hb, hu⟩
    exact ⟨⟨hr, hb, hu⟩, fun heq => hne heq.2.1⟩

lemma removeCacheLoop_queue (r : Record) (l : List Record) (m : SameAppSet Record) :
    (removeCacheLoop host r l m).1 = l.filter fun r' => r' ≠ r := by
  induction l generalizing m with
  | nil => rfl
  | cons a l ih =>
    rw [removeCacheLoop]
    split_ifs with ha
    · rw [ih, filter_cons_of_neg (by simp [ha])]
    · rw [filter_cons_of_pos (by simpa using Ne.symm ha), ← ih m]

variable (host) in
lemma removeCacheLoop_sets (hm : NoEmpty m) (r : Record) (l : List Record) :
    NoEmpty (removeCacheLoop host r l m).2 ∧
      ∀ b u r', r' ∈ recordsOf (removeCacheLoop host r l m).2 b u ↔
        r' ∈ recordsOf m b u ∧ ¬ (r ∈ l ∧ r' = r ∧ host.bundleName r = b ∧ host.uid r = u) := by
  induction l generalizing m with
  | nil => exact ⟨hm, fun b u r' => by simp [removeCacheLoop]⟩
  | cons a l ih =>
    rw [removeCacheLoop]
    split_ifs with ha
    · subst ha
      obtain ⟨hno, hmem⟩ := ih (hm.removeFromApplicationSet host r)
      refine ⟨hno, fun b u r' => ?_⟩
      rw [hmem, mem_recordsOf_remove]
      tauto
    · obtain ⟨hno, hmem⟩ := ih hm
      refine ⟨hno, fun b u r' => ?_⟩
      rw [hmem, mem_cons, or_iff_right ha]

lemma SetsOf.removeCacheLoop (h : SetsOf host queue m) (r : Record) :
    SetsOf host (queue.filter fun r' => r' ≠ r) (removeCacheLoop host r queue m).2 := by
  obtain ⟨hno, hmem⟩ := removeCacheLoop_sets host h.noEmpty r queue
  exact h.without hno hmem fun r' => by rw [mem_filter, decide_eq_true_iff]

variable (host) in
lemma shrinkLoop_lists {maxNum : ℤ} (hmax : 0 < maxNum) (queue : List Record)
    (m : SameAppSet Record) :
    (shrinkLoop host maxNum queue m).1 = queue.take (queue.length - maxNum.toNat) ∧
      (shrinkLoop host maxNum queue m).2.1 = queue.drop (queue.length - maxNum.toNat) := by
  induction queue generalizing m with
  | nil => simp [shrinkLoop]
  | cons r queue ih =>
    rw [shrinkLoop]
    split_ifs with hlong
    · have hsub : (r :: queue).length - maxNum.toNat = (queue.length - maxNum.toNat) + 1 := by
        rw [length_cons] at hlong ⊢
        omega
      obtain ⟨hclean, hqueue⟩ := ih (removeFromApplicationSet host m r)
      rw [hsub, take_succ_cons, drop_succ_cons, ← hclean, ← hqueue]
      exact ⟨rfl, rfl⟩
    · have hsub : (r :: queue).length - maxNum.toNat = 0 := by omega
      rw [hsub]
      exact ⟨rfl, rfl⟩

variable (host) in
lemma shrinkLoop_of_le {maxNum : ℤ} {queue : List Record} (h : queue.length ≤ maxNum)
    (m : SameAppSet Record) : shrinkLoop host maxNum queue m = ([], queue, m) := by
  cases queue with
  | nil => rfl
  | cons r queue => rw [shrinkLoop, if_neg (not_lt.mpr h)]

protected lemma SetsOf.shrinkLoop {maxNum : ℤ} (h : SetsOf host queue m) (hnodup : queue.Nodup) :
    SetsOf host (shrinkLoop host maxNum queue m).2.1 (shrinkLoop host maxNum queue m).2.2 := by
  induction queue generalizing m with
  | nil => exact h
  | cons r queue ih =>
    rw [shrinkLoop]
    split_ifs with hlong
    · have hr := nodup_cons.mp hnodup
      refine ih (h.without (r := r) (h.noEmpty.removeFromApplicationSet host r)
        (fun b u r' => ?_) fun r' => ?_) hr.2
      · rw [mem_recordsOf_remove, and_iff_right mem_cons_self]
      · rw [mem_cons]
        constructor
        · exact fun hr' => ⟨.inr hr', fun heq => hr.1 (heq ▸ hr')⟩
        · exact fun hr' => hr'.1.resolve_left hr'.2
    · exact h

end Sets

structure Agrees (s : CacheProcessManager Record) : Prop where
  nodup : s.cachedAppRecordQueue.Nodup
  length_le : s.cachedAppRecordQueue.length ≤ s.maxProcCacheNum
  sets : SetsOf host s.cachedAppRecordQueue s.sameAppSet

structure SameCache (s s' : CacheProcessManager Record) : Prop where
  maxProcCacheNum : s'.maxProcCacheNum = s.maxProcCacheNum
  queue : s'.cachedAppRecordQueue = s.cachedAppRecordQueue
  sameAppSet : s'.sameAppSet = s.sameAppSet
  appMgr : s'.appMgr = s.appMgr

def killed : List Record :=
  s.events.filterMap fun
    | .killApplicationByRecord r => some r
    | _ => none

def pends : Option Record :=
  c.appRecord.filter fun r =>
    c.asks && (isAppShouldCache host s r c.info).1 && !c.info.isKeepAliveApp

def Fresh : Op Record → Prop
  | .prepareTerminate c => ∀ r ∈ pends host s c, r ∉ s.cachedAppRecordQueue
  | _ => True

def pended : List Record × List Record × SameAppSet Record :=
  shrinkLoop host s.maxProcCacheNum (s.cachedAppRecordQueue ++ [r])
    (addToApplicationSet host s.sameAppSet r)

section Steps
variable {host} {s s' : CacheProcessManager Record}

omit [LinearOrder Record] in
lemma Agrees.congr (h : Agrees host s) (hs : SameCache s s') : Agrees host s' := by
  refine ⟨?_, ?_, ?_⟩
  · rw [hs.queue]
    exact h.nodup
  · rw [hs.queue, hs.maxProcCacheNum]
    exact h.length_le
  · rw [hs.queue, hs.sameAppSet]
    exact h.sets

omit [LinearOrder Record] in
variable (s) in
lemma SameCache.refl : SameCache s s := ⟨rfl, rfl, rfl, rfl⟩

omit [LinearOrder Record] in
lemma SameCache.trans {s'' : CacheProcessManager Record} (h : SameCache s s')
    (h' : SameCache s' s'') : SameCache s s'' :=
  ⟨h'.1.trans h.1, h'.2.trans h.2, h'.3.trans h.3, h'.4.trans h.4⟩

variable (s) in
lemma sameCache_isAppContainsSrvExt (r : Record)
    (info : AppRunningInfo) : SameCache s (s.isAppContainsSrvExt r info).2 ∧
      (s.isAppContainsSrvExt r info).2.events = s.events := by
  rw [isAppContainsSrvExt]
  split_ifs <;> exact ⟨⟨rfl, rfl, rfl, rfl⟩, rfl⟩

variable (host s) in
lemma sameCache_isAppSupportProcessCache (r : Record)
    (info : AppRunningInfo) : SameCache s (isAppSupportProcessCache host s r info).2 ∧
      (isAppSupportProcessCache host s r info).2.events = s.events := by
  rw [isAppSupportProcessCache]
  cases info.apiTargetVersion with
  | none => exact ⟨.refl s, rfl⟩
  | some v =>
    dsimp only
    split_ifs
    · exact ⟨.refl s, rfl⟩
    · exact sameCache_isAppContainsSrvExt s r info

variable (host s) in
lemma sameCache_isAppShouldCache (r : Record)
    (info : AppRunningInfo) : SameCache s (isAppShouldCache host s r info).2 ∧
      (isAppShouldCache host s r info).2.events = s.events := by
  rw [isAppShouldCache]
  split_ifs
  · exact ⟨.refl s, rfl⟩
  · exact ⟨.refl s, rfl⟩
  · exact sameCache_isAppSupportProcessCache host s r info

variable (host) in
lemma sameCache_allCachedLoop (b : String) (u : ℤ) (cachedSet : Finset Record)
    (running : List (Record × AppRunningInfo)) (s : CacheProcessManager Record) :
    SameCache s (allCachedLoop host b u cachedSet running s).2 := by
  induction running generalizing s with
  | nil => exact .refl s
  | cons p running ih =>
    rw [allCachedLoop]
    have hsupport := (sameCache_isAppSupportProcessCache host s p.1 p.2).1
    split_ifs
    · dsimp only
      split_ifs
      · exact hsupport
      · exact hsupport.trans (ih _)
    · exact ih s

variable (host s) in
lemma sameCache_checkAndNotifyCachedState (r : Record) (running : List (Record × AppRunningInfo)) :
    SameCache s (checkAndNotifyCachedState host s r running).2 := by
  rw [checkAndNotifyCachedState]
  split_ifs
  · exact .refl s
  · split
    · exact .refl s
    · rename_i recordSet _
      split
      · exact .refl s
      · have hloop := sameCache_allCachedLoop host (host.bundleName r) (host.uid r)
          recordSet running s
        split
        · rename_i heq
          rwa [heq] at hloop
        · rename_i heq
          rw [heq] at hloop
          exact { hloop with }

omit [LinearOrder Record] in
lemma foldl_killProcessByRecord (cleanList : List Record) (s : CacheProcessManager Record) :
    SameCache s (cleanList.foldl killProcessByRecord s) ∧
      killed (cleanList.foldl killProcessByRecord s) =
        killed s ++ if s.appMgr then cleanList else [] := by
  induction cleanList generalizing s with
  | nil => exact ⟨.refl s, by simp⟩
  | cons r cleanList ih =>
    obtain ⟨hsame, hkilled⟩ := ih (killProcessByRecord s r)
    have hone : SameCache s (killProcessByRecord s r) ∧
        killed (killProcessByRecord s r) = killed s ++ if s.appMgr then [r] else [] := by
      unfold killProcessByRecord
      split_ifs
      · exact ⟨⟨rfl, rfl, rfl, rfl⟩, by simp [killed]⟩
      · exact ⟨.refl s, (append_nil _).symm⟩
    refine ⟨hone.1.trans hsame, ?_⟩
    rw [foldl_cons, hkilled, hone.2, hone.1.appMgr, append_assoc]
    split_ifs <;> rfl

variable (host) in
lemma penddingCacheProcess_eq (hmax : 0 < s.maxProcCacheNum) {info : AppRunningInfo}
    (hkeep : info.isKeepAliveApp = false) (r : Record) :
    (penddingCacheProcess host s r info).2.cachedAppRecordQueue = (pended host s r).2.1 ∧
      (penddingCacheProcess host s r info).2.sameAppSet = (pended host s r).2.2 ∧
      (penddingCacheProcess host s r info).2.maxProcCacheNum = s.maxProcCacheNum ∧
      killed (penddingCacheProcess host s r info).2 =
        killed s ++ if s.appMgr then (pended host s r).1 else [] := by
  have henable : s.queryEnableProcessCache = true := decide_eq_true hmax
  rw [penddingCacheProcess, henable, hkeep]
  rw [shrinkAndKillCache, if_neg (not_le.mpr hmax)]
  obtain ⟨hsame, hkilled⟩ := foldl_killProcessByRecord (pended host s r).1
    { s with
      cachedAppRecordQueue := (pended host s r).2.1
      sameAppSet := (pended host s r).2.2 }
  exact ⟨hsame.queue, hsame.sameAppSet, hsame.maxProcCacheNum, hkilled⟩

variable (host s) in
lemma prepareTerminate_cases (c : TerminateCall Record) :
    (pends host s c = none ∧ SameCache s (prepareTerminate host s c) ∧
        killed (prepareTerminate host s c) = killed s) ∨
      ∃ r s₁, pends host s c = some r ∧ c.info.isKeepAliveApp = false ∧ SameCache s s₁ ∧
        s₁.events = s.events ∧
        prepareTerminate host s c = (penddingCacheProcess host s₁ r c.info).2 := by
  rw [prepareTerminate, pends]
  cases c.appRecord with
  | none => exact .inl ⟨rfl, .refl s, rfl⟩
  | some r =>
    dsimp only
    cases hasks : c.asks with
    | false => exact .inl ⟨by simp, .refl s, rfl⟩
    | true =>
      obtain ⟨hsame, hevents⟩ := sameCache_isAppShouldCache host s r c.info
      rcases hcache : isAppShouldCache host s r c.info with ⟨should, s₁⟩
      rw [hcache] at hsame hevents
      have hkilled : killed s₁ = killed s := by rw [killed, killed, hevents]
      cases should with
      | false => exact .inl ⟨by simp [hcache], hsame, hkilled⟩
      | true =>
        cases hkeep : c.info.isKeepAliveApp with
        | false => exact .inr ⟨r, s₁, by simp [hcache], rfl, hsame, hevents, rfl⟩
        | true =>
          have hpend : penddingCacheProcess host s₁ r c.info = (false, s₁) := by
            rw [penddingCacheProcess, hkeep, if_pos rfl, ite_self]
          refine .inl ⟨by simp, ?_⟩
          simp only [if_true, hpend]
          exact ⟨hsame, hkilled⟩

lemma Agrees.removeCacheRecord (h : Agrees host s) (r : Record) :
    Agrees host (removeCacheRecord host s r) := by
  have hqueue : (removeCacheLoop host r s.cachedAppRecordQueue s.sameAppSet).1 =
      s.cachedAppRecordQueue.filter fun r' => r' ≠ r := removeCacheLoop_queue r _ _
  refine ⟨?_, ?_, ?_⟩
  · change (removeCacheLoop host r s.cachedAppRecordQueue s.sameAppSet).1.Nodup
    rw [hqueue]
    exact h.nodup.filter _
  · change ((removeCacheLoop host r s.cachedAppRecordQueue s.sameAppSet).1.length : ℤ) ≤ _
    rw [hqueue]
    exact le_trans (by exact_mod_cast length_filter_le _ _) h.length_le
  · change SetsOf host (removeCacheLoop host r s.cachedAppRecordQueue s.sameAppSet).1 _
    rw [hqueue]
    exact h.sets.removeCacheLoop r

protected lemma Agrees.penddingCacheProcess (h : Agrees host s) (hmax : 0 < s.maxProcCacheNum)
    {r : Record} {info : AppRunningInfo} (hkeep : info.isKeepAliveApp = false)
    (hr : r ∉ s.cachedAppRecordQueue) : Agrees host (penddingCacheProcess host s r info).2 := by
  obtain ⟨hqueue, hsets, hnum, -⟩ := penddingCacheProcess_eq host hmax hkeep r
  have hnodup : (s.cachedAppRecordQueue ++ [r]).Nodup := by
    refine nodup_append.mpr ⟨h.nodup, nodup_singleton r, ?_⟩
    rintro a ha b hb rfl
    exact hr (mem_singleton.mp hb ▸ ha)
  have hdrop : (pended host s r).2.1 = _ := (shrinkLoop_lists host hmax _ _).2
  refine ⟨?_, ?_, ?_⟩
  · rw [hqueue, hdrop]
    exact hnodup.sublist (drop_sublist _ _)
  · rw [hqueue, hdrop, hnum, length_drop]
    omega
  · rw [hqueue, hsets]
    exact (h.sets.add r).shrinkLoop hnodup

theorem Agrees.not_penddingCacheProcess (h : Agrees host s) (hmax : 0 < s.maxProcCacheNum)
    {r : Record} {info : AppRunningInfo} (hkeep : info.isKeepAliveApp = false)
    (hr : r ∈ s.cachedAppRecordQueue) :
    ¬ Agrees host (penddingCacheProcess host s r info).2 := by
  intro h'
  obtain ⟨hqueue, hsets, -, -⟩ := penddingCacheProcess_eq host hmax hkeep r
  have hnodup := h'.nodup
  have hmem := h'.sets.mem (host.bundleName r) (host.uid r) r
  have hlength := h.length_le
  rw [hqueue] at hnodup
  rw [hqueue, hsets] at hmem
  have htwice : ∀ l : List Record, r ∈ l → ¬ (l ++ [r]).Nodup := fun l hl hnd =>
    (nodup_append.mp hnd).2.2 r hl r (mem_singleton_self r) rfl
  rcases hlist : s.cachedAppRecordQueue with _ | ⟨a, queue⟩
  · rw [hlist] at hr
    cases hr
  · rw [hlist] at hlength
    rw [hlist] at hr
    by_cases hfull : (a :: (queue ++ [r])).length > s.maxProcCacheNum
    · have hrest : (queue ++ [r]).length ≤ s.maxProcCacheNum := by
        rw [length_append]
        exact hlength
      have hpended : pended host s r = (a :: [], queue ++ [r],
          removeFromApplicationSet host (addToApplicationSet host s.sameAppSet r) a) := by
        rw [pended, hlist, cons_append, shrinkLoop, if_pos hfull, shrinkLoop_of_le host hrest]
      rw [hpended] at hnodup hmem
      have ha : a = r := by
        rcases mem_cons.mp hr with hra | hra
        · exact hra.symm
        · exact absurd hnodup (htwice queue hra)
      have hout := hmem.mpr ⟨by simp, rfl, rfl⟩
      rw [mem_recordsOf_remove] at hout
      exact hout.2 ⟨ha.symm, by rw [ha], by rw [ha]⟩
    · have hpended : pended host s r = ([], a :: queue ++ [r],
          addToApplicationSet host s.sameAppSet r) := by
        rw [pended, hlist, cons_append, shrinkLoop_of_le host (not_lt.mp hfull)]
      rw [hpended] at hnodup
      exact htwice _ hr hnodup

lemma SameCache.removeCacheRecord (h : SameCache s s') (r : Record) :
    SameCache (removeCacheRecord host s r) (removeCacheRecord host s' r) := by
  unfold CacheProcessManager.removeCacheRecord
  rw [h.queue, h.sameAppSet]
  exact ⟨h.maxProcCacheNum, rfl, rfl, h.appMgr⟩

variable (host s) in
lemma step_cases (op : Op Record) : (∃ c, op = .prepareTerminate c) ∨
    Fresh host s op ∧ (SameCache s (step host s op) ∨
      ∃ r, SameCache (removeCacheRecord host s r) (step host s op)) := by
  cases op with
  | prepareTerminate c => exact .inl ⟨c, rfl⟩
  | reuseCachedProcess appRecord =>
    refine .inr ⟨trivial, ?_⟩
    rw [step]
    unfold reuseCachedProcess
    split
    · rename_i r _
      split_ifs
      · refine .inr ⟨r, ?_⟩
        dsimp only
        split_ifs
        · exact ⟨rfl, rfl, rfl, rfl⟩
        · exact .refl _
      · exact .inl (.refl s)
    · exact .inl (.refl s)
  | onProcessKilled appRecord running =>
    refine .inr ⟨trivial, ?_⟩
    rw [step]
    unfold onProcessKilled
    split
    · rename_i r _
      have hsame := sameCache_checkAndNotifyCachedState host s r running
      dsimp only
      split_ifs
      · refine .inr ⟨r, .removeCacheRecord ?_ r⟩
        exact { hsame with }
      · exact .inl { hsame with }
    · exact .inl (.refl s)

lemma agrees_step_iff (h : Agrees host s) (hmax : 0 < s.maxProcCacheNum) (op : Op Record) :
    Agrees host (step host s op) ↔ Fresh host s op := by
  rcases step_cases host s op with ⟨c, rfl⟩ | ⟨hfresh, hsame | ⟨r, hsame⟩⟩
  · rw [step, Fresh]
    rcases prepareTerminate_cases host s c with
      ⟨hnone, hsame, -⟩ | ⟨r, s₁, hpend, hkeep, hsame, -, heq⟩
    · rw [hnone]
      exact iff_of_true (h.congr hsame) (by simp)
    · rw [heq, hpend]
      have hmax₁ : 0 < s₁.maxProcCacheNum := hsame.maxProcCacheNum ▸ hmax
      have hfresh : (∀ r' ∈ some r, r' ∉ s.cachedAppRecordQueue) ↔ r ∉ s₁.cachedAppRecordQueue := by
        rw [hsame.queue]
        simp
      rw [hfresh]
      constructor
      · intro h' hr
        exact (h.congr hsame).not_penddingCacheProcess hmax₁ hkeep hr h'
      · exact (h.congr hsame).penddingCacheProcess hmax₁ hkeep
  · exact iff_of_true (h.congr hsame) hfresh
  · exact iff_of_true ((h.removeCacheRecord r).congr hsame) hfresh

lemma maxProcCacheNum_step (hmax : 0 < s.maxProcCacheNum) (op : Op Record) :
    (step host s op).maxProcCacheNum = s.maxProcCacheNum := by
  rcases step_cases host s op with ⟨c, rfl⟩ | ⟨-, hsame | ⟨r, hsame⟩⟩
  · rcases prepareTerminate_cases host s c with
      ⟨-, hsame, -⟩ | ⟨r, s₁, -, hkeep, hsame, -, heq⟩
    · exact hsame.maxProcCacheNum
    · have hmax₁ : 0 < s₁.maxProcCacheNum := hsame.maxProcCacheNum ▸ hmax
      rw [step, heq, (penddingCacheProcess_eq host hmax₁ hkeep r).2.2.1, hsame.maxProcCacheNum]
  · exact hsame.maxProcCacheNum
  · exact hsame.maxProcCacheNum

theorem prepareTerminate_lists (h : Agrees host s) (hmax : 0 < s.maxProcCacheNum)
    (c : TerminateCall Record) :
    let queue := s.cachedAppRecordQueue ++ (pends host s c).toList
    (prepareTerminate host s c).cachedAppRecordQueue =
        queue.drop (queue.length - s.maxProcCacheNum.toNat) ∧
      killed (prepareTerminate host s c) = killed s ++
        if s.appMgr then queue.take (queue.length - s.maxProcCacheNum.toNat) else [] := by
  intro queue
  have hlength := h.length_le
  rcases prepareTerminate_cases host s c with
    ⟨hnone, hsame, hkilled⟩ | ⟨r, s₁, hpend, hkeep, hsame, hevents, heq⟩
  · have hqueue : queue = s.cachedAppRecordQueue := by
      simp [queue, hnone]
    have hzero : s.cachedAppRecordQueue.length - s.maxProcCacheNum.toNat = 0 := by omega
    rw [hqueue, hzero, hkilled, hsame.queue]
    exact ⟨rfl, by simp⟩
  · have hqueue : queue = s₁.cachedAppRecordQueue ++ [r] := by
      simp [queue, hpend, hsame.queue]
    have hmax₁ : 0 < s₁.maxProcCacheNum := hsame.maxProcCacheNum ▸ hmax
    have hkilled : killed s₁ = killed s := by rw [killed, killed, hevents]
    obtain ⟨hleft, -, -, hkill⟩ := penddingCacheProcess_eq host hmax₁ hkeep r
    obtain ⟨htake, hdrop⟩ := shrinkLoop_lists host hmax₁ (s₁.cachedAppRecordQueue ++ [r])
      (addToApplicationSet host s₁.sameAppSet r)
    rw [heq, hqueue, ← hsame.maxProcCacheNum, ← hsame.appMgr, ← hkilled, hleft, hkill, ← htake]
    exact ⟨hdrop, rfl⟩

end Steps

theorem run_agrees {maxProcCacheNum : ℤ} (hmax : 0 < maxProcCacheNum)
    (appMgr shouldCheckApi shouldCheckSupport : Bool) {ops : List (Op Record)}
    (hops : Runs.Guarded (step host) (Fresh host)
      (init maxProcCacheNum appMgr shouldCheckApi shouldCheckSupport) ops) :
    let s := ops.foldl (step host) (init maxProcCacheNum appMgr shouldCheckApi shouldCheckSupport)
    Agrees host s ∧ s.maxProcCacheNum = maxProcCacheNum ∧ ∀ c,
      let queue := s.cachedAppRecordQueue ++ (pends host s c).toList
      (prepareTerminate host s c).cachedAppRecordQueue =
          queue.drop (queue.length - maxProcCacheNum.toNat) ∧
        killed (prepareTerminate host s c) = killed s ++
          if s.appMgr then queue.take (queue.length - maxProcCacheNum.toNat) else [] := by
  intro s
  have hs : Agrees host s ∧ s.maxProcCacheNum = maxProcCacheNum := by
    refine hops.invariant (I := fun s => Agrees host s ∧ s.maxProcCacheNum = maxProcCacheNum) ?_ ?_
    · rintro s op ⟨h, hnum⟩ hfresh
      have hmax' : 0 < s.maxProcCacheNum := hnum ▸ hmax
      exact ⟨(agrees_step_iff h hmax' op).mpr hfresh, (maxProcCacheNum_step hmax' op).trans hnum⟩
    · refine ⟨⟨nodup_nil, hmax.le, ?_⟩, rfl⟩
      refine ⟨⟨fun b m h => ?_, fun b u t h => ?_⟩, fun b u r => ?_⟩
      · cases h
      · cases h
      · simp [recordsOf, lookup, init]
  refine ⟨hs.1, hs.2, fun c => ?_⟩
  have hlists := prepareTerminate_lists hs.1 (hs.2 ▸ hmax) c
  rwa [hs.2] at hlists

def sampleCall (r : ℕ) : TerminateCall ℕ where
  appRecord := some r
  clearMissionFlag := false
  isLastPageAbilityRecord := true
  isLastAbilityRecord := true
  isMemorySizeSufficent := true
  info := {
    apiTargetVersion := some 50012
    allModuleRecord := []
    isAttachedToStatusBar := false
    isKeepAliveApp := false
    hasParentAppRecord := false
    processCacheBlocked := false
    supportProcessCacheState := .support }

def sampleHost : CacheHost ℕ := ⟨fun _ => "app", fun _ => 20010001, "shell"⟩

instance (s : CacheProcessManager Record) : ∀ op, Decidable (Fresh host s op)
  | .prepareTerminate c => inferInstanceAs (Decidable (∀ r ∈ pends host s c, _))
  | .reuseCachedProcess _ => isTrue trivial
  | .onProcessKilled _ _ => isTrue trivial

theorem three_agree : (0 : ℤ) < 2 ∧
    Runs.Guarded (step sampleHost) (Fresh sampleHost) (init 2 true true true)
      [.prepareTerminate (sampleCall 1), .prepareTerminate (sampleCall 2)] ∧
    pends sampleHost ([.prepareTerminate (sampleCall 1), .prepareTerminate (sampleCall 2)].foldl
      (step sampleHost) (init 2 true true true)) (sampleCall 3) = some 3 ∧
    killed (prepareTerminate sampleHost ([.prepareTerminate (sampleCall 1),
      .prepareTerminate (sampleCall 2)].foldl (step sampleHost) (init 2 true true true))
      (sampleCall 3)) = [1] := by
  have hmax : (0 : ℤ) < 2 := by decide
  have hfresh : Runs.Guarded (step sampleHost) (Fresh sampleHost) (init 2 true true true)
      [.prepareTerminate (sampleCall 1), .prepareTerminate (sampleCall 2)] := by decide
  refine ⟨hmax, hfresh, by decide, ?_⟩
  rw [((run_agrees sampleHost hmax true true true hfresh).2.2 (sampleCall 3)).2]
  decide

theorem pended_twice : ¬ Agrees sampleHost (([.prepareTerminate (sampleCall 1),
      .prepareTerminate (sampleCall 1)] : List (Op ℕ)).foldl (step sampleHost)
      (init 2 true true true)) ∧
    ¬ Agrees sampleHost (([.prepareTerminate (sampleCall 1),
      .prepareTerminate (sampleCall 1)] : List (Op ℕ)).foldl (step sampleHost)
      (init 1 true true true)) := by
  constructor
  · intro h
    exact absurd h.nodup (by decide)
  · intro h
    have hmem := (h.sets.mem "app" 20010001 1).mpr (by decide)
    exact absurd hmem (by decide)

end CacheProcessManager

end AbilityRuntime
