import AbilityRuntime.AbilityMgr.ConnectViews

/-! The keys of the service map: a record is put in under a key made of the request, and taken out
under one made of the record itself. -/

namespace AbilityRuntime
open Option Function SortedMap

namespace AbilityCacheManager
variable {Record : Type}

def held (s : AbilityCacheManager Record) : List Record :=
  s.devRecLru ++ s.procLruMap.entries.flatMap fun e => e.2.recList

lemma mem_held {s : AbilityCacheManager Record} {r : Record} : r ∈ s.held ↔ s.Holds r := by
  rw [held, List.mem_append, List.mem_flatMap]
  refine or_congr_right ⟨?_, ?_⟩
  · rintro ⟨⟨t, info⟩, he, hr⟩
    exact ⟨t, info, mem_entries.mp he, hr⟩
  · rintro ⟨t, info, he, hr⟩
    exact ⟨(t, info), mem_entries.mpr he, hr⟩

end AbilityCacheManager

namespace ServiceRecord

def isPlain (r : ServiceRecord) : Bool :=
  r.abilityInfo.isFormRender → r.getURI = (r.abilityInfo.element r.abilityInfo.bundleName).getURI

lemma eliminateKey_of_isPlain {r : ServiceRecord} (h : r.isPlain = true) :
    r.eliminateKey = r.terminatingKey := by
  unfold eliminateKey terminatingKey
  split_ifs with hform
  · rw [of_decide_eq_true h hform]
  · rfl

lemma terminatingKey_of_want {r : ServiceRecord} {want : Want}
    (h : r.abilityInfo.isFormRender = true → want.frsAppIndex = r.want.frsAppIndex) :
    ({ r with want := want } : ServiceRecord).terminatingKey = r.terminatingKey := by
  unfold terminatingKey
  split_ifs with hform
  · rw [h hform]
  · rfl

def serves (r : ServiceRecord) (request : ServiceRequest) : Bool :=
  r.uri = "" ∧ r.abilityInfo = request.abilityInfo ∧
    (request.abilityInfo.extensionAbilityType.isSupportAppClone →
      r.appIndex = request.want.appCloneIndex ∧
        (request.abilityInfo.isFormRender → r.appIndex ≤ 0)) ∧
    (request.abilityInfo.isFormRender → r.want.frsAppIndex = request.want.frsAppIndex)

section
variable {r : ServiceRecord} {request : ServiceRequest} (h : r.serves request = true)
include h

lemma getURI_of_serves :
    r.getURI = (request.abilityInfo.element request.generateBundleName).getURI := by
  obtain ⟨huri, hinfo, hindex, -⟩ := of_decide_eq_true h
  unfold getURI ServiceRequest.generateBundleName
  rw [huri, hinfo]
  cases hclone : request.abilityInfo.extensionAbilityType.isSupportAppClone with
  | true => simp [(hindex hclone).1]
  | false => simp

lemma isPlain_of_serves : r.isPlain = true := by
  refine decide_eq_true fun hform => ?_
  obtain ⟨-, hinfo, hindex, -⟩ := of_decide_eq_true h
  rw [hinfo] at hform
  have hname : request.generateBundleName = request.abilityInfo.bundleName := by
    refine if_neg fun hclone => ?_
    obtain ⟨happ, hnone⟩ := hindex hclone.1
    have := hnone hform
    omega
  rw [getURI_of_serves h, hname, hinfo]

lemma terminatingKey_of_serves : r.terminatingKey = request.serviceKey := by
  rw [← eliminateKey_of_isPlain (isPlain_of_serves h)]
  obtain ⟨-, hinfo, -, hfrs⟩ := of_decide_eq_true h
  unfold eliminateKey ServiceRequest.serviceKey
  rw [getURI_of_serves h, hinfo]
  split_ifs with hform
  · rw [hfrs hform]
  · rfl

end

end ServiceRecord

namespace AbilityConnectManager
open AbilityCacheManager ServiceRecord
variable {s s' : AbilityConnectManager} {request : ServiceRequest} {r : ServiceRef} {key : String}

section
variable (s request)

def apart (key : String) : Bool :=
  ∀ v ∈ s.abilityCache.held, (s.records v).terminatingKey ≠ key

def keepsIndex (r : ServiceRef) (want : Want) : Bool :=
  (s.records r).abilityInfo.isFormRender → want.frsAppIndex = (s.records r).want.frsAppIndex

def findFits (useCache : Bool) : Bool :=
  if (s.serviceMap.find? request.serviceKey).isSome || !useCache then true
  else
    match s.getFromCache request with
    | (some r, s') => (s.records r).serves request && s'.apart request.serviceKey
    | (none, _) => true

def createFits : Bool :=
  (createAbilityRecord request).serves request && s.apart request.serviceKey

def serviceFits : Bool :=
  let type := request.abilityInfo.extensionAbilityType
  s.findFits request (s.isCacheExtensionType type) &&
    match s.findServiceRecord request (s.isCacheExtensionType type) with
    | (some r, s') =>
      s.keepsIndex r request.want && (!type.isWindowExtension || s'.createFits request)
    | (none, s') => s'.createFits request

def newExtensionFits : Bool :=
  !request.abilityInfo.isFormRender && s.apart (extensionRecordKey request (s.nextRecord + 1))

def extensionFits : ExtensionAnswer → Bool
  | .fail => true
  | .reuse r =>
    let key := extensionRecordKey request (s.records r).uiExtensionAbilityId
    (s.records r).uri = key && !(s.records r).abilityInfo.isFormRender && s.apart key
  | .create => s.newExtensionFits request

def startFits (env : ServiceEnv) : Bool :=
  if request.abilityInfo.extensionAbilityType.isUIExtension then
    s.extensionFits request env.extensionRecord
  else s.serviceFits request

def connectFits (connectInfo : Bool) (env : ServiceEnv) : Bool :=
  if request.abilityInfo.extensionAbilityType.isUIExtension ∧ connectInfo then
    s.extensionFits request env.extensionRecord
  else s.serviceFits request

def restartsFit (s : AbilityConnectManager) (envs : ℕ → ServiceEnv) : List QueuedRequest → Bool
  | [] => true
  | q :: rest =>
    let s := s.logQueue [.restarted q.ticket]
    s.startFits q.request (envs q.ticket) &&
      restartsFit (s.startAbilityLocked q.request (envs q.ticket)) envs rest

def completeFits (s : AbilityConnectManager) (r : ServiceRef) (envs : ℕ → ServiceEnv) : Bool :=
  let serviceUri := (s.records r).getURI
  let s := s.logQueue [.completed r]
  match s.startServiceReqList.find? serviceUri with
  | none => true
  | some reqList =>
    restartsFit { s with startServiceReqList := s.startServiceReqList.erase serviceUri } envs
      reqList

def keysFit (op : Op) : Bool :=
  match s.completion op with
  | some (s, r, envs) => s.completeFits r envs
  | none =>
    match op with
    | .startAbility request env => s.startFits request env
    | .preloadUIExtensionAbility request =>
      !request.abilityInfo.extensionAbilityType.isUIExtension || s.newExtensionFits request
    | .connectAbility request _ _ connectInfo env => s.connectFits request connectInfo env
    | .stopServiceAbility request => s.findFits request true
    | .dispatchInactive r => s.keepsIndex r (updateConnectWant (s.records r)).want
    | _ => true

end

lemma keys_of_identity {x y : ServiceRecord} (h : identity x = identity y) :
    x.terminatingKey = y.terminatingKey ∧ x.isPlain = y.isPlain := by
  have huri := getURI_of_identity h
  have hinfo : x.abilityInfo = y.abilityInfo := congrArg (fun p => p.2.1) h
  refine ⟨terminatingKey_of_identity h, ?_⟩
  rw [isPlain, isPlain, huri, hinfo]

lemma Kept.apart (hk : Kept s s') : s'.apart key = s.apart key := by
  unfold AbilityConnectManager.apart
  rw [hk.abilityCache]
  simp only [fun v => (keys_of_identity (hk.identity v)).1]

lemma Known.apart_createRecord (hk : Known s) (record : ServiceRecord) :
    (s.createRecord record).apart key = s.apart key := by
  refine Bool.decide_congr (forall₂_congr fun v hv => ?_)
  have hlt : v < s.nextRecord := hk v (.inr (mem_held.mp hv))
  have hsame : (s.createRecord record).records v = s.records v := update_of_ne hlt.ne ..
  rw [hsame]

lemma keys_of_uri {x : ServiceRecord} {id : ℕ} (huri : x.uri = extensionRecordKey request id)
    (hform : x.abilityInfo.isFormRender = false) :
    x.terminatingKey = extensionRecordKey request id ∧ x.isPlain = true := by
  have hne : x.uri.isEmpty = false := by
    rw [huri]
    simp [extensionRecordKey, ElementName.getURI]
  refine ⟨?_, by simp [isPlain, hform]⟩
  rw [terminatingKey, if_neg (by simp [hform]), getURI, if_neg (by simp [hne]), huri]

lemma records_findServiceRecord {useCache : Bool} {o : Option ServiceRef}
    (h : s.findServiceRecord request useCache = (o, s')) : s'.records = s.records := by
  unfold findServiceRecord at h
  split at h
  · cases h
    rfl
  · split_ifs at h
    · split at h
      · rename_i heq
        cases h
        exact congrArg (fun p => p.2.records) heq.symm
      · rename_i heq
        cases h
        exact congrArg (fun p => p.2.records) heq.symm
    · cases h
      rfl

lemma keepsIndex_of_identity (hid : identity (s'.records r) = identity (s.records r))
    {want : Want} : s'.keepsIndex r want = s.keepsIndex r want := by
  simp only [identity, Prod.mk.injEq] at hid
  simp [keepsIndex, hid]

structure Keyed (s : AbilityConnectManager) : Prop where
  key : ∀ key r, s.serviceMap.find? key = some r → (s.records r).terminatingKey = key
  apart : ∀ r, s.abilityCache.Holds r → s.serviceMap.find? (s.records r).terminatingKey = none
  plain : ∀ r, s.Finds r → (s.records r).isPlain = true

namespace Keyed

lemma sub (h : Keyed s)
    (hmap : ∀ key r, s'.serviceMap.find? key = some r → s.serviceMap.find? key = some r)
    (hcache : ∀ r, s'.abilityCache.Holds r → s.abilityCache.Holds r)
    (hkey : ∀ r, s.Finds r → (s'.records r).terminatingKey = (s.records r).terminatingKey ∧
      (s'.records r).isPlain = (s.records r).isPlain) : Keyed s' := by
  refine ⟨fun key r hr => ?_, fun r hr => ?_, fun r hr => ?_⟩
  · have hold := hmap key r hr
    exact (hkey r (.inl ⟨key, hold⟩)).1.trans (h.key key r hold)
  · have hold := hcache r hr
    rw [(hkey r (.inr hold)).1]
    refine eq_none_iff_forall_ne_some.mpr fun v hv => ?_
    exact absurd (hmap _ v hv) (by rw [h.apart r hold]; exact (some_ne_none v).symm)
  · have hold : s.Finds r := hr.imp (fun ⟨key, hm⟩ => ⟨key, hmap key r hm⟩) (hcache r)
    exact (hkey r hold).2.trans (h.plain r hold)

lemma kept (hk : Kept s s') (h : Keyed s) : Keyed s' :=
  h.sub (fun _ _ hr => hk.serviceMap ▸ hr) (fun _ hr => hk.abilityCache ▸ hr) fun r _ =>
    keys_of_identity (hk.identity r)

section
variable (h : Keyed s)
include h

lemma of_maps (hm : s'.serviceMap = s.serviceMap) (hc : s'.abilityCache = s.abilityCache)
    (hr : s'.records = s.records) : Keyed s' :=
  h.sub (fun _ _ hk => hm ▸ hk) (fun _ hk => hc ▸ hk) fun r _ => by rw [hr]; exact ⟨rfl, rfl⟩

protected lemma eraseFromServiceMap (key : String) : Keyed (s.eraseFromServiceMap key) := by
  refine h.sub (fun key' r hr => ?_) (fun _ hr => hr) fun _ _ => ⟨rfl, rfl⟩
  exact (find?_erase_eq_some.1 hr).2

protected lemma filterServiceMap (keep : ServiceRef → Bool) : Keyed (s.filterServiceMap keep) := by
  refine h.sub (fun key' r hr => ?_) (fun _ hr => hr) fun _ _ => ⟨rfl, rfl⟩
  simp only [filterServiceMap, find?_traverse] at hr
  obtain ⟨r', hr', hkeep⟩ := bind_eq_some_iff.mp hr
  split at hkeep
  · cases hkeep
    exact hr'
  · cases hkeep

lemma removeFromCache (r : ServiceRef) : Keyed (s.removeFromCache r) :=
  h.sub (fun _ _ hr => hr) (fun _ hr => holds_of_remove hr) fun _ _ => ⟨rfl, rfl⟩

protected lemma addToServiceMap (hkey : (s.records r).terminatingKey = key)
    (hplain : (s.records r).isPlain = true) (hapart : s.apart key = true) :
    Keyed (s.addToServiceMap key r) := by
  have hold (key' : String) (v : ServiceRef)
      (hv : (s.addToServiceMap key r).serviceMap.find? key' = some v) :
      s.serviceMap.find? key' = some v ∨ (key' = key ∧ v = r) := by
    simp only [addToServiceMap, find?_emplace] at hv
    split_ifs at hv with heq
    · subst heq
      cases hfind : s.serviceMap.find? key with
      | none =>
        rw [hfind] at hv
        exact .inr ⟨rfl, (some.inj hv).symm⟩
      | some v' =>
        rw [hfind] at hv
        exact .inl hv
    · exact .inl hv
  refine ⟨fun key' v hv => ?_, fun v hv => ?_, ?_⟩
  · rcases hold key' v hv with hv | ⟨rfl, rfl⟩
    · exact h.key key' v hv
    · exact hkey
  · have hne := of_decide_eq_true hapart v (mem_held.mpr hv)
    simp only [addToServiceMap, find?_emplace, if_neg hne.symm]
    exact h.apart v hv
  · rintro v (⟨key', hv⟩ | hv)
    · rcases hold key' v hv with hv | ⟨-, rfl⟩
      · exact h.plain v (.inl ⟨key', hv⟩)
      · exact hplain
    · exact h.plain v (.inr hv)

lemma eq_of_find? (hr : s.Finds r) {v : ServiceRef}
    (hv : s.serviceMap.find? (s.records r).terminatingKey = some v) : v = r := by
  rcases hr with ⟨key, hr⟩ | hr
  · rw [h.key key r hr, hr] at hv
    exact (some.inj hv).symm
  · rw [h.apart r hr] at hv
    cases hv

end

end Keyed

lemma finds_of_inServiceMap (hr : s.inServiceMap r = true) : s.Finds r := by
  obtain ⟨e, he, rfl⟩ : ∃ e ∈ s.serviceMap.entries, e.2 = r := by
    simpa [inServiceMap] using hr
  exact .inl ⟨e.1, mem_entries.mp he⟩

def TakesOut (s s' : AbilityConnectManager) (r : ServiceRef) : Prop :=
  ∀ key v, s'.serviceMap.find? key = some v ↔ s.serviceMap.find? key = some v ∧ v ≠ r

lemma Keyed.takesOut_erase (h : Keyed s) (hr : s.Finds r) :
    TakesOut s (s.eraseFromServiceMap (s.records r).terminatingKey) r := by
  intro key v
  simp only [eraseFromServiceMap, find?_erase]
  split
  · rename_i heq
    subst heq
    exact iff_of_false (some_ne_none v).symm fun hv => hv.2 (h.eq_of_find? hr hv.1)
  · rename_i hne
    refine ⟨fun hv => ⟨hv, fun heq => hne ?_⟩, fun hv => hv.1⟩
    exact heq ▸ h.key key v hv

lemma Keyed.takesOut_moveToTerminatingMap (h : Keyed s) (hr : s.Finds r) :
    TakesOut s (s.moveToTerminatingMap r) r := h.takesOut_erase hr

lemma find?_processEliminateAbilityRecord (hfree : s.serviceMap.find?
    (s.records r).terminatingKey = none) (hplain : (s.records r).isPlain = true) (key : String) :
    (s.processEliminateAbilityRecord r).serviceMap.find? key = s.serviceMap.find? key := by
  have hin : (s.addToServiceMap (s.records r).eliminateKey r).inServiceMap r = true := by
    refine List.any_eq_true.mpr ⟨((s.records r).terminatingKey, r), mem_entries.mpr ?_, by simp⟩
    rw [eliminateKey_of_isPlain hplain]
    simp [addToServiceMap, find?_emplace, hfree]
  unfold processEliminateAbilityRecord terminateRecord
  rw [hin, eliminateKey_of_isPlain hplain]
  simp only [Bool.true_or, if_true, setAbilityState, modifyRecord, moveToTerminatingMap,
    removeFromCache, eraseFromServiceMap, addToServiceMap, find?_erase, find?_emplace]
  split_ifs with heq
  · rw [← heq, hfree]
  · rfl

namespace Keyed

protected lemma processEliminateAbilityRecord (h : Keyed s)
    (hfree : s.serviceMap.find? (s.records r).terminatingKey = none)
    (hplain : (s.records r).isPlain = true) : Keyed (s.processEliminateAbilityRecord r) := by
  refine h.sub (fun key v hv => ?_) (fun v hv => ?_) fun v _ => ?_
  · rwa [find?_processEliminateAbilityRecord hfree hplain] at hv
  · unfold processEliminateAbilityRecord terminateRecord at hv
    split at hv
    · exact holds_of_remove hv
    · exact hv
  · unfold processEliminateAbilityRecord terminateRecord
    split
    · exact keys_of_identity (((Kept.refl s).setAbilityState r .terminating).identity v)
    · exact ⟨rfl, rfl⟩

variable {o : Option ServiceRef}

protected lemma putInCache (h : Keyed s) (hr : s.Finds r)
    (hp : (s.eraseFromServiceMap (s.records r).terminatingKey).putInCache r = (o, s')) :
    Keyed s' ∧ s'.serviceMap = (s.eraseFromServiceMap (s.records r).terminatingKey).serviceMap ∧
      ∀ v, o = some v → s'.serviceMap.find? (s'.records v).terminatingKey = none ∧
        (s'.records v).isPlain = true := by
  have he := h.eraseFromServiceMap (s.records r).terminatingKey
  have hfree : (s.eraseFromServiceMap (s.records r).terminatingKey).serviceMap.find?
      (s.records r).terminatingKey = none := by
    simp [eraseFromServiceMap, find?_erase]
  obtain ⟨hv, hh⟩ := holds_of_put (show s.abilityCache.put s.tokenOf (some r) = (_, _) from rfl)
  cases hp
  have hapart (v : ServiceRef) (hv : v = r ∨ s.abilityCache.Holds v) :
      (s.eraseFromServiceMap (s.records r).terminatingKey).serviceMap.find?
        (s.records v).terminatingKey = none ∧ (s.records v).isPlain = true := by
    rcases hv with rfl | hv
    · exact ⟨hfree, h.plain v hr⟩
    · exact ⟨he.apart v hv, h.plain v (.inr hv)⟩
  refine ⟨⟨he.key, fun v hc => (hapart v (hh v hc)).1, ?_⟩, rfl, fun v ho => hapart v (hv v ho)⟩
  rintro v (hm | hc)
  · exact he.plain v (.inl hm)
  · exact (hapart v (hh v hc)).2

lemma sheds : Sheds Keyed :=
  .of_kept kept (fun key h => h.eraseFromServiceMap key) (fun keep h => h.filterServiceMap keep)
    fun r h => h.removeFromCache r

protected lemma terminateOrCacheAbility (h : Keyed s) (hr : s.Finds r) :
    Keyed (s.terminateOrCacheAbility r) := by
  unfold terminateOrCacheAbility
  split
  · exact h
  split
  · split
    · rename_i heq
      exact (h.putInCache hr heq).1
    · rename_i v t heq
      obtain ⟨ht, -, hv⟩ := h.putInCache hr heq
      exact ht.processEliminateAbilityRecord (hv v rfl).1 (hv v rfl).2
  · exact sheds.terminateRecord h r

lemma takesOut_terminateOrCacheAbility (h : Keyed s) (hr : s.inServiceMap r = true)
    (hscene : (s.records r).abilityInfo.isSceneBoard = false) :
    TakesOut s (s.terminateOrCacheAbility r) r := by
  have hfinds := finds_of_inServiceMap hr
  have herase := h.takesOut_erase hfinds
  unfold terminateOrCacheAbility
  rw [if_neg (by simp [hscene])]
  split
  · split
    · rename_i heq
      intro key v
      rw [(h.putInCache hfinds heq).2.1]
      exact herase key v
    · rename_i w t heq
      obtain ⟨-, hmap, hw⟩ := h.putInCache hfinds heq
      intro key v
      rw [find?_processEliminateAbilityRecord (hw w rfl).1 (hw w rfl).2, hmap]
      exact herase key v
  · unfold terminateRecord
    rw [if_pos (by simp [hr])]
    exact h.takesOut_moveToTerminatingMap hfinds

lemma closed : Closed Keyed :=
  ⟨kept, sheds.erase, sheds.filter, sheds.remove,
    fun _ hr h => h.terminateOrCacheAbility (finds_of_inServiceMap hr)⟩

section
variable (h : Keyed s)
include h

protected lemma setWant (want : Want) (hw : s.keepsIndex r want = true) :
    Keyed (s.setWant r want) := by
  refine h.sub (fun _ _ hr => hr) (fun _ hr => hr) fun v _ => ?_
  rcases eq_or_ne v r with rfl | hne
  · simp only [setWant, modifyRecord, update_self]
    exact ⟨terminatingKey_of_want (of_decide_eq_true hw), rfl⟩
  · simp [setWant, modifyRecord, update_of_ne hne]

protected lemma createRecord (hk : Known s) (record : ServiceRecord) :
    Keyed (s.createRecord record) := by
  refine h.sub (fun _ _ hr => hr) (fun _ hr => hr) fun v hv => ?_
  simp [createRecord, update_of_ne (hk v hv).ne]

lemma getFromCache (hg : s.getFromCache request = (o, s')) : Keyed s' := by
  obtain ⟨-, hh⟩ := holds_of_get
    (show s.abilityCache.get request.cacheRequest (fun r => (s.records r).recordInfo) = (_, _)
      from rfl)
  cases hg
  exact h.sub (fun _ _ hr => hr) hh fun _ _ => ⟨rfl, rfl⟩

protected lemma findServiceRecord {useCache : Bool} (hf : s.findFits request useCache = true)
    (hg : s.findServiceRecord request useCache = (o, s')) : Keyed s' := by
  unfold findServiceRecord at hg
  unfold findFits at hf
  split at hg
  · cases hg
    exact h
  rename_i hnone
  split_ifs at hg with huse
  · rw [hnone, huse] at hf
    split at hg
    · rename_i heq
      have ht := h.getFromCache heq
      rw [heq] at hf
      obtain ⟨hserves, hapart⟩ := Bool.and_eq_true_iff.mp hf
      rw [show s.records = _ from congrArg (fun p => p.2.records) heq] at hserves
      cases hg
      exact ht.addToServiceMap (terminatingKey_of_serves hserves) (isPlain_of_serves hserves) hapart
    · rename_i heq
      cases hg
      exact h.getFromCache heq
  · cases hg
    exact h

lemma createServiceRecord (hk : Known s) (hf : s.createFits request = true)
    (isCreatedByConnect : Bool) :
    Keyed (s.createServiceRecord request isCreatedByConnect) ∧
      (s.createServiceRecord request isCreatedByConnect).keepsIndex s.nextRecord
        request.want = true := by
  obtain ⟨hserves, hapart⟩ := Bool.and_eq_true_iff.mp hf
  rw [← hk.apart_createRecord { createAbilityRecord request with
    isCreateByConnect := isCreatedByConnect }] at hapart
  refine ⟨(h.createRecord hk _).addToServiceMap ?_ ?_ hapart, ?_⟩
  · simp only [createRecord, update_self]
    exact terminatingKey_of_serves hserves
  · simp only [createRecord, update_self]
    exact isPlain_of_serves hserves
  · simp [keepsIndex, AbilityConnectManager.createServiceRecord, createRecord, addToServiceMap,
      createAbilityRecord]

protected lemma getOrCreateServiceRecord (hk : Known s) (hf : s.serviceFits request = true)
    (isCreatedByConnect : Bool) :
    Keyed (s.getOrCreateServiceRecord request isCreatedByConnect).2 ∧
      (s.getOrCreateServiceRecord request isCreatedByConnect).2.keepsIndex
        (s.getOrCreateServiceRecord request isCreatedByConnect).1.1 request.want = true := by
  obtain ⟨hfind, hcreate⟩ := Bool.and_eq_true_iff.mp hf
  unfold getOrCreateServiceRecord
  dsimp only
  split
  · rename_i heq
    rw [heq] at hcreate
    obtain ⟨hindex, hwindow⟩ := Bool.and_eq_true_iff.mp hcreate
    have ht := h.findServiceRecord hfind heq
    have hkt := (hk.findServiceRecord request _ heq).1
    split_ifs with htype
    · rw [htype] at hwindow
      exact (ht.eraseFromServiceMap _).createServiceRecord (hkt.eraseFromServiceMap _) hwindow _
    · refine ⟨ht, ?_⟩
      unfold keepsIndex at hindex ⊢
      rwa [records_findServiceRecord heq]
  · rename_i heq
    rw [heq] at hcreate
    exact (h.findServiceRecord hfind heq).createServiceRecord
      (hk.findServiceRecord request _ heq).1 hcreate _

lemma newExtensionRecord (hk : Known s) (hf : s.newExtensionFits request = true)
    {record : ServiceRecord} (hinfo : record.abilityInfo = request.abilityInfo)
    (huri : record.uri = extensionRecordKey request (s.nextRecord + 1)) :
    Keyed ((s.createRecord record).addToServiceMap
      (extensionRecordKey request (s.nextRecord + 1)) s.nextRecord) := by
  obtain ⟨hform, hapart⟩ := Bool.and_eq_true_iff.mp hf
  have hkeys := keys_of_uri huri (by simpa [hinfo] using hform)
  rw [← hk.apart_createRecord record] at hapart
  refine (h.createRecord hk record).addToServiceMap ?_ ?_ hapart
  · simpa only [createRecord, update_self] using hkeys.1
  · simpa only [createRecord, update_self] using hkeys.2

protected lemma getOrCreateExtensionRecord (hk : Known s) {answer : ExtensionAnswer}
    (hf : s.extensionFits request answer = true) (isCreatedByConnect : Bool) :
    Keyed (s.getOrCreateExtensionRecord request isCreatedByConnect answer).2 ∧
      ∀ r isLoaded, (s.getOrCreateExtensionRecord request isCreatedByConnect answer).1 =
        some (r, isLoaded) → (s.getOrCreateExtensionRecord request isCreatedByConnect
          answer).2.keepsIndex r request.want = true := by
  cases answer with
  | fail => exact ⟨h, fun _ _ heq => absurd heq (some_ne_none _).symm⟩
  | reuse r =>
    simp only [getOrCreateExtensionRecord]
    split
    · simp only [extensionFits, Bool.and_eq_true, decide_eq_true_eq, Bool.not_eq_true'] at hf
      obtain ⟨⟨huri, hform⟩, hapart⟩ := hf
      have hkeys := keys_of_uri huri hform
      -- the record has the URI already, so that only its entry may be new
      have hkept : Kept s (((s.modifyRecord r fun x =>
          { x with isCreateByConnect := isCreatedByConnect }).modifyRecord r fun x =>
            { x with uri := extensionRecordKey request (s.records r).uiExtensionAbilityId })) := by
        have hflag := Kept.modifyRecord
          (f := fun x => { x with isCreateByConnect := isCreatedByConnect }) (.refl s) r rfl
        refine hflag.modifyRecord r ?_
        have hsame := hflag.identity r
        simp only [identity, Prod.mk.injEq] at hsame ⊢
        simp [hsame, huri]
      have hid : extensionRecordKey request ((s.modifyRecord r fun x =>
          { x with isCreateByConnect := isCreatedByConnect }).records r).uiExtensionAbilityId =
          extensionRecordKey request (s.records r).uiExtensionAbilityId := by
        simp [modifyRecord]
      have hsame := keys_of_identity (hkept.identity r)
      simp only [addExtensionRecord, hid]
      refine ⟨(h.kept hkept).addToServiceMap (hsame.1.trans hkeys.1) (hsame.2.trans hkeys.2)
        (hkept.apart.trans hapart), ?_⟩
      rintro _ _ heq
      cases heq
      refine (keepsIndex_of_identity (hkept.identity r)).trans ?_
      simp [keepsIndex, hform]
    · exact ⟨h, fun _ _ heq => absurd heq (some_ne_none _).symm⟩
  | create =>
    simp only [getOrCreateExtensionRecord, createExtensionRecord, modifyRecord_createRecord]
    rw [addExtensionRecord_createRecord]
    refine ⟨h.newExtensionRecord hk hf rfl rfl, ?_⟩
    rintro _ _ heq
    cases heq
    simp [keepsIndex, createRecord, addToServiceMap, createAbilityRecord]

protected lemma startTarget (hw : s.keepsIndex r request.want = true) (isLoadedAbility : Bool)
    (env : ServiceEnv) :
    Keyed (s.startTarget request r isLoadedAbility env) := by
  unfold startTarget doForegroundUIExtension
  dsimp only
  split
  · exact h
  split
  · exact (h.setWant _ hw).kept (.modifyRecord (.refl _) r rfl)
  split
  · split
    · exact h.setWant _ hw
    · exact h.of_maps rfl rfl rfl
  · exact h.of_maps rfl rfl rfl

end

variable {env : ServiceEnv}

section
variable (h : Keyed s)
include h

protected lemma startAbilityLocked (hk : Known s) (hf : s.startFits request env = true) :
    Keyed (s.startAbilityLocked request env) := by
  unfold startAbilityLocked
  unfold startFits at hf
  split
  · rename_i hui
    rw [if_pos hui] at hf
    obtain ⟨hg, hwant⟩ := h.getOrCreateExtensionRecord hk hf false
    split
    · rename_i heq
      rwa [heq] at hg
    · rename_i heq
      rw [heq] at hg hwant
      exact hg.startTarget (hwant _ _ rfl) _ env
  · rename_i hui
    rw [if_neg hui] at hf
    obtain ⟨hg, hwant⟩ := h.getOrCreateServiceRecord hk hf false
    exact hg.startTarget hwant _ env

lemma restartRequests (hk : Known s) {envs : ℕ → ServiceEnv} {l : List QueuedRequest}
    (hf : s.restartsFit envs l = true) :
    Keyed (s.restartRequests envs l) := by
  induction l generalizing s with
  | nil => exact h
  | cons q rest ih =>
    obtain ⟨hstart, hrest⟩ := Bool.and_eq_true_iff.mp hf
    have hl : Keyed (s.logQueue [.restarted q.ticket]) := h.of_maps rfl rfl rfl
    have hkl : Known (s.logQueue [.restarted q.ticket]) := hk
    exact ih (hl.startAbilityLocked hkl hstart) (hkl.startAbilityLocked _ _) hrest

protected lemma completeStartServiceReq (hk : Known s) {envs : ℕ → ServiceEnv}
    (hf : s.completeFits r envs = true) : Keyed (s.completeStartServiceReq r envs) := by
  unfold completeStartServiceReq
  unfold completeFits at hf
  dsimp only at hf ⊢
  split
  · exact h.of_maps rfl rfl rfl
  · rename_i heq
    rw [heq] at hf
    refine restartRequests ?_ ?_ hf
    · exact h.of_maps rfl rfl rfl
    · exact hk.of_maps rfl

protected lemma getOrCreateTargetServiceRecord (hk : Known s) {connectInfo : Bool}
    (hf : s.connectFits request connectInfo env = true) :
    Keyed (s.getOrCreateTargetServiceRecord request connectInfo env).2 ∧
      ∀ r isLoaded, (s.getOrCreateTargetServiceRecord request connectInfo env).1 =
        some (r, isLoaded) → (s.getOrCreateTargetServiceRecord request connectInfo
          env).2.keepsIndex r request.want = true := by
  unfold getOrCreateTargetServiceRecord
  unfold connectFits at hf
  split_ifs with hui
  · rw [if_pos hui] at hf
    exact h.getOrCreateExtensionRecord hk hf true
  · rw [if_neg hui] at hf
    obtain ⟨hg, hwant⟩ := h.getOrCreateServiceRecord hk hf true
    refine ⟨hg, fun r isLoaded heq => ?_⟩
    rwa [some.inj heq] at hwant

protected lemma connectTarget (hw : s.keepsIndex r request.want = true) (c : ConnectionRef)
    (isLoadedAbility reported : Bool) :
    Keyed (s.connectTarget request r c isLoadedAbility reported) := by
  unfold connectTarget handleActiveAbility
  split
  · exact h
  split
  · split
    · exact (h.setWant _ hw).kept ((Kept.refl _).completing _)
    · exact h.setWant _ hw
  · exact h.kept (.modifyRecord (.refl s) r rfl)

protected lemma connectAbilityLocked (hk : Known s) (connect : CallbackRef) (callerTokenId : ℕ)
    {connectInfo : Bool} (hf : s.connectFits request connectInfo env = true) :
    Keyed (s.connectAbilityLocked request connect callerTokenId connectInfo env) := by
  obtain ⟨hg, hwant⟩ := h.getOrCreateTargetServiceRecord hk hf
  unfold connectAbilityLocked
  split
  · rename_i heq
    rwa [heq] at hg
  · rename_i v isLoaded t heq
    rw [heq] at hg hwant
    split
    · exact hg
    · have hadd := (Kept.refl t).addConnection v connect callerTokenId env.addDeathRecipient
      refine (hg.kept hadd).connectTarget ?_ _ _ _
      rw [keepsIndex_of_identity (hadd.identity v)]
      exact hwant v isLoaded rfl

protected lemma dispatchInactive
    (hw : s.keepsIndex r (updateConnectWant (s.records r)).want = true) :
    Keyed (s.dispatchInactive r) := by
  have hi := (Kept.refl s).setAbilityState r .inactive
  have hc := Kept.modifyRecord (f := fun x => { x with startId := x.startId + 1 }) hi r rfl
  unfold dispatchInactive commandAbility
  dsimp only
  split
  · exact h
  split
  · exact h.kept hi
  split
  · exact h.kept hc
  · refine .setWant (h.kept hc) (updateConnectWant ((modifyRecord _ r _).records r)).want ?_
    rw [keepsIndex_of_identity (hc.identity r)]
    simpa [setAbilityState, modifyRecord, updateConnectWant] using hw

protected lemma stopServiceAbilityLocked (hf : s.findFits request true = true) :
    Keyed (s.stopServiceAbilityLocked request) := by
  unfold stopServiceAbilityLocked
  split
  · rename_i heq
    exact h.findServiceRecord hf heq
  · rename_i v t heq
    exact sheds.terminateRecord ((h.findServiceRecord hf heq).kept
      ((Kept.refl t).handleTerminateDisconnectTask v)) v

protected lemma preloadUIExtensionAbility (hk : Known s)
    (hf : (!request.abilityInfo.extensionAbilityType.isUIExtension ||
      s.newExtensionFits request) = true) :
    Keyed (s.preloadUIExtensionAbility request) := by
  unfold preloadUIExtensionAbility
  split_ifs with hui
  · rw [hui] at hf
    rw [createExtensionRecord, addExtensionRecord_createRecord]
    exact h.newExtensionRecord hk hf rfl rfl
  · exact h

protected lemma step (hk : Known s) {op : Op} (hf : s.keysFit op = true) : Keyed (s.step op) := by
  unfold keysFit at hf
  cases hc : s.completion op with
  | some p =>
    rw [hc] at hf
    obtain ⟨hbefore, hafter⟩ := completion_some hc
    exact ((h.kept hbefore).completeStartServiceReq (hk.kept hbefore) hf).kept hafter
  | none =>
    cases op with
    | startAbility request env => exact h.startAbilityLocked hk hf
    | preloadUIExtensionAbility request => exact h.preloadUIExtensionAbility hk hf
    | connectAbility request connect callerTokenId connectInfo env =>
      exact h.connectAbilityLocked hk connect callerTokenId hf
    | stopServiceAbility request => exact h.stopServiceAbilityLocked hf
    | dispatchInactive r => exact h.dispatchInactive hf
    | startServiceTimeout abilityUri =>
      simp only [step, startServiceTimeout]
      split <;> exact h.of_maps rfl rfl rfl
    | _ => exact closed.step h hc rfl

end

end Keyed

lemma keyed_init (config : ConnectConfig) (devCapacity procCapacity : UInt32) :
    Keyed (init config devCapacity procCapacity) := by
  refine ⟨fun key r hr => absurd hr (by simp [init]), fun r _ => rfl, fun r hr => ?_⟩
  exact absurd (known_init config devCapacity procCapacity r hr) (Nat.not_lt_zero r)

structure KeysServe (s : AbilityConnectManager) : Prop where
  stored : ∀ key r, s.serviceMap.find? key = some r → key = (s.records r).terminatingKey
  terminated : ∀ r, (s.inServiceMap r || s.inAbilityCache r) = true →
    TakesOut s (s.moveToTerminatingMap r) r
  cached : ∀ r, s.inServiceMap r = true → (s.records r).abilityInfo.isSceneBoard = false →
    TakesOut s (s.terminateOrCacheAbility r) r

theorem run_keysServe (config : ConnectConfig) (devCapacity procCapacity : UInt32)
    (ops : List Op) (h : Runs.Guarded step (fun s op => s.keysFit op = true)
      (init config devCapacity procCapacity) ops) :
    KeysServe (ops.foldl step (init config devCapacity procCapacity)) := by
  have hkeyed := (h.invariant (I := fun s => Keyed s ∧ Known s)
    (fun _ op hs hf => ⟨hs.1.step hs.2 hf, hs.2.step op⟩)
    ⟨keyed_init _ _ _, known_init _ _ _⟩).1
  refine ⟨fun key r hr => (hkeyed.key key r hr).symm, fun r hr => ?_,
    fun r hr hscene => hkeyed.takesOut_terminateOrCacheAbility hr hscene⟩
  exact hkeyed.takesOut_moveToTerminatingMap ((Bool.or_eq_true_iff.mp hr).elim
    finds_of_inServiceMap fun hc => .inr (.inl (List.contains_iff_mem.mp hc)))

def cachingConfig : ConnectConfig := ⟨[.service], fun _ => -1, 0⟩

def otherInfo : AbilityInfo := { serviceInfo with name := "OtherAbility" }

def otherRequest : ServiceRequest :=
  { serviceRequest with
    want.element := otherInfo.element otherInfo.bundleName
    abilityInfo := otherInfo }

def connectedOnce (request : ServiceRequest) (r : ServiceRef) : List Op :=
  [.connectAbility request r 100 false {}, .attachAbilityThread r, .dispatchInactive r,
    .scheduleConnectAbilityDone r true fun _ => {}, .disconnectAbility r 100,
    .scheduleDisconnectAbilityDone r false]

def cachedOps : List Op :=
  connectedOnce serviceRequest 0 ++ connectedOnce otherRequest 1 ++
    [.startAbility otherRequest {}, .startAbility serviceRequest {}]

theorem cached_keysServe : (cachedOps.foldl step (init cachingConfig 1 1)).serviceMap.entries =
      [("/com.example.service/entry/OtherAbility", 1),
        ("/com.example.service/entry/ServiceAbility", 2)] ∧
    KeysServe (cachedOps.foldl step (init cachingConfig 1 1)) :=
  ⟨by decide +kernel, run_keysServe cachingConfig 1 1 cachedOps (by decide +kernel)⟩

def sandboxInfo : AbilityInfo :=
  ⟨"", "com.example.work", "entry", "WorkAbility", .extension, .workScheduler, "workScheduler"⟩

def sandboxRequest : ServiceRequest :=
  { serviceRequest with
    want.element := sandboxInfo.element sandboxInfo.bundleName
    want.dlpIndex := 1001
    abilityInfo := sandboxInfo }

theorem sandbox_not_keysServe : (([.startAbility sandboxRequest {}] : List Op).foldl step
      (init sampleConfig 1 1)).serviceMap.entries = [("/com.example.work/entry/WorkAbility", 0)] ∧
    ((([.startAbility sandboxRequest {}] : List Op).foldl step
      (init sampleConfig 1 1)).records 0).terminatingKey =
        "/1001com.example.work/entry/WorkAbility" ∧
    (([.startAbility sandboxRequest {}, .terminateAbility 0] : List Op).foldl step
      (init sampleConfig 1 1)).serviceMap.entries = [("/com.example.work/entry/WorkAbility", 0)] ∧
    ¬ KeysServe (([.startAbility sandboxRequest {}] : List Op).foldl step
      (init sampleConfig 1 1)) := by
  refine ⟨by decide +kernel, by decide +kernel, by decide +kernel, fun h => ?_⟩
  have hkey := h.stored "/com.example.work/entry/WorkAbility" 0 (by decide +kernel)
  exact absurd hkey (by decide +kernel)

end AbilityConnectManager
end AbilityRuntime
