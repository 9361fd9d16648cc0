import AbilityRuntime.UriPerm.Revoke

/-! The permission table together with the files that the storage manager shares, one for each
target and uri. -/

namespace AbilityRuntime.UriPerm
open Runs List SortedMap GrantInfo

inductive Ret where
  | ok
  | innerErr
  | checkPermissionFailed
  | invalidUriType
  | storage (code : Int32)

structure Caller where
  tokenId : TokenId
  isSAOrSystemAppCall : Bool
  isFoundationCall : Bool

structure Host where
  getScheme : String → String
  getAuthority : String → String
  getTokenIdByBundleName : String → Int32 → Option TokenId

structure Manager where
  uriMap : UriMap
  shareFiles : Finset (TokenId × String)

def Manager.init : Manager := ⟨SortedMap.empty, ∅⟩

def eexist : Int32 := 17

def createShareFile (files : Finset (TokenId × String)) (uriVec : List String) (tokenId : TokenId) :
    Finset (TokenId × String) × List Int32 :=
  (files ∪ (uriVec.map fun uri => (tokenId, uri)).toFinset,
    uriVec.map fun uri => if (tokenId, uri) ∈ files then -eexist else 0)

def deleteShareFile (files : Finset (TokenId × String)) (tokenId : TokenId) (uriVec : List String) :
    Finset (TokenId × String) :=
  files.filter fun p => ¬ (p.1 = tokenId ∧ p.2 ∈ uriVec)

def failed (res : Int32) : Bool := res != 0 && res != -eexist

def grantUriPermissionImpl (s : Manager) (uri : String) (flag : UInt32)
    (callerTokenId targetTokenId : TokenId) (abilityId : AbilityId) : Ret × Manager :=
  let (files, resVec) := createShareFile s.shareFiles [uri] targetTokenId
  match resVec with
  | [] => (.innerErr, { s with shareFiles := files })
  | res :: _ =>
    if failed res then (.innerErr, { s with shareFiles := files })
    else (.ok,
      { uriMap := addTempUriPermission s.uriMap uri flag callerTokenId targetTokenId abilityId
        shareFiles := files })

/-- The loop of `GrantBatchUriPermissionImpl` over the uris and their results, with
`successCount`. -/
def addBatch (flag : UInt32) (callerTokenId targetTokenId : TokenId) (abilityId : AbilityId)
    (acc : UriMap × Nat) (p : String × Int32) : UriMap × Nat :=
  if failed p.2 then acc
  else (addTempUriPermission acc.1 p.1 flag callerTokenId targetTokenId abilityId, acc.2 + 1)

def grantBatchUriPermissionImpl (s : Manager) (uriVec : List String) (flag : UInt32)
    (callerTokenId targetTokenId : TokenId) (abilityId : AbilityId) : Ret × Manager :=
  let (files, resVec) := createShareFile s.shareFiles uriVec targetTokenId
  match resVec with
  | [] => (.innerErr, { s with shareFiles := files })
  | res :: _ =>
    if resVec.length ≠ uriVec.length then (.storage res, { s with shareFiles := files })
    else
      let (m, successCount) :=
        (uriVec.zip resVec).foldl (addBatch flag callerTokenId targetTokenId abilityId)
          (s.uriMap, 0)
      (if successCount = 0 then .innerErr else .ok, { uriMap := m, shareFiles := files })

variable (host : Host) (caller : Caller)

def revokeUriPermission (s : Manager) (tokenId : TokenId) (abilityId : AbilityId) : Manager :=
  if !caller.isFoundationCall then s
  else
    let (m, uriList) := removeUriRecord s.uriMap tokenId abilityId
    { uriMap := m
      shareFiles := if uriList.isEmpty then s.shareFiles
        else deleteShareFile s.shareFiles tokenId uriList }

/-- The pairs of `uriLists` are deleted target by target; every deletion succeeds. -/
def revokeAllUriPermissions (s : Manager) (tokenId : TokenId) : Ret × Manager :=
  if !caller.isFoundationCall then (.checkPermissionFailed, s)
  else
    let (m, uriLists) := removeAllRecords
      (fun uri => host.getTokenIdByBundleName (host.getAuthority uri) 0) s.uriMap tokenId
    (.ok, { uriMap := m
            shareFiles := uriLists.foldl (fun files p => deleteShareFile files p.1 [p.2])
              s.shareFiles })

def checkUriTypeIsValid (uri : String) : Bool :=
  host.getScheme uri = "file" || host.getScheme uri = "content"

def isRevokeSelfUri (uri : String) (targetTokenId : TokenId) : Bool :=
  caller.tokenId = targetTokenId ||
    caller.tokenId = (host.getTokenIdByBundleName (host.getAuthority uri) 0).getD 0

def revokeUriPermissionManually (s : Manager)
    (uri bundleName : String) (appIndex : Int32) : Ret × Manager :=
  if !caller.isSAOrSystemAppCall then (.checkPermissionFailed, s)
  else if !checkUriTypeIsValid host uri then (.invalidUriType, s)
  else
    match host.getTokenIdByBundleName bundleName appIndex with
    | none => (.innerErr, s)
    | some targetTokenId =>
      let (m, uriList) := removeManually s.uriMap uri caller.tokenId targetTokenId
        (isRevokeSelfUri host caller uri targetTokenId)
      (.ok, { uriMap := m, shareFiles := deleteShareFile s.shareFiles targetTokenId uriList })

inductive Op where
  | grantUriPermissionImpl (uri : String) (flag : UInt32) (callerTokenId targetTokenId : TokenId)
      (abilityId : AbilityId)
  | grantBatchUriPermissionImpl (uriVec : List String) (flag : UInt32)
      (callerTokenId targetTokenId : TokenId) (abilityId : AbilityId)
  | revokeUriPermission (caller : Caller) (tokenId : TokenId) (abilityId : AbilityId)
  | revokeAllUriPermissions (host : Host) (caller : Caller) (tokenId : TokenId)
  | revokeUriPermissionManually (host : Host) (caller : Caller) (uri bundleName : String)
      (appIndex : Int32)

def Op.apply (s : Manager) : Op → Manager
  | .grantUriPermissionImpl uri flag callerTokenId targetTokenId abilityId =>
    (UriPerm.grantUriPermissionImpl s uri flag callerTokenId targetTokenId abilityId).2
  | .grantBatchUriPermissionImpl uriVec flag callerTokenId targetTokenId abilityId =>
    (UriPerm.grantBatchUriPermissionImpl s uriVec flag callerTokenId targetTokenId abilityId).2
  | .revokeUriPermission caller tokenId abilityId =>
      UriPerm.revokeUriPermission caller s tokenId abilityId
  | .revokeAllUriPermissions host caller tokenId =>
      (UriPerm.revokeAllUriPermissions host caller s tokenId).2
  | .revokeUriPermissionManually host caller uri bundleName appIndex =>
    (UriPerm.revokeUriPermissionManually host caller s uri bundleName appIndex).2

def runManager (ops : List Op) : Manager := ops.foldl Op.apply Manager.init

def TableAgrees (m : UriMap) (files : Finset (TokenId × String)) : Prop :=
  ∀ uri, ∀ g ∈ records m uri, (g.targetTokenId, uri) ∈ files

def Agrees (s : Manager) : Prop := TableAgrees s.uriMap s.shareFiles

variable {callerTokenId targetTokenId : TokenId} {abilityId : AbilityId} {list : List GrantInfo}
  {uri : String} {flag : UInt32}

lemma target_mem_addToList {g : GrantInfo} {fromTokenId : TokenId}
    (hg : g ∈ addToList flag fromTokenId targetTokenId abilityId list) :
    g.targetTokenId = targetTokenId ∨ ∃ g₀ ∈ list, g₀.targetTokenId = g.targetTokenId := by
  have hk : g.key ∈ (addToList flag fromTokenId targetTokenId abilityId list).map key :=
    mem_map_of_mem hg
  rw [keys_addToList] at hk
  have hor : g.key = (fromTokenId, targetTokenId) ∨ g.key ∈ list.map key := by
    split_ifs at hk
    · exact .inr hk
    · exact (mem_append.mp hk).symm.imp mem_singleton.mp id
  rcases hor with he | hm
  · exact .inl (congrArg Prod.snd he)
  · obtain ⟨g₀, hg₀, he⟩ := mem_map.mp hm
    exact .inr ⟨g₀, hg₀, congrArg Prod.snd he⟩

variable {m : UriMap} {files : Finset (TokenId × String)}

lemma tableAgrees_addTemp (h : TableAgrees m files) (hf : (targetTokenId, uri) ∈ files) :
    TableAgrees (addTempUriPermission m uri flag callerTokenId targetTokenId abilityId) files := by
  intro uri' g hg
  rw [records_addTempUriPermission] at hg
  split_ifs at hg with hu
  · subst hu
    rcases target_mem_addToList hg with ht | ⟨g₀, hg₀, ht⟩
    · rwa [ht]
    · rw [← ht]
      exact h uri g₀ hg₀
  · exact h uri' g hg

variable {tokenId : TokenId} {p : TokenId × String}

lemma mem_createShareFile {uriVec : List String} :
    p ∈ (createShareFile files uriVec tokenId).1 ↔ p ∈ files ∨ p.1 = tokenId ∧ p.2 ∈ uriVec := by
  simp only [createShareFile, Finset.mem_union, mem_toFinset, mem_map]
  refine or_congr_right ⟨?_, fun ⟨ht, hu⟩ => ⟨p.2, hu, Prod.ext ht.symm rfl⟩⟩
  rintro ⟨uri, hu, rfl⟩
  exact ⟨rfl, hu⟩

lemma tableAgrees_createShareFile (h : TableAgrees m files) (uriVec : List String) :
    TableAgrees m (createShareFile files uriVec tokenId).1 := fun uri g hg =>
  mem_createShareFile.mpr (.inl (h uri g hg))

variable {s : Manager}

lemma agrees_grantUriPermissionImpl (h : Agrees s) :
    Agrees (grantUriPermissionImpl s uri flag callerTokenId targetTokenId abilityId).2 := by
  have hfiles : TableAgrees s.uriMap (createShareFile s.shareFiles [uri] targetTokenId).1 :=
    tableAgrees_createShareFile h [uri]
  have hmem : (targetTokenId, uri) ∈ (createShareFile s.shareFiles [uri] targetTokenId).1 :=
    mem_createShareFile.mpr (.inr ⟨rfl, mem_singleton.mpr rfl⟩)
  unfold grantUriPermissionImpl
  dsimp only
  split
  · exact hfiles
  · split_ifs
    · exact hfiles
    · exact tableAgrees_addTemp hfiles hmem

lemma tableAgrees_addBatch (ps : List (String × Int32))
    (hps : ∀ p ∈ ps, (targetTokenId, p.1) ∈ files) (acc : UriMap × Nat)
    (h : TableAgrees acc.1 files) :
    TableAgrees (ps.foldl (addBatch flag callerTokenId targetTokenId abilityId) acc).1 files := by
  induction ps generalizing acc with
  | nil => exact h
  | cons p ps ih =>
    apply ih (fun q hq => hps q (mem_cons_of_mem _ hq))
    unfold addBatch
    split_ifs
    · exact h
    · exact tableAgrees_addTemp h (hps p mem_cons_self)

lemma agrees_grantBatchUriPermissionImpl (h : Agrees s) (uriVec : List String) :
    Agrees (grantBatchUriPermissionImpl s uriVec flag callerTokenId targetTokenId abilityId).2 := by
  have hfiles : TableAgrees s.uriMap (createShareFile s.shareFiles uriVec targetTokenId).1 :=
    tableAgrees_createShareFile h uriVec
  unfold grantBatchUriPermissionImpl
  dsimp only
  split
  · exact hfiles
  · split
    · exact hfiles
    · -- every uri that the loop adds has just been shared
      refine tableAgrees_addBatch _ (fun p hp => ?_) _ hfiles
      exact mem_createShareFile.mpr (.inr ⟨rfl, (of_mem_zip hp).1⟩)

/-- The loop of `RemoveUriRecord` erases a record when the first automatically removed
holder has no other ability, and then only that one. -/
def firstHolder (tokenId : TokenId) (abilityId : AbilityId) (list : List GrantInfo) :
    Option GrantInfo :=
  list.find? fun g => g.targetTokenId = tokenId && (abilityId ∈ g.abilityIds && g.autoRemove)

lemma removeFromList_erased_iff : (removeFromList tokenId abilityId list).2 = true ↔
      ∃ g, firstHolder tokenId abilityId list = some g ∧ g.abilityIds.erase abilityId = ∅ := by
  induction list with
  | nil => simp [removeFromList, firstHolder]
  | cons it list ih =>
    unfold firstHolder at ih ⊢
    rw [find?_cons]
    by_cases ht : it.targetTokenId = tokenId
    · by_cases ha : abilityId ∈ it.abilityIds
      · cases hr : it.autoRemove with
        | false => simpa [removeFromList, ht, hr, removeAbilityId] using ih
        | true =>
          by_cases he : it.abilityIds.erase abilityId = ∅ <;>
            simp [removeFromList, ht, ha, hr, he, removeAbilityId, isEmptyAbilityId]
      · simpa [removeFromList, ha, removeAbilityId] using ih
    · simpa [removeFromList, ht] using ih

lemma countP_removeFromList :
    (removeFromList tokenId abilityId list).1.countP (fun g => g.targetTokenId = tokenId) +
        (if (removeFromList tokenId abilityId list).2 then 1 else 0) =
      list.countP fun g => g.targetTokenId = tokenId := by
  induction list with
  | nil => simp [removeFromList]
  | cons it list ih =>
    rw [countP_cons, ← ih]
    simp only [removeFromList]
    split_ifs <;> simp_all [removeAbilityId]

lemma last_iff {list' : List GrantInfo} {erased : Bool}
    (hcount : list'.countP (fun g => g.targetTokenId = tokenId) + (if erased then 1 else 0) =
      list.countP fun g => g.targetTokenId = tokenId) (he : erased = true) :
    (∀ g ∈ list', g.targetTokenId ≠ tokenId) ↔
      list.countP (fun g => g.targetTokenId = tokenId) = 1 := by
  rw [he, if_pos rfl] at hcount
  rw [← hcount, Nat.add_eq_right, countP_eq_zero]
  simp

variable {self : Bool}

lemma eraseFirst_erased_iff : (eraseFirst callerTokenId targetTokenId self list).2 = true ↔
      ∃ g ∈ list, g.targetTokenId = targetTokenId ∧ (callerTokenId = g.fromTokenId ∨ self) := by
  induction list with
  | nil => simp [eraseFirst]
  | cons it list ih =>
    rw [eraseFirst, exists_mem_cons_iff]
    split_ifs with hit
    · exact iff_of_true rfl (.inl hit)
    · simpa [hit] using ih

lemma countP_eraseFirst :
    (eraseFirst callerTokenId targetTokenId self list).1.countP
        (fun g => g.targetTokenId = targetTokenId) +
        (if (eraseFirst callerTokenId targetTokenId self list).2 then 1 else 0) =
      list.countP fun g => g.targetTokenId = targetTokenId := by
  induction list with
  | nil => simp [eraseFirst]
  | cons it list ih =>
    rw [countP_cons, ← ih, eraseFirst]
    split_ifs with hit <;> simp_all

lemma mem_deleteShareFile {uriVec : List String} :
    p ∈ deleteShareFile files tokenId uriVec ↔ p ∈ files ∧ ¬ (p.1 = tokenId ∧ p.2 ∈ uriVec) := by
  simp [deleteShareFile]

lemma mem_deleteAll {pairs : List (TokenId × String)} :
    p ∈ pairs.foldl (fun files p => deleteShareFile files p.1 [p.2]) files ↔
    p ∈ files ∧ p ∉ pairs := by
  induction pairs generalizing files with
  | nil => simp
  | cons q pairs ih => simp [ih, mem_deleteShareFile, and_assoc, Prod.ext_iff]

lemma tableAgrees_shrink_iff {m' : UriMap} {files' : Finset (TokenId × String)}
    {D : TokenId × String → Prop} (h : TableAgrees m files)
    (hold : ∀ uri, ∀ g' ∈ records m' uri, ∃ g ∈ records m uri, g.targetTokenId = g'.targetTokenId)
    (hfiles : ∀ p, p ∈ files' ↔ p ∈ files ∧ ¬ D p) :
    TableAgrees m' files' ↔ ∀ uri, ∀ g ∈ records m' uri, ¬ D (g.targetTokenId, uri) := by
  refine forall_congr' fun uri => forall₂_congr fun g' hg' => ?_
  obtain ⟨g, hg, ht⟩ := hold uri g' hg'
  have hmem := h uri g hg
  rw [ht] at hmem
  rw [hfiles, and_iff_right hmem]

lemma mem_removeUriRecord_uriList : uri ∈ (removeUriRecord m tokenId abilityId).2 ↔
      (removeFromList tokenId abilityId (records m uri)).2 = true := by
  simp only [removeUriRecord, mem_map, mem_filter, records]
  constructor
  · rintro ⟨p, ⟨hp, he⟩, rfl⟩
    rw [mem_entries.mp hp]
    exact he
  · intro he
    cases hf : m.find? uri with
    | none => simp [hf, removeFromList] at he
    | some list => exact ⟨(uri, list), ⟨mem_entries.mpr hf, by simpa [hf] using he⟩, rfl⟩

def keepsShared (s : Manager) : Op → Prop
  | .revokeUriPermission caller tokenId abilityId => caller.isFoundationCall = true →
    ∀ uri g, firstHolder tokenId abilityId (records s.uriMap uri) = some g →
      g.abilityIds.erase abilityId = ∅ →
      (records s.uriMap uri).countP (fun g => g.targetTokenId = tokenId) = 1
  | .revokeAllUriPermissions host caller tokenId => caller.isFoundationCall = true →
    ∀ uri, host.getTokenIdByBundleName (host.getAuthority uri) 0 ≠ some tokenId →
      ∀ g ∈ records s.uriMap uri, touches tokenId g = true →
        ∀ g' ∈ records s.uriMap uri, g'.targetTokenId = g.targetTokenId → touches tokenId g' = true
  | .revokeUriPermissionManually host caller uri bundleName appIndex =>
    caller.isSAOrSystemAppCall = true → checkUriTypeIsValid host uri = true →
    ∀ targetTokenId, host.getTokenIdByBundleName bundleName appIndex = some targetTokenId →
      (∃ g ∈ records s.uriMap uri, g.targetTokenId = targetTokenId ∧
        (caller.tokenId = g.fromTokenId ∨ isRevokeSelfUri host caller uri targetTokenId)) →
      (records s.uriMap uri).countP (fun g => g.targetTokenId = targetTokenId) = 1
  | _ => True

lemma agrees_revokeUriPermission_iff (h : Agrees s) :
    Agrees (revokeUriPermission caller s tokenId abilityId) ↔
      keepsShared s (.revokeUriPermission caller tokenId abilityId) := by
  simp only [revokeUriPermission, keepsShared]
  cases caller.isFoundationCall with
  | false => simpa using h
  | true =>
    simp only [true_imp_iff]
    have hfiles (p : TokenId × String) :
        p ∈ (if (removeUriRecord s.uriMap tokenId abilityId).2.isEmpty then s.shareFiles
          else deleteShareFile s.shareFiles tokenId
            (removeUriRecord s.uriMap tokenId abilityId).2) ↔
        p ∈ s.shareFiles ∧ ¬ (p.1 = tokenId ∧
          p.2 ∈ (removeUriRecord s.uriMap tokenId abilityId).2) := by
      split_ifs with he
      · simp [isEmpty_iff.mp he]
      · exact mem_deleteShareFile
    have hold (uri : String) (g' : GrantInfo)
        (hg' : g' ∈ records (removeUriRecord s.uriMap tokenId abilityId).1 uri) :
        ∃ g ∈ records s.uriMap uri, g.targetTokenId = g'.targetTokenId := by
      rw [records_removeUriRecord] at hg'
      obtain ⟨g, hg, rfl | ⟨rfl, -⟩⟩ := mem_removeFromList hg'
      · exact ⟨g', hg, rfl⟩
      · exact ⟨g, hg, rfl⟩
    refine (tableAgrees_shrink_iff h hold hfiles).trans (forall_congr' fun uri => ?_)
    simp only [mem_removeUriRecord_uriList, records_removeUriRecord]
    constructor
    · intro hn g hg hempty
      have he := removeFromList_erased_iff.mpr ⟨g, hg, hempty⟩
      exact (last_iff countP_removeFromList he).mp fun g' hg' ht => hn g' hg' ⟨ht, he⟩
    · rintro hone g' hg' ⟨ht, he⟩
      obtain ⟨g, hg, hempty⟩ := removeFromList_erased_iff.mp he
      exact (last_iff countP_removeFromList he).mpr (hone g hg hempty) g' hg' ht

lemma mem_removeAllRecords_uriLists {auth : String → Option TokenId} :
    p ∈ (removeAllRecords auth m tokenId).2 ↔
      ∃ g ∈ records m p.2, g.targetTokenId = p.1 ∧
      (auth p.2 = some tokenId ∨ touches tokenId g = true) := by
  simp only [removeAllRecords, mem_flatMap, mem_map, mem_filter, records]
  constructor
  · rintro ⟨q, hq, g, ⟨hg, hor⟩, rfl⟩
    rw [mem_entries.mp hq]
    exact ⟨g, hg, rfl, by simpa using hor⟩
  · rintro ⟨g, hg, ht, hor⟩
    cases hf : m.find? p.2 with
    | none => simp [hf] at hg
    | some list =>
      rw [hf] at hg
      exact ⟨(p.2, list), mem_entries.mpr hf, g, ⟨hg, by simpa using hor⟩, Prod.ext ht rfl⟩

lemma agrees_revokeAllUriPermissions_iff (h : Agrees s) :
    Agrees (revokeAllUriPermissions host caller s tokenId).2 ↔
      keepsShared s (.revokeAllUriPermissions host caller tokenId) := by
  simp only [revokeAllUriPermissions, keepsShared]
  cases caller.isFoundationCall with
  | false => simpa using h
  | true =>
    simp only [true_imp_iff]
    set auth := fun uri => host.getTokenIdByBundleName (host.getAuthority uri) 0 with hauth
    have hrec (uri : String) (g' : GrantInfo) :
        g' ∈ records (removeAllRecords auth s.uriMap tokenId).1 uri ↔
          auth uri ≠ some tokenId ∧ g' ∈ records s.uriMap uri ∧ touches tokenId g' = false := by
      rw [records_removeAllRecords]
      split_ifs with ha <;> simp [ha]
    have hold (uri : String) (g' : GrantInfo)
        (hg' : g' ∈ records (removeAllRecords auth s.uriMap tokenId).1 uri) :
        ∃ g ∈ records s.uriMap uri, g.targetTokenId = g'.targetTokenId :=
      ⟨g', ((hrec uri g').mp hg').2.1, rfl⟩
    refine (tableAgrees_shrink_iff h hold fun p => mem_deleteAll).trans
      (forall_congr' fun uri => ?_)
    simp only [mem_removeAllRecords_uriLists, hrec]
    constructor
    · intro hn ha g hg ht g' hg' hsame
      by_contra hkeep
      exact hn g' ⟨ha, hg', by simpa using hkeep⟩ ⟨g, hg, hsame.symm, .inr ht⟩
    · rintro hall g' ⟨ha, hg', hkeep⟩ ⟨g, hg, hsame, hor⟩
      have ht := hall ha g hg (hor.resolve_left ha) g' hg' hsame.symm
      rw [hkeep] at ht
      cases ht

lemma mem_removeManually_uriList {uri' : String} :
    uri' ∈ (removeManually m uri callerTokenId targetTokenId self).2 ↔
      uri' = uri ∧ (eraseFirst callerTokenId targetTokenId self (records m uri)).2 = true := by
  unfold removeManually records
  cases m.find? uri with
  | none => simp [eraseFirst]
  | some list =>
    simp only [Option.getD_some]
    split_ifs with he <;> simp [he]

lemma agrees_revokeUriPermissionManually_iff (h : Agrees s) (bundleName : String)
    (appIndex : Int32) :
    Agrees (revokeUriPermissionManually host caller s uri bundleName appIndex).2 ↔
      keepsShared s (.revokeUriPermissionManually host caller uri bundleName appIndex) := by
  simp only [revokeUriPermissionManually, keepsShared]
  cases caller.isSAOrSystemAppCall with
  | false => simpa using h
  | true =>
  cases checkUriTypeIsValid host uri with
  | false => simpa using h
  | true =>
  cases host.getTokenIdByBundleName bundleName appIndex with
  | none => simpa using h
  | some targetTokenId =>
    simp only [true_imp_iff, Option.some.injEq, forall_eq']
    set self := isRevokeSelfUri host caller uri targetTokenId
    have hold (uri' : String) (g' : GrantInfo)
        (hg' : g' ∈ records (removeManually s.uriMap uri caller.tokenId targetTokenId self).1
          uri') :
        ∃ g ∈ records s.uriMap uri', g.targetTokenId = g'.targetTokenId := by
      rw [records_removeManually] at hg'
      split_ifs at hg' with hu
      · exact ⟨g', hu ▸ (eraseFirst_sublist _ _ _ _).subset hg', rfl⟩
      · exact ⟨g', hg', rfl⟩
    refine (tableAgrees_shrink_iff h hold fun p => mem_deleteShareFile).trans ?_
    simp only [mem_removeManually_uriList]
    rw [← eraseFirst_erased_iff]
    constructor
    · intro hn he
      refine (last_iff countP_eraseFirst he).mp fun g' hg' ht => hn uri g' ?_ ⟨ht, rfl, he⟩
      rwa [records_removeManually, if_pos rfl]
    · rintro hone uri' g' hg' ⟨ht, rfl, he⟩
      rw [records_removeManually, if_pos rfl] at hg'
      exact (last_iff countP_eraseFirst he).mpr (hone he) g' hg' ht

theorem agrees_apply_iff (h : Agrees s) (op : Op) : Agrees (op.apply s) ↔ keepsShared s op := by
  cases op with
  | grantUriPermissionImpl uri flag callerTokenId targetTokenId abilityId =>
    exact iff_of_true (agrees_grantUriPermissionImpl h) trivial
  | grantBatchUriPermissionImpl uriVec flag callerTokenId targetTokenId abilityId =>
    exact iff_of_true (agrees_grantBatchUriPermissionImpl h uriVec) trivial
  | revokeUriPermission caller tokenId abilityId => exact agrees_revokeUriPermission_iff caller h
  | revokeAllUriPermissions host caller tokenId =>
    exact agrees_revokeAllUriPermissions_iff host caller h
  | revokeUriPermissionManually host caller uri bundleName appIndex =>
    exact agrees_revokeUriPermissionManually_iff host caller h ..

theorem runManager_agrees (ops : List Op) (h : Guarded Op.apply keepsShared Manager.init ops) :
    ∀ uri, ∀ g ∈ records (runManager ops).uriMap uri, (g.targetTokenId, uri) ∈
    (runManager ops).shareFiles :=
  h.invariant (fun _ op hs hok => (agrees_apply_iff hs op).mpr hok) fun _ _ hg => nomatch hg

def oneBundleHost : Host := ⟨fun _ => "file", fun _ => "docs", fun _ _ => some 20⟩

def foundation : Caller := ⟨1, true, true⟩

def grantTwoRevokeOne : List Op :=
  [.grantUriPermissionImpl "file://docs/a" flagReadUri 10 20 5,
    .grantUriPermissionImpl "file://docs/b" flagReadUri 10 20 5,
    .revokeUriPermissionManually oneBundleHost ⟨20, true, false⟩ "file://docs/a" "bundle" 0]

theorem grantTwoRevokeOne_shared : (20, "file://docs/b") ∈
    (runManager grantTwoRevokeOne).shareFiles := by
  refine runManager_agrees grantTwoRevokeOne ⟨trivial, trivial, ?_, trivial⟩ "file://docs/b"
    (newGrant flagReadUri 10 20 5) (by decide)
  intro _ _ targetTokenId ht _
  obtain rfl : 20 = targetTokenId := Option.some.inj ht
  decide

theorem runManager_disagrees :
    ¬ ∀ (ops : List Op) (uri : String), ∀ g ∈ records (runManager ops).uriMap uri,
      (g.targetTokenId, uri) ∈ (runManager ops).shareFiles := by
  intro h
  have hshared := h [.grantUriPermissionImpl "file://docs/a" flagReadUri 10 20 5,
    .grantUriPermissionImpl "file://docs/a" flagReadUri 11 20 5,
    .revokeUriPermission foundation 20 5] "file://docs/a" (newGrant flagReadUri 11 20 5) (by decide)
  exact absurd hshared (by decide)

/-- The records the caller has a right to revoke: all of the target if it is the target or owns
the uri, else those that it granted. -/
def revocable (uri : String) (targetTokenId : TokenId) (g : GrantInfo) : Bool :=
  g.targetTokenId = targetTokenId && (caller.tokenId = targetTokenId ||
    host.getTokenIdByBundleName (host.getAuthority uri) 0 = some caller.tokenId ||
    caller.tokenId = g.fromTokenId)

lemma eraseFirst_eq_filter_iff {f : GrantInfo → Bool}
    (hf : ∀ g, f g = true ↔
      g.targetTokenId = targetTokenId ∧ (callerTokenId = g.fromTokenId ∨ self)) :
    (eraseFirst callerTokenId targetTokenId self list).1 = list.filter (fun g => !f g) ↔
      list.countP f ≤ 1 := by
  induction list with
  | nil => simp [eraseFirst]
  | cons it list ih =>
    rw [eraseFirst]
    by_cases hit : f it = true
    · rw [if_pos ((hf it).mp hit), filter_cons_of_neg (by simp [hit]),
        countP_cons_of_pos hit, eq_comm, filter_eq_self, Nat.succ_le_succ_iff,
        Nat.le_zero, countP_eq_zero]
      simp
    · rw [if_neg (mt (hf it).mpr hit), filter_cons_of_pos (by simpa using hit),
        countP_cons_of_neg hit, cons_inj_right, ih]

lemma revocable_iff {host : Host} {caller : Caller} (hknown : caller.tokenId ≠ 0 ∨
      host.getTokenIdByBundleName (host.getAuthority uri) 0 ≠ none) (g : GrantInfo) :
    revocable host caller uri targetTokenId g = true ↔ g.targetTokenId = targetTokenId ∧
      (caller.tokenId = g.fromTokenId ∨ isRevokeSelfUri host caller uri targetTokenId) := by
  unfold revocable isRevokeSelfUri
  cases howner : host.getTokenIdByBundleName (host.getAuthority uri) 0 with
  | none =>
    have hzero : caller.tokenId ≠ 0 := hknown.resolve_right (not_not.mpr howner)
    simp [hzero, or_comm]
  | some owner => simp [or_comm, eq_comm (a := owner)]

theorem revokeUriPermissionManually_exact_iff (s : Manager) (uri bundleName : String)
    (appIndex : Int32) (targetTokenId : TokenId) (hsystem : caller.isSAOrSystemAppCall = true)
    (huri : checkUriTypeIsValid host uri = true)
    (hbundle : host.getTokenIdByBundleName bundleName appIndex = some targetTokenId)
    (hknown : caller.tokenId ≠ 0 ∨ host.getTokenIdByBundleName (host.getAuthority uri) 0 ≠ none) :
    ((∀ uri', records (revokeUriPermissionManually host caller s uri bundleName appIndex).2.uriMap
        uri' =
        if uri = uri' then
          (records s.uriMap uri).filter fun g => !revocable host caller uri targetTokenId g
        else records s.uriMap uri') ↔
      (records s.uriMap uri).countP (revocable host caller uri targetTokenId) ≤ 1) ∧
    (UniqueGrants s.uriMap → caller.tokenId ≠ targetTokenId →
      host.getTokenIdByBundleName (host.getAuthority uri) 0 ≠ some caller.tokenId →
      (records s.uriMap uri).countP (revocable host caller uri targetTokenId) ≤ 1) := by
  constructor
  · rw [← eraseFirst_eq_filter_iff (revocable_iff hknown)]
    simp only [revokeUriPermissionManually, hsystem, huri, hbundle, Bool.not_true,
      Bool.false_eq_true, if_false, records_removeManually]
    refine ⟨fun h => by simpa using h uri, fun h uri' => ?_⟩
    split_ifs
    · exact h
    · rfl
  · intro hunique htarget howner
    have hkey (g : GrantInfo) (hg : revocable host caller uri targetTokenId g = true) :
        g.key = (caller.tokenId, targetTokenId) := by
      obtain ⟨ht, hor⟩ : g.targetTokenId = targetTokenId ∧ caller.tokenId = g.fromTokenId := by
        simpa [revocable, htarget, howner] using hg
      exact Prod.ext hor.symm ht
    calc (records s.uriMap uri).countP (revocable host caller uri targetTokenId)
        ≤ (records s.uriMap uri).countP fun g => g.key == (caller.tokenId, targetTokenId) :=
          countP_mono_left fun g _ hg => beq_iff_eq.mpr (hkey g hg)
      _ = ((records s.uriMap uri).map key).count (caller.tokenId, targetTokenId) := by
          rw [count, countP_map]
          rfl
      _ ≤ 1 := nodup_iff_count_le_one.mp (hunique uri) _

theorem grantTwoRevokeOne_exact : records (runManager grantTwoRevokeOne).uriMap "file://docs/a" =
    [] :=
  (revokeUriPermissionManually_exact_iff oneBundleHost ⟨20, true, false⟩
    (runManager (grantTwoRevokeOne.take 2)) "file://docs/a" "bundle" 0 20 rfl (by decide) rfl
    (.inl (by decide))).1.mpr (by decide) "file://docs/a"

theorem revokeManually_keeps_second :
    ¬ ∀ (ops : List Op) (host : Host) (caller : Caller) (uri bundleName : String)
      (appIndex : Int32),
      caller.isSAOrSystemAppCall = true → checkUriTypeIsValid host uri = true →
      host.getTokenIdByBundleName bundleName appIndex = some caller.tokenId →
      ∀ g ∈ records (revokeUriPermissionManually host caller (runManager ops) uri bundleName
        appIndex).2.uriMap uri, g.targetTokenId ≠ caller.tokenId := by
  intro h
  refine h [.grantUriPermissionImpl "file://docs/a" flagReadUri 10 20 5,
    .grantUriPermissionImpl "file://docs/a" flagReadUri 11 20 5] oneBundleHost ⟨20, true, false⟩
    "file://docs/a" "bundle" 0 rfl (by decide) rfl (newGrant flagReadUri 11 20 5) ?_ rfl
  decide

section
local instance : LinearOrder TokenId :=
  LinearOrder.lift' UInt32.toNat fun _ _ => UInt32.toNat_inj.mp

variable (uriLists : SortedMap TokenId (List String))

def pushUri (p : TokenId × String) :
    SortedMap TokenId (List String) := uriLists.update p.1 [] (· ++ [p.2])

def eraseTouched (tokenId : TokenId) (uri : String) :
    List GrantInfo → SortedMap TokenId (List String) →
      List GrantInfo × SortedMap TokenId (List String)
  | [], uriLists => ([], uriLists)
  | it :: list, uriLists =>
    if touches tokenId it then
      eraseTouched tokenId uri list (pushUri uriLists (it.targetTokenId, uri))
    else
      let (list, uriLists) := eraseTouched tokenId uri list uriLists
      (it :: list, uriLists)

def revokeLoop (authorityTokenId : String → Option TokenId) (tokenId : TokenId) :
    List (String × List GrantInfo) → SortedMap TokenId (List String) →
      List (String × List GrantInfo) × SortedMap TokenId (List String)
  | [], uriLists => ([], uriLists)
  | (uri, list) :: rest, uriLists =>
    if authorityTokenId uri = some tokenId then
      revokeLoop authorityTokenId tokenId rest
        (list.foldl (fun uriLists record => pushUri uriLists (record.targetTokenId, uri)) uriLists)
    else
      let (list, uriLists) := eraseTouched tokenId uri list uriLists
      let (rest, uriLists) := revokeLoop authorityTokenId tokenId rest uriLists
      (if list.isEmpty then rest else (uri, list) :: rest, uriLists)

/-- The calls of `DeleteShareFile`, of which the first that fails is the last. -/
def deleteCalls (deleteShareFile : TokenId → List String → Bool) :
    List (TokenId × List String) → Ret × List (TokenId × List String)
  | [] => (.ok, [])
  | iter :: rest =>
    if !deleteShareFile iter.1 iter.2 then (.innerErr, [iter])
    else
      let (ret, calls) := deleteCalls deleteShareFile rest
      (ret, iter :: calls)

/-- `RevokeAllUriPermissions` for a call that is permitted: the table it leaves, what it returns
and the calls it makes. -/
def revokeAllCalls (authorityTokenId : String → Option TokenId)
    (deleteShareFile : TokenId → List String → Bool) (m : UriMap) (tokenId : TokenId) :
    List (String × List GrantInfo) × Ret × List (TokenId × List String) :=
  let (table, uriLists) := revokeLoop authorityTokenId tokenId m.entries SortedMap.empty
  (table, deleteCalls deleteShareFile uriLists.entries)

variable (l : List (String × List GrantInfo))

def flat : List (String × GrantInfo) :=
  l.flatMap fun p => p.2.map fun g => (p.1, g)

def pairs (l : List (TokenId × List String)) : List (TokenId × String) :=
  l.flatMap fun p => p.2.map fun uri => (p.1, uri)

lemma eraseTouched_eq (uri : String) (uriLists : SortedMap TokenId (List String)) :
    eraseTouched tokenId uri list uriLists = (list.filter fun g => !touches tokenId g,
      ((list.filter (touches tokenId)).map fun g => (g.targetTokenId, uri)).foldl pushUri
        uriLists) := by
  induction list generalizing uriLists with
  | nil => rfl
  | cons it list ih =>
    rw [eraseTouched]
    cases ht : touches tokenId it with
    | true => simp [ht, ih]
    | false => simp [ht, ih]

variable {auth : String → Option TokenId}

lemma revokeLoop_eq : revokeLoop auth tokenId l uriLists =
      (KeyList.traverse (fun uri list => if auth uri = some tokenId then none
        else dropEmpty (list.filter fun g => !touches tokenId g)) l,
      (l.flatMap fun p => (p.2.filter fun g => auth p.1 = some tokenId || touches tokenId g).map
        fun g => (g.targetTokenId, p.1)).foldl pushUri uriLists) := by
  induction l generalizing uriLists with
  | nil => rfl
  | cons p l ih =>
    obtain ⟨uri, list⟩ := p
    rw [revokeLoop]
    by_cases ha : auth uri = some tokenId
    · simp [ha, ih, KeyList.traverse, foldl_map]
    · simp only [ha, if_false, eraseTouched_eq, ih, flatMap_cons, foldl_append,
        KeyList.traverse, filterMap_cons, dropEmpty]
      split_ifs <;> rfl

lemma pairs_perm (token : TokenId) :
    (pairs uriLists.entries).Perm (((uriLists.find? token).getD []).map (fun uri => (token, uri)) ++
      pairs (uriLists.erase token).entries) := by
  cases hf : uriLists.find? token with
  | none =>
    have herase : uriLists.erase token = uriLists := ext_find? fun token' => by
      rw [find?_erase]
      split_ifs with he
      · rw [← he, hf]
      · rfl
    rw [herase]
    exact .refl _
  | some l => exact (entries_perm_erase hf).flatMap_right _

lemma pairs_foldl_pushUri (ps : List (TokenId × String))
    (uriLists : SortedMap TokenId (List String)) :
    (pairs (ps.foldl pushUri uriLists).entries).Perm (ps ++ pairs uriLists.entries) := by
  induction ps generalizing uriLists with
  | nil => exact .refl _
  | cons p ps ih =>
    have herase : (pushUri uriLists p).erase p.1 = uriLists.erase p.1 :=
      ext_find? fun token => by
        rw [find?_erase, find?_erase, pushUri, find?_update]
        split_ifs <;> rfl
    have hpush := pairs_perm (pushUri uriLists p) p.1
    rw [herase, pushUri, find?_update, if_pos rfl, Option.getD_some, map_append,
      append_assoc] at hpush
    have hone := hpush.trans (perm_middle.trans ((pairs_perm uriLists p.1).symm.cons p))
    exact (ih _).trans ((hone.append_left ps).trans perm_middle)

lemma flat_traverse : flat (KeyList.traverse (fun uri list => if auth uri = some tokenId then none
        else dropEmpty (list.filter fun g => !touches tokenId g)) l) =
      (flat l).filter fun q => !(auth q.1 = some tokenId || touches tokenId q.2) := by
  induction l with
  | nil => rfl
  | cons p l ih =>
    have hcons : flat (p :: l) = p.2.map (fun g => (p.1, g)) ++ flat l := rfl
    rw [hcons, filter_append, ← ih, filter_map]
    unfold KeyList.traverse
    rw [filterMap_cons]
    by_cases ha : auth p.1 = some tokenId
    · simp [ha]
    · have hkeep : p.2.filter ((fun q => !(decide (auth q.1 = some tokenId) ||
          touches tokenId q.2)) ∘ fun g => (p.1, g)) =
          p.2.filter fun g => !touches tokenId g := by
        simp [Function.comp_def, ha]
      rw [hkeep]
      cases hk : p.2.filter fun g => !touches tokenId g with
      | nil => simp [dropEmpty, hk]
      | cons g gs => simp only [ha, hk]; rfl

lemma deleteCalls_of_success {deleteShareFile : TokenId → List String → Bool}
    {l : List (TokenId × List String)}
    (h : ∀ c ∈ (deleteCalls deleteShareFile l).2, deleteShareFile c.1 c.2 = true) :
    (deleteCalls deleteShareFile l).2 = l := by
  induction l with
  | nil => rfl
  | cons p l ih =>
    rw [deleteCalls] at h ⊢
    cases hp : deleteShareFile p.1 p.2 with
    | false => simp [hp] at h
    | true =>
      simp only [hp, Bool.not_true, Bool.false_eq_true, if_false] at h ⊢
      rw [ih fun c hc => h c (mem_cons_of_mem _ hc)]

theorem revokeAllCalls_exact (authorityTokenId : String → Option TokenId)
    (deleteShareFile : TokenId → List String → Bool) (m : UriMap) (tokenId : TokenId) :
    let out := revokeAllCalls authorityTokenId deleteShareFile m tokenId
    (∀ p ∈ out.1, authorityTokenId p.1 ≠ some tokenId ∧ p.2 ≠ [] ∧
      ∀ g ∈ p.2, g.targetTokenId ≠ tokenId ∧ g.fromTokenId ≠ tokenId) ∧
    flat out.1 = (flat m.entries).filter (fun q =>
      !(authorityTokenId q.1 = some tokenId || touches tokenId q.2)) ∧
    ((∀ c ∈ out.2.2, deleteShareFile c.1 c.2 = true) →
      (pairs out.2.2).Perm (((flat m.entries).filter fun q =>
        authorityTokenId q.1 = some tokenId || touches tokenId q.2).map
          fun q => (q.2.targetTokenId, q.1))) := by
  simp only [revokeAllCalls, revokeLoop_eq]
  refine ⟨fun p hp => ?_, flat_traverse m.entries, fun hall => ?_⟩
  · obtain ⟨q, -, hq⟩ := mem_filterMap.mp hp
    obtain ⟨list, hl, rfl⟩ := Option.map_eq_some_iff.mp hq
    simp only [dropEmpty] at hl
    split_ifs at hl with ha hempty
    cases hl
    refine ⟨ha, fun hnil => hempty (isEmpty_iff.mpr hnil), fun g hg => ?_⟩
    have hkeep := (mem_filter.mp hg).2
    simpa [touches] using hkeep
  · rw [deleteCalls_of_success hall]
    refine (pairs_foldl_pushUri _ _).trans (.of_eq ?_)
    have hnil : pairs empty.entries = [] := rfl
    rw [hnil, append_nil, flat, filter_flatMap, map_flatMap]
    refine flatMap_congr fun p _ => ?_
    rw [filter_map, map_map]
    rfl

end

end AbilityRuntime.UriPerm
