import AbilityRuntime.UriPerm.GrantTable

/-! `VerifyUriPermission` with its fallback to ancestor directories, and what a new grant does to
its answers. -/

namespace AbilityRuntime.UriPerm
open List SortedMap

def findStr (pattern : List Char) : List Char → Option Nat
  | [] => if pattern.isEmpty then some 0 else none
  | c :: s => if pattern.isPrefixOf (c :: s) then some 0 else (findStr pattern s).map (· + 1)

def cloundDocsUriMark : String := "?networkid="

def isDistributedSubDirUri (inputUri cachedUri : String) : Bool :=
  match findStr cloundDocsUriMark.toList inputUri.toList,
    findStr cloundDocsUriMark.toList cachedUri.toList with
  | some iPos, some cPos =>
    let iTempUri := inputUri.toList.take iPos
    let cTempUri := cachedUri.toList.take cPos
    findStr (cTempUri ++ ['/']) iTempUri = some 0
  | _, _ => false

def requestedFlag (flag : UInt32) : UInt32 := if flag &&& flagWriteUri ≠ 0 then flagWriteUri
  else flagReadUri

def covers (granted newFlag : UInt32) : Bool := (granted ||| flagReadUri) &&& newFlag != 0

def hasRecord (list : List GrantInfo) (newFlag : UInt32) (tokenId : TokenId) : Bool :=
  list.any fun it => it.targetTokenId = tokenId && covers it.flag newFlag

/-- The reverse loop of `VerifySubDirUriPermission`: the first ancestor met decides. -/
def scanSubDir (uriStr : String) (newFlag : UInt32) (tokenId : TokenId) :
    List (String × List GrantInfo) → Bool
  | [] => false
  | search :: rest =>
    if !isDistributedSubDirUri uriStr search.1 then scanSubDir uriStr newFlag tokenId rest
    else hasRecord search.2 newFlag tokenId

def verifySubDirUriPermission (m : UriMap) (uriStr : String) (newFlag : UInt32)
    (tokenId : TokenId) : Bool :=
  if findStr cloundDocsUriMark.toList uriStr.toList = none then false
  else scanSubDir uriStr newFlag tokenId m.entries.reverse

variable (isSAOrSystemAppCall : Bool)

def verifyUriPermission (m : UriMap) (uri : String) (flag : UInt32) (tokenId : TokenId) : Bool :=
  if !isSAOrSystemAppCall then false
  else if flag &&& flagReadWriteUri = 0 then false
  else
    match m.find? uri with
    | some list => hasRecord list (requestedFlag flag) tokenId
    | none => verifySubDirUriPermission m uri (requestedFlag flag) tokenId

lemma scanSubDir_eq (uriStr : String) (newFlag : UInt32) (tokenId : TokenId)
    (l : List (String × List GrantInfo)) :
    scanSubDir uriStr newFlag tokenId l = true ↔
      ∃ p, l.find? (fun q => isDistributedSubDirUri uriStr q.1) = some p ∧
        hasRecord p.2 newFlag tokenId = true := by
  induction l with
  | nil => simp [scanSubDir]
  | cons q l ih =>
    rw [scanSubDir, find?_cons]
    cases isDistributedSubDirUri uriStr q.1 with
    | true => simp
    | false => simpa using ih

lemma verifySubDir_iff (m : UriMap) (uriStr : String) (newFlag : UInt32) (tokenId : TokenId) :
    verifySubDirUriPermission m uriStr newFlag tokenId = true ↔
      ∃ p, m.entries.reverse.find? (fun q => isDistributedSubDirUri uriStr q.1) = some p ∧
        hasRecord p.2 newFlag tokenId = true := by
  rw [← scanSubDir_eq, verifySubDirUriPermission]
  split_ifs with hmark
  · -- a uri without the mark is below no key
    have hnone : m.entries.reverse.find? (fun q => isDistributedSubDirUri uriStr q.1) = none :=
      List.find?_eq_none.mpr fun q _ => by simp [isDistributedSubDirUri, hmark]
    simp [scanSubDir_eq, hnone]
  · rfl

lemma or_and_eq (a b c : UInt32) : (a ||| b) &&& c = a &&& c ||| b &&& c :=
  UInt32.eq_of_toBitVec_eq BitVec.and_or_distrib_right

@[simp] lemma covers_read (granted : UInt32) : covers granted flagReadUri = true := by
  rw [covers, or_and_eq, bne_iff_ne, ne_eq, UInt32.or_eq_zero_iff]
  exact fun h => absurd h.2 (by decide)

lemma covers_write (granted : UInt32) :
    covers granted flagWriteUri = true ↔ granted &&& flagWriteUri ≠ 0 := by
  have hr : flagReadUri &&& flagWriteUri = 0 := by decide
  rw [covers, or_and_eq, bne_iff_ne, hr, UInt32.or_zero]

lemma requestedFlag_cases (flag : UInt32) :
    flag &&& flagWriteUri ≠ 0 ∧ requestedFlag flag = flagWriteUri ∨
      flag &&& flagWriteUri = 0 ∧ requestedFlag flag = flagReadUri := by
  by_cases h : flag &&& flagWriteUri = 0
  · exact .inr ⟨h, if_neg (not_not.mpr h)⟩
  · exact .inl ⟨h, if_pos h⟩

theorem covers_requestedFlag (granted flag : UInt32) : covers granted (requestedFlag flag) = true ↔
      (flag &&& flagWriteUri ≠ 0 → granted &&& flagWriteUri ≠ 0) := by
  rcases requestedFlag_cases flag with ⟨h, hf⟩ | ⟨h, hf⟩
  · rw [hf, covers_write]
    exact ⟨fun hg _ => hg, fun hg => hg h⟩
  · rw [hf, covers_read]
    exact ⟨fun _ hn => absurd h hn, fun _ => rfl⟩

namespace GrantInfo

@[simp] lemma targetTokenId_addAbilityId (g : GrantInfo) (a : AbilityId) :
    (g.addAbilityId a).targetTokenId = g.targetTokenId := by
  unfold addAbilityId
  split_ifs <;> rfl

@[simp] lemma flag_addAbilityId (g : GrantInfo) (a : AbilityId) :
    (g.addAbilityId a).flag = g.flag := by
  unfold addAbilityId
  split_ifs <;> rfl

@[simp] lemma targetTokenId_regrant (g : GrantInfo) (flag : UInt32) (a : AbilityId) :
    (g.regrant flag a).targetTokenId = g.targetTokenId :=
  congrArg Prod.snd (g.key_regrant flag a)

lemma write_regrant {g : GrantInfo} (flag : UInt32) (a : AbilityId)
    (h : g.flag &&& flagWriteUri ≠ 0) : (g.regrant flag a).flag &&& flagWriteUri ≠ 0 := by
  simp only [regrant, flag_addAbilityId]
  rw [if_neg fun hc => h hc.1]
  split_ifs <;> simpa using h

end GrantInfo

lemma covers_regrant {g : GrantInfo} {flag : UInt32} (flag' : UInt32) (a : AbilityId)
    (h : covers g.flag (requestedFlag flag) = true) :
    covers (g.regrant flag' a).flag (requestedFlag flag) = true := by
  rw [covers_requestedFlag] at h ⊢
  exact fun hw => GrantInfo.write_regrant flag' a (h hw)

variable {list : List GrantInfo}

lemma mem_addToList_of_mem {g : GrantInfo} (flag : UInt32) (fromTokenId targetTokenId : TokenId)
    (abilityId : AbilityId) (hg : g ∈ list) :
    g ∈ addToList flag fromTokenId targetTokenId abilityId list ∨
      g.between fromTokenId targetTokenId ∧
        g.regrant flag abilityId ∈ addToList flag fromTokenId targetTokenId abilityId list := by
  induction list with
  | nil => cases hg
  | cons item list ih =>
    rw [addToList]
    rcases mem_cons.mp hg with rfl | hg
    · split_ifs with hb
      · exact .inr ⟨hb, mem_cons_self⟩
      · exact .inl mem_cons_self
    · split_ifs
      · exact .inl (mem_cons_of_mem _ hg)
      · exact (ih hg).imp (mem_cons_of_mem _) fun h => ⟨h.1, mem_cons_of_mem _ h.2⟩

variable {tokenId : TokenId}

lemma hasRecord_iff {newFlag : UInt32} : hasRecord list newFlag tokenId = true ↔
      ∃ g ∈ list, g.targetTokenId = tokenId ∧ covers g.flag newFlag = true := by
  simp [hasRecord]

lemma hasRecord_addToList {query : UInt32}
    (h : hasRecord list (requestedFlag query) tokenId = true) (flag : UInt32)
    (fromTokenId targetTokenId : TokenId) (abilityId : AbilityId) :
    hasRecord (addToList flag fromTokenId targetTokenId abilityId list)
    (requestedFlag query) tokenId = true := by
  rw [hasRecord_iff] at h ⊢
  obtain ⟨g, hg, ht, hc⟩ := h
  rcases mem_addToList_of_mem flag fromTokenId targetTokenId abilityId hg with hm | ⟨-, hm⟩
  · exact ⟨g, hm, ht, hc⟩
  · exact ⟨_, hm, by simpa using ht, covers_regrant flag abilityId hc⟩

lemma hasRecord_newGrant (flag newFlag : UInt32) (fromTokenId targetTokenId tokenId : TokenId)
    (abilityId : AbilityId) :
    hasRecord [newGrant flag fromTokenId targetTokenId abilityId] newFlag tokenId = true ↔
      targetTokenId = tokenId ∧ covers flag newFlag = true := by
  simp [hasRecord, newGrant]

lemma find?_reverse_modify (uri query : String) (f : List GrantInfo → List GrantInfo) (m : UriMap) :
    (m.modify uri f).entries.reverse.find? (fun q => isDistributedSubDirUri query q.1) =
      (m.entries.reverse.find? fun q => isDistributedSubDirUri query q.1).map
        fun p => if p.1 = uri then (p.1, f p.2) else p := by
  have hentries : (m.modify uri f).entries =
      m.entries.map fun p => if p.1 = uri then (p.1, f p.2) else p := rfl
  have hkey : (fun q : String × List GrantInfo => isDistributedSubDirUri query q.1) ∘
      (fun p => if p.1 = uri then (p.1, f p.2) else p) = fun q =>
      isDistributedSubDirUri query q.1 := by
    funext p
    by_cases hp : p.1 = uri <;> simp [hp]
  rw [hentries, ← map_reverse, find?_map, hkey]

variable {m : UriMap} {query : String}

lemma verifySubDir_modify {flag : UInt32}
    (h : verifySubDirUriPermission m query (requestedFlag flag) tokenId = true) (uri : String)
    (f : List GrantInfo → List GrantInfo)
    (hf : ∀ list, hasRecord list (requestedFlag flag) tokenId = true →
      hasRecord (f list) (requestedFlag flag) tokenId = true) :
    verifySubDirUriPermission (m.modify uri f) query (requestedFlag flag) tokenId = true := by
  rw [verifySubDir_iff] at h ⊢
  obtain ⟨p, hp, hr⟩ := h
  refine ⟨if p.1 = uri then (p.1, f p.2) else p, by rw [find?_reverse_modify, hp]; rfl, ?_⟩
  split_ifs
  · exact hf _ hr
  · exact hr

def decidesSubDir (m : UriMap) (query uri : String) : Prop :=
  isDistributedSubDirUri query uri = true ∧
    ∀ p ∈ m.entries, isDistributedSubDirUri query p.1 = true → p.1 < uri

lemma find?_reverse_emplace_new {uri : String} (hu : m.find? uri = none)
    (h : decidesSubDir m query uri) :
    (m.emplace uri list).entries.reverse.find? (fun q => isDistributedSubDirUri query q.1) =
      some (uri, list) := by
  rw [KeyList.reverse_find?_eq_some (m.emplace uri list).sorted]
  refine ⟨?_, h.1, fun q hq hsub => ?_⟩
  · rw [mem_entries, find?_emplace, if_pos rfl, hu]
    rfl
  · rcases KeyList.mem_emplace hq with rfl | hq
    · exact le_rfl
    · exact (h.2 q hq hsub).le

lemma find?_reverse_emplace_old {uri : String} {p : String × List GrantInfo}
    (hu : m.find? uri = none) (h : ¬ decidesSubDir m query uri)
    (hp : m.entries.reverse.find? (fun q => isDistributedSubDirUri query q.1) = some p) :
    (m.emplace uri list).entries.reverse.find? (fun q => isDistributedSubDirUri query q.1) =
    some p := by
  rw [KeyList.reverse_find?_eq_some m.sorted] at hp
  obtain ⟨hpm, hsub, hmax⟩ := hp
  have hne : uri ≠ p.1 := fun he => find?_eq_none.mp hu p hpm he.symm
  rw [KeyList.reverse_find?_eq_some (m.emplace uri list).sorted]
  refine ⟨?_, hsub, fun q hq hq' => ?_⟩
  · rw [mem_entries, find?_emplace, if_neg hne]
    exact mem_entries.mp hpm
  · rcases KeyList.mem_emplace hq with rfl | hq
    · -- an ancestor beyond `p` would lie beyond every other ancestor too
      by_contra hlt
      exact h ⟨hq', fun r hr hr' => (hmax r hr hr').trans_lt (not_le.mp hlt)⟩
    · exact hmax q hq hq'

def shadows (m : UriMap) (uri : String) (flag : UInt32) (targetTokenId : TokenId)
    (query : String) (queryFlag : UInt32) (tokenId : TokenId) : Prop :=
  m.find? uri = none ∧ m.find? query = none ∧ (uri = query ∨ decidesSubDir m query uri) ∧
    ¬ (targetTokenId = tokenId ∧ covers flag (requestedFlag queryFlag) = true)

lemma verifySubDir_emplace {uri : String} {flag queryFlag : UInt32}
    {fromTokenId targetTokenId : TokenId} {abilityId : AbilityId} (hu : m.find? uri = none)
    (h : verifySubDirUriPermission m query (requestedFlag queryFlag) tokenId = true) :
    verifySubDirUriPermission (m.emplace uri [newGrant flag fromTokenId targetTokenId abilityId])
        query (requestedFlag queryFlag) tokenId = true ↔
      (decidesSubDir m query uri →
        targetTokenId = tokenId ∧ covers flag (requestedFlag queryFlag) = true) := by
  rw [verifySubDir_iff] at h ⊢
  obtain ⟨p, hp, hr⟩ := h
  by_cases hd : decidesSubDir m query uri
  · rw [find?_reverse_emplace_new hu hd]
    simp [hasRecord_newGrant, hd]
  · rw [find?_reverse_emplace_old hu hd hp]
    simp [hr, hd]

variable (m)

theorem verifyUriPermission_addTemp_iff (uri : String) (flag : UInt32)
    (fromTokenId targetTokenId : TokenId) (abilityId : AbilityId) (query : String)
    (queryFlag : UInt32) (tokenId : TokenId)
    (h : verifyUriPermission isSAOrSystemAppCall m query queryFlag tokenId = true) :
    verifyUriPermission isSAOrSystemAppCall
        (addTempUriPermission m uri flag fromTokenId targetTokenId abilityId) query queryFlag
        tokenId = true ↔
      ¬ shadows m uri flag targetTokenId query queryFlag tokenId := by
  unfold verifyUriPermission at h ⊢
  split_ifs at h ⊢
  unfold shadows addTempUriPermission
  cases hq : m.find? query with
  | some list =>
    rw [hq] at h
    cases hu : m.find? uri with
    | none =>
      have hne : uri ≠ query := by
        rintro rfl
        rw [hq] at hu
        cases hu
      simp only [find?_emplace, if_neg hne, hq]
      simpa using h
    | some list' =>
      simp only [find?_modify, hq]
      by_cases he : uri = query
      · simpa [he] using hasRecord_addToList h flag fromTokenId targetTokenId abilityId
      · simpa [he] using h
  | none =>
    rw [hq] at h
    cases hu : m.find? uri with
    | some list' =>
      simp only [find?_modify, hq]
      simpa using verifySubDir_modify h uri _ fun list hl =>
        hasRecord_addToList hl flag fromTokenId targetTokenId abilityId
    | none =>
      simp only [find?_emplace, hu, hq, true_and]
      by_cases he : uri = query
      · simp [he, hasRecord_newGrant]
      · simp [he, false_or, verifySubDir_emplace hu h]

def directoryGranted : List TableOp :=
  [.addTempUriPermission "file://docs/a?networkid=n" flagReadUri 1 20 defaultAbilityId]

theorem verifyUriPermission_addTemp_sibling :
    verifyUriPermission true (runTable directoryGranted) "file://docs/a/b?networkid=n"
    flagReadUri 20 = true ∧
      verifyUriPermission true
        (addTempUriPermission (runTable directoryGranted) "file://docs/c?networkid=n"
          flagReadUri 1 30 5)
        "file://docs/a/b?networkid=n" flagReadUri 20 = true := by
  have hb : verifyUriPermission true (runTable directoryGranted) "file://docs/a/b?networkid=n"
      flagReadUri 20 = true := by decide
  refine ⟨hb, (verifyUriPermission_addTemp_iff true _ _ _ 1 30 5 _ _ 20 hb).mpr ?_⟩
  rintro ⟨-, -, he | hd, -⟩
  · exact absurd he (by decide)
  · exact absurd hd.1 (by decide)

theorem grants_not_monotone :
    ¬ ∀ (isSAOrSystemAppCall : Bool) (ops : List TableOp) (uri : String) (flag : UInt32)
      (fromTokenId targetTokenId : TokenId) (abilityId : AbilityId) (query : String)
      (queryFlag : UInt32)
      (tokenId : TokenId),
      verifyUriPermission isSAOrSystemAppCall (runTable ops) query queryFlag tokenId = true →
        verifyUriPermission isSAOrSystemAppCall
          (addTempUriPermission (runTable ops) uri flag fromTokenId targetTokenId abilityId)
          query queryFlag tokenId = true := by
  intro h
  have hlost := h true directoryGranted "file://docs/a/b?networkid=n" flagReadUri 1 30 5
    "file://docs/a/b?networkid=n" flagReadUri 20 (by decide)
  exact absurd hlost (by decide)

def IsAncestorOnDevice (uri key : String) : Prop :=
  ∃ iPos cPos rest, findStr cloundDocsUriMark.toList uri.toList = some iPos ∧
    findStr cloundDocsUriMark.toList key.toList = some cPos ∧
    uri.toList.take iPos = key.toList.take cPos ++ '/' :: rest ∧
    uri.toList.drop iPos = key.toList.drop cPos

def Granted (uri : String) (flag : UInt32) (tokenId : TokenId) : Prop :=
  ∃ key, (key = uri ∨ IsAncestorOnDevice uri key) ∧ ∃ g ∈ records m key,
    g.targetTokenId = tokenId ∧ (flag &&& flagWriteUri ≠ 0 → g.flag &&& flagWriteUri ≠ 0)

def networkPart (uri : String) : Option (List Char) :=
  (findStr cloundDocsUriMark.toList uri.toList).map uri.toList.drop

/-- The fallback answers by a key of another device, and no grant of the same device covers what
is asked. -/
def Misled (uri : String) (flag : UInt32) (tokenId : TokenId) : Prop :=
  m.find? uri = none ∧
    (∃ p, m.entries.reverse.find? (fun q => isDistributedSubDirUri uri q.1) = some p ∧
      hasRecord p.2 (requestedFlag flag) tokenId = true) ∧
    ∀ q ∈ m.entries, isDistributedSubDirUri uri q.1 = true →
      hasRecord q.2 (requestedFlag flag) tokenId = true → networkPart uri ≠ networkPart q.1

lemma findStr_eq_zero {pattern s : List Char} : findStr pattern s = some 0 ↔ pattern <+: s := by
  cases s with
  | nil => simp [findStr]
  | cons c s =>
    rw [findStr, ← isPrefixOf_iff_prefix]
    split_ifs with hp <;> simp [hp]

lemma isAncestorOnDevice_iff (uri key : String) : IsAncestorOnDevice uri key ↔
    isDistributedSubDirUri uri key = true ∧ networkPart uri = networkPart key := by
  unfold IsAncestorOnDevice isDistributedSubDirUri networkPart
  cases hi : findStr cloundDocsUriMark.toList uri.toList with
  | none => simp
  | some iPos =>
    cases hc : findStr cloundDocsUriMark.toList key.toList with
    | none => simp
    | some cPos =>
      simp only [Option.some.injEq, decide_eq_true_eq, findStr_eq_zero, Option.map_some]
      constructor
      · rintro ⟨_, _, rest, rfl, rfl, htake, hdrop⟩
        exact ⟨⟨rest, by simp [htake]⟩, hdrop⟩
      · rintro ⟨⟨rest, hrest⟩, hdrop⟩
        exact ⟨_, _, rest, rfl, rfl, by simp [← hrest], hdrop⟩

lemma granted_iff (uri : String) (flag : UInt32) (tokenId : TokenId) :
    Granted m uri flag tokenId ↔ ∃ q ∈ m.entries, (q.1 = uri ∨ IsAncestorOnDevice uri q.1) ∧
      hasRecord q.2 (requestedFlag flag) tokenId = true := by
  simp only [Granted, hasRecord_iff, covers_requestedFlag]
  constructor
  · rintro ⟨key, hkey, g, hg, hcovered⟩
    cases hf : m.find? key with
    | none => simp [records, hf] at hg
    | some list => exact ⟨(key, list), mem_entries.mpr hf, hkey, g, by simpa [records, hf] using hg,
        hcovered⟩
  · rintro ⟨q, hq, hkey, g, hg, hcovered⟩
    exact ⟨q.1, hkey, g, by simpa [records, mem_entries.mp hq] using hg, hcovered⟩

theorem verifyUriPermission_sound_iff (uri : String) (flag : UInt32) (tokenId : TokenId) :
    (verifyUriPermission isSAOrSystemAppCall m uri flag tokenId = true →
        Granted m uri flag tokenId) ↔
      ¬ (isSAOrSystemAppCall = true ∧ flag &&& flagReadWriteUri ≠ 0 ∧
        Misled m uri flag tokenId) := by
  rw [granted_iff]
  unfold verifyUriPermission Misled
  cases isSAOrSystemAppCall with
  | false => simp
  | true =>
    by_cases hflag : flag &&& flagReadWriteUri = 0
    · simp [hflag]
    cases hf : m.find? uri with
    | some list =>
      simp only [hflag, Bool.not_true, Bool.false_eq_true, if_false, reduceCtorEq, false_and,
        and_false, not_false_eq_true, iff_true]
      exact fun hr => ⟨(uri, list), mem_entries.mpr hf, .inl rfl, hr⟩
    | none =>
      have hgranted : (∃ q ∈ m.entries, (q.1 = uri ∨ IsAncestorOnDevice uri q.1) ∧
          hasRecord q.2 (requestedFlag flag) tokenId = true) ↔
          ¬ ∀ q ∈ m.entries, isDistributedSubDirUri uri q.1 = true →
            hasRecord q.2 (requestedFlag flag) tokenId = true →
            networkPart uri ≠ networkPart q.1 := by
        push Not
        refine exists_congr fun q => and_congr_right fun hq => ?_
        rw [isAncestorOnDevice_iff, or_iff_right (find?_eq_none.mp hf q hq)]
        tauto
      rw [hgranted]
      simp only [hflag, Bool.not_true, Bool.false_eq_true, if_false, verifySubDir_iff, true_and,
        ne_eq, not_false_eq_true, not_and]

theorem otherDevice_verified :
    ¬ ∀ (ops : List TableOp) (uri : String) (flag : UInt32) (tokenId : TokenId),
      verifyUriPermission true (runTable ops) uri flag tokenId = true →
        Granted (runTable ops) uri flag tokenId := by
  intro h
  obtain ⟨key, hkey, g, hg, -⟩ :=
    h directoryGranted "file://docs/a/b?networkid=other" flagReadUri 20 (by decide)
  have hrecords := records_addTempUriPermission SortedMap.empty "file://docs/a?networkid=n" key
    flagReadUri 1 20 defaultAbilityId
  change records (runTable directoryGranted) key = _ at hrecords
  rw [hrecords] at hg
  split_ifs at hg with hone
  · subst hone
    rcases hkey with he | ⟨iPos, cPos, rest, hi, hc, -, hdrop⟩
    · exact absurd he (by decide)
    · cases hi
      cases hc
      exact absurd hdrop (by decide)
  · cases hg

section

variable (initiatorTokenId targetTokenId : TokenId) (recordId : AbilityId) (m : UriMap)
  (uriArray : List (Option (String × Bool)))

/-- The calls of `GrantUriPermission` in `SendSandboxSavefileResult`, where `flag` is a `bool`. An
element that gives no string is passed over; the others come with whether their call gets to
`AddTempUriPermission`. -/
def savefileGrants : List ((String × Bool) × UInt32) :=
  let flag : Bool := flagWriteUri ≠ 0
  uriArray.reduceOption.map (·, flag.toUInt32)

def sendSandboxSavefileResult : UriMap :=
  (savefileGrants uriArray).foldl (fun m ((uri, granted), flag) =>
    if granted then
      addTempUriPermission m uri (flag &&& flagReadWriteUri) initiatorTokenId targetTokenId recordId
    else m) m

variable {initiatorTokenId targetTokenId recordId}

lemma hasRecord_addToList_read {list : List GrantInfo} :
    hasRecord (addToList flagReadUri initiatorTokenId targetTokenId recordId list) flagWriteUri
      targetTokenId = hasRecord list flagWriteUri targetTokenId := by
  induction list with
  | nil =>
    have hcovers : covers flagReadUri flagWriteUri = false := rfl
    simp [hasRecord, addToList, newGrant, hcovers]
  | cons item list ih =>
    rw [addToList]
    split_ifs
    · have hread : flagReadUri &&& flagWriteUri = 0 := rfl
      have hflag : (item.regrant flagReadUri recordId).flag = item.flag := by
        simp only [GrantInfo.regrant, hread, ne_eq, not_true_eq_false, and_false, if_false]
        split_ifs <;> simp
      simp [hasRecord, hflag]
    · simpa [hasRecord] using congrArg _ ih

theorem savefileResult_iff :
    (savefileGrants uriArray = uriArray.reduceOption.map (·, flagWriteUri) ↔
      uriArray.reduceOption = []) ∧
    ((∀ p ∈ uriArray.reduceOption, hasRecord (records (sendSandboxSavefileResult
        initiatorTokenId targetTokenId recordId m uriArray) p.1) flagWriteUri targetTokenId) ↔
      ∀ p ∈ uriArray.reduceOption, hasRecord (records m p.1) flagWriteUri targetTokenId) := by
  unfold sendSandboxSavefileResult savefileGrants
  generalize uriArray.reduceOption = uris
  refine ⟨?_, forall₂_congr fun p _ => ?_⟩
  · have hne : (decide (flagWriteUri ≠ 0)).toUInt32 ≠ flagWriteUri := by decide
    cases uris
    · simp
    · simp only [map_cons, cons.injEq, Prod.mk.injEq, hne, and_false, false_and, reduceCtorEq]
  · clear * -
    induction uris generalizing m with
    | nil => rfl
    | cons u uris ih =>
      refine (ih _).trans ?_
      dsimp only
      split_ifs
      · rw [records_addTempUriPermission]
        split_ifs with hu
        · rw [← hu]
          exact Bool.eq_iff_iff.mp hasRecord_addToList_read
        · rfl
      · rfl

theorem savedFile_not_writable :
    savefileGrants [some ("file://docs/a", true)] = [(("file://docs/a", true), flagReadUri)] ∧
    hasRecord (records (sendSandboxSavefileResult 1 2 7 SortedMap.empty
      [some ("file://docs/a", true)]) "file://docs/a") flagWriteUri 2 = false := by
  decide +kernel

end

end AbilityRuntime.UriPerm
