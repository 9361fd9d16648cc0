import AbilityRuntime.Library.SortedMap
import Mathlib.Data.String.Basic

/-! The table `uriMap_` of `UriPermissionManagerStubImpl` and the code that changes it under
`mutex_`. -/

namespace AbilityRuntime.UriPerm
open List SortedMap

abbrev TokenId := UInt32
abbrev AbilityId := Int32

def defaultAbilityId : AbilityId := -1
def flagReadUri : UInt32 := 1
def flagWriteUri : UInt32 := 2
def flagReadWriteUri : UInt32 := flagReadUri ||| flagWriteUri

structure GrantInfo where
  flag : UInt32
  fromTokenId : TokenId
  targetTokenId : TokenId
  autoRemove : Bool
  abilityIds : Finset AbilityId
deriving DecidableEq

namespace GrantInfo

variable (g : GrantInfo)

def addAbilityId (abilityId : AbilityId) : GrantInfo :=
  if abilityId ≠ defaultAbilityId then { g with abilityIds := insert abilityId g.abilityIds } else g

/-- The flag says whether the id was there, as `erase` counts what it removed. -/
def removeAbilityId (abilityId : AbilityId) : Bool × GrantInfo :=
  (decide (abilityId ∈ g.abilityIds), { g with abilityIds := g.abilityIds.erase abilityId })

def isEmptyAbilityId : Bool := decide (g.abilityIds = ∅)

def between (fromTokenId targetTokenId : TokenId) : Prop :=
  g.fromTokenId = fromTokenId ∧ g.targetTokenId = targetTokenId

instance (g : GrantInfo) (a b : TokenId) : Decidable (g.between a b) :=
  inferInstanceAs (Decidable (_ ∧ _))

/-- The body of the loop in `AddTempUriPermission` for the record that matches. -/
def regrant (item : GrantInfo) (flag : UInt32) (abilityId : AbilityId) : GrantInfo :=
  let autoRemove := decide (abilityId ≠ defaultAbilityId)
  let item := item.addAbilityId abilityId
  -- r-w
  if item.flag &&& flagWriteUri = 0 ∧ flag &&& flagWriteUri ≠ 0 then
    { item with autoRemove := autoRemove, flag := item.flag ||| flagWriteUri }
  -- w-r
  else if item.flag &&& flagWriteUri ≠ 0 ∧ flag &&& flagWriteUri = 0 then item
  -- other
  else if !autoRemove then { item with autoRemove := autoRemove }
  else item

end GrantInfo

open GrantInfo

abbrev UriMap := SortedMap String (List GrantInfo)

variable (flag : UInt32) (fromTokenId targetTokenId : TokenId) (m : UriMap) (tokenId : TokenId)
  (abilityId : AbilityId) (uri : String) (list : List GrantInfo)

def newGrant : GrantInfo :=
  addAbilityId
    { flag := flag, fromTokenId := fromTokenId, targetTokenId := targetTokenId
      autoRemove := decide (abilityId ≠ defaultAbilityId), abilityIds := ∅ } abilityId

def addToList (flag : UInt32) (fromTokenId targetTokenId : TokenId) (abilityId : AbilityId) :
    List GrantInfo → List GrantInfo
  | [] => [newGrant flag fromTokenId targetTokenId abilityId]
  | item :: infoList =>
    if item.between fromTokenId targetTokenId then item.regrant flag abilityId :: infoList
    else item :: addToList flag fromTokenId targetTokenId abilityId infoList

def addTempUriPermission (flag : UInt32)
    (fromTokenId targetTokenId : TokenId) (abilityId : AbilityId) : UriMap :=
  match m.find? uri with
  | none => m.emplace uri [newGrant flag fromTokenId targetTokenId abilityId]
  | some _ => m.modify uri (addToList flag fromTokenId targetTokenId abilityId)

/-- The inner loop of `RemoveUriRecord`: the list it leaves, and whether it erased a record. -/
def removeFromList (tokenId : TokenId) (abilityId : AbilityId) :
    List GrantInfo → List GrantInfo × Bool
  | [] => ([], false)
  | it :: list =>
    if it.targetTokenId ≠ tokenId then
      (it :: (removeFromList tokenId abilityId list).1, (removeFromList tokenId abilityId list).2)
    else
      let (removed, it') := it.removeAbilityId abilityId
      if !removed || !it'.autoRemove then
        (it' :: (removeFromList tokenId abilityId list).1,
          (removeFromList tokenId abilityId list).2)
      -- both remaining branches leave the loop
      else if !it'.isEmptyAbilityId then (it' :: list, false)
      else (list, true)

def dropEmpty : Option (List GrantInfo) :=
  if list.isEmpty then none else some list

def removeUriRecord : UriMap × List String :=
  (m.traverse fun _ list => dropEmpty (removeFromList tokenId abilityId list).1,
    (m.entries.filter fun p => (removeFromList tokenId abilityId p.2).2).map Prod.fst)

variable (g : GrantInfo)

def touches : Bool :=
  g.targetTokenId = tokenId || g.fromTokenId = tokenId

/-- The locked part of `RevokeAllUriPermissions`: the table it leaves and the
pairs put into `uriLists`. The bundle manager's answer for a uri's authority
is `none` when the lookup fails. -/
def removeAllRecords (authorityTokenId : String → Option TokenId) (m : UriMap) (tokenId : TokenId) :
    UriMap × List (TokenId × String) :=
  (m.traverse fun uri list =>
      if authorityTokenId uri = some tokenId then none
      else dropEmpty (list.filter fun g => !touches tokenId g), m.entries.flatMap fun p =>
      (p.2.filter fun g => authorityTokenId p.1 = some tokenId || touches tokenId g).map
        fun g => (g.targetTokenId, p.1))

/-- The loop of `RevokeUriPermissionManually`: the first record that the caller may revoke goes. -/
def eraseFirst (callerTokenId targetTokenId : TokenId) (isRevokeSelfUri : Bool) :
    List GrantInfo → List GrantInfo × Bool
  | [] => ([], false)
  | it :: list =>
    if it.targetTokenId = targetTokenId ∧ (callerTokenId = it.fromTokenId ∨ isRevokeSelfUri) then
      (list, true)
    else
      (it :: (eraseFirst callerTokenId targetTokenId isRevokeSelfUri list).1,
        (eraseFirst callerTokenId targetTokenId isRevokeSelfUri list).2)

/-- The locked part of `RevokeUriPermissionManually`: the table it leaves and `uriList`. -/
def removeManually (callerTokenId targetTokenId : TokenId)
    (isRevokeSelfUri : Bool) : UriMap × List String :=
  match m.find? uri with
  | none => (m, [])
  | some list =>
    let (list', erased) := eraseFirst callerTokenId targetTokenId isRevokeSelfUri list
    (if list'.isEmpty then m.erase uri else m.modify uri fun _ => list',
      if erased then [uri] else [])

def records : List GrantInfo := (m.find? uri).getD []

lemma records_addTempUriPermission (uri uri' : String) (flag : UInt32)
    (fromTokenId targetTokenId : TokenId) (abilityId : AbilityId) :
    records (addTempUriPermission m uri flag fromTokenId targetTokenId abilityId) uri' =
      if uri = uri' then addToList flag fromTokenId targetTokenId abilityId (records m uri)
      else records m uri' := by
  unfold addTempUriPermission records
  cases hf : m.find? uri with
  | none =>
    rw [find?_emplace]
    split_ifs
    · rw [hf]
      rfl
    · rfl
  | some list =>
    rw [find?_modify]
    split_ifs with hu
    · rw [← hu, hf]
      rfl
    · rfl

lemma getD_dropEmpty : (dropEmpty list).getD [] = list := by
  unfold dropEmpty
  split_ifs with h
  · exact (isEmpty_iff.mp h).symm
  · rfl

lemma records_removeUriRecord : records (removeUriRecord m tokenId abilityId).1 uri =
      (removeFromList tokenId abilityId (records m uri)).1 := by
  unfold removeUriRecord records
  rw [find?_traverse]
  cases m.find? uri with
  | none => rfl
  | some list => exact getD_dropEmpty _

lemma records_removeAllRecords (authorityTokenId : String → Option TokenId) (m : UriMap)
    (tokenId : TokenId) (uri : String) :
    records (removeAllRecords authorityTokenId m tokenId).1 uri =
      if authorityTokenId uri = some tokenId then []
      else (records m uri).filter fun g => !touches tokenId g := by
  unfold removeAllRecords records
  rw [find?_traverse]
  cases m.find? uri with
  | none => simp
  | some list =>
    split_ifs
    · rfl
    · exact getD_dropEmpty _

lemma records_removeManually (uri uri' : String) (callerTokenId targetTokenId : TokenId)
    (isRevokeSelfUri : Bool) :
    records (removeManually m uri callerTokenId targetTokenId isRevokeSelfUri).1 uri' =
      if uri = uri' then (eraseFirst callerTokenId targetTokenId isRevokeSelfUri (records m uri)).1
      else records m uri' := by
  unfold removeManually records
  cases hf : m.find? uri with
  | none =>
    split_ifs with hu
    · rw [← hu, hf]
      rfl
    · rfl
  | some list =>
    simp only [Option.getD_some]
    split_ifs with he hu hu
    · rw [find?_erase, if_pos hu]
      exact (isEmpty_iff.mp he).symm
    · rw [find?_erase, if_neg hu]
    · rw [find?_modify, if_pos hu, ← hu, hf]
      rfl
    · rw [find?_modify, if_neg hu]

/-- One critical section on `mutex_`. The bundle manager may answer differently each time. -/
inductive TableOp where
  | addTempUriPermission (uri : String) (flag : UInt32) (fromTokenId targetTokenId : TokenId)
      (abilityId : AbilityId)
  | removeUriRecord (tokenId : TokenId) (abilityId : AbilityId)
  | revokeAll (authorityTokenId : String → Option TokenId) (tokenId : TokenId)
  | revokeManually (uri : String) (callerTokenId targetTokenId : TokenId) (isRevokeSelfUri : Bool)

def TableOp.apply : TableOp → UriMap
  | .addTempUriPermission uri flag fromTokenId targetTokenId abilityId =>
    UriPerm.addTempUriPermission m uri flag fromTokenId targetTokenId abilityId
  | .removeUriRecord tokenId abilityId => (UriPerm.removeUriRecord m tokenId abilityId).1
  | .revokeAll authorityTokenId tokenId => (removeAllRecords authorityTokenId m tokenId).1
  | .revokeManually uri callerTokenId targetTokenId isRevokeSelfUri =>
    (removeManually m uri callerTokenId targetTokenId isRevokeSelfUri).1

open TableOp

def runTable (ops : List TableOp) : UriMap := ops.foldl apply SortedMap.empty

def GrantInfo.key : TokenId × TokenId := (g.fromTokenId, g.targetTokenId)

@[simp] lemma GrantInfo.key_addAbilityId (a : AbilityId) : (g.addAbilityId a).key = g.key := by
  unfold addAbilityId
  split_ifs <;> rfl

@[simp] lemma GrantInfo.key_regrant (flag : UInt32) (a : AbilityId) :
    (g.regrant flag a).key = g.key := by
  rw [← key_addAbilityId g a]
  simp only [regrant]
  split_ifs <;> rfl

@[simp] lemma key_newGrant (a : AbilityId) :
    (newGrant flag fromTokenId targetTokenId a).key = (fromTokenId, targetTokenId) := by
  rw [newGrant, key_addAbilityId]
  rfl

lemma GrantInfo.between_iff_key {g : GrantInfo} {a b : TokenId} :
    g.between a b ↔ g.key = (a, b) := by
  simp [between, key]

lemma keys_addToList : (addToList flag fromTokenId targetTokenId abilityId list).map key =
      if (fromTokenId, targetTokenId) ∈ list.map key then list.map key
      else list.map key ++ [(fromTokenId, targetTokenId)] := by
  induction list with
  | nil => simp [addToList]
  | cons item list ih =>
    rw [addToList]
    by_cases hb : item.between fromTokenId targetTokenId
    · have hk := between_iff_key.mp hb
      simp [hb, hk]
    · have hk : (fromTokenId, targetTokenId) ≠ item.key := fun h => hb (between_iff_key.mpr h.symm)
      simp only [if_neg hb, map_cons, ih, mem_cons, hk, false_or]
      split_ifs <;> rfl

lemma keys_removeFromList : ((removeFromList tokenId abilityId list).1.map key).Sublist
    (list.map key) := by
  induction list with
  | nil => exact .slnil
  | cons it list ih =>
    simp only [removeFromList]
    split_ifs
    · exact ih.cons_cons _
    · exact ih.cons_cons _
    · exact .refl _
    · exact sublist_cons_self _ _

lemma eraseFirst_sublist (callerTokenId targetTokenId : TokenId) (isRevokeSelfUri : Bool)
    (list : List GrantInfo) :
    (eraseFirst callerTokenId targetTokenId isRevokeSelfUri list).1.Sublist list := by
  induction list with
  | nil => exact .slnil
  | cons it list ih =>
    rw [eraseFirst]
    split_ifs
    · exact sublist_cons_self _ _
    · exact ih.cons_cons _

def UniqueGrants : Prop := ∀ uri, ((records m uri).map key).Nodup

lemma uniqueGrants_apply {m : UriMap} (h : UniqueGrants m) (op : TableOp) :
    UniqueGrants (op.apply m) := by
  intro uri'
  cases op with
  | addTempUriPermission uri flag fromTokenId targetTokenId abilityId =>
    simp only [apply, records_addTempUriPermission]
    split_ifs
    · rw [keys_addToList]
      split_ifs with hm
      · exact h uri
      · refine (nodup_append_comm.trans nodup_cons).mpr ⟨hm, h uri⟩
    · exact h uri'
  | removeUriRecord tokenId abilityId =>
    simp only [apply, records_removeUriRecord]
    exact (h uri').sublist (keys_removeFromList _ _ _)
  | revokeAll authorityTokenId tokenId =>
    simp only [apply, records_removeAllRecords]
    split_ifs
    · exact nodup_nil
    · exact (h uri').sublist (filter_sublist.map _)
  | revokeManually uri callerTokenId targetTokenId isRevokeSelfUri =>
    simp only [apply, records_removeManually]
    split_ifs
    · exact (h uri).sublist ((eraseFirst_sublist _ _ _ _).map _)
    · exact h uri'

lemma uniqueGrants_runTable (ops : List TableOp) : UniqueGrants (runTable ops) := by
  refine List.foldlRecOn ops apply ?_ fun m hm op _ => uniqueGrants_apply hm op
  intro uri
  exact nodup_nil

end AbilityRuntime.UriPerm
