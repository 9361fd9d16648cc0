import Mathlib.Data.String.Basic
import AbilityRuntime.Library.JsonValue

/-! The recover infos of `AppExitReasonDataManager`: two lists under one key of the store, names and
session ids, which belong together by position. For an index past the end of a list a function
returns `none`. -/

namespace AbilityRuntime.ExitReason

def keyRecoverInfoPrefix := "recover_info"
def jsonKeyRecoverInfoList := "recover_info_list"
def jsonKeySessionIdList := "session_id_list"

inductive ErrCode where
  | ok
  | invalidValue
deriving DecidableEq

def getAbilityRecoverInfoKey (accessTokenId : ℕ) : String :=
  keyRecoverInfoPrefix ++ toString accessTokenId

def convertAbilityRecoverInfoToValue (recoverInfoList : List String) (sessionIdList : List Int) :
    JsonValue :=
  .object [(jsonKeyRecoverInfoList, .array (recoverInfoList.map .string)),
    (jsonKeySessionIdList, .array (sessionIdList.map .integer))]

/-- The lists are empty before the call; elements of another kind are skipped. -/
def convertAbilityRecoverInfoFromValue (value : JsonValue) : List String × List Int :=
  (((value.arrayAt jsonKeyRecoverInfoList).getD []).filterMap JsonValue.string?,
    ((value.arrayAt jsonKeySessionIdList).getD []).filterMap JsonValue.integer?)

/-- The loop of `std::remove`, called with a reference to the element at `index` of the list it
works on: once another element is written to that place, it is the one compared with. -/
def removeReferenced (index : ℕ) : Int → List Int → List Int → List Int
  | _, kept, [] => kept
  | value, kept, x :: rest =>
    if x = value then removeReferenced index value kept rest
    else removeReferenced index (if kept.length = index then x else value) (kept ++ [x]) rest

def writeAt? (list : List Int) (index : ℕ) (value : Int) : Option (List Int) :=
  if index < list.length then some (list.set index value) else none

structure AppExitReasonDataManager where
  kvStore : SortedMap String JsonValue := .empty

namespace AppExitReasonDataManager
variable (s : AppExitReasonDataManager) (accessTokenId : ℕ)

def innerDeleteAbilityRecoverInfo : AppExitReasonDataManager :=
  { s with kvStore := s.kvStore.erase (getAbilityRecoverInfoKey accessTokenId) }

def put (value : JsonValue) : AppExitReasonDataManager :=
  { s with kvStore := s.kvStore.assign (getAbilityRecoverInfoKey accessTokenId) value }

def updateAbilityRecoverInfo (recoverInfoList : List String)
    (sessionIdList : List Int) : AppExitReasonDataManager :=
  (s.innerDeleteAbilityRecoverInfo accessTokenId).put accessTokenId
    (convertAbilityRecoverInfoToValue recoverInfoList sessionIdList)

variable (moduleName abilityName : String)

def addAbilityRecoverInfo (sessionId : Int) : Option (AppExitReasonDataManager × ErrCode) :=
  let recoverInfo := moduleName ++ abilityName
  match s.kvStore.find? (getAbilityRecoverInfoKey accessTokenId) with
  | none =>
    some (s.put accessTokenId (convertAbilityRecoverInfoToValue [recoverInfo] [sessionId]), .ok)
  | some value =>
    let (recoverInfoList, sessionIdList) := convertAbilityRecoverInfoFromValue value
    let index := recoverInfoList.idxOf recoverInfo
    if index ≠ recoverInfoList.length then
      -- the new session id is written to the local list, which is then dropped
      (writeAt? sessionIdList index sessionId).map fun _ => (s, .ok)
    else
      some (s.put accessTokenId (convertAbilityRecoverInfoToValue
        (recoverInfoList ++ [recoverInfo]) (sessionIdList ++ [sessionId])), .ok)

def deleteAllRecoverInfoByTokenId (tokenId : ℕ) : AppExitReasonDataManager × ErrCode :=
  (s.innerDeleteAbilityRecoverInfo tokenId, .ok)

def deleteAbilityRecoverInfo : Option (AppExitReasonDataManager × ErrCode) :=
  let recoverInfo := moduleName ++ abilityName
  match s.kvStore.find? (getAbilityRecoverInfoKey accessTokenId) with
  | none => some (s, .invalidValue)
  | some value =>
    let (recoverInfoList, sessionIdList) := convertAbilityRecoverInfoFromValue value
    let index := recoverInfoList.idxOf recoverInfo
    if index ≠ recoverInfoList.length then
      let left := recoverInfoList.filter (· ≠ recoverInfo)
      sessionIdList[index]?.map fun sessionId =>
        let updated := s.updateAbilityRecoverInfo accessTokenId left
          (removeReferenced index sessionId [] sessionIdList)
        (if left = [] then updated.innerDeleteAbilityRecoverInfo accessTokenId else updated, .ok)
    else
      some (if recoverInfoList = [] then s.innerDeleteAbilityRecoverInfo accessTokenId else s, .ok)

def getAbilityRecoverInfo : ErrCode × Bool :=
  match s.kvStore.find? (getAbilityRecoverInfoKey accessTokenId) with
  | none => (.invalidValue, false)
  | some value =>
    let recoverInfoList := (convertAbilityRecoverInfoFromValue value).1
    (.ok, recoverInfoList.idxOf (moduleName ++ abilityName) ≠ recoverInfoList.length)

def getAbilitySessionId : Option (ErrCode × Int) :=
  match s.kvStore.find? (getAbilityRecoverInfoKey accessTokenId) with
  | none => some (.invalidValue, 0)
  | some value =>
    let (recoverInfoList, sessionIdList) := convertAbilityRecoverInfoFromValue value
    let index := recoverInfoList.idxOf (moduleName ++ abilityName)
    if index ≠ recoverInfoList.length then
      sessionIdList[index]?.map fun sessionId => (.ok, sessionId)
    else some (.ok, 0)

end AppExitReasonDataManager

structure RecoverKey where
  accessTokenId : ℕ
  moduleName : String
  abilityName : String
deriving DecidableEq

inductive Op where
  | addAbilityRecoverInfo (key : RecoverKey) (sessionId : Int)
  | deleteAbilityRecoverInfo (key : RecoverKey)
  | deleteAllRecoverInfoByTokenId (tokenId : ℕ)

namespace AppExitReasonDataManager

def step (s : AppExitReasonDataManager) : Op → Option AppExitReasonDataManager
  | .addAbilityRecoverInfo key sessionId =>
    (s.addAbilityRecoverInfo key.accessTokenId key.moduleName key.abilityName sessionId).map
      Prod.fst
  | .deleteAbilityRecoverInfo key =>
    (s.deleteAbilityRecoverInfo key.accessTokenId key.moduleName key.abilityName).map Prod.fst
  | .deleteAllRecoverInfoByTokenId tokenId => some (s.deleteAllRecoverInfoByTokenId tokenId).1

def run (ops : List Op) : Option AppExitReasonDataManager :=
  ops.foldl (fun s op => s.bind (step · op)) (some {})

end AppExitReasonDataManager

end AbilityRuntime.ExitReason
