import Mathlib.Algebra.Group.Int.Defs
import Mathlib.Algebra.Group.Nat.Defs
import Mathlib.Data.List.Basic

/-! The decoding of the mappings of a source map. Undefined operations (signed overflow, a shift by
the width or more, reading past the end) and a loop that never ends are `none`. -/

namespace AbilityRuntime.JsEnv

abbrev Text := List Char

def delimiterComma : Char := ','
def delimiterSemicolon : Char := ';'
def digitNum : UInt32 := 64

structure SourceMapInfo where
  beforeRow : Int32 := 0
  beforeColumn : Int32 := 0
  afterRow : Int32 := 0
  afterColumn : Int32 := 0
  sourcesVal : Int32 := 0
  namesVal : Int32 := 0
deriving DecidableEq

structure SourceMapData where
  nowPos : SourceMapInfo := {}
  sources : List Text := []
  mappings : List Text := []
  afterPos : List SourceMapInfo := []

def base64CharToInt (charCode : Char) : UInt32 :=
  if 'A' ≤ charCode ∧ charCode ≤ 'Z' then UInt32.ofNat (charCode.toNat - 'A'.toNat)
  else if 'a' ≤ charCode ∧ charCode ≤ 'z' then UInt32.ofNat (charCode.toNat - 'a'.toNat + 26)
  else if '0' ≤ charCode ∧ charCode ≤ '9' then UInt32.ofNat (charCode.toNat - '0'.toNat + 52)
  else if charCode = '+' then 62
  else if charCode = '/' then 63
  else digitNum

/-- The characters that the loop of `HandleMappings` has yet to read, with its local variables. -/
def handleLoop : Text → Text → List Text → List Text
  | [], tempStr, keyInfo => if tempStr ≠ [] then keyInfo ++ [tempStr] else keyInfo
  | c :: cs, tempStr, keyInfo =>
    if c = delimiterComma then handleLoop cs [] (keyInfo ++ [tempStr])
    else if c = delimiterSemicolon then
      handleLoop cs [] ((if tempStr ≠ [] then keyInfo ++ [tempStr] else keyInfo) ++ [[';']])
    else handleLoop cs (tempStr ++ [c]) keyInfo

/-- The index of the loop has 32 bits and never gets to the end of a longer text. -/
def handleMappings (mapping : Text) : Option (List Text) :=
  if mapping.length < 2 ^ 32 then some (handleLoop mapping [] []) else none

structure VlqState where
  result : UInt32 := 0
  shift : UInt32 := 0
  continuation : Bool := false
  ans : List Int32 := []

def vlqBaseShift : UInt32 := 5
def vlqBaseMask : UInt32 := 31
def vlqContinuationBit : UInt32 := 32

/-- `isNegate ? -result : result`, converted to the element type of `ans`. -/
def vlqValue (result : UInt32) : Int32 :=
  (if result &&& 1 ≠ 0 then -(result >>> 1) else result >>> 1).toInt32

/-- The loop of `VlqRevCode`: its return value and what `ans` then holds. -/
def vlqLoop : Text → VlqState → Option (Bool × List Int32)
  | [], s => some (!s.continuation, s.ans)
  | c :: cs, s =>
    let digit := base64CharToInt c
    if digit = digitNum then some (false, s.ans)
    else if 32 ≤ s.shift then none
    else
      let result := s.result + ((digit &&& vlqBaseMask) <<< s.shift)
      if digit &&& vlqContinuationBit ≠ 0 then
        vlqLoop cs ⟨result, s.shift + vlqBaseShift, true, s.ans⟩
      else vlqLoop cs ⟨0, 0, false, s.ans ++ [vlqValue result]⟩

def vlqRevCode (vStr : Text) : Option (Bool × List Int32) :=
  if vStr.length < 2 ^ 32 then vlqLoop vStr {} else none

def add? (a b : Int32) : Option Int32 :=
  if -2 ^ 31 ≤ a.toInt + b.toInt ∧ a.toInt + b.toInt < 2 ^ 31 then some (a + b) else none

def assignPos (now : SourceMapInfo) : List Int32 → Option SourceMapInfo
  | column :: source :: row :: before :: rest => do
    let afterColumn ← add? now.afterColumn column
    let sourcesVal ← add? now.sourcesVal source
    let beforeRow ← add? now.beforeRow row
    let beforeColumn ← add? now.beforeColumn before
    let namesVal ← match rest with
      | [name] => add? now.namesVal name
      | _ => some now.namesVal
    some { now with afterColumn, sourcesVal, beforeRow, beforeColumn, namesVal }
  | _ => none

/-- The loop of `ExtractSourceMapData` over the mappings that are left. -/
def extractLoop : List Text → SourceMapData → Option SourceMapData
  | [], data => some { data with mappings := [] }
  | mapping :: rest, data =>
    if mapping = [';'] then do
      let afterRow ← add? data.nowPos.afterRow 1
      extractLoop rest { data with nowPos := { data.nowPos with afterRow, afterColumn := 0 } }
    else do
      let (decoded, ans) ← vlqRevCode mapping
      if decoded = false then some data
      else
        match ans with
        | [] => some { data with mappings := [] }
        | [column] =>
          let afterColumn ← add? data.nowPos.afterColumn column
          extractLoop rest { data with nowPos := { data.nowPos with afterColumn } }
        | _ =>
          let nowPos ← assignPos data.nowPos ans
          extractLoop rest { data with nowPos, afterPos := data.afterPos ++ [nowPos] }

def extractSourceMapData (allmappings : Text) (curMapData : SourceMapData) :
    Option SourceMapData := do
  let mappings ← handleMappings allmappings
  extractLoop mappings { curMapData with mappings }

end AbilityRuntime.JsEnv
