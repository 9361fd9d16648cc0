import AbilityRuntime.Library.Vlq
import AbilityRuntime.JsEnv.SourceMap

/-! The text form of mappings, and that `ExtractSourceMapData` reads it back. -/

namespace AbilityRuntime.JsEnv
open List Nat Vlq UInt32 SourceMapData

structure Origin where
  sourcesVal : Int32
  beforeRow : Int32
  beforeColumn : Int32
  namesVal : Option Int32

structure Segment where
  afterColumn : Int32
  origin : Option Origin

namespace Segment

def move (now : SourceMapInfo) (seg : Segment) : SourceMapInfo :=
  match seg.origin with
  | none => { now with afterColumn := seg.afterColumn }
  | some o => { now with
      afterColumn := seg.afterColumn
      sourcesVal := o.sourcesVal
      beforeRow := o.beforeRow
      beforeColumn := o.beforeColumn
      namesVal := o.namesVal.getD now.namesVal }

def deltas (now : SourceMapInfo) (seg : Segment) : List ℤ :=
  (seg.afterColumn.toInt - now.afterColumn.toInt) ::
    match seg.origin with
    | none => []
    | some o => [o.sourcesVal.toInt - now.sourcesVal.toInt, o.beforeRow.toInt - now.beforeRow.toInt,
        o.beforeColumn.toInt - now.beforeColumn.toInt] ++
        (o.namesVal.map fun name => name.toInt - now.namesVal.toInt).toList

end Segment

open Segment

def base64Char (digit : ℕ) : Char :=
  if digit < 26 then Char.ofNat ('A'.toNat + digit)
  else if digit < 52 then Char.ofNat ('a'.toNat + (digit - 26))
  else if digit < 62 then Char.ofNat ('0'.toNat + (digit - 52))
  else if digit = 62 then '+'
  else '/'

def writeVlq (v : ℤ) : Text := (Vlq.write 32 (Vlq.sign v)).map base64Char

def writeSegment (now : SourceMapInfo) (seg : Segment) : Text := (seg.deltas now).flatMap writeVlq

def enterRow (row : ℕ) (now : SourceMapInfo) : SourceMapInfo :=
  { now with afterRow := Int32.ofNat row, afterColumn := 0 }

def rowWords (now : SourceMapInfo) : List Segment → List Text
  | [] => []
  | seg :: segs => writeSegment now seg :: rowWords (seg.move now) segs

def rowEnd (now : SourceMapInfo) (segs : List Segment) : SourceMapInfo :=
  segs.foldl move now

def words (row : ℕ) (now : SourceMapInfo) : List (List Segment) → List (List Text)
  | [] => []
  | segs :: rows => rowWords (enterRow row now) segs ::
      words (row + 1) (rowEnd (enterRow row now) segs) rows

def writeMappings (rows : List (List Segment)) : Text :=
  [';'].intercalate ((words 0 {} rows).map fun texts => [','].intercalate texts)

def rowPositions (now : SourceMapInfo) : List Segment → List SourceMapInfo
  | [] => []
  | seg :: segs => (if seg.origin.isSome then [seg.move now] else []) ++
      rowPositions (seg.move now) segs

def positionsFrom (row : ℕ) (now : SourceMapInfo) : List (List Segment) → List SourceMapInfo
  | [] => []
  | segs :: rows => rowPositions (enterRow row now) segs ++
      positionsFrom (row + 1) (rowEnd (enterRow row now) segs) rows

def positions (rows : List (List Segment)) : List SourceMapInfo := positionsFrom 0 {} rows

def rowDeltas (now : SourceMapInfo) : List Segment → List ℤ
  | [] => []
  | seg :: segs => seg.deltas now ++ rowDeltas (seg.move now) segs

def deltasFrom (row : ℕ) (now : SourceMapInfo) : List (List Segment) → List ℤ
  | [] => []
  | segs :: rows => rowDeltas (enterRow row now) segs ++
      deltasFrom (row + 1) (rowEnd (enterRow row now) segs) rows

def differences (rows : List (List Segment)) : List ℤ := deltasFrom 0 {} rows

section Split

lemma handleLoop_word {word : Text} (hword : ∀ c ∈ word, c ≠ delimiterComma ∧
    c ≠ delimiterSemicolon) (rest tempStr : Text) (keyInfo : List Text) :
    handleLoop (word ++ rest) tempStr keyInfo = handleLoop rest (tempStr ++ word) keyInfo := by
  induction word generalizing tempStr with
  | nil => simp
  | cons c word ih =>
    obtain ⟨⟨hcomma, hsemicolon⟩, hrest⟩ := forall_mem_cons.mp hword
    rw [cons_append, handleLoop, if_neg hcomma, if_neg hsemicolon, ih hrest]
    simp

def IsWord (word : Text) : Prop :=
  word ≠ [] ∧ ∀ c ∈ word, c ≠ delimiterComma ∧ c ≠ delimiterSemicolon

lemma handleLoop_row {texts : List Text} (htexts : ∀ word ∈ texts, IsWord word) (rest : Text)
    (keyInfo : List Text) :
    handleLoop ([','].intercalate texts ++ ';' :: rest) [] keyInfo =
        handleLoop rest [] (keyInfo ++ texts ++ [[';']]) ∧
      handleLoop ([','].intercalate texts) [] keyInfo = keyInfo ++ texts := by
  induction texts generalizing keyInfo with
  | nil => simp [handleLoop, delimiterComma, delimiterSemicolon]
  | cons word texts ih =>
    obtain ⟨⟨hne, hword⟩, htexts'⟩ := forall_mem_cons.mp htexts
    cases texts with
    | nil =>
      rw [intercalate_singleton]
      refine ⟨?_, ?_⟩
      · rw [handleLoop_word hword]
        simp [handleLoop, delimiterComma, delimiterSemicolon, hne]
      · rw [← append_nil word, handleLoop_word hword]
        simp [handleLoop, hne]
    | cons word' texts =>
      have hcomma : ∀ rest', handleLoop (word ++ ',' :: rest') [] keyInfo =
          handleLoop rest' [] (keyInfo ++ [word]) := by
        intro rest'
        rw [handleLoop_word hword, handleLoop, if_pos (by rfl), nil_append]
      obtain ⟨hmore, hend⟩ := ih htexts' (keyInfo ++ [word])
      rw [intercalate_cons_cons]
      simp only [append_assoc, cons_append, hcomma] at hmore hend ⊢
      exact ⟨hmore, hend⟩

def tokens : List (List Text) → List Text
  | [] => []
  | [texts] => texts
  | texts :: texts' :: rows => texts ++ [';'] :: tokens (texts' :: rows)

lemma handleLoop_rows {rows : List (List Text)}
    (hrows : ∀ texts ∈ rows, ∀ word ∈ texts, IsWord word) (keyInfo : List Text) :
    handleLoop ([';'].intercalate (rows.map fun texts => [','].intercalate texts)) [] keyInfo =
      keyInfo ++ tokens rows := by
  induction rows generalizing keyInfo with
  | nil => simp [handleLoop, tokens]
  | cons texts rows ih =>
    obtain ⟨htexts, hrows'⟩ := forall_mem_cons.mp hrows
    cases rows with
    | nil =>
      rw [map_singleton, intercalate_singleton]
      exact (handleLoop_row htexts [] keyInfo).2
    | cons texts' rows =>
      rw [map_cons, map_cons, intercalate_cons_cons, append_assoc,
        singleton_append, (handleLoop_row htexts _ keyInfo).1, ← map_cons, ih hrows']
      simp [tokens]

end Split

section Vlq

lemma base64CharToInt_base64Char : ∀ d < 64, base64CharToInt (base64Char d) = ofNat d := by
  decide +kernel

lemma base64Char_ne : ∀ d < 64, base64Char d ≠ delimiterComma ∧
    base64Char d ≠ delimiterSemicolon := by
  decide +kernel

lemma digit_bits : ∀ d < 32, ofNat (d + 32) ≠ digitNum ∧
    ofNat (d + 32) &&& vlqBaseMask = ofNat d ∧
    ofNat (d + 32) &&& vlqContinuationBit ≠ 0 ∧ ofNat d ≠ digitNum ∧
    ofNat d &&& vlqBaseMask = ofNat d ∧
    ofNat d &&& vlqContinuationBit = 0 := by
  decide +kernel

lemma toNat_ofNat {n : ℕ} (h : n < 2 ^ 32) : (ofNat n).toNat = n := toNat_ofNat_of_lt' h

def vlqAcc (ans : List Int32) (r k : ℕ) : VlqState :=
  ⟨ofNat r, ofNat (5 * k), k ≠ 0, ans⟩

lemma shift_digit {r k d : ℕ} (hbound : r + d * 32 ^ k < 2 ^ 32) (hk : k < 7) :
    UInt32.ofNat r + (UInt32.ofNat d <<< UInt32.ofNat (5 * k)) = UInt32.ofNat (r + d * 32 ^ k) := by
  have hpow : 2 ^ (5 * k) = 32 ^ k := by
    rw [Nat.pow_mul]
  have hpos : 0 < 32 ^ k := Nat.pow_pos (by decide)
  have hd : d < 2 ^ 32 := lt_of_le_of_lt (Nat.le_mul_of_pos_right d hpos) (by omega)
  have hshift : (ofNat (5 * k)).toNat = 5 * k := toNat_ofNat (by omega)
  have hmod : 5 * k % 32 = 5 * k := mod_eq_of_lt (by omega)
  rw [← UInt32.toNat_inj, UInt32.toNat_add, UInt32.toNat_shiftLeft, hshift, hmod, shiftLeft_eq,
    hpow, toNat_ofNat hd, toNat_ofNat (by omega),
    toNat_ofNat hbound, mod_eq_of_lt (by omega), mod_eq_of_lt (by omega)]

lemma not_le_shift {k : ℕ} (hk : k < 7) : ¬ (32 : UInt32) ≤ ofNat (5 * k) := by
  rw [le_iff_toNat_le, toNat_ofNat (by omega)]
  change ¬ 32 ≤ 5 * k
  omega

lemma shift_succ (k : ℕ) : ofNat (5 * k) + vlqBaseShift = ofNat (5 * (k + 1)) := by
  rw [mul_succ, ofNat_add]
  rfl

lemma vlqLoop_more {ans : List Int32} (r k d : ℕ) (cs : Text) (hd : d < 32)
    (hbound : r + d * 32 ^ k < 2 ^ 32) (hk : k + 1 < 7) :
    vlqLoop (base64Char (d + 32) :: cs) (vlqAcc ans r k) =
      vlqLoop cs (vlqAcc ans (r + d * 32 ^ k) (k + 1)) := by
  obtain ⟨hvalid, hmask, hbit, -⟩ := digit_bits d hd
  unfold vlqAcc
  rw [vlqLoop, base64CharToInt_base64Char (d + 32) (by omega)]
  rw [if_neg hvalid, if_neg (not_le_shift (by omega)), if_pos hbit, hmask,
    shift_digit hbound (by omega), shift_succ]
  simp

lemma vlqLoop_last {ans : List Int32} (r k d : ℕ) (cs : Text) (hd : d < 32)
    (hbound : r + d * 32 ^ k < 2 ^ 32) (hk : k < 7) :
    vlqLoop (base64Char d :: cs) (vlqAcc ans r k) =
      vlqLoop cs (vlqAcc (ans ++ [vlqValue (ofNat (r + d * 32 ^ k))]) 0 0) := by
  obtain ⟨-, -, -, hvalid, hmask, hbit⟩ := digit_bits d hd
  unfold vlqAcc
  rw [vlqLoop, base64CharToInt_base64Char d (by omega)]
  rw [if_neg hvalid, if_neg (not_le_shift hk), if_neg (not_not.mpr hbit), hmask,
    shift_digit hbound hk]
  rfl

def Fits (v : ℤ) : Prop := v.natAbs < 2 ^ 31

lemma vlqValue_sign {v : ℤ} (hv : Fits v) :
    vlqValue (ofNat (Vlq.sign v)) = Int32.ofInt v := by
  unfold Fits at hv
  have hsign : sign v < 2 ^ 32 := sign_lt hv
  have hshift : ofNat (sign v) >>> 1 = ofNat v.natAbs := by
    rw [← UInt32.toNat_inj, UInt32.toNat_shiftRight, toNat_ofNat hsign, toNat_ofNat (by omega)]
    change sign v >>> 1 = _
    rw [shiftRight_eq_div_pow, sign_div_two]
  have hbit : ofNat (sign v) &&& 1 = 0 ↔ ¬ v < 0 := by
    rw [← UInt32.toNat_inj, UInt32.toNat_and, toNat_ofNat hsign]
    change sign v &&& 1 = 0 ↔ _
    rw [and_one_is_mod, sign_mod_two]
    split_ifs with hneg <;> simp [hneg]
  unfold vlqValue
  rw [hshift]
  by_cases hneg : v < 0
  · have habs : v = -v.natAbs := by omega
    rw [if_pos (fun h => hbit.mp h hneg), toInt32_neg, toInt32_ofNat',
      ← Int32.ofInt_eq_ofNat, Int32.neg_ofInt, ← habs]
  · have habs : v = v.natAbs := by omega
    rw [if_neg (not_not.mpr (hbit.mpr hneg)), toInt32_ofNat', ← Int32.ofInt_eq_ofNat, ← habs]

lemma vlqLoop_writeVlq {v : ℤ} (hv : Fits v) (ans : List Int32) (rest : Text) :
    vlqLoop (writeVlq v ++ rest) (vlqAcc ans 0 0) =
      vlqLoop rest (vlqAcc (ans ++ [Int32.ofInt v]) 0 0) := by
  have hsign : sign v < 2 ^ 32 := sign_lt hv
  have hlen : (Vlq.digits 32 (sign v)).length ≤ 7 :=
    length_digits_le (by decide) (by decide) (hsign.trans (by decide))
  have hrun := @run_write Char VlqState _ 32 (2 ^ 32) 7 base64Char vlqLoop (vlqAcc ans)
    (fun n => vlqAcc (ans ++ [vlqValue (.ofNat n)]) 0 0) vlqLoop_more vlqLoop_last (by decide)
    _ hsign hlen rest
  rw [writeVlq, hrun, vlqValue_sign hv]

lemma vlqLoop_fields {vs : List ℤ} (hvs : ∀ v ∈ vs, Fits v) (ans : List Int32) :
    vlqLoop (vs.flatMap writeVlq) (vlqAcc ans 0 0) = some (true, ans ++ vs.map Int32.ofInt) := by
  induction vs generalizing ans with
  | nil => simp [vlqLoop, vlqAcc]
  | cons v vs ih =>
    obtain ⟨hv, hvs'⟩ := forall_mem_cons.mp hvs
    rw [flatMap_cons, vlqLoop_writeVlq hv, ih hvs']
    simp

lemma isWord_writeSegment (now : SourceMapInfo) (seg : Segment) :
    IsWord (writeSegment now seg) := by
  have hne : ∀ v, writeVlq v ≠ [] := fun v => by
    simpa [writeVlq] using write_ne_nil 32 (sign v)
  refine ⟨?_, fun c hc => ?_⟩
  · exact append_ne_nil_of_left_ne_nil (hne _) _
  · obtain ⟨v, -, hc⟩ := mem_flatMap.mp hc
    obtain ⟨digit, hdigit, rfl⟩ := mem_map.mp hc
    exact base64Char_ne digit (write_lt (by decide) digit hdigit)

end Vlq

section Extract

lemma add?_sub {now target : Int32} (h : Fits (target.toInt - now.toInt)) :
    add? now (target - now) = some target := by
  unfold Fits at h
  have hdelta : (target - now).toInt = target.toInt - now.toInt := by
    rw [Int32.toInt_sub]
    exact Int.bmod_eq_of_le (by omega) (by omega)
  have hsum : now.toInt + (target - now).toInt = target.toInt := by omega
  have hadd : now + (target - now) = target := by
    rw [← Int32.toInt_inj, Int32.toInt_add, hsum]
    exact Int.bmod_eq_of_le target.le_toInt target.toInt_lt
  unfold add?
  rw [hsum, if_pos ⟨target.le_toInt, target.toInt_lt⟩, hadd]

lemma add?_row {row : ℕ} (h : row + 1 < 2 ^ 31) :
    add? (Int32.ofNat row) 1 = some (Int32.ofNat (row + 1)) := by
  have hrow : (Int32.ofNat row).toInt = row := Int32.toInt_ofNat_of_lt (by omega)
  have hone : (1 : Int32).toInt = 1 := rfl
  unfold add?
  rw [if_pos (by omega), Int32.ofNat_add]
  rfl

variable {now : SourceMapInfo} {seg : Segment}

lemma assignPos_deltas {o : Origin} (horigin : seg.origin = some o)
    (hfits : ∀ v ∈ seg.deltas now, Fits v) :
    assignPos now ((seg.deltas now).map Int32.ofInt) = some (seg.move now) := by
  unfold deltas at hfits ⊢
  unfold move
  simp only [horigin, cons_append, forall_mem_cons] at hfits ⊢
  obtain ⟨hcolumn, hsource, hrow, hbefore, hname⟩ := hfits
  cases hnames : o.namesVal with
  | none => simp [assignPos, add?_sub hcolumn, add?_sub hsource, add?_sub hrow, add?_sub hbefore]
  | some name =>
    rw [hnames] at hname
    have hfit : Fits (name.toInt - now.namesVal.toInt) := hname _ (by simp)
    simp [assignPos, add?_sub hcolumn, add?_sub hsource, add?_sub hrow, add?_sub hbefore,
      add?_sub hfit]

variable {data : SourceMapData}

lemma extractLoop_segment (rest : List Text) (hfits : ∀ v ∈ seg.deltas data.nowPos, Fits v)
    (hlen : (writeSegment data.nowPos seg).length < 2 ^ 32) :
    extractLoop (writeSegment data.nowPos seg :: rest) data = extractLoop rest { data with
      nowPos := seg.move data.nowPos
      afterPos := data.afterPos ++
        if seg.origin.isSome then [seg.move data.nowPos] else [] } := by
  have hword : writeSegment data.nowPos seg ≠ [';'] := by
    intro heq
    have hchars := (isWord_writeSegment data.nowPos seg).2 ';' (by rw [heq]; simp)
    exact hchars.2 rfl
  have hfields : vlqRevCode (writeSegment data.nowPos seg) =
      some (true, (seg.deltas data.nowPos).map Int32.ofInt) := by
    rw [vlqRevCode, if_pos hlen]
    exact vlqLoop_fields hfits []
  rw [extractLoop, if_neg hword, hfields]
  cases horigin : seg.origin with
  | none =>
    have hcolumn : Fits (seg.afterColumn.toInt - data.nowPos.afterColumn.toInt) :=
      hfits _ mem_cons_self
    simp [deltas, move, horigin, add?_sub hcolumn]
  | some o =>
    have hassign := assignPos_deltas horigin hfits
    have hdeltas : ∃ a b l, (seg.deltas data.nowPos).map Int32.ofInt = a :: b :: l := by
      unfold deltas
      rw [horigin]
      exact ⟨_, _, _, rfl⟩
    obtain ⟨a, b, l, hdeltas⟩ := hdeltas
    rw [hdeltas] at hassign ⊢
    simp [hassign]

lemma extractLoop_row {segs : List Segment} (data : SourceMapData) (rest : List Text)
    (hfits : ∀ v ∈ rowDeltas data.nowPos segs, Fits v)
    (hlen : ∀ word ∈ rowWords data.nowPos segs, word.length < 2 ^ 32) :
    extractLoop (rowWords data.nowPos segs ++ rest) data = extractLoop rest { data with
      nowPos := rowEnd data.nowPos segs
      afterPos := data.afterPos ++ rowPositions data.nowPos segs } := by
  induction segs generalizing data with
  | nil => simp [rowWords, rowEnd, rowPositions]
  | cons seg segs ih =>
    obtain ⟨hword, hwords⟩ := forall_mem_cons.mp hlen
    obtain ⟨hseg, hsegs⟩ := forall_mem_append.mp hfits
    rw [rowWords, cons_append, extractLoop_segment _ hseg hword]
    refine (ih { data with nowPos := seg.move data.nowPos, afterPos := _ } hsegs hwords).trans ?_
    simp [rowEnd, rowPositions]

lemma extractLoop_semicolon {row : ℕ} (hrow : row + 1 < 2 ^ 31)
    (hnow : data.nowPos.afterRow = Int32.ofNat row) (rest : List Text) :
    extractLoop ([';'] :: rest) data =
      extractLoop rest { data with nowPos := enterRow (row + 1) data.nowPos } := by
  rw [extractLoop, hnow, add?_row hrow]
  rfl

lemma afterRow_rowEnd (now : SourceMapInfo) (segs : List Segment) :
    (rowEnd now segs).afterRow = now.afterRow := by
  induction segs generalizing now with
  | nil => rfl
  | cons seg segs ih =>
    have hmove : (seg.move now).afterRow = now.afterRow := by
      unfold move
      split <;> rfl
    exact (ih (seg.move now)).trans hmove

lemma extractLoop_rows {rows : List (List Segment)} (hne : rows ≠ []) {row : ℕ}
    (hnow : data.nowPos = enterRow row now) (hrows : row + rows.length ≤ 2 ^ 31)
    (hfits : ∀ v ∈ deltasFrom row now rows, Fits v)
    (hlen : ∀ texts ∈ words row now rows, ∀ word ∈ texts, word.length < 2 ^ 32) :
    (extractLoop (tokens (words row now rows)) data).map afterPos =
      some (data.afterPos ++ positionsFrom row now rows) := by
  induction rows generalizing row now data with
  | nil => exact absurd rfl hne
  | cons segs rows ih =>
    obtain ⟨hsegs, hrest⟩ := forall_mem_append.mp hfits
    obtain ⟨hword, hwords⟩ := forall_mem_cons.mp hlen
    rw [← hnow] at hsegs hword
    rw [length_cons] at hrows
    cases rows with
    | nil =>
      have hrow := extractLoop_row data [] hsegs hword
      rw [append_nil] at hrow
      simp [words, tokens, positionsFrom, ← hnow, hrow, extractLoop]
    | cons segs' rows =>
      have hend : (rowEnd data.nowPos segs).afterRow = Int32.ofNat row := by
        rw [afterRow_rowEnd, hnow]
        rfl
      have htokens : tokens (words row now (segs :: segs' :: rows)) = rowWords data.nowPos segs ++
          [';'] :: tokens (words (row + 1) (rowEnd data.nowPos segs) (segs' :: rows)) := by
        rw [hnow]
        rfl
      rw [← hnow] at hrest hwords
      have hpositions : positionsFrom row now (segs :: segs' :: rows) =
          rowPositions data.nowPos segs ++
            positionsFrom (row + 1) (rowEnd data.nowPos segs) (segs' :: rows) := by
        rw [hnow]
        rfl
      rw [htokens, extractLoop_row data _ hsegs hword,
        extractLoop_semicolon (by rw [length_cons] at hrows; omega) hend,
        ih (cons_ne_nil _ _) rfl (by omega) hrest hwords, hpositions, ← append_assoc]

end Extract

section RoundTrip

lemma isWord_of_mem_words {rows : List (List Segment)} {row : ℕ} {now : SourceMapInfo} :
    ∀ texts ∈ words row now rows, ∀ word ∈ texts, IsWord word := by
  have hrow : ∀ {segs : List Segment} {now : SourceMapInfo}, ∀ word ∈ rowWords now segs,
      IsWord word := by
    intro segs
    induction segs with
    | nil => simp [rowWords]
    | cons seg segs ih =>
      intro now
      exact forall_mem_cons.mpr ⟨isWord_writeSegment now seg, ih⟩
  induction rows generalizing row now with
  | nil => simp [words]
  | cons segs rows ih => exact forall_mem_cons.mpr ⟨hrow, ih⟩

lemma length_le_of_mem_intercalate {sep word : Text} {texts : List Text} (h : word ∈ texts) :
    word.length ≤ (sep.intercalate texts).length := by
  induction texts with
  | nil => cases h
  | cons text texts ih =>
    cases texts with
    | nil => rw [mem_singleton.mp h, intercalate_singleton]
    | cons text' texts =>
      rw [intercalate_cons_cons, length_append, length_append]
      rcases mem_cons.mp h with rfl | h
      · omega
      · have hle := ih h
        omega

theorem extractSourceMapData_writeMappings (rows : List (List Segment))
    (hrows : rows.length ≤ 2 ^ 31) (hfits : ∀ v ∈ differences rows, v.natAbs < 2 ^ 31)
    (hlen : (writeMappings rows).length < 2 ^ 32) :
    (extractSourceMapData (writeMappings rows) {}).map afterPos = some (positions rows) := by
  have hwords : ∀ texts ∈ words 0 {} rows, ∀ word ∈ texts, word.length < 2 ^ 32 := by
    intro texts htexts word hword
    have hrow : ([','].intercalate texts).length ≤ (writeMappings rows).length :=
      length_le_of_mem_intercalate (mem_map_of_mem htexts)
    exact ((length_le_of_mem_intercalate hword).trans hrow).trans_lt hlen
  have hhandle : handleMappings (writeMappings rows) = some (tokens (words 0 {} rows)) := by
    unfold handleMappings
    rw [if_pos hlen, writeMappings, handleLoop_rows isWord_of_mem_words]
    rfl
  unfold extractSourceMapData
  rw [hhandle]
  cases rows with
  | nil => rfl
  | cons segs rows => exact extractLoop_rows (cons_ne_nil _ _) rfl (by rwa [zero_add]) hfits hwords

def sampleRows : List (List Segment) :=
  [[⟨4, some ⟨0, 0, 0, none⟩⟩, ⟨9, none⟩, ⟨12, some ⟨0, 2147483647, 7, some 3⟩⟩], [],
    [⟨3, some ⟨1, 5, 0, some 1⟩⟩]]

theorem sampleRows_roundTrip : sampleRows.length ≤ 2 ^ 31 ∧
    (∀ v ∈ differences sampleRows, v.natAbs < 2 ^ 31) ∧
    (writeMappings sampleRows).length < 2 ^ 32 ∧
    (extractSourceMapData (writeMappings sampleRows) {}).map afterPos =
      some (positions sampleRows) :=
  ⟨by decide, by decide, by decide +kernel,
    extractSourceMapData_writeMappings sampleRows (by decide) (by decide) (by decide +kernel)⟩

theorem least_difference_lost :
    (∀ v ∈ differences [[⟨0, some ⟨0, -2147483648, 0, none⟩⟩]], -2 ^ 31 ≤ v ∧ v < 2 ^ 31) ∧
    writeMappings [[⟨0, some ⟨0, -2147483648, 0, none⟩⟩]] = "AAhgggggEA".toList ∧
    (extractSourceMapData (writeMappings [[⟨0, some ⟨0, -2147483648, 0, none⟩⟩]]) {}).map
      afterPos = some [{}] ∧
    positions [[⟨0, some ⟨0, -2147483648, 0, none⟩⟩]] = [{ beforeRow := -2147483648 }] := by
  decide +kernel

end RoundTrip

section Malformed

def continues (c : Char) : Bool := base64CharToInt c &&& vlqContinuationBit ≠ 0

/-- No field goes on after its seventh digit, where `k` digits of the present one are read. -/
def fieldsFit : ℕ → Text → Bool
  | _, [] => true
  | k, c :: cs => base64CharToInt c = digitNum ||
      (k < 7 && fieldsFit (if continues c then k + 1 else 0) cs)

/-- There are only digits, and the last field ends. -/
def isDecoded : Bool → Text → Bool
  | continuation, [] => !continuation
  | _, c :: cs => base64CharToInt c ≠ digitNum && isDecoded (continues c) cs

def fieldCount (mapping : Text) : ℕ := mapping.countP (!continues ·)

def fieldValues (mapping : Text) : List Int32 := ((vlqRevCode mapping).map Prod.snd).getD []

/-- Up to the first mapping that is not decoded or has no field, no field is too long, no mapping
has two or three fields and no sum overflows. -/
def wellFormed : SourceMapInfo → List Text → Bool
  | _, [] => true
  | now, mapping :: rest =>
    if mapping = [';'] then
      (add? now.afterRow 1).any fun afterRow =>
        wellFormed { now with afterRow, afterColumn := 0 } rest
    else fieldsFit 0 mapping && (!isDecoded false mapping || fieldCount mapping = 0 ||
      if fieldCount mapping = 1 then
        (add? now.afterColumn (fieldValues mapping).headI).any fun afterColumn =>
          wellFormed { now with afterColumn } rest
      else 3 < fieldCount mapping &&
        (assignPos now (fieldValues mapping)).any fun now => wellFormed now rest)

lemma vlqLoop_eq {cs : Text} {s : VlqState} {k : ℕ} (hk : k ≤ 7) (hs : s.shift = ofNat (5 * k)) :
    if fieldsFit k cs then ∃ ans, vlqLoop cs s = some (isDecoded s.continuation cs, ans) ∧
      (isDecoded s.continuation cs = true → ans.length = s.ans.length + fieldCount cs)
    else vlqLoop cs s = none := by
  induction cs generalizing s k with
  | nil => exact ⟨_, rfl, fun _ => rfl⟩
  | cons c cs ih =>
    rw [vlqLoop, fieldsFit, isDecoded]
    by_cases hvalid : base64CharToInt c = digitNum
    · simp [hvalid]
    by_cases hseven : k < 7
    · simp only [hs, if_neg (not_le_shift hseven), hvalid, hseven, decide_false,
        decide_true, Bool.false_or, Bool.true_and, ne_eq, not_false_eq_true]
      by_cases hc : continues c = true
      · have hbit : base64CharToInt c &&& vlqContinuationBit ≠ 0 := of_decide_eq_true hc
        rw [if_pos hc, if_pos hbit, fieldCount, countP_cons_of_neg (by simp [hc]), hc]
        exact ih hseven (shift_succ k)
      · have hbit : ¬ base64CharToInt c &&& vlqContinuationBit ≠ 0 := fun h => hc (decide_eq_true h)
        rw [if_neg hc, if_neg hbit, fieldCount, countP_cons_of_pos (by simp [hc]),
          Bool.eq_false_iff.mpr hc]
        have hrest := ih (s := ⟨0, 0, false, s.ans ++ [vlqValue (s.result +
          ((base64CharToInt c &&& vlqBaseMask) <<< ofNat (5 * k)))]⟩) (Nat.zero_le 7) rfl
        simpa [fieldCount, add_assoc, add_comm] using hrest
    · obtain rfl : k = 7 := by omega
      have hshift : (32 : UInt32) ≤ s.shift := by rw [hs]; decide
      simp [hvalid, hshift]

lemma length_of_mem_handleLoop {cs tempStr mapping : Text} {keyInfo : List Text}
    (h : mapping ∈ handleLoop cs tempStr keyInfo) :
    mapping ∈ keyInfo ∨ mapping.length ≤ tempStr.length + cs.length := by
  induction cs generalizing tempStr keyInfo with
  | nil =>
    rw [handleLoop] at h
    split_ifs at h
    · rcases mem_append.mp h with h | h
      · exact .inl h
      · exact .inr (mem_singleton.mp h ▸ le_rfl)
    · exact .inl h
  | cons c cs ih =>
    rw [handleLoop] at h
    split_ifs at h <;> rcases ih h with h | h <;> grind

lemma isSome_extractLoop {mappings : List Text} (hlen : ∀ mapping ∈ mappings,
    mapping.length < 2 ^ 32) (data : SourceMapData) :
    (extractLoop mappings data).isSome = wellFormed data.nowPos mappings := by
  induction mappings generalizing data with
  | nil => rfl
  | cons mapping rest ih =>
    obtain ⟨hlt, hrest⟩ := forall_mem_cons.mp hlen
    rw [extractLoop, wellFormed]
    by_cases hrow : mapping = [';']
    · rw [if_pos hrow, if_pos hrow]
      cases add? data.nowPos.afterRow 1 with
      | none => rfl
      | some afterRow => exact ih hrest _
    rw [if_neg hrow, if_neg hrow]
    have hloop := @vlqLoop_eq mapping {} 0 (Nat.zero_le 7) rfl
    have hcode : vlqRevCode mapping = vlqLoop mapping {} := if_pos hlt
    rw [← hcode] at hloop
    by_cases hfit : fieldsFit 0 mapping = true
    · rw [if_pos hfit] at hloop
      obtain ⟨ans, hans, hcount⟩ := hloop
      replace hans : vlqRevCode mapping = some (isDecoded false mapping, ans) := hans
      replace hcount : isDecoded false mapping = true → ans.length = 0 + fieldCount mapping :=
        hcount
      have hvalues : fieldValues mapping = ans := by rw [fieldValues, hans]; rfl
      rw [hans, hvalues, hfit]
      cases hdec : isDecoded false mapping with
      | false => simp
      | true =>
        rw [← zero_add (fieldCount mapping), ← hcount hdec]
        cases ans with
        | nil => simp
        | cons column ans =>
          cases ans with
          | nil =>
            cases hadd : add? data.nowPos.afterColumn column with
            | none => simp [hadd]
            | some afterColumn => simpa [hadd] using ih hrest _
          | cons source ans =>
            cases hassign : assignPos data.nowPos (column :: source :: ans) with
            | none => simp [hassign]
            | some nowPos =>
              have hfour : 2 ≤ ans.length := by
                match ans, hassign with
                | _ :: _ :: _, _ => simp
              simpa [hassign, hfour] using ih hrest _
    · rw [if_neg hfit] at hloop
      simp [hloop, hfit]

theorem extractSourceMapData_isSome_iff (allmappings : Text) (curMapData : SourceMapData) :
    (extractSourceMapData allmappings curMapData).isSome = true ↔
      allmappings.length < 2 ^ 32 ∧
        wellFormed curMapData.nowPos (handleLoop allmappings [] []) = true := by
  unfold extractSourceMapData handleMappings
  by_cases hlen : allmappings.length < 2 ^ 32
  · have hle : ∀ mapping ∈ handleLoop allmappings [] [], mapping.length < 2 ^ 32 := by
      intro mapping hmem
      rcases length_of_mem_handleLoop hmem with h | h
      · cases h
      · simpa using h.trans_lt (by simpa using hlen)
    have hloop := isSome_extractLoop hle
      { curMapData with mappings := handleLoop allmappings [] [] }
    rw [if_pos hlen]
    exact ⟨fun h => ⟨hlen, hloop.symm.trans h⟩, fun h => hloop.trans h.2⟩
  · rw [if_neg hlen]
    exact iff_of_false nofun fun h => hlen h.1

theorem shortMapping_undefined :
    (vlqRevCode "AA".toList = some (true, [0, 0]) ∧ extractSourceMapData "AA".toList {} = none) ∧
    vlqRevCode "gggggggA".toList = none ∧ extractSourceMapData "gggggggA".toList {} = none := by
  decide +kernel

end Malformed

end AbilityRuntime.JsEnv
