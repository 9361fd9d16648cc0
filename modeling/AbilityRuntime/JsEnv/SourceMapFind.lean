import AbilityRuntime.JsEnv.SourceMap

/-! `Find`: a binary search for the last mapping at or before a position. -/

namespace AbilityRuntime.JsEnv
open List Option Int32

def webpack : Text := "webpack:///".toList

structure MappingInfo where
  row : Int32
  col : Int32
  sources : Text

def removeFirst (pattern : Text) : Text → Text
  | [] => []
  | c :: cs =>
    if pattern.isPrefixOf (c :: cs) then (c :: cs).drop pattern.length
    else c :: removeFirst pattern cs

def isAfter (row col : Int32) (pos : SourceMapInfo) : Bool :=
  pos.afterRow = row ∧ pos.afterColumn > col ∨ pos.afterRow > row

variable (afterPos : List SourceMapInfo) (row col : Int32)

/-- The loop of the search, on signed 32-bit indices. -/
def findLoop (left right res : ℤ) : Option ℤ :=
  if right - left < 0 then some res
  else if 2 ^ 31 ≤ right + left then none
  else
    match afterPos[((right + left) / 2).toNat]? with
    | none => none
    | some pos =>
      if isAfter row col pos then findLoop left ((right + left) / 2 - 1) res
      else findLoop ((right + left) / 2 + 1) right ((right + left) / 2)
termination_by (right - left + 1).toNat

/-- No sum of two indices overflows in the search. -/
def sumsFit (left right : ℤ) : Bool :=
  if right - left < 0 then true
  else if 2 ^ 31 ≤ right + left then false
  else
    match afterPos[((right + left) / 2).toNat]? with
    | none => true
    | some pos =>
      if isAfter row col pos then sumsFit left ((right + left) / 2 - 1)
      else sumsFit ((right + left) / 2 + 1) right
termination_by (right - left + 1).toNat

/-- `substr` throws where it would start behind the end. -/
def find (targetMap : SourceMapData) : Option MappingInfo :=
  if row < 1 ∨ col < 1 then some ⟨0, 0, []⟩
  else
    match targetMap.afterPos.getLast?, targetMap.sources with
    | none, _ => some ⟨0, 0, []⟩
    | some _, [] => none
    | some last, source :: _ =>
      if source = [] then some ⟨0, 0, []⟩
      else if source.length < 7 then none
      else if row - 1 > last.afterRow then
        some ⟨row, col, (source.drop 7).take (source.length - 7 - 1)⟩
      else do
        let right ← add? (ofNat targetMap.afterPos.length) (-1)
        let res ← findLoop targetMap.afterPos (row - 1) (col - 1) 0 right.toInt 0
        let pos ← targetMap.afterPos[res.toNat]?
        return ⟨← add? pos.beforeRow 1, ← add? pos.beforeColumn 1,
          removeFirst webpack ((source.drop 7).take (source.length - 7 - 1))⟩

def AtOrBefore (pos : SourceMapInfo) : Prop :=
  pos.afterRow < row ∨ pos.afterRow = row ∧ pos.afterColumn ≤ col

def InOrder : Prop := afterPos.Pairwise fun p q => AtOrBefore q.afterRow q.afterColumn p

def IsNearest (i : ℕ) : Prop :=
  (i = 0 ∨ ∀ p ∈ afterPos[i]?, AtOrBefore row col p) ∧
    ∀ j, i < j → ∀ p ∈ afterPos[j]?, ¬ AtOrBefore row col p

def Found (bound : ℤ) (i : ℕ) : Prop :=
  i ≤ bound.toNat ∧ (i = 0 ∨ ∀ p ∈ afterPos[i]?, AtOrBefore row col p) ∧
    ∀ j : ℕ, i < j → j ≤ bound → ∀ p ∈ afterPos[j]?, ¬ AtOrBefore row col p

variable {afterPos row col} {p q : SourceMapInfo}

lemma isAfter_iff : isAfter row col p = true ↔ ¬ AtOrBefore row col p := by
  simp only [isAfter, AtOrBefore, decide_eq_true_eq, lt_iff_toInt_lt, le_iff_toInt_le, ← toInt_inj]
  omega

lemma AtOrBefore.trans (h : AtOrBefore row col q) (hp : AtOrBefore q.afterRow q.afterColumn p) :
    AtOrBefore row col p := by
  simp only [AtOrBefore, lt_iff_toInt_lt, le_iff_toInt_le, ← toInt_inj] at *
  omega

lemma InOrder.atOrBefore (h : InOrder afterPos) {i j : ℕ} (hij : i ≤ j)
    (hp : afterPos[i]? = some p) (hq : afterPos[j]? = some q) (hle : AtOrBefore row col q) :
    AtOrBefore row col p := by
  rcases Nat.eq_or_lt_of_le hij with rfl | hlt
  · cases hp.symm.trans hq
    exact hle
  · obtain ⟨hi, rfl⟩ := List.getElem?_eq_some_iff.mp hp
    obtain ⟨hj, rfl⟩ := List.getElem?_eq_some_iff.mp hq
    exact hle.trans (pairwise_iff_getElem.mp h i j hi hj hlt)

variable (row col) in
lemma InOrder.findLoop (h : InOrder afterPos) {left right res bound : ℤ} (hleft : 0 ≤ left)
    (hright : right ≤ bound) (hbound : bound < afterPos.length) (hcross : left ≤ max bound (-1) + 1)
    (hres : res = max (left - 1) 0)
    (hbelow : ∀ i : ℕ, i < left → ∀ p ∈ afterPos[i]?, AtOrBefore row col p)
    (habove : ∀ i : ℕ, right < i → i ≤ bound → ∀ p ∈ afterPos[i]?, ¬ AtOrBefore row col p) :
    if sumsFit afterPos row col left right then
      ∃ i : ℕ, JsEnv.findLoop afterPos row col left right res = some (i : ℤ) ∧
        Found afterPos row col bound i
    else JsEnv.findLoop afterPos row col left right res = none := by
  fun_induction JsEnv.findLoop afterPos row col left right res with
  | case1 left right res hend =>
    rw [sumsFit, if_pos hend, if_pos rfl]
    refine ⟨res.toNat, by rw [Int.toNat_of_nonneg (by omega)], by omega, ?_, fun j hj => ?_⟩
    · by_cases hzero : res.toNat = 0
      · exact .inl hzero
      · exact .inr (hbelow _ (by omega))
    · exact habove j (by omega)
  | case2 left right res hin hsum =>
    rw [sumsFit, if_neg hin, if_pos hsum]
    simp
  | case3 left right res _ _ hnone =>
    rw [getElem?_eq_none_iff] at hnone
    omega
  | case4 left right res hin hsum pos hpos hafter ih =>
    rw [sumsFit, if_neg hin, if_neg hsum, hpos]
    simp only [hafter, if_true]
    refine ih hleft (by omega) hcross hres hbelow fun i hi hib p hp hle => ?_
    exact isAfter_iff.mp hafter (h.atOrBefore (by omega) hpos hp hle)
  | case5 left right res hin hsum pos hpos hafter ih =>
    have hle : AtOrBefore row col pos := not_not.mp fun h => hafter (isAfter_iff.mpr h)
    rw [sumsFit, if_neg hin, if_neg hsum, hpos]
    simp only [hafter]
    refine ih (by omega) hright (by omega) (by omega) (fun i hi p hp => ?_) habove
    exact h.atOrBefore (by omega) hp hpos hle

lemma add?_of_fits {a b : Int32} (h : -2 ^ 31 ≤ a.toInt + b.toInt ∧ a.toInt + b.toInt < 2 ^ 31) :
    add? a b = some (a + b) ∧ (a + b).toInt = a.toInt + b.toInt := by
  refine ⟨if_pos h, ?_⟩
  rw [toInt_add]
  exact Int.bmod_eq_of_le (by omega) (by omega)

lemma add?_eq_some {a b c : Int32} (h : add? a b = some c) : c.toInt = a.toInt + b.toInt := by
  unfold add? at h
  split_ifs at h with hfits
  rw [← Option.some.inj h, (add?_of_fits hfits).2]

lemma toInt_lt_of_add? {n : ℕ} {right : Int32} (h : add? (ofNat n) (-1) = some right) :
    right.toInt < n := by
  have hone : (-1 : Int32).toInt = -1 := by decide
  have hcast : (ofNat n).toInt ≤ n := by
    have hmod : (n : ℤ) % (size : ℤ) ≤ n := by exact_mod_cast Nat.mod_le n size
    rw [toInt_ofNat', Int.bmod_def]
    split <;> omega
  rw [add?_eq_some h, hone]
  omega

lemma Found.eq_min (h : InOrder afterPos) {bound : ℤ} {i j : ℕ} (hbound : bound < afterPos.length)
    (hi : i < afterPos.length) (hf : Found afterPos row col bound j)
    (hnear : IsNearest afterPos row col i) : j = min i bound.toNat := by
  obtain ⟨hj, hstop, hnone⟩ := hf
  have hle : j ≤ i := by
    by_contra hlt
    have hget := getElem?_eq_getElem (l := afterPos) (i := j) (by omega)
    exact hnear.2 j (by omega) _ hget ((hstop.resolve_left (by omega)) _ hget)
  refine Nat.le_antisymm (Nat.le_min.mpr ⟨hle, hj⟩) ?_
  -- otherwise the next element is at or before the position as well
  by_contra hlt
  have hget := getElem?_eq_getElem (l := afterPos) (i := j + 1) (by omega)
  have hgeti := getElem?_eq_getElem (l := afterPos) (i := i) hi
  refine hnone (j + 1) (by omega) (by omega) _ hget (h.atOrBefore (by omega) hget hgeti ?_)
  exact hnear.1.resolve_left (by omega) _ hgeti

variable (row col) in
/-- What the search and the values it reads need, where `pos` is the nearest element. -/
def Findable (targetMap : SourceMapData) (i : ℕ) (pos : SourceMapInfo) : Prop :=
  ∃ source ∈ targetMap.sources.head?,
    if source = [] then pos.beforeRow = -1 ∧ pos.beforeColumn = -1
    else 7 ≤ source.length ∧ pos.beforeRow ≠ maxValue ∧ pos.beforeColumn ≠ maxValue ∧
      ∃ right ∈ add? (ofNat targetMap.afterPos.length) (-1),
        sumsFit targetMap.afterPos (row - 1) (col - 1) 0 right.toInt = true ∧
        ∃ p ∈ targetMap.afterPos[min i right.toInt.toNat]?,
          p.beforeRow = pos.beforeRow ∧ p.beforeColumn = pos.beforeColumn

lemma add?_one_eq_some {a b : Int32} : add? a 1 = some (b + 1) ↔ a = b ∧ b ≠ maxValue := by
  have hone : (1 : Int32).toInt = 1 := by decide
  have hmax : maxValue.toInt = 2 ^ 31 - 1 := by decide
  have hle := b.le_toInt
  have hlt := b.toInt_lt
  have hcancel : a + 1 = b + 1 ↔ a = b := ⟨fun h => by grind, fun h => by rw [h]⟩
  rw [← toInt_inj.ne, hmax, add?, hone]
  split_ifs with hfits
  · rw [Option.some.injEq, hcancel]
    refine ⟨fun h => ⟨h, ?_⟩, fun h => h.1⟩
    rw [h] at hfits
    omega
  · refine iff_of_false nofun ?_
    rintro ⟨rfl, hb⟩
    omega

lemma map_mappingInfo_eq_some {a b : Option Int32} {row col : Int32} (text : Text) :
    (a.bind fun r => b.bind fun c => some (MappingInfo.mk r c text)).map
        (fun info => (info.row, info.col)) = some (row, col) ↔ a = some row ∧ b = some col := by
  cases a <;> cases b <;> simp

theorem find_nearest_iff {targetMap : SourceMapData} {i : ℕ} {pos : SourceMapInfo}
    (hsorted : InOrder targetMap.afterPos) (hrow : 1 ≤ row) (hcol : 1 ≤ col)
    (hlast : ∀ p ∈ targetMap.afterPos.getLast?, row - 1 ≤ p.afterRow)
    (hget : targetMap.afterPos[i]? = some pos)
    (hnear : IsNearest targetMap.afterPos (row - 1) (col - 1) i) :
    (find row col targetMap).map (fun info => (info.row, info.col)) =
        some (pos.beforeRow + 1, pos.beforeColumn + 1) ↔
      Findable row col targetMap i pos := by
  have hi := (List.getElem?_eq_some_iff.mp hget).1
  have hgetLast := getLast?_eq_some_getLast (ne_nil_of_length_pos (Nat.zero_lt_of_lt hi))
  rw [find, if_neg (by simpa using ⟨hrow, hcol⟩), hgetLast, Findable]
  cases targetMap.sources with
  | nil => simp
  | cons source sources =>
    simp only [head?_cons, mem_def, Option.some.injEq, exists_eq_left']
    by_cases hempty : source = []
    · have hzero (a : Int32) : 0 = a + 1 ↔ a = -1 := ⟨fun h => by grind, fun h => by rw [h]; rfl⟩
      simp [hempty, hzero]
    rw [if_neg hempty, if_neg hempty]
    by_cases hseven : source.length < 7
    · rw [if_pos hseven]
      exact iff_of_false nofun fun h => absurd hseven (Nat.not_lt.mpr h.1)
    rw [if_neg hseven, if_neg (by simpa using hlast _ hgetLast)]
    cases hright : add? (ofNat targetMap.afterPos.length) (-1) with
    | none => simp
    | some right =>
      have hbound := toInt_lt_of_add? hright
      have hloop := hsorted.findLoop (row - 1) (col - 1) (Int.le_refl 0)
        (Int.le_refl right.toInt) hbound (by omega) (show 0 = max (0 - 1) 0 from rfl)
        (fun i hi => absurd hi (by omega)) fun i hi hib => absurd hi (by omega)
      split_ifs at hloop with hsums
      · obtain ⟨j, hj, hfound⟩ := hloop
        rw [hfound.eq_min hsorted hbound hi hnear] at hj
        have hp := getElem?_eq_getElem (l := targetMap.afterPos) (i := min i right.toInt.toNat)
          (by omega)
        generalize targetMap.afterPos[min i right.toInt.toNat] = p at hp
        simp only [bind_eq_bind, bind_some, hj, Int.toNat_natCast, hp, Option.pure_def,
          map_mappingInfo_eq_some, add?_one_eq_some, Option.some.injEq, exists_eq_left', hsums,
          true_and]
        have hlong := Nat.not_lt.mp hseven
        tauto
      · simp [hloop, hsums]

def sampleMap (sources : List Text) : SourceMapData :=
  { sources, afterPos := [{ beforeRow := 4 }, { afterRow := 2, afterColumn := 3 }] }

theorem sampleMap_nearest : (find 2 9 (sampleMap [webpack])).map
    (fun info => (info.row, info.col)) = some (4 + 1, 0 + 1) := by
  have hget : (sampleMap [webpack]).afterPos[0]? = some { beforeRow := 4 } := rfl
  refine (find_nearest_iff (by simp [InOrder, AtOrBefore, sampleMap]) (by decide) (by decide)
    (by simp [sampleMap]) hget ⟨.inl rfl, fun j hj p hp => ?_⟩).mpr ⟨webpack, rfl, ?_⟩
  · obtain rfl | hj : j = 1 ∨ 2 ≤ j := by omega
    · cases hp
      simp [AtOrBefore]
    · rw [getElem?_eq_none (by simpa [sampleMap] using hj)] at hp
      cases hp
  · rw [if_neg (by decide)]
    refine ⟨by decide, by decide, by decide, 1, by decide, ?_, _, rfl, rfl, rfl⟩
    simp [sumsFit, sampleMap, isAfter]

theorem sampleMap_no_source : (sampleMap []).afterPos ≠ [] ∧ InOrder (sampleMap []).afterPos ∧
    find 2 9 (sampleMap []) = none := by
  simp [InOrder, AtOrBefore, sampleMap, find]

end AbilityRuntime.JsEnv
