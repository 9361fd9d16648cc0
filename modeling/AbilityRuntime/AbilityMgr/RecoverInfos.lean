import AbilityRuntime.Library.Runs
import AbilityRuntime.AbilityMgr.AppExitReasonDataManager

/-! The recover infos as a map from token, module and ability to the latest session id. -/

namespace AbilityRuntime.ExitReason
open List KeyList

def latestStep (m : RecoverKey → Option Int) : Op → RecoverKey → Option Int
  | .addAbilityRecoverInfo key sessionId => Function.update m key (some sessionId)
  | .deleteAbilityRecoverInfo key => Function.update m key none
  | .deleteAllRecoverInfoByTokenId tokenId =>
    fun key => if key.accessTokenId = tokenId then none else m key

def latest (ops : List Op) : RecoverKey → Option Int := ops.foldl latestStep fun _ => none

abbrev Recorded := List (RecoverKey × Int)

def RecoverKey.recoverInfo (key : RecoverKey) : String := key.moduleName ++ key.abilityName

namespace Recorded

variable (r : Recorded)

def record (key : RecoverKey) (sessionId : Int) : Recorded :=
  if contains key r then modify key (fun _ => sessionId) r
  else r ++ [(key, sessionId)]

def step : Op → Recorded
  | .addAbilityRecoverInfo key sessionId => r.record key sessionId
  | .deleteAbilityRecoverInfo key => erase key r
  | .deleteAllRecoverInfoByTokenId tokenId => r.filter fun p => p.1.accessTokenId ≠ tokenId

def ofToken (token : ℕ) : Recorded := r.filter fun p => p.1.accessTokenId = token

def infos : List String := r.map fun p => p.1.recoverInfo

def ids : List Int := r.map Prod.snd

def code (token : ℕ) : ErrCode := if r.ofToken token = [] then .invalidValue else .ok

def clear (key : RecoverKey) : Bool :=
  (r.ofToken key.accessTokenId).all fun p => p.1.recoverInfo ≠ key.recoverInfo || p.1 = key

def ok : Op → Bool
  | .addAbilityRecoverInfo key sessionId =>
    r.clear key && (find? key r).all (· = sessionId)
  | .deleteAbilityRecoverInfo key =>
    r.clear key && (!contains key r ||
      (r.ofToken key.accessTokenId).ids.Nodup)
  | .deleteAllRecoverInfoByTokenId _ => true

lemma record_of_none {r : Recorded} {key : RecoverKey} (h : find? key r = none)
    (sessionId : Int) : r.record key sessionId = r ++ [(key, sessionId)] := by
  simp [record, KeyList.contains, h]

lemma record_of_some {r : Recorded} {key : RecoverKey} {old : Int}
    (h : find? key r = some old) (sessionId : Int) :
    r.record key sessionId = KeyList.modify key (fun _ => sessionId) r := by
  simp [record, KeyList.contains, h]

lemma find?_record (key k : RecoverKey) (sessionId : Int) :
    find? k (r.record key sessionId) =
      if key = k then some sessionId else find? k r := by
  cases hfind : find? key r with
  | none =>
    rw [record_of_none hfind, find?_append_singleton]
    by_cases hk : key = k
    · subst hk
      simp [hfind]
    · simp [hk]
  | some old =>
    rw [record_of_some hfind, find?_modify]
    by_cases hk : key = k
    · subst hk
      simp [hfind]
    · simp [hk]

lemma find?_step (op : Op) (k : RecoverKey) :
    find? k (r.step op) = latestStep (fun key => find? key r) op k := by
  cases op with
  | addAbilityRecoverInfo key sessionId =>
    rw [step, find?_record, latestStep, Function.update_apply]
    simp [eq_comm]
  | deleteAbilityRecoverInfo key =>
    rw [step, find?_erase, latestStep, Function.update_apply]
    simp [eq_comm]
  | deleteAllRecoverInfoByTokenId tokenId =>
    have hfilter := find?_filter (fun key : RecoverKey => decide (key.accessTokenId ≠ tokenId)) k r
    rw [step, hfilter, latestStep]
    by_cases hk : k.accessTokenId = tokenId
    · simp
    · simp

lemma find?_foldl_step (ops : List Op) (k : RecoverKey) :
    KeyList.find? k (ops.foldl step ([] : Recorded)) = latest ops k := by
  have hstep : ∀ (r : Recorded) (m : RecoverKey → Option Int) (op : Op),
      (∀ key, KeyList.find? key r = m key) →
        ∀ key, KeyList.find? key (r.step op) = latestStep m op key := by
    intro r m op hr key
    rw [find?_step, funext hr]
  have hrun := Runs.simulation hstep (fun _ => find?_nil _) ops
  exact hrun k

section Lists
variable {r : Recorded} {key : RecoverKey}

lemma idxOf_infos_cons_self (p : RecoverKey × Int) (hinfo : p.1 = key) :
    (infos (p :: r)).idxOf key.recoverInfo = 0 := by
  rw [infos, map_cons, hinfo]
  exact idxOf_cons_self

lemma idxOf_infos_cons_of_ne (p : RecoverKey × Int) (hinfo : p.1.recoverInfo ≠ key.recoverInfo) :
    (infos (p :: r)).idxOf key.recoverInfo = r.infos.idxOf key.recoverInfo + 1 := by
  rw [infos, map_cons, idxOf_cons, beq_eq_false_iff_ne.mpr hinfo]
  rfl

section
variable (hclear : ∀ p ∈ r, p.1.recoverInfo = key.recoverInfo → p.1 = key)
include hclear

lemma getElem?_idxOf : r.ids[r.infos.idxOf key.recoverInfo]? = find? key r := by
  induction r with
  | nil => rfl
  | cons p r ih =>
    have hrest := ih fun q hq => hclear q (mem_cons_of_mem _ hq)
    rw [KeyList.find?_cons]
    by_cases hkey : p.1 = key
    · rw [idxOf_infos_cons_self p hkey, if_pos hkey]
      rfl
    · have hinfo := mt (hclear p mem_cons_self) hkey
      rw [idxOf_infos_cons_of_ne p hinfo, if_neg hkey, ← hrest]
      rfl

lemma idxOf_eq_length_iff :
    r.infos.idxOf key.recoverInfo = r.infos.length ↔ find? key r = none := by
  rw [← getElem?_idxOf hclear, getElem?_eq_none_iff]
  have hle : r.infos.idxOf key.recoverInfo ≤ r.infos.length := idxOf_le_length
  have hlen : r.ids.length = r.infos.length := by simp [ids, infos]
  omega

lemma infos_erase : infos (erase key r) = r.infos.filter (· ≠ key.recoverInfo) := by
  rw [infos, infos, filter_map]
  congr 1
  apply filter_congr
  intro p hp
  have hsame : p.1 = key ↔ p.1.recoverInfo = key.recoverInfo :=
    ⟨congrArg RecoverKey.recoverInfo, hclear p hp⟩
  simp [hsame]

lemma ids_erase (hnodup : r.infos.Nodup) :
    ids (erase key r) = r.ids.eraseIdx (r.infos.idxOf key.recoverInfo) := by
  induction r with
  | nil => rfl
  | cons p r ih =>
    have hclear' := fun q hq => hclear q (mem_cons_of_mem p hq)
    obtain ⟨hfresh, hnodup'⟩ := nodup_cons.mp hnodup
    have hrest := ih hclear' hnodup'
    by_cases hkey : p.1 = key
    · -- the names are there once, so the rest of the list stays
      have hne : ∀ q ∈ r, q.1 ≠ key := by
        rintro q hq rfl
        exact hfresh (mem_map.mpr ⟨q, hq, congrArg RecoverKey.recoverInfo hkey.symm⟩)
      have herase : erase key (p :: r) = r := by
        rw [← erase_of_forall_ne hne]
        simp [erase, hkey]
      rw [herase, idxOf_infos_cons_self p hkey]
      rfl
    · have hinfo := mt (hclear p mem_cons_self) hkey
      have herase : erase key (p :: r) = p :: erase key r := by
        simp [erase, hkey]
      rw [herase, idxOf_infos_cons_of_ne p hinfo]
      exact congrArg (p.2 :: ·) hrest

end

end Lists

end Recorded

open Recorded

lemma removeReferenced_append {index : ℕ} {value : Int} {kept front rest : List Int}
    (hne : ∀ x ∈ front, x ≠ value)
    (haway : index < kept.length ∨ kept.length + front.length ≤ index) :
    removeReferenced index value kept (front ++ rest) =
      removeReferenced index value (kept ++ front) rest := by
  induction front generalizing kept with
  | nil => rw [nil_append, append_nil]
  | cons x front ih =>
    rw [length_cons] at haway
    have hx : x ≠ value := hne x mem_cons_self
    have hindex : kept.length ≠ index := by omega
    have hnext : index < (kept ++ [x]).length ∨ (kept ++ [x]).length + front.length ≤ index := by
      rw [length_append, length_singleton]
      omega
    rw [cons_append, removeReferenced, if_neg hx, if_neg hindex,
      ih (fun y hy => hne y (mem_cons_of_mem _ hy)) hnext, append_assoc, singleton_append]

theorem removeReferenced_eq_eraseIdx {index : ℕ} {value : Int} {list : List Int}
    (hnodup : list.Nodup) (hvalue : list[index]? = some value) :
    removeReferenced index value [] list = list.eraseIdx index := by
  obtain ⟨hindex, hget⟩ := List.getElem?_eq_some_iff.mp hvalue
  have hsplit : list = list.take index ++ value :: list.drop (index + 1) := by
    rw [← hget, getElem_cons_drop, take_append_drop]
  have hbefore : (list.take index).length = index := length_take_of_le hindex.le
  rw [eraseIdx_eq_take_drop_succ]
  generalize list.take index = before at hsplit hbefore ⊢
  generalize list.drop (index + 1) = after at hsplit ⊢
  subst hsplit
  obtain ⟨-, hvalueAfter, hapart⟩ := nodup_append.mp hnodup
  obtain ⟨hvalueNotMem, hafter⟩ := nodup_cons.mp hvalueAfter
  have hne : ∀ x ∈ before, x ≠ value := fun x hx => hapart x hx value mem_cons_self
  rw [removeReferenced_append hne (.inr (by simp [hbefore])), nil_append, removeReferenced,
    if_pos rfl]
  cases after with
  | nil => rw [removeReferenced, append_nil]
  | cons w after =>
    -- the place of the removed element is written with the next one
    obtain ⟨hw, -⟩ := nodup_cons.mp hafter
    have hother : w ≠ value := fun h => hvalueNotMem (h ▸ mem_cons_self)
    have hne' : ∀ x ∈ after, x ≠ w := fun x hx h => hw (h ▸ hx)
    have hpast : index < (before ++ [w]).length := by simp [hbefore]
    have hrest := @removeReferenced_append index w (before ++ [w]) after [] hne' (.inl hpast)
    rw [append_nil] at hrest
    rw [removeReferenced, if_neg hother, if_pos hbefore, hrest, removeReferenced,
      append_assoc, singleton_append]

lemma getAbilityRecoverInfoKey_inj {token token' : ℕ}
    (h : getAbilityRecoverInfoKey token = getAbilityRecoverInfoKey token') : token = token' := by
  have hdigits := (String.append_right_inj _).mp h
  rw [Nat.toString_eq_ofList_toDigits, Nat.toString_eq_ofList_toDigits,
    String.ofList_inj] at hdigits
  have hread := congrArg (fun digits => Nat.ofDigitChars 10 digits 0) hdigits
  simpa using hread

lemma convertAbilityRecoverInfo_roundTrip (infos : List String) (ids : List Int) :
    convertAbilityRecoverInfoFromValue (convertAbilityRecoverInfoToValue infos ids) =
      (infos, ids) := by
  have hinfos : (infos.map JsonValue.string).filterMap JsonValue.string? = infos := by
    rw [filterMap_map]
    exact filterMap_some
  have hids : (ids.map JsonValue.integer).filterMap JsonValue.integer? = ids := by
    rw [filterMap_map]
    exact filterMap_some
  exact Prod.ext hinfos hids

namespace Recorded
variable {r : Recorded} {key : RecoverKey}

lemma clear_iff : r.clear key = true ↔
    ∀ p ∈ r.ofToken key.accessTokenId, p.1.recoverInfo = key.recoverInfo → p.1 = key := by
  rw [clear, all_eq_true]
  refine forall₂_congr fun p _ => ?_
  simp [or_iff_not_imp_left]

lemma find?_ofToken (r : Recorded) (key : RecoverKey) :
    find? key (r.ofToken key.accessTokenId) = find? key r := by
  have hfilter := find?_filter
    (fun k : RecoverKey => decide (k.accessTokenId = key.accessTokenId)) key r
  rw [ofToken, hfilter, if_pos (by simp)]

lemma ofToken_append (r : Recorded) (p : RecoverKey × Int) (token : ℕ) : ofToken (r ++ [p]) token =
      if p.1.accessTokenId = token then r.ofToken token ++ [p] else r.ofToken token := by
  rw [ofToken, filter_append]
  split_ifs with h
  · simp [ofToken, h]
  · simp [ofToken, h]

lemma ofToken_erase (r : Recorded) (key : RecoverKey) (token : ℕ) :
    ofToken (erase key r) token = erase key (r.ofToken token) := by
  rw [ofToken, ofToken, erase, erase, filter_filter, filter_filter]
  simp [Bool.and_comm]

lemma erase_ofToken_of_ne {token : ℕ} (h : key.accessTokenId ≠ token) :
    erase key (r.ofToken token) = r.ofToken token := by
  refine erase_of_forall_ne fun p hp hkey => h ?_
  have htoken := of_decide_eq_true (mem_filter.mp hp).2
  rw [← hkey, htoken]

lemma ofToken_deleteAll (r : Recorded) (tokenId token : ℕ) :
    ofToken (r.step (.deleteAllRecoverInfoByTokenId tokenId)) token =
      if tokenId = token then [] else r.ofToken token := by
  rw [step, ofToken, filter_filter]
  split_ifs with h
  · subst h
    simp
  · refine filter_congr fun p _ => ?_
    by_cases hp : p.1.accessTokenId = token
    · simp [hp, Ne.symm h]
    · simp [hp]

def storedValue (l : Recorded) : Option JsonValue :=
  if l = [] then none else some (convertAbilityRecoverInfoToValue l.infos l.ids)

lemma storedValue_of_ne {l : Recorded} (h : l ≠ []) :
    l.storedValue = some (convertAbilityRecoverInfoToValue l.infos l.ids) := if_neg h

end Recorded

namespace AppExitReasonDataManager
variable {s : AppExitReasonDataManager}

lemma find?_put (token token' : ℕ) (value : JsonValue) :
    (s.put token value).kvStore.find? (getAbilityRecoverInfoKey token') =
      if token = token' then some value
      else s.kvStore.find? (getAbilityRecoverInfoKey token') := by
  rw [put, SortedMap.find?_assign]
  by_cases h : token = token'
  · rw [if_pos h, if_pos (congrArg _ h)]
  · rw [if_neg h, if_neg (mt getAbilityRecoverInfoKey_inj h)]

lemma find?_innerDelete (token token' : ℕ) :
    (s.innerDeleteAbilityRecoverInfo token).kvStore.find? (getAbilityRecoverInfoKey token') =
      if token = token' then none else s.kvStore.find? (getAbilityRecoverInfoKey token') := by
  rw [innerDeleteAbilityRecoverInfo, SortedMap.find?_erase]
  by_cases h : token = token'
  · rw [if_pos h, if_pos (congrArg _ h)]
  · rw [if_neg h, if_neg (mt getAbilityRecoverInfoKey_inj h)]

lemma find?_update (token token' : ℕ) (infos : List String) (ids : List Int) :
    (s.updateAbilityRecoverInfo token infos ids).kvStore.find? (getAbilityRecoverInfoKey token') =
      if token = token' then some (convertAbilityRecoverInfoToValue infos ids)
      else s.kvStore.find? (getAbilityRecoverInfoKey token') := by
  rw [updateAbilityRecoverInfo, find?_put, find?_innerDelete]
  split_ifs <;> rfl

lemma append_names (key : RecoverKey) : key.moduleName ++ key.abilityName = key.recoverInfo := rfl

section Calls
variable {key : RecoverKey} {l : Recorded} {sessionId : Int}
  (hstored : s.kvStore.find? (getAbilityRecoverInfoKey key.accessTokenId) = l.storedValue)
include hstored

lemma getAbilitySessionId_isSome :
    (s.getAbilitySessionId key.accessTokenId key.moduleName key.abilityName).isSome = true := by
  by_cases hempty : l = []
  · rw [getAbilitySessionId, hstored, hempty]
    rfl
  · simp only [getAbilitySessionId, hstored, storedValue_of_ne hempty,
      convertAbilityRecoverInfo_roundTrip, append_names]
    split_ifs with hindex
    · have hrange : l.infos.idxOf key.recoverInfo < l.ids.length := by
        have hle : l.infos.idxOf key.recoverInfo ≤ l.infos.length := idxOf_le_length
        have hlen : l.ids.length = l.infos.length := by simp [ids, infos]
        omega
      rw [getElem?_eq_getElem hrange]
      rfl
    · rfl

variable (hclear : ∀ p ∈ l, p.1.recoverInfo = key.recoverInfo → p.1 = key)
include hclear

lemma answers_of_stored : s.getAbilityRecoverInfo key.accessTokenId key.moduleName key.abilityName =
        (if l = [] then .invalidValue else .ok, (find? key l).isSome) ∧
      s.getAbilitySessionId key.accessTokenId key.moduleName key.abilityName =
        some (if l = [] then .invalidValue else .ok, (find? key l).getD 0) := by
  by_cases hempty : l = []
  · rw [getAbilityRecoverInfo, getAbilitySessionId, hstored, hempty]
    exact ⟨rfl, rfl⟩
  · simp only [getAbilityRecoverInfo, getAbilitySessionId, hstored, hempty,
      storedValue_of_ne hempty, convertAbilityRecoverInfo_roundTrip, append_names,
      getElem?_idxOf hclear, ne_eq, idxOf_eq_length_iff hclear]
    cases find? key l with
    | none => exact ⟨rfl, rfl⟩
    | some sessionId => exact ⟨rfl, rfl⟩

lemma step_add_absent (habsent : find? key l = none) (sessionId : Int) :
    s.step (.addAbilityRecoverInfo key sessionId) = some (s.put key.accessTokenId
      (convertAbilityRecoverInfoToValue (l.infos ++ [key.recoverInfo])
        (l.ids ++ [sessionId]))) := by
  by_cases hempty : l = []
  · rw [step, addAbilityRecoverInfo, hstored, hempty]
    rfl
  · simp only [step, addAbilityRecoverInfo, hstored, storedValue_of_ne hempty,
      convertAbilityRecoverInfo_roundTrip, append_names, ne_eq,
      idxOf_eq_length_iff hclear, habsent]
    rfl

lemma step_delete_absent (habsent : find? key l = none) :
    s.step (.deleteAbilityRecoverInfo key) = some s := by
  by_cases hempty : l = []
  · rw [step, deleteAbilityRecoverInfo, hstored, hempty]
    rfl
  · have hinfos : l.infos ≠ [] := by simpa [infos] using hempty
    simp only [step, deleteAbilityRecoverInfo, hstored, storedValue_of_ne hempty,
      convertAbilityRecoverInfo_roundTrip, append_names, ne_eq,
      idxOf_eq_length_iff hclear, habsent, hinfos]
    rfl

section
variable (hpresent : find? key l = some sessionId)
include hpresent

lemma step_add_present (newId : Int) : s.step (.addAbilityRecoverInfo key newId) = some s := by
  have hget := (getElem?_idxOf hclear).trans hpresent
  obtain ⟨hrange, -⟩ := List.getElem?_eq_some_iff.mp hget
  have hempty : l ≠ [] := ne_nil_of_mem (mem_of_find? hpresent)
  simp only [step, addAbilityRecoverInfo, hstored, storedValue_of_ne hempty,
    convertAbilityRecoverInfo_roundTrip, append_names, ne_eq,
    idxOf_eq_length_iff hclear, hpresent, writeAt?, hrange]
  rfl

lemma step_delete_present (hinfos : l.infos.Nodup) (hids : l.ids.Nodup) :
    s.step (.deleteAbilityRecoverInfo key) = some
      (if infos (erase key l) = [] then
        (s.updateAbilityRecoverInfo key.accessTokenId (infos (erase key l))
          (ids (erase key l))).innerDeleteAbilityRecoverInfo key.accessTokenId
      else s.updateAbilityRecoverInfo key.accessTokenId (infos (erase key l))
        (ids (erase key l))) := by
  have hget := (getElem?_idxOf hclear).trans hpresent
  have hempty : l ≠ [] := ne_nil_of_mem (mem_of_find? hpresent)
  simp only [step, deleteAbilityRecoverInfo, hstored, storedValue_of_ne hempty,
    convertAbilityRecoverInfo_roundTrip, append_names, ne_eq,
    idxOf_eq_length_iff hclear, hpresent, hget, infos_erase hclear,
    ids_erase hclear hinfos, ← removeReferenced_eq_eraseIdx hids hget]
  rfl

end

end Calls

end AppExitReasonDataManager

structure Stores (s : AppExitReasonDataManager) (r : Recorded) : Prop where
  lists : ∀ token, s.kvStore.find? (getAbilityRecoverInfoKey token) =
    (r.ofToken token).storedValue
  infos : ∀ token, (r.ofToken token).infos.Nodup

section Steps
open AppExitReasonDataManager
variable {s : AppExitReasonDataManager} {r : Recorded} {key : RecoverKey}

lemma Stores.of_token (h : Stores s r) {s' : AppExitReasonDataManager} {r' : Recorded} (token : ℕ)
    (hfind : s'.kvStore.find? (getAbilityRecoverInfoKey token) = (r'.ofToken token).storedValue)
    (hinfos : (r'.ofToken token).infos.Nodup)
    (hother : ∀ t, token ≠ t → s'.kvStore.find? (getAbilityRecoverInfoKey t) =
      s.kvStore.find? (getAbilityRecoverInfoKey t) ∧ r'.ofToken t = r.ofToken t) :
    Stores s' r' where
  lists t := by
    by_cases ht : token = t
    · rw [← ht, hfind]
    · rw [(hother t ht).1, (hother t ht).2, h.lists]
  infos t := by
    by_cases ht : token = t
    · rw [← ht]
      exact hinfos
    · rw [(hother t ht).2]
      exact h.infos t

section
variable (h : Stores s r)
include h

lemma Stores.record_same {sessionId : Int} (hsame : find? key r = some sessionId) :
    r.record key sessionId = r := by
  rw [record_of_some hsame]
  refine (map_congr_left fun p hp => ?_).trans (map_id _)
  split_ifs with hkey
  · -- the names are there once, so this is the entry that was found
    have hmem := mem_of_find? ((find?_ofToken r key).trans hsame)
    have hp' : p ∈ r.ofToken key.accessTokenId := by
      refine mem_filter.mpr ⟨hp, ?_⟩
      rw [hkey]
      exact decide_eq_true rfl
    have hinfo : p.1.recoverInfo = key.recoverInfo := congrArg _ hkey
    rw [inj_on_of_nodup_map (h.infos key.accessTokenId) hp' hmem hinfo]
    rfl
  · rfl

section
variable (hclear : ∀ p ∈ r.ofToken key.accessTokenId, p.1.recoverInfo = key.recoverInfo → p.1 = key)
include hclear

lemma Stores.add_new (hnew : find? key r = none) (sessionId : Int) :
    ∃ s', s.step (.addAbilityRecoverInfo key sessionId) = some s' ∧
      Stores s' (r ++ [(key, sessionId)]) := by
  rw [← find?_ofToken] at hnew
  refine ⟨_, step_add_absent (h.lists _) hclear hnew sessionId,
    h.of_token key.accessTokenId ?_ ?_ ?_⟩
  · rw [find?_put, ofToken_append, storedValue_of_ne]
    · simp [Recorded.infos, Recorded.ids]
    · simp
  · rw [Recorded.ofToken_append, if_pos rfl, Recorded.infos, map_append]
    refine nodup_append.mpr ⟨h.infos _, nodup_singleton _, ?_⟩
    rintro info hinfo _ hlast rfl
    rw [mem_singleton.mp hlast] at hinfo
    exact (idxOf_lt_length_iff.mpr hinfo).ne ((idxOf_eq_length_iff hclear).mpr hnew)
  · intro t ht
    rw [find?_put, if_neg ht, ofToken_append, if_neg ht]
    exact ⟨rfl, rfl⟩

lemma Stores.delete_present {sessionId : Int} (hpresent : find? key r = some sessionId)
    (hids : (r.ofToken key.accessTokenId).ids.Nodup) :
    ∃ s', s.step (.deleteAbilityRecoverInfo key) = some s' ∧ Stores s' (erase key r) := by
  rw [← find?_ofToken] at hpresent
  refine ⟨_, step_delete_present (h.lists _) hclear hpresent (h.infos _) hids,
    h.of_token key.accessTokenId ?_ ?_ ?_⟩
  · rw [ofToken_erase]
    by_cases hlast : erase key (r.ofToken key.accessTokenId) = []
    · have hinfos : Recorded.infos [] = [] := rfl
      rw [hlast, if_pos hinfos, find?_innerDelete, if_pos rfl]
      rfl
    · have hinfos : Recorded.infos (erase key (r.ofToken key.accessTokenId)) ≠ [] := by
        simpa [Recorded.infos] using hlast
      rw [if_neg hinfos, find?_update, if_pos rfl, storedValue_of_ne hlast]
  · rw [ofToken_erase, infos_erase hclear]
    exact (h.infos _).filter _
  · intro t ht
    rw [ofToken_erase, erase_ofToken_of_ne ht]
    refine ⟨?_, rfl⟩
    split_ifs
    · rw [find?_innerDelete, if_neg ht, find?_update, if_neg ht]
    · rw [find?_update, if_neg ht]

end

lemma Stores.deleteAll (tokenId : ℕ) : Stores (s.innerDeleteAbilityRecoverInfo tokenId)
      (r.step (.deleteAllRecoverInfoByTokenId tokenId)) := by
  refine h.of_token tokenId ?_ ?_ ?_
  · rw [find?_innerDelete, if_pos rfl, ofToken_deleteAll, if_pos rfl]
    rfl
  · rw [ofToken_deleteAll, if_pos rfl]
    exact nodup_nil
  · intro t ht
    rw [find?_innerDelete, if_neg ht, ofToken_deleteAll, if_neg ht]
    exact ⟨rfl, rfl⟩

lemma Stores.step {op : Op} (hok : r.ok op = true) :
    ∃ s', s.step op = some s' ∧ Stores s' (r.step op) := by
  cases op with
  | addAbilityRecoverInfo key sessionId =>
    obtain ⟨hclear, hall⟩ := Bool.and_eq_true_iff.mp hok
    rw [clear_iff] at hclear
    cases hfind : find? key r with
    | none =>
      rw [Recorded.step, Recorded.record_of_none hfind]
      exact h.add_new hclear hfind sessionId
    | some old =>
      rw [hfind] at hall
      obtain rfl := of_decide_eq_true hall
      rw [Recorded.step, h.record_same hfind]
      rw [← find?_ofToken] at hfind
      exact ⟨s, step_add_present (h.lists _) hclear hfind _, h⟩
  | deleteAbilityRecoverInfo key =>
    obtain ⟨hclear, hids⟩ := Bool.and_eq_true_iff.mp hok
    rw [clear_iff] at hclear
    cases hfind : find? key r with
    | none =>
      rw [Recorded.step, erase_of_forall_ne (find?_eq_none.mp hfind)]
      rw [← find?_ofToken] at hfind
      exact ⟨s, step_delete_absent (h.lists _) hclear hfind, h⟩
    | some sessionId =>
      simp only [KeyList.contains, hfind, Option.isSome_some, Bool.not_true, Bool.false_or,
        decide_eq_true_eq] at hids
      exact h.delete_present hclear hfind hids
  | deleteAllRecoverInfoByTokenId tokenId => exact ⟨_, rfl, h.deleteAll tokenId⟩

end

lemma Recorded.code_eq_ok_iff (r : Recorded) (token : ℕ) : r.code token = .ok ↔
    ∃ key : RecoverKey, key.accessTokenId = token ∧ (find? key r).isSome = true := by
  unfold code
  constructor
  · intro hok
    have hne : r.ofToken token ≠ [] := by
      intro hnil
      rw [if_pos hnil] at hok
      cases hok
    obtain ⟨p, hp⟩ := exists_mem_of_ne_nil _ hne
    obtain ⟨hmem, htoken⟩ := mem_filter.mp hp
    refine ⟨p.1, of_decide_eq_true htoken, Option.isSome_iff_ne_none.mpr fun hnone => ?_⟩
    exact find?_eq_none.mp hnone p hmem rfl
  · rintro ⟨key, rfl, hsome⟩
    refine if_neg fun hnil => ?_
    rw [← find?_ofToken, hnil] at hsome
    cases hsome

end Steps

namespace AppExitReasonDataManager

lemma run_stores {ops : List Op} (h : Runs.Guarded Recorded.step (fun r op => r.ok op =
      true) [] ops) :
    ∃ s, run ops = some s ∧ Stores s (ops.foldl Recorded.step []) := by
  have hrun : ∀ (s : AppExitReasonDataManager) (r : Recorded), Stores s r →
      Runs.Guarded .step (fun r op => r.ok op = true) r ops →
      ∃ s', ops.foldl (fun s op => s.bind (step · op)) (some s) = some s' ∧
        Stores s' (ops.foldl .step r) := by
    clear h
    induction ops with
    | nil => exact fun s r hs _ => ⟨s, rfl, hs⟩
    | cons op ops ih =>
      intro s r hs hg
      obtain ⟨s', hstep, hs'⟩ := hs.step hg.1
      rw [foldl_cons, Option.bind_some, hstep]
      exact ih s' _ hs' hg.2
  exact hrun {} [] ⟨fun _ => rfl, fun _ => nodup_nil⟩ h

theorem run_answersLatest {ops : List Op}
    (h : Runs.Guarded Recorded.step (fun r op => r.ok op = true) [] ops) :
    ∃ s, run ops = some s ∧ ∀ key : RecoverKey,
      (s.getAbilitySessionId key.accessTokenId key.moduleName key.abilityName).isSome = true ∧
      (Recorded.clear (ops.foldl Recorded.step []) key = true → ∃ code,
        (code = .ok ↔ ∃ other : RecoverKey, other.accessTokenId = key.accessTokenId ∧
          (latest ops other).isSome = true) ∧
        s.getAbilityRecoverInfo key.accessTokenId key.moduleName key.abilityName =
          (code, (latest ops key).isSome) ∧
        s.getAbilitySessionId key.accessTokenId key.moduleName key.abilityName =
          some (code, (latest ops key).getD 0)) := by
  obtain ⟨s, hrun, hstores⟩ := run_stores h
  refine ⟨s, hrun, fun key => ⟨getAbilitySessionId_isSome (hstores.lists _), fun hclear => ?_⟩⟩
  have hcode := Recorded.code_eq_ok_iff (ops.foldl Recorded.step []) key.accessTokenId
  have hanswers := answers_of_stored (hstores.lists _) (clear_iff.mp hclear)
  simp only [find?_ofToken, find?_foldl_step] at hcode hanswers
  exact ⟨_, hcode, hanswers⟩

def mainAbility (token : ℕ) : RecoverKey := ⟨token, "entry", "MainAbility"⟩

def editAbility (token : ℕ) : RecoverKey := ⟨token, "entry", "EditAbility"⟩

def rerecorded : List Op :=
  [.addAbilityRecoverInfo (mainAbility 7) 1, .addAbilityRecoverInfo (editAbility 7) 2,
    .addAbilityRecoverInfo (mainAbility 8) 1, .deleteAbilityRecoverInfo (mainAbility 7),
    .addAbilityRecoverInfo (mainAbility 7) 3]

theorem rerecorded_answersLatest : ∃ s, run rerecorded = some s ∧ ∀ key : RecoverKey,
      (s.getAbilitySessionId key.accessTokenId key.moduleName key.abilityName).isSome = true ∧
      (Recorded.clear (rerecorded.foldl Recorded.step []) key = true → ∃ code,
        (code = .ok ↔ ∃ other : RecoverKey, other.accessTokenId = key.accessTokenId ∧
          (latest rerecorded other).isSome = true) ∧
        s.getAbilityRecoverInfo key.accessTokenId key.moduleName key.abilityName =
          (code, (latest rerecorded key).isSome) ∧
        s.getAbilitySessionId key.accessTokenId key.moduleName key.abilityName =
          some (code, (latest rerecorded key).getD 0)) :=
  run_answersLatest (by decide +kernel)

def reopened : List Op :=
  [.addAbilityRecoverInfo (mainAbility 7) 1, .addAbilityRecoverInfo (mainAbility 7) 2]

def sharedSession : List Op :=
  [.addAbilityRecoverInfo (mainAbility 7) 1, .addAbilityRecoverInfo (editAbility 7) 1,
    .deleteAbilityRecoverInfo (mainAbility 7)]

theorem reopened_not_answersLatest :
    ((run reopened).bind fun s => s.getAbilitySessionId 7 "entry" "MainAbility") = some (.ok, 1) ∧
      latest reopened (mainAbility 7) = some 2 ∧
      (run sharedSession).isSome = true ∧
      ((run sharedSession).bind fun s => s.getAbilitySessionId 7 "entry" "EditAbility") = none ∧
      latest sharedSession (editAbility 7) = some 1 ∧
      ((run reopened).map fun s => s.getAbilityRecoverInfo 7 "entryMain" "Ability") =
        some (.ok, true) ∧
      latest reopened ⟨7, "entryMain", "Ability"⟩ = none := by
  decide +kernel

end AppExitReasonDataManager

end AbilityRuntime.ExitReason
