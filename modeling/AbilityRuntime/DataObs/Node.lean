import AbilityRuntime.Library.PathTrie
import Mathlib.Data.String.Basic

/-! The observer trie of `DataObsMgrInnerExt`, with the heap of the shared `DeathRecipientRef`
counters. Each operation is described by what it does to the flat list of the trie. -/

namespace AbilityRuntime.DataObs
open Function List Nat PathTrie KeyList

abbrev RefId := Nat

/-- The `DeathRecipientRef` objects. `wrapped` records that some counter went through zero. -/
structure RefHeap where
  ref : RefId → UInt32
  next : RefId
  wrapped : Bool

namespace RefHeap

def init : RefHeap := ⟨fun _ => 0, 0, false⟩

variable (h : RefHeap)

def make : RefId × RefHeap :=
  (h.next, { h with ref := Function.update h.ref h.next 1, next := h.next + 1 })

def incr (id : RefId) : RefHeap :=
  { h with
    ref := Function.update h.ref id (h.ref id + 1)
    wrapped := h.wrapped || h.ref id == 4294967295 }

def decr (id : RefId) : RefHeap :=
  { h with ref := Function.update h.ref id (h.ref id - 1), wrapped := h.wrapped || h.ref id == 0 }

lemma make_ref_self : h.make.2.ref h.next = 1 := update_self ..

variable {id : RefId}

lemma make_ref_of_ne (hne : id ≠ h.next) : h.make.2.ref id = h.ref id := update_of_ne hne ..

lemma incr_ref_self {h : RefHeap} (hmax : h.ref id ≠ 4294967295) :
    ((h.incr id).ref id).toNat = (h.ref id).toNat + 1 := by
  have hlt := (h.ref id).toNat_lt
  have hne : (h.ref id).toNat ≠ 4294967295 := fun he => hmax (UInt32.toNat_inj.mp he)
  simp only [incr, update_self, UInt32.toNat_add, UInt32.toNat_one]
  omega

lemma decr_ref_self {h : RefHeap} (hpos : 1 ≤ (h.ref id).toNat) :
    ((h.decr id).ref id).toNat = (h.ref id).toNat - 1 := by
  have hle : 1 ≤ h.ref id := UInt32.le_iff_toNat_le.mpr hpos
  simp [decr, UInt32.toNat_sub_of_le _ _ hle]

end RefHeap

structure Entry (Obs : Type) where
  observer : Obs
  deathRecipientRef : RefId
  isDescendants : Bool

abbrev Node (Obs : Type) := PathTrie String (Entry Obs)

abbrev ObsMap (Obs Uri : Type) [LinearOrder Obs] := SortedMap Obs (List Uri)

def obsNumMax : Nat := 50

structure Visit (Obs : Type) where
  ret : Bool
  refs : RefHeap
  node : Node Obs

section
variable {Obs Remote Uri : Type}

/-- `obsRes.try_emplace(entry.observer, ..).first->second.push_back(uri)` -/
def pushUri [LinearOrder Obs] (uri : Uri) (obsRes : ObsMap Obs Uri) (entry : Entry Obs) :
    ObsMap Obs Uri :=
  (obsRes.emplace entry.observer []).modify entry.observer (· ++ [uri])

def getObs [LinearOrder Obs] (uri : Uri) : List String → Node Obs → ObsMap Obs Uri → ObsMap Obs Uri
  | [], n, obsRes => n.entries.foldl (pushUri uri) obsRes
  | name :: path, n, obsRes =>
    let obsRes := n.entries.foldl
      (fun res e => if e.isDescendants then pushUri uri res e else res) obsRes
    match find? name n.children with
    | none => obsRes
    | some child => getObs uri path child obsRes

def addObserver (entry : Entry Obs) : List String → RefHeap → Node Obs → Visit Obs
  | [], refs, n =>
    if n.entries.length ≥ obsNumMax then ⟨false, refs, n⟩
    else ⟨true, refs.incr entry.deathRecipientRef, .node (n.entries ++ [entry]) n.children⟩
  | name :: path, refs, n =>
    let childrens := emplace name empty n.children
    let v := addObserver entry path refs ((find? name childrens).getD empty)
    ⟨v.ret, v.refs, .node n.entries (modify name (fun _ => v.node) childrens)⟩

variable [DecidableEq Remote] (asObject : Obs → Option Remote) (entry : Entry Obs)

def isOf (target : Option Remote) (entry : Entry Obs) : Bool := asObject entry.observer = target

/-- `entrys_.remove_if` with a lambda that drops one count for each entry it removes. -/
def removeEntrys (target : Option Remote) : List (Entry Obs) → RefHeap → RefHeap × List (Entry Obs)
  | [], refs => (refs, [])
  | e :: es, refs =>
    if isOf asObject target e then removeEntrys target es (refs.decr e.deathRecipientRef)
    else
      let (refs, es) := removeEntrys target es refs
      (refs, e :: es)

def removeObserver (dataObserver : Obs) : List String → RefHeap → Node Obs → Visit Obs
  | [], refs, n =>
    let (refs, es) := removeEntrys asObject (asObject dataObserver) n.entries refs
    ⟨es.isEmpty && n.children.isEmpty, refs, .node es n.children⟩
  | name :: path, refs, n =>
    match find? name n.children with
    | none => ⟨n.entries.isEmpty && n.children.isEmpty, refs, n⟩
    | some child =>
      let v := removeObserver dataObserver path refs child
      let childrens :=
        if v.ret then erase name n.children
          else modify name (fun _ => v.node) n.children
      ⟨n.entries.isEmpty && childrens.isEmpty, v.refs, .node n.entries childrens⟩

mutual

/-- `RemoveObserver(sptr<IRemoteObject>)`: the children first, then the node's own entries. -/
def removeRemote (dataObserver : Remote) : Node Obs → RefHeap → Visit Obs
  | .node entrys childrens, refs =>
    let (refs, cs) := removeRemoteChildren dataObserver childrens refs
    let (refs, es) := removeEntrys asObject (some dataObserver) entrys refs
    ⟨es.isEmpty && cs.isEmpty, refs, .node es cs⟩

def removeRemoteChildren (dataObserver : Remote) :
    List (String × Node Obs) → RefHeap → RefHeap × List (String × Node Obs)
  | [], refs => (refs, [])
  | (name, child) :: rest, refs =>
    let v := removeRemote dataObserver child refs
    let (refs, cs) := removeRemoteChildren dataObserver rest v.refs
    (refs, if v.ret then cs else (name, v.node) :: cs)

end
variable (dataObserver : Obs) (path : List String) (refs : RefHeap)

def release (es : List (Entry Obs)) : RefHeap :=
  es.foldl (fun h e => h.decr e.deathRecipientRef) refs

lemma release_append (es es' : List (Entry Obs)) :
    release refs (es ++ es') = release (release refs es) es' := foldl_append

lemma release_shared {id : RefId} {es : List (Entry Obs)} {refs : RefHeap}
    (hid : ∀ e ∈ es, e.deathRecipientRef = id) (hlen : es.length ≤ (refs.ref id).toNat) :
    ((release refs es).ref id).toNat = (refs.ref id).toNat - es.length ∧
      (∀ j, j ≠ id → (release refs es).ref j = refs.ref j) ∧
      (release refs es).next = refs.next ∧ (release refs es).wrapped = refs.wrapped := by
  induction es generalizing refs with
  | nil => exact ⟨rfl, fun _ _ => rfl, rfl, rfl⟩
  | cons e es ih =>
    have he : e.deathRecipientRef = id := hid e mem_cons_self
    have hpos : 1 ≤ (refs.ref id).toNat := le_trans (succ_le_of_lt (succ_pos _)) hlen
    have hdec := RefHeap.decr_ref_self hpos
    have hwrap : (refs.decr id).wrapped = refs.wrapped := by
      have hne : refs.ref id ≠ 0 := fun h0 => by simp [h0] at hpos
      simp [RefHeap.decr, hne]
    have hlen' : es.length ≤ ((refs.decr id).ref id).toNat := by
      rw [hdec]
      rw [length_cons] at hlen
      omega
    obtain ⟨h1, h2, h3, h4⟩ := ih (fun e' he' => hid e' (mem_cons_of_mem _ he')) hlen'
    have hcons : release refs (e :: es) = release (refs.decr id) es := by rw [← he]; rfl
    rw [hcons]
    refine ⟨?_, fun j hj => ?_, h3, h4.trans hwrap⟩
    · rw [h1, hdec, length_cons]
      omega
    · rw [h2 j hj, show (refs.decr id).ref j = _ from update_of_ne hj ..]

lemma removeEntrys_eq (target : Option Remote) (es : List (Entry Obs)) (refs : RefHeap) :
    removeEntrys asObject target es refs =
      (release refs (es.filter (isOf asObject target)),
        es.filter fun e => !isOf asObject target e) := by
  induction es generalizing refs with
  | nil => rfl
  | cons e es ih =>
    rw [removeEntrys]
    cases he : isOf asObject target e with
    | true => simp [he, ih, release]
    | false => simp [he, ih]

structure Removes (gone : List String × Entry Obs → Bool) (refs : RefHeap) (n : Node Obs)
    (v : Visit Obs) : Prop where
  toList : v.node.toList = n.toList.filter fun p => !gone p
  refs : v.refs = release refs ((n.toList.filter gone).map Prod.snd)
  ret : v.ret = v.node.isEmpty
  ordered : n.Ordered → v.node.Ordered

structure RemovesChildren (gone : List String × Entry Obs → Bool) (refs : RefHeap)
    (cs : List (String × Node Obs)) (out : RefHeap × List (String × Node Obs)) : Prop where
  forest : forest out.2 = (forest cs).filter fun p => !gone p
  refs : out.1 = release refs (((PathTrie.forest cs).filter gone).map Prod.snd)
  keys : (out.2.map Prod.fst).Sublist (cs.map Prod.fst)
  ordered : (∀ c ∈ cs, c.2.Ordered) → ∀ c ∈ out.2, c.2.Ordered

mutual

lemma removes_removeRemote (dataObserver : Remote) : ∀ (n : Node Obs) (refs : RefHeap),
    Removes (fun p => isOf asObject (some dataObserver) p.2) refs n
    (removeRemote asObject dataObserver n refs)
  | .node es cs, refs => by
    have hcs := removesChildren_removeRemote dataObserver cs refs
    simp only [removeRemote, removeEntrys_eq]
    refine ⟨?_, ?_, rfl, fun h => ?_⟩
    · rw [toList, toList, hcs.forest, filter_append, filter_map]
      rfl
    · rw [toList, hcs.refs, filter_append, map_append, release_append, filter_map, map_map]
      simp [comp_def]
    · have hkeys : (cs.map Prod.fst).Pairwise (· < ·) := pairwise_map.mpr h.sorted
      exact .intro (pairwise_map.mp (hkeys.sublist hcs.keys)) (hcs.ordered h.of_mem)

lemma removesChildren_removeRemote (dataObserver : Remote) :
    ∀ (cs : List (String × Node Obs)) (refs : RefHeap),
      RemovesChildren (fun p => isOf asObject (some dataObserver) p.2) refs cs
        (removeRemoteChildren asObject dataObserver cs refs)
  | [], refs => ⟨rfl, rfl, List.Sublist.refl _, nofun⟩
  | (name, child) :: rest, refs => by
    have hv := removes_removeRemote dataObserver child refs
    have hrest := removesChildren_removeRemote dataObserver rest
      (removeRemote asObject dataObserver child refs).refs
    have hunder : ((child.toList.map (under name)).filter fun p =>
        !isOf asObject (some dataObserver) p.2) =
        ((removeRemote asObject dataObserver child refs).node.toList.map (under name)) := by
      rw [hv.toList, filter_map]
      rfl
    simp only [removeRemoteChildren]
    refine ⟨?_, ?_, ?_, fun h => ?_⟩
    · rw [forest, filter_append, hunder, ← hrest.forest]
      split_ifs with hdead
      · rw [hv.ret] at hdead
        rw [toList_of_isEmpty hdead]
        rfl
      · rw [forest]
    · rw [forest, hrest.refs, hv.refs, filter_append, map_append, release_append,
        filter_map, map_map]
      rfl
    · split_ifs
      · exact hrest.keys.cons name
      · exact hrest.keys.cons_cons name
    · have hbelow := hrest.ordered fun c hc => h c (mem_cons_of_mem _ hc)
      split_ifs
      · exact hbelow
      · intro c hc
        rcases mem_cons.mp hc with rfl | hc
        · exact hv.ordered (h _ mem_cons_self)
        · exact hbelow c hc

end

def isOfAt (p : List String × Entry Obs) : Bool :=
  p.1 = path && isOf asObject (asObject dataObserver) p.2

lemma isOfAt_under (name : String) (p : List String × Entry Obs) :
    isOfAt asObject dataObserver (name :: path) (under name p) =
    isOfAt asObject dataObserver path p := by
  simp [isOfAt, under]

lemma isOfAt_forest_nil {cs : List (String × Node Obs)} {p : List String × Entry Obs}
    (hp : p ∈ forest cs) : isOfAt asObject dataObserver [] p = false := by
  obtain ⟨k, q, rfl⟩ := exists_under_of_mem_forest hp
  simp [isOfAt, under]

variable {n : Node Obs}

lemma removes_removeObserver (h : n.Ordered) : Removes (isOfAt asObject dataObserver path) refs n
    (removeObserver asObject dataObserver path refs n) := by
  induction path generalizing n with
  | nil =>
    obtain ⟨es, cs⟩ := n
    have hkeep : (forest cs).filter (fun p => !isOfAt asObject dataObserver [] p) =
        forest cs :=
      filter_eq_self.mpr fun p hp => by simp [isOfAt_forest_nil asObject dataObserver hp]
    have hnone : (forest cs).filter (isOfAt asObject dataObserver []) = [] :=
      filter_eq_nil_iff.mpr fun p hp => by simp [isOfAt_forest_nil asObject dataObserver hp]
    simp only [removeObserver, removeEntrys_eq, entries, children]
    refine ⟨?_, ?_, rfl, fun h => .intro h.sorted h.of_mem⟩
    · rw [toList, toList, filter_append, hkeep, filter_map]
      simp [isOfAt, comp_def]
    · rw [toList, filter_append, hnone, filter_map]
      simp [isOfAt, comp_def]
  | cons name path ih =>
    obtain ⟨es, cs⟩ := n
    have hne : ∀ k p, k ≠ name →
        isOfAt asObject dataObserver (name :: path) (under k p) = false :=
      fun k p hk => by simp [isOfAt, under, hk]
    have hown : (es.map fun e => ([], e)).filter
        (isOfAt asObject dataObserver (name :: path)) = [] := by
      simp [filter_map, isOfAt]
    have hkeep : (es.map fun e => ([], e)).filter
        (fun p => !isOfAt asObject dataObserver (name :: path) p) = es.map fun e => ([], e) := by
      simp [isOfAt]
    simp only [removeObserver, entries, children]
    cases hk : find? name cs with
    | none =>
      have habsent := find?_eq_none.mp hk
      refine ⟨?_, ?_, rfl, id⟩
      · rw [toList, filter_append, hkeep, filter_not_forest_of_ne hne habsent]
      · rw [toList, filter_append, hown, filter_forest_of_ne hne habsent]
        rfl
    | some child =>
      have hv := ih (h.child hk)
      have hkept : (removeObserver asObject dataObserver path refs child).node.toList =
          child.toList.filter fun p => !isOfAt asObject dataObserver (name :: path)
          (under name p) := by
        simpa [isOfAt_under] using hv.toList
      have hforest := forest_filter_not hne h.sorted hk hkept
      refine ⟨?_, ?_, rfl, fun _ => ?_⟩
      · rw [toList, toList, filter_append, hkeep, ← hforest, hv.ret]
      · rw [toList, filter_append, hown, filter_forest hne h.sorted, hk, hv.refs]
        simp only [isOfAt_under, append_nil, map_map]
        rfl
      · dsimp only
        split_ifs
        · exact h.erase
        · exact h.modify (hv.ordered (h.child hk))

lemma addObserver_full (h : n.Ordered) (hfull : obsNumMax ≤ (n.entriesAt path).length) :
    addObserver entry path refs n = ⟨false, refs, n⟩ := by
  induction path generalizing n with
  | nil => exact if_pos hfull
  | cons name path ih =>
    obtain ⟨es, cs⟩ := n
    rw [entriesAt_cons] at hfull
    cases hk : find? name cs with
    | none =>
      rw [hk, Option.getD_none, entriesAt_empty] at hfull
      simp [obsNumMax] at hfull
    | some child =>
      rw [hk] at hfull
      simp [addObserver, entries, children, emplace_of_mem h.sorted hk, hk,
        ih (h.child hk) hfull, modify_self h.sorted hk]

structure Adds (entry : Entry Obs) (path : List String) (refs : RefHeap) (n : Node Obs)
    (v : Visit Obs) : Prop where
  ret : v.ret = true
  refs : v.refs = refs.incr entry.deathRecipientRef
  toList : v.node.toList.Perm ((path, entry) :: n.toList)
  ordered : v.node.Ordered

lemma Adds.isEmpty {entry : Entry Obs} {path : List String} {refs : RefHeap} {v : Visit Obs}
    (h : Adds entry path refs n v) : v.node.isEmpty = false := by
  by_contra hempty
  have hnil := toList_of_isEmpty (Bool.not_eq_false _ ▸ hempty)
  have hperm := h.toList
  rw [hnil] at hperm
  exact absurd hperm.symm.eq_nil (cons_ne_nil _ _)

lemma addObserver_room (h : n.Ordered) (hroom : (n.entriesAt path).length < obsNumMax) :
    Adds entry path refs n (addObserver entry path refs n) ∧
      (n.Alive → (addObserver entry path refs n).node.Alive) := by
  induction path generalizing n with
  | nil =>
    obtain ⟨es, cs⟩ := n
    have hadd : addObserver entry [] refs (.node es cs) =
        ⟨true, refs.incr entry.deathRecipientRef, .node (es ++ [entry]) cs⟩ :=
        if_neg (not_le.mpr hroom)
    rw [hadd]
    refine ⟨⟨rfl, rfl, ?_, .intro h.sorted h.of_mem⟩,
      fun ha => alive_of_children _ fun c hc => ha.child hc⟩
    rw [toList, map_append, ← append_assoc]
    exact perm_append_singleton _ _
  | cons name path ih =>
    obtain ⟨es, cs⟩ := n
    rw [entriesAt_cons] at hroom
    obtain ⟨hv, halive⟩ := ih (h.find?_getD name) hroom
    simp only [addObserver, children, find?_emplace _ _ _ _ h.sorted]
    refine ⟨⟨hv.ret, hv.refs, ?_, (h.emplace ordered_empty).modify hv.ordered⟩,
      fun ha => .modify (fun p hp hne => ?_) ⟨hv.isEmpty, halive ha.find?_getD⟩⟩
    · exact (forest_insert_perm h.sorted hv.toList).append_right _
    · rcases mem_emplace hp with rfl | hp
      · exact absurd rfl hne
      · exact ha.child hp

lemma adds_addObserver (h : n.Ordered) (hroom : (n.entriesAt path).length < obsNumMax) :
    Adds entry path refs n (addObserver entry path refs n) :=
  (addObserver_room entry path refs h hroom).1

lemma ordered_addObserver (h : n.Ordered) : (addObserver entry path refs n).node.Ordered := by
  rcases lt_or_ge (n.entriesAt path).length obsNumMax with hroom | hfull
  · exact (adds_addObserver entry path refs h hroom).ordered
  · rw [addObserver_full entry path refs h hfull]
    exact h

lemma alive_addObserver
    (h : n.Ordered) (ha : n.Alive) : (addObserver entry path refs n).node.Alive := by
  rcases lt_or_ge (n.entriesAt path).length obsNumMax with hroom | hfull
  · exact (addObserver_room entry path refs h hroom).2 ha
  · rw [addObserver_full entry path refs h hfull]
    exact ha

lemma alive_removeObserver (h : n.Ordered) (ha : n.Alive) :
    (removeObserver asObject dataObserver path refs n).node.Alive := by
  induction path generalizing n with
  | nil =>
    obtain ⟨es, cs⟩ := n
    exact alive_of_children _ fun c hc => ha.child hc
  | cons name path ih =>
    obtain ⟨es, cs⟩ := n
    simp only [removeObserver, children]
    cases hk : find? name cs with
    | none => exact ha
    | some child =>
      have hmem := mem_of_find? hk
      have hret := (removes_removeObserver asObject dataObserver path refs (h.child hk)).ret
      dsimp only
      split_ifs with hdead
      · exact alive_of_children _ fun c hc => ha.child (mem_of_mem_filter hc)
      · rw [hret, Bool.not_eq_true] at hdead
        exact .modify (fun p hp _ => ha.child hp) ⟨hdead, ih (h.child hk) (ha.child hmem).2⟩

mutual

lemma alive_removeRemote (dataObserver : Remote) : ∀ (n : Node Obs) (refs : RefHeap),
    n.Alive → (removeRemote asObject dataObserver n refs).node.Alive
  | .node _ cs, refs, ha => alive_of_children _ fun c hc =>
    alive_removeRemoteChildren dataObserver cs refs (fun _ hc => (ha.child hc).2) c hc

lemma alive_removeRemoteChildren (dataObserver : Remote) :
    ∀ (cs : List (String × Node Obs)) (refs : RefHeap), (∀ c ∈ cs, c.2.Alive) →
      ∀ c ∈ (removeRemoteChildren asObject dataObserver cs refs).2, c.2.isEmpty = false ∧ c.2.Alive
  | [], _, _, _, hc => nomatch hc
  | (name, child) :: rest, refs, ha, c, hc => by
    have hv := (removes_removeRemote asObject dataObserver child refs).ret
    have hchild := alive_removeRemote dataObserver child refs (ha _ mem_cons_self)
    have hrest := alive_removeRemoteChildren dataObserver rest
      (removeRemote asObject dataObserver child refs).refs
      (fun c hc => ha c (mem_cons_of_mem _ hc)) c
    simp only [removeRemoteChildren] at hc
    split_ifs at hc with hdead
    · exact hrest hc
    · rw [hv, Bool.not_eq_true] at hdead
      rcases mem_cons.mp hc with rfl | hc
      · exact ⟨hdead, hchild⟩
      · exact hrest hc

end

lemma getObs_eq [LinearOrder Obs] (uri : Uri) (path : List String) (n : Node Obs)
    (obsRes : ObsMap Obs Uri) :
    getObs uri path n obsRes = (n.along Entry.isDescendants path).foldl (pushUri uri) obsRes := by
  induction path generalizing n obsRes with
  | nil => rfl
  | cons name path ih =>
    simp only [getObs, along, foldl_append, foldl_filter]
    cases find? name n.children with
    | none => rfl
    | some child => exact ih child _

def Holds [LinearOrder Obs] (obsRes : ObsMap Obs Uri) (uris : Obs → List Uri) : Prop :=
  ∀ o, obsRes.find? o = if uris o = [] then none else some (uris o)

lemma Holds.mem_entries [LinearOrder Obs] {obsRes : ObsMap Obs Uri} {uris : Obs → List Uri}
    (h : Holds obsRes uris) {p : Obs × List Uri} :
    p ∈ obsRes.entries ↔ uris p.1 ≠ [] ∧ uris p.1 = p.2 := by
  rw [SortedMap.mem_entries, h]
  split_ifs with hnil <;> simp [hnil]

lemma holds_empty [LinearOrder Obs] : Holds (SortedMap.empty : ObsMap Obs Uri) fun _ => [] :=
  fun _ => rfl

lemma holds_pushUri [LinearOrder Obs] {obsRes : ObsMap Obs Uri} {uris : Obs → List Uri}
    (h : Holds obsRes uris) (uri : Uri) (entry : Entry Obs) :
    Holds (pushUri uri obsRes entry) fun o => if entry.observer = o then uris o ++ [uri]
    else uris o := by
  intro o
  have hget : (obsRes.find? o).getD [] = uris o := by
    rw [h o]
    split_ifs with he
    · exact he.symm
    · rfl
  rw [pushUri, SortedMap.find?_modify, SortedMap.find?_emplace]
  by_cases ho : entry.observer = o
  · subst ho
    simp [hget]
  · simp only [if_neg ho]
    exact h o

lemma holds_foldl_pushUri [LinearOrder Obs] {obsRes : ObsMap Obs Uri} {uris : Obs → List Uri}
    (h : Holds obsRes uris) (uri : Uri) (es : List (Entry Obs)) :
    Holds (es.foldl (pushUri uri) obsRes) fun o =>
      uris o ++ List.replicate (es.countP fun e => e.observer = o) uri := by
  induction es generalizing obsRes uris with
  | nil => simpa using h
  | cons e es ih =>
    have hrest := ih (holds_pushUri h uri e)
    have hsame : (fun o => (if e.observer = o then uris o ++ [uri] else uris o) ++
        replicate (es.countP fun e => e.observer = o) uri) =
        fun o => uris o ++ replicate ((e :: es).countP fun e => e.observer = o) uri := by
      funext o
      by_cases ho : e.observer = o
      · simp [ho, replicate_succ]
      · simp [ho]
    rwa [hsame] at hrest

end
end AbilityRuntime.DataObs
