import AbilityRuntime.Library.Kahn
import AbilityRuntime.Startup.Task

/-! `StartupTopologySort`: the first pass counts dependencies and collects children, the second
works off the tasks that are ready. -/

namespace AbilityRuntime.Startup
open Relation List SortedMap TaskMap StartupTask UInt32

structure StartupSortResult where
  zeroDequeResult : List String
  startupChildrenMap : SortedMap String (List String)
deriving DecidableEq

structure StartupTaskDispatcher where
  tasks : TaskMap
  sortResult : Option StartupSortResult

structure SortState where
  inDegreeMap : SortedMap String UInt32
  zeroDeque : List String
  mainStartupCount : UInt32
  threadStartupCount : UInt32
  result : StartupSortResult

namespace StartupTopologySort

def start : SortState := ⟨.empty, [], 0, 0, ⟨[], .empty⟩⟩

variable (startupMap : TaskMap) (children : SortedMap String (List String))

/-- The loop of `SortZeroDeque` over the dependencies of the task `key`. -/
def addToParents (key : String) (dependencies : List String)
    (children : SortedMap String (List String)) : Except Int32 (SortedMap String (List String)) :=
  dependencies.foldlM (fun children parentName =>
    if startupMap.contains parentName then .ok (children.update parentName [] (· ++ [key]))
    else .error errStartupDependencyNotFound) children

def sortZeroDeque (startup : StartupTask) (startupMap : TaskMap) (s : SortState) :
    Except Int32 SortState :=
  let key := startup.name
  if s.inDegreeMap.contains key then .error errStartupInternalError
  else
    let inDegreeMap := s.inDegreeMap.emplace key startup.getDependenciesCount
    if startup.dependencies.isEmpty then
      .ok { s with
        inDegreeMap
        zeroDeque := s.zeroDeque ++ [key]
        result := { s.result with zeroDequeResult := s.result.zeroDequeResult ++ [key] } }
    else
      (addToParents startupMap key startup.dependencies s.result.startupChildrenMap).map
      fun children =>
        { s with inDegreeMap, result := { s.result with startupChildrenMap := children } }

def sortZeroDeques (entries : List (String × Option StartupTask))
    (s : SortState) : Except Int32 SortState :=
  entries.foldlM (fun s iter =>
    match iter.2 with
    | none => .error errStartupInternalError
    | some startup => sortZeroDeque startup startupMap s) s

def visitChild (s : SortState) (child : String) : SortState :=
  let inDegreeMap := s.inDegreeMap.update child 0 (· - 1)
  { s with
    inDegreeMap
    zeroDeque := if (inDegreeMap.find? child).getD 0 = 0 then s.zeroDeque ++ [child]
      else s.zeroDeque }

/-- The body of the second loop, for a `key` that was taken off the queue and found. -/
def visitKey (startup : StartupTask) (key : String) (s : SortState) : SortState :=
  let startupChildrenMap := s.result.startupChildrenMap.emplace key []
  ((startupChildrenMap.find? key).getD []).foldl visitChild { s with
    mainStartupCount := if startup.callCreateOnMainThread then s.mainStartupCount + 1
      else s.mainStartupCount
    threadStartupCount := if startup.callCreateOnMainThread then s.threadStartupCount
      else s.threadStartupCount + 1
    result := { s.result with startupChildrenMap } }

/-- The second loop, where `none` is a loop that still runs after `fuel` rounds. The keys in the
queue have tasks that the first loop found not to be null. -/
def sortLoop (startupMap : TaskMap) (fuel : Nat) (s : SortState) :
    Option (Except Int32 SortState) :=
  match s.zeroDeque, fuel with
  | [], _ => some (.ok s)
  | _ :: _, 0 => none
  | key :: zeroDeque, fuel + 1 =>
    match startupMap.find? key with
    | some (some startup) => sortLoop startupMap fuel (visitKey startup key { s with zeroDeque })
    | _ => some (.error errStartupInternalError)

def sort : Option (Except Int32 StartupSortResult) :=
  match sortZeroDeques startupMap startupMap.entries start with
  | .error e => some (.error e)
  | .ok s => (sortLoop startupMap startupMap.size s).map fun r => r.bind fun s =>
    if (s.mainStartupCount + s.threadStartupCount).toNat ≠ startupMap.size then
      .error errStartupCircularDependency
    else .ok s.result

def childrenOf (tasks : List StartupTask) (parent : String) : List String :=
  tasks.flatMap fun t => List.replicate (t.dependencies.count parent) t.name

def childrenAt (parent : String) : List String :=
  (children.find? parent).getD []

def degree (s : SortState) (name : String) : ℕ := ((s.inDegreeMap.find? name).getD 0).toNat

variable {m : TaskMap} {s : SortState}

lemma childrenAt_update (parent key p : String) :
    childrenAt (children.update parent [] (· ++ [key])) p =
      childrenAt children p ++ List.replicate (if parent = p then 1 else 0) key := by
  rw [childrenAt, childrenAt, find?_update]
  by_cases hp : parent = p
  · subst hp
    simp
  · simp [hp]

lemma childrenAt_emplace_nil (key p : String) :
    childrenAt (children.emplace key []) p = childrenAt children p := by
  rw [childrenAt, find?_emplace]
  split_ifs with hp
  · rw [hp]
    rfl
  · rfl

variable {dependencies : List String}

lemma addToParents_found (key : String) (hdeps : ∀ d ∈ dependencies, m.contains d = true)
    (children : SortedMap String (List String)) :
    ∃ children', addToParents m key dependencies children = .ok children' ∧
      ∀ p, childrenAt children' p = childrenAt children p ++
      List.replicate (dependencies.count p) key := by
  induction dependencies generalizing children with
  | nil => exact ⟨children, rfl, fun p => (append_nil _).symm⟩
  | cons d ds ih =>
    have hd : m.contains d = true := hdeps d mem_cons_self
    obtain ⟨children', hrun, hchildren⟩ := ih (fun d' hd' => hdeps d' (mem_cons_of_mem _ hd'))
      (children.update d [] (· ++ [key]))
    refine ⟨children', ?_, fun p => ?_⟩
    · rw [addToParents, foldlM_cons, if_pos hd]
      exact hrun
    · rw [hchildren, childrenAt_update, append_assoc, replicate_append_replicate,
        count_cons, Nat.add_comm]
      simp

lemma addToParents_missing (key : String) (hdeps : ∃ d ∈ dependencies, m.contains d = false)
    (children : SortedMap String (List String)) :
    addToParents m key dependencies children = .error errStartupDependencyNotFound := by
  induction dependencies generalizing children with
  | nil => simp at hdeps
  | cons d ds ih =>
    rw [addToParents, foldlM_cons]
    cases hd : m.contains d with
    | false => rfl
    | true =>
      obtain ⟨d', hd', hmissing⟩ := hdeps
      have htail : d' ∈ ds := by
        rcases mem_cons.mp hd' with rfl | hd'
        · simp [hd] at hmissing
        · exact hd'
      exact ih ⟨d', htail, hmissing⟩ (children.update d [] (· ++ [key]))

structure Collected (done : List StartupTask) (s : SortState) : Prop where
  inDegree : ∀ t ∈ done, s.inDegreeMap.find? t.name = some t.getDependenciesCount
  fresh : ∀ name, name ∉ done.map StartupTask.name → s.inDegreeMap.find? name = none
  zeroDeque : s.zeroDeque = (done.filter (·.dependencies.isEmpty)).map name
  zeroDequeResult : s.result.zeroDequeResult = s.zeroDeque
  children : ∀ p, childrenAt s.result.startupChildrenMap p = childrenOf done p
  uncounted : s.mainStartupCount = 0 ∧ s.threadStartupCount = 0

lemma collected_start : Collected [] start := by
  refine ⟨?_, ?_, rfl, rfl, ?_, rfl, rfl⟩
  · simp
  · intro name _
    rfl
  · intro p
    rfl

lemma childrenOf_concat (done : List StartupTask) (t : StartupTask) (p : String) :
    childrenOf (done ++ [t]) p = childrenOf done p ++
    List.replicate (t.dependencies.count p) t.name := by
  simp [childrenOf]

variable {done : List StartupTask}

lemma Collected.sortZeroDeque_found {t : StartupTask} (h : Collected done s)
    (ht : t.name ∉ done.map name) (hdeps : ∀ d ∈ t.dependencies, m.contains d = true) :
    ∃ s', sortZeroDeque t m s = .ok s' ∧ Collected (done ++ [t]) s' := by
  have hnew : s.inDegreeMap.find? t.name = none := h.fresh t.name ht
  have hcontains : s.inDegreeMap.contains t.name = false := contains_eq_false.mpr hnew
  have hdegree : ∀ t' ∈ done ++ [t],
      (s.inDegreeMap.emplace t.name t.getDependenciesCount).find? t'.name =
      some t'.getDependenciesCount := by
    intro t' ht'
    rw [find?_emplace, hnew]
    rcases mem_append.mp ht' with hdone | hself
    · have hne : t.name ≠ t'.name := fun he => ht (he ▸ mem_map_of_mem hdone)
      rw [if_neg hne, h.inDegree t' hdone]
    · rw [mem_singleton.mp hself, if_pos rfl]
      rfl
  have hfresh : ∀ name, name ∉ (done ++ [t]).map StartupTask.name →
      (s.inDegreeMap.emplace t.name t.getDependenciesCount).find? name = none := by
    intro name hname
    rw [map_append, mem_append, not_or, map_singleton, mem_singleton] at hname
    rw [find?_emplace, if_neg (Ne.symm hname.2), h.fresh name hname.1]
  cases hempty : t.dependencies.isEmpty with
  | true =>
    have hrun : sortZeroDeque t m s = .ok { s with
        inDegreeMap := s.inDegreeMap.emplace t.name t.getDependenciesCount
        zeroDeque := s.zeroDeque ++ [t.name]
        result := { s.result with zeroDequeResult := s.result.zeroDequeResult ++ [t.name] } } := by
      simp [sortZeroDeque, hcontains, hempty]
    refine ⟨_, hrun, hdegree, hfresh, ?_, ?_, ?_, h.uncounted⟩
    · simp [h.zeroDeque, hempty]
    · simp [h.zeroDequeResult]
    · intro p
      rw [childrenOf_concat, isEmpty_iff.mp hempty]
      simpa using h.children p
  | false =>
    obtain ⟨children, hadd, hchildren⟩ :=
      addToParents_found t.name hdeps s.result.startupChildrenMap
    have hrun : sortZeroDeque t m s = .ok { s with
        inDegreeMap := s.inDegreeMap.emplace t.name t.getDependenciesCount
        result := { s.result with startupChildrenMap := children } } := by
      simp [sortZeroDeque, hcontains, hempty, hadd, Except.map]
    refine ⟨_, hrun, hdegree, hfresh, ?_, ?_, ?_, h.uncounted⟩
    · simp [h.zeroDeque, hempty]
    · exact h.zeroDequeResult
    · intro p
      rw [childrenOf_concat, ← h.children p]
      exact hchildren p

lemma Collected.sortZeroDeque_missing {t : StartupTask} (h : Collected done s)
    (ht : t.name ∉ done.map name) (hdeps : ∃ d ∈ t.dependencies, m.contains d = false) :
    sortZeroDeque t m s = .error errStartupDependencyNotFound := by
  have hcontains : s.inDegreeMap.contains t.name = false :=
    contains_eq_false.mpr (h.fresh t.name ht)
  have hempty : t.dependencies.isEmpty = false := by
    obtain ⟨d, hd, -⟩ := hdeps
    simpa using ne_nil_of_mem hd
  have hrun := addToParents_missing t.name hdeps s.result.startupChildrenMap
  simp only [sortZeroDeque, hcontains, hempty, hrun]
  rfl

lemma Collected.sortZeroDeques {l : List StartupTask} (h : Collected done s)
    (hnodup : ((done ++ l).map name).Nodup) :
    (∃ t ∈ l, ∃ d ∈ t.dependencies, m.contains d = false) ∧
        sortZeroDeques m (l.map fun t => (t.name, some t)) s = .error errStartupDependencyNotFound ∨
      (∀ t ∈ l, ∀ d ∈ t.dependencies, m.contains d = true) ∧
        ∃ s', sortZeroDeques m (l.map fun t => (t.name, some t)) s = .ok s' ∧
        Collected (done ++ l) s' := by
  induction l generalizing done s with
  | nil => exact .inr ⟨by simp, s, rfl, by rwa [append_nil]⟩
  | cons t l ih =>
    have ht : t.name ∉ done.map name := by
      rw [map_append] at hnodup
      exact fun hmem => (nodup_append.mp hnodup).2.2 _ hmem _ mem_cons_self rfl
    rw [map_cons, StartupTopologySort.sortZeroDeques, foldlM_cons]
    dsimp only
    by_cases hdeps : ∀ d ∈ t.dependencies, m.contains d = true
    · obtain ⟨s', hrun, hs'⟩ := h.sortZeroDeque_found ht hdeps
      have hsplit : done ++ t :: l = done ++ [t] ++ l := by simp
      rw [hsplit] at hnodup ⊢
      rw [hrun]
      rcases ih hs' hnodup with ⟨⟨t', ht', hmissing⟩, herr⟩ | ⟨hall, hok⟩
      · exact .inl ⟨⟨t', mem_cons_of_mem _ ht', hmissing⟩, herr⟩
      · exact .inr ⟨forall_mem_cons.mpr ⟨hdeps, hall⟩, hok⟩
    · have hmissing : ∃ d ∈ t.dependencies, m.contains d = false := by simpa using hdeps
      rw [h.sortZeroDeque_missing ht hmissing]
      exact .inl ⟨⟨t, mem_cons_self, hmissing⟩, rfl⟩

section Loop

lemma count_childrenOf (hw : m.Named) {name parent : String} :
    (childrenOf m.tasks parent).count name = (m.deps name).count parent := by
  have hcount : ∀ l : List StartupTask, (l.map StartupTask.name).Nodup →
      (∀ t ∈ l, m.deps t.name = t.dependencies) →
      (childrenOf l parent).count name = if name ∈ l.map StartupTask.name then (m.deps name).count
      parent else 0 := by
    intro l
    induction l with
    | nil => simp [childrenOf]
    | cons t l ih =>
      intro hnodup hdeps
      rw [map_cons, nodup_cons] at hnodup
      have hrest := ih hnodup.2 fun t' ht' => hdeps t' (mem_cons_of_mem _ ht')
      have hself := hdeps t mem_cons_self
      simp only [childrenOf, flatMap_cons, count_append, count_replicate] at hrest ⊢
      rw [hrest]
      by_cases hname : t.name = name
      · subst hname
        simp [hnodup.1, hself]
      · simp [hname, Ne.symm hname]
  rw [hcount m.tasks (keys_eq hw ▸ m.nodup_keys) fun t ht => deps_name hw ht, ← keys_eq hw]
  split_ifs with hname
  · rfl
  · have hnone : m.deps name = [] := by
      rw [SortedMap.mem_keys, Bool.not_eq_true] at hname
      rw [deps, contains_eq_false.mp hname]
    rw [hnone, count_nil]

lemma contains_of_mem_childrenOf (hw : m.Named) {name parent : String}
    (h : name ∈ childrenOf m.tasks parent) : m.contains name = true := by
  have hpos := count_pos_iff.mpr h
  rw [count_childrenOf hw, count_pos_iff] at hpos
  exact contains_of_mem_deps hpos

structure LoopInv (m : TaskMap) (s : SortState) (done rest : List String) : Prop where
  frontier : Kahn.Frontier m.keys m.deps (degree s) s.zeroDeque done rest
  counted : s.mainStartupCount + s.threadStartupCount = UInt32.ofNat done.length
  children : ∀ p, childrenAt s.result.startupChildrenMap p = childrenOf m.tasks p
  visited : ∀ name ∈ done, s.result.startupChildrenMap.contains name = true
  zeroDequeResult : s.result.zeroDequeResult = (m.tasks.filter (·.dependencies.isEmpty)).map
    name

lemma Collected.loopInv (hw : m.Named) (hc : m.CountsFit) (h : Collected m.tasks s) :
    LoopInv m s [] [] where
  frontier := by
    refine .init m.nodup_keys ?_ ?_
    · intro name hname
      rw [keys_eq hw] at hname
      obtain ⟨t, ht, rfl⟩ := mem_map.mp hname
      rw [degree, h.inDegree t ht, deps_name hw ht]
      exact toNat_getDependenciesCount (hc t ht)
    · have hkeep : ∀ t ∈ m.tasks, (m.deps t.name).isEmpty = t.dependencies.isEmpty :=
        fun t ht => by rw [deps_name hw ht]
      rw [h.zeroDeque, keys_eq hw, filter_map]
      exact congrArg _ (filter_congr fun t ht => (hkeep t ht).symm)
  counted := by
    rw [h.uncounted.1, h.uncounted.2]
    rfl
  __ := h
  visited := by simp
  zeroDequeResult := h.zeroDequeResult.trans h.zeroDeque

lemma degree_visitChild_self (s : SortState) (child : String) (hpos : 0 < degree s child) :
    degree (visitChild s child) child = degree s child - 1 := by
  have hle : 1 ≤ (s.inDegreeMap.find? child).getD 0 := le_iff_toNat_le.mpr hpos
  rw [degree, visitChild, find?_update, if_pos rfl, Option.getD_some,
    UInt32.toNat_sub_of_le _ _ hle]
  rfl

lemma degree_visitChild_of_ne (s : SortState) {child name : String} (hne : name ≠ child) :
    degree (visitChild s child) name = degree s name := by
  rw [degree, visitChild, find?_update, if_neg (Ne.symm hne)]
  rfl

lemma zeroDeque_visitChild (s : SortState) (child : String) : (visitChild s child).zeroDeque =
      if degree (visitChild s child) child = 0 then s.zeroDeque ++ [child] else s.zeroDeque := by
  have hzero : degree (visitChild s child) child = 0 ↔
      ((s.inDegreeMap.update child 0 (· - 1)).find? child).getD 0 = 0 := UInt32.toNat_inj (b := 0)
  simp only [hzero]
  rfl

protected lemma LoopInv.visitChild {done rest : List String} {child : String}
    (h : LoopInv m s done (child :: rest))
    (hchild : m.contains child = true) : LoopInv m (visitChild s child) done rest where
  frontier := by
    have hmem : child ∈ m.keys := mem_keys.mpr hchild
    rw [zeroDeque_visitChild]
    exact h.frontier.visit hmem (degree_visitChild_self s child (h.frontier.pos hmem))
      fun name hne => degree_visitChild_of_ne s hne
  __ := h

lemma LoopInv.visitChildren {done rest : List String} (h : LoopInv m s done rest)
    (hrest : ∀ child ∈ rest, m.contains child = true) :
    LoopInv m (rest.foldl visitChild s) done [] := by
  induction rest generalizing s with
  | nil => exact h
  | cons child rest ih =>
    exact ih (h.visitChild (hrest child mem_cons_self)) fun c hc => hrest c (mem_cons_of_mem _ hc)

protected lemma LoopInv.visitKey (hw : m.Named) {done zeroDeque : List String} {key : String}
    (t : StartupTask) (h : LoopInv m s done []) (hq : s.zeroDeque = key :: zeroDeque) :
    LoopInv m (visitKey t key { s with zeroDeque }) (done ++ [key]) [] := by
  have hchildren : childrenAt (s.result.startupChildrenMap.emplace key []) key =
      childrenOf m.tasks key := by
    rw [childrenAt_emplace_nil, h.children]
  have hcontains : ∀ child ∈ childrenOf m.tasks key, m.contains child = true :=
    fun child => contains_of_mem_childrenOf hw
  have hone : ofNat (done ++ [key]).length = ofNat done.length + 1 := by
    rw [length_append, ofNat_add]
    rfl
  rw [visitKey, ← childrenAt, hchildren]
  refine .visitChildren ⟨?_, ?_, ?_, ?_, h.zeroDequeResult⟩ hcontains
  · have hfrontier := h.frontier
    rw [hq] at hfrontier
    rw [← append_nil (childrenOf m.tasks key)]
    exact hfrontier.pop fun name _ => count_childrenOf hw
  · rw [hone, ← h.counted]
    cases t.callCreateOnMainThread
    · exact (UInt32.add_assoc _ _ _).symm
    · change s.mainStartupCount + 1 + s.threadStartupCount = _
      rw [UInt32.add_assoc, UInt32.add_comm 1, ← UInt32.add_assoc]
  · intro p
    rw [← h.children p]
    exact childrenAt_emplace_nil _ _ _
  · intro name hname
    rw [SortedMap.contains_iff, find?_emplace]
    split_ifs with hkey
    · exact ⟨_, rfl⟩
    · rw [mem_append, mem_singleton, or_iff_left (Ne.symm hkey)] at hname
      exact contains_iff.mp (h.visited name hname)

lemma sortLoop_nil {fuel : ℕ} (hq : s.zeroDeque = []) : sortLoop m fuel s = some (.ok s) := by
  unfold sortLoop
  rw [hq]

lemma LoopInv.sortLoop (hw : m.Named) {fuel : ℕ} {done : List String}
    (h : LoopInv m s done []) (hfuel : m.size ≤ done.length + fuel) :
    ∃ s' done', sortLoop m fuel s = some (.ok s') ∧ LoopInv m s' done' [] ∧ s'.zeroDeque = [] := by
  induction fuel generalizing s done with
  | zero =>
    have hlen := h.frontier.length_le
    rw [length_keys] at hlen
    have hnil : s.zeroDeque = [] := eq_nil_of_length_eq_zero (by omega)
    exact ⟨s, done, sortLoop_nil hnil, h, hnil⟩
  | succ fuel ih =>
    cases hq : s.zeroDeque with
    | nil => exact ⟨s, done, sortLoop_nil hq, h, hq⟩
    | cons key zeroDeque =>
      have hkey : key ∈ m.keys := h.frontier.mem key (by simp [hq])
      obtain ⟨t, ht, rfl⟩ := exists_task hw (mem_keys.mp hkey)
      have hfind := (mem_tasks hw).mp ht
      have hnext := h.visitKey hw t hq
      have hlen : m.size ≤ (done ++ [t.name]).length + fuel := by
        rw [length_append, length_singleton]
        omega
      rw [StartupTopologySort.sortLoop.eq_def]
      simpa only [hq, hfind] using ih hnext hlen

end Loop

structure Sorted (m : TaskMap) (r : StartupSortResult) : Prop where
  zeroDequeResult : r.zeroDequeResult = (m.tasks.filter (·.dependencies.isEmpty)).map
    name
  contains : ∀ name, m.contains name = true → r.startupChildrenMap.contains name = true
  children : ∀ p, childrenAt r.startupChildrenMap p = childrenOf m.tasks p

lemma sort_missing (hw : m.Named) {a b : String} (hab : m.DependsOn a b)
    (hb : m.contains b = false) : sort m = some (.error errStartupDependencyNotFound) := by
  obtain ⟨t, ht, hname⟩ := exists_task hw (contains_of_mem_deps hab)
  have hdep : b ∈ t.dependencies := by
    rw [← deps_name hw ht, hname]
    exact hab
  have hnodup : (([] ++ m.tasks).map name).Nodup := keys_eq hw ▸ m.nodup_keys
  rcases collected_start.sortZeroDeques hnodup with ⟨-, herr⟩ | ⟨hall, -⟩
  · rw [sort, entries_eq hw, herr]
  · rw [hall t ht b hdep] at hb
    exact absurd hb (by decide)

theorem sort_closed (hw : m.Named) (hc : m.CountsFit)
    (hclosed : ∀ a b, m.DependsOn a b → m.contains b = true) :
    (m.size < 2 ^ 32 ∧ m.Acyclic) ∧ (∃ r, sort m = some (.ok r) ∧ Sorted m r) ∨
      ¬ (m.size < 2 ^ 32 ∧ m.Acyclic) ∧ sort m = some (.error errStartupCircularDependency) := by
  have hnodup : (([] ++ m.tasks).map name).Nodup := keys_eq hw ▸ m.nodup_keys
  rcases collected_start.sortZeroDeques hnodup with
    ⟨⟨t, ht, d, hd, hmissing⟩, -⟩ | ⟨-, s, hcollect, hs⟩
  · rw [← deps_name hw ht] at hd
    rw [hclosed t.name d hd] at hmissing
    exact absurd hmissing (by decide)
  obtain ⟨s', done, hloop, hinv, hend⟩ :=
    (hs.loopInv hw hc).sortLoop hw (Nat.le_add_left m.size _)
  have hfrontier := hinv.frontier
  rw [hend] at hfrontier
  have hle : done.length ≤ m.size := length_keys m ▸ hfrontier.length_le
  have hacyclic : done.length = m.size ↔ m.Acyclic := by
    rw [← length_keys, hfrontier.length_eq_iff m.nodup_keys fun a _ b hab =>
      mem_keys.mpr (hclosed a b hab)]
    refine ⟨fun h name hcycle => ?_, fun h name _ => h name⟩
    obtain ⟨b, hb, -⟩ := TransGen.head'_iff.mp hcycle
    exact h name (mem_keys.mpr (contains_of_mem_deps hb)) hcycle
  have hcount : (s'.mainStartupCount + s'.threadStartupCount).toNat = m.size ↔
      m.size < 2 ^ 32 ∧ m.Acyclic := by
    rw [hinv.counted, ← hacyclic, toNat_ofNat']
    omega
  have hsort : sort m = some
      (if (s'.mainStartupCount + s'.threadStartupCount).toNat ≠ m.size then
        .error errStartupCircularDependency else .ok s'.result) := by
    rw [sort, entries_eq hw, hcollect]
    simp only [hloop, Option.map_some, Except.bind]
  by_cases hlen : (s'.mainStartupCount + s'.threadStartupCount).toNat = m.size
  · refine .inl ⟨hcount.mp hlen, s'.result, by rw [hsort, if_neg (not_not.mpr hlen)], ?_⟩
    have hperm : done.Perm m.keys :=
      (List.Nodup.subperm (by simpa using hfrontier.nodup) fun n hn =>
      hfrontier.mem n (by simpa using hn)).perm_of_length_le
      (by rw [length_keys]; exact (hacyclic.mpr (hcount.mp hlen).2).ge)
    exact { hinv with contains := fun name hname => hinv.visited name (hperm.mem_iff.mpr
      (mem_keys.mpr hname)) }
  · exact .inr ⟨fun h => hlen (hcount.mpr h), by rw [hsort, if_pos hlen]⟩

theorem sort_ok (hw : m.Named) (hc : m.CountsFit) {r : StartupSortResult}
    (h : sort m = some (.ok r)) :
    Sorted m r ∧ m.Acyclic ∧ ∀ a b, m.DependsOn a b → m.contains b = true := by
  by_cases hclosed : ∀ a b, m.DependsOn a b → m.contains b = true
  · rcases sort_closed hw hc hclosed with ⟨⟨-, hacyclic⟩, r', hr', hsorted⟩ | ⟨-, herr⟩
    · obtain rfl := Except.ok.inj (Option.some.inj (h.symm.trans hr'))
      exact ⟨hsorted, hacyclic, hclosed⟩
    · exact absurd (h.symm.trans herr) (by simp)
  · push Not at hclosed
    obtain ⟨a, b, hab, hb⟩ := hclosed
    exact absurd (h.symm.trans (sort_missing hw hab (by simpa using hb))) (by simp)

structure Decides (m : TaskMap) : Prop where
  missing : sort m = some (.error errStartupDependencyNotFound) ↔
    ∃ a b, m.DependsOn a b ∧ m.contains b = false
  closed : (∀ a b, m.DependsOn a b → m.contains b = true) →
    ((∃ r, sort m = some (.ok r)) ↔ m.Acyclic) ∧
      (¬ m.Acyclic → sort m = some (.error errStartupCircularDependency))
  ok : ∀ r, sort m = some (.ok r) → Sorted m r ∧
    ∀ p c, (childrenAt r.startupChildrenMap p).count c = (m.deps c).count p

theorem sort_decides_iff (hw : m.Named) (hc : m.CountsFit) : Decides m ↔
    ¬ (2 ^ 32 ≤ m.size ∧ (∀ a b, m.DependsOn a b → m.contains b = true) ∧ m.Acyclic) := by
  constructor
  · rintro h ⟨hsize, hclosed, hacyclic⟩
    obtain ⟨r, hr⟩ := (h.closed hclosed).1.mpr hacyclic
    rcases sort_closed hw hc hclosed with ⟨⟨hlt, -⟩, -⟩ | ⟨-, herr⟩
    · exact absurd hsize (Nat.not_le.mpr hlt)
    · exact absurd (hr.symm.trans herr) (by simp)
  · intro h
    refine ⟨⟨fun herr => ?_, fun ⟨a, b, hab, hb⟩ => sort_missing hw hab hb⟩, fun hclosed => ?_,
      fun r hr => ?_⟩
    · by_contra hall
      push Not at hall
      rcases sort_closed hw hc fun a b hab => by simpa using hall a b hab with
        ⟨-, r, hr, -⟩ | ⟨-, hr⟩ <;> exact absurd (herr.symm.trans hr) (by simp +decide)
    · rcases sort_closed hw hc hclosed with ⟨⟨-, hacyclic⟩, r, hr, -⟩ | ⟨hcycle, hr⟩
      · exact ⟨⟨fun _ => hacyclic, fun _ => ⟨r, hr⟩⟩, fun h => absurd hacyclic h⟩
      · refine ⟨⟨fun ⟨r, hok⟩ => absurd (hok.symm.trans hr) (by simp), fun hacyclic => ?_⟩,
          fun _ => hr⟩
        exact absurd ⟨Nat.not_le.mp fun hsize => h ⟨hsize, hclosed, hacyclic⟩, hacyclic⟩ hcycle
    · obtain ⟨hsorted, -⟩ := sort_ok hw hc hr
      exact ⟨hsorted, fun p c => by rw [hsorted.children, count_childrenOf hw]⟩

def pairTasks : TaskMap :=
  (SortedMap.empty.emplace "a" (some { name := "a", dependencies := ["b", "b"] })).emplace
    "b" (some { name := "b", dependencies := [] })

theorem pairTasks_decided : pairTasks.Named ∧ pairTasks.CountsFit ∧ Decides pairTasks := by
  have hw : pairTasks.Named := by decide
  have hc : pairTasks.CountsFit := by decide
  refine ⟨hw, hc, (sort_decides_iff hw hc).mpr fun h => ?_⟩
  exact absurd h.1 (by decide)

lemma exists_many : ∃ m : TaskMap, m.Named ∧ m.CountsFit ∧ (∀ a b, ¬ m.DependsOn a b) ∧
    m.size = 2 ^ 32 := by
  obtain ⟨m, hsize, hm⟩ := exists_size_eq
    (fun name => some (⟨name, [], true, true⟩ : StartupTask)) (2 ^ 32)
  have hnone {name : String} {t : StartupTask} (ht : (name, some t) ∈ m.entries) :
      t.dependencies = [] := by
    rw [Option.some.inj (hm _ ht)]
  refine ⟨m, fun p hp => by rw [hm p hp]; rfl, fun t ht => ?_, fun a b hab => ?_, hsize⟩
  · obtain ⟨p, hp, hpt⟩ := mem_filterMap.mp ht
    rw [@hnone p.1 t (hpt ▸ hp)]
    exact Nat.two_pow_pos 32
  · obtain ⟨t, ht, hb⟩ := find?_of_mem_deps hab
    rw [hnone (mem_entries.mpr ht)] at hb
    exact not_mem_nil hb

theorem tooMany_not_sorted : ∃ m : TaskMap, m.Named ∧ m.CountsFit ∧ (∀ a b, ¬ m.DependsOn a b) ∧
    ∀ r, sort m ≠ some (.ok r) := by
  obtain ⟨m, hw, hc, hnone, hsize⟩ := exists_many
  refine ⟨m, hw, hc, hnone, fun r hr => ?_⟩
  rcases sort_closed hw hc fun a b hab => absurd hab (hnone a b) with ⟨⟨hlt, -⟩, -⟩ | ⟨-, herr⟩
  · exact absurd hlt (hsize ▸ lt_irrefl _)
  · exact absurd (hr.symm.trans herr) (by simp)

end StartupTopologySort
end AbilityRuntime.Startup
