import Mathlib.Data.Set.Card
import AbilityRuntime.Startup.TopologySort

/-! `StartupManager` and the first half of `StartupTaskManager`: building the task map of a run, and
preparing it. The builder drops the error of a walk that meets an unregistered name, which the sort
then reports. -/

namespace AbilityRuntime.Startup
open Relation List SortedMap Option TaskMap StartupTopologySort

structure StartupTaskManager (Config : Type) where
  startupTaskManagerId : Fin (2 ^ 32)
  tasks : TaskMap
  config : Option Config
  dispatcher : Option StartupTaskDispatcher

/-- The singleton. Of the managers in `startupTaskManagerMap_` only the identifiers are ever read;
`listenerCalls` are the results handed to the listeners of the configurations. -/
structure StartupManager (Config : Type) where
  startupTasks : TaskMap
  startupTaskManagerId : Fin (2 ^ 32)
  startupTaskManagerMap : SortedMap (Fin (2 ^ 32)) Unit
  defaultConfig : Option Config
  listenerCalls : List (Config × StartupTaskResult)

namespace StartupManager
variable {Config : Type} (taskMap : TaskMap) (s : StartupManager Config) (startupTasks : TaskMap)
  (dependencies taskStack : List String)

def pushDependencies : List String :=
  dependencies.foldl
    (fun taskStack dep => if taskMap.contains dep then taskStack else dep :: taskStack) taskStack

def unadded (startupTasks taskMap : TaskMap) : ℕ := startupTasks.keys.countP fun name =>
  !taskMap.contains name

def revisits : ℕ :=
  (taskStack.takeWhile taskMap.contains).length

lemma unadded_emplace_lt {startupTasks taskMap : TaskMap} {name : String}
    (task : Option StartupTask)
    (hreg : startupTasks.contains name = true) (hnew : taskMap.contains name = false) :
    unadded startupTasks (taskMap.emplace name task) < unadded startupTasks taskMap := by
  have hmem : name ∈ startupTasks.keys := mem_keys.mpr hreg
  have hadded : (taskMap.emplace name task).contains name = true := by
    rw [SortedMap.contains_iff, find?_emplace, if_pos rfl]
    exact ⟨_, rfl⟩
  have hsub : ∀ k, taskMap.contains k = true → (taskMap.emplace name task).contains k = true := by
    intro k hk
    rw [SortedMap.contains_iff, find?_emplace]
    split_ifs with heq
    · exact ⟨_, rfl⟩
    · exact contains_iff.mp hk
  obtain ⟨l₁, l₂, hl⟩ := append_of_mem hmem
  have hmono : ∀ l : List String, l.countP (fun k => !(taskMap.emplace name task).contains k) ≤
      l.countP (fun k => !taskMap.contains k) := by
    intro l
    apply countP_mono_left
    intro k _ hk
    cases hold : taskMap.contains k with
    | false => rfl
    | true => simp [hsub k hold] at hk
  have h₁ := hmono l₁
  have h₂ := hmono l₂
  rw [unadded, unadded, hl, countP_append, countP_append, countP_cons, countP_cons, hadded, hnew]
  simp only [Bool.not_true, Bool.not_false, Bool.false_eq_true, if_false, if_true]
  omega

lemma pushDependencies_eq : pushDependencies taskMap dependencies taskStack =
      (dependencies.filter (!taskMap.contains ·)).reverse ++ taskStack := by
  induction dependencies generalizing taskStack with
  | nil => rfl
  | cons dep deps ih =>
    rw [pushDependencies, foldl_cons, ← pushDependencies, ih]
    cases hdep : taskMap.contains dep <;> simp [hdep]

lemma revisits_pushDependencies_lt {taskMap : TaskMap} {name : String}
    (dependencies taskStack : List String) (hname : taskMap.contains name = true) :
    revisits taskMap (pushDependencies taskMap dependencies taskStack) <
    revisits taskMap (name :: taskStack) := by
  rw [pushDependencies_eq, revisits, revisits, takeWhile_cons_of_pos hname]
  cases hpush : (dependencies.filter (!taskMap.contains ·)).reverse with
  | nil => exact Nat.lt_succ_self _
  | cons dep rest =>
    -- the last dependency pushed is not in the map, so no name is popped before it
    have hmem : dep ∈ (dependencies.filter (!taskMap.contains ·)).reverse := hpush ▸ mem_cons_self
    have hdep : taskMap.contains dep = false := by
      simpa using (mem_filter.mp (mem_reverse.mp hmem)).2
    rw [cons_append, takeWhile_cons_of_neg (by simp [hdep])]
    exact Nat.succ_pos _

/-- The `while` loop of `AddStartupTask`. A name can be popped again after it was added. -/
def addStartupTaskLoop (startupTasks taskMap : TaskMap) (taskStack : List String) :
    Int32 × TaskMap :=
  match taskStack with
  | [] => (errOk, taskMap)
  | taskName :: taskStack =>
    match _hfind : startupTasks.find? taskName with
    | none => (errStartupDependencyNotFound, taskMap)
    | some none => (errStartupInternalError, taskMap.emplace taskName none)
    | some (some task) =>
      addStartupTaskLoop startupTasks (taskMap.emplace taskName (some task))
        (pushDependencies (taskMap.emplace taskName (some task)) task.dependencies taskStack)
termination_by (unadded startupTasks taskMap, revisits taskMap taskStack)
decreasing_by
  cases hnew : taskMap.contains taskName with
  | false => exact Prod.Lex.left _ _ (unadded_emplace_lt _
      (contains_iff.mpr ⟨_, _hfind⟩) hnew)
  | true =>
    rw [emplace_of_contains _ hnew]
    exact Prod.Lex.right _ (revisits_pushDependencies_lt _ _ hnew)

def addStartupTask (name : String) (taskMap : TaskMap) : Int32 × TaskMap :=
  if taskMap.contains name then (errOk, taskMap) else addStartupTaskLoop startupTasks taskMap [name]

variable (dependenciesSet : SortedMap String Unit)

/-- The loop over `dependenciesSet`, which ignores the code of `AddStartupTask`. -/
def addDependencies (tasks : TaskMap) : TaskMap :=
  dependenciesSet.keys.foldl (fun tasks dep =>
    if tasks.contains dep then tasks else (addStartupTask startupTasks dep tasks).2) tasks

def insertAll (dependencies : List String) :
    SortedMap String Unit :=
  dependencies.foldl (fun set dep => set.emplace dep ()) dependenciesSet

variable (inputDependencies : List String)

/-- The loop of `BuildStartupTaskManager` over the requested names. -/
def findInputs
    (acc : TaskMap × SortedMap String Unit) : Except Int32 (TaskMap × SortedMap String Unit) :=
  inputDependencies.foldlM (fun acc iter =>
    match startupTasks.find? iter with
    | none => .error errStartupDependencyNotFound
    | some none => .error errStartupInternalError
    | some (some task) => .ok (acc.1.emplace iter (some task), insertAll acc.2 task.dependencies))
        acc

def newTaskManager (tasks : TaskMap) : StartupTaskManager Config × StartupManager Config :=
  (⟨s.startupTaskManagerId, tasks, s.defaultConfig, none⟩, { s with
    startupTaskManagerMap := s.startupTaskManagerMap.emplace s.startupTaskManagerId ()
    startupTaskManagerId := s.startupTaskManagerId + 1 })

def buildStartupTaskManager :
    Except Int32 (StartupTaskManager Config × StartupManager Config) :=
  (findInputs s.startupTasks inputDependencies (.empty, .empty)).map fun found =>
    newTaskManager s (addDependencies s.startupTasks found.2 found.1)

def onStartupTaskManagerComplete (id : Fin (2 ^ 32)) : Int32 × StartupManager Config :=
  if s.startupTaskManagerMap.contains id then
    (errOk, { s with startupTaskManagerMap := s.startupTaskManagerMap.erase id })
  else (errStartupInternalError, s)

end StartupManager

namespace StartupTaskManager
variable {Config : Type}

def callListenerOnCompleted (tm : StartupTaskManager Config) (s : StartupManager Config)
    (result : Int32) (resultMessage : String) : StartupManager Config :=
  match tm.config with
  | none => s
  | some config =>
    let message := if resultMessage.isEmpty then getErrorMessage result else resultMessage
    (StartupManager.onStartupTaskManagerComplete
      { s with listenerCalls := s.listenerCalls ++ [(config, ⟨result, message⟩)] }
      tm.startupTaskManagerId).2

def prepare (tm : StartupTaskManager Config) (s : StartupManager Config) :
    Option (Int32 × StartupTaskManager Config × StartupManager Config) :=
  (sort tm.tasks).map fun
    | .error result => (result, tm, callListenerOnCompleted tm s result "")
    | .ok startupSortResult =>
      if tm.tasks.entries.isEmpty then (errStartupInternalError, tm, s)
      else (errOk, { tm with dispatcher := some ⟨tm.tasks, some startupSortResult⟩ }, s)

section Prepare
variable {tm : StartupTaskManager Config} {s : StartupManager Config}

lemma prepare_of_error {result : Int32}
    (h : sort tm.tasks = some (.error result)) :
    tm.prepare s = some (result, tm, callListenerOnCompleted tm s result "") := by
  rw [prepare, h]
  rfl

end Prepare

end StartupTaskManager

open StartupTaskManager

namespace StartupManager
variable {startupTasks taskMap taskMap' : TaskMap} {P : String → Prop}

def Reachable (startupTasks : TaskMap) (names : List String) (name : String) : Prop :=
  ∃ a ∈ names, ReflTransGen startupTasks.DependsOn a name

section Submap

def Submap (startupTasks taskMap : TaskMap) : Prop :=
  ∀ name task, taskMap.find? name = some task → startupTasks.find? name = some task

section
variable (h : Submap startupTasks taskMap)
include h

lemma Submap.dependsOn {a b : String}
    (hab : taskMap.DependsOn a b) : startupTasks.DependsOn a b := by
  obtain ⟨t, ht, hb⟩ := find?_of_mem_deps hab
  rw [TaskMap.DependsOn, deps_of_find? (h _ _ ht)]
  exact hb

lemma Submap.dependsOn_of_contains {a b : String}
    (ha : taskMap.contains a = true) (hab : startupTasks.DependsOn a b) :
    taskMap.DependsOn a b := by
  obtain ⟨t, ht, hb⟩ := find?_of_mem_deps hab
  obtain ⟨task, htask⟩ := contains_iff.mp ha
  cases (h _ _ htask).symm.trans ht
  rw [TaskMap.DependsOn, deps_of_find? htask]
  exact hb

lemma Submap.emplace {name : String} {task : Option StartupTask}
    (htask : startupTasks.find? name = some task) :
    Submap startupTasks (taskMap.emplace name task) := by
  intro n t hn
  rw [find?_emplace] at hn
  split_ifs at hn with heq
  · subst heq
    cases hold : taskMap.find? name with
    | none =>
      rw [hold] at hn
      rw [htask, ← hn]
      rfl
    | some old =>
      rw [hold] at hn
      rw [h _ _ hold, ← hn]
      rfl
  · exact h n t hn

lemma Submap.named (hw : startupTasks.Named) : taskMap.Named :=
  fun p hp => hw p (mem_entries.mpr (h _ _ (mem_entries.mp hp)))

lemma Submap.countsFit (hc : startupTasks.CountsFit) : taskMap.CountsFit := by
  intro t ht
  obtain ⟨p, hp, hpt⟩ := mem_filterMap.mp ht
  exact hc t (mem_filterMap.mpr ⟨p, mem_entries.mpr (h _ _ (mem_entries.mp hp)), hpt⟩)

end

lemma contains_emplace {name n : String} {task : Option StartupTask} :
    (taskMap.emplace name task).contains n = true ↔ name = n ∨ taskMap.contains n = true := by
  rw [SortedMap.contains_iff, find?_emplace, SortedMap.contains_iff]
  split_ifs with heq <;> simp [heq]

end Submap

structure Progress (startupTasks : TaskMap) (P : String → Prop) (taskMap : TaskMap)
    (pending : List String) : Prop where
  sub : Submap startupTasks taskMap
  mem : ∀ name, taskMap.contains name = true → P name
  demands : (∀ a b, taskMap.DependsOn a b → taskMap.contains b = true ∨ b ∈ pending) ∨
    ∃ a b, taskMap.DependsOn a b ∧ startupTasks.contains b = false

lemma Progress.dependsOn_mono {pending : List String} (h : Progress startupTasks P taskMap pending)
    (h' : Submap startupTasks taskMap')
    (hgrow : ∀ name, taskMap.contains name = true → taskMap'.contains name = true)
    {a b : String} (hab : taskMap.DependsOn a b) : taskMap'.DependsOn a b :=
  h'.dependsOn_of_contains (hgrow a (contains_of_mem_deps hab)) (h.sub.dependsOn hab)

lemma Progress.add {name : String} {t : StartupTask} {stack rest : List String}
    (h : Progress startupTasks P taskMap (name :: stack ++ rest)) (hname : P name)
    (ht : startupTasks.find? name = some (some t)) :
    Progress startupTasks P (taskMap.emplace name (some t))
      (pushDependencies (taskMap.emplace name (some t)) t.dependencies stack ++ rest) := by
  have hsub := h.sub.emplace ht
  have hgrow : ∀ n, taskMap.contains n = true → (taskMap.emplace name (some t)).contains n = true :=
    fun n hn => contains_emplace.mpr (.inr hn)
  refine ⟨hsub, ?_, ?_⟩
  · intro n hn
    rcases contains_emplace.mp hn with rfl | hn
    · exact hname
    · exact h.mem n hn
  rcases h.demands with hwait | ⟨a, b, hab, hb⟩
  · refine .inl fun a b hab => ?_
    rw [pushDependencies_eq]
    have hreg := hsub.dependsOn hab
    rcases contains_emplace.mp (contains_of_mem_deps hab) with rfl | ha
    · rw [TaskMap.DependsOn, deps_of_find? ht] at hreg
      cases hcontains : (taskMap.emplace name (some t)).contains b with
      | true => exact .inl rfl
      | false => exact .inr (by simp [hreg, hcontains])
    · rcases hwait a b (h.sub.dependsOn_of_contains ha hreg) with hb | hb
      · exact .inl (hgrow b hb)
      · rw [cons_append, mem_cons] at hb
        rcases hb with rfl | hb
        · exact .inl (contains_emplace.mpr (.inl rfl))
        · exact .inr (by
            rw [append_assoc]
            exact mem_append_right _ hb)
  · exact .inr ⟨a, b, h.dependsOn_mono hsub hgrow hab, hb⟩

section
variable (hw : startupTasks.Named)
include hw

section
variable (hP : ∀ a b, P a → startupTasks.DependsOn a b → P b)
include hP

protected lemma Progress.addStartupTaskLoop {stack rest : List String}
    (h : Progress startupTasks P taskMap (stack ++ rest))
    (hstack : ∀ b ∈ stack, ∃ a, taskMap.DependsOn a b) :
    Progress startupTasks P (addStartupTaskLoop startupTasks taskMap stack).2 rest ∧
      ∀ n, taskMap.contains n = true → (addStartupTaskLoop startupTasks taskMap stack).2.contains
      n = true := by
  fun_induction addStartupTaskLoop startupTasks taskMap stack with
  | case1 taskMap => exact ⟨h, fun n hn => hn⟩
  | case2 taskMap name stack hfind =>
    obtain ⟨a, ha⟩ := hstack name mem_cons_self
    exact ⟨⟨h.sub, h.mem, .inr ⟨a, name, ha, contains_eq_false.mpr hfind⟩⟩, fun n hn => hn⟩
  | case3 taskMap name stack hfind =>
    obtain ⟨t, ht, -⟩ := hw.task hfind
    exact absurd ht (by simp)
  | case4 taskMap name stack t hfind ih =>
    obtain ⟨a, ha⟩ := hstack name mem_cons_self
    have hname : P name := hP a name (h.mem a (contains_of_mem_deps ha)) (h.sub.dependsOn ha)
    have hgrow : ∀ n, taskMap.contains n = true →
        (taskMap.emplace name (some t)).contains n = true :=
      fun n hn => contains_emplace.mpr (.inr hn)
    have hnext := h.add hname hfind
    have hself : (taskMap.emplace name (some t)).contains name = true :=
      contains_emplace.mpr (.inl rfl)
    have hdemand : ∀ b ∈ pushDependencies (taskMap.emplace name (some t)) t.dependencies stack,
        ∃ a, TaskMap.DependsOn (taskMap.emplace name (some t)) a b := by
      intro b hb
      rw [pushDependencies_eq, mem_append, mem_reverse, mem_filter] at hb
      rcases hb with ⟨hb, -⟩ | hb
      · refine ⟨name, hnext.sub.dependsOn_of_contains hself ?_⟩
        rw [TaskMap.DependsOn, deps_of_find? hfind]
        exact hb
      · obtain ⟨a', ha'⟩ := hstack b (mem_cons_of_mem _ hb)
        exact ⟨a', h.dependsOn_mono hnext.sub hgrow ha'⟩
    obtain ⟨hdone, hrest⟩ := ih hnext hdemand
    exact ⟨hdone, fun n hn => hrest n (hgrow n hn)⟩

lemma Progress.addDependency {dep : String} {rest : List String}
    (h : Progress startupTasks P taskMap (dep :: rest)) (hdep : ∃ a, taskMap.DependsOn a dep) :
    ∃ taskMap', (if taskMap.contains dep then taskMap
      else (addStartupTask startupTasks dep taskMap).2) = taskMap' ∧
      Progress startupTasks P taskMap' rest ∧
      ∀ n, taskMap.contains n = true → taskMap'.contains n = true := by
  refine ⟨_, rfl, ?_⟩
  cases hcontains : taskMap.contains dep with
  | true =>
    refine ⟨⟨h.sub, h.mem, h.demands.imp_left fun hwait a b hab => ?_⟩, fun n hn => hn⟩
    rcases hwait a b hab with hb | hb
    · exact .inl hb
    · rcases mem_cons.mp hb with rfl | hb
      · exact .inl hcontains
      · exact .inr hb
  | false =>
    rw [addStartupTask, hcontains]
    have hstack : ∀ b ∈ [dep], ∃ a, taskMap.DependsOn a b :=
      fun b hb => by rwa [mem_singleton.mp hb]
    exact Progress.addStartupTaskLoop hw hP h hstack

protected lemma Progress.addDependencies {dependenciesSet : SortedMap String Unit}
    (hsub : Submap startupTasks taskMap) (hmem : ∀ n, taskMap.contains n = true → P n)
    (hset : ∀ d, dependenciesSet.contains d = true ↔ ∃ a, taskMap.DependsOn a d) :
    Progress startupTasks P (addDependencies startupTasks dependenciesSet taskMap) [] ∧
      ∀ n, taskMap.contains n = true →
        (addDependencies startupTasks dependenciesSet taskMap).contains n =
        true := by
  have hloop : ∀ (l : List String) (taskMap : TaskMap), Progress startupTasks P taskMap l →
      (∀ d ∈ l, ∃ a, taskMap.DependsOn a d) →
      Progress startupTasks P (l.foldl (fun tasks dep =>
        if tasks.contains dep then tasks else (addStartupTask startupTasks dep tasks).2) taskMap)
          [] ∧
      ∀ n, taskMap.contains n = true → (l.foldl (fun tasks dep =>
        if tasks.contains dep then tasks else (addStartupTask startupTasks dep tasks).2)
          taskMap).contains n = true := by
    intro l
    induction l with
    | nil => exact fun taskMap h _ => ⟨h, fun n hn => hn⟩
    | cons dep l ih =>
      intro taskMap h hdemand
      obtain ⟨taskMap', heq, hnext, hgrow⟩ := h.addDependency hw hP (hdemand dep mem_cons_self)
      rw [foldl_cons, heq]
      obtain ⟨hdone, hrest⟩ := ih taskMap' hnext fun d hd => by
        obtain ⟨a, ha⟩ := hdemand d (mem_cons_of_mem _ hd)
        exact ⟨a, h.dependsOn_mono hnext.sub hgrow ha⟩
      exact ⟨hdone, fun n hn => hrest n (hgrow n hn)⟩
  refine hloop dependenciesSet.keys taskMap ⟨hsub, hmem, .inl fun a b hab => .inr ?_⟩ fun d hd => ?_
  · exact mem_keys.mpr ((hset b).mpr ⟨a, hab⟩)
  · exact (hset d).mp (mem_keys.mp hd)

end

end

lemma contains_insertAll (set : SortedMap String Unit) (dependencies : List String) (d : String) :
    (insertAll set dependencies).contains d = true ↔ set.contains d = true ∨ d ∈ dependencies := by
  induction dependencies generalizing set with
  | nil => simp [insertAll]
  | cons dep deps ih =>
    have hemplace : (set.emplace dep ()).contains d = true ↔ dep = d ∨ set.contains d = true := by
      rw [SortedMap.contains_iff, find?_emplace, SortedMap.contains_iff]
      split_ifs with heq <;> simp [heq]
    rw [insertAll, foldl_cons, ← insertAll, ih, mem_cons]
    tauto

structure Seeds (startupTasks : TaskMap) (names : List String)
    (found : TaskMap × SortedMap String Unit) : Prop where
  sub : Submap startupTasks found.1
  contains : ∀ name, found.1.contains name = true ↔ name ∈ names
  demanded : ∀ d, found.2.contains d = true ↔ ∃ a, found.1.DependsOn a d

lemma seeds_empty (startupTasks : TaskMap) : Seeds startupTasks [] (.empty, .empty) where
  sub _ _ h := by simp at h
  contains name := by simp [SortedMap.contains_iff]
  demanded d := by simp [SortedMap.contains_iff, TaskMap.DependsOn, deps]

lemma Seeds.add {names : List String} {found : TaskMap × SortedMap String Unit} {name : String}
    {t : StartupTask}
    (h : Seeds startupTasks names found) (ht : startupTasks.find? name = some (some t)) :
    Seeds startupTasks (names ++ [name])
      (found.1.emplace name (some t), insertAll found.2 t.dependencies) := by
  have hsub := h.sub.emplace ht
  refine ⟨hsub, ?_, ?_⟩
  · intro n
    rw [contains_emplace, h.contains, mem_append, mem_singleton, eq_comm, or_comm]
  · intro d
    rw [contains_insertAll, h.demanded]
    constructor
    · rintro (⟨a, ha⟩ | hd)
      · exact ⟨a, hsub.dependsOn_of_contains
          (contains_emplace.mpr (.inr (contains_of_mem_deps ha))) (h.sub.dependsOn ha)⟩
      · refine ⟨name, hsub.dependsOn_of_contains (contains_emplace.mpr (.inl rfl)) ?_⟩
        rw [TaskMap.DependsOn, deps_of_find? ht]
        exact hd
    · rintro ⟨a, ha⟩
      have hreg := hsub.dependsOn ha
      rcases contains_emplace.mp (contains_of_mem_deps ha) with rfl | hold
      · rw [TaskMap.DependsOn, deps_of_find? ht] at hreg
        exact .inr hreg
      · exact .inl ⟨a, h.sub.dependsOn_of_contains hold hreg⟩

protected lemma Seeds.findInputs (hw : startupTasks.Named)
    {names inputDependencies : List String}
    {found : TaskMap × SortedMap String Unit} (h : Seeds startupTasks names found)
    (hreg : ∀ name ∈ inputDependencies, startupTasks.contains name = true) :
    ∃ found', findInputs startupTasks inputDependencies found = .ok found' ∧
      Seeds startupTasks (names ++ inputDependencies) found' := by
  induction inputDependencies generalizing names found with
  | nil => exact ⟨found, rfl, by rwa [append_nil]⟩
  | cons name l ih =>
    obtain ⟨task, hfind⟩ := contains_iff.mp (hreg name mem_cons_self)
    obtain ⟨t, rfl, -⟩ := hw.task hfind
    obtain ⟨found', hrun, hseeds⟩ := ih (h.add hfind) fun n hn => hreg n (mem_cons_of_mem _ hn)
    refine ⟨found', ?_, by simpa using hseeds⟩
    rw [findInputs, foldlM_cons, hfind]
    exact hrun

section Closure
variable {names : List String}

lemma Reachable.of_mem {name : String} (h : name ∈ names) : Reachable startupTasks names name :=
  ⟨name, h, .refl⟩

lemma Reachable.tail (a b : String) (h : Reachable startupTasks names a)
    (hab : startupTasks.DependsOn a b) : Reachable startupTasks names b := by
  obtain ⟨r, hr, hra⟩ := h
  exact ⟨r, hr, hra.tail hab⟩

variable {tasks : TaskMap}

protected lemma Seeds.addDependencies {found : TaskMap × SortedMap String Unit}
    (h : Seeds startupTasks names found) (hw : startupTasks.Named)
    (htasks : addDependencies startupTasks found.2 found.1 = tasks) : Submap startupTasks tasks ∧
      ((∃ a b, tasks.DependsOn a b ∧ Reachable startupTasks names b ∧
        startupTasks.contains b = false) ∨
        ∀ name, tasks.contains name = true ↔ Reachable startupTasks names name) := by
  subst htasks
  obtain ⟨hdone, hgrow⟩ := Progress.addDependencies hw
    Reachable.tail h.sub
    (fun n hn => .of_mem ((h.contains n).mp hn)) h.demanded
  refine ⟨hdone.sub, ?_⟩
  rcases hdone.demands with hclosed | ⟨a, b, hab, hb⟩
  · refine .inr fun name => ⟨hdone.mem name, ?_⟩
    rintro ⟨r, hr, hpath⟩
    refine Kahn.mem_of_reflTransGen (S := {n | SortedMap.contains _ n = true})
      (fun a ha b hab => ?_)
      (hgrow r ((h.contains r).mpr hr)) hpath
    exact (hclosed a b (hdone.sub.dependsOn_of_contains ha hab)).resolve_right not_mem_nil
  · have ha := hdone.mem a (contains_of_mem_deps hab)
    exact .inl ⟨a, b, hab, ha.tail a b (hdone.sub.dependsOn hab), hb⟩

lemma acyclic_iff (hsub : Submap startupTasks tasks)
    (hclosed : ∀ a b, tasks.DependsOn a b → tasks.contains b = true) :
    tasks.Acyclic ↔ ∀ name, tasks.contains name = true →
    ¬ TransGen startupTasks.DependsOn name name := by
  constructor
  · intro hac name hname hcycle
    have hpath : ∀ b, TransGen startupTasks.DependsOn name b → TransGen tasks.DependsOn name b ∧
        tasks.contains b = true := by
      intro b hb
      induction hb with
      | single hab =>
        have htask := hsub.dependsOn_of_contains hname hab
        exact ⟨.single htask, hclosed _ _ htask⟩
      | tail _ hbc ih =>
        have htask := hsub.dependsOn_of_contains ih.2 hbc
        exact ⟨ih.1.tail htask, hclosed _ _ htask⟩
    exact hac name (hpath name hcycle).1
  · intro hac name hcycle
    obtain ⟨b, hb, -⟩ := TransGen.head'_iff.mp hcycle
    exact hac name (contains_of_mem_deps hb) (.mono (fun a b => hsub.dependsOn) _ _ hcycle)

structure DecidesClosure (startupTasks : TaskMap) (names : List String) (tasks : TaskMap)
    (code : Int32) : Prop where
  ok_iff : code = errOk ↔ names ≠ [] ∧
    (∀ name, Reachable startupTasks names name → startupTasks.contains name = true) ∧
    ∀ name, Reachable startupTasks names name → ¬ TransGen startupTasks.DependsOn name name
  tasks_eq : code = errOk → ∀ name task,
    tasks.find? name = some task ↔ Reachable startupTasks names name ∧
    startupTasks.find? name = some task
  missing : (∃ name, Reachable startupTasks names name ∧ startupTasks.contains name = false) →
    code = errStartupDependencyNotFound

lemma entries_isEmpty_iff
    (h : ∀ name, tasks.contains name = true ↔ Reachable startupTasks names name) :
    tasks.entries.isEmpty = true ↔ names = [] := by
  constructor
  · intro hempty
    refine eq_nil_iff_forall_not_mem.mpr fun name hname => ?_
    obtain ⟨task, htask⟩ := contains_iff.mp ((h name).mpr (.of_mem hname))
    have hmem := mem_entries.mpr htask
    rw [isEmpty_iff.mp hempty] at hmem
    exact not_mem_nil hmem
  · rintro rfl
    refine isEmpty_iff.mpr (eq_nil_iff_forall_not_mem.mpr fun p hp => ?_)
    obtain ⟨a, ha, -⟩ := (h p.1).mp (contains_iff.mpr ⟨p.2, mem_entries.mp hp⟩)
    exact not_mem_nil ha

variable {Config : Type}

/-- All names are found and no dependency leads back to itself, but there are too many tasks for
the counters of the sort. -/
def Uncounted (startupTasks : TaskMap) (names : List String) : Prop :=
  2 ^ 32 ≤ Set.ncard {name | Reachable startupTasks names name} ∧
    (∀ name, Reachable startupTasks names name → startupTasks.contains name = true) ∧
    ∀ name, Reachable startupTasks names name → ¬ TransGen startupTasks.DependsOn name name

lemma Uncounted.names_ne_nil (h : Uncounted startupTasks names) : names ≠ [] := by
  rintro rfl
  have hempty : {name | Reachable startupTasks [] name} = ∅ := by
    ext name
    simp [Reachable]
  have hmany := h.1
  rw [hempty, Set.ncard_empty] at hmany
  exact absurd hmany (by decide)

lemma size_eq_ncard (h : ∀ name, tasks.contains name = true ↔ Reachable startupTasks names name) :
    tasks.size = Set.ncard {name | Reachable startupTasks names name} := by
  have hset : {name | Reachable startupTasks names name} = (tasks.keys.toFinset : Set String) := by
    ext name
    simp [← h, SortedMap.mem_keys]
  rw [hset, Set.ncard_coe_finset, toFinset_card_of_nodup tasks.nodup_keys, length_keys]

lemma prepare_missing (hw : startupTasks.Named) (tm : StartupTaskManager Config)
    (s : StartupManager Config)
    (hsub : Submap startupTasks tm.tasks) {a b : String} (hab : tm.tasks.DependsOn a b)
    (hreach : Reachable startupTasks names b) (hb : startupTasks.contains b = false) :
    ∃ code tm' s', tm.prepare s = some (code, tm', s') ∧
      (DecidesClosure startupTasks names tm.tasks code ↔ ¬ Uncounted startupTasks names) := by
  have hnone : tm.tasks.contains b = false := by
    rw [contains_eq_false, ← not_isSome_iff_eq_none, isSome_iff_exists]
    rintro ⟨task, htask⟩
    have hreg := hsub b task htask
    rw [contains_eq_false.mp hb] at hreg
    exact absurd hreg (by simp)
  have hsort := sort_missing (hsub.named hw) hab hnone
  have hfound (h : ∀ name, Reachable startupTasks names name →
      startupTasks.contains name = true) : False := by
    rw [h b hreach] at hb
    exact absurd hb (by decide)
  refine ⟨errStartupDependencyNotFound, _, _, prepare_of_error hsort,
    iff_of_true ⟨?_, fun h => absurd h (by decide), fun _ => rfl⟩ fun h => hfound h.2.1⟩
  exact iff_of_false (by decide) fun hok => hfound hok.2.1

lemma find?_iff_of_contains (hsub : Submap startupTasks tasks)
    (hmem : ∀ name, tasks.contains name = true ↔ Reachable startupTasks names name) (name : String)
    (task : Option StartupTask) : tasks.find? name = some task ↔
      Reachable startupTasks names name ∧ startupTasks.find? name = some task := by
  refine ⟨fun h => ⟨(hmem name).mp (contains_iff.mpr ⟨task, h⟩), hsub name task h⟩, fun h => ?_⟩
  obtain ⟨task', htask'⟩ := contains_iff.mp ((hmem name).mpr h.1)
  rwa [← some.inj ((hsub name task' htask').symm.trans h.2)]

lemma prepare_closed (hw : startupTasks.Named) (hc : startupTasks.CountsFit)
    (tm : StartupTaskManager Config) (s : StartupManager Config)
    (hsub : Submap startupTasks tm.tasks)
    (hmem : ∀ name, tm.tasks.contains name = true ↔ Reachable startupTasks names name) :
    ∃ code tm' s', tm.prepare s = some (code, tm', s') ∧
      (DecidesClosure startupTasks names tm.tasks code ↔ ¬ Uncounted startupTasks names) := by
  have hclosed : ∀ a b, tm.tasks.DependsOn a b → tm.tasks.contains b = true := fun a b hab =>
    (hmem b).mpr (((hmem a).mp (contains_of_mem_deps hab)).tail a b (hsub.dependsOn hab))
  have hreg : ∀ name, Reachable startupTasks names name → startupTasks.contains name = true := by
    intro name hname
    obtain ⟨task, htask⟩ := contains_iff.mp ((hmem name).mpr hname)
    exact contains_iff.mpr ⟨task, hsub name task htask⟩
  have htasks := find?_iff_of_contains hsub hmem
  have hmissing : ∀ code : Int32, (∃ name, Reachable startupTasks names name ∧
      startupTasks.contains name = false) →
      code = errStartupDependencyNotFound := by
    rintro code ⟨name, hname, hnone⟩
    rw [hreg name hname] at hnone
    exact absurd hnone (by decide)
  have hacyclic : tm.tasks.Acyclic ↔
      ∀ name, Reachable startupTasks names name → ¬ TransGen startupTasks.DependsOn name name := by
    rw [acyclic_iff hsub hclosed]
    exact forall_congr' fun name => by rw [hmem]
  have hsize := size_eq_ncard hmem
  rcases sort_closed (hsub.named hw) (hsub.countsFit hc) hclosed with
    ⟨⟨hlt, hac⟩, r, hsort, -⟩ | ⟨hcyc, hsort⟩
  · have hcounted : ¬ Uncounted startupTasks names := fun h => absurd h.1 (by omega)
    cases hempty : tm.tasks.entries.isEmpty with
    | true =>
      refine ⟨errStartupInternalError, tm, s, by simp [prepare, hsort, hempty],
        iff_of_true ⟨?_, fun _ => htasks, hmissing _⟩ hcounted⟩
      exact iff_of_false (by decide) fun hok => hok.1 ((entries_isEmpty_iff hmem).mp hempty)
    | false =>
      have hne : names ≠ [] := fun h => by
        rw [(entries_isEmpty_iff hmem).mpr h] at hempty
        exact absurd hempty (by decide)
      exact ⟨errOk, { tm with dispatcher := some ⟨tm.tasks, some r⟩ }, s,
        by simp [prepare, hsort, hempty],
        iff_of_true ⟨iff_of_true rfl ⟨hne, hreg, hacyclic.mp hac⟩, fun _ => htasks, hmissing _⟩
          hcounted⟩
  · refine ⟨errStartupCircularDependency, _, _, prepare_of_error hsort, fun h huncounted => ?_,
      fun h => ⟨iff_of_false (by decide) fun hok => hcyc ?_, fun _ => htasks, hmissing _⟩⟩
    · exact absurd (h.ok_iff.mpr ⟨huncounted.names_ne_nil, huncounted.2⟩) (by decide)
    · exact ⟨Nat.not_le.mp fun hmany => h ⟨hsize ▸ hmany, hok.2⟩, hacyclic.mpr hok.2.2⟩

theorem buildStartupTaskManager_prepare_iff (s : StartupManager Config)
    (inputDependencies : List String) (hw : s.startupTasks.Named) (hc : s.startupTasks.CountsFit)
    (hreg : ∀ name ∈ inputDependencies, s.startupTasks.contains name = true) :
    ∃ tm s', buildStartupTaskManager s inputDependencies = .ok (tm, s') ∧
      ∃ code tm' s'', tm.prepare s' = some (code, tm', s'') ∧
        (DecidesClosure s.startupTasks inputDependencies tm.tasks code ↔
          ¬ Uncounted s.startupTasks inputDependencies) := by
  obtain ⟨found, hfound, hseeds⟩ := (seeds_empty s.startupTasks).findInputs hw hreg
  have hbuild : buildStartupTaskManager s inputDependencies =
      .ok (newTaskManager s (StartupManager.addDependencies s.startupTasks found.2 found.1)) := by
    rw [buildStartupTaskManager, hfound]
    rfl
  refine ⟨_, _, hbuild, ?_⟩
  obtain ⟨hsub, ⟨a, b, hab, hreach, hb⟩ | hmem⟩ := hseeds.addDependencies hw rfl
  · exact prepare_missing hw _ _ hsub hab hreach hb
  · exact prepare_closed hw hc _ _ hsub hmem

def mutualTasks : TaskMap :=
  ((empty.emplace "a" (some { name := "a", dependencies := ["b", "c"] })).emplace
    "b" (some { name := "b", dependencies := ["a"] })).emplace "c"
    (some { name := "c", dependencies := [] })

theorem mutualTasks_prepare : mutualTasks.Named ∧ mutualTasks.CountsFit ∧
    (∀ name ∈ ["a", "c"], mutualTasks.contains name = true) ∧
    ∃ tm s', buildStartupTaskManager (⟨mutualTasks, 0, .empty, none, []⟩ : StartupManager Unit)
        ["a", "c"] = .ok (tm, s') ∧
      ∃ code tm' s'', tm.prepare s' = some (code, tm', s'') ∧
        (DecidesClosure mutualTasks ["a", "c"] tm.tasks code ↔
          ¬ Uncounted mutualTasks ["a", "c"]) :=
  ⟨by decide, by decide, by decide,
    buildStartupTaskManager_prepare_iff ⟨mutualTasks, 0, .empty, none, []⟩ ["a", "c"]
    (by decide) (by decide) (by decide)⟩

theorem tooMany_not_prepared : ∃ (m : TaskMap) (names : List String),
    m.Named ∧ m.CountsFit ∧ (∀ name ∈ names, m.contains name = true) ∧ names ≠ [] ∧
    (∀ a b, ¬ m.DependsOn a b) ∧
    ∀ tm s', buildStartupTaskManager (⟨m, 0, .empty, none, []⟩ : StartupManager Unit) names =
      .ok (tm, s') → ∀ tm' s'', tm.prepare s' ≠ some (errOk, tm', s'') := by
  obtain ⟨m, hw, hc, hnone, hsize⟩ := exists_many
  refine ⟨m, m.keys, hw, hc, fun name => mem_keys.mp, fun hnil => ?_, hnone,
    fun tm s' hbuild tm' s'' hprepare => ?_⟩
  · have hlen := length_keys m
    rw [hnil, hsize] at hlen
    exact absurd hlen (by decide)
  · obtain ⟨found, hfound, hseeds⟩ := (seeds_empty m).findInputs hw fun name => mem_keys.mp
    rw [buildStartupTaskManager, hfound] at hbuild
    have htm : addDependencies m found.2 found.1 = tm.tasks := by
      cases hbuild
      rfl
    obtain ⟨hsub, ⟨a, b, hab, -⟩ | hmem⟩ := hseeds.addDependencies hw htm
    · exact hnone a b (hsub.dependsOn hab)
    have hall : m.size ≤ tm.tasks.size := size_le_of_contains fun name hname =>
      (hmem name).mpr (.of_mem (mem_keys.mpr hname))
    rcases sort_closed (hsub.named hw) (hsub.countsFit hc) fun a b hab =>
      absurd (hsub.dependsOn hab) (hnone a b) with ⟨⟨hlt, -⟩, -⟩ | ⟨-, hsort⟩
    · omega
    · rw [prepare_of_error hsort] at hprepare
      have hcode : errStartupCircularDependency = errOk := congrArg Prod.fst (some.inj hprepare)
      exact absurd hcode (by decide)

end Closure
end StartupManager
end AbilityRuntime.Startup
