import Mathlib.Data.String.Basic
import AbilityRuntime.Library.SortedMap

/-! Startup tasks, their results and the error codes of the startup
framework. A task map stores shared pointers, so a value may be null. -/

namespace AbilityRuntime.Startup
open List SortedMap

def errOk : Int32 := 0
def errStartupInvalidValue : Int32 := 401
def errStartupInternalError : Int32 := 16000050
def errStartupDependencyNotFound : Int32 := 28800001
def errStartupCircularDependency : Int32 := 28800002
def errStartupFailedToExecuteStartup : Int32 := 28800003
def errStartupTimeout : Int32 := 28800004

def errMsgMap : List (Int32 × String) :=
  [(errStartupInvalidValue, "invalid parameter."), (errStartupInternalError, "internal error."),
   (errStartupDependencyNotFound, "startup task or its dependency not found."),
   (errStartupCircularDependency, "the startup tasks have circular dependencies."),
   (errStartupFailedToExecuteStartup, "an error occurred while running the startup tasks."),
   (errStartupTimeout, "running startup tasks timeout.")]

def getErrorMessage (errCode : Int32) : String := (errMsgMap.lookup errCode).getD "internal error."

structure StartupTaskResult where
  resultCode : Int32
  resultMessage : String

structure StartupTask where
  name : String
  dependencies : List String
  callCreateOnMainThread : Bool := true
  waitOnMainThread : Bool := true
deriving DecidableEq

namespace StartupTask

def getDependenciesCount (t : StartupTask) : UInt32 := UInt32.ofNat t.dependencies.length

lemma toNat_getDependenciesCount {t : StartupTask} (h : t.dependencies.length < 2 ^ 32) :
    t.getDependenciesCount.toNat = t.dependencies.length := UInt32.toNat_ofNat_of_lt' h

end StartupTask

abbrev TaskMap := SortedMap String (Option StartupTask)

namespace TaskMap

variable (m : TaskMap)

def deps (name : String) : List String :=
  match m.find? name with
  | some (some t) => t.dependencies
  | _ => []

def DependsOn (a b : String) : Prop := b ∈ m.deps a

def Acyclic : Prop := ∀ name, ¬ Relation.TransGen m.DependsOn name name

def tasks : List StartupTask := m.entries.filterMap Prod.snd

def Named : Prop := ∀ p ∈ m.entries, p.2.map StartupTask.name = some p.1
  deriving Decidable

/-- The number of dependencies of every task has 32 bits, as `getDependenciesCount` returns it. -/
def CountsFit : Prop := ∀ t ∈ m.tasks, t.dependencies.length < 2 ^ 32
  deriving Decidable

structure WellFormed : Prop where
  named : m.Named
  counts : m.CountsFit
  size_lt : m.size < 2 ^ 32

instance instDecidableWellFormed : Decidable m.WellFormed :=
  decidable_of_iff (m.Named ∧ m.CountsFit ∧ m.size < 2 ^ 32)
    ⟨fun h => ⟨h.1, h.2.1, h.2.2⟩, fun h => ⟨h.named, h.counts, h.size_lt⟩⟩

variable {m : TaskMap}

lemma Named.task (h : m.Named) {name : String} {task : Option StartupTask}
    (hfind : m.find? name = some task) : ∃ t, task = some t ∧ t.name = name :=
  Option.map_eq_some_iff.mp (h (name, task) (mem_entries.mpr hfind))

variable {t : StartupTask}

lemma deps_of_find? {name : String} (h : m.find? name = some (some t)) :
    m.deps name = t.dependencies := by
  rw [deps, h]

lemma find?_of_mem_deps {a b : String} (h : b ∈ m.deps a) :
    ∃ t, m.find? a = some (some t) ∧ b ∈ t.dependencies := by
  cases hf : m.find? a with
  | none => simp [deps, hf] at h
  | some task =>
    cases task with
    | none => simp [deps, hf] at h
    | some t => exact ⟨t, rfl, deps_of_find? hf ▸ h⟩

lemma contains_of_mem_deps {a b : String} (h : b ∈ m.deps a) : m.contains a = true := by
  obtain ⟨t, ht, -⟩ := find?_of_mem_deps h
  exact contains_iff.mpr ⟨some t, ht⟩

variable (hw : m.Named)
include hw

lemma mem_tasks : t ∈ m.tasks ↔ m.find? t.name = some (some t) := by
  rw [tasks, mem_filterMap]
  constructor
  · rintro ⟨p, hp, ht⟩
    have hfind := mem_entries.mp hp
    obtain ⟨t', ht', hname⟩ := hw.task hfind
    cases ht.symm.trans ht'
    rw [hname, hfind, ht]
  · exact fun h => ⟨(t.name, some t), mem_entries.mpr h, rfl⟩

lemma entries_eq : m.entries = m.tasks.map fun t => (t.name, some t) := by
  have hself : ∀ p ∈ m.entries, (p.2.map fun t => (t.name, some t)) = some p := by
    intro p hp
    obtain ⟨t, ht, hname⟩ := hw.task (mem_entries.mp hp)
    rw [ht, Option.map_some, hname, ← ht]
  calc m.entries = m.entries.filterMap some := (filterMap_some).symm
    _ = m.entries.filterMap (fun p => p.2.map fun t => (t.name, some t)) :=
      filterMap_congr fun p hp => (hself p hp).symm
    _ = m.tasks.map fun t => (t.name, some t) := by rw [tasks, map_filterMap]

lemma keys_eq : m.keys = m.tasks.map StartupTask.name := by
  rw [SortedMap.keys, entries_eq hw, map_map]
  rfl

lemma deps_name (ht : t ∈ m.tasks) : m.deps t.name = t.dependencies :=
  deps_of_find? ((mem_tasks hw).mp ht)

lemma exists_task {name : String} (h : m.contains name = true) : ∃ t ∈ m.tasks, t.name = name := by
  rw [← SortedMap.mem_keys, keys_eq hw] at h
  exact mem_map.mp h

end TaskMap
end AbilityRuntime.Startup
