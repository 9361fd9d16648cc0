import AbilityRuntime.Library.Runs
import Mathlib.Data.Int.Notation
import Mathlib.Data.List.Nodup

/-! The debug manager tells its listeners which processes are being debugged. A call holds the lock
to its end; a listener is known by its remote object. -/

namespace AbilityRuntime.AppDebug
open List

structure DebugProcess where
  bundleName : String
  pid : ℤ
  uid : ℤ
  deriving DecidableEq

structure AppDebugInfo where
  bundleName : String
  pid : ℤ
  uid : ℤ
  isDebugStart : Bool := false
  deriving DecidableEq

def AppDebugInfo.process (info : AppDebugInfo) : DebugProcess :=
  ⟨info.bundleName, info.pid, info.uid⟩

open AppDebugInfo

inductive DebugEvent
  | onAppDebugStarted | onAppDebugStoped
  deriving DecidableEq

structure Report where
  listener : ℕ
  event : DebugEvent
  infos : List AppDebugInfo
  deriving DecidableEq

inductive ErrCode
  | ok | invalidData

structure AppDebugManager where
  listeners : List ℕ := []
  debugInfos : List AppDebugInfo := []

structure Result where
  manager : AppDebugManager
  reports : List Report := []
  code : ErrCode := .ok

namespace AppDebugManager
variable (s : AppDebugManager)

def registerAppDebugListener : Option ℕ → Result
  | none => { manager := s, code := .invalidData }
  | some listener =>
    { manager :=
        { s with
          listeners := if listener ∈ s.listeners then s.listeners else s.listeners ++ [listener] }
      reports := if s.debugInfos.isEmpty then []
        else [⟨listener, .onAppDebugStarted, s.debugInfos⟩] }

def unregisterAppDebugListener : Option ℕ → Result
  | none => { manager := s, code := .invalidData }
  | some listener => { manager := { s with listeners := s.listeners.erase listener } }

variable (infos : List AppDebugInfo)

def notify (event : DebugEvent) (infos : List AppDebugInfo) : List Report :=
  if infos.isEmpty then [] else s.listeners.map fun listener => ⟨listener, event, infos⟩

def setDebugStart (it : AppDebugInfo) : List AppDebugInfo → List AppDebugInfo
  | [] => []
  | info :: infos =>
    if info.process = it.process then
      (if !info.isDebugStart && it.isDebugStart then { info with isDebugStart := it.isDebugStart }
        else info) :: infos
    else info :: setDebugStart it infos

/-- The loop looks for each process among the stored entries only, to which the new ones are
added behind the loop. -/
def incrementLoop (debugInfos incrementInfos : List AppDebugInfo) :
    List AppDebugInfo → List AppDebugInfo × List AppDebugInfo
  | [] => (debugInfos, incrementInfos)
  | it :: infos =>
    if debugInfos.any fun info => info.process = it.process then
      incrementLoop (setDebugStart it debugInfos) incrementInfos infos
    else incrementLoop debugInfos (incrementInfos ++ [it]) infos

def getIncrementAppDebugInfos : AppDebugManager × List AppDebugInfo :=
  let (debugInfos, incrementInfos) := incrementLoop s.debugInfos [] infos
  ({ s with debugInfos := debugInfos ++ incrementInfos }, incrementInfos)

def startDebug : Result :=
  let (s, incrementInfos) := s.getIncrementAppDebugInfos infos
  { manager := s, reports := s.notify .onAppDebugStarted incrementInfos }

def stopLoop (debugInfos stopped : List AppDebugInfo) :
    List AppDebugInfo → List AppDebugInfo × List AppDebugInfo
  | [] => (debugInfos, stopped)
  | it :: infos =>
    if it ∈ debugInfos then stopLoop (debugInfos.erase it) (stopped ++ [it]) infos
    else stopLoop debugInfos stopped infos

def stopDebug : Result :=
  let (debugInfos, stopped) := stopLoop s.debugInfos [] infos
  let s := { s with debugInfos := debugInfos }
  { manager := s, reports := s.notify .onAppDebugStoped stopped }

def removeAppDebugInfo (info : AppDebugInfo) : Result :=
  if info ∈ s.debugInfos then
    let s := { s with debugInfos := s.debugInfos.erase info }
    { manager := s, reports := s.notify .onAppDebugStoped [info] }
  else { manager := s }

end AppDebugManager

open AppDebugManager

inductive Op
  | registerAppDebugListener (listener : Option ℕ)
  | unregisterAppDebugListener (listener : Option ℕ)
  | startDebug (infos : List AppDebugInfo)
  | stopDebug (infos : List AppDebugInfo)
  | removeAppDebugInfo (info : AppDebugInfo)
  deriving DecidableEq

variable (s : AppDebugManager)

def AppDebugManager.call : Op → Result
  | .registerAppDebugListener listener => s.registerAppDebugListener listener
  | .unregisterAppDebugListener listener => s.unregisterAppDebugListener listener
  | .startDebug infos => s.startDebug infos
  | .stopDebug infos => s.stopDebug infos
  | .removeAppDebugInfo info => s.removeAppDebugInfo info

def AppDebugManager.step (op : Op) : AppDebugManager := (s.call op).manager

structure History where
  manager : AppDebugManager := {}
  since : ℕ → List Report := fun _ => []

def History.step (h : History) (op : Op) : History where
  manager := h.manager.step op
  since := fun listener =>
    (if op = .registerAppDebugListener (some listener) then [] else h.since listener) ++
      (h.manager.call op).reports.filter fun report => report.listener = listener

def History.run (ops : List Op) : History := ops.foldl History.step {}

def countOf (process : DebugProcess) (infos : List AppDebugInfo) : ℕ :=
  (infos.map AppDebugInfo.process).count process

def told (event : DebugEvent) (process : DebugProcess) (reports : List Report) : ℕ :=
  countOf process ((reports.filter fun report => report.event = event).flatMap Report.infos)

def Informed (h : History) : Prop :=
  ∀ listener ∈ h.manager.listeners, ∀ process,
    told .onAppDebugStarted process (h.since listener) =
      told .onAppDebugStoped process (h.since listener) + countOf process h.manager.debugInfos

def AtMostOne : Prop := (s.debugInfos.map process).Nodup

def namesOnce : Op → Bool
  | .startDebug infos =>
    (((infos.map process).filter fun process =>
      process ∉ s.debugInfos.map AppDebugInfo.process)).Nodup
  | _ => true

lemma countOf_append (process : DebugProcess) (l l' : List AppDebugInfo) :
    countOf process (l ++ l') = countOf process l + countOf process l' := by
  rw [countOf, map_append, count_append]
  rfl

lemma process_setDebugStart (it : AppDebugInfo) (infos : List AppDebugInfo) :
    (setDebugStart it infos).map process = infos.map process := by
  induction infos with
  | nil => rfl
  | cons info infos ih =>
    rw [setDebugStart]
    split_ifs
    · rfl
    · rfl
    · rw [map_cons, ih, map_cons]

lemma incrementLoop_processes (debugInfos incrementInfos infos : List AppDebugInfo) :
    let result := incrementLoop debugInfos incrementInfos infos
    result.1.map process = debugInfos.map process ∧
      result.2 = incrementInfos ++ infos.filter fun it => it.process ∉ debugInfos.map process := by
  induction infos generalizing debugInfos incrementInfos with
  | nil => simp [incrementLoop]
  | cons it infos ih =>
    have hany : (debugInfos.any fun info => info.process = it.process) = true ↔
        it.process ∈ debugInfos.map process := by
      simp
    rw [incrementLoop]
    by_cases hfound : it.process ∈ debugInfos.map process
    · rw [if_pos (hany.2 hfound), filter_cons_of_neg (by simpa using hfound)]
      have hrest := ih (setDebugStart it debugInfos) incrementInfos
      rw [process_setDebugStart] at hrest
      exact hrest
    · rw [if_neg (mt hany.1 hfound), filter_cons_of_pos (by simpa using hfound)]
      have hrest := ih debugInfos (incrementInfos ++ [it])
      rw [append_assoc] at hrest
      exact hrest

lemma countOf_erase {it : AppDebugInfo} {debugInfos : List AppDebugInfo} (h : it ∈ debugInfos)
    (process : DebugProcess) :
    countOf process (debugInfos.erase it) + countOf process [it] = countOf process debugInfos := by
  rw [← countOf_append]
  have hperm : (debugInfos.erase it ++ [it]).Perm debugInfos :=
    perm_append_singleton it _ |>.trans (perm_cons_erase h).symm
  exact (hperm.map _).count_eq process

lemma stopLoop_countOf (debugInfos stopped infos : List AppDebugInfo) (process : DebugProcess) :
    let result := stopLoop debugInfos stopped infos
    countOf process result.1 + countOf process result.2 =
      countOf process debugInfos + countOf process stopped := by
  induction infos generalizing debugInfos stopped with
  | nil => rfl
  | cons it infos ih =>
    rw [stopLoop]
    split_ifs with hmem
    · have hrest := ih (debugInfos.erase it) (stopped ++ [it])
      have herase := countOf_erase hmem process
      rw [countOf_append] at hrest
      omega
    · exact ih debugInfos stopped

lemma stopLoop_sublist (debugInfos stopped infos : List AppDebugInfo) :
    (stopLoop debugInfos stopped infos).1.Sublist debugInfos := by
  induction infos generalizing debugInfos stopped with
  | nil => exact .refl _
  | cons it infos ih =>
    rw [stopLoop]
    split_ifs
    · exact (ih _ _).trans erase_sublist
    · exact ih _ _

section Reports
variable {s : AppDebugManager} {listener : ℕ}

lemma told_singleton (event event' : DebugEvent) (process : DebugProcess)
    (infos : List AppDebugInfo) :
    told event process [⟨listener, event', infos⟩] =
      if event' = event then countOf process infos else 0 := by
  unfold told
  split_ifs with hevent <;> simp [hevent, countOf]

lemma told_notify (hnodup : s.listeners.Nodup) (hmem : listener ∈ s.listeners)
    (event event' : DebugEvent) (infos : List AppDebugInfo) (process : DebugProcess) :
    told event process ((s.notify event' infos).filter fun report => report.listener = listener) =
      if event' = event then countOf process infos else 0 := by
  unfold notify
  by_cases hempty : infos = []
  · simp [hempty, told, countOf]
  · have hone : s.listeners.filter (fun l => l = listener) = [listener] := by
      rw [filter_eq listener, count_eq_one_of_mem hnodup hmem]
      rfl
    have hreports : (s.listeners.map fun l => (⟨l, event', infos⟩ : Report)).filter
        (fun report => report.listener = listener) = [⟨listener, event', infos⟩] := by
      rw [filter_map]
      exact congrArg (List.map _) hone
    rw [if_neg (by simpa using hempty), hreports, told_singleton]

end Reports

structure Listening (h : History) : Prop where
  nodup : h.manager.listeners.Nodup
  informed : Informed h

section Steps
variable {h : History}

lemma told_since {op : Op} (hop : ∀ listener, op ≠ .registerAppDebugListener (some listener))
    (event : DebugEvent) (process : DebugProcess) (listener : ℕ) :
    told event process ((h.step op).since listener) =
      told event process (h.since listener) + told event process
        ((h.manager.call op).reports.filter fun report => report.listener = listener) := by
  change told event process ((if op = .registerAppDebugListener (some listener) then []
    else h.since listener) ++ _) = _
  rw [if_neg (hop listener), told, filter_append, flatMap_append, countOf_append]
  rfl

lemma Listening.registerAppDebugListener (hinv : Listening h) (listener : ℕ) :
    Listening (h.step (.registerAppDebugListener (some listener))) := by
  have hlisteners : (h.step (.registerAppDebugListener (some listener))).manager.listeners =
      if listener ∈ h.manager.listeners then h.manager.listeners
      else h.manager.listeners ++ [listener] := rfl
  have hsince (other : ℕ) : (h.step (.registerAppDebugListener (some listener))).since other =
      if other = listener then
        (if h.manager.debugInfos.isEmpty then []
          else [⟨listener, .onAppDebugStarted, h.manager.debugInfos⟩])
      else h.since other := by
    simp only [History.step, AppDebugManager.call, AppDebugManager.registerAppDebugListener]
    by_cases hother : other = listener
    · split_ifs <;> simp_all
    · split_ifs <;> simp_all
  refine ⟨?_, fun other hmem process => ?_⟩
  · rw [hlisteners]
    split_ifs with hknown
    · exact hinv.nodup
    · refine nodup_append.2 ⟨hinv.nodup, by simp, fun a ha b hb hab => ?_⟩
      rw [hab, mem_singleton.1 hb] at ha
      exact hknown ha
  · rw [hsince]
    split_ifs with hother hempty
    · have hnone : h.manager.debugInfos = [] := isEmpty_iff.1 hempty
      change 0 = 0 + countOf process h.manager.debugInfos
      rw [hnone]
      rfl
    · rw [told_singleton, told_singleton]
      simp only [reduceCtorEq, if_false, Nat.zero_add]
      rfl
    · have hold : other ∈ h.manager.listeners := by
        rw [hlisteners] at hmem
        split_ifs at hmem
        · exact hmem
        · exact (mem_append.1 hmem).resolve_right (by simpa using hother)
      exact hinv.informed other hold process

lemma Listening.notified (hinv : Listening h) {op : Op}
    (hop : ∀ listener, op ≠ .registerAppDebugListener (some listener))
    (hlisteners : (h.manager.step op).listeners = h.manager.listeners) (event : DebugEvent)
    (infos : List AppDebugInfo)
    (hreports : (h.manager.call op).reports = (h.manager.step op).notify event infos)
    (hbalance : ∀ process, countOf process (h.manager.step op).debugInfos +
          (if event = .onAppDebugStoped then countOf process infos else 0) =
        countOf process h.manager.debugInfos +
          if event = .onAppDebugStarted then countOf process infos else 0) :
    Listening (h.step op) := by
  have hnodup : (h.manager.step op).listeners.Nodup := hlisteners ▸ hinv.nodup
  refine ⟨hnodup, fun listener hmem process => ?_⟩
  have hbefore := hinv.informed listener (hlisteners ▸ hmem) process
  have hchange := hbalance process
  rw [told_since hop, told_since hop, hreports, told_notify hnodup hmem, told_notify hnodup hmem]
  change _ = _ + countOf process (h.manager.step op).debugInfos
  omega

lemma countOf_startDebug (s : AppDebugManager) (infos : List AppDebugInfo)
    (process : DebugProcess) :
    countOf process (s.step (.startDebug infos)).debugInfos = countOf process s.debugInfos +
      countOf process (incrementLoop s.debugInfos [] infos).2 := by
  have hprocesses := (incrementLoop_processes s.debugInfos [] infos).1
  change countOf process ((incrementLoop s.debugInfos [] infos).1 ++
    (incrementLoop s.debugInfos [] infos).2) = _
  rw [countOf_append, countOf, hprocesses]
  rfl

lemma Listening.step (hinv : Listening h) (op : Op) : Listening (h.step op) := by
  cases op with
  | registerAppDebugListener listener =>
    cases listener with
    | none => exact hinv.notified (by simp) rfl .onAppDebugStarted [] rfl fun _ => rfl
    | some listener => exact hinv.registerAppDebugListener listener
  | unregisterAppDebugListener listener =>
    cases listener with
    | none => exact hinv.notified (by simp) rfl .onAppDebugStarted [] rfl fun _ => rfl
    | some listener =>
      refine ⟨hinv.nodup.erase listener, fun other hmem process => ?_⟩
      rw [told_since (by simp), told_since (by simp)]
      exact hinv.informed other (mem_of_mem_erase hmem) process
  | startDebug infos =>
    refine hinv.notified (by simp) rfl .onAppDebugStarted
      (incrementLoop h.manager.debugInfos [] infos).2 rfl fun process => ?_
    exact countOf_startDebug h.manager infos process
  | stopDebug infos =>
    refine hinv.notified (by simp) rfl .onAppDebugStoped
      (stopLoop h.manager.debugInfos [] infos).2 rfl fun process => ?_
    exact stopLoop_countOf h.manager.debugInfos [] infos process
  | removeAppDebugInfo info =>
    by_cases hmem : info ∈ h.manager.debugInfos
    · have hcall : h.manager.call (.removeAppDebugInfo info) =
          ⟨{ h.manager with debugInfos := h.manager.debugInfos.erase info },
            h.manager.notify .onAppDebugStoped [info], .ok⟩ := if_pos hmem
      refine hinv.notified (by simp) ?_ .onAppDebugStoped [info] ?_ fun process => ?_
      · rw [AppDebugManager.step, hcall]
      · rw [AppDebugManager.step, hcall]
        rfl
      · rw [AppDebugManager.step, hcall]
        exact countOf_erase hmem process
    · have hcall : h.manager.call (.removeAppDebugInfo info) = ⟨h.manager, [], .ok⟩ := if_neg hmem
      refine hinv.notified (by simp) ?_ .onAppDebugStoped [] ?_ fun process => ?_
      · rw [AppDebugManager.step, hcall]
      · rw [hcall]
        rfl
      · rw [AppDebugManager.step, hcall]
        rfl

end Steps

lemma atMostOne_step_iff (op : Op) (h : AtMostOne s) :
    AtMostOne (s.step op) ↔ namesOnce s op = true := by
  have hsub {infos : List AppDebugInfo} (hinfos : infos.Sublist s.debugInfos) :
      (infos.map process).Nodup := (hinfos.map _).nodup h
  cases op with
  | registerAppDebugListener listener => cases listener <;> exact iff_of_true h rfl
  | unregisterAppDebugListener listener => cases listener <;> exact iff_of_true h rfl
  | stopDebug infos => exact iff_of_true (hsub (stopLoop_sublist _ _ _)) rfl
  | removeAppDebugInfo info =>
    refine iff_of_true ?_ rfl
    change AtMostOne (if info ∈ s.debugInfos then _ else _ : Result).manager
    split_ifs
    · exact hsub erase_sublist
    · exact h
  | startDebug infos =>
    obtain ⟨hprocesses, hincrement⟩ := incrementLoop_processes s.debugInfos [] infos
    have hentries : (s.step (.startDebug infos)).debugInfos.map process =
        s.debugInfos.map AppDebugInfo.process ++
          (infos.map process).filter fun process =>
            process ∉ s.debugInfos.map AppDebugInfo.process := by
      change ((incrementLoop s.debugInfos [] infos).1 ++
        (incrementLoop s.debugInfos [] infos).2).map process = _
      rw [map_append, hprocesses, hincrement, filter_map]
      rfl
    rw [AtMostOne, hentries, nodup_append, namesOnce, decide_eq_true_eq]
    refine ⟨fun hall => hall.2.1, fun hnew => ⟨h, hnew, fun a ha b hb hab => ?_⟩⟩
    rw [hab] at ha
    exact absurd ha (by simpa using (mem_filter.1 hb).2)

lemma manager_run (ops : List Op) : (History.run ops).manager = ops.foldl step {} :=
  Runs.simulation (R := fun (h : History) s => h.manager = s)
    (fun _ _ _ hmanager => congrArg (step · _) hmanager) rfl ops

theorem run_balanced (ops : List Op) : Informed (History.run ops) ∧
      ((∀ n, AtMostOne (History.run (ops.take n)).manager) ↔
        Runs.Guarded step (fun s op => namesOnce s op = true) {} ops) := by
  have hlistening : Listening (History.run ops) :=
    List.foldlRecOn ops History.step ⟨nodup_nil, fun _ hmem => nomatch hmem⟩
      fun _ hinv op _ => hinv.step op
  refine ⟨hlistening.informed, ?_⟩
  have hempty : AtMostOne {} := nodup_nil
  simp only [manager_run]
  exact Runs.guarded_iff_forall_take atMostOne_step_iff hempty ops

def notes : AppDebugInfo := ⟨"notes", 20, 100, false⟩

def namedTwice : History :=
  History.run [.registerAppDebugListener (some 1), .startDebug [notes, notes], .stopDebug [notes]]

theorem namedTwice_not_atMostOne : ¬AtMostOne (History.run [.registerAppDebugListener (some 1),
        .startDebug [notes, notes]]).manager ∧
      namedTwice.since 1 =
        [⟨1, .onAppDebugStarted, [notes, notes]⟩, ⟨1, .onAppDebugStoped, [notes]⟩] ∧
      namedTwice.manager.debugInfos = [notes] := by
  refine ⟨?_, by decide +kernel, by decide +kernel⟩
  unfold AtMostOne
  decide +kernel

end AbilityRuntime.AppDebug
