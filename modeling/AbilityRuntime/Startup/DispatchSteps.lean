import Mathlib.Data.List.Flatten
import AbilityRuntime.Startup.DispatchLedger

/-! Every step of the dispatcher keeps its invariant. -/

namespace AbilityRuntime.Startup.StartupTaskDispatcher
open RunState List SortedMap Nat TaskMap TaskObject UInt32 StartupTopologySort
open AbilityRuntime.Startup.Frame

section Steps
variable {d : StartupTaskDispatcher} {s : RunState}

structure Prepared (d : StartupTaskDispatcher) : Prop where
  wellFormed : d.tasks.WellFormed
  sorted : ∃ r, d.sortResult = some r ∧ StartupTopologySort.Sorted d.tasks r

variable {name : String}

lemma Prepared.find? (hd : Prepared d) (hname : name ∈ d.tasks.keys) :
    ∃ task, d.tasks.find? name = some (some task) ∧ task.name = name := by
  obtain ⟨task, htask, rfl⟩ := exists_task hd.wellFormed.named (mem_keys.mp hname)
  exact ⟨task, (mem_tasks hd.wellFormed.named).mp htask, rfl⟩

variable {result : ResultPtr} {stack : List Frame}

protected lemma Inv.lowerAwaitCount (h : Inv d.tasks s)
    (hstack : s.stack = .start name result [] :: stack) :
    Inv d.tasks (lowerAwaitCount d { s with stack } name result) := by
  have hfinish : Inv d.tasks { s with stack := .finish name result :: stack } :=
    h.next (l := [_]) hstack rfl rfl ⟨⟨.refl _, rfl, nil_sublist _, .refl _,
      fun _ => forall_mem_singleton.mpr trivial⟩, .refl _, rfl⟩
  unfold lowerAwaitCount
  dsimp only
  split
  · rename_i hfind
    split
    · have hwaits : waits d.tasks name = true := by rwa [waits, hfind]
      have hcovers := h.awaitCount
      rw [hstack] at hcovers
      obtain ⟨hpos, hlower⟩ := Covers.lower hcovers hwaits h.graph.done_subperm
      have hlowered := hfinish.recount h.posted hfinish.tasksCount hlower
        (Bool.or_eq_false_iff.mpr ⟨h.underflow, hpos⟩)
      split_ifs with hzero
      · refine hlowered.callOnCompleted fun _ => ?_
        exact Covers.zero (hzero ▸ hlower) h.graph.done_subperm h.graph.done_nodup
      · exact hlowered
    · exact hfinish
  · exact hfinish

protected lemma Inv.lowerTasksCount (h : Inv d.tasks s)
    (hstack : s.stack = .finish name result :: stack) :
    Inv d.tasks (lowerTasksCount { s with stack } result) := by
  have hpop : Inv d.tasks { s with stack } := h.pop hstack rfl rfl rfl
  have hcovers := h.tasksCount
  rw [hstack] at hcovers
  obtain ⟨hpos, hlower⟩ := Covers.lower hcovers rfl h.graph.done_subperm
  have hlowered := hpop.recount h.posted hlower hpop.awaitCount
    (Bool.or_eq_false_iff.mpr ⟨h.underflow, hpos⟩)
  unfold lowerTasksCount
  dsimp only
  split_ifs with hzero
  · refine hlowered.callOnCompleted fun _ name hname => ?_
    exact Covers.zero (hzero ▸ hlower) h.graph.done_subperm h.graph.done_nodup name hname rfl
  · exact hlowered

protected lemma Inv.dispatch (hd : Prepared d) (h : Inv d.tasks s) (hspare : Spare s name)
    (result : Option ResultPtr) : Inv d.tasks (dispatch d s name result) := by
  have hready := h.graph.ready name (mem_append_right _ (mem_startedNames_of_spare hspare))
  cases result with
  | none => exact (h.dispatched_error hspare (by simp)).onErrorCode _ (by decide)
  | some result =>
    unfold dispatch
    dsimp only [Option.map_some]
    split_ifs with hcode
    · have hlogged := h.dispatched_error hspare fun hok => hcode (Option.some.inj hok)
      exact hlogged.onErrorResult name hcode
    · obtain ⟨task, hfind, -⟩ := hd.find? hready.1
      obtain ⟨r, hr, hsorted⟩ := hd.sorted
      have hcontains := hsorted.contains name (mem_keys.mp hready.1)
      obtain ⟨children, hchildren⟩ := contains_iff.mp hcontains
      have heq : children = childrenOf d.tasks.tasks name := by
        rw [← hsorted.children, childrenAt, hchildren]
        rfl
      have hnotify := h.dispatched_ok hspare
        (fun n _ => heq ▸ count_childrenOf hd.wellFormed.named)
        (fun c hc => contains_of_mem_childrenOf hd.wellFormed.named (heq ▸ hc)) result
      simp only [hfind, notifyChildren, hr, hchildren, not_not.mp hcode]
      exact hnotify

protected lemma Inv.callFunc (hd : Prepared d) (h : Inv d.tasks s) {func : CallbackFunc}
    {funcs : List CallbackFunc} {result : Option ResultPtr}
    (hstack : s.stack = .call (func :: funcs) result :: stack) :
    Inv d.tasks (callFunc d { s with stack := .call funcs result :: stack } result func) := by
  have hlive : ∀ f, (live s).count f =
      (live { s with stack := .call funcs result :: stack }).count f + [func].count f := by
    simp only [live, hstack, flatMap_cons, Frame.funcs, count_append, count_cons, count_nil]
    omega
  have hextras : s.stack.flatMap extras = stack.flatMap extras := by
    rw [hstack]
    rfl
  have hpop : Inv d.tasks { s with stack := .call funcs result :: stack } :=
    h.next (l := [_]) hstack rfl rfl ⟨⟨.refl _, rfl, .refl _, .refl _,
      fun _ => forall_mem_singleton.mpr trivial⟩, sublist_cons_self _ _, rfl⟩
  cases func with
  | dispatch name =>
    unfold callFunc
    split_ifs
    · exact hpop
    · have hspare : Spare { s with stack := .call funcs result :: stack } name := by
        have hle := (h.tokens name).live_le
        rw [hlive, count_singleton_self, hextras] at hle
        change (dispatchedNames s.log).count name + _ +
          (if (stack.flatMap extras).count name = 0
          then extra s name else 0) < (startedNames s.log).count name
        omega
      exact hpop.dispatch hd hspare result
  | saveResult name =>
    have hsaving := (h.tokens name).saving
    have hexclusive := (h.tokens name).exclusive
    rw [hlive, count_singleton_self] at hsaving hexclusive
    rw [hextras] at hexclusive
    have hnone :
        (live { s with stack := .call funcs result :: stack }).count (.saveResult name) = 0 := by
      split_ifs at hsaving <;> omega
    have hcalling : (startedNames s.log).count name = 0 ∨ 0 < extra s name →
        (stack.flatMap extras).count name = 0 :=
      fun hor => by
        omega
    have hsave := hpop.save hnone hcalling result
    unfold callFunc
    dsimp only
    rw [setObject_self, saveResult_extraCallbacks]
    exact hsave
  | other => exact hpop

protected lemma Inv.notifyChild (hd : Prepared d) (h : Inv d.tasks s) {child : String}
    {children : List String} {zeroInDegree : List StartupTask}
    (hstack : s.stack = .notify name result (child :: children) zeroInDegree :: stack) :
    Inv d.tasks (notifyChild d { s with stack } name result child children zeroInDegree) := by
  have hchild := (h.frames_cons hstack).1 child mem_cons_self
  obtain ⟨task, hfind, hname⟩ := hd.find? (mem_keys.mpr hchild)
  simp only [notifyChild, h.graph.degrees child hchild, hfind]
  exact h.next (l := [_, _]) hstack rfl rfl
    ⟨⟨.refl _, rfl, .refl _, .refl _, by simp [Frame.Ok, hname]⟩, .refl _, rfl⟩

lemma Inv.startNext (h : Inv d.tasks s) {f f' : Frame} {task : StartupTask}
    (hstack : s.stack = f :: stack) (hwaiting : f.waiting = task.name :: f'.waiting)
    (hr : Restack d.tasks [f] [f']) :
    Inv d.tasks (runTaskInit { s with stack := f' :: stack } task.name task) := by
  have hstarts := h.graph.starts
  have hready := h.graph.ready
  rw [hstack, flatMap_cons, hwaiting] at hstarts hready
  have hnext : Inv d.tasks { s with stack := f' :: stack } := h.next hstack rfl rfl hr
  exact hnext.runTaskInit (nodup_cons.mp hstarts).1 (hready _ mem_cons_self).1
    (hready _ mem_cons_self).2

lemma Inv.runNext (hd : Prepared d) (h : Inv d.tasks s) {names : List String}
    (hstack : s.stack = .run (name :: names) :: stack) :
    Inv d.tasks (runNext d { s with stack := .run names :: stack } name) := by
  have hready := h.graph.ready name (by simp [hstack, waiting])
  obtain ⟨task, hfind, rfl⟩ := hd.find? hready.1
  simp only [runNext, hfind]
  exact h.startNext hstack rfl ⟨⟨sublist_cons_self _ _, rfl, .refl _, .refl _,
    fun _ => forall_mem_singleton.mpr trivial⟩, .refl _, rfl⟩

lemma Inv.post (h : Inv d.tasks s) (hstack : s.stack = .post result :: stack) :
    Inv d.tasks { s with stack, posted := s.posted ++ [result] } := by
  have hpop : Inv d.tasks { s with stack } := h.pop hstack rfl rfl rfl
  have hposted : ∀ r ∈ s.posted ++ [result], r.resultCode ≠ errOk := by
    intro r hr
    rcases mem_append.mp hr with hr | hr
    · exact h.posted r hr
    · rw [mem_singleton.mp hr]
      exact (h.frames_cons hstack).1
  exact hpop.recount hposted hpop.tasksCount hpop.awaitCount h.underflow

protected lemma Inv.advance (hd : Prepared d) (h : Inv d.tasks s) : Inv d.tasks (advance d s) := by
  unfold advance
  split
  · exact h
  · rename_i hstack
    exact h.pop hstack rfl rfl rfl
  · rename_i hstack
    exact h.runNext hd hstack
  · rename_i hstack
    exact h.pop hstack rfl rfl rfl
  · rename_i hstack
    exact h.callFunc hd hstack
  · rename_i hstack
    exact h.clearExtra hstack
  · rename_i hstack
    exact h.next (l := [_, _]) hstack rfl rfl
      ⟨⟨.refl _, rfl, .refl _, .refl _, by simp [Frame.Ok]⟩, by simp [funcs], rfl⟩
  · rename_i hstack
    exact h.next (l := [_]) hstack rfl rfl ⟨⟨.refl _, rfl, .refl _, .refl _,
      fun _ => forall_mem_singleton.mpr trivial⟩, .refl _, rfl⟩
  · rename_i hstack
    exact h.notifyChild hd hstack
  · rename_i hstack
    exact h.lowered hstack
  · rename_i hstack
    exact h.lowerAwaitCount hstack
  · rename_i hstack
    exact h.startNext hstack rfl ⟨⟨sublist_cons_self _ _, rfl, .refl _, .refl _,
      fun _ => forall_mem_singleton.mpr trivial⟩, .refl _, rfl⟩
  · rename_i hstack
    exact h.lowerTasksCount hstack
  · rename_i hstack
    exact h.post hstack
  · exact h
  · exact h
  · exact h

protected lemma Inv.leave (h : Inv d.tasks s) (code : Int32) : Inv d.tasks (leave s code) := by
  unfold leave
  split
  · rename_i stack hstack
    have hpop : Inv d.tasks { s with stack } := h.pop hstack rfl rfl rfl
    split_ifs
    · exact hpop
    · exact hpop.fail code
  · rename_i hstack
    exact h.pop hstack rfl rfl rfl
  · rename_i hstack
    exact h.pop hstack rfl rfl rfl
  · exact h

lemma count_flatten_eraseIdx {callbacks : List StartupTaskResultCallback} {index : ℕ}
    {callback : StartupTaskResultCallback} (h : callbacks[index]? = some callback)
    (f : CallbackFunc) :
    callbacks.flatten.count f = callback.count f + (callbacks.eraseIdx index).flatten.count f := by
  induction callbacks generalizing index with
  | nil => simp at h
  | cons c cs ih =>
    cases index with
    | zero =>
      obtain rfl : c = callback := by simpa using h
      simp
    | succ index =>
      have htail := ih (by simpa using h)
      simp only [flatten_cons, eraseIdx_cons_succ, count_append]
      omega

section
variable (h : Inv d.tasks s)
include h

protected lemma Inv.complete (index : ℕ) (result : Option (Int32 × String)) :
    Inv d.tasks (complete s index result) := by
  unfold complete
  split
  · exact h
  · rename_i callback hcallback
    have hcall : Inert d.tasks (.call callback (result.map fun r => ⟨r.1, s.messages.length⟩)) :=
      ⟨rfl, rfl, rfl, rfl, trivial⟩
    refine h.retoken rfl (hcall.reframe s.stack) fun name => ?_
    have hcount := count_flatten_eraseIdx hcallback
    refine (h.tokens name).mono rfl rfl ?_ ?_ rfl <;>
      (simp only [live, flatMap_cons, funcs, count_append, hcount]; omega)

lemma Inv.drop (index : ℕ) : Inv d.tasks { s with held := s.held.eraseIdx index } := by
  have hheld : (s.held.eraseIdx index).flatten.Sublist s.held.flatten :=
    (eraseIdx_sublist s.held index).flatten
  have hlive : (live { s with held := s.held.eraseIdx index }).Sublist (live s) :=
    hheld.append_right _
  exact h.retoken rfl (.refl s.stack) fun name =>
    (h.tokens name).mono rfl rfl (hlive.count_le _) (hlive.count_le _) rfl

protected lemma Inv.runPosted : Inv d.tasks (runPosted s) := by
  unfold runPosted
  split
  · exact h
  · rename_i result posted hposted
    have herr := h.posted
    rw [hposted] at herr
    have hrest : Inv d.tasks { s with posted } :=
      h.recount (fun r hr => herr r (mem_cons_of_mem _ hr)) h.tasksCount h.awaitCount h.underflow
    exact hrest.callOnCompleted fun hok => absurd hok (herr result mem_cons_self)

lemma Inv.otherHold (hfree : name ∉ s.stack.flatMap extras)
    (hstate : (s.objects name).state = .created) :
    Inv d.tasks { s.setObject name TaskObject.initializing with
      held := s.held ++ [[.saveResult name, .other]] } := by
  obtain ⟨s', hs'⟩ : ∃ s', s' = { s.setObject name initializing with
    held := s.held ++ [[CallbackFunc.saveResult name, .other]] } := ⟨_, rfl⟩
  have hlive : ∀ f, (live s').count f =
      (live s).count f + [CallbackFunc.saveResult name, .other].count f := by
    simp only [hs', live, setObject, flatten_append, flatten_cons, flatten_nil,
      append_nil, count_append]
    omega
  have hextras : s'.stack.flatMap extras = s.stack.flatMap extras := by rw [hs', setObject]
  refine h.retoken rfl (.refl s.stack) fun n => ?_
  rw [← hs']
  have hold := h.tokens n
  by_cases hn : n = name
  · subst hn
    have hobject : s'.objects n = (s.objects n).initializing := by
      rw [hs']
      exact setObject_self s n _
    have hextra : extra s' n = extra s n := by rw [extra, extra, hobject, initializing]
    have hlog : s'.log = s.log := by rw [hs', setObject]
    have hsaving := hold.saving
    rw [hstate, if_neg (by decide), le_zero] at hsaving
    have hone : (live s').count (.saveResult n) = 1 := by
      rw [hlive, hsaving]
      simp
    refine ⟨?_, ?_, ?_, fun _ => ?_, ?_⟩
    · rw [hextra, hlog]
      exact hold.extra_le
    · rw [hextra, hlog, hextras, hlive]
      exact hold.live_le
    · rw [hone, hobject, initializing, if_pos rfl]
    · rw [hone, hextras, count_eq_zero.mpr hfree]
    · rw [hobject]
      exact hold.own
  · refine hold.mono (by rw [hs']; exact setObject_of_ne s _ hn) (by rw [hs', setObject]) ?_ ?_ ?_
    · rw [hlive]
      simp
    · rw [hlive]
      simp [Ne.symm hn]
    · rw [hextras]

lemma Inv.otherExtra (hstate : (s.objects name).state = .initializing) :
    Inv d.tasks (s.setObject name fun o => (o.addExtraCallback [.other]).2) := by
  have hold := h.tokens name
  have hobject : (s.setObject name fun o => (o.addExtraCallback [.other]).2).objects name =
      { s.objects name with extraCallbacks := (s.objects name).extraCallbacks ++ [[.other]] } := by
    rw [setObject_self, TaskObject.addExtraCallback, if_neg (not_not.mpr hstate)]
  refine h.setObject (hold.reobject rfl ?_ ?_ le_rfl le_rfl ?_ rfl)
  · rw [extra, extra, hobject]
    simp
  · rw [hobject, flatten_append]
    intro func hfunc
    rcases mem_append.mp hfunc with hfunc | hfunc
    · exact hold.own func hfunc
    · exact .inr (by simpa using hfunc)
  · rw [hobject]
    exact hold.saving

protected lemma Inv.otherRun (hfree : name ∉ s.stack.flatMap extras) :
    Inv d.tasks (otherRun s name) := by
  unfold otherRun
  split
  · rename_i hstate
    exact h.otherHold hfree hstate
  · rename_i hstate
    exact h.otherExtra hstate
  · exact h

lemma Inv.removeResult (name : String) :
    Inv d.tasks (s.setObject name fun o => o.removeResult.2) := by
  have hobject := setObject_self s name fun o => o.removeResult.2
  have hcallbacks : (s.objects name).removeResult.2.extraCallbacks =
      (s.objects name).extraCallbacks := by
    unfold TaskObject.removeResult
    split_ifs <;> rfl
  refine h.setObject ((h.tokens name).reobject rfl ?_ ?_ le_rfl le_rfl ?_ rfl)
  · rw [extra, extra, hobject, hcallbacks]
  · rw [hobject, hcallbacks]
    exact (h.tokens name).own
  · have hsaving := (h.tokens name).saving
    rw [hobject]
    unfold TaskObject.removeResult
    by_cases hinit : (s.objects name).state = .initialized
    · rw [hinit] at hsaving
      exact hsaving.trans (zero_le _)
    · rw [if_pos hinit]
      exact hsaving

end

def Apart (s : RunState) : Action → Prop
  | .otherRun name | .removeResult name => name ∉ s.stack.flatMap extras
  | _ => True

instance (s : RunState) (a : Action) : Decidable (Apart s a) := by
  unfold Apart
  split <;> infer_instance

protected lemma Inv.step (hd : Prepared d) (h : Inv d.tasks s) {a : Action} (ha : Apart s a) :
    Inv d.tasks (step d s a) := by
  cases a with
  | advance => exact h.advance hd
  | leave code => exact h.leave code
  | complete index result =>
    dsimp only [step]
    split_ifs
    · exact h.complete index result
    · exact h
  | drop index =>
    dsimp only [step]
    split_ifs
    · exact h.drop index
    · exact h
  | runPosted =>
    dsimp only [step]
    split_ifs
    · exact h.runPosted
    · exact h
  | otherRun name =>
    dsimp only [step]
    split_ifs
    · exact h.otherRun ha
    · exact h
  | removeResult name =>
    dsimp only [step]
    split_ifs
    · exact h.removeResult name
    · exact h
  | release => exact h.restack rfl (.refl s.stack)

end Steps

section Start
variable {d : StartupTaskDispatcher}

lemma countTasks_spec (l : List StartupTask) (hnodup : (l.map StartupTask.name).Nodup)
    (inDegreeMap : SortedMap String UInt32) (count : UInt32)
    (hfresh : ∀ t ∈ l, inDegreeMap.find? t.name = none) :
    ∃ inDegreeMap', countTasks (l.map fun t => (t.name, some t)) (inDegreeMap, count) =
        .ok (inDegreeMap', count + UInt32.ofNat (l.countP (·.waitOnMainThread))) ∧
      (∀ t ∈ l, inDegreeMap'.find? t.name = some t.getDependenciesCount) ∧
      ∀ name, name ∉ l.map StartupTask.name → inDegreeMap'.find? name = inDegreeMap.find? name := by
  induction l generalizing inDegreeMap count with
  | nil =>
    have hzero : count + ofNat 0 = count := UInt32.add_zero count
    refine ⟨inDegreeMap, ?_, by simp, fun _ _ => rfl⟩
    rw [countP_nil, hzero]
    rfl
  | cons t l ih =>
    rw [map_cons, nodup_cons] at hnodup
    have hnew : inDegreeMap.find? t.name = none := hfresh t mem_cons_self
    have hother : ∀ name, name ≠ t.name →
        (inDegreeMap.emplace t.name t.getDependenciesCount).find? name = inDegreeMap.find? name :=
      fun name hname => by rw [find?_emplace, if_neg (Ne.symm hname)]
    have htail : ∀ t' ∈ l,
        (inDegreeMap.emplace t.name t.getDependenciesCount).find? t'.name = none := by
      intro t' ht'
      rw [hother _ fun he => hnodup.1 (he ▸ mem_map_of_mem ht')]
      exact hfresh t' (mem_cons_of_mem _ ht')
    obtain ⟨result, hrun, hfound, hkept⟩ :=
      ih hnodup.2 (inDegreeMap.emplace t.name t.getDependenciesCount)
      (if t.waitOnMainThread then count + 1 else count) htail
    refine ⟨result, ?_, ?_, ?_⟩
    · refine hrun.trans ?_
      cases hwait : t.waitOnMainThread
      · rw [countP_cons_of_neg (by simp [hwait])]
        rfl
      · rw [countP_cons_of_pos hwait, if_pos rfl, UInt32.add_assoc, Nat.add_comm, ofNat_add]
        rfl
    · refine forall_mem_cons.mpr ⟨?_, hfound⟩
      rw [hkept _ hnodup.1, find?_emplace, if_pos rfl, hnew]
      rfl
    · intro name hname
      rw [map_cons, mem_cons, not_or] at hname
      rw [hkept name hname.2, hother name hname.1]

lemma tokens_world (w : World) {s : RunState} (hobjects : s.objects = w.objects)
    (hheld : s.held = w.held)
    (hlog : s.log = [])
    (hstack : s.stack.flatMap funcs = [] ∧ s.stack.flatMap extras = [])
    (name : String) : Tokens s name := by
  have hlive : live s = w.held.flatten := by rw [live, hheld, hstack.1, append_nil]
  have hother : ∀ func ∈ (s.objects name).extraCallbacks.flatten, func = .other := by
    intro func hfunc
    rw [hobjects] at hfunc
    obtain ⟨callback, hcallback, hmem⟩ := mem_flatten.mp hfunc
    exact w.extra_other name callback hcallback func hmem
  have hextra : extra s name = 0 := count_eq_zero.mpr fun hmem => by simpa using hother _ hmem
  have hsaving := w.saving name
  refine ⟨?_, ?_, ?_, fun _ => ?_, fun func hfunc => .inr (hother func hfunc)⟩
  · rw [hextra]
    exact zero_le _
  · rw [hextra, hlog, hlive, count_eq_zero.mpr (w.held_other name)]
    simp [dispatchedNames]
  · rw [hlive, hobjects]
    exact hsaving
  · rw [hlive, hstack.2]
    split_ifs at hsaving
    · exact hsaving
    · exact hsaving.trans (zero_le _)

lemma countP_waits (hd : Prepared d) :
    d.tasks.keys.countP (waits d.tasks) = d.tasks.tasks.countP (·.waitOnMainThread) := by
  rw [keys_eq hd.wellFormed.named, countP_map]
  refine countP_congr fun t ht => ?_
  rw [Function.comp_apply, waits, (mem_tasks hd.wellFormed.named).mp ht]

def counted (d : StartupTaskDispatcher) (w : World)
    (callback : Completion → Option OnCompletedCallback) (r : StartupSortResult)
    (inDegreeMap : SortedMap String UInt32) : RunState :=
  ⟨w.objects, w.held, inDegreeMap, UInt32.ofNat (d.tasks.tasks.countP (·.waitOnMainThread)),
    UInt32.ofNat d.tasks.size, callback, [.run r.zeroDequeResult], [], w.messages, false, none, [],
    false⟩

variable (hd : Prepared d) (w : World) (callback : Completion → Option OnCompletedCallback)
include hd

lemma run_eq : ∃ r inDegreeMap, StartupTopologySort.Sorted d.tasks r ∧
      (∀ t ∈ d.tasks.tasks, inDegreeMap.find? t.name = some t.getDependenciesCount) ∧
      run d w callback = if (counted d w callback r inDegreeMap).mainThreadAwaitCount = 0 then
        callOnCompleted { counted d w callback r inDegreeMap with messages := w.messages ++ [""] }
          .mainThreadAwait ⟨errOk, w.messages.length⟩
        else counted d w callback r inDegreeMap := by
  have hw := hd.wellFormed.named
  obtain ⟨r, hr, hsorted⟩ := hd.sorted
  have hnames : (d.tasks.tasks.map StartupTask.name).Nodup := keys_eq hw ▸ d.tasks.nodup_keys
  obtain ⟨inDegreeMap, hcount, hfound, -⟩ :=
    countTasks_spec d.tasks.tasks hnames .empty 0 fun _ _ => rfl
  rw [UInt32.zero_add, ← entries_eq hw] at hcount
  refine ⟨r, inDegreeMap, hsorted, hfound, ?_⟩
  unfold run runOn
  simp only [hr, hcount]
  rfl

section Counted
variable {r : StartupSortResult} {inDegreeMap : SortedMap String UInt32}

section
variable (hfound : ∀ t ∈ d.tasks.tasks, inDegreeMap.find? t.name = some t.getDependenciesCount)
include hfound

lemma find?_counted
    {name : String} (hname : name ∈ d.tasks.keys) : ∃ t ∈ d.tasks.tasks, t.name = name ∧
      inDegreeMap.find? name = some t.getDependenciesCount := by
  obtain ⟨t, ht, rfl⟩ := exists_task hd.wellFormed.named (mem_keys.mp hname)
  exact ⟨t, ht, rfl, hfound t ht⟩

lemma inDegree_counted {name : String} (hname : name ∈ d.tasks.keys) :
    inDegree (counted d w callback r inDegreeMap) name = (d.tasks.deps name).length := by
  obtain ⟨t, ht, rfl, hvalue⟩ := find?_counted hd hfound hname
  rw [inDegree, counted, hvalue, deps_name hd.wellFormed.named ht]
  exact StartupTask.toNat_getDependenciesCount (hd.wellFormed.counts t ht)

end

lemma zeroDequeResult_eq (hsorted : StartupTopologySort.Sorted d.tasks r) :
    r.zeroDequeResult = d.tasks.keys.filter fun name => (d.tasks.deps name).isEmpty := by
  rw [hsorted.zeroDequeResult, keys_eq hd.wellFormed.named, filter_map]
  exact congrArg _ (filter_congr fun t ht => by rw [Function.comp_apply,
    deps_name hd.wellFormed.named ht])

lemma tasksCount_counted (r : StartupSortResult) (inDegreeMap : SortedMap String UInt32) :
    (counted d w callback r inDegreeMap).tasksCount.toNat = d.tasks.keys.length := by
  rw [length_keys]
  exact toNat_ofNat_of_lt' hd.wellFormed.size_lt

lemma inv_counted (hsorted : StartupTopologySort.Sorted d.tasks r)
    (hfound : ∀ t ∈ d.tasks.tasks, inDegreeMap.find? t.name = some t.getDependenciesCount) :
    Inv d.tasks (counted d w callback r inDegreeMap) := by
  have hdegree : ∀ name ∈ d.tasks.keys, inDegree (counted d w callback r inDegreeMap) name =
      (d.tasks.deps name).length := fun name => inDegree_counted hd w callback hfound
  have hqueue := zeroDequeResult_eq hd hsorted
  have hcount := tasksCount_counted hd w callback r inDegreeMap
  have hwaits : d.tasks.tasks.countP (·.waitOnMainThread) < 2 ^ 32 := by
    rw [← countP_waits hd]
    exact lt_of_le_of_lt (countP_le_length.trans_eq (length_keys _)) hd.wellFormed.size_lt
  have hwaiting : (counted d w callback r inDegreeMap).stack.flatMap waiting ++
      startedNames (counted d w callback r inDegreeMap).log = r.zeroDequeResult := by
    simp [counted, waiting, startedNames]
  refine ⟨⟨⟨r.zeroDequeResult, ?_⟩, ?_, ?_, ?_⟩, tokens_world w rfl rfl rfl ⟨rfl, rfl⟩, ?_, ?_, ?_,
    ?_, trivial, rfl⟩
  · exact .init d.tasks.nodup_keys hdegree hqueue
  · intro name hname
    obtain ⟨t, -, -, hvalue⟩ := find?_counted hd hfound (mem_keys.mpr hname)
    exact contains_iff.mpr ⟨_, hvalue⟩
  · rw [hwaiting, hqueue]
    exact d.tasks.nodup_keys.filter _
  · intro name hname
    rw [hwaiting, hqueue, mem_filter] at hname
    refine ⟨hname.1, ?_⟩
    rw [hdegree name hname.1, isEmpty_iff.mp hname.2, length_nil]
  · simp [counted, Frame.Ok]
  · simp [counted]
  · rw [Covers, hcount, countP_true]
    exact le_rfl
  · rw [Covers, counted, toNat_ofNat_of_lt' hwaits, ← countP_waits hd]
    exact le_rfl

end Counted

lemma inv_run : Inv d.tasks (run d w callback) := by
  obtain ⟨r, inDegreeMap, hsorted, hfound, hrun⟩ := run_eq hd w callback
  have hinv := inv_counted hd w callback hsorted hfound
  rw [hrun]
  split_ifs with hzero
  · have hmessage : Inv d.tasks { counted d w callback r inDegreeMap with
        messages := w.messages ++ [""] } :=
      hinv.restack rfl (.refl _)
    have hcovers := hinv.awaitCount
    refine hmessage.callOnCompleted fun _ => ?_
    exact Covers.zero (hzero ▸ hcovers) hinv.graph.done_subperm hinv.graph.done_nodup
  · exact hinv

end Start

end AbilityRuntime.Startup.StartupTaskDispatcher
