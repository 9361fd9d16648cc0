import AbilityRuntime.Startup.Dispatcher

/-! The invariant of a run of the dispatcher: the counting algorithm of the sort, with the children
still to visit spread over the call stack; and every task has one start, one callback and one
dispatch to spend. -/

open List

namespace AbilityRuntime.Startup
open SortedMap TaskObject

namespace Frame

def waiting : Frame → List String
  | .run names => names
  | .notify _ _ _ zeroInDegree => zeroInDegree.map StartupTask.name
  | .lower _ _ _ _ _ zeroInDegree => zeroInDegree.map StartupTask.name
  | .start _ _ zeroInDegree => zeroInDegree.map StartupTask.name
  | _ => []

def funcs : Frame → List CallbackFunc
  | .call funcs _ => funcs
  | .callExtra _ callbacks _ => callbacks.flatten
  | _ => []

def extras : Frame → List String
  | .callExtra name _ _ => [name]
  | _ => []

def children : Frame → List String
  | .notify _ _ children _ => children
  | .lower _ _ child _ children _ => child :: children
  | _ => []

def awaiting : Frame → List String
  | .notify name _ _ _ => [name]
  | .lower name _ _ _ _ _ => [name]
  | .start name _ _ => [name]
  | _ => []

def finishing : Frame → List String
  | .finish name _ => [name]
  | f => f.awaiting

def Ok (tasks : TaskMap) : Frame → Prop
  | .post result => result.resultCode ≠ errOk
  | .notify _ _ children _ => ∀ child ∈ children, tasks.contains child = true
  | .lower _ _ child task children _ => task.name = child ∧ ∀ c ∈ child :: children,
      tasks.contains c = true
  | _ => True

def isFunc : Frame → Bool
  | .func _ => true
  | _ => false

def isRun : Frame → Bool
  | .run _ => true
  | _ => false

end Frame

open AbilityRuntime.Startup.Frame

namespace Event

def started? : Event → Option String
  | .started name => some name
  | _ => none

def dispatched? : Event → Option String
  | .dispatched name _ => some name
  | _ => none

def done? : Event → Option String
  | .dispatched name code => if code = some errOk then some name else none
  | _ => none

def isRan (which : Completion) : Event → Bool
  | .ran which' _ => which' = which
  | _ => false

end Event

namespace StartupTaskDispatcher
open RunState

def startedNames (log : List Event) : List String := log.filterMap Event.started?
def dispatchedNames (log : List Event) : List String := log.filterMap Event.dispatched?
def doneNames (log : List Event) : List String := log.filterMap Event.done?

variable (tasks : TaskMap)

def waits (name : String) : Bool :=
  match tasks.find? name with
  | some (some task) => task.waitOnMainThread
  | _ => false

def inDegree (s : RunState) (name : String) : ℕ := ((s.inDegreeMap.find? name).getD 0).toNat

def live (s : RunState) : List CallbackFunc := s.held.flatten ++ s.stack.flatMap funcs

def extra (s : RunState) (name : String) : ℕ :=
  (s.objects name).extraCallbacks.flatten.count (.dispatch name)

def Justified (earlier : List Event) : Event → Prop
  | .started name => name ∉ startedNames earlier ∧ ∀ d ∈ tasks.deps name, d ∈ doneNames earlier
  | .dispatched _ _ => True
  | .ran .completed code => code = errOk → ∀ name ∈ tasks.keys, name ∈ doneNames earlier
  | .ran .mainThreadAwait code => code = errOk → ∀ name ∈ tasks.keys, waits tasks name = true →
      name ∈ doneNames earlier

def Sound (tasks : TaskMap) : List Event → Prop
  | [] => True
  | e :: earlier => Justified tasks earlier e ∧ Sound tasks earlier

structure Graph (tasks : TaskMap) (s : RunState) : Prop where
  frontier : ∃ queue, Kahn.Frontier tasks.keys tasks.deps (inDegree s) queue
    (doneNames s.log).reverse
    (s.stack.flatMap children)
  degrees : ∀ name, tasks.contains name = true → s.inDegreeMap.contains name = true
  starts : (s.stack.flatMap waiting ++ startedNames s.log).Nodup
  ready : ∀ name ∈ s.stack.flatMap waiting ++ startedNames s.log, name ∈ tasks.keys ∧
    inDegree s name = 0

structure Tokens (s : RunState) (name : String) : Prop where
  extra_le : extra s name ≤ (startedNames s.log).count name
  live_le : (dispatchedNames s.log).count name + (live s).count (.dispatch name) +
    (if (s.stack.flatMap extras).count name = 0 then extra s name else 0) ≤
    (startedNames s.log).count name
  saving : (live s).count (.saveResult name) ≤
    if (s.objects name).state = .initializing then 1 else 0
  exclusive : (startedNames s.log).count name = 0 ∨ 0 < extra s name →
    (live s).count (.saveResult name) + (s.stack.flatMap extras).count name ≤ 1
  own : ∀ func ∈ (s.objects name).extraCallbacks.flatten, func = .dispatch name ∨ func = .other

def Covers (p : String → Bool) (count : UInt32) (pending done : List String) :
    Prop :=
  tasks.keys.countP p + pending.countP p ≤ count.toNat + done.countP p

structure Inv (tasks : TaskMap) (s : RunState) : Prop where
  graph : Graph tasks s
  tokens : ∀ name, Tokens s name
  frames : ∀ f ∈ s.stack, f.Ok tasks
  posted : ∀ result ∈ s.posted, result.resultCode ≠ errOk
  tasksCount : Covers tasks (fun _ => true) s.tasksCount (s.stack.flatMap finishing)
    (doneNames s.log)
  awaitCount : Covers tasks (waits tasks) s.mainThreadAwaitCount (s.stack.flatMap awaiting)
    (doneNames s.log)
  sound : Sound tasks s.log
  underflow : s.underflow = false

section Restack
variable {tasks : TaskMap} {s s' : RunState}

structure Reframe (tasks : TaskMap) (stack stack' : List Frame) : Prop where
  waiting : (stack'.flatMap waiting).Sublist (stack.flatMap waiting)
  children : stack'.flatMap children = stack.flatMap children
  awaiting : (stack'.flatMap awaiting).Sublist (stack.flatMap awaiting)
  finishing : (stack'.flatMap finishing).Sublist (stack.flatMap finishing)
  ok : (∀ f ∈ stack, f.Ok tasks) → ∀ f ∈ stack', f.Ok tasks

structure Restack (tasks : TaskMap) (stack stack' : List Frame) :
    Prop extends Reframe tasks stack stack' where
  funcs : (stack'.flatMap funcs).Sublist (stack.flatMap funcs)
  extras : stack'.flatMap extras = stack.flatMap extras

def counts (s : RunState) :=
  (s.inDegreeMap, s.mainThreadAwaitCount, s.tasksCount, s.posted, s.log, s.underflow)

def contents (s : RunState) := (counts s, s.objects, s.held)

lemma counts_eq_iff : counts s' = counts s ↔
    s'.inDegreeMap = s.inDegreeMap ∧ s'.mainThreadAwaitCount = s.mainThreadAwaitCount ∧
      s'.tasksCount = s.tasksCount ∧ s'.posted = s.posted ∧ s'.log = s.log ∧
      s'.underflow = s.underflow := by
  simp [counts]

lemma Reframe.refl (stack : List Frame) : Reframe tasks stack stack :=
  ⟨.refl _, rfl, .refl _, .refl _, id⟩

lemma Restack.refl (stack : List Frame) : Restack tasks stack stack := ⟨.refl stack, .refl _, rfl⟩

lemma Reframe.top {stack : List Frame} {fs fs' : List Frame} (h : Reframe tasks fs fs') :
    Reframe tasks (fs ++ stack) (fs' ++ stack) := by
  refine ⟨?_, ?_, ?_, ?_, ?_⟩
  · simpa only [flatMap_append] using h.waiting.append_right _
  · simp [h.children]
  · simpa only [flatMap_append] using h.awaiting.append_right _
  · simpa only [flatMap_append] using h.finishing.append_right _
  · intro hok f hf
    rcases mem_append.mp hf with hf | hf
    · exact h.ok (fun g hg => hok g (mem_append_left _ hg)) f hf
    · exact hok f (mem_append_right _ hf)

lemma Restack.top {stack : List Frame} {fs fs' : List Frame} (h : Restack tasks fs fs') :
    Restack tasks (fs ++ stack) (fs' ++ stack) := by
  refine ⟨h.toReframe.top, ?_, ?_⟩
  · simpa only [flatMap_append] using h.funcs.append_right _
  · simp [h.extras]

section Frame
variable {f : Frame}

structure Inert (tasks : TaskMap) (f : Frame) : Prop where
  waiting : f.waiting = []
  children : f.children = []
  awaiting : f.awaiting = []
  finishing : f.finishing = []
  ok : f.Ok tasks

lemma Inert.reframe (h : Inert tasks f) (stack : List Frame) :
    Reframe tasks stack (f :: stack) := by
  refine ⟨?_, ?_, ?_, ?_, fun hok => forall_mem_cons.mpr ⟨h.ok, hok⟩⟩ <;>
    simp [h.waiting, h.children, h.awaiting, h.finishing]

lemma Inert.push (h : Inert tasks f) (hfuncs : f.funcs = []) (hextras : f.extras = [])
    (stack : List Frame) : Restack tasks stack (f :: stack) where
  toReframe := h.reframe stack
  funcs := by rw [flatMap_cons, hfuncs, nil_append]
  extras := by rw [flatMap_cons, hextras, nil_append]

lemma Reframe.pop (hchildren : f.children = []) (stack : List Frame) :
    Reframe tasks (f :: stack) stack where
  waiting := sublist_append_right _ _
  children := by rw [flatMap_cons, hchildren, nil_append]
  awaiting := sublist_append_right _ _
  finishing := sublist_append_right _ _
  ok := fun hok => (forall_mem_cons.mp hok).2

lemma Restack.pop (hchildren : f.children = []) (hextras : f.extras = []) (stack : List Frame) :
    Restack tasks (f :: stack) stack where
  toReframe := .pop hchildren stack
  funcs := sublist_append_right _ _
  extras := by rw [flatMap_cons, hextras, nil_append]

end Frame

lemma Covers.sublist {p : String → Bool} {count : UInt32} {pending pending' done : List String}
    (h : Covers tasks p count pending done) (hsub : pending'.Sublist pending) :
    Covers tasks p count pending' done := by
  have hle := hsub.countP_le (p := p)
  unfold Covers at h ⊢
  omega

lemma Graph.reframe (h : Graph tasks s) (hmap : s'.inDegreeMap = s.inDegreeMap)
    (hlog : s'.log = s.log) (hr : Reframe tasks s.stack s'.stack) : Graph tasks s' := by
  have hdegree : inDegree s' = inDegree s := by
    funext name
    rw [inDegree, inDegree, hmap]
  have hwaiting := hr.waiting.append_right (startedNames s.log)
  refine ⟨?_, ?_, ?_, ?_⟩
  · rw [hdegree, hlog, hr.children]
    exact h.frontier
  · rw [hmap]
    exact h.degrees
  · rw [hlog]
    exact h.starts.sublist hwaiting
  · rw [hlog, hdegree]
    exact fun name hname => h.ready name (hwaiting.subset hname)

lemma Inv.retoken (h : Inv tasks s) (hk : counts s' = counts s)
    (hr : Reframe tasks s.stack s'.stack) (ht : ∀ name, Tokens s' name) : Inv tasks s' := by
  obtain ⟨hmap, hawait, htasks, hposted, hlog, hunderflow⟩ := counts_eq_iff.mp hk
  refine ⟨h.graph.reframe hmap hlog hr, ht, hr.ok h.frames, ?_, ?_, ?_, ?_, ?_⟩
  · rw [hposted]
    exact h.posted
  · rw [htasks, hlog]
    exact h.tasksCount.sublist hr.finishing
  · rw [hawait, hlog]
    exact h.awaitCount.sublist hr.awaiting
  · rw [hlog]
    exact h.sound
  · rw [hunderflow]
    exact h.underflow

lemma Tokens.reobject {name : String} (h : Tokens s name) (hlog : s'.log = s.log)
    (hextra : extra s' name = extra s name)
    (hown : ∀ func ∈ (s'.objects name).extraCallbacks.flatten, func = .dispatch name ∨
      func = .other)
    (hdispatch : (live s').count (.dispatch name) ≤ (live s).count (.dispatch name))
    (hsave : (live s').count (.saveResult name) ≤ (live s).count (.saveResult name))
    (hsaving : (live s).count (.saveResult name) ≤
      if (s'.objects name).state = .initializing then 1 else 0)
    (hextras : (s'.stack.flatMap extras).count name = (s.stack.flatMap extras).count name) :
    Tokens s' name := by
  refine ⟨?_, ?_, hsave.trans hsaving, ?_, hown⟩
  · rw [hextra, hlog]
    exact h.extra_le
  · have hold := h.live_le
    rw [hextra, hlog, hextras]
    omega
  · have hold := h.exclusive
    rw [hlog]
    omega

lemma Tokens.mono {name : String} (h : Tokens s name) (hobject : s'.objects name = s.objects name)
    (hlog : s'.log = s.log)
    (hdispatch : (live s').count (.dispatch name) ≤ (live s).count (.dispatch name))
    (hsave : (live s').count (.saveResult name) ≤ (live s).count (.saveResult name))
    (hextras : (s'.stack.flatMap extras).count name = (s.stack.flatMap extras).count name) :
    Tokens s' name := by
  refine h.reobject hlog ?_ ?_ hdispatch hsave ?_ hextras
  · rw [extra, extra, hobject]
  · rw [hobject]
    exact h.own
  · rw [hobject]
    exact h.saving

lemma Inv.restack (h : Inv tasks s) (hk : contents s' = contents s)
    (hr : Restack tasks s.stack s'.stack) : Inv tasks s' := by
  obtain ⟨hcounts, hobjects, hheld⟩ : _ ∧ _ ∧ _ := by simpa [contents] using hk
  obtain ⟨-, -, -, -, hlog, -⟩ := counts_eq_iff.mp hcounts
  refine h.retoken hcounts hr.toReframe fun name => ?_
  have hlive : (live s').Sublist (live s) := by
    rw [live, hheld]
    exact hr.funcs.append_left _
  exact (h.tokens name).mono (by rw [hobjects]) hlog (hlive.count_le _) (hlive.count_le _)
    (by rw [hr.extras])

lemma Inv.next (h : Inv tasks s) {f : Frame} {l stack : List Frame} (hstack : s.stack = f :: stack)
    (hstack' : s'.stack = l ++ stack) (hk : contents s' = contents s) (hr : Restack tasks [f] l) :
    Inv tasks s' := by
  refine h.restack hk ?_
  rw [hstack, hstack']
  exact hr.top

lemma Inv.frames_cons (h : Inv tasks s) {f : Frame} {stack : List Frame}
    (hstack : s.stack = f :: stack) : f.Ok tasks ∧ ∀ g ∈ stack, g.Ok tasks :=
  forall_mem_cons.mp (hstack ▸ h.frames)

lemma Inv.pop (h : Inv tasks s) {f : Frame} (hstack : s.stack = f :: s'.stack)
    (hk : contents s' = contents s) (hchildren : f.children = []) (hextras : f.extras = []) :
    Inv tasks s' := by
  refine h.restack hk ?_
  rw [hstack]
  exact .pop hchildren hextras s'.stack

end Restack

section Primitives
variable {tasks : TaskMap} {s : RunState}

lemma Inv.logged (h : Inv tasks s) {e : Event} (hs : e.started? = none) (hd : e.dispatched? = none)
    (hdone : e.done? = none) (hj : Justified tasks s.log e) :
    Inv tasks { s with log := e :: s.log } := by
  have hstarted : startedNames (e :: s.log) = startedNames s.log := filterMap_cons_none hs
  have hdispatched : dispatchedNames (e :: s.log) = dispatchedNames s.log := filterMap_cons_none hd
  have hdoneNames : doneNames (e :: s.log) = doneNames s.log := filterMap_cons_none hdone
  refine ⟨⟨?_, h.graph.degrees, ?_, ?_⟩, fun name => ⟨?_, ?_, (h.tokens name).saving, ?_,
    (h.tokens name).own⟩, h.frames, h.posted, ?_, ?_, ⟨hj, h.sound⟩, h.underflow⟩
  · rw [hdoneNames]
    exact h.graph.frontier
  · rw [hstarted]
    exact h.graph.starts
  · rw [hstarted]
    exact h.graph.ready
  · rw [hstarted]
    exact (h.tokens name).extra_le
  · rw [hstarted, hdispatched]
    exact (h.tokens name).live_le
  · rw [hstarted]
    exact (h.tokens name).exclusive
  · rw [hdoneNames]
    exact h.tasksCount
  · rw [hdoneNames]
    exact h.awaitCount

variable {result : ResultPtr}

lemma Inv.callOnCompleted (h : Inv tasks s) {which : Completion}
    (hj : Justified tasks s.log (.ran which result.resultCode)) :
    Inv tasks (s.callOnCompleted which result) := by
  unfold RunState.callOnCompleted
  split
  · exact h
  · split_ifs
    · exact h
    · have hfunc : Inert tasks (.func which) := ⟨rfl, rfl, rfl, rfl, trivial⟩
      exact (h.logged rfl rfl rfl hj).restack rfl (hfunc.push rfl rfl s.stack)

lemma Inv.reportError (h : Inv tasks s) (herr : result.resultCode ≠ errOk) :
    Inv tasks (s.reportError result) := by
  have hpost : Inert tasks (.post result) := ⟨rfl, rfl, rfl, rfl, herr⟩
  have hpush : Inv tasks { s with stack := .post result :: s.stack } :=
    h.restack rfl (hpost.push rfl rfl s.stack)
  exact hpush.callOnCompleted fun hok => absurd hok herr

lemma Inv.onErrorResult (h : Inv tasks s) (name : String) (herr : result.resultCode ≠ errOk) :
    Inv tasks (s.onErrorResult name result) := by
  have hmessage : Inv tasks { s with
      messages := s.messages.modify result.cell fun message => name ++ ": " ++ message } :=
    h.restack rfl (.refl s.stack)
  exact hmessage.reportError herr

lemma Inv.onErrorCode (h : Inv tasks s) {code : Int32} (message : String) (herr : code ≠ errOk) :
    Inv tasks (s.onErrorCode code message) := by
  have hmessage : Inv tasks { s with messages := s.messages ++ [message] } :=
    h.restack rfl (.refl s.stack)
  exact hmessage.reportError herr

structure Fresh (s : RunState) (name : String) : Prop where
  started : (startedNames s.log).count name = 1
  dispatched : (dispatchedNames s.log).count name = 0
  live : (live s).count (.dispatch name) = 0
  extra : extra s name = 0
  saving : (StartupTaskDispatcher.live s).count (.saveResult name) +
    (s.stack.flatMap extras).count name ≤ 1

lemma Inv.started (h : Inv tasks s) {name : String}
    (hname : name ∉ s.stack.flatMap waiting ++ startedNames s.log)
    (hkey : name ∈ tasks.keys) (hzero : inDegree s name = 0) :
    Inv tasks { s with log := .started name :: s.log } ∧
    Fresh { s with log := .started name :: s.log } name := by
  have hstarted : startedNames (.started name :: s.log) = name :: startedNames s.log := rfl
  have hnone : (startedNames s.log).count name = 0 :=
    count_eq_zero.mpr fun hmem => hname (mem_append_right _ hmem)
  have hdeps : ∀ d ∈ tasks.deps name, d ∈ doneNames s.log := by
    obtain ⟨queue, hfrontier⟩ := h.graph.frontier
    exact fun d hd => mem_reverse.mp (hfrontier.deps_done hkey hzero d hd)
  have hmore : ∀ n, (startedNames s.log).count n ≤
      (startedNames (.started name :: s.log)).count n :=
    fun n => count_le_count_cons
  refine ⟨{ h with graph := ⟨h.graph.frontier, h.graph.degrees, ?_, ?_⟩, tokens := fun n => ⟨?_,
    ?_, (h.tokens n).saving, ?_, (h.tokens n).own⟩, sound := ⟨⟨?_, hdeps⟩, h.sound⟩ }, ?_⟩
  · exact nodup_middle.mpr (nodup_cons.mpr ⟨hname, h.graph.starts⟩)
  · intro n hn
    rcases mem_cons.mp (perm_middle.mem_iff.mp hn) with rfl | hn
    · exact ⟨hkey, hzero⟩
    · exact h.graph.ready n hn
  · exact (h.tokens n).extra_le.trans (hmore n)
  · exact (h.tokens n).live_le.trans (hmore n)
  · have hold := (h.tokens n).exclusive
    have hle := hmore n
    intro hor
    exact hold (hor.imp_left fun hn => Nat.le_zero.mp (hle.trans hn.le))
  · exact fun hmem => hname (mem_append_right _ hmem)
  · have hextra := (h.tokens name).extra_le
    have hlive := (h.tokens name).live_le
    refine ⟨?_, ?_, ?_, ?_, (h.tokens name).exclusive (.inl hnone)⟩
    · rw [hstarted, count_cons_self, hnone]
    · change (dispatchedNames s.log).count name = 0
      omega
    · change (StartupTaskDispatcher.live s).count (.dispatch name) = 0
      omega
    · change StartupTaskDispatcher.extra s name = 0
      omega

section Fresh
variable {task : StartupTask}

lemma Inv.hold (h : Inv tasks s) (hfresh : Fresh s task.name)
    (hstate : (s.objects task.name).state = .created) :
    Inv tasks (taskRunTaskInit s task [.dispatch task.name]) := by
  have htaskInit : Inert tasks .taskInit := ⟨rfl, rfl, rfl, rfl, trivial⟩
  refine h.retoken rfl (htaskInit.reframe s.stack) fun name => ?_
  have hlive : ∀ f, (live (taskRunTaskInit s task [.dispatch task.name])).count f =
      (live s).count f + [CallbackFunc.saveResult task.name, .dispatch task.name].count f := by
    simp only [live, taskRunTaskInit, flatten_append, flatten_cons, flatten_nil,
      flatMap_cons, funcs, count_append, append_nil, nil_append]
    omega
  have hold := h.tokens name
  by_cases hname : name = task.name
  · subst hname
    have hobject : (taskRunTaskInit s task [.dispatch task.name]).objects task.name =
        (s.objects task.name).initializing := setObject_self s task.name _
    have hextra : extra (taskRunTaskInit s task [.dispatch task.name]) task.name = 0 := by
      rw [extra, hobject]
      exact hfresh.extra
    have hsaving := hold.saving
    rw [hstate, if_neg (by decide)] at hsaving
    refine ⟨?_, ?_, ?_, ?_, ?_⟩
    · rw [hextra]
      exact Nat.zero_le _
    · have hd := hfresh.dispatched
      have hl := hfresh.live
      have hs := hfresh.started
      rw [hextra, hlive]
      change (dispatchedNames s.log).count task.name + _ + _ ≤ (startedNames s.log).count task.name
      simp
      omega
    · rw [hobject, hlive, initializing]
      simp
      omega
    · have hs := hfresh.started
      rw [hextra]
      change (startedNames s.log).count task.name = 0 ∨ 0 < 0 → _
      omega
    · rw [hobject]
      exact hold.own
  · have hne : task.name ≠ name := fun h => hname h.symm
    refine hold.mono (Function.update_of_ne hname _ _) rfl ?_ ?_ rfl <;> rw [hlive] <;> simp [hne]

lemma Inv.callNow (h : Inv tasks s) {name : String} (hfresh : Fresh s name)
    (result : Option ResultPtr) :
    Inv tasks { s with stack := .call [.dispatch name] result :: s.stack } := by
  have hcall : Inert tasks (.call [.dispatch name] result) := ⟨rfl, rfl, rfl, rfl, trivial⟩
  refine h.retoken rfl (hcall.reframe s.stack) fun n => ?_
  have hlive : ∀ f, (live { s with stack := .call [.dispatch name] result :: s.stack }).count f =
      (live s).count f + [CallbackFunc.dispatch name].count f := by
    simp only [live, flatMap_cons, funcs, count_append]
    omega
  have hold := h.tokens n
  by_cases hname : n = name
  · subst hname
    refine ⟨hold.extra_le, ?_, ?_, ?_, hold.own⟩
    · have hd := hfresh.dispatched
      have hl := hfresh.live
      have he := hfresh.extra
      rw [hlive]
      change (dispatchedNames s.log).count n + _ + (if _ then extra s n else 0) ≤
        (startedNames s.log).count n
      rw [hd, hl, he, hfresh.started]
      simp
    · rw [hlive]
      exact hold.saving
    · rw [hlive]
      exact hold.exclusive
  · have hne : name ≠ n := fun h => hname h.symm
    refine hold.mono rfl rfl ?_ ?_ rfl <;> rw [hlive] <;> simp [hne]

protected lemma Inv.setObject (h : Inv tasks s) {name : String} {f : TaskObject → TaskObject}
    (ht : Tokens (s.setObject name f) name) : Inv tasks (s.setObject name f) := by
  refine h.retoken rfl (.refl s.stack) fun n => ?_
  rcases eq_or_ne n name with rfl | hn
  · exact ht
  · exact (h.tokens n).mono (setObject_of_ne s _ hn) rfl le_rfl le_rfl rfl

lemma Inv.addExtraCallback (h : Inv tasks s) {name : String} (hfresh : Fresh s name)
    (hstate : (s.objects name).state = .initializing) :
    Inv tasks (s.setObject name fun o => (o.addExtraCallback [.dispatch name]).2) := by
  have hold := h.tokens name
  have hobject : (s.setObject name fun o => (o.addExtraCallback [.dispatch name]).2).objects name =
      { s.objects name with
        extraCallbacks := (s.objects name).extraCallbacks ++ [[.dispatch name]] } := by
    rw [setObject_self, TaskObject.addExtraCallback, if_neg (not_not.mpr hstate)]
  have hextra : extra (s.setObject name fun o => (o.addExtraCallback [.dispatch name]).2) name =
      1 := by
    have he := hfresh.extra
    rw [extra, hobject]
    simpa [extra] using he
  have hs := hfresh.started
  have hd := hfresh.dispatched
  have hl := hfresh.live
  refine h.setObject ⟨?_, ?_, ?_, fun _ => hfresh.saving, ?_⟩
  · rw [hextra]
    exact hs.ge
  · rw [hextra]
    change (dispatchedNames s.log).count name + (live s).count _ + _ ≤
      (startedNames s.log).count name
    rw [hd, hl, hs]
    split_ifs <;> simp
  · rw [hobject]
    exact hold.saving
  · rw [hobject, flatten_append]
    intro func hfunc
    rcases mem_append.mp hfunc with hfunc | hfunc
    · exact hold.own func hfunc
    · exact .inl (by simpa using hfunc)

end Fresh

lemma Inv.fail (h : Inv tasks s) (code : Int32) : Inv tasks (s.fail code) := by
  unfold RunState.fail
  split
  · rename_i hstack
    exact h.pop hstack rfl rfl rfl
  · rename_i hstack
    exact h.pop hstack rfl rfl rfl
  · exact h

protected lemma Inv.runTaskInit (h : Inv tasks s) {task : StartupTask}
    (hname : task.name ∉ s.stack.flatMap waiting ++ startedNames s.log)
    (hkey : task.name ∈ tasks.keys)
    (hzero : inDegree s task.name = 0) : Inv tasks (runTaskInit s task.name task) := by
  obtain ⟨hinv, hfresh⟩ := h.started hname hkey hzero
  unfold runTaskInit
  dsimp only
  split
  · rename_i hstate
    exact hinv.hold hfresh hstate
  · exact hinv.callNow hfresh _
  · rename_i hstate
    exact hinv.addExtraCallback hfresh hstate
  · exact hinv.fail _

def Spare (s : RunState) (name : String) : Prop :=
  (dispatchedNames s.log).count name + (live s).count (.dispatch name) +
    (if (s.stack.flatMap extras).count name = 0 then extra s name else 0) <
    (startedNames s.log).count name

variable {name : String}

lemma Tokens.dispatched {n : String} {code : Option Int32} {s' : RunState} (h : Tokens s n)
    (hspare : Spare s name) (hobjects : s'.objects = s.objects)
    (hlog : s'.log = .dispatched name code :: s.log) (hlive : live s' = live s)
    (hextras : s'.stack.flatMap extras = s.stack.flatMap extras) : Tokens s' n := by
  have hextra : extra s' n = extra s n := by rw [extra, extra, hobjects]
  have hstarted : startedNames (.dispatched name code :: s.log) = startedNames s.log := rfl
  have hdispatched : dispatchedNames (.dispatched name code :: s.log) =
      name :: dispatchedNames s.log := rfl
  refine ⟨?_, ?_, ?_, ?_, ?_⟩
  · rw [hextra, hlog]
    exact h.extra_le
  · rw [hextra, hlog, hstarted, hdispatched, hlive, hextras]
    by_cases hname : name = n
    · subst hname
      rw [count_cons_self]
      unfold Spare at hspare
      omega
    · rw [count_cons_of_ne hname]
      exact h.live_le
  · rw [hobjects, hlive]
    exact h.saving
  · rw [hextra, hlog, hlive, hextras]
    exact h.exclusive
  · rw [hobjects]
    exact h.own

lemma Inv.dispatched_error (h : Inv tasks s) {code : Option Int32} (hspare : Spare s name)
    (hcode : code ≠ some errOk) : Inv tasks { s with log := .dispatched name code :: s.log } := by
  have hdone : doneNames (.dispatched name code :: s.log) = doneNames s.log :=
    filterMap_cons_none (if_neg hcode)
  refine ⟨⟨?_, h.graph.degrees, h.graph.starts, h.graph.ready⟩, fun n =>
    (h.tokens n).dispatched hspare rfl rfl rfl rfl,
    h.frames, h.posted, ?_, ?_, ⟨trivial, h.sound⟩, h.underflow⟩
  · rw [hdone]
    exact h.graph.frontier
  · rw [hdone]
    exact h.tasksCount
  · rw [hdone]
    exact h.awaitCount

lemma Covers.dispatched {p : String → Bool} {count : UInt32} {pending done : List String}
    (h : Covers tasks p count pending done) (name : String) :
    Covers tasks p count (name :: pending) (name :: done) := by
  unfold Covers at h ⊢
  rw [countP_cons, countP_cons]
  omega

lemma mem_startedNames_of_spare (hspare : Spare s name) : name ∈ startedNames s.log := by
  rw [← count_pos_iff]
  exact Nat.zero_lt_of_lt hspare

lemma dispatchedNames_of_mem_doneNames {log : List Event} (h : name ∈ doneNames log) :
    name ∈ dispatchedNames log := by
  obtain ⟨e, he, hdone⟩ := mem_filterMap.mp h
  refine mem_filterMap.mpr ⟨e, he, ?_⟩
  cases e with
  | dispatched n code =>
    simp only [Event.done?] at hdone
    split_ifs at hdone
    exact hdone
  | started n => exact absurd hdone (by simp [Event.done?])
  | ran which code => exact absurd hdone (by simp [Event.done?])

lemma Inv.not_done_of_spare (h : Inv tasks s) (hspare : Spare s name) : name ∉ doneNames s.log := by
  have hnodup : (startedNames s.log).Nodup := (nodup_append.mp h.graph.starts).2.1
  have honce := nodup_iff_count_le_one.mp hnodup name
  intro hmem
  have hpos := count_pos_iff.mpr (dispatchedNames_of_mem_doneNames hmem)
  unfold Spare at hspare
  omega

lemma Inv.dispatched_ok (h : Inv tasks s) {children : List String} (hspare : Spare s name)
    (hcount : ∀ n ∈ tasks.keys, children.count n = (tasks.deps n).count name)
    (hchildren : ∀ c ∈ children, tasks.contains c = true) (result : ResultPtr) :
    Inv tasks { s with
      log := .dispatched name (some errOk) :: s.log
      stack := .notify name result children [] :: s.stack } := by
  have hdone : doneNames (.dispatched name (some errOk) :: s.log) = name :: doneNames s.log := rfl
  have hready := h.graph.ready name (mem_append_right _ (mem_startedNames_of_spare hspare))
  refine ⟨⟨?_, h.graph.degrees, h.graph.starts, h.graph.ready⟩, fun n =>
    (h.tokens n).dispatched hspare rfl rfl rfl rfl,
    forall_mem_cons.mpr ⟨hchildren, h.frames⟩, h.posted, h.tasksCount.dispatched name,
    h.awaitCount.dispatched name, ⟨trivial, h.sound⟩, h.underflow⟩
  obtain ⟨queue, hfrontier⟩ := h.graph.frontier
  -- the task waits in the queue of the algorithm, at any place
  have hqueue : name ∈ queue := by
    have hmem := (hfrontier.ready name hready.1).mpr hready.2
    rw [mem_append, mem_reverse, or_iff_right (h.not_done_of_spare hspare)] at hmem
    exact hmem
  refine ⟨queue.erase name, ?_⟩
  rw [hdone, reverse_cons]
  exact (hfrontier.perm (perm_cons_erase hqueue) (.refl _)).pop hcount

lemma saveResult_extraCallbacks (result : Option ResultPtr) (o : TaskObject) :
    (o.saveResult result).extraCallbacks = o.extraCallbacks := by
  cases result <;> rfl

lemma Inv.save (h : Inv tasks s) (hsave : (live s).count (.saveResult name) = 0)
    (hexclusive : (startedNames s.log).count name = 0 ∨ 0 < extra s name →
      (s.stack.flatMap extras).count name = 0)
    (result : Option ResultPtr) :
    Inv tasks { s.setObject name (TaskObject.saveResult result) with
      stack := .callExtra name (s.objects name).extraCallbacks result :: s.stack } := by
  have hcallExtra : Inert tasks (.callExtra name (s.objects name).extraCallbacks result) :=
    ⟨rfl, rfl, rfl, rfl, trivial⟩
  have hnosave : ∀ n, (s.objects name).extraCallbacks.flatten.count (.saveResult n) = 0 := fun n =>
    count_eq_zero.mpr fun hmem => by simpa using (h.tokens name).own _ hmem
  refine h.retoken rfl (hcallExtra.reframe s.stack) fun n => ?_
  set s' : RunState := { s.setObject name (saveResult result) with
    stack := .callExtra name (s.objects name).extraCallbacks result :: s.stack }
  have hlive : ∀ f, (live s').count f = (live s).count f +
      (s.objects name).extraCallbacks.flatten.count f := by
    simp only [s', live, setObject, flatMap_cons, funcs, count_append]
    omega
  have hextras : s'.stack.flatMap extras = name :: s.stack.flatMap extras := rfl
  have hlog : s'.log = s.log := rfl
  have hold := h.tokens n
  by_cases hn : n = name
  · subst hn
    have hobject : s'.objects n = (s.objects n).saveResult result := setObject_self s n _
    have hextra : extra s' n = extra s n := by rw [extra, extra, hobject, saveResult_extraCallbacks]
    refine ⟨?_, ?_, ?_, ?_, ?_⟩
    · rw [hextra]
      exact hold.extra_le
    · have hle := hold.live_le
      rw [hlog, hlive, hextras, count_cons_self]
      change _ + (_ + extra s n) + 0 ≤ _
      split_ifs at hle with hcalling <;> omega
    · rw [hlive, hnosave, hsave]
      exact Nat.zero_le _
    · rw [hextra, hlive, hnosave, hsave, hextras, count_cons_self]
      intro hor
      rw [hexclusive hor]
    · rw [hobject, saveResult_extraCallbacks]
      exact hold.own
  · have hnodispatch : (s.objects name).extraCallbacks.flatten.count (.dispatch n) = 0 :=
      count_eq_zero.mpr fun hmem => by simpa [hn] using (h.tokens name).own _ hmem
    refine hold.mono (setObject_of_ne s _ hn) rfl ?_ ?_ ?_
    · rw [hlive, hnodispatch, Nat.add_zero]
    · rw [hlive, hnosave, Nat.add_zero]
    · rw [hextras, count_cons_of_ne (Ne.symm hn)]

lemma Inv.clearExtra (h : Inv tasks s) {result : Option ResultPtr} {stack : List Frame}
    (hstack : s.stack = .callExtra name [] result :: stack) :
    Inv tasks { s.setObject name TaskObject.clearExtraCallbacks with stack } := by
  have hpop : Reframe tasks (.callExtra name [] result :: stack) stack := .pop rfl stack
  refine h.retoken rfl (hstack ▸ hpop) fun n => ?_
  set s' : RunState := { s.setObject name clearExtraCallbacks with stack }
  have hlive : live s' = live s := by
    rw [live, live, hstack]
    rfl
  have hextras : s.stack.flatMap extras = name :: s'.stack.flatMap extras := by
    rw [hstack]
    rfl
  have hlog : s'.log = s.log := rfl
  have hold := h.tokens n
  by_cases hn : n = name
  · subst hn
    have hobject : s'.objects n = (s.objects n).clearExtraCallbacks := setObject_self s n _
    have hextra : extra s' n = 0 := by
      rw [extra, hobject]
      rfl
    have hle := hold.live_le
    have hexclusive := hold.exclusive
    rw [hextras, count_cons_self] at hle hexclusive
    refine ⟨?_, ?_, ?_, ?_, ?_⟩
    · rw [hextra]
      exact Nat.zero_le _
    · rw [hextra, hlive]
      split_ifs <;> exact hle
    · rw [hobject, hlive]
      exact hold.saving
    · rw [hlog, hlive]
      omega
    · rw [hobject]
      exact nofun
  · refine hold.mono (setObject_of_ne s _ hn) rfl (by rw [hlive]) (by rw [hlive]) ?_
    rw [hextras, count_cons_of_ne (Ne.symm hn)]

section Lowering
variable {s' : RunState} {name : String} {result : ResultPtr} {task : StartupTask}
  {children : List String} {zeroInDegree : List StartupTask} {stack : List Frame}

section
variable
  (hs' : s' = lowerInDegree { s with stack } name result task.name task children zeroInDegree)
include hs'

lemma lowerInDegree_spec (hcontains : s.inDegreeMap.contains task.name = true)
    (hpos : 0 < inDegree s task.name) :
    inDegree s' task.name = inDegree s task.name - 1 ∧
      s'.stack = .notify name result children
        (if inDegree s' task.name = 0 then zeroInDegree ++ [task] else zeroInDegree) :: stack ∧
      s'.underflow = s.underflow := by
  obtain ⟨degree, hdegree⟩ := contains_iff.mp hcontains
  have hvalue : inDegree s task.name = degree.toNat := by rw [inDegree, hdegree, Option.getD_some]
  have hle : 1 ≤ degree := UInt32.le_iff_toNat_le.mpr (hvalue ▸ hpos)
  have hself : inDegree s' task.name = inDegree s task.name - 1 := by
    rw [hvalue, inDegree, hs', lowerInDegree, find?_modify, if_pos rfl, hdegree,
      Option.map_some, Option.getD_some, UInt32.toNat_sub_of_le _ _ hle]
    rfl
  have hzero : degree - 1 = 0 ↔ inDegree s' task.name = 0 := by
    rw [hself, hvalue, ← UInt32.toNat_inj, UInt32.toNat_sub_of_le _ _ hle]
    rfl
  have hne : (degree == 0) = false := by
    rw [beq_eq_false_iff_ne]
    rintro rfl
    simp at hle
  refine ⟨hself, ?_, ?_⟩
  · rw [← ite_congr (propext hzero) (fun _ => rfl) fun _ => rfl, hs', lowerInDegree, hdegree]
    rfl
  · rw [hs', lowerInDegree, hdegree]
    change (s.underflow || degree == 0) = s.underflow
    rw [hne, Bool.or_false]

lemma inDegree_lowerInDegree_of_ne {n : String} (hn : n ≠ task.name) :
    inDegree s' n = inDegree s n := by
  rw [inDegree, inDegree, hs', lowerInDegree, find?_modify, if_neg (Ne.symm hn)]

lemma Graph.lowered (h : Graph tasks s)
    (hstack : s.stack = .lower name result task.name task children zeroInDegree :: stack)
    (hkey : task.name ∈ tasks.keys) (hpos : 0 < inDegree s task.name) : Graph tasks s' := by
  obtain ⟨hself, hstack', -⟩ := lowerInDegree_spec hs' (h.degrees _ (mem_keys.mp hkey)) hpos
  have hother : ∀ n, n ≠ task.name → inDegree s' n = inDegree s n :=
    fun n => inDegree_lowerInDegree_of_ne hs'
  have hlog : s'.log = s.log := by rw [hs', lowerInDegree]
  -- the child was not ready before, so no frame waits to start it and it was not started
  have hfresh : task.name ∉ s.stack.flatMap waiting ++ startedNames s.log :=
    fun hmem => hpos.ne' (h.ready _ hmem).2
  have hwaiting : (s'.stack.flatMap waiting ++ startedNames s'.log).Perm
      ((if inDegree s' task.name = 0 then [task.name] else []) ++
        (s.stack.flatMap waiting ++ startedNames s.log)) := by
    rw [hstack', hstack, hlog]
    simp only [flatMap_cons, waiting]
    split_ifs
    · rw [map_append, append_assoc, append_assoc, append_assoc]
      exact perm_middle
    · exact .refl _
  refine ⟨?_, ?_, ?_, ?_⟩
  · obtain ⟨queue, hfrontier⟩ := h.frontier
    rw [hstack] at hfrontier
    rw [hlog, hstack']
    exact ⟨_, hfrontier.visit hkey hself hother⟩
  · intro n hn
    obtain ⟨v, hv⟩ := contains_iff.mp (h.degrees n hn)
    rw [hs', lowerInDegree, SortedMap.contains_iff, find?_modify, hv]
    split_ifs <;> exact ⟨_, rfl⟩
  · rw [hwaiting.nodup_iff]
    split_ifs
    · exact nodup_cons.mpr ⟨hfresh, h.starts⟩
    · exact h.starts
  · intro n hn
    rcases mem_append.mp (hwaiting.mem_iff.mp hn) with hn | hn
    · split_ifs at hn with hready
      · rw [mem_singleton.mp hn]
        exact ⟨hkey, hready⟩
      · cases hn
    · rw [hother n fun hname => hfresh (hname ▸ hn)]
      exact h.ready n hn

end

section
variable (h : Inv tasks s) {child : String}
  (hstack : s.stack = .lower name result child task children zeroInDegree :: stack)
include h hstack

lemma Inv.lower_ok : child = task.name ∧ tasks.contains child = true ∧ 0 < inDegree s child := by
  have hmem := (h.frames_cons hstack).1.2 child mem_cons_self
  obtain ⟨queue, hfrontier⟩ := h.graph.frontier
  rw [hstack] at hfrontier
  exact ⟨(h.frames_cons hstack).1.1.symm, hmem, hfrontier.pos (mem_keys.mpr hmem)⟩

lemma Inv.lowered :
    Inv tasks (lowerInDegree { s with stack } name result child task children zeroInDegree) := by
  obtain ⟨rfl, hmem, hpos⟩ := h.lower_ok hstack
  have hkey : task.name ∈ tasks.keys := mem_keys.mpr hmem
  obtain ⟨⟨-, hcontains⟩, hframes⟩ := h.frames_cons hstack
  obtain ⟨-, hstack', hunderflow⟩ := lowerInDegree_spec rfl (h.graph.degrees _ hmem) hpos
  refine ⟨h.graph.lowered rfl hstack hkey hpos, fun n => ?_, ?_, h.posted, ?_, ?_, h.sound,
    hunderflow.trans h.underflow⟩
  · refine (h.tokens n).mono rfl rfl ?_ ?_ ?_
    · rw [live, live, hstack]
      exact le_rfl
    · rw [live, live, hstack]
      exact le_rfl
    · rw [hstack]
      rfl
  · exact forall_mem_cons.mpr ⟨fun c hc => hcontains c (mem_cons_of_mem _ hc), hframes⟩
  · have hcount := h.tasksCount
    rw [hstack] at hcount
    exact hcount
  · have hcount := h.awaitCount
    rw [hstack] at hcount
    exact hcount

end

end Lowering

section Counters
variable {p : String → Bool} {count : UInt32} {pending done : List String}

lemma Graph.done_nodup (h : Graph tasks s) : (doneNames s.log).Nodup := by
  obtain ⟨queue, hfrontier⟩ := h.frontier
  exact nodup_reverse.mp (nodup_append.mp hfrontier.nodup).1

lemma Graph.done_subperm (h : Graph tasks s) : (doneNames s.log).Subperm tasks.keys := by
  obtain ⟨queue, hfrontier⟩ := h.frontier
  exact h.done_nodup.subperm fun n hn => hfrontier.mem n (mem_append_left _ (mem_reverse.mpr hn))

lemma Covers.lower (h : Covers tasks p count (name :: pending) done) (hp : p name = true)
    (hdone : done.Subperm tasks.keys) : (count == 0) = false ∧
    Covers tasks p (count - 1) pending done := by
  have hle := hdone.countP_le p
  unfold Covers at h
  rw [countP_cons_of_pos hp] at h
  have hpos : 1 ≤ count := by
    change 1 ≤ count.toNat
    omega
  have hsub : (count - 1).toNat = count.toNat - 1 := UInt32.toNat_sub_of_le _ _ hpos
  refine ⟨?_, ?_⟩
  · rw [beq_eq_false_iff_ne]
    rintro rfl
    simp at hpos
  · unfold Covers
    omega

lemma Covers.zero (h : Covers tasks p 0 pending done) (hdone : done.Subperm tasks.keys)
    (hnodup : done.Nodup) : ∀ name ∈ tasks.keys, p name = true → name ∈ done := by
  intro name hname hp
  by_contra hnot
  have hcons : (name :: done).Subperm tasks.keys :=
    (nodup_cons.mpr ⟨hnot, hnodup⟩).subperm (forall_mem_cons.mpr ⟨hname, hdone.subset⟩)
  have hle := hcons.countP_le p
  rw [countP_cons_of_pos hp] at hle
  change _ ≤ 0 + _ at h
  omega

end Counters

lemma Inv.recount (h : Inv tasks s) {tasksCount mainThreadAwaitCount : UInt32}
    {posted : List ResultPtr} {underflow : Bool}
    (hposted : ∀ result ∈ posted, result.resultCode ≠ errOk)
    (htasks : Covers tasks (fun _ => true) tasksCount (s.stack.flatMap finishing) (doneNames s.log))
    (hawait : Covers tasks (waits tasks) mainThreadAwaitCount (s.stack.flatMap awaiting)
      (doneNames s.log))
    (hunderflow : underflow = false) :
    Inv tasks { s with tasksCount, mainThreadAwaitCount, posted, underflow } :=
  ⟨⟨h.graph.frontier, h.graph.degrees, h.graph.starts, h.graph.ready⟩,
    fun name => (h.tokens name).mono rfl rfl le_rfl le_rfl rfl, h.frames, hposted, htasks, hawait,
    h.sound, hunderflow⟩

end Primitives

end StartupTaskDispatcher
end AbilityRuntime.Startup
