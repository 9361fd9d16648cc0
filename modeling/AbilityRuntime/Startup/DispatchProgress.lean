import AbilityRuntime.Startup.DispatchWatch

/-! A run of the dispatcher is decided in the end, as long as the tasks keep to the contract of
`RunTaskInit` and no child fails in it. -/

namespace AbilityRuntime.Startup.StartupTaskDispatcher
open RunState List SortedMap TaskObject StartupTopologySort AbilityRuntime.Startup.Frame

section Open
variable {tasks : TaskMap} {s s' : RunState} {inside inside' debt debt' : List String}
  {f : Frame} {fs stack : List Frame}

def Order (stack : List Frame) : Prop := stack.Pairwise fun f g => g.bad = true → f.bad = true

structure Shape (stack : List Frame) (inside : List String) : Prop where
  nested : inside.length = stack.count .taskInit
  order : Order stack
  runs : stack.countP isRun ≤ 1
  calls : .func .completed ∉ stack

lemma Shape.good (h : Shape (f :: stack) inside) (hf : f.bad = false) :
    ∀ g ∈ stack, g.bad = false := by
  intro g hg
  have hrel := rel_of_pairwise_cons h.order hg
  rw [hf] at hrel
  exact Bool.eq_false_of_not_eq_true fun hbad => absurd (hrel hbad) (by simp)

lemma Shape.replace (h : Shape (f :: stack) inside) (fs : List Frame)
    (hnested : inside'.length + [f].count .taskInit = inside.length + fs.count .taskInit)
    (hfs : Order fs ∧ (f.bad = true → ∀ g ∈ fs, g.bad = true) ∧
      fs.countP isRun ≤ [f].countP isRun ∧ .func .completed ∉ fs) :
    Shape (fs ++ stack) inside' where
  nested := by
    have hlen := h.nested
    rw [← singleton_append, count_append] at hlen
    rw [count_append]
    omega
  order := by
    refine pairwise_append.mpr ⟨hfs.1, h.order.tail, fun a ha b hb hbbad => ?_⟩
    exact hfs.2.1 (rel_of_pairwise_cons h.order hb hbbad) a ha
  runs := by
    have hle := h.runs
    have hruns := hfs.2.2.1
    rw [← singleton_append, countP_append] at hle
    rw [countP_append]
    omega
  calls := by
    rw [mem_append, not_or]
    exact ⟨hfs.2.2.2, fun hmem => h.calls (mem_cons_of_mem _ hmem)⟩

lemma Shape.push (h : Shape stack inside) (hgood : ∀ g ∈ stack, g.bad = false)
    (hnested : inside'.length = inside.length + [f].count .taskInit) (hruns : f.isRun = false)
    (hcalls : .func .completed ∉ [f]) : Shape (f :: stack) inside' where
  nested := by
    rw [hnested, h.nested, count_cons, count_cons, count_nil, Nat.zero_add]
  order := pairwise_cons.mpr ⟨fun g hg hbad => absurd (hgood g hg) (by simp [hbad]), h.order⟩
  runs := by
    rw [countP_cons_of_neg (by simp [hruns])]
    exact h.runs
  calls := by
    rw [← singleton_append, mem_append, not_or]
    exact ⟨hcalls, h.calls⟩

def tokens (s : RunState) (name : String) : ℕ :=
  (dispatchedNames s.log).count name + (live s).count (.dispatch name) +
    if (s.stack.flatMap extras).count name = 0 then extra s name else 0

def Saved (s : RunState) : Prop :=
  ∀ f ∈ s.stack, ∀ name ∈ f.extras, f.bad = false → (s.objects name).state = .initialized

structure Open (tasks : TaskMap) (s : RunState) (inside debt : List String) : Prop where
  ran : s.log.any (·.isRan .completed) = false
  returned : s.returned = none ∨ s.returned = some errOk
  callback : s.callback .completed = some ⟨true, false⟩
  released : s.released = false
  shape : Shape s.stack inside
  saved : Saved s
  started : ∀ name, (startedNames s.log).count name ≤ tokens s name + debt.count name
  ready : ∀ name ∈ tasks.keys, inDegree s name = 0 →
    name ∈ s.stack.flatMap waiting ++ startedNames s.log
  succeeded : dispatchedNames s.log = doneNames s.log
  counted : s.tasksCount.toNat + (doneNames s.log).length ≤
    tasks.keys.length + (s.stack.flatMap finishing).length
  positive : s.tasksCount ≠ 0

section
variable (h : Open tasks s inside debt)
include h

variable (hstack : s.stack = f :: stack)
include hstack

lemma Open.shape_cons : Shape (f :: stack) inside := hstack ▸ h.shape

lemma Open.saved_cons :
    ∀ g ∈ stack, ∀ name ∈ g.extras, g.bad = false → (s.objects name).state = .initialized :=
  fun g hg => h.saved g (hstack ▸ mem_cons_of_mem _ hg)

lemma Open.saved_replace (fs : List Frame)
    (hstack' : s'.stack = fs ++ stack) (hfs : ∀ g ∈ fs, g.extras = [])
    (hobjects : s'.objects = s.objects) : Saved s' := by
  intro g hg name hname hgood
  rw [hobjects]
  rw [hstack'] at hg
  rcases mem_append.mp hg with hg | hg
  · rw [hfs g hg] at hname
    cases hname
  · exact h.saved_cons hstack g hg name hname hgood

lemma Open.ready_cons {name : String} (hname : name ∈ tasks.keys) (hzero : inDegree s name = 0) :
    name ∈ f.waiting ∨ name ∈ stack.flatMap waiting ++ startedNames s.log := by
  have hmem := h.ready name hname hzero
  rwa [hstack, flatMap_cons, append_assoc, mem_append] at hmem

lemma Open.counted_cons : s.tasksCount.toNat + (doneNames s.log).length ≤
      tasks.keys.length + (f.finishing.length + (stack.flatMap finishing).length) := by
  have hcounted := h.counted
  rwa [hstack, flatMap_cons, length_append] at hcounted

end

def fixed (s : RunState) :=
  (s.inDegreeMap, s.tasksCount, s.log, s.callback .completed, s.released)

lemma Open.move (h : Open tasks s inside debt) (hk : fixed s' = fixed s)
    (hwaiting : s.stack.flatMap waiting ⊆ s'.stack.flatMap waiting)
    (hfinishing : (s.stack.flatMap finishing).length ≤ (s'.stack.flatMap finishing).length)
    (hreturned : s'.returned = none ∨ s'.returned = some errOk) (hshape : Shape s'.stack inside')
    (hsaved : Saved s')
    (hstarted : ∀ name, tokens s name + debt.count name ≤ tokens s' name + debt'.count name) :
    Open tasks s' inside' debt' := by
  simp only [fixed, Prod.mk.injEq] at hk
  obtain ⟨hmap, htasks, hlog, hcallback, hreleased⟩ := hk
  refine ⟨hlog ▸ h.ran, hreturned, hcallback.trans h.callback, hreleased.trans h.released, hshape,
    hsaved, fun name => ?_, fun name hname hzero => ?_, hlog ▸ h.succeeded, ?_, htasks ▸ h.positive⟩
  · rw [hlog]
    exact (h.started name).trans (hstarted name)
  · have hdegree : inDegree s name = 0 := by
      rw [← hzero, inDegree, inDegree, hmap]
    have hmem := h.ready name hname hdegree
    rw [mem_append] at hmem
    rw [hlog, mem_append]
    exact hmem.imp_left fun hf => hwaiting hf
  · have hcounted := h.counted
    rw [htasks, hlog]
    omega

structure Continues (f : Frame) (fs : List Frame) : Prop where
  waiting : f.waiting ⊆ fs.flatMap waiting
  finishing : f.finishing.length ≤ (fs.flatMap finishing).length
  funcs : ∀ name, (fs.flatMap funcs).count (.dispatch name) = f.funcs.count (.dispatch name)
  extras : fs.flatMap extras = f.extras
  nested : fs.count .taskInit = [f].count .taskInit
  order : Order fs
  bad : f.bad = true → ∀ g ∈ fs, g.bad = true
  runs : fs.countP isRun ≤ [f].countP isRun
  calls : .func .completed ∉ fs

lemma Continues.saved (hc : Continues f fs) (hsaved : Saved s) (hstack : s.stack = f :: stack)
    (hstack' : s'.stack = fs ++ stack) (hobjects : s'.objects = s.objects) : Saved s' := by
  unfold Saved at hsaved ⊢
  rw [hstack] at hsaved
  rw [hstack', hobjects]
  intro g hg name hname hgood
  rcases mem_append.mp hg with hg | hg
  · refine hsaved f mem_cons_self name (hc.extras ▸ mem_flatMap.mpr ⟨g, hg, hname⟩) ?_
    refine Bool.eq_false_of_not_eq_true fun hbad => ?_
    exact absurd (hc.bad hbad g hg) (by simp [hgood])
  · exact hsaved g (mem_cons_of_mem _ hg) name hname hgood

section
variable (h : Open tasks s inside debt)
include h

lemma Open.next (hstack : s.stack = f :: stack) (hc : Continues f fs)
    (hkept : (s'.stack, s'.objects, s'.held, fixed s') = (fs ++ stack, s.objects, s.held, fixed s))
    (hreturned : s'.returned = none ∨ s'.returned = some errOk) : Open tasks s' inside debt := by
  simp only [Prod.mk.injEq] at hkept
  obtain ⟨hstack', hobjects, hheld, hk⟩ := hkept
  have hlog : s'.log = s.log := by
    simp only [fixed, Prod.mk.injEq] at hk
    exact hk.2.2.1
  refine h.move hk ?_ ?_ hreturned ?_ (hc.saved h.saved hstack hstack' hobjects) fun name => ?_
  · rw [hstack, hstack', flatMap_append]
    exact append_subset.mpr ⟨subset_append_of_subset_left _ hc.waiting, subset_append_right _ _⟩
  · have hle := hc.finishing
    rw [hstack, hstack', flatMap_cons, flatMap_append, length_append, length_append]
    omega
  · rw [hstack']
    exact (h.shape_cons hstack).replace fs (by rw [hc.nested]) ⟨hc.order, hc.bad, hc.runs, hc.calls⟩
  · have hextras : s'.stack.flatMap extras = s.stack.flatMap extras := by
      rw [hstack', hstack, flatMap_append, hc.extras, flatMap_cons]
    have hlive : (live s').count (.dispatch name) = (live s).count (.dispatch name) := by
      simp [live, hheld, hstack', hstack, hc.funcs name]
    rw [tokens, tokens, hlog, hlive, hextras, extra, extra, hobjects]

lemma Open.logged {e : Event} (hs : e.started? = none) (hd : e.dispatched? = none)
    (hdone : e.done? = none) (hran : e.isRan .completed = false) :
    Open tasks { s with log := e :: s.log } inside debt := by
  have hstarted : startedNames (e :: s.log) = startedNames s.log := filterMap_cons_none hs
  have hdispatched : dispatchedNames (e :: s.log) = dispatchedNames s.log := filterMap_cons_none hd
  have hdoneNames : doneNames (e :: s.log) = doneNames s.log := filterMap_cons_none hdone
  refine ⟨?_, h.returned, h.callback, h.released, h.shape, h.saved, fun name => ?_, ?_, ?_, ?_,
    h.positive⟩
  · rw [any_cons, hran, h.ran, Bool.or_false]
  · rw [hstarted, tokens, hdispatched]
    exact h.started name
  · rw [hstarted]
    exact h.ready
  · rw [hdispatched, hdoneNames]
    exact h.succeeded
  · rw [hdoneNames]
    exact h.counted

lemma Open.callAwait (hgood : ∀ g ∈ s.stack, g.bad = false) (result : ResultPtr) :
    Open tasks (s.callOnCompleted .mainThreadAwait result) inside debt := by
  unfold RunState.callOnCompleted
  split
  · exact h
  · split_ifs
    · exact h
    · have hlogged : Open tasks { s with
          log := .ran .mainThreadAwait result.resultCode :: s.log } inside debt :=
        h.logged rfl rfl rfl rfl
      refine hlogged.move rfl (.refl _) le_rfl h.returned ?_ ?_ fun _ => le_rfl
      · exact h.shape.push hgood rfl rfl (by simp)
      · exact forall_mem_cons.mpr ⟨nofun, h.saved⟩

end

section
variable (hc : s.callback .completed = some ⟨true, false⟩)
include hc

lemma closed_callOnCompleted (result : ResultPtr) :
    Closed (s.callOnCompleted .completed result) := by
  unfold RunState.callOnCompleted
  rw [hc]
  exact .inl (by simp [Event.isRan])

lemma closed_reportError (result : ResultPtr) : Closed (s.reportError result) := by
  refine closed_callOnCompleted ?_ result
  exact hc

end

lemma extra_eq {name : String} {o : TaskObject → TaskObject}
    (hobjects : s'.objects = (s.setObject name o).objects)
    (ho : (o (s.objects name)).extraCallbacks.flatten.count (.dispatch name) = extra s name)
    (n : String) : extra s' n = extra s n := by
  rw [extra, hobjects]
  by_cases hn : n = name
  · rw [hn, setObject_self, ho]
  · rw [setObject_of_ne s _ hn, extra]

lemma Saved.ne (h : Saved s) {n name : String} (hf : f ∈ s.stack) (hn : n ∈ f.extras)
    (hgood : f.bad = false) (hstate : (s.objects name).state ≠ .initialized) : n ≠ name := by
  rintro rfl
  exact hstate (h f hf n hn hgood)

section Start
variable {name : String}

lemma Open.startNext (h : Open tasks s inside debt) (hstack : s.stack = f :: stack) (f' : Frame)
    (hwaiting : f.waiting = name :: f'.waiting) (hfinishing : f'.finishing = f.finishing)
    (hnone : f.funcs = f'.funcs ∧ f.extras = [] ∧ f'.extras = [])
    (hshape : Shape (f' :: stack) inside) :
    Open tasks { s with stack := f' :: stack, log := .started name :: s.log } inside
      (name :: debt) := by
  obtain ⟨hfuncs, hextras, hextras'⟩ := hnone
  have hstarted : startedNames (.started name :: s.log) = name :: startedNames s.log := rfl
  refine ⟨?_, h.returned, h.callback, h.released, hshape, ?_, fun n => ?_, ?_, h.succeeded, ?_,
    h.positive⟩
  · rw [any_cons, h.ran]
    rfl
  · exact h.saved_replace hstack [f'] rfl (by simpa using hextras') rfl
  · have htokens : tokens { s with stack := f' :: stack, log := .started name :: s.log } n =
        tokens s n := by
      simp only [tokens, live, hstack, flatMap_cons, hfuncs, hextras, hextras']
      rfl
    have hle := h.started n
    rw [hstarted, count_cons, count_cons]
    omega
  · intro n hn hzero
    have hmem := h.ready_cons hstack hn hzero
    rw [hwaiting] at hmem
    rw [flatMap_cons, hstarted]
    simp only [mem_append, mem_cons] at hmem ⊢
    tauto
  · have hcounted := h.counted_cons hstack
    rw [flatMap_cons, length_append, hfinishing]
    exact hcounted

section
variable (h : Open tasks s inside (name :: debt))
include h

lemma Open.hold {task : StartupTask}
    (hname : task.name = name) (hgood : ∀ g ∈ s.stack, g.bad = false)
    (hstate : (s.objects name).state = .created) :
    Open tasks (taskRunTaskInit s task [.dispatch name]) (name :: inside) debt := by
  subst hname
  refine h.move rfl (.refl _) le_rfl h.returned
    (h.shape.push hgood rfl rfl (by simp)) ?_ fun n => ?_
  · intro g hg n hn hgood'
    rcases mem_cons.mp hg with rfl | hg
    · cases hn
    · have hne := h.saved.ne hg hn hgood' (by rw [hstate]; simp)
      rw [taskRunTaskInit, setObject_of_ne s _ hne]
      exact h.saved g hg n hn hgood'
  · have hextra : extra (taskRunTaskInit s task [.dispatch task.name]) n = extra s n :=
      extra_eq rfl rfl n
    rw [tokens, tokens, hextra]
    simp only [live, taskRunTaskInit, setObject, flatten_append, flatten_cons, flatMap_cons,
      extras, count_append, count_cons]
    simp
    omega

lemma Open.callNow (hgood : ∀ g ∈ s.stack, g.bad = false) (result : Option ResultPtr) :
    Open tasks { s with stack := .call [.dispatch name] result :: s.stack } inside debt := by
  refine h.move rfl (.refl _) le_rfl h.returned ?_ ?_ fun n => ?_
  · exact h.shape.push hgood rfl rfl (by simp)
  · exact forall_mem_cons.mpr ⟨nofun, h.saved⟩
  · simp only [tokens, live, extra, flatMap_cons, funcs, extras, count_append, count_cons]
    simp
    omega

lemma Open.addExtraCallback
    (hgood : ∀ g ∈ s.stack, g.bad = false) (hstate : (s.objects name).state = .initializing) :
    Open tasks (s.setObject name fun o => (o.addExtraCallback [.dispatch name]).2) inside debt := by
  have hne : ∀ g ∈ s.stack, ∀ n ∈ g.extras, n ≠ name := fun g hg n hn =>
    h.saved.ne hg hn (hgood g hg) (by rw [hstate]; simp)
  -- no frame is calling the extra callbacks of the task
  have hnone : (s.stack.flatMap extras).count name = 0 := by
    refine count_eq_zero.mpr fun hmem => ?_
    obtain ⟨g, hg, hname⟩ := mem_flatMap.mp hmem
    exact hne g hg name hname rfl
  refine h.move rfl (.refl _) le_rfl h.returned h.shape ?_ fun n => ?_
  · intro g hg n hn hgood'
    rw [setObject_of_ne s _ (hne g hg n hn)]
    exact h.saved g hg n hn hgood'
  · simp only [tokens, live, extra, count_cons, beq_iff_eq]
    by_cases hn : n = name
    · subst hn
      rw [setObject_self, addExtraCallback, if_neg (not_not.mpr hstate)]
      simp [setObject, hnone]
      omega
    · rw [if_neg (Ne.symm hn), setObject_of_ne s _ hn]
      exact le_of_eq (by rfl)

end

lemma Open.closed_fail (h : Open tasks s inside debt) {names : List String}
    (hstack : s.stack = .run names :: stack) {code : Int32} (hcode : code ≠ errOk) :
    Closed (s.fail code) := by
  have hruns := (h.shape_cons hstack).runs
  rw [countP_cons_of_pos rfl] at hruns
  have hnone : stack.countP isRun = 0 := by omega
  unfold RunState.fail
  rw [hstack]
  refine .inr ⟨fun g hg => ?_, code, rfl, hcode⟩
  exact Bool.eq_false_of_not_eq_true (countP_eq_zero.mp hnone g hg)

end Start

variable {name : String} {result : Option ResultPtr}

section
variable (h : Open tasks s inside debt)
include h

lemma Open.clearExtra (hstack : s.stack = .callExtra name [] result :: stack) :
    Open tasks { s.setObject name TaskObject.clearExtraCallbacks with stack } inside debt := by
  have hshape : Shape stack inside := (h.shape_cons hstack).replace [] rfl (by simp [Order])
  refine h.move rfl ?_ ?_ h.returned hshape ?_ fun n => ?_
  · rw [hstack]
    exact .refl _
  · rw [hstack]
    exact le_rfl
  · intro g hg n hn hgood
    refine Eq.trans ?_ (h.saved_cons hstack g hg n hn hgood)
    by_cases hn : n = name
    · rw [hn, setObject_self]
      rfl
    · rw [setObject_of_ne s _ hn]
  · simp only [tokens, live, extra, hstack, flatMap_cons, funcs, extras,
      singleton_append, count_cons]
    by_cases hn : n = name
    · subst hn
      simp [setObject]
    · rw [setObject_of_ne s _ hn]
      simp [setObject, Ne.symm hn]

lemma Open.save {funcs : List CallbackFunc}
    (hstack : s.stack = .call (.saveResult name :: funcs) result :: stack)
    (hstate : (s.objects name).state = .initializing) :
    Open tasks { s.setObject name (TaskObject.saveResult result) with
      stack := .callExtra name (s.objects name).extraCallbacks result :: .call funcs result ::
        stack } inside debt := by
  have hshape : Shape ([.callExtra name (s.objects name).extraCallbacks result,
      .call funcs result] ++ stack) inside :=
    (h.shape_cons hstack).replace _ rfl (by simp [Order, bad, isRun])
  refine h.move rfl ?_ ?_ h.returned hshape ?_ fun n => ?_
  · rw [hstack]
    exact .refl _
  · rw [hstack]
    exact le_rfl
  · intro g hg n hn hgood
    rcases mem_cons.mp hg with rfl | hg
    · obtain rfl := mem_singleton.mp hn
      cases result with
      | none => simp [bad] at hgood
      | some r =>
        have hcode : r.resultCode = errOk := by simpa [bad] using hgood
        simp [saveResult, hcode]
    · rcases mem_cons.mp hg with rfl | hg
      · cases hn
      · have hmem : g ∈ s.stack := hstack ▸ mem_cons_of_mem _ hg
        rw [setObject_of_ne s _ (h.saved.ne hmem hn hgood (by rw [hstate]; simp))]
        exact h.saved g hmem n hn hgood
  · simp only [tokens, live, extra, hstack, flatMap_cons, Frame.funcs, Frame.extras]
    by_cases hn : n = name
    · subst hn
      simp [setObject]
      split_ifs <;> omega
    · rw [setObject_of_ne s _ hn]
      simp [setObject, Ne.symm hn]

lemma Open.dispatched_ok {funcs : List CallbackFunc}
    (hstack : s.stack = .call (.dispatch name :: funcs) result :: stack)
    (hgood : (call (.dispatch name :: funcs) result).bad = false) (r : ResultPtr)
    (children : List String) :
    Open tasks { s with
      log := .dispatched name (some errOk) :: s.log
      stack := .notify name r children [] :: .call funcs result :: stack } inside debt := by
  have hdispatched : dispatchedNames (.dispatched name (some errOk) :: s.log) =
      name :: dispatchedNames s.log := rfl
  have hdone : doneNames (.dispatched name (some errOk) :: s.log) = name :: doneNames s.log := rfl
  refine ⟨?_, h.returned, h.callback, h.released, ?_, ?_, fun n => ?_, ?_, ?_, ?_, h.positive⟩
  · rw [any_cons, h.ran]
    rfl
  · refine (h.shape_cons hstack).replace [_, _] rfl ⟨?_, by simp [hgood], by simp [isRun], by simp⟩
    simpa [Order, bad] using hgood
  · exact h.saved_replace hstack [_, _] rfl (by simp [extras]) rfl
  · -- the function leaves the frame and the dispatch is logged
    have htokens : tokens { s with
        log := .dispatched name (some errOk) :: s.log
        stack := .notify name r children [] :: .call funcs result :: stack } n = tokens s n := by
      rw [tokens, tokens, live, live, hstack, hdispatched]
      simp only [flatMap_cons, Frame.funcs, Frame.extras, count_append, count_cons, extra]
      simp
      omega
    rw [htokens]
    exact h.started n
  · intro n hn hzero
    exact (h.ready_cons hstack hn hzero).resolve_left not_mem_nil
  · rw [hdispatched, hdone, h.succeeded]
  · have hcounted := h.counted_cons hstack
    rw [hdone]
    simp only [flatMap_cons, finishing, awaiting, nil_append,
      singleton_append, length_cons, length_nil] at hcounted ⊢
    omega

lemma Open.lowered (hinv : Inv tasks s) {child : String} {result : ResultPtr}
    {task : StartupTask} {children : List String} {zeroInDegree : List StartupTask}
    (hstack : s.stack = .lower name result child task children zeroInDegree :: stack) :
    Open tasks (lowerInDegree { s with stack } name result child task children zeroInDegree)
      inside debt := by
  obtain ⟨rfl, hmem, hpos⟩ := hinv.lower_ok hstack
  have hstack' := (lowerInDegree_spec (rfl : _ = lowerInDegree { s with stack } name result
    task.name task children zeroInDegree) (hinv.graph.degrees _ hmem) hpos).2.1
  refine ⟨h.ran, h.returned, h.callback, h.released, ?_, ?_, fun n => ?_, ?_, h.succeeded, ?_,
    h.positive⟩
  · exact (h.shape_cons hstack).replace [_] rfl (by simp [Order, bad, isRun])
  · exact h.saved_replace hstack [_] hstack' (by simp [extras]) rfl
  · have hle := h.started n
    rw [tokens, live, hstack] at hle
    exact hle
  · intro n hn hzero
    rw [hstack', flatMap_cons, waiting, append_assoc, mem_append]
    by_cases hne : n = task.name
    · subst hne
      rw [if_pos hzero]
      simp
    · have hold := (inDegree_lowerInDegree_of_ne rfl hne).symm.trans hzero
      refine (h.ready_cons hstack hn hold).imp_left fun hz => ?_
      split_ifs
      · rw [map_append]
        exact mem_append_left _ hz
      · exact hz
  · have hcounted := h.counted
    rw [hstack] at hcounted
    exact hcounted

protected lemma Open.lowerTasksCount {result : ResultPtr}
    (hstack : s.stack = .finish name result :: stack) :
    Closed (lowerTasksCount { s with stack } result) ∨
      Open tasks (lowerTasksCount { s with stack } result) inside debt := by
  unfold lowerTasksCount
  dsimp only
  split_ifs with hzero
  · refine .inl (closed_callOnCompleted ?_ result)
    exact h.callback
  · refine .inr ⟨h.ran, h.returned, h.callback, h.released, ?_, ?_, fun n => ?_, ?_, h.succeeded,
      ?_, hzero⟩
    · exact (h.shape_cons hstack).replace [] rfl (by simp [Order])
    · exact h.saved_replace hstack [] rfl (by simp) rfl
    · have hle := h.started n
      rw [tokens, live, hstack] at hle
      exact hle
    · intro n hn hdegree
      exact (h.ready_cons hstack hn hdegree).resolve_left not_mem_nil
    · have hne : s.tasksCount.toNat ≠ 0 := fun h0 => h.positive (UInt32.toNat_inj.mp h0)
      have hpos : 1 ≤ s.tasksCount := Nat.one_le_iff_ne_zero.mpr hne
      have hsub : (s.tasksCount - 1).toNat = s.tasksCount.toNat - 1 :=
        UInt32.toNat_sub_of_le _ _ hpos
      have hcounted := h.counted_cons hstack
      change (s.tasksCount - 1).toNat + (doneNames s.log).length ≤
        tasks.keys.length + (stack.flatMap finishing).length
      simp only [finishing, length_singleton] at hcounted
      omega

end

end Open

attribute [simp] Order waiting finishing awaiting funcs extras bad isRun

section Steps
variable {d : StartupTaskDispatcher} {s : RunState} {inside debt : List String} {f : Frame}
  {stack : List Frame} {s' : RunState}

lemma entered_of_none (h : starting s.stack = none) : entered s s' inside = inside := by
  unfold entered
  rw [h]
  split_ifs <;> rfl

def Ongoing (tasks : TaskMap) (s : RunState) (inside debt : List String) : Prop :=
  Closed s ∨ Open tasks s inside debt

protected lemma Ongoing.runTaskInit {task : StartupTask}
    (h : Open d.tasks { s with log := .started task.name :: s.log } inside (task.name :: debt))
    (hstart : starting s'.stack = some task.name) (hstack : s.stack = f :: stack)
    (hf : f.bad = false ∧ f ≠ .taskInit)
    (hinvalid : (s.objects task.name).state = .invalid →
      Closed (fail { s with log := .started task.name :: s.log } errStartupInternalError)) :
    Ongoing d.tasks (runTaskInit s task.name task)
      (entered s' (runTaskInit s task.name task) inside) debt := by
  have hgood : ∀ g ∈ s.stack, g.bad = false := by
    have hshape := h.shape_cons hstack
    rw [hstack]
    exact forall_mem_cons.mpr ⟨hf.1, hshape.good hf.1⟩
  unfold runTaskInit
  dsimp only
  split
  · rename_i hstate
    have hhold := h.hold rfl hgood hstate
    refine .inr ?_
    unfold entered
    rw [hstart]
    exact hhold
  · refine .inr ?_
    exact h.callNow hgood _
  · rename_i hstate
    have hextra := h.addExtraCallback hgood hstate
    have hentered : entered s' (.setObject { s with log := .started task.name :: s.log }
        task.name fun o => (o.addExtraCallback [.dispatch task.name]).2) inside = inside := by
      unfold entered
      simp [setObject, hstack, hf.2]
    rw [hentered]
    exact .inr hextra
  · rename_i hstate
    exact .inl (hinvalid hstate)

protected lemma Open.dispatch (hd : Prepared d) (hinv : Inv d.tasks s)
    (h : Open d.tasks s inside debt)
    {name : String} {funcs : List CallbackFunc} {result : Option ResultPtr}
    (hstack : s.stack = .call (.dispatch name :: funcs) result :: stack) :
    Ongoing d.tasks (dispatch d { s with stack := .call funcs result :: stack } name result)
      inside debt := by
  cases hresult : result with
  | none =>
    refine .inl (closed_reportError ?_ _)
    exact h.callback
  | some r =>
    unfold dispatch
    dsimp only [Option.map_some]
    split_ifs with hcode
    · refine .inl (closed_reportError ?_ _)
      exact h.callback
    · have hlive : .dispatch name ∈ live s := by
        simp [live, hstack]
      have hcount := count_pos_iff.mpr hlive
      have hle := (hinv.tokens name).live_le
      have hmem : name ∈ startedNames s.log := by
        rw [← count_pos_iff]
        omega
      have hready := hinv.graph.ready name (mem_append_right _ hmem)
      obtain ⟨task, hfind, -⟩ := hd.find? hready.1
      obtain ⟨sorted, hsorted, hchildren⟩ := hd.sorted
      obtain ⟨children, hfound⟩ := contains_iff.mp (hchildren.contains name (mem_keys.mp hready.1))
      have hnotify := h.dispatched_ok hstack (by simpa [hresult] using hcode) r children
      simp only [hfind, notifyChildren, hsorted, hfound, not_not.mp hcode]
      rw [hresult] at hnotify
      exact .inr hnotify

protected lemma Open.callFunc (hd : Prepared d) (hinv : Inv d.tasks s)
    (h : Open d.tasks s inside debt)
    {func : CallbackFunc} {funcs : List CallbackFunc} {result : Option ResultPtr}
    (hstack : s.stack = .call (func :: funcs) result :: stack) :
    Ongoing d.tasks (callFunc d { s with stack := .call funcs result :: stack } result func)
      inside debt := by
  cases func with
  | dispatch name =>
    dsimp only [callFunc]
    rw [if_neg (by simp [h.released])]
    exact h.dispatch hd hinv hstack
  | saveResult name =>
    have hlive : .saveResult name ∈ live s := by
      simp [live, hstack]
    have hcount := count_pos_iff.mpr hlive
    have hsaving := (hinv.tokens name).saving
    have hstate : (s.objects name).state = .initializing := by
      by_contra hne
      rw [if_neg hne] at hsaving
      omega
    have hsave := h.save hstack hstate
    unfold callFunc
    dsimp only
    rw [setObject_self, saveResult_extraCallbacks]
    exact .inr hsave
  | other =>
    have hc : Continues (.call (.other :: funcs) result) [.call funcs result] := by
      constructor <;> simp
    exact .inr (h.next hstack hc rfl h.returned)

protected lemma Open.notifyChild (hd : Prepared d) (hinv : Inv d.tasks s)
    (h : Open d.tasks s inside debt)
    {name child : String} {result : ResultPtr} {children : List String}
    {zeroInDegree : List StartupTask}
    (hstack : s.stack = .notify name result (child :: children) zeroInDegree :: stack) :
    Open d.tasks (notifyChild d { s with stack } name result child children zeroInDegree)
      inside debt := by
  have hchild := (hinv.frames_cons hstack).1 child mem_cons_self
  obtain ⟨task, hfind, -⟩ := hd.find? (mem_keys.mpr hchild)
  have hc : Continues (.notify name result (child :: children) zeroInDegree)
      [.onDependencyCompleted, .lower name result child task children zeroInDegree] := by
    constructor <;> simp
  simp only [notifyChild, hinv.graph.degrees child hchild, hfind]
  exact h.next hstack hc rfl h.returned

protected lemma Open.lowerAwaitCount (h : Open d.tasks s inside debt) {name : String}
    {result : ResultPtr} (hstack : s.stack = .start name result [] :: stack) :
    Open d.tasks (lowerAwaitCount d { s with stack } name result) inside debt := by
  have hc : Continues (.start name result []) [.finish name result] := by
    constructor <;> simp
  have hgood : ∀ g ∈ .finish name result :: stack, g.bad = false :=
    forall_mem_cons.mpr ⟨rfl, (h.shape_cons hstack).good rfl⟩
  unfold lowerAwaitCount
  dsimp only
  split
  · split_ifs
    · refine .callAwait ?_ hgood result
      exact h.next hstack hc rfl h.returned
    · exact h.next hstack hc rfl h.returned
    · exact h.next hstack hc rfl h.returned
  · exact h.next hstack hc rfl h.returned

lemma Open.advance_quiet (hd : Prepared d) (hinv : Inv d.tasks s)
    (h : Open d.tasks s inside debt) (hnone : starting s.stack = none) :
    Ongoing d.tasks (advance d s) inside debt := by
  unfold advance
  split
  · exact .inr h
  · rename_i hstack
    exact .inr (h.next hstack (show Continues _ [] by constructor <;> simp) rfl (.inr rfl))
  · rename_i hstack
    rw [hstack] at hnone
    cases hnone
  · rename_i hstack
    exact .inr (h.next hstack (show Continues _ [] by constructor <;> simp) rfl h.returned)
  · rename_i hstack
    exact h.callFunc hd hinv hstack
  · rename_i hstack
    exact .inr (h.clearExtra hstack)
  · rename_i name callback callbacks result stack hstack
    have hc : Continues (.callExtra name (callback :: callbacks) result)
        [.call callback result, .callExtra name callbacks result] := by
      constructor <;> simp
    exact .inr (h.next hstack hc rfl h.returned)
  · rename_i name result zeroInDegree stack hstack
    have hc : Continues (.notify name result [] zeroInDegree)
        [.start name result zeroInDegree] := by
      constructor <;> simp
    exact .inr (h.next hstack hc rfl h.returned)
  · rename_i hstack
    exact .inr (h.notifyChild hd hinv hstack)
  · rename_i hstack
    exact .inr (h.lowered hinv hstack)
  · rename_i hstack
    exact .inr (h.lowerAwaitCount hstack)
  · rename_i hstack
    rw [hstack] at hnone
    cases hnone
  · rename_i hstack
    exact h.lowerTasksCount hstack
  · rename_i hstack
    exact .inr (h.next hstack (show Continues _ [] by constructor <;> simp) rfl h.returned)
  · exact .inr h
  · exact .inr h
  · exact .inr h

protected lemma Open.advance (hd : Prepared d) (hinv : Inv d.tasks s)
    (h : Open d.tasks s inside debt)
    (hvalid : ∀ name result task rest stack, s.stack = .start name result (task :: rest) :: stack →
      (s.objects task.name).state ≠ .invalid) :
    Ongoing d.tasks (advance d s) (entered s (advance d s) inside) debt := by
  cases hnone : starting s.stack with
  | none =>
    rw [entered_of_none hnone]
    exact h.advance_quiet hd hinv hnone
  | some _ =>
    unfold starting at hnone
    split at hnone
    · rename_i name names stack hstack
      have hready := hinv.graph.ready name (by simp [hstack])
      obtain ⟨task, hfind, rfl⟩ := hd.find? hready.1
      have hshape : Shape (.run names :: stack) inside :=
        (h.shape_cons hstack).replace [_] rfl (by simp)
      have hnext := h.startNext hstack (.run names) rfl rfl ⟨rfl, rfl, rfl⟩ hshape
      simp only [advance, hstack, runNext, hfind]
      refine .runTaskInit hnext (by rw [hstack]; rfl) rfl ⟨rfl, by simp⟩ fun _ => ?_
      exact hnext.closed_fail rfl (by decide)
    · rename_i name result task rest stack hstack
      have hshape : Shape (.start name result rest :: stack) inside :=
        (h.shape_cons hstack).replace [_] rfl (by simp)
      have hnext := h.startNext hstack (.start name result rest) rfl rfl ⟨rfl, rfl, rfl⟩ hshape
      simp only [advance, hstack]
      refine .runTaskInit hnext (by rw [hstack]; rfl) rfl ⟨rfl, by simp⟩ fun hinvalid => ?_
      exact absurd hinvalid (hvalid name result task rest stack hstack)
    · cases hnone

lemma Open.leaveTaskInit (h : Open d.tasks s inside debt)
    (hstack : s.stack = .taskInit :: stack) : Open d.tasks { s with stack } inside.tail debt := by
  have hshape := h.shape_cons hstack
  have hlen := hshape.nested
  rw [count_cons_self] at hlen
  refine h.move rfl (by rw [hstack]; exact .refl _) (by rw [hstack]; exact le_rfl)
    h.returned ?_ (h.saved_replace hstack [] rfl (by simp) rfl) fun name => ?_
  · refine hshape.replace [] ?_ (by simp)
    simp
    omega
  · simp only [tokens, live, hstack]
    exact le_rfl

lemma outside_good (h : Shape s.stack inside) (houtside : outside s = true) :
    ∀ g ∈ s.stack, g.bad = false := by
  cases hstack : s.stack with
  | nil => simp
  | cons f stack =>
    rw [hstack] at h
    unfold outside at houtside
    rw [hstack] at houtside
    have hf : f.bad = false := by
      cases f <;> first | rfl | exact absurd houtside (by simp)
    exact forall_mem_cons.mpr ⟨hf, h.good hf⟩

protected lemma Open.complete (h : Open d.tasks s inside debt) (houtside : outside s = true)
    (index : ℕ)
    (result : Option (Int32 × String)) : Open d.tasks (complete s index result) inside debt := by
  have hgood := outside_good h.shape houtside
  unfold complete
  split
  · exact h
  · rename_i hcallback
    refine h.move rfl (.refl _) le_rfl h.returned ?_ ?_ fun n => ?_
    · exact h.shape.push hgood rfl rfl (by simp)
    · exact forall_mem_cons.mpr ⟨nofun, h.saved⟩
    · have hcount := count_flatten_eraseIdx hcallback (.dispatch n)
      simp only [tokens, live, extra, flatMap_cons, funcs, extras, nil_append, count_append]
      omega

lemma count_filterMap_dispatch (callback : StartupTaskResultCallback) (name : String) :
    (callback.filterMap CallbackFunc.dispatch?).count name = callback.count (.dispatch name) := by
  induction callback with
  | nil => rfl
  | cons func callback ih =>
    cases func with
    | dispatch n =>
      rw [filterMap_cons_some (by rfl), count_cons, count_cons, ih]
      simp
    | saveResult n => rw [filterMap_cons_none (by rfl), count_cons_of_ne (by simp), ih]
    | other => rw [filterMap_cons_none (by rfl), count_cons_of_ne (by simp), ih]

section
variable (h : Open d.tasks s inside debt)
include h

lemma Open.drop (index : ℕ) :
    Open d.tasks { s with held := s.held.eraseIdx index } inside (ownNames s index ++ debt) := by
  refine h.move rfl (.refl _) le_rfl h.returned h.shape h.saved fun n => ?_
  have hheld : s.held.flatten.count (.dispatch n) = (ownNames s index).count n +
      (s.held.eraseIdx index).flatten.count (.dispatch n) := by
    unfold ownNames
    cases hindex : s.held[index]? with
    | none =>
      rw [eraseIdx_of_length_le (getElem?_eq_none_iff.mp hindex)]
      simp
    | some callback =>
      rw [Option.getD_some, count_filterMap_dispatch, count_flatten_eraseIdx hindex]
  simp only [tokens, live, extra, count_append]
  omega

lemma Open.same (hsaved : Saved s') (hk : fixed s' = fixed s) (hstack : s'.stack = s.stack)
    (hreturned : s'.returned = s.returned)
    (hheld : ∀ n, s'.held.flatten.count (.dispatch n) = s.held.flatten.count (.dispatch n))
    (hextra : ∀ n, extra s' n = extra s n) : Open d.tasks s' inside debt := by
  have hlog : s'.log = s.log := by
    simp only [fixed, Prod.mk.injEq] at hk
    exact hk.2.2.1
  refine h.move hk (hstack ▸ .refl _) (hstack ▸ le_rfl) (hreturned ▸ h.returned)
    (hstack ▸ h.shape) hsaved fun n => ?_
  rw [tokens, tokens, live, live, hlog, hstack, hextra, count_append, count_append, hheld]

section
variable {name : String} (hfree : name ∉ s.stack.flatMap extras)
include hfree

lemma Open.saved_of_free (hstack : s'.stack = s.stack)
    (hobjects : ∀ n, n ≠ name → s'.objects n = s.objects n) : Saved s' := by
  intro f hf n hn hgood
  rw [hstack] at hf
  have hne : n ≠ name := fun heq => hfree (mem_flatMap.mpr ⟨f, hf, heq ▸ hn⟩)
  rw [hobjects n hne]
  exact h.saved f hf n hn hgood

protected lemma Open.otherRun : Open d.tasks (otherRun s name) inside debt := by
  have hother (f : TaskObject → TaskObject) (n : String) (hn : n ≠ name) :
      (s.setObject name f).objects n = s.objects n := setObject_of_ne s f hn
  unfold otherRun
  split
  · exact h.same (h.saved_of_free hfree rfl (hother _)) rfl rfl rfl (by simp) (extra_eq rfl rfl)
  · rename_i hstate
    refine h.same (h.saved_of_free hfree rfl (hother _)) rfl rfl rfl (fun _ => rfl)
      (extra_eq rfl ?_)
    rw [TaskObject.addExtraCallback, if_neg (not_not.mpr hstate)]
    simp [extra]
  · exact h

lemma Open.removeResult :
    Open d.tasks (s.setObject name fun o => o.removeResult.2) inside debt := by
  refine h.same (h.saved_of_free hfree rfl fun _ => setObject_of_ne s _) rfl rfl rfl
    (fun _ => rfl) (extra_eq rfl ?_)
  unfold TaskObject.removeResult
  split_ifs <;> rfl

end

end

end Steps

section Run
variable {d : StartupTaskDispatcher} {w : Watched} {a : Action}

lemma watch_state (d : StartupTaskDispatcher) (w : Watched) (a : Action) :
    (watch d w a).state = step d w.state a := by
  unfold watch
  split
  · rfl
  · split_ifs <;> rfl
  · split_ifs <;> rfl
  · split_ifs <;> rfl
  · rfl

def Going (tasks : TaskMap) (w : Watched) : Prop :=
  Closed w.state ∨ Open tasks w.state w.inside w.dropped ∧ (∀ name ∈ w.dropped, name ∈ w.inside) ∧
    w.refused = []

protected lemma Going.leave (h : Open d.tasks w.state w.inside w.dropped)
    (hlost : ∀ name ∈ w.dropped, name ∈ w.inside) (hrefused : w.refused = []) {code : Int32}
    (hobeys : Obeys w (.leave code)) (hchild : ChildrenStart w (.leave code)) :
    Going d.tasks (watch d w (.leave code)) := by
  have hsame : ∀ {s : RunState}, Open d.tasks s w.inside w.dropped →
      Going d.tasks { w with state := s } := fun hs => .inr ⟨hs, hlost, hrefused⟩
  cases hstack : w.state.stack with
  | nil =>
    simp only [watch, step, leave, hstack]
    exact hsame h
  | cons f stack =>
    cases f with
    | taskInit =>
      have hpop := h.leaveTaskInit hstack
      simp only [watch, step, leave, hstack]
      by_cases hcode : code = errOk
      · simp only [hcode]
        refine .inr ⟨hpop, fun name hname => ?_, hrefused⟩
        have hmem := hlost name hname
        cases hinside : w.inside with
        | nil =>
          rw [hinside] at hmem
          cases hmem
        | cons first rest =>
          rw [hinside] at hmem
          have hkept := hobeys (by rw [hstack]; rfl) first (by rw [hinside]; rfl)
          rw [if_pos hcode] at hkept
          refine (mem_cons.mp hmem).resolve_left ?_
          rintro rfl
          exact hkept hname
      · simp only [hcode]
        cases stack with
        | nil =>
          simp only [ChildrenStart, hstack] at hchild
          exact absurd hchild hcode
        | cons g rest =>
          cases g with
          | run names => exact .inl (hpop.closed_fail rfl hcode)
          | _ =>
            simp only [ChildrenStart, hstack] at hchild
            exact absurd hchild hcode
    | onDependencyCompleted =>
      simp only [watch, step, leave, hstack]
      exact hsame (h.next hstack (show Continues _ [] by constructor <;> simp) rfl h.returned)
    | func which =>
      have hwhich : which = .mainThreadAwait := by
        cases which with
        | completed => exact absurd (hstack ▸ mem_cons_self) h.shape.calls
        | mainThreadAwait => rfl
      subst hwhich
      simp only [watch, step, leave, hstack]
      exact hsame (h.next hstack (show Continues _ [] by constructor <;> simp)
        (by simp [fixed]) h.returned)
    | _ =>
      simp only [watch, step, leave, hstack]
      exact hsame h

lemma Going.watch (hd : Prepared d) (hinv : Inv d.tasks w.state) (h : Going d.tasks w)
    (hobeys : Obeys w a) (hchild : ChildrenStart w a) (hapart : Apart w.state a) :
    Going d.tasks (watch d w a) := by
  rcases h with hclosed | ⟨hopen, hlost, hrefused⟩
  · refine .inl ?_
    rw [watch_state]
    exact hclosed.extends (extends_step w.state a)
  have hsame : ∀ {s : RunState}, Open d.tasks s w.inside w.dropped →
      Going d.tasks { w with state := s } := fun hs => .inr ⟨hs, hlost, hrefused⟩
  cases a with
  | advance =>
    have hvalid : ∀ name result task rest stack,
        w.state.stack = .start name result (task :: rest) :: stack →
        (w.state.objects task.name).state ≠ .invalid := by
      intro name result task rest stack hstack
      simpa only [ChildrenStart, hstack] using hchild
    rcases hopen.advance hd hinv hvalid with hclosed | hnext
    · refine .inl ?_
      exact hclosed
    · refine .inr ⟨hnext, fun name hname => ?_, hrefused⟩
      have hmem := hlost name hname
      dsimp only [watch]
      unfold entered
      split_ifs
      · exact mem_append_right _ hmem
      · exact hmem
  | leave code => exact .leave hopen hlost hrefused hobeys hchild
  | complete index result =>
    simp only [watch, step]
    split_ifs with houtside
    · exact .inr ⟨hopen.complete houtside index result, hlost, hrefused⟩
    · exact hsame hopen
  | drop index =>
    simp only [watch, step]
    split_ifs with houtside
    · refine .inr ⟨hopen.drop index, fun name hname => ?_, hrefused⟩
      rcases mem_append.mp hname with hname | hname
      · have hor := hobeys name hname
        rw [hrefused] at hor
        exact hor.resolve_left not_mem_nil
      · exact hlost name hname
    · exact hsame hopen
  | runPosted =>
    simp only [watch, step]
    split_ifs with hidle
    · have hnil := isEmpty_iff.mp hidle
      unfold runPosted
      split
      · exact hsame hopen
      · rename_i result posted hposted
        refine hsame (.callAwait ?_ ?_ result)
        · exact hopen.same hopen.saved rfl rfl rfl (fun _ => rfl) fun _ => rfl
        · simp [hnil]
    · exact hsame hopen
  | otherRun name =>
    simp only [watch, step]
    split_ifs
    · exact hsame (hopen.otherRun hapart)
    · exact hsame hopen
  | removeResult name =>
    simp only [watch, step]
    split_ifs
    · exact hsame (hopen.removeResult hapart)
    · exact hsame hopen
  | release =>
    have hran : w.state.log.any (·.isRan .completed) = true := hobeys
    rw [hopen.ran] at hran
    exact absurd hran (by simp)

lemma open_run (hd : Prepared d) (hne : d.tasks.keys ≠ []) (w : World)
    {callback : Completion → Option OnCompletedCallback}
    (hcallback : callback .completed = some ⟨true, false⟩) :
    Open d.tasks (run d w callback) [] [] := by
  obtain ⟨r, inDegreeMap, hsorted, hfound, hrun⟩ := run_eq hd w callback
  have hcount := tasksCount_counted hd w callback r inDegreeMap
  have hshape : Shape [.run r.zeroDequeResult] [] := ⟨rfl, pairwise_singleton _ _, by simp, by simp⟩
  have hopen : Open d.tasks (counted d w callback r inDegreeMap) [] [] := by
    refine ⟨rfl, .inl rfl, hcallback, rfl, hshape, ?_, fun name => Nat.zero_le _, ?_, rfl, ?_, ?_⟩
    · exact forall_mem_singleton.mpr nofun
    · intro name hname hzero
      rw [inDegree_counted hd w callback hfound hname] at hzero
      have hmem : name ∈ r.zeroDequeResult := by
        rw [zeroDequeResult_eq hd hsorted, mem_filter]
        exact ⟨hname, isEmpty_iff.mpr (length_eq_zero_iff.mp hzero)⟩
      simpa [counted, startedNames] using hmem
    · rw [hcount]
      exact le_rfl
    · intro hzero
      rw [hzero] at hcount
      exact hne (length_eq_zero_iff.mp hcount.symm)
  rw [hrun]
  split_ifs
  · refine .callAwait ?_ ?_ _
    · exact hopen.move rfl (.refl _) le_rfl (.inl rfl) hshape hopen.saved fun _ => le_rfl
    · exact forall_mem_singleton.mpr rfl
  · exact hopen

theorem Open.not_idle (hinv : Inv d.tasks w.state) (hacyclic : d.tasks.Acyclic)
    (hclosed : ∀ a b, d.tasks.DependsOn a b → d.tasks.contains b = true)
    (h : Open d.tasks w.state w.inside w.dropped) (hlost : ∀ name ∈ w.dropped, name ∈ w.inside)
    (hrefused : w.refused = []) : ¬ Idle d.tasks w := by
  rintro ⟨hidle, hnone⟩
  have hinside : w.inside = [] := by
    have hlen := h.shape.nested
    rw [hidle] at hlen
    exact length_eq_zero_iff.mp hlen
  have hdropped : w.dropped = [] :=
    eq_nil_iff_forall_not_mem.mpr fun name hname => by
      have hmem := hlost name hname
      rw [hinside] at hmem
      cases hmem
  have hdone : ∀ name ∈ d.tasks.keys, inDegree w.state name = 0 →
      name ∈ doneNames w.state.log := by
    intro name hname hzero
    have hstarted := h.ready name hname hzero
    rw [hidle, ← count_pos_iff] at hstarted
    obtain ⟨hheld, hextra⟩ := hnone name hname (by rw [hrefused]; exact not_mem_nil)
    have hle := h.started name
    rw [tokens, live, extra, hidle, hdropped, flatMap_nil, append_nil,
      count_eq_zero.mpr hheld, count_eq_zero.mpr hextra, h.succeeded] at hle
    simpa using lt_of_lt_of_le hstarted hle
  obtain ⟨queue, hfrontier⟩ := hinv.graph.frontier
  rw [hidle] at hfrontier
  have hqueue : queue = [] := by
    refine eq_nil_iff_forall_not_mem.mpr fun name hname => ?_
    have hmem := hfrontier.mem name (mem_append_right _ hname)
    have hzero := (hfrontier.ready name hmem).mp (mem_append_right _ hname)
    exact (nodup_append.mp hfrontier.nodup).2.2 name
      (mem_reverse.mpr (hdone name hmem hzero)) name hname rfl
  rw [hqueue] at hfrontier
  have hlen := (hfrontier.length_eq_iff d.tasks.nodup_keys fun a _ b hb =>
    mem_keys.mpr (hclosed a b hb)).mpr fun a _ => hacyclic a
  rw [length_reverse] at hlen
  have hcounted := h.counted
  rw [hidle, flatMap_nil, length_nil] at hcounted
  exact h.positive (UInt32.toNat_inj.mp (show w.state.tasksCount.toNat = 0 by omega))

def pairRun (actions : List Action) : Watched :=
  actions.foldl (watch ⟨pairTasks, some pairResult⟩)
    (watched (run ⟨pairTasks, some pairResult⟩ createdWorld bothCallbacks))

def laterActions : List Action :=
  [.advance, .leave errOk, .advance, .complete 0 (some (errOk, "")), .advance, .advance, .advance,
    .advance, .leave errOk, .advance, .advance, .leave errOk, .advance, .advance, .advance,
    .leave errOk, .advance, .advance, .advance, .complete 0 (some (errOk, "")), .advance, .advance,
    .advance, .advance, .advance, .leave errOk, .advance, .leave errOk, .advance]

def refusedActions : List Action :=
  [.advance, .leave errOk, .advance, .complete 0 (some (errOk, "")), .advance, .advance, .advance,
    .advance, .leave errOk, .advance, .advance, .leave errOk, .advance, .advance, .advance,
    .leave errStartupInternalError, .advance]

/-- Another run is initializing `a`. -/
def initializingWorld : World where
  objects name := ⟨if name = "a" then .initializing else .created, none, []⟩
  held := [[.saveResult "a", .other]]
  messages := []
  held_other := by simp
  extra_other := createdWorld.extra_other
  saving name := by
    by_cases h : name = "a"
    · simp [h]
    · simp [h, Ne.symm h]

end Run

end AbilityRuntime.Startup.StartupTaskDispatcher
