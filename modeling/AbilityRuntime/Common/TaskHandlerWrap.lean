import Mathlib.Data.String.Basic
import AbilityRuntime.Library.SortedMap
import AbilityRuntime.Library.Runs

/-! Tasks that can be cancelled by name. A named task is entered into a table, and a second task
with the same delay takes the entry out; those that are due start in any order and run side by side.
A handle is the number of its task. -/

namespace AbilityRuntime
open SortedMap

inductive TaskStatus
  | pending | executing | finished | canceled
  deriving DecidableEq

/-- What a task does: the work of a named or an unnamed task, or the clearing of the
table entry of another one. -/
inductive TaskBody
  | named (name : String)
  | unnamed
  | clearTask (name : String) (taskHandle : ℕ)
  deriving DecidableEq

structure SubmittedTask where
  body : TaskBody
  dueTime : ℕ
  status : TaskStatus

structure TaskHandlerWrap where
  now : ℕ
  submitted : SortedMap ℕ SubmittedTask
  nextHandle : ℕ
  tasks : SortedMap String ℕ

inductive TaskOp
  | submitTask (name : String) (delayMillis : ℤ) (forceSubmit : Bool)
  | submitUnnamed (delayMillis : ℤ)
  | cancelTask (name : String)
  | start (handle : ℕ)
  | finish (handle : ℕ)
  | tick

namespace TaskHandlerWrap

def init : TaskHandlerWrap := ⟨0, .empty, 0, .empty⟩

variable (s : TaskHandlerWrap)

def submitTaskInner (body : TaskBody) (delayMillis : ℤ) : TaskHandlerWrap :=
  { s with
    submitted := s.submitted.assign s.nextHandle ⟨body, s.now + delayMillis.toNat, .pending⟩
    nextHandle := s.nextHandle + 1 }

def submitTask (name : String) (delayMillis : ℤ) (forceSubmit : Bool) :
    TaskHandlerWrap × Option ℕ :=
  if s.tasks.contains name then
    if forceSubmit then (s.submitTaskInner (.named name) delayMillis, some s.nextHandle)
    else (s, none)
  else
    let result := s.nextHandle
    let s := s.submitTaskInner (.named name) delayMillis
    let s := { s with tasks := s.tasks.assign name result }
    (s.submitTaskInner (.clearTask name result) delayMillis, some result)

def setStatus (handle : ℕ) (status : TaskStatus) : TaskHandlerWrap :=
  { s with submitted := s.submitted.modify handle fun t => { t with status := status } }

/-- `TaskHandle::Cancel`; a task that has not started is skipped. -/
def cancel (handle : ℕ) : TaskHandlerWrap × Bool :=
  match s.submitted.find? handle with
  | none => (s, false)
  | some t => if t.status ≠ .pending then (s, false) else (s.setStatus handle .canceled, true)

def cancelTask (name : String) : TaskHandlerWrap × Bool :=
  match s.tasks.find? name with
  | none => (s, false)
  | some handle => { s with tasks := s.tasks.erase name }.cancel handle

def removeTask (name : String) (handle : ℕ) : TaskHandlerWrap :=
  if s.tasks.find? name = some handle then { s with tasks := s.tasks.erase name } else s

def start (handle : ℕ) : TaskHandlerWrap :=
  match s.submitted.find? handle with
  | none => s
  | some t =>
    if t.status = .pending ∧ t.dueTime ≤ s.now then s.setStatus handle .executing else s

/-- The end of a task. A clearing task takes the entry out at some time while it runs,
which is put at its end. -/
def finish (handle : ℕ) : TaskHandlerWrap :=
  match s.submitted.find? handle with
  | none => s
  | some t =>
    if t.status = .executing then
      let s := s.setStatus handle .finished
      match t.body with
      | .clearTask name taskHandle => s.removeTask name taskHandle
      | _ => s
    else s

def step : TaskOp → TaskHandlerWrap
  | .submitTask name delayMillis forceSubmit => (s.submitTask name delayMillis forceSubmit).1
  | .submitUnnamed delayMillis => s.submitTaskInner .unnamed delayMillis
  | .cancelTask name => (s.cancelTask name).1
  | .start handle => s.start handle
  | .finish handle => s.finish handle
  | .tick => { s with now := s.now + 1 }

def isPending (name : String) (handle : ℕ) : Bool :=
  (s.submitted.find? handle).any fun t => t.body = .named name ∧ t.status = .pending

def pendingOnce : Bool :=
  s.submitted.entries.all fun e => s.submitted.entries.all fun e' =>
    match e.2.body with
    | .named name => !(s.isPending name e.1 && s.isPending name e'.1) || e.1 = e'.1
    | _ => true

def hasStarted (handle : ℕ) : Bool :=
  (s.submitted.find? handle).any fun t => t.status = .executing ∨ t.status = .finished

def inTurn : TaskOp → Bool
  | .finish handle =>
    match s.submitted.find? handle with
    | some ⟨.clearTask name taskHandle, _, .executing⟩ => !s.isPending name taskHandle
    | _ => true
  | .submitTask name _ _ => s.submitted.entries.all fun e =>
    match e.2.body with
    | .clearTask name' taskHandle =>
      name' ≠ name || e.2.status = .finished || !s.hasStarted taskHandle
    | _ => true
  | _ => true

lemma isPending_iff {s : TaskHandlerWrap} {name : String} {handle : ℕ} :
    s.isPending name handle = true ↔ ∃ t, s.submitted.find? handle = some t ∧
      t.body = .named name ∧ t.status = .pending := by
  simp [isPending, Option.any_eq_true]

structure Registered (s : TaskHandlerWrap) : Prop where
  pending : ∀ name handle, s.isPending name handle = true → s.tasks.find? name = some handle
  entry : ∀ name handle, s.tasks.find? name = some handle → ∃ t,
    s.submitted.find? handle = some t ∧ t.body = .named name ∧ t.status ≠ .canceled
  clear : ∀ name handle, s.tasks.find? name = some handle → ∃ c t,
    s.submitted.find? c = some t ∧ t.body = .clearTask name handle ∧
      (t.status = .pending ∨ t.status = .executing)
  fresh : ∀ handle, s.nextHandle ≤ handle → s.submitted.find? handle = none

variable {s : TaskHandlerWrap}

lemma find?_submitTaskInner (s : TaskHandlerWrap) (body : TaskBody) (delay : ℤ) (h : ℕ) :
    (s.submitTaskInner body delay).submitted.find? h =
      if s.nextHandle = h then some ⟨body, s.now + delay.toNat, .pending⟩
      else s.submitted.find? h := find?_assign ..

lemma Registered.lt (h : Registered s) {k : ℕ} {t : SubmittedTask}
    (ht : s.submitted.find? k = some t) : k < s.nextHandle := by
  by_contra hge
  exact absurd (ht.symm.trans (h.fresh k (not_lt.mp hge))) nofun

protected lemma Registered.find?_submitTaskInner (h : Registered s) (body : TaskBody) (delay : ℤ)
    {k : ℕ} {t : SubmittedTask} (ht : s.submitted.find? k = some t) :
    (s.submitTaskInner body delay).submitted.find? k = some t := by
  rw [find?_submitTaskInner, if_neg (h.lt ht).ne', ht]

protected lemma Registered.submitTaskInner (h : Registered s) {body : TaskBody}
    (hb : ∀ n, body ≠ .named n) (delay : ℤ) : Registered (s.submitTaskInner body delay) where
  pending name k hk := by
    obtain ⟨t, ht, hbody, hstatus⟩ := isPending_iff.mp hk
    rw [find?_submitTaskInner] at ht
    split at ht
    · cases ht
      exact absurd hbody (hb name)
    · exact h.pending name k (isPending_iff.mpr ⟨t, ht, hbody, hstatus⟩)
  entry name k hk := by
    obtain ⟨t, ht, hbody⟩ := h.entry name k hk
    exact ⟨t, h.find?_submitTaskInner body delay ht, hbody⟩
  clear name k hk := by
    obtain ⟨c, t, ht, hbody⟩ := h.clear name k hk
    exact ⟨c, t, h.find?_submitTaskInner body delay ht, hbody⟩
  fresh k hk := by
    have hlt : s.nextHandle < k := hk
    rw [find?_submitTaskInner, if_neg hlt.ne]
    exact h.fresh k hlt.le

lemma Registered.isPending_of_inTurn (h : Registered s) {name : String} {delay : ℤ} {force : Bool}
    (hin : s.inTurn (.submitTask name delay force) = true) {k : ℕ}
    (hk : s.tasks.find? name = some k) : s.isPending name k = true := by
  obtain ⟨t, ht, hbody, hstatus⟩ := h.entry name k hk
  obtain ⟨c, d, hd, hclear, hout⟩ := h.clear name k hk
  have hc := List.all_eq_true.mp hin (c, d) (mem_entries.mpr hd)
  simp only [hclear, ne_eq, not_true_eq_false, decide_false, Bool.false_or, Bool.or_eq_true,
    decide_eq_true_eq] at hc
  have hnot : s.hasStarted k = false := by
    rcases hc with hc | hc
    · rw [hc] at hout
      simp at hout
    · simpa using hc
  simp only [hasStarted, ht, Option.any_some, decide_eq_false_iff_not, not_or] at hnot
  refine isPending_iff.mpr ⟨t, ht, hbody, ?_⟩
  cases hs : t.status with
  | pending => rfl
  | executing => exact absurd hs hnot.1
  | finished => exact absurd hs hnot.2
  | canceled => exact absurd hs hstatus

lemma eq_of_pendingOnce (h : s.pendingOnce = true) {name : String} {k k' : ℕ}
    (hk : s.isPending name k = true) (hk' : s.isPending name k' = true) : k = k' := by
  obtain ⟨t, ht, hbody, -⟩ := isPending_iff.mp hk
  obtain ⟨t', ht', -⟩ := isPending_iff.mp hk'
  have hall := List.all_eq_true.mp (List.all_eq_true.mp h (k, t) (mem_entries.mpr ht))
    (k', t') (mem_entries.mpr ht')
  simpa [hbody, hk, hk'] using hall

lemma Registered.submitNamed (h : Registered s) {name : String}
    (hfree : s.tasks.contains name = false) (delay : ℤ) (force : Bool) :
    Registered (s.submitTask name delay force).1 := by
  have hsubmitted (k : ℕ) : (s.submitTask name delay force).1.submitted.find? k =
      if s.nextHandle + 1 = k then
        some ⟨.clearTask name s.nextHandle, s.now + delay.toNat, .pending⟩
      else if s.nextHandle = k then some ⟨.named name, s.now + delay.toNat, .pending⟩
      else s.submitted.find? k := by
    simp [submitTask, hfree, submitTaskInner, find?_assign]
  have htasks (name' : String) : (s.submitTask name delay force).1.tasks.find? name' =
      if name = name' then some s.nextHandle else s.tasks.find? name' := by
    simp [submitTask, hfree, submitTaskInner, find?_assign]
  have hnone := contains_eq_false.mp hfree
  have hold {k : ℕ} {t : SubmittedTask} (ht : s.submitted.find? k = some t) :
      (s.submitTask name delay force).1.submitted.find? k = some t := by
    have hlt := h.lt ht
    rw [hsubmitted, if_neg (by omega), if_neg (by omega), ht]
  refine ⟨fun name' k hk => ?_, fun name' k hk => ?_, fun name' k hk => ?_, fun k hk => ?_⟩
  · obtain ⟨t, ht, hbody, hstatus⟩ := isPending_iff.mp hk
    rw [hsubmitted] at ht
    rw [htasks]
    split at ht
    · cases ht
      cases hbody
    split_ifs at ht with hnew
    · cases ht
      cases hbody
      rw [if_pos rfl, hnew]
    · have hreg := h.pending name' k (isPending_iff.mpr ⟨t, ht, hbody, hstatus⟩)
      rw [if_neg, hreg]
      rintro rfl
      exact absurd (hnone.symm.trans hreg) nofun
  · rw [htasks] at hk
    split_ifs at hk with hname
    · subst hname
      cases hk
      refine ⟨⟨.named name, s.now + delay.toNat, .pending⟩, ?_, rfl, nofun⟩
      rw [hsubmitted, if_neg (by omega), if_pos rfl]
    · obtain ⟨t, ht, hbody⟩ := h.entry name' k hk
      exact ⟨t, hold ht, hbody⟩
  · rw [htasks] at hk
    split_ifs at hk with hname
    · subst hname
      cases hk
      refine ⟨s.nextHandle + 1, ⟨.clearTask name s.nextHandle, s.now + delay.toNat, .pending⟩, ?_,
        rfl, .inl rfl⟩
      rw [hsubmitted, if_pos rfl]
    · obtain ⟨c, t, ht, hbody⟩ := h.clear name' k hk
      exact ⟨c, t, hold ht, hbody⟩
  · have hnext : (s.submitTask name delay force).1.nextHandle = s.nextHandle + 2 := by
      simp [submitTask, hfree, submitTaskInner]
    rw [hsubmitted, if_neg (by omega), if_neg (by omega), h.fresh k (by omega)]

lemma Registered.not_pendingOnce (h : Registered s) {name : String} {k : ℕ}
    (hk : s.isPending name k = true) (delay : ℤ) :
    (s.submitTaskInner (.named name) delay).pendingOnce = false := by
  by_contra htrue
  obtain ⟨t, ht, hbody, hstatus⟩ := isPending_iff.mp hk
  have hnew : (s.submitTaskInner (.named name) delay).isPending name s.nextHandle = true := by
    refine isPending_iff.mpr ⟨⟨.named name, s.now + delay.toNat, .pending⟩, ?_, rfl, rfl⟩
    rw [find?_submitTaskInner, if_pos rfl]
  have hboth : (s.submitTaskInner (.named name) delay).isPending name k = true :=
    isPending_iff.mpr ⟨t, h.find?_submitTaskInner _ delay ht, hbody, hstatus⟩
  have heq := eq_of_pendingOnce (Bool.not_eq_false _ ▸ htrue) hboth hnew
  exact (h.lt ht).ne heq

protected lemma Registered.submitTask (h : Registered s) {name : String} {delay : ℤ}
    {force : Bool} (hin : s.inTurn (.submitTask name delay force) = true)
    (hone : (s.submitTask name delay force).1.pendingOnce = true) :
    Registered (s.submitTask name delay force).1 := by
  cases hfree : s.tasks.contains name with
  | false => exact h.submitNamed hfree delay force
  | true =>
    unfold submitTask at hone ⊢
    rw [if_pos hfree] at hone ⊢
    cases force with
    | false => exact h
    | true =>
      obtain ⟨k, hk⟩ := contains_iff.mp hfree
      have htwo := h.not_pendingOnce (h.isPending_of_inTurn hin hk) delay
      exact absurd (htwo.symm.trans hone) Bool.false_ne_true

lemma find?_setStatus (s : TaskHandlerWrap) (k k' : ℕ) (status : TaskStatus) :
    (s.setStatus k status).submitted.find? k' =
      if k = k' then (s.submitted.find? k').map fun t => { t with status := status }
      else s.submitted.find? k' := find?_modify ..

lemma Registered.setStatus (h : Registered s) (k : ℕ) (status : TaskStatus)
    (tasks : SortedMap String ℕ) (hp : status ≠ .pending)
    (hsub : ∀ name k', tasks.find? name = some k' → s.tasks.find? name = some k')
    (hkeep : ∀ name k', s.isPending name k' = true → k' ≠ k → tasks.find? name = some k')
    (hent : ∀ name, tasks.find? name = some k → status ≠ .canceled)
    (hclr : ∀ name k' t, tasks.find? name = some k' → s.submitted.find? k = some t →
      t.body = .clearTask name k' → status = .executing) :
    Registered { s.setStatus k status with tasks := tasks } where
  pending name k' hk' := by
    obtain ⟨t, ht, hbody, hstatus⟩ := isPending_iff.mp hk'
    have ht' : (s.setStatus k status).submitted.find? k' = some t := ht
    rw [find?_setStatus] at ht'
    split_ifs at ht' with hne
    · obtain ⟨t', -, rfl⟩ := Option.map_eq_some_iff.mp ht'
      exact absurd hstatus hp
    · exact hkeep name k' (isPending_iff.mpr ⟨t, ht', hbody, hstatus⟩) (.symm hne)
  entry name k' hk' := by
    obtain ⟨t, ht, hbody, hstatus⟩ := h.entry name k' (hsub name k' hk')
    rw [find?_setStatus, ht]
    split_ifs with heq
    · subst heq
      exact ⟨_, rfl, hbody, hent name hk'⟩
    · exact ⟨t, rfl, hbody, hstatus⟩
  clear name k' hk' := by
    obtain ⟨c, t, ht, hbody, hstatus⟩ := h.clear name k' (hsub name k' hk')
    refine ⟨c, ?_⟩
    rw [find?_setStatus, ht]
    split_ifs with heq
    · subst heq
      exact ⟨_, rfl, hbody, .inr (hclr name k' t hk' ht hbody)⟩
    · exact ⟨t, rfl, hbody, hstatus⟩
  fresh k' hk' := by
    rw [find?_setStatus, h.fresh k' hk']
    split <;> rfl

protected lemma Registered.start (h : Registered s) (k : ℕ) : Registered (s.start k) := by
  unfold start
  split
  · exact h
  · split
    · exact h.setStatus k .executing s.tasks nofun (fun _ _ hk => hk)
        (fun name k' hk _ => h.pending name k' hk) (fun _ _ => nofun) (fun _ _ _ _ _ _ => rfl)
    · exact h

section
variable (h : Registered s)
include h

lemma Registered.erase {name : String} {k : ℕ}
    (hk : s.tasks.find? name = some k) (hpend : s.isPending name k = false) :
    Registered { s with tasks := s.tasks.erase name } where
  pending name' j hj := by
    have hj' := h.pending name' j hj
    rw [find?_erase, if_neg, hj']
    rintro rfl
    cases hk.symm.trans hj'
    exact Bool.false_ne_true (hpend.symm.trans hj)
  entry name' j hj := h.entry name' j (find?_erase_eq_some.mp hj).2
  clear name' j hj := h.clear name' j (find?_erase_eq_some.mp hj).2
  __ := h

lemma Registered.finished (k : ℕ)
    (hclr : ∀ name k' t, s.tasks.find? name = some k' → s.submitted.find? k = some t →
      t.body ≠ .clearTask name k') : Registered (s.setStatus k .finished) :=
  h.setStatus k .finished s.tasks nofun (fun _ _ hk => hk)
    (fun name k' hk _ => h.pending name k' hk) (fun _ _ => nofun)
    fun name k' t hk ht hbody => absurd hbody (hclr name k' t hk ht)

protected lemma Registered.removeTask {k k' : ℕ} {name : String}
    {t : SubmittedTask} (ht : s.submitted.find? k = some t) (hbody : t.body = .clearTask name k')
    (hpend : s.isPending name k' = false) :
    Registered ((s.setStatus k .finished).removeTask name k') := by
  have hclears {name' : String} {j : ℕ} {t' : SubmittedTask} (ht' : s.submitted.find? k = some t')
      (hbody' : t'.body = .clearTask name' j) : name = name' ∧ k' = j := by
    cases ht.symm.trans ht'
    exact TaskBody.clearTask.inj (hbody.symm.trans hbody')
  unfold removeTask
  split_ifs with hreg
  · refine (h.erase hreg hpend).finished k fun name' j t' hj ht' hbody' => ?_
    exact (find?_erase_eq_some.mp hj).1 (hclears ht' hbody').1
  · refine h.finished k fun name' j t' hj ht' hbody' => hreg ?_
    obtain ⟨rfl, rfl⟩ := hclears ht' hbody'
    exact hj

protected lemma Registered.finish {k : ℕ} (hin : s.inTurn (.finish k) = true) :
    Registered (s.finish k) := by
  unfold finish
  cases ht : s.submitted.find? k with
  | none => exact h
  | some t =>
    obtain ⟨body, due, status⟩ := t
    dsimp only
    split_ifs with hrun
    · subst hrun
      have hother (hb : ∀ name k', body ≠ .clearTask name k') :
          Registered (s.setStatus k .finished) :=
        h.finished k fun name k' t' _ ht' => Option.some.inj (ht.symm.trans ht') ▸ hb name k'
      cases body with
      | named name => exact hother nofun
      | unnamed => exact hother nofun
      | clearTask name k' =>
        refine h.removeTask ht rfl ?_
        simpa [inTurn, ht] using hin
    · exact h

end

protected lemma Registered.cancelTask (h : Registered s) (name : String) :
    Registered (s.cancelTask name).1 := by
  unfold cancelTask
  cases hk : s.tasks.find? name with
  | none => exact h
  | some k =>
    obtain ⟨t, ht, hbody, -⟩ := h.entry name k hk
    dsimp only [TaskHandlerWrap.cancel]
    rw [ht]
    dsimp only
    split_ifs with hstatus
    · exact h.erase hk (by simp [isPending, ht, hbody, hstatus])
    · refine h.setStatus k .canceled (s.tasks.erase name) nofun
        (fun _ _ hj => (find?_erase_eq_some.mp hj).2) (fun name' j hj hne => ?_)
        (fun name' hj => ?_) fun name' j t' hj ht' hbody' => ?_
      · have hj' := h.pending name' j hj
        rw [find?_erase, if_neg, hj']
        rintro rfl
        exact hne (Option.some.inj (hj'.symm.trans hk))
      · obtain ⟨hne, hj⟩ := find?_erase_eq_some.mp hj
        obtain ⟨t', ht', hbody', -⟩ := h.entry name' k hj
        cases ht.symm.trans ht'
        exact absurd (TaskBody.named.inj (hbody.symm.trans hbody')) hne
      · cases ht.symm.trans ht'
        cases hbody.symm.trans hbody'

lemma Registered.step (h : Registered s) {o : TaskOp} (hin : s.inTurn o = true)
    (hone : (s.step o).pendingOnce = true) : Registered (s.step o) := by
  cases o with
  | submitTask name delay force => exact h.submitTask hin hone
  | submitUnnamed delay => exact h.submitTaskInner (fun _ => TaskBody.noConfusion) delay
  | cancelTask name => exact h.cancelTask name
  | start k => exact h.start k
  | finish k => exact h.finish hin
  | tick => exact { h with }

structure Skipped (s : TaskHandlerWrap) (handle : ℕ) : Prop where
  canceled : ∃ t, s.submitted.find? handle = some t ∧ t.status = .canceled
  used : handle < s.nextHandle

variable {k : ℕ}

lemma Skipped.submitTaskInner (h : Skipped s k) (body : TaskBody) (delay : ℤ) :
    Skipped (s.submitTaskInner body delay) k where
  canceled := by
    rw [find?_submitTaskInner, if_neg h.used.ne']
    exact h.canceled
  used := Nat.lt_succ_of_lt h.used

protected lemma Skipped.submitTask (h : Skipped s k) (name : String) (delay : ℤ) (force : Bool) :
    Skipped (s.submitTask name delay force).1 k := by
  unfold submitTask
  split
  · split
    · exact h.submitTaskInner _ _
    · exact h
  · have hmid := h.submitTaskInner (.named name) delay
    have hreg : Skipped { s.submitTaskInner (.named name) delay with
        tasks := s.tasks.assign name s.nextHandle } k := ⟨hmid.canceled, hmid.used⟩
    exact hreg.submitTaskInner _ _

lemma Skipped.setStatus {k k' : ℕ} (h : Skipped s k) {t : SubmittedTask}
    (ht : s.submitted.find? k' = some t) (hlive : t.status ≠ .canceled) (status : TaskStatus) :
    Skipped (s.setStatus k' status) k where
  canceled := by
    obtain ⟨t', ht', hstatus⟩ := h.canceled
    rw [find?_setStatus, if_neg, ht']
    · exact ⟨t', rfl, hstatus⟩
    · rintro rfl
      cases ht.symm.trans ht'
      exact hlive hstatus
  __ := h

section
variable (h : Skipped s k)
include h

protected lemma Skipped.cancelTask (name : String) : Skipped (s.cancelTask name).1 k := by
  unfold cancelTask
  split
  · exact h
  · dsimp only [cancel]
    split
    · exact ⟨h.canceled, h.used⟩
    · rename_i t ht
      have herased : Skipped { s with tasks := s.tasks.erase name } k := ⟨h.canceled, h.used⟩
      split_ifs with hstatus
      · exact herased
      · have hpend : t.status = .pending := not_not.mp hstatus
        exact herased.setStatus ht (hpend ▸ nofun) .canceled

protected lemma Skipped.start (k' : ℕ) : Skipped (s.start k') k := by
  unfold start
  split
  · exact h
  · rename_i ht
    split_ifs with hdue
    · exact h.setStatus ht (hdue.1 ▸ nofun) .executing
    · exact h

protected lemma Skipped.finish (k' : ℕ) : Skipped (s.finish k') k := by
  unfold finish
  split
  · exact h
  · rename_i ht
    split_ifs with hrun
    · have hfin := h.setStatus ht (hrun ▸ nofun) .finished
      dsimp only
      split
      · unfold removeTask
        split
        · exact ⟨hfin.canceled, hfin.used⟩
        · exact hfin
      · exact hfin
    · exact h

protected lemma Skipped.step (o : TaskOp) : Skipped (s.step o) k := by
  cases o with
  | submitTask name delay force => exact h.submitTask name delay force
  | submitUnnamed delay => exact h.submitTaskInner _ delay
  | cancelTask name => exact h.cancelTask name
  | start k' => exact h.start k'
  | finish k' => exact h.finish k'
  | tick => exact ⟨h.canceled, h.used⟩

lemma Skipped.foldl (ops : List TaskOp) : Skipped (ops.foldl step s) k :=
  List.foldlRecOn ops .step (motive := fun s => Skipped s k) h fun _ h o _ => h.step o

end

lemma Registered.cancelTask_pending (h : Registered s) {name : String} {k : ℕ}
    (hk : s.isPending name k = true) :
    (s.cancelTask name).2 = true ∧ Skipped (s.cancelTask name).1 k := by
  obtain ⟨t, ht, -, hstatus⟩ := isPending_iff.mp hk
  have hcancel : s.cancelTask name =
      ({ s with tasks := s.tasks.erase name }.setStatus k .canceled, true) := by
    simp [cancelTask, h.pending name k hk, cancel, ht, hstatus]
  rw [hcancel]
  refine ⟨rfl, ⟨⟨{ t with status := .canceled }, ?_, rfl⟩, h.lt ht⟩⟩
  rw [find?_setStatus, if_pos rfl]
  exact congrArg (Option.map _) ht

protected lemma Skipped.hasStarted (h : Skipped s k) : s.hasStarted k = false := by
  obtain ⟨t, ht, hstatus⟩ := h.canceled
  simp [hasStarted, ht, hstatus]

lemma Registered.submitTask_none (h : Registered s) {name : String} {delay : ℤ}
    (hin : s.inTurn (.submitTask name delay false) = true)
    (hnone : (s.submitTask name delay false).2 = none) : ∃ k, s.isPending name k = true := by
  cases hfree : s.tasks.contains name with
  | false => simp [submitTask, hfree] at hnone
  | true =>
    obtain ⟨k, hk⟩ := contains_iff.mp hfree
    exact ⟨k, h.isPending_of_inTurn hin hk⟩

def run (ops : List TaskOp) : TaskHandlerWrap := ops.foldl step init

def fits (s : TaskHandlerWrap) (o : TaskOp) : Bool :=
  (s.step o).pendingOnce && s.inTurn o

structure Cancellable (s : TaskHandlerWrap) : Prop where
  cancelled : ∀ name handle, s.isPending name handle = true → (s.cancelTask name).2 = true ∧
    ∀ later : List TaskOp, (later.foldl step (s.cancelTask name).1).hasStarted handle = false
  dropped : ∀ name delay, s.inTurn (.submitTask name delay false) = true →
    (s.submitTask name delay false).2 = none → ∃ handle, s.isPending name handle = true

lemma Registered.cancellable (h : Registered s) : Cancellable s where
  cancelled name k hk := by
    obtain ⟨htrue, hskipped⟩ := h.cancelTask_pending hk
    exact ⟨htrue, fun later => (hskipped.foldl later).hasStarted⟩
  dropped name delay hin hnone := h.submitTask_none hin hnone

theorem run_cancellable (ops : List TaskOp)
    (h : Runs.Guarded step (fun s o => s.fits o = true) init ops) : Cancellable (run ops) := by
  have hinv := h.invariant (I := Registered) (fun s o hs hok => ?_)
    ⟨fun _ _ h => absurd h nofun, fun _ _ h => absurd h nofun, fun _ _ h => absurd h nofun,
      fun _ _ => rfl⟩
  · exact hinv.cancellable
  · obtain ⟨hone, hin⟩ := Bool.and_eq_true_iff.mp hok
    exact hs.step hin hone

def nextOfName : List TaskOp :=
  [.submitTask "a" 0 false, .start 0, .start 1, .finish 0, .finish 1, .submitTask "a" 2 false,
    .submitUnnamed 0, .submitTask "b" 1 true]

theorem nextOfName_cancellable :
    (run nextOfName).isPending "a" 2 = true ∧ Cancellable (run nextOfName) :=
  ⟨by decide +kernel, run_cancellable nextOfName (by decide +kernel)⟩

def clearedFirst : List TaskOp := [.submitTask "a" 0 false, .start 1, .finish 1]

def clearedLate : List TaskOp := [.submitTask "a" 0 false, .start 0, .finish 0]

theorem cleared_out_of_turn :
    (Runs.Guarded step (fun s o => (s.step o).pendingOnce = true) init clearedFirst ∧
      (run clearedFirst).isPending "a" 0 = true ∧
      ((run clearedFirst).cancelTask "a").2 = false ∧
      (((run clearedFirst).cancelTask "a").1.start 0).hasStarted 0 = true) ∧
    (Runs.Guarded step (fun s o => (s.step o).pendingOnce = true) init clearedLate ∧
      ((run clearedLate).submitTask "a" 0 false).2 = none ∧
      (run clearedLate).isPending "a" 0 = false) := by
  decide +kernel

end TaskHandlerWrap
end AbilityRuntime
