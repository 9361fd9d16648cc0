import Mathlib.Data.Int.Notation
import AbilityRuntime.Library.Runs

/-! The faults of an application that are handed to `AppfreezeHandle`. -/

open List

namespace AbilityRuntime.AppKit

structure FaultData where
  name : String
  eventId : ℤ := -1
  timeoutMarkers : String := ""
  deriving DecidableEq

/-- The faults at hand with the tasks submitted for them, the faults handed in and those that
`NotifyANR` was told of. -/
structure AppfreezeInner where
  handlinglist : List FaultData := []
  tasks : List FaultData := []
  given : List FaultData := []
  notified : List FaultData := []

inductive FreezeOp
  | appfreezeHandle (faultData : FaultData)
  | reportFreeze (faultData : FaultData)

namespace AppfreezeInner
variable (s : AppfreezeInner)

def appfreezeHandle (faultData : FaultData) : AppfreezeInner :=
  let handlinglist := s.handlinglist ++ [faultData]
  { s with
    handlinglist := handlinglist
    tasks := if handlinglist.length ≤ 1 then s.tasks ++ [faultData] else s.tasks
    given := s.given ++ [faultData] }

def acquireStack : AppfreezeInner :=
  { s with handlinglist := [], notified := s.notified ++ s.handlinglist }

def step : FreezeOp → AppfreezeInner
  | .appfreezeHandle faultData => s.appfreezeHandle faultData
  | .reportFreeze faultData =>
    if faultData ∈ s.tasks then
      let t := { s with tasks := s.tasks.erase faultData }
      if faultData.name = "" then t else t.acquireStack
    else s

def named (l : List FaultData) : List FaultData := l.filter (·.name ≠ "")

def fits : FreezeOp → Bool
  | .appfreezeHandle faultData =>
    faultData.name = "" || s.handlinglist.head?.all fun first => first.name ≠ ""
  | .reportFreeze _ => true

structure Kept : Prop where
  given : s.notified ++ s.handlinglist = s.given
  task : named s.handlinglist ≠ [] → named s.tasks ≠ []

variable {s}

lemma Kept.appfreezeHandle (h : s.Kept) {f : FaultData} (hf : s.fits (.appfreezeHandle f)) :
    (s.appfreezeHandle f).Kept where
  given := by
    change s.notified ++ (s.handlinglist ++ [f]) = s.given ++ [f]
    rw [← h.given, append_assoc]
  task := by
    have htask := h.task
    unfold AppfreezeInner.appfreezeHandle
    cases hlist : s.handlinglist with
    | nil => simp +contextual [named]
    | cons first l =>
      by_cases hname : f.name = ""
      · simpa [hname, hlist, named] using htask
      · have hfirst : first.name ≠ "" := by simpa [fits, hname, hlist] using hf
        simpa [hlist, hfirst, named] using htask

lemma Kept.reportFreeze (h : s.Kept) (f : FaultData) : (s.step (.reportFreeze f)).Kept := by
  unfold step
  dsimp only
  split_ifs with hin hname
  · refine ⟨h.given, fun hlist => ?_⟩
    obtain ⟨t, ht⟩ := exists_mem_of_ne_nil _ (h.task hlist)
    have hne : t ≠ f := by
      rintro rfl
      simp [named, hname] at ht
    rw [named, mem_filter] at ht
    exact ne_nil_of_mem (mem_filter.mpr ⟨(mem_erase_of_ne hne).mpr ht.1, ht.2⟩)
  · exact ⟨(append_nil _).trans h.given, fun hlist => absurd rfl hlist⟩
  · exact h

lemma Kept.step (h : s.Kept) {o : FreezeOp} (hfits : s.fits o) : (s.step o).Kept := by
  cases o with
  | appfreezeHandle f => exact h.appfreezeHandle hfits
  | reportFreeze f => exact h.reportFreeze f

theorem faults_notified {ops : List FreezeOp} (h : Runs.Guarded step (fun s o => s.fits o) {} ops)
    (hdone : (ops.foldl step {}).tasks = []) :
    named (ops.foldl step {}).notified = named (ops.foldl step {}).given := by
  have hkept : (ops.foldl step {}).Kept :=
    h.invariant (I := Kept) (fun s o hs hok => hs.step hok) ⟨rfl, id⟩
  have hnone : named (ops.foldl step {}).handlinglist = [] := by
    by_contra hlist
    exact hkept.task hlist (by rw [hdone]; rfl)
  rw [← hkept.given, named, named, filter_append]
  exact (append_nil _).symm.trans (congrArg _ hnone.symm)

theorem two_faults_notified : named (([.appfreezeHandle ⟨"a", 1, ""⟩, .appfreezeHandle ⟨"b", 2, ""⟩,
    .reportFreeze ⟨"a", 1, ""⟩] : List FreezeOp).foldl step {}).notified =
      [⟨"a", 1, ""⟩, ⟨"b", 2, ""⟩] :=
  faults_notified (by decide) (by decide)

theorem nameless_blocks : let s := ([.appfreezeHandle ⟨"", 1, ""⟩, .reportFreeze ⟨"", 1, ""⟩,
      .appfreezeHandle ⟨"b", 2, ""⟩] : List FreezeOp).foldl step {}
    s.tasks = [] ∧ s.notified = [] ∧ named s.given = [⟨"b", 2, ""⟩] := by
  decide

end AppfreezeInner

end AbilityRuntime.AppKit
