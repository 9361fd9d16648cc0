import Mathlib.Data.Int.Notation
import Mathlib.Data.List.Basic

/-! The watchdog of the main thread and its reports. -/

open List

namespace AbilityRuntime.AppKit

inductive WatchEvent
  | alive | allowed | tick | threadBlock3s | threadBlock6s
  deriving DecidableEq

structure WatchBuild where
  noResponseDialog : Bool
  isAppDebug : Bool
  checkIntervalTime : ℤ

structure Watchdog where
  appMainThreadIsAlive : Bool := false
  stopWatchdog : Bool := false
  needReport : Bool := true
  isSixSecondEvent : Bool := false
  isInBackground : Bool := true
  isBgWorkingThread : Bool := false
  backgroundReportCount : ℕ := 0
  lastWatchTime : ℤ := 0
  events : List WatchEvent := []

/-- At a tick, whether `libc.hook_mode` starts with `startup:`, and the clock as `ReportEvent` and
`Timer` read it. -/
inductive WatchOp
  | setAppMainThreadState
  | allowReportEvent
  | setBackgroundStatus (isInBackground : Bool)
  | setBgWorkingThreadStatus (isBgWorkingThread : Bool)
  | stop
  | timer (hooked : Bool) (reportTime now : ℤ)

namespace Watchdog
variable (b : WatchBuild) (s : Watchdog)

def log (e : WatchEvent) : Watchdog := { s with events := e :: s.events }

def appfreezeHandle (e : WatchEvent) : Watchdog := if b.isAppDebug then s else s.log e

def threadBlock : Watchdog :=
  if s.isSixSecondEvent then
    { s with isSixSecondEvent := !b.noResponseDialog }.appfreezeHandle b .threadBlock6s
  else { s with isSixSecondEvent := true }.appfreezeHandle b .threadBlock3s

def reportEvent (now : ℤ) : Watchdog :=
  if s.isBgWorkingThread then s
  else if now - s.lastWatchTime > 2 * b.checkIntervalTime ∨
      now - s.lastWatchTime < b.checkIntervalTime / 2 then s
  else
    let t := { s with backgroundReportCount := s.backgroundReportCount + 1 }
    if s.isInBackground ∧ s.backgroundReportCount < 5 then t
    else if !s.needReport then t
    else threadBlock b { t with needReport := b.noResponseDialog || !s.isSixSecondEvent }

def watch (now : ℤ) : Watchdog :=
  if now - s.lastWatchTime ≥ b.checkIntervalTime / 2 then { s with lastWatchTime := now } else s

def timer (hooked : Bool) (reportTime now : ℤ) : Watchdog :=
  if s.stopWatchdog || !s.needReport then s
  else if s.appMainThreadIsAlive then { s.watch b now with appMainThreadIsAlive := false }
  else (if hooked then s else s.reportEvent b reportTime).watch b now

def step : WatchOp → Watchdog
  | .setAppMainThreadState => { s with appMainThreadIsAlive := true }.log .alive
  | .allowReportEvent =>
    { s with
      needReport := true
      isSixSecondEvent := false
      backgroundReportCount := 0 }.log .allowed
  | .setBackgroundStatus isInBackground => { s with isInBackground := isInBackground }
  | .setBgWorkingThreadStatus isBgWorkingThread => { s with isBgWorkingThread := isBgWorkingThread }
  | .stop => { s with stopWatchdog := true }
  | .timer hooked reportTime now => (s.timer b hooked reportTime now).log .tick

def since (e : WatchEvent) (events : List WatchEvent) : List WatchEvent := events.takeWhile (· ≠ e)

def InOrder : List WatchEvent → Prop
  | [] => True
  | e :: events =>
    (e = .threadBlock6s → .threadBlock3s ∈ since .allowed events) ∧
    (e = .threadBlock3s ∨ e = .threadBlock6s → .alive ∉ since .tick events ∧
      (b.noResponseDialog = false → .threadBlock6s ∉ since .allowed events)) ∧ InOrder events

structure Inv : Prop where
  inOrder : InOrder b s.events
  alive : .alive ∈ since .tick s.events → s.appMainThreadIsAlive
  six : b.isAppDebug = false → s.isSixSecondEvent → .threadBlock3s ∈ since .allowed s.events
  last : b.noResponseDialog = false → .threadBlock6s ∈ since .allowed s.events →
    s.needReport = false

variable {b s}

@[simp] lemma since_cons {e e' : WatchEvent} {events : List WatchEvent} :
    since e (e' :: events) = if e' = e then [] else e' :: since e events := by
  simp [since, takeWhile_cons, ite_not]

lemma Inv.reportEvent (h : s.Inv b) (halive : s.appMainThreadIsAlive = false)
    (hneed : s.needReport = true) (now : ℤ) : (s.reportEvent b now).Inv b := by
  have hnone : .alive ∉ since .tick s.events := fun hin => by simp [h.alive hin] at halive
  have hlast : b.noResponseDialog = false → .threadBlock6s ∉ since .allowed s.events :=
    fun hdialog hin => by simp [h.last hdialog hin] at hneed
  unfold Watchdog.reportEvent threadBlock appfreezeHandle
  dsimp only
  split_ifs with _ _ _ _ hsix hdebug hdebug
  · exact h
  · exact h
  · exact { h with }
  · exact { h with }
  · exact { h with six := by simp [hdebug], last := fun hd hin => absurd hin (hlast hd) }
  · have hthree := h.six (eq_false_of_ne_true hdebug) hsix
    refine ⟨⟨fun _ => hthree, fun _ => ⟨hnone, hlast⟩, h.inOrder⟩, ?_, ?_, ?_⟩
    · simp [log, hnone]
    · simp [log, hthree]
    · simp +contextual [log, hsix]
  · exact { h with six := by simp [hdebug], last := fun hd hin => absurd hin (hlast hd) }
  · refine ⟨⟨nofun, fun _ => ⟨hnone, hlast⟩, h.inOrder⟩, ?_, ?_, ?_⟩
    · simp [log, hnone]
    · simp [log]
    · simp +contextual [log, hlast]

lemma Inv.watch (h : s.Inv b) (now : ℤ) : (s.watch b now).Inv b := by
  unfold Watchdog.watch
  split
  · exact { h with }
  · exact h

lemma Inv.tick (h : s.Inv b) {alive : Bool} :
    ({ s with appMainThreadIsAlive := alive }.log .tick).Inv b :=
  ⟨⟨nofun, by simp, h.inOrder⟩, by simp [log], by simpa [log] using h.six,
    by simpa [log] using h.last⟩

lemma Inv.timer (h : s.Inv b) (hooked : Bool) (reportTime now : ℤ) :
    ((s.timer b hooked reportTime now).log .tick).Inv b := by
  unfold Watchdog.timer
  split_ifs with hidle halive hhook
  · exact h.tick
  · exact (h.watch now).tick
  · exact (h.watch now).tick
  · rw [Bool.or_eq_true, not_or] at hidle
    exact ((h.reportEvent (by simpa using halive) (by simpa using hidle.2) _).watch now).tick

lemma Inv.step (h : s.Inv b) (o : WatchOp) : (s.step b o).Inv b := by
  cases o with
  | setAppMainThreadState =>
    exact ⟨⟨nofun, by simp, h.inOrder⟩, fun _ => rfl, by simpa [Watchdog.step, log] using h.six,
      by simpa [Watchdog.step, log] using h.last⟩
  | allowReportEvent =>
    exact ⟨⟨nofun, by simp, h.inOrder⟩, by simpa [Watchdog.step, log] using h.alive, nofun,
      by simp [Watchdog.step, log]⟩
  | setBackgroundStatus => exact { h with }
  | setBgWorkingThreadStatus => exact { h with }
  | stop => exact { h with }
  | timer hooked reportTime now => exact h.timer hooked reportTime now

theorem reports_inOrder (b : WatchBuild) (ops : List WatchOp) :
    InOrder b (ops.foldl (step b) {}).events := by
  have hinit : Inv b {} := ⟨trivial, nofun, nofun, nofun⟩
  exact (foldlRecOn ops (step b) hinit fun _ hs o _ => hs.step o).inOrder

end Watchdog

end AbilityRuntime.AppKit
