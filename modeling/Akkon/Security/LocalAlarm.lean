import Akkon.Memory.ArenaAllocator
import Akkon.Security.VulnerabilityPoll

/-!
# Local alarms and the vulnerability poll

Who writes the lockdown state while the server runs: the checks of the arenas, the disk check of the
health monitor, explicit calls of `triggerLockdown`, and the lifecycle thread with what the
vulnerability server answers. The poll loads the state and stores the new one in two steps, and
anything can happen in between.

* `system`: the steps of all writers, in any order;
* `exists_runFrom_poll`: an iteration of the poll that nothing interrupts is `pollOnce`;
* `alarm_stands`: when an alarm stands until it is lowered explicitly.
-/

namespace Monitor

open Cpp Security

/-- What `HealthMonitor::checkHealth` does to the lockdown state: below 50 MB of free disk space it
triggers a lockdown. -/
def checkHealth (m : LifecycleManager) (available_disk_bytes : ℕ) : LifecycleManager :=
  if available_disk_bytes < 50 * 1024 * 1024 then
    (m.triggerLockdown .IMMEDIATE).logged .ERROR
      (lit "Disk space extremely low (<50MB)! Triggering IMMEDIATE lockdown.")
  else m

end Monitor

namespace Security

open Cpp Memory Monitor

/-- Where `backgroundTask` is in an iteration. -/
inductive Poller
  /-- It sleeps, or waits for a response. -/
  | waiting
  /-- It has a response that is not empty. -/
  | fetched (response : Bytes)
  /-- It has loaded a state other than the reported one. -/
  | storing (report : Report)
  deriving DecidableEq, Repr

/-- The shared state, the local state of the poll, and whether a local alarm was raised that no
explicit call has lowered since. -/
structure Watch where
  lifecycle : LifecycleManager
  poller : Poller
  alarmed : Bool
  deriving DecidableEq, Repr

/-- The steps of the writers. -/
inductive Event
  | verify (arena : ArenaAllocator)
  | check_access (arena : ArenaAllocator) (ptr size : UInt64)
  | checkHealth (available_disk_bytes : ℕ)
  | triggerLockdown (state : LockdownState)
  | fetch (response : Bytes)
  | load
  | store

namespace Watch

/-- A check of an arena: it raises the alarm when it throws. -/
def checked (w : Watch) (outcome : LifecycleManager × Except Alarm Unit) : Watch :=
  { w with lifecycle := outcome.1, alarmed := w.alarmed || !outcome.2.isOk }

/-- One step. A step of the poll is enabled where the poll is at it. -/
def step (w : Watch) : Event → Option Watch
  | .verify arena => some (w.checked (arena.verify w.lifecycle))
  | .check_access arena ptr size => some (w.checked (arena.check_access w.lifecycle ptr size))
  | .checkHealth bytes =>
    some { w with
      lifecycle := Monitor.checkHealth w.lifecycle bytes
      alarmed := w.alarmed || bytes < 50 * 1024 * 1024 }
  | .triggerLockdown state =>
    some { w with
      lifecycle := w.lifecycle.triggerLockdown state
      alarmed := w.alarmed && state == .IMMEDIATE }
  | .fetch response =>
    match w.poller with
    | .waiting =>
      some { w with poller := if response = [] then .waiting else .fetched response }
    | _ => none
  | .load =>
    match w.poller with
    | .fetched response =>
      match readResponse response with
      | .ok report =>
        some { w with
          poller :=
            if newState report.state_str ≠ w.lifecycle.getLockdownState then .storing report
            else .waiting }
      | .error _ => none
    | _ => none
  | .store =>
    match w.poller with
    | .storing report =>
      some { w with lifecycle := w.lifecycle.adopt report, poller := .waiting }
    | _ => none

end Watch

/-- The state when the process starts. -/
def Watch.boot : Watch := { lifecycle := .boot, poller := .waiting, alarmed := false }

/-- The writers of the lockdown state, from the start of the process on. -/
def system : StepSystem Watch Event where
  init w := w = .boot
  step := Watch.step

/-- An alarm that stands shows. -/
def AlarmShows (w : Watch) : Prop :=
  w.alarmed = true → w.lifecycle.getLockdownState = .IMMEDIATE

/-- While an alarm stands, the poll comes to its store only with a response whose status it takes to
be `IMMEDIATE`. -/
def PollAgrees (w : Watch) : Event → Prop
  | .store => ∀ report, w.poller = .storing report → w.alarmed = true →
      report.state_str = lit "IMMEDIATE"
  | _ => True

/-! ## One step -/

variable {w w' : Watch}

/-- A check either passes and changes nothing, or raises the alarm. -/
theorem checked_cases (w : Watch) (outcome : Except Alarm Unit) :
    w.checked (ArenaAllocator.raise w.lifecycle outcome) = w ∨
      (w.checked (ArenaAllocator.raise w.lifecycle outcome)).lifecycle.getLockdownState =
        .IMMEDIATE := by
  rcases outcome with alarm | ⟨⟩
  · exact .inr rfl
  · left
    simp [Watch.checked, ArenaAllocator.raise, Except.isOk, Except.toBool]

/-- Every step keeps an alarm up where the poll agrees. -/
theorem AlarmShows.step (h : AlarmShows w) {e : Event} (hagrees : PollAgrees w e)
    (hstep : w.step e = some w') : AlarmShows w' := by
  cases e with
  -- The checks of an arena and the health check raise an alarm only together with the lockdown.
  | verify arena =>
    cases hstep
    obtain heq | hshows := checked_cases w (arena.verifyAllocs arena.m_allocs)
    · rw [ArenaAllocator.verify, heq]
      exact h
    · exact fun _ => hshows
  | check_access arena ptr size =>
    cases hstep
    obtain heq | hshows := checked_cases w (arena.checkAccess ptr size)
    · rw [ArenaAllocator.check_access, heq]
      exact h
    · exact fun _ => hshows
  | checkHealth bytes =>
    cases hstep
    intro halarmed
    by_cases hlow : bytes < 50 * 1024 * 1024
    · simp [Monitor.checkHealth, hlow]
    · simp only [hlow, decide_false, Bool.or_false] at halarmed
      simpa [Monitor.checkHealth, hlow] using h halarmed
  | triggerLockdown state =>
    cases hstep
    intro halarmed
    simp only [Bool.and_eq_true, beq_iff_eq] at halarmed
    rw [LifecycleManager.getLockdownState_triggerLockdown, halarmed.2]
  -- The first two parts of an iteration of the poll change neither the alarm nor the state.
  | fetch response =>
    simp only [Watch.step] at hstep
    split at hstep
    · cases hstep
      exact h
    · cases hstep
  | load =>
    simp only [Watch.step] at hstep
    split at hstep
    · split at hstep
      · cases hstep
        exact h
      · cases hstep
    · cases hstep
  -- Only the store can lift the lockdown while an alarm stands: here the condition is needed.
  | store =>
    simp only [Watch.step] at hstep
    split at hstep
    · next report hpoller =>
      cases hstep
      intro halarmed
      rw [LifecycleManager.getLockdownState_adopt, newState_eq_immediate_iff]
      exact hagrees report hpoller halarmed
    · cases hstep

/-- A step at which the poll does not agree takes the alarm down. -/
theorem not_alarmShows_of_not_pollAgrees {e : Event} (hagrees : ¬ PollAgrees w e)
    (hstep : w.step e = some w') : ¬ AlarmShows w' := by
  cases e with
  | store =>
    simp only [PollAgrees, not_forall] at hagrees
    obtain ⟨report, hpoller, halarmed, hstate⟩ := hagrees
    simp only [Watch.step, hpoller] at hstep
    cases hstep
    intro hshows
    have himmediate := hshows halarmed
    rw [LifecycleManager.getLockdownState_adopt, newState_eq_immediate_iff] at himmediate
    exact hstate himmediate
  | _ => exact absurd trivial hagrees

/-! ## Runs -/

/-- An iteration of the poll that nothing interrupts does what `pollOnce` does. -/
theorem exists_runFrom_poll {response : Bytes} {m : LifecycleManager}
    (hwaiting : w.poller = .waiting) (hpoll : w.lifecycle.pollOnce response = .ok m) :
    ∃ events, system.runFrom w (.fetch response :: events) = some { w with lifecycle := m } := by
  by_cases hempty : response = []
  · -- an empty response ends the iteration
    refine ⟨[], ?_⟩
    rw [LifecycleManager.pollOnce, if_pos hempty] at hpoll
    cases hpoll
    simp [system, Watch.step, hwaiting, hempty]
  · obtain ⟨report, m', hread, hpoll', -⟩ := pollOnce_eq hempty w.lifecycle
    rw [LifecycleManager.pollOnce, if_neg hempty, hread] at hpoll
    have hm : (if newState report.state_str ≠ w.lifecycle.getLockdownState then
        w.lifecycle.adopt report else w.lifecycle) = m := Except.ok.inj hpoll
    by_cases hsame : newState report.state_str = w.lifecycle.getLockdownState
    · refine ⟨[.load], ?_⟩
      rw [if_neg (not_not.mpr hsame)] at hm
      simp [system, Watch.step, hwaiting, hempty, hread, hsame, ← hm]
    · refine ⟨[.load, .store], ?_⟩
      rw [if_pos hsame] at hm
      simp [system, Watch.step, hwaiting, hempty, hread, hsame, ← hm]

/-- In every run in which the poll agrees with the alarms that stand, these show, and a further step
keeps them up exactly when the poll agrees at it. -/
theorem alarm_stands (h : system.ReachableUnder PollAgrees w) :
    AlarmShows w ∧
      ∀ e w', system.step w e = some w' → (AlarmShows w' ↔ PollAgrees w e) := by
  have hshows : AlarmShows w := by
    refine StepSystem.ReachableUnder.invariant ?_ ?_ h
    · rintro w rfl halarmed
      cases halarmed
    · intro w e w' hw hagrees hstep
      exact hw.step hagrees hstep
  refine ⟨hshows, fun e w' hstep => ⟨fun hshows' => ?_, fun hagrees => hshows.step hagrees hstep⟩⟩
  by_contra hagrees
  exact not_alarmShows_of_not_pollAgrees hagrees hstep hshows'

/-- A nearly full disk. -/
theorem alarm_stands_checkHealth :
    AlarmShows { Watch.boot with lifecycle := Monitor.checkHealth .boot 1000, alarmed := true } ∧
      ∀ e w', system.step
          { Watch.boot with lifecycle := Monitor.checkHealth .boot 1000, alarmed := true } e
            = some w' →
        (AlarmShows w' ↔ PollAgrees
          { Watch.boot with lifecycle := Monitor.checkHealth .boot 1000, alarmed := true } e) :=
  alarm_stands (.step (l := .checkHealth 1000) (.init rfl) trivial rfl)

/-- The answer of the vulnerability server when nothing is wrong. -/
def safeResponse : Bytes := lit "\x7b\"status\": \"SAFE\", \"cve\": \"\"\x7d"

/-- A nearly full disk, and the next poll. -/
def alarmRun : List Event := [.checkHealth 1000, .fetch safeResponse, .load, .store]

/-- The poll lifts the lockdown that the disk check has set. -/
theorem exists_not_alarmShows : ∃ w, system.Reachable w ∧ ¬ AlarmShows w := by
  have hrun : (system.runFrom Watch.boot alarmRun).any
      (fun w => w.alarmed && w.lifecycle.getLockdownState == .NONE) = true := by decide
  obtain ⟨w, hreach, hw⟩ := StepSystem.exists_reachable_of_any rfl hrun
  refine ⟨w, hreach, fun hshows => ?_⟩
  simp only [Bool.and_eq_true, beq_iff_eq] at hw
  rw [hshows hw.1] at hw
  cases hw.2

end Security
