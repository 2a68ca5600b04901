import Akkon.Cpp.String

/-!
# `security::LifecycleManager`

The lockdown state, which the lifecycle thread, the arenas' checks and the health monitor set and
everything else reads, together with the lines these write to the log.
-/

namespace Monitor

/-- `LogLevel`. -/
inductive LogLevel
  | INFO
  | WARNING
  | ERROR
  | DEBUG
  deriving DecidableEq, Repr

end Monitor

namespace Security

open Cpp Monitor

/-- `LockdownState`. -/
inductive LockdownState
  | NONE
  | CLOSE
  | IMMEDIATE
  deriving DecidableEq, Repr

/-- The static members of `LifecycleManager` that are read across threads, and the log. -/
structure LifecycleManager where
  s_lockdown_state : LockdownState
  /-- What `SystemMonitor::log` was called with, the latest line last. -/
  log : List (LogLevel × Bytes)
  deriving DecidableEq, Repr

namespace LifecycleManager

/-- The members when the process starts. -/
def boot : LifecycleManager := { s_lockdown_state := .NONE, log := [] }

/-- `getLockdownState`. -/
def getLockdownState (m : LifecycleManager) : LockdownState := m.s_lockdown_state

/-- A line added to the log. -/
def logged (m : LifecycleManager) (level : LogLevel) (line : Bytes) : LifecycleManager :=
  { m with log := m.log ++ [(level, line)] }

/-- The store to the atomic `s_lockdown_state`. -/
def store (m : LifecycleManager) (state : LockdownState) : LifecycleManager :=
  { m with s_lockdown_state := state }

/-- `triggerLockdown`. -/
def triggerLockdown (m : LifecycleManager) (state : LockdownState) : LifecycleManager :=
  (m.store state).logged .ERROR (lit "CRITICAL: Manual Lockdown Triggered!")

@[simp]
theorem getLockdownState_logged (m : LifecycleManager) (level : LogLevel) (line : Bytes) :
    (m.logged level line).getLockdownState = m.getLockdownState := rfl

@[simp]
theorem getLockdownState_store (m : LifecycleManager) (state : LockdownState) :
    (m.store state).getLockdownState = state := rfl

@[simp]
theorem getLockdownState_triggerLockdown (m : LifecycleManager) (state : LockdownState) :
    (m.triggerLockdown state).getLockdownState = state := rfl

end LifecycleManager

end Security
