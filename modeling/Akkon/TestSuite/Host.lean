import Akkon.Cpp.String
import Akkon.ToMathlib.WeakestPre

/-!
# The operating system under the test framework

The system calls of `TestFramework.cpp` on POSIX, and what they do to the processes that the
framework starts.

* `SysOp`, `SysRes`: the calls and what they return. `enter` is not a call: it marks where
  `stopInstance` and `killInstance` have found the pid of an instance;
* `Host`: the processes behind the pids, and the clock;
* `Host.Env`: what may happen between two calls; a pid whose child has been reaped may be used for
  another process;
* `Host.Answer`, `Host.step`: what a call does, and what has happened in front of it.
-/

namespace TestSuite

open Cpp

/-! ## System calls -/

/-- The status of a process that has ended, as `waitpid` stores it. -/
inductive WStatus
  | exited (code : UInt8)
  | signaled (signal : ℕ)
  deriving DecidableEq, Repr

/-- What `getStatus` makes of it. -/
def WStatus.exit_code : WStatus → ℤ
  | exited code => code.toNat
  | signaled signal => -signal

/-- What `waitpid` returns: `0`, the pid, or `-1` with `ECHILD`. -/
inductive WaitResult
  | running
  | collected (wstatus : WStatus)
  | echild
  deriving DecidableEq, Repr

/-- `errno` behind a `kill` that fails. -/
inductive Errno
  | ESRCH
  | EPERM
  deriving DecidableEq, Repr

/-- The signals that are sent. -/
inductive Signal
  | SIGTERM
  | SIGKILL
  deriving DecidableEq, Repr

/-- The calls of the operating system and of the library. -/
inductive SysOp
  /-- `dis(gen)`, a number below 16. -/
  | draw
  | createDirectories (dir : Bytes)
  | getenv (name : Bytes)
  | setenv (name value : Bytes)
  | absolute (path : Bytes)
  | currentPath
  | systemNow
  | fileExists (path : Bytes)
  /-- A log file is opened, these lines are appended, and it is closed. -/
  | appendLog (log_file : Bytes) (lines : List Bytes)
  /-- The lines of a file. There are none when it cannot be opened. -/
  | readLines (file : Bytes)
  | fork
  | waitpid (pid : ℤ) (nohang : Bool)
  | kill (pid : ℤ) (signal : Signal)
  | steadyNow
  | sleep (ms : ℕ)
  /-- `stopInstance` or `killInstance` has found this pid. Nothing is called. -/
  | enter (pid : ℤ)
  /-- A loop has come to the end of its fuel. -/
  | spin
  deriving DecidableEq, Repr

/-- What they return. -/
abbrev SysRes : SysOp → Type
  | .draw => Fin 16
  | .createDirectories _ => Bool
  | .getenv _ => Option Bytes
  | .setenv _ _ => Unit
  | .absolute _ => Bytes
  | .currentPath => Bytes
  | .systemNow => ℤ
  | .fileExists _ => Bool
  | .appendLog _ _ => Bool
  | .readLines _ => List Bytes
  | .fork => Option ℤ
  | .waitpid _ _ => WaitResult
  | .kill _ _ => Option Errno
  | .steadyNow => ℕ
  | .sleep _ => Unit
  | .enter _ => Unit
  | .spin => Empty

/-- Calls that have nothing to do with processes. -/
def SysOp.Aside : SysOp → Prop
  | .fork => False
  | .waitpid _ _ => False
  | .kill _ _ => False
  | .steadyNow => False
  | .sleep _ => False
  | .enter _ => False
  | .spin => False
  | _ => True

/-- A program of system calls. -/
abbrev Sys := Prog SysOp SysRes

namespace Sys

abbrev draw : Sys (Fin 16) := Prog.call SysOp.draw

abbrev createDirectories (dir : Bytes) : Sys Bool := Prog.call (SysOp.createDirectories dir)

abbrev getenv (name : Bytes) : Sys (Option Bytes) := Prog.call (SysOp.getenv name)

abbrev setenv (name value : Bytes) : Sys Unit := Prog.call (SysOp.setenv name value)

abbrev absolute (path : Bytes) : Sys Bytes := Prog.call (SysOp.absolute path)

abbrev currentPath : Sys Bytes := Prog.call SysOp.currentPath

abbrev systemNow : Sys ℤ := Prog.call SysOp.systemNow

abbrev fileExists (path : Bytes) : Sys Bool := Prog.call (SysOp.fileExists path)

abbrev appendLog (log_file : Bytes) (lines : List Bytes) : Sys Bool :=
  Prog.call (SysOp.appendLog log_file lines)

abbrev readLines (file : Bytes) : Sys (List Bytes) := Prog.call (SysOp.readLines file)

abbrev fork : Sys (Option ℤ) := Prog.call SysOp.fork

abbrev waitpid (pid : ℤ) (nohang : Bool) : Sys WaitResult := Prog.call (SysOp.waitpid pid nohang)

abbrev kill (pid : ℤ) (signal : Signal) : Sys (Option Errno) := Prog.call (SysOp.kill pid signal)

abbrev steadyNow : Sys ℕ := Prog.call SysOp.steadyNow

abbrev sleep (ms : ℕ) : Sys Unit := Prog.call (SysOp.sleep ms)

abbrev enter (pid : ℤ) : Sys Unit := Prog.call (SysOp.enter pid)

end Sys

/-! ## The processes -/

/-- The process with a pid: none, one that is no child of the framework, or a child that has not
been reaped, which may have ended. -/
inductive Proc
  | free
  | unrelated
  | child (ended : Option WStatus)
  deriving DecidableEq, Repr

namespace Proc

/-- What can happen to a process without a call of the framework. Only the framework reaps its
children, and a pid is free for others while there is no child behind it. -/
inductive Env : Proc → Proc → Prop
  | refl (p : Proc) : Env p p
  | ends (wstatus : WStatus) : Env (child none) (child (some wstatus))
  | used : Env free unrelated
  | released : Env unrelated free

end Proc

/-- The processes and the clock. -/
structure Host where
  procs : ℤ → Proc
  /-- The status that `waitpid` has handed out for the last child with a pid. -/
  reaped : ℤ → Option WStatus
  /-- `std::chrono::steady_clock`, in milliseconds. -/
  clock : ℕ

namespace Host

variable (host host' : Host)

/-- The pid is that of a child that has not been reaped. -/
def IsChild (pid : ℤ) : Prop := ∃ ended, host.procs pid = .child ended

/-- What may happen between two calls. -/
structure Env : Prop where
  procs : ∀ pid, (host.procs pid).Env (host'.procs pid)
  reaped : host'.reaped = host.reaped
  clock : host.clock ≤ host'.clock

/-- The child behind the pid is reaped. -/
def reap (pid : ℤ) (wstatus : WStatus) : Host :=
  { host with
    procs := Function.update host.procs pid .free
    reaped := Function.update host.reaped pid (some wstatus) }

/-- A child is started. -/
def start (pid : ℤ) : Host :=
  { host with
    procs := Function.update host.procs pid (.child none)
    reaped := Function.update host.reaped pid none }

/-- A host without processes. -/
def fresh : Host := ⟨fun _ => .free, fun _ => none, 0⟩

/-- The possible results of `waitpid`. Without `WNOHANG` it waits for the child to end. -/
inductive Waits (pid : ℤ) (nohang : Bool) : WaitResult → Host → Prop
  | running : host.procs pid = .child none → nohang = true → Waits pid nohang .running host
  | collected {wstatus : WStatus} : host.procs pid = .child (some wstatus) →
    Waits pid nohang (.collected wstatus) (host.reap pid wstatus)
  | echild : ¬ host.IsChild pid → Waits pid nohang .echild host

/-- The possible results of `fork`. A new child gets a pid that is free. -/
inductive Forks : Option ℤ → Host → Prop
  | failed : Forks none host
  | forked {pid : ℤ} : 0 < pid → host.procs pid = .free → Forks (some pid) (host.start pid)

/-- The possible results of a call. A signal may be fatal to its process, which is left to what
happens between calls; `kill` itself fails when there is no process, or not for the caller. What the
calls that only look or write files return is left open. -/
def Answer (host : Host) : (o : SysOp) → SysRes o → Host → Prop
  | .fork, r, host' => host.Forks r host'
  | .waitpid pid nohang, r, host' => host.Waits pid nohang r host'
  | .kill pid _, r, host' => (host.IsChild pid → r = none) ∧
    (host.procs pid = .free → r = some .ESRCH) ∧ host' = host
  | .steadyNow, r, host' => r = host.clock ∧ host' = host
  | .sleep ms, _, host' => ∃ clock, host.clock + ms ≤ clock ∧ host' = { host with clock := clock }
  | .spin, _, _ => False
  | _, _, host' => host' = host

/-- A call, and what has happened since the one before it. -/
def step (o : SysOp) (host : Host) (r : SysRes o) (host' : Host) : Prop :=
  ∃ now, host.Env now ∧ now.Answer o r host'

end Host

namespace Host

variable {host now host' : Host} {pid : ℤ}

theorem Env.refl (host : Host) : host.Env host := ⟨fun _ => .refl _, rfl, le_refl _⟩

theorem Env.trans (h : host.Env now) (h' : now.Env host') : host.Env host' := by
  refine ⟨fun pid => ?_, h'.reaped.trans h.reaped, h.clock.trans h'.clock⟩
  have hfirst := h.procs pid
  have hsecond := h'.procs pid
  generalize host.procs pid = p at hfirst
  generalize now.procs pid = q at hfirst hsecond
  generalize host'.procs pid = r at hsecond
  cases hfirst with
  | refl => exact hsecond
  | ends wstatus =>
    cases hsecond with
    | refl => exact .ends wstatus
  | used =>
    cases hsecond with
    | refl => exact .used
    | released => exact .refl _
  | released =>
    cases hsecond with
    | refl => exact .released
    | used => exact .refl _

/-- Between two calls no child is reaped, and none comes from nowhere. -/
theorem Env.isChild_iff (h : host.Env host') : host'.IsChild pid ↔ host.IsChild pid := by
  have hpid := h.procs pid
  rw [IsChild, IsChild]
  generalize host.procs pid = p at hpid
  generalize host'.procs pid = q at hpid
  cases hpid with
  | refl => rfl
  | ends wstatus => exact iff_of_true ⟨_, rfl⟩ ⟨_, rfl⟩
  | used => simp
  | released => simp

/-- A child that has ended stays as it is until it is reaped. -/
theorem Env.procs_ended (h : host.Env host') {wstatus : WStatus}
    (hended : host.procs pid = .child (some wstatus)) :
    host'.procs pid = .child (some wstatus) := by
  have hpid := h.procs pid
  rw [hended] at hpid
  generalize host'.procs pid = q at hpid
  cases hpid with
  | refl => rfl

theorem not_isChild_reap (host : Host) (pid : ℤ) (wstatus : WStatus) :
    ¬ (host.reap pid wstatus).IsChild pid := by
  rintro ⟨ended, hended⟩
  simp [reap] at hended

theorem not_isChild_fresh (pid : ℤ) : ¬ fresh.IsChild pid := by
  rintro ⟨ended, hended⟩
  cases hended

theorem isChild_start (host : Host) (pid : ℤ) : (host.start pid).IsChild pid :=
  ⟨none, Function.update_self ..⟩

/-- A process that is no child of the framework may be gone, and its pid free. -/
theorem exists_env_free (hchild : ¬ host.IsChild pid) :
    ∃ now, host.Env now ∧ now.procs pid = .free := by
  refine ⟨{ host with procs := Function.update host.procs pid .free }, ⟨fun other => ?_, rfl,
    le_refl _⟩, Function.update_self ..⟩
  by_cases hother : other = pid
  · subst hother
    show (host.procs other).Env (Function.update host.procs other .free other)
    rw [Function.update_self]
    cases hproc : host.procs other with
    | free => exact .refl _
    | unrelated => exact .released
    | child ended => exact absurd ⟨ended, hproc⟩ hchild
  · show (host.procs other).Env (Function.update host.procs pid .free other)
    rw [Function.update_of_ne hother]
    exact .refl _

/-- A child may end at any time, in any way. -/
theorem exists_env_ended (hchild : host.procs pid = .child none)
    (wstatus : WStatus) : ∃ now, host.Env now ∧ now.procs pid = .child (some wstatus) := by
  refine ⟨{ host with procs := Function.update host.procs pid (.child (some wstatus)) },
    ⟨fun other => ?_, rfl, le_refl _⟩, Function.update_self ..⟩
  by_cases hother : other = pid
  · subst hother
    show (host.procs other).Env (Function.update host.procs other (.child (some wstatus)) other)
    rw [Function.update_self, hchild]
    exact .ends wstatus
  · show (host.procs other).Env (Function.update host.procs pid (.child (some wstatus)) other)
    rw [Function.update_of_ne hother]
    exact .refl _

/-- A call that has nothing to do with processes has an answer, and changes nothing. -/
theorem exists_answer {o : SysOp} (ho : o.Aside) (host : Host) : ∃ r, host.Answer o r host := by
  cases o with
  | draw => exact ⟨⟨0, by decide⟩, rfl⟩
  | createDirectories dir => exact ⟨true, rfl⟩
  | getenv name => exact ⟨none, rfl⟩
  | setenv name value => exact ⟨(), rfl⟩
  | absolute path => exact ⟨[], rfl⟩
  | currentPath => exact ⟨[], rfl⟩
  | systemNow => exact ⟨(0 : ℤ), rfl⟩
  | fileExists path => exact ⟨true, rfl⟩
  | appendLog log_file lines => exact ⟨true, rfl⟩
  | readLines file => exact ⟨[], rfl⟩
  | _ => exact ho.elim

theorem eq_of_answer {o : SysOp} (ho : o.Aside) {r : SysRes o} (h : host.Answer o r host') :
    host' = host := by
  cases o with
  | fork | waitpid | kill | steadyNow | sleep | enter | spin => exact ho.elim
  | _ => exact h

/-- The clock is never set back. -/
theorem clock_le_of_step {o : SysOp} {r : SysRes o} (h : host.step o r host') :
    host.clock ≤ host'.clock := by
  obtain ⟨now, henv, hanswer⟩ := h
  refine henv.clock.trans ?_
  cases o with
  | fork =>
    cases hanswer with
    | failed => exact le_refl _
    | forked _ _ => exact le_refl _
  | waitpid pid nohang =>
    cases hanswer with
    | running _ _ => exact le_refl _
    | collected _ => exact le_refl _
    | echild _ => exact le_refl _
  | kill pid signal => exact hanswer.2.2 ▸ le_refl _
  | steadyNow => exact hanswer.2 ▸ le_refl _
  | sleep ms =>
    obtain ⟨clock, hclock, rfl⟩ := hanswer
    exact (Nat.le_add_right _ _).trans hclock
  | spin => exact hanswer.elim
  | _ => exact hanswer ▸ le_refl _

/-- `waitpid` returns in the end. -/
theorem exists_waits (host : Host) (pid : ℤ) (nohang : Bool) :
    ∃ now r host', host.Env now ∧ now.Waits pid nohang r host' := by
  by_cases hchild : host.IsChild pid
  · obtain ⟨ended, hended⟩ := hchild
    cases ended with
    | some wstatus => exact ⟨host, _, _, .refl host, .collected hended⟩
    | none =>
      -- the child ends now
      obtain ⟨now, henv, hends⟩ := exists_env_ended hended (.exited 0)
      exact ⟨now, _, _, henv, .collected hends⟩
  · exact ⟨host, _, _, .refl host, .echild hchild⟩

/-- Every call is answered. -/
theorem exists_step {o : SysOp} (ho : o ≠ .spin) (host : Host) :
    ∃ r host', host.step o r host' := by
  have hsame {o : SysOp} (r : SysRes o) (hr : host.Answer o r host) :
      ∃ r host', host.step o r host' := ⟨r, host, host, .refl host, hr⟩
  by_cases haside : o.Aside
  · obtain ⟨r, hr⟩ := exists_answer haside host
    exact hsame r hr
  -- The calls whose answer depends on the processes; the others were answered above.
  cases o with
  | fork => exact hsame none .failed
  | waitpid pid nohang =>
    obtain ⟨now, r, host', henv, hwaits⟩ := host.exists_waits pid nohang
    exact ⟨r, host', now, henv, hwaits⟩
  | kill pid signal =>
    by_cases hfree : host.procs pid = .free
    · refine hsame (some Errno.ESRCH) ⟨fun hchild => ?_, fun _ => rfl, rfl⟩
      obtain ⟨ended, hended⟩ := hchild
      rw [hfree] at hended
      cases hended
    · exact hsame none ⟨fun _ => rfl, fun h => absurd h hfree, rfl⟩
  | steadyNow => exact hsame host.clock ⟨rfl, rfl⟩
  | sleep ms =>
    let woken : Host := { host with clock := host.clock + ms }
    exact ⟨(), woken, host, .refl host, host.clock + ms, le_refl _, rfl⟩
  | enter pid => exact hsame () rfl
  | spin => exact absurd rfl ho
  | _ => exact absurd trivial haside

end Host

end TestSuite
