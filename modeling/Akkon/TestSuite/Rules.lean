import Akkon.TestSuite.TestFramework

/-!
# Rules for the member functions

What has to be shown about a member function, by what the calls that it makes can return.

* `always_aside`, `runs_aside`: programs that have nothing to do with processes, as those that set
  up the environment;
* `always_createInstance`: the instance is not started, or it is there with a new child;
* `always_getStatus`, `always_isRunning`: the child runs, the child is reaped now, or there is no
  child to wait for;
* `always_getStatus_ended`, `always_getStatus_collected`: the first poll behind the end of the child
  returns its exit code, the others return `-1`;
* `always_waitForInstance`: the rule for the waiting loop, with what holds in front of a poll,
  behind a poll that has found the instance running, and behind one that has not. The loop ends
  before its fuel does;
* `runs_createInstance`: a run in which the child has ended by the time the instance is there.
-/

namespace TestSuite

open Cpp Prog

/-- Calls other than `kill`. -/
def SysOp.Quiet : SysOp → Prop
  | .kill _ _ => False
  | .spin => False
  | _ => True

variable {ok : SysOp → Host → Prop} {m : Instances} {tracker_id : Bytes} {info : InstanceInfo}
  {host : Host}

theorem SysOp.Aside.quiet {o : SysOp} (h : o.Aside) : o.Quiet := by
  cases o with
  | kill | spin => exact h.elim
  | _ => trivial

/-! ## The environment -/

theorem aside_hexDigits (n : ℕ) : (hexDigits n).AllOps SysOp.Aside := by
  induction n with
  | zero => exact allOps_ret _ _
  | succ n ih => exact ⟨trivial, fun _ => ih.bind fun _ => allOps_ret _ _⟩

theorem aside_firstExisting (bin_name : Bytes) (paths : List Bytes) :
    (firstExisting bin_name paths).AllOps SysOp.Aside := by
  induction paths with
  | nil => exact allOps_ret _ _
  | cons path paths ih =>
    refine ⟨trivial, fun found => ?_⟩
    cases found with
    | true => exact ⟨trivial, fun _ => allOps_ret _ _⟩
    | false => exact ih

theorem aside_getBinaryPath : getBinaryPath.AllOps SysOp.Aside := by
  refine ⟨trivial, fun env_binary => ?_⟩
  cases env_binary with
  | none => exact aside_firstExisting _ _
  | some path =>
    refine ⟨trivial, fun found => ?_⟩
    cases found with
    | true => exact allOps_ret _ _
    | false => exact aside_firstExisting _ _

theorem aside_isContainerized : isContainerized.AllOps SysOp.Aside := by
  refine ⟨trivial, fun dockerenv => ?_⟩
  cases dockerenv with
  | true => exact allOps_ret _ _
  | false =>
    refine ⟨trivial, fun cgroup1 => ?_⟩
    show Prog.AllOps _ (if _ then _ else _)
    split_ifs
    · exact allOps_ret _ _
    · exact ⟨trivial, fun _ => allOps_ret _ _⟩

theorem aside_existsOr {path : Bytes} {second : Sys Bool} (h : second.AllOps SysOp.Aside) :
    (existsOr path second).AllOps SysOp.Aside := by
  refine ⟨trivial, fun found => ?_⟩
  cases found with
  | true => exact allOps_ret _ _
  | false => exact h

theorem aside_fileExists (path : Bytes) : (Sys.fileExists path).AllOps SysOp.Aside :=
  ⟨trivial, fun _ => allOps_ret _ _⟩

theorem aside_isSet (name : Bytes) : (isSet name).AllOps SysOp.Aside :=
  ⟨trivial, fun _ => allOps_ret _ _⟩

theorem aside_detectContainerEngine : detectContainerEngine.AllOps SysOp.Aside := by
  refine (aside_existsOr (aside_isSet _)).bind fun docker => ?_
  cases docker with
  | true => exact allOps_ret _ _
  | false =>
    refine (aside_existsOr (aside_isSet _)).bind fun podman => ?_
    cases podman with
    | true => exact allOps_ret _ _
    | false =>
      refine ⟨trivial, fun containerd => ?_⟩
      cases containerd with
      | true => exact allOps_ret _ _
      | false =>
        exact (aside_existsOr (aside_fileExists _)).bind fun _ => allOps_ret _ _

theorem aside_setDefault (env : Map Bytes) (name : Bytes) {value : Sys Bytes}
    (h : value.AllOps SysOp.Aside) : (setDefault env name value).AllOps SysOp.Aside := by
  rw [setDefault]
  cases env.find name with
  | some _ => exact allOps_ret _ _
  | none => exact h.bind fun _ => allOps_ret _ _

theorem aside_setupEnvironment (env : Map Bytes) :
    (setupEnvironment env).AllOps SysOp.Aside := by
  have hcontainer : (containerEnvironment env).AllOps SysOp.Aside := by
    refine aside_isContainerized.bind fun in_container => ?_
    cases in_container with
    | false => exact allOps_ret _ _
    | true => exact aside_detectContainerEngine.bind fun _ => allOps_ret _ _
  refine hcontainer.bind fun env => ?_
  refine (aside_setDefault env _ aside_getBinaryPath).bind fun env => ?_
  exact aside_setDefault _ _ ⟨trivial, fun _ => allOps_ret _ _⟩

theorem aside_setAll (env : Map Bytes) : (setAll env).AllOps SysOp.Aside := by
  induction env with
  | nil => exact allOps_ret _ _
  | cons entry env ih => exact ⟨trivial, fun _ => ih⟩

theorem aside_containerLog : containerLog.AllOps SysOp.Aside := by
  refine aside_isContainerized.bind fun in_container => ?_
  cases in_container with
  | true => exact aside_detectContainerEngine.bind fun _ => allOps_ret _ _
  | false => exact allOps_ret _ _

theorem aside_getLogs (m : Instances) (tracker_id : Bytes) (num_lines : ℕ) :
    (getLogs m tracker_id num_lines).AllOps SysOp.Aside := by
  rw [getLogs]
  by_cases hlog : (getTracking m tracker_id).log_file = []
  · rw [if_pos hlog]
    exact allOps_ret _ _
  · rw [if_neg hlog]
    exact ⟨trivial, fun _ => allOps_ret _ _⟩

/-- Where all calls have nothing to do with processes, there is a run in which nothing happens. -/
theorem runs_aside {α : Type} {p : Sys α} (h : p.AllOps SysOp.Aside) (host : Host) :
    ∃ a, Runs Host.step p host a host := by
  induction p with
  | ret a => exact ⟨a, .ret a host⟩
  | op o k ih =>
    obtain ⟨r, hr⟩ := Host.exists_answer h.1 host
    obtain ⟨a, hrun⟩ := ih r (h.2 r)
    exact ⟨a, .op ⟨host, .refl host, hr⟩ hrun⟩

/-! ## Calls that only look -/

theorem quiet_getStatus (m : Instances) (tracker_id : Bytes) :
    (getStatus m tracker_id).AllOps SysOp.Quiet := by
  rw [getStatus]
  cases m.find tracker_id with
  | none => exact allOps_ret _ _
  | some info =>
    refine ⟨trivial, fun now => ⟨trivial, fun lines => ?_⟩⟩
    show Prog.AllOps _ (if info.pid = -1 then _ else _)
    split_ifs
    · exact allOps_ret _ _
    · exact ⟨trivial, fun _ => allOps_ret _ _⟩

theorem quiet_isRunning (m : Instances) (tracker_id : Bytes) :
    (isRunning m tracker_id).AllOps SysOp.Quiet :=
  (quiet_getStatus m tracker_id).bind fun _ => allOps_ret _ _

theorem quiet_getExitCode (m : Instances) (tracker_id : Bytes) :
    (getExitCode m tracker_id).AllOps SysOp.Quiet :=
  (quiet_getStatus m tracker_id).bind fun _ => allOps_ret _ _

theorem quiet_graceLoop (m : Instances) (tracker_id : Bytes) (pid : ℤ) (n : ℕ) :
    (graceLoop m tracker_id pid n).AllOps SysOp.Quiet := by
  induction n with
  | zero => exact allOps_ret _ _
  | succ n ih =>
    refine ⟨trivial, fun result => ?_⟩
    cases result with
    | running => exact ⟨trivial, fun _ => ih⟩
    | collected wstatus => exact allOps_ret _ _
    | echild => exact allOps_ret _ _

/-! ## Steps and results -/

/-- The clock is not set back. -/
theorem always_clock_le {α : Type} {Q : α → Host → Prop} {p : Sys α}
    (h : Always Host.step ok Q p host) :
    Always Host.step ok (fun a host' => Q a host' ∧ host.clock ≤ host'.clock) p host :=
  h.invariant (fun _ _ _ _ hstep hle => hle.trans (Host.clock_le_of_step hstep)) (le_refl _)

/-- The child of the instance has been reaped, and this was its status. -/
def Collected (tracker_id : Bytes) (pid : ℤ) (wstatus : WStatus) (m : Instances) (host : Host) :
    Prop :=
  (∃ info, m.find tracker_id = some info ∧ info.pid = pid) ∧ ¬ host.IsChild pid ∧
    host.reaped pid = some wstatus

variable {wstatus : WStatus}

theorem Collected.of_env {pid : ℤ} {host' : Host} (h : Collected tracker_id pid wstatus m host)
    (henv : host.Env host') : Collected tracker_id pid wstatus m host' :=
  ⟨h.1, fun hchild => h.2.1 (henv.isChild_iff.mp hchild), henv.reaped ▸ h.2.2⟩

variable {P : Instances → Host → Prop} {code : ℤ}

/-- `isRunning` is false where `getStatus` says "stopped". -/
theorem always_isRunning_stopped (h : Always Host.step ok (fun r host' => r.2.status = .stopped ∧
      r.2.exit_code = code ∧ P r.1 host') (getStatus m tracker_id) host) :
    Always Host.step ok (fun r host' => r.2 = false ∧ P r.1 host') (isRunning m tracker_id)
      host := by
  refine h.bind fun ⟨m', status⟩ host' ⟨hstopped, _, hafter⟩ => ?_
  show (status.status == .running) = false ∧ P m' host'
  rw [hstopped]
  exact ⟨rfl, hafter⟩

theorem always_getExitCode_stopped (h : Always Host.step ok (fun r host' =>
      r.2.status = .stopped ∧ r.2.exit_code = code ∧ P r.1 host') (getStatus m tracker_id) host) :
    Always Host.step ok (fun r host' => r.2 = code ∧ P r.1 host') (getExitCode m tracker_id)
      host :=
  h.bind fun _ _ ⟨_, hcode, hafter⟩ => ⟨hcode, hafter⟩

section Rules

-- the calls that only look meet the condition
variable (hok : ∀ o host, o.Quiet → ok o host)

include hok

/-- Behind a program that has nothing to do with processes only time has passed. -/
theorem always_aside {α : Type} {p : Sys α} (h : p.AllOps SysOp.Aside) :
    Always Host.step ok (fun _ host' => host.Env host') p host := by
  induction p generalizing host with
  | ret a => exact Host.Env.refl host
  | op o k ih =>
    refine ⟨hok _ _ h.1.quiet, fun r host' ⟨now, henv, hanswer⟩ => ?_⟩
    obtain rfl := Host.eq_of_answer h.1 hanswer
    exact (ih r (h.2 r)).mono (fun _ _ h => h) fun _ _ hlater => henv.trans hlater

/-- A tracker id has as many digits as it is given. -/
theorem always_hexDigits (n : ℕ) : Always Host.step ok
    (fun digits host' => host.Env host' ∧ digits.length = n) (hexDigits n) host := by
  induction n generalizing host with
  | zero => exact ⟨Host.Env.refl host, rfl⟩
  | succ n ih =>
    refine ⟨hok _ _ trivial, fun digit host' ⟨now, henv, heq⟩ => ?_⟩
    obtain rfl := heq
    refine ih.bind fun digits host' ⟨hlater, hlength⟩ => ?_
    exact ⟨henv.trans hlater, congrArg (· + 1) hlength⟩

/-! ## Creating an instance -/

theorem always_startProcess (hfind : m.find tracker_id = some info) {args : List Bytes}
    {Q : Instances × Bool → Host → Prop}
    (hfailed : ∀ host', host.Env host' → Q (m, false) host')
    (hstarted : ∀ now host' pid, host.Env now → 0 < pid → now.procs pid = .free →
      (now.start pid).Env host' → Q (m.set tracker_id { info with pid := pid }, true) host') :
    Always Host.step ok Q (startProcess m tracker_id args) host := by
  rw [startProcess, hfind]
  -- The log file, the binary, the directory and the fork: each of them can fail.
  refine ⟨hok _ _ trivial, fun is_open _ ⟨first, hfirst, heq⟩ => ?_⟩
  obtain rfl := heq
  cases is_open with
  | false => exact hfailed _ hfirst
  | true =>
    refine ⟨hok _ _ trivial, fun found _ ⟨second, hsecond, heq⟩ => ?_⟩
    obtain rfl := heq
    have henv := hfirst.trans hsecond
    cases found with
    | false =>
      refine ⟨hok _ _ trivial, fun _ _ ⟨third, hthird, heq⟩ => ?_⟩
      obtain rfl := heq
      exact hfailed _ (henv.trans hthird)
    | true =>
      refine ⟨hok _ _ trivial, fun _ _ ⟨third, hthird, heq⟩ => ?_⟩
      obtain rfl := heq
      refine ⟨hok _ _ trivial, fun pid _ ⟨now, hnow, hforks⟩ => ?_⟩
      have henv := (henv.trans hthird).trans hnow
      cases hforks with
      | failed => exact hfailed _ henv
      | forked hpos hfree =>
        refine ⟨hok _ _ trivial, fun _ _ ⟨last, hlast, heq⟩ => ?_⟩
        obtain rfl := heq
        exact hstarted _ _ _ henv hpos hfree hlast

/-- An instance that could not be started has no tracker id. Otherwise it has a new child. -/
theorem always_createInstance {args : List Bytes} {log_dir : Bytes}
    {Q : Instances × Bytes → Host → Prop}
    (hfailed : ∀ m' host', host.Env host' → Q (m', []) host')
    (hstarted : ∀ m' tracker_id info now host', tracker_id ≠ [] →
      m'.find tracker_id = some info → info.status = .running → 0 < info.pid → host.Env now →
      now.procs info.pid = .free → (now.start info.pid).Env host' → Q (m', tracker_id) host') :
    Always Host.step ok Q (createInstance m args log_dir) host := by
  refine (always_hexDigits hok 8).bind fun tracker_id first ⟨hfirst, hlength⟩ => ?_
  have hid : tracker_id ≠ [] := by
    rintro rfl
    cases hlength
  -- Without its log directory there is no instance.
  refine ⟨hok _ _ trivial, fun created _ ⟨second, hsecond, heq⟩ => ?_⟩
  obtain rfl := heq
  have henv := hfirst.trans hsecond
  cases created with
  | false => exact hfailed _ _ henv
  | true =>
    refine (always_aside hok aside_getBinaryPath).bind fun binary_path third hthird => ?_
    refine ⟨hok _ _ trivial, fun start_time _ ⟨fourth, hfourth, heq⟩ => ?_⟩
    obtain rfl := heq
    have henv := (henv.trans hthird).trans hfourth
    change Always _ _ _ (startProcess (m.set tracker_id _) tracker_id args >>= _) _
    refine always_bind.mpr (always_startProcess hok (Map.find_set_self ..) ?_ ?_)
    · exact fun host' hlater => hfailed _ host' (henv.trans hlater)
    · intro now host' pid hnow hpos hfree hstart
      refine hstarted _ _ _ now host' hid (Instances.find_setStatus (Map.find_set_self ..) _)
        rfl hpos (henv.trans hnow) hfree hstart

/-! ## Polling an instance -/

/-- An instance is polled by one `waitpid`. -/
theorem always_getStatus (hfind : m.find tracker_id = some info) (hpid : info.pid ≠ -1)
    {Q : Instances × InstanceStatus → Host → Prop}
    (hrunning : ∀ host' status, host.Env host' → host'.procs info.pid = .child none →
      status.status = info.status → status.exit_code = -1 → Q (m, status) host')
    (hcollected : ∀ now wstatus status, host.Env now → now.procs info.pid = .child (some wstatus) →
      status.status = .stopped → status.exit_code = wstatus.exit_code →
      Q (m.setStatus tracker_id .stopped, status) (now.reap info.pid wstatus))
    (hechild : ∀ host' status, host.Env host' → ¬ host'.IsChild info.pid →
      status.status = .stopped → status.exit_code = -1 →
      Q (m.setStatus tracker_id .stopped, status) host') :
    Always Host.step ok Q (getStatus m tracker_id) host := by
  rw [getStatus, hfind]
  refine ⟨hok _ _ trivial, fun now _ ⟨first, hfirst, heq⟩ => ?_⟩
  cases heq
  refine ⟨hok _ _ trivial, fun lines _ ⟨second, hsecond, heq⟩ => ?_⟩
  cases heq
  show Always _ _ _ (if info.pid = -1 then _ else _) _
  rw [if_neg hpid]
  refine ⟨hok _ _ trivial, fun result host' ⟨third, hthird, hwaits⟩ => ?_⟩
  have henv := (hfirst.trans hsecond).trans hthird
  -- what `waitpid` has returned
  cases hwaits with
  | running hchild _ => exact hrunning _ _ henv hchild rfl rfl
  | collected hended => exact hcollected _ _ _ henv hended rfl rfl
  | echild hnone => exact hechild _ _ henv hnone rfl rfl

/-- Without a pid there is nothing to poll, and `m_instances` stays as it is. -/
theorem always_isRunning_of_forall_eq
    (h : ∀ info, m.find tracker_id = some info → info.pid = -1) :
    Always Host.step ok (fun r _ => r.1 = m) (isRunning m tracker_id) host := by
  rw [isRunning, getStatus]
  cases hfind : m.find tracker_id with
  | none => rfl
  | some info =>
    refine ⟨hok _ _ trivial, fun now _ _ => ⟨hok _ _ trivial, fun lines _ _ => ?_⟩⟩
    show Always _ _ _ ((if info.pid = -1 then _ else _) >>= _) _
    rw [if_pos (h info hfind)]
    rfl

theorem always_isRunning (hfind : m.find tracker_id = some info) (hpid : info.pid ≠ -1)
    {Q : Instances × Bool → Host → Prop}
    (hrunning : ∀ host', host.Env host' → host'.procs info.pid = .child none →
      Q (m, info.status == .running) host')
    (hcollected : ∀ now wstatus, host.Env now → now.procs info.pid = .child (some wstatus) →
      Q (m.setStatus tracker_id .stopped, false) (now.reap info.pid wstatus))
    (hechild : ∀ host', host.Env host' → ¬ host'.IsChild info.pid →
      Q (m.setStatus tracker_id .stopped, false) host') :
    Always Host.step ok Q (isRunning m tracker_id) host := by
  refine always_bind.mpr (always_getStatus hok hfind hpid ?_ ?_ ?_)
  · intro host' status henv hchild hstatus _
    show Q (m, status.status == .running) host'
    rw [hstatus]
    exact hrunning host' henv hchild
  · intro now wstatus status henv hended hstatus _
    show Q (_, status.status == .running) _
    rw [hstatus]
    exact hcollected now wstatus henv hended
  · intro host' status henv hnone hstatus _
    show Q (_, status.status == .running) _
    rw [hstatus]
    exact hechild host' henv hnone

/-! ## The waiting loop -/

section Waiting

variable {I J K : Instances → Host → Prop} {timeout_ms : ℤ}

/-- One round, with `K` behind a poll that has found the instance running and `J` behind one that has
not. Where the time is not over, the rest of the loop is left to show. -/
theorem always_waitRound
    (hpoll : ∀ m host, I m host → Always Host.step ok
      (fun r host' => if r.2 then K r.1 host' else J r.1 host') (isRunning m tracker_id) host)
    (henv : ∀ m host host', host.Env host' → K m host → K m host') {start fuel : ℕ} (hm : I m host)
    (hrest : ∀ m' now, K m' now → host.clock ≤ now.clock → (now.clock : ℤ) - start < timeout_ms →
      Always Host.step ok (fun r host' => if r.2 then J r.1 host' else K r.1 host')
        (Sys.sleep 50 >>= fun _ => waitLoop tracker_id timeout_ms start fuel m') now) :
    Always Host.step ok (fun r host' => if r.2 then J r.1 host' else K r.1 host')
      (waitLoop tracker_id timeout_ms start (fuel + 1) m) host := by
  refine (always_clock_le (hpoll m host hm)).bind fun ⟨m', running⟩ polled ⟨hafter, hclock⟩ => ?_
  cases running with
  | false => exact hafter
  | true =>
    -- the call that reads the clock, with what happens by itself in front of it
    refine ⟨hok _ _ trivial, fun _ now ⟨t, ht, heq, heq'⟩ => ?_⟩
    obtain rfl := heq'
    obtain rfl := heq
    have hK := henv _ _ _ ht hafter
    have hlater := ht.clock
    show Always _ _ _ (if _ then _ else _) _
    split_ifs with htime
    · exact hK
    · exact hrest m' _ hK (by omega) (by omega)

/-- The loop, with `I` in front of every poll, `K` behind a poll that has found the instance
running, and `J` behind one that has not. -/
theorem always_waitLoop
    (hpoll : ∀ m host, I m host → Always Host.step ok
      (fun r host' => if r.2 then K r.1 host' else J r.1 host') (isRunning m tracker_id) host)
    (henv : ∀ m host host', host.Env host' → K m host → K m host')
    (hKI : ∀ m host, K m host → I m host) {start : ℕ} {n : ℕ} (hm : I m host)
    (hfuel : timeout_ms ≤ (host.clock : ℤ) - start + 50 * n) :
    Always Host.step ok (fun r host' => if r.2 then J r.1 host' else K r.1 host')
      (waitLoop tracker_id timeout_ms start (n + 1) m) host := by
  induction n generalizing m host with
  | zero =>
    refine always_waitRound hok hpoll henv hm fun m' now _ hlater htime => ?_
    -- no more fuel, but the time is over
    omega
  | succ n ih =>
    refine always_waitRound hok hpoll henv hm fun m' now hK hlater _ => ?_
    -- the sleep takes at least what a round less of fuel is worth
    refine ⟨hok _ _ trivial, fun _ _ ⟨u, hu, clock, hsleep, heq⟩ => ?_⟩
    subst heq
    have hslept := hu.clock
    have hwoken : now.Env { u with clock := clock } :=
      ⟨hu.procs, hu.reaped, by show now.clock ≤ clock; omega⟩
    refine ih (hKI _ _ (henv _ _ _ hwoken hK)) ?_
    show timeout_ms ≤ (clock : ℤ) - start + 50 * n
    push_cast at hfuel
    omega

/-- `waitForInstance` comes to its end, with `J` when it returns true and `K` otherwise. -/
theorem always_waitForInstance
    (hpoll : ∀ m host, I m host → Always Host.step ok
      (fun r host' => if r.2 then K r.1 host' else J r.1 host') (isRunning m tracker_id) host)
    (hI : ∀ m host host', host.Env host' → I m host → I m host')
    (henv : ∀ m host host', host.Env host' → K m host → K m host')
    (hKI : ∀ m host, K m host → I m host) (hm : I m host) :
    Always Host.step ok (fun r host' => if r.2 then J r.1 host' else K r.1 host')
      (waitForInstance m tracker_id timeout_ms) host := by
  refine ⟨hok _ _ trivial, fun _ now ⟨t, ht, heq, heq'⟩ => ?_⟩
  obtain rfl := heq'
  obtain rfl := heq
  refine always_waitLoop hok hpoll henv hKI (hI _ _ _ ht hm) ?_
  push_cast
  omega

end Waiting

/-! ## Polling an instance whose child has ended -/

/-- The first poll behind the end of the child reaps it, and returns its exit code. -/
theorem always_getStatus_ended (hfind : m.find tracker_id = some info) (hpid : info.pid ≠ -1)
    (hended : host.procs info.pid = .child (some wstatus)) :
    Always Host.step ok (fun r host' => r.2.status = .stopped ∧ r.2.exit_code = wstatus.exit_code ∧
      Collected tracker_id info.pid wstatus r.1 host') (getStatus m tracker_id) host := by
  refine always_getStatus hok hfind hpid ?_ ?_ ?_
  · intro host' status henv hchild
    have hsame := henv.procs_ended hended
    rw [hchild] at hsame
    cases hsame
  · intro now wstatus' status henv hended' hstopped hcode
    have hsame := henv.procs_ended hended
    obtain rfl : wstatus' = wstatus := by
      rw [hended'] at hsame
      cases hsame
      rfl
    exact ⟨hstopped, hcode, ⟨_, Instances.find_setStatus hfind _, rfl⟩,
      Host.not_isChild_reap _ _ _, Function.update_self ..⟩
  · exact fun host' _ henv hnone => absurd (henv.isChild_iff.mpr ⟨_, hended⟩) hnone

/-- Behind it there is no exit code. -/
theorem always_getStatus_collected {pid : ℤ} (hpid : pid ≠ -1)
    (h : Collected tracker_id pid wstatus m host) :
    Always Host.step ok (fun r host' => r.2.status = .stopped ∧ r.2.exit_code = -1 ∧
      Collected tracker_id pid wstatus r.1 host') (getStatus m tracker_id) host := by
  obtain ⟨⟨info, hfind, rfl⟩, hnone, hreaped⟩ := h
  refine always_getStatus hok hfind hpid ?_ ?_ ?_
  · exact fun host' _ henv hchild => absurd (henv.isChild_iff.mp ⟨_, hchild⟩) hnone
  · exact fun now _ _ henv hended => absurd (henv.isChild_iff.mp ⟨_, hended⟩) hnone
  · intro host' status henv hnone' hstopped hcode
    exact ⟨hstopped, hcode, ⟨_, Instances.find_setStatus hfind _, rfl⟩, hnone',
      henv.reaped ▸ hreaped⟩

/-- `waitForInstance` returns behind its first poll where that says "stopped". -/
theorem always_waitForInstance_stopped (timeout_ms : ℤ)
    (h : ∀ now, host.Env now → Always Host.step ok (fun r host' => r.2.status = .stopped ∧
      r.2.exit_code = code ∧ P r.1 host') (getStatus m tracker_id) now) :
    Always Host.step ok (fun r host' => r.2 = true ∧ P r.1 host')
      (waitForInstance m tracker_id timeout_ms) host := by
  refine ⟨hok _ _ trivial, fun _ _ ⟨now, hnow, _, heq⟩ => ?_⟩
  obtain rfl := heq
  refine (always_isRunning_stopped (h _ hnow)).bind fun ⟨m', running⟩ host' ⟨hfalse, hafter⟩ => ?_
  obtain rfl : running = false := hfalse
  exact ⟨rfl, hafter⟩

end Rules

/-! ## A run -/

/-- An instance is created with a pid that is not in use, and its child ends at once. -/
theorem runs_createInstance (m : Instances) (args : List Bytes) (log_dir : Bytes) {pid : ℤ}
    (hpos : 0 < pid) (hchild : ¬ host.IsChild pid) (wstatus : WStatus) :
    ∃ m' tracker_id info host',
      Runs Host.step (createInstance m args log_dir) host (m', tracker_id) host' ∧
      tracker_id ≠ [] ∧ m'.find tracker_id = some info ∧ info.pid = pid ∧
      host'.procs pid = .child (some wstatus) := by
  obtain ⟨now, henv, hfree⟩ := host.exists_env_free hchild
  obtain ⟨host', hends, hended⟩ :=
    (now.start pid).exists_env_ended (Function.update_self ..) wstatus
  -- nothing happens in front of `fork`
  obtain ⟨tracker_id, hdigits⟩ := runs_aside (aside_hexDigits 8) host
  obtain ⟨binary_path, hbinary⟩ := runs_aside aside_getBinaryPath now
  have hlength : Always Host.step (fun _ _ => True)
      (fun digits host' => host.Env host' ∧ digits.length = 8) (hexDigits 8) host :=
    always_hexDigits (fun _ _ _ => trivial) 8
  have hid : tracker_id ≠ [] := by
    rintro rfl
    cases (hlength.of_runs hdigits).2
  let logs_dir := if log_dir = [] then lit "test_logs" else log_dir
  let info : InstanceInfo :=
    ⟨-1, tracker_id, logPath logs_dir tracker_id, 0, .starting, binary_path, args⟩
  have hfind := Map.find_set_self m tracker_id info
  have hfork : now.step .fork (some pid) (now.start pid) := ⟨now, .refl now, .forked hpos hfree⟩
  have hstart : Runs Host.step (startProcess (m.set tracker_id info) tracker_id args) now
      ((m.set tracker_id info).set tracker_id { info with pid := pid }, true) host' := by
    rw [startProcess, hfind]
    refine .op (r := true) ⟨now, .refl now, rfl⟩ ?_
    refine .op (r := true) ⟨now, .refl now, rfl⟩ ?_
    refine .op (r := true) ⟨now, .refl now, rfl⟩ ?_
    refine .op hfork ?_
    exact .op (r := true) ⟨host', hends, rfl⟩ (.ret _ _)
  have hstarted := Map.find_set_self (m.set tracker_id info) tracker_id { info with pid := pid }
  refine ⟨_, tracker_id, _, host', ?_, hid, Instances.find_setStatus hstarted .running, rfl, hended⟩
  refine hdigits.bind ?_
  refine .op (r := true) ⟨now, henv, rfl⟩ ?_
  refine hbinary.bind ?_
  refine .op (r := (0 : ℤ)) ⟨now, .refl now, rfl⟩ ?_
  exact hstart.bind (.ret _ _)

end TestSuite
