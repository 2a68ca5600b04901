import Akkon.TestSuite.Rules

/-!
# Which processes are sent a signal

A pid is free for other processes once its child has been reaped, and the framework keeps it. So
`kill` is called with the pid of a live child only where the child has not been reaped before.

* `KillsOwn`: `kill` is called with the pid of a child that has not been reaped;
* `Entered`: `stopInstance` and `killInstance` are called for such a child;
* `always_stopFound`, `always_killFound`: what they do then;
* `always_cleanup`: `cleanup` polls an instance in front of every `killInstance`;
* `killsOwn_of_entered`: any sequence of calls, with `Entered`, and exactly where the calls that do
  not need it stand.

`stopInstance` takes an error of `waitpid` for a child that runs, `killInstance` does not look at
all, and `runtime` calls `stopInstance` for an instance that it has seen stop.
-/

namespace TestSuite

open Cpp Prog

/-- `kill` is called with the pid of a child that has not been reaped. -/
def KillsOwn : SysOp → Host → Prop
  | .kill pid _, host => host.IsChild pid
  -- no loop runs out of fuel
  | .spin, _ => False
  | _, _ => True

/-- `stopInstance` and `killInstance` are called for a child that has not been reaped. -/
def Entered : SysOp → Host → Prop
  | .enter pid, host => host.IsChild pid
  | _, _ => True

/-- Every run of the program signals its own children only. -/
abbrev SignalsOwn {α : Type} (p : Sys α) (host : Host) : Prop :=
  Always Host.step KillsOwn (fun _ _ => True) p host

variable {m : Instances} {tracker_id : Bytes} {info : InstanceInfo} {host : Host} {pid : ℤ}

theorem KillsOwn.of_quiet {o : SysOp} {host : Host} (h : o.Quiet) : KillsOwn o host := by
  cases o with
  | kill pid signal => exact h.elim
  | spin => exact h.elim
  | _ => trivial

/-- Calls that meet it are answered. -/
theorem KillsOwn.exists_step (o : SysOp) (host : Host) (h : KillsOwn o host) :
    ∃ r host', host.step o r host' :=
  Host.exists_step (by rintro rfl; exact h) host

/-! ## Calls without a signal -/

theorem SignalsOwn.of_quiet {α : Type} {p : Sys α} (h : p.AllOps SysOp.Quiet) (host : Host) :
    SignalsOwn p host :=
  .of_allOps (fun _ _ => KillsOwn.of_quiet) h host

theorem SignalsOwn.of_aside {α : Type} {p : Sys α} (h : p.AllOps SysOp.Aside) (host : Host) :
    SignalsOwn p host :=
  .of_quiet (h.mono fun _ => SysOp.Aside.quiet) host

theorem killsOwn_createInstance (m : Instances) (args : List Bytes) (log_dir : Bytes)
    (host : Host) :
    SignalsOwn (createInstance m args log_dir) host :=
  always_createInstance (fun _ _ => KillsOwn.of_quiet) (fun _ _ _ => trivial)
    fun _ _ _ _ _ _ _ _ _ _ _ _ => trivial

theorem killsOwn_waitForInstance (m : Instances) (tracker_id : Bytes) (timeout_ms : ℤ)
    (host : Host) : SignalsOwn (waitForInstance m tracker_id timeout_ms) host := by
  have hpoll (m : Instances) (host : Host) : Always Host.step KillsOwn
      (fun r _ => if r.2 then True else True) (isRunning m tracker_id) host :=
    (SignalsOwn.of_quiet (quiet_isRunning m tracker_id) host).mono (fun _ _ h => h)
      fun _ _ _ => by simp
  refine (always_waitForInstance (I := fun _ _ => True) (J := fun _ _ => True)
    (K := fun _ _ => True) (fun _ _ => KillsOwn.of_quiet) (fun m host _ => hpoll m host) ?_ ?_ ?_
    trivial).mono (fun _ _ h => h) fun _ _ _ => trivial
  all_goals exact fun _ _ => by simp

/-! ## Stopping and killing -/

theorem always_stopFound (h : host.IsChild pid) :
    SignalsOwn (stopFound m tracker_id pid) host := by
  refine ⟨trivial, fun result host' ⟨now, henv, hwaits⟩ => ?_⟩
  have hchild : now.IsChild pid := henv.isChild_iff.mpr h
  cases hwaits with
  | running _ _ =>
    -- the child still runs, and it is sent `SIGTERM`
    refine ⟨hchild, fun failed _ ⟨_, _, _, _, heq⟩ => ?_⟩
    obtain rfl := heq
    cases failed with
    | none => exact SignalsOwn.of_quiet (quiet_graceLoop m tracker_id pid 20) _
    | some errno => cases errno <;> trivial
  | collected _ => trivial
  | echild hnone => exact absurd hchild hnone

theorem always_killFound (h : host.IsChild pid) :
    SignalsOwn (killFound m tracker_id pid) host :=
  ⟨h, fun _ _ _ => ⟨trivial, fun _ _ _ => trivial⟩⟩

/-- A call that is entered for a child of the framework. -/
theorem signalsOwn_enter {f : Unit → Sys (Instances × Bool)}
    (hf : ∀ host : Host, host.IsChild pid → SignalsOwn (f ()) host) (h : host.IsChild pid) :
    SignalsOwn (op (.enter pid) f) host := by
  refine ⟨trivial, fun _ _ ⟨now, henv, heq⟩ => ?_⟩
  obtain rfl := heq
  exact hf _ (henv.isChild_iff.mpr h)

theorem entered_enter {f : Unit → Sys (Instances × Bool)}
    (hf : ∀ host : Host, host.IsChild pid → SignalsOwn (f ()) host) :
    Always (under Entered Host.step) KillsOwn (fun _ _ => True) (op (.enter pid) f) host := by
  refine ⟨trivial, fun _ _ ⟨hentered, now, henv, heq⟩ => ?_⟩
  obtain rfl := heq
  exact (hf _ (henv.isChild_iff.mpr hentered)).under

theorem stopInstance_of_find (hfind : m.find tracker_id = some info) (hpid : info.pid ≠ -1) :
    stopInstance m tracker_id = op (.enter info.pid) fun _ => stopFound m tracker_id info.pid := by
  rw [stopInstance, hfind]
  exact if_neg hpid

theorem killInstance_of_find (hfind : m.find tracker_id = some info) (hpid : info.pid ≠ -1) :
    killInstance m tracker_id = op (.enter info.pid) fun _ => killFound m tracker_id info.pid := by
  rw [killInstance, hfind]
  exact if_neg hpid

/-- `stopInstance` signals its own child exactly where that has not been reaped before. -/
theorem always_stopInstance_iff (hfind : m.find tracker_id = some info) (hpid : info.pid ≠ -1) :
    SignalsOwn (stopInstance m tracker_id) host ↔ host.IsChild info.pid := by
  rw [stopInstance_of_find hfind hpid]
  constructor
  · intro h
    by_contra hnone
    -- `waitpid` fails, and `kill` is called all the same
    have hkill := (h.2 () host ⟨host, .refl host, rfl⟩).2 .echild host
      ⟨host, .refl host, .echild hnone⟩
    exact hnone hkill.1
  · exact signalsOwn_enter fun _ => always_stopFound

/-- So does `killInstance`. -/
theorem always_killInstance_iff (hfind : m.find tracker_id = some info) (hpid : info.pid ≠ -1) :
    SignalsOwn (killInstance m tracker_id) host ↔ host.IsChild info.pid := by
  rw [killInstance_of_find hfind hpid]
  constructor
  · exact fun h => (h.2 () host ⟨host, .refl host, rfl⟩).1
  · exact signalsOwn_enter fun _ => always_killFound

/-- Without a pid nothing is done. -/
theorem stopInstance_of_forall_eq (h : ∀ info, m.find tracker_id = some info → info.pid = -1) :
    stopInstance m tracker_id = ret (m, false) := by
  rw [stopInstance]
  cases hfind : m.find tracker_id with
  | none => rfl
  | some info => exact if_pos (h info hfind)

theorem killInstance_of_forall_eq (h : ∀ info, m.find tracker_id = some info → info.pid = -1) :
    killInstance m tracker_id = ret (m, false) := by
  rw [killInstance]
  cases hfind : m.find tracker_id with
  | none => rfl
  | some info => exact if_pos (h info hfind)

/-! ## Any sequence of calls -/

/-- `cleanup` kills an instance only behind a poll that has found it running. -/
theorem always_cleanupLoop (ids : List Bytes) (m : Instances) (host : Host) :
    SignalsOwn (cleanupLoop ids m) host := by
  induction ids generalizing m host with
  | nil => trivial
  | cons tracker_id ids ih =>
    -- where the instance is found running, its child has not been reaped
    have hpoll : Always Host.step KillsOwn (fun r host' => r.2 = true →
        SignalsOwn (killInstance r.1 tracker_id) host') (isRunning m tracker_id) host := by
      by_cases hpid : ∀ info, m.find tracker_id = some info → info.pid = -1
      · have hsame : Always Host.step KillsOwn (fun r _ => r.1 = m) (isRunning m tracker_id) host :=
          always_isRunning_of_forall_eq (fun _ _ => KillsOwn.of_quiet) hpid
        refine hsame.mono (fun _ _ h => h) fun ⟨m', running⟩ host' heq _ => ?_
        obtain rfl : m' = m := heq
        rw [killInstance_of_forall_eq hpid]
        trivial
      · push Not at hpid
        obtain ⟨info, hfind, hpid⟩ := hpid
        refine always_isRunning (fun _ _ => KillsOwn.of_quiet) hfind hpid ?_ ?_ ?_
        · intro host' _ hchild _
          exact (always_killInstance_iff hfind hpid).mpr ⟨_, hchild⟩
        · intro now wstatus _ _ hfalse
          cases hfalse
        · intro host' _ _ hfalse
          cases hfalse
    refine hpoll.bind fun ⟨m', running⟩ host' hkill => ?_
    cases running with
    | false => exact ih m' host'
    | true => exact (hkill rfl).bind fun r t _ => ih r.1 t

theorem always_cleanup (m : Instances) (host : Host) :
    SignalsOwn (cleanup m) host :=
  (always_cleanupLoop _ m host).bind fun _ _ _ => trivial

theorem entered_stopInstance (m : Instances) (tracker_id : Bytes) (host : Host) :
    Always (under Entered Host.step) KillsOwn (fun _ _ => True) (stopInstance m tracker_id)
      host := by
  by_cases hpid : ∀ info, m.find tracker_id = some info → info.pid = -1
  · rw [stopInstance_of_forall_eq hpid]
    trivial
  · push Not at hpid
    obtain ⟨info, hfind, hpid⟩ := hpid
    rw [stopInstance_of_find hfind hpid]
    exact entered_enter fun _ => always_stopFound

theorem entered_killInstance (m : Instances) (tracker_id : Bytes) (host : Host) :
    Always (under Entered Host.step) KillsOwn (fun _ _ => True) (killInstance m tracker_id)
      host := by
  by_cases hpid : ∀ info, m.find tracker_id = some info → info.pid = -1
  · rw [killInstance_of_forall_eq hpid]
    trivial
  · push Not at hpid
    obtain ⟨info, hfind, hpid⟩ := hpid
    rw [killInstance_of_find hfind hpid]
    exact entered_enter fun _ => always_killFound

theorem entered_runtime (m : Instances) (args : List Bytes) (env : Map Bytes) (host : Host) :
    Always (under Entered Host.step) KillsOwn (fun _ _ => True) (runtime m args env) host := by
  refine (SignalsOwn.of_aside (aside_setupEnvironment env) host).under.bind
    fun runtime_env host _ => ?_
  refine (SignalsOwn.of_aside (aside_setAll runtime_env) host).under.bind fun _ host _ => ?_
  refine (killsOwn_createInstance m args _ host).under.bind fun ⟨m, tracker_id⟩ host _ => ?_
  show Always _ _ _ (if tracker_id = [] then _ else _) _
  split_ifs with hid
  · trivial
  refine (SignalsOwn.of_aside aside_containerLog host).under.bind fun _ host _ => ?_
  refine (killsOwn_waitForInstance m tracker_id TIMEOUT_MS host).under.bind
    fun ⟨m, completed⟩ host _ => ?_
  cases completed with
  | false => exact (entered_killInstance m tracker_id host).bind fun _ _ _ => trivial
  | true =>
    refine (SignalsOwn.of_quiet (quiet_getExitCode m tracker_id) host).under.bind
      fun ⟨m, exit_code⟩ host _ => ?_
    refine (SignalsOwn.of_aside (aside_getLogs m tracker_id 5) host).under.bind fun _ host _ => ?_
    exact (entered_stopInstance m tracker_id host).bind fun _ _ _ => trivial

theorem entered_perform (m : Instances) (call : Call) (host : Host) :
    Always (under Entered Host.step) KillsOwn (fun _ _ => True) (call.perform m) host := by
  cases call with
  | createInstance args log_dir =>
    exact (killsOwn_createInstance m args log_dir host).under.bind fun _ _ _ => trivial
  | getStatus tracker_id =>
    exact (SignalsOwn.of_quiet (quiet_getStatus m tracker_id) host).under.bind fun _ _ _ => trivial
  | isRunning tracker_id =>
    exact (SignalsOwn.of_quiet (quiet_isRunning m tracker_id) host).under.bind fun _ _ _ => trivial
  | getExitCode tracker_id =>
    exact (SignalsOwn.of_quiet (quiet_getExitCode m tracker_id) host).under.bind
      fun _ _ _ => trivial
  | waitForInstance tracker_id timeout_ms =>
    exact (killsOwn_waitForInstance m tracker_id timeout_ms host).under.bind fun _ _ _ => trivial
  | stopInstance tracker_id =>
    exact (entered_stopInstance m tracker_id host).bind fun _ _ _ => trivial
  | killInstance tracker_id =>
    exact (entered_killInstance m tracker_id host).bind fun _ _ _ => trivial
  | cleanup => exact (always_cleanup m host).under
  | runtime args env => exact (entered_runtime m args env host).bind fun _ _ _ => trivial

theorem entered_performAll (calls : List Call) (m : Instances) (host : Host) :
    Always (under Entered Host.step) KillsOwn (fun _ _ => True) (performAll calls m) host := by
  induction calls generalizing m host with
  | nil => trivial
  | cons call calls ih => exact (entered_perform m call host).bind fun m host _ => ih m host

/-! ## `runtime` -/

/-- `runtime` polls its instance until it has stopped, and then stops it. So it signals its own
child only where it has none: every pid belongs to another child, and none can be started. -/
theorem always_runtime_iff (m : Instances) (args : List Bytes) (env : Map Bytes) (host : Host) :
    SignalsOwn (runtime m args env) host ↔ ∀ pid, 0 < pid → host.IsChild pid := by
  constructor
  · intro h
    by_contra! hnone
    obtain ⟨pid, hpos, hchild⟩ := hnone
    obtain ⟨runtime_env, hrun⟩ := runs_aside (aside_setupEnvironment env) host
    have h := (always_bind.mp h).of_runs hrun
    obtain ⟨_, hrun⟩ := runs_aside (aside_setAll runtime_env) host
    have h := (always_bind.mp h).of_runs hrun
    -- the instance is created, and its child ends
    obtain ⟨m', tracker_id, info, created, hrun, hid, hfind, rfl, hended⟩ :=
      runs_createInstance m args (lit "test_logs") hpos hchild (.exited 0)
    have hpid : info.pid ≠ -1 := by omega
    have h := (always_bind.mp h).of_runs hrun
    change Always _ _ _ (if tracker_id = [] then _ else _) _ at h
    rw [if_neg hid] at h
    obtain ⟨_, hrun⟩ := runs_aside aside_containerLog created
    have h := (always_bind.mp h).of_runs hrun
    -- it is seen to have stopped, and its child is reaped
    have hquiet (o : SysOp) (host : Host) (h : o.Quiet) : KillsOwn o host := .of_quiet h
    obtain ⟨⟨m₁, completed⟩, waited, hrun, hcompleted, hcollected⟩ :=
      exists_runs KillsOwn.exists_step (always_waitForInstance_stopped hquiet TIMEOUT_MS
        fun now hnow => always_getStatus_ended hquiet hfind hpid (hnow.procs_ended hended))
    obtain rfl : completed = true := hcompleted
    have h := (always_bind.mp h).of_runs hrun
    -- its exit code and its log are read
    obtain ⟨⟨m₂, exit_code⟩, asked, hrun, _, hcollected⟩ := exists_runs KillsOwn.exists_step
      (always_getExitCode_stopped (always_getStatus_collected hquiet hpid hcollected))
    have h := (always_bind.mp h).of_runs hrun
    obtain ⟨lines, hrun⟩ := runs_aside (aside_getLogs m₂ tracker_id 5) asked
    have h := (always_bind.mp h).of_runs hrun
    -- and it is stopped
    obtain ⟨⟨info', hfind', hsame⟩, hnone, _⟩ := hcollected
    rw [← hsame] at hnone hpid
    have hstop := (always_bind.mp h).mono (fun _ _ h => h) fun _ _ _ => trivial
    exact hnone ((always_stopInstance_iff hfind' hpid).mp hstop)
  · intro hall
    have hquiet (o : SysOp) (host : Host) (h : o.Quiet) : KillsOwn o host := .of_quiet h
    refine (always_aside hquiet (aside_setupEnvironment env)).bind
      fun runtime_env setup hsetup => ?_
    refine (always_aside hquiet (aside_setAll runtime_env)).bind fun _ now hset => ?_
    have henv := hsetup.trans hset
    refine always_bind.mpr (always_createInstance hquiet ?_ ?_)
    · exact fun _ _ _ => trivial
    · -- there is no pid for a child
      intro m' tracker_id info forking host' _ _ _ hpos hforking hfree _
      obtain ⟨ended, hended⟩ := hforking.isChild_iff.mpr (henv.isChild_iff.mpr (hall info.pid hpos))
      rw [hfree] at hended
      cases hended

/-- In every sequence of calls in which `stopInstance` and `killInstance` are entered for children
that have not been reaped, the framework signals its own children only. Without that, `cleanup` does
so always, `stopInstance` and `killInstance` exactly where they are entered for such a child, and
`runtime` exactly where it cannot start one. -/
theorem signalsOwn_of_entered (m : Instances) (host : Host) :
    (∀ calls, Always (under Entered Host.step) KillsOwn (fun _ _ => True) (performAll calls m)
      host) ∧
    SignalsOwn (cleanup m) host ∧
    (∀ tracker_id info, m.find tracker_id = some info → info.pid ≠ -1 →
      (SignalsOwn (stopInstance m tracker_id) host ↔ host.IsChild info.pid) ∧
      (SignalsOwn (killInstance m tracker_id) host ↔ host.IsChild info.pid)) ∧
    ∀ args env, SignalsOwn (runtime m args env) host ↔ ∀ pid, 0 < pid → host.IsChild pid := by
  refine ⟨fun calls => entered_performAll calls m host, always_cleanup m host, ?_, ?_⟩
  · intro tracker_id info hfind hpid
    exact ⟨always_stopInstance_iff hfind hpid, always_killInstance_iff hfind hpid⟩
  · exact fun args env => always_runtime_iff m args env host

/-- One call of `runtime` is enough. -/
theorem not_signalsOwn_runtime : ¬ SignalsOwn (performAll [.runtime [] []] []) Host.fresh := by
  intro h
  -- what the call does to `m_instances` does not matter
  have hcall : SignalsOwn (runtime [] [] []) Host.fresh :=
    (always_bind.mp (always_bind.mp h)).mono (fun _ _ h => h) fun _ _ _ => trivial
  exact Host.not_isChild_fresh 1 ((always_runtime_iff [] [] [] _).mp hcall 1 one_pos)

end TestSuite
