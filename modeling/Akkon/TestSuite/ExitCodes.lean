import Akkon.TestSuite.Rules

/-!
# The exit code of an instance

`waitpid` hands out the status of a child once, and `getStatus` does not keep the exit code. So the
first poll behind the end of a child returns the exit code, and every later one `-1`.

* `ExitedWith`: the child has ended with this code, whether or not it has been reaped;
* `Call.Queries`: the calls that poll an instance;
* `getExitCode_returns_iff`: `getExitCode` returns the code of a child that has ended exactly where
  nothing has polled the instance since; `runtime` has always polled it, and returns `-1`.
-/

namespace TestSuite

open Cpp Prog

/-- No loop runs out of fuel. -/
def NoSpin (o : SysOp) (_ : Host) : Prop := o ≠ .spin

theorem SysOp.Quiet.ne_spin {o : SysOp} (h : o.Quiet) : o ≠ .spin := by
  rintro rfl
  exact h

theorem NoSpin.of_quiet {o : SysOp} {host : Host} (h : o.Quiet) : NoSpin o host := h.ne_spin

theorem NoSpin.exists_step (o : SysOp) (host : Host) (h : NoSpin o host) :
    ∃ r host', host.step o r host' :=
  Host.exists_step h host

/-- Every run of the program returns this exit code. -/
abbrev Returns (p : Sys (Instances × ℤ)) (host : Host) (exit_code : ℤ) : Prop :=
  Always Host.step NoSpin (fun r _ => r.2 = exit_code) p host

/-- The child has ended with this code, and may have been reaped. -/
def ExitedWith (host : Host) (pid : ℤ) (code : UInt8) : Prop :=
  host.procs pid = .child (some (.exited code)) ∨
    ¬ host.IsChild pid ∧ host.reaped pid = some (.exited code)

/-- The call polls this instance. -/
def Call.Queries (tracker_id : Bytes) : Call → Prop
  | .getStatus id => id = tracker_id
  | .isRunning id => id = tracker_id
  | .getExitCode id => id = tracker_id
  | .waitForInstance id _ => id = tracker_id
  | _ => False

variable {m : Instances} {tracker_id : Bytes} {info : InstanceInfo} {host : Host} {pid : ℤ}
  {wstatus : WStatus} {call : Call} {calls : List Call}

/-! ## What a query leaves behind -/

/-- What holds behind every poll holds behind every call that polls. -/
theorem always_perform {I J : Instances → Host → Prop} (hcall : call.Queries tracker_id)
    (hpoll : ∀ m host, I m host →
      Always Host.step NoSpin (fun r host' => J r.1 host') (getStatus m tracker_id) host)
    (hI : ∀ m host host', host.Env host' → I m host → I m host')
    (hJ : ∀ m host host', host.Env host' → J m host → J m host')
    (hJI : ∀ m host, J m host → I m host) (h : I m host) :
    Always Host.step NoSpin J (call.perform m) host := by
  have hrunning (m : Instances) (host : Host) (h : I m host) :
      Always Host.step NoSpin (fun r host' => J r.1 host') (isRunning m tracker_id) host :=
    (hpoll m host h).bind fun _ _ hafter => hafter
  have hcode : Always Host.step NoSpin (fun r host' => J r.1 host') (getExitCode m tracker_id)
      host := (hpoll m host h).bind fun _ _ hafter => hafter
  cases call with
  | getStatus id =>
    obtain rfl := hcall
    exact (hpoll m host h).bind fun _ _ hafter => hafter
  | isRunning id =>
    obtain rfl := hcall
    exact (hrunning m host h).bind fun _ _ hafter => hafter
  | getExitCode id =>
    obtain rfl := hcall
    exact hcode.bind fun _ _ hafter => hafter
  | waitForInstance id timeout_ms =>
    obtain rfl := hcall
    -- every round polls, whatever the poll says
    have hround (m : Instances) (host : Host) (h : I m host) : Always Host.step NoSpin
        (fun r host' => if r.2 then J r.1 host' else J r.1 host') (isRunning m id) host := by
      simpa only [ite_self] using hrunning m host h
    have hwait : Always Host.step NoSpin (fun r host' => if r.2 then J r.1 host' else J r.1 host')
        (waitForInstance m id timeout_ms) host :=
      always_waitForInstance (fun _ _ => NoSpin.of_quiet) hround hI hJ hJI h
    simp only [ite_self] at hwait
    exact hwait.bind fun _ _ hafter => hafter
  | _ => exact hcall.elim

/-- A poll reaps the child that has ended, and no poll brings its status back. -/
theorem always_perform_collected (hcall : call.Queries tracker_id) (hpid : pid ≠ -1)
    (h : (∃ info, m.find tracker_id = some info ∧ info.pid = pid) ∧
        host.procs pid = .child (some wstatus) ∨ Collected tracker_id pid wstatus m host) :
    Always Host.step NoSpin (Collected tracker_id pid wstatus) (call.perform m) host := by
  have hquiet (o : SysOp) (host : Host) (h : o.Quiet) : NoSpin o host := .of_quiet h
  refine always_perform hcall (I := fun m host =>
    (∃ info, m.find tracker_id = some info ∧ info.pid = pid) ∧
      host.procs pid = .child (some wstatus) ∨ Collected tracker_id pid wstatus m host) ?_ ?_ ?_
    (fun _ _ => .inr) h
  · rintro m host (⟨⟨info, hfind, rfl⟩, hended⟩ | hcollected)
    · exact (always_getStatus_ended hquiet hfind hpid hended).mono (fun _ _ h => h)
        fun _ _ hafter => hafter.2.2
    · exact (always_getStatus_collected hquiet hpid hcollected).mono (fun _ _ h => h)
        fun _ _ hafter => hafter.2.2
  · rintro m host host' henv (⟨hrecorded, hended⟩ | hcollected)
    · exact .inl ⟨hrecorded, henv.procs_ended hended⟩
    · exact .inr (hcollected.of_env henv)
  · exact fun m host host' henv hcollected => hcollected.of_env henv

theorem always_performAll_collected (hcalls : ∀ call ∈ calls, call.Queries tracker_id)
    (hpid : pid ≠ -1) (h : Collected tracker_id pid wstatus m host) :
    Always Host.step NoSpin (Collected tracker_id pid wstatus) (performAll calls m) host := by
  induction calls generalizing m host with
  | nil => exact h
  | cons call calls ih =>
    rw [List.forall_mem_cons] at hcalls
    exact (always_perform_collected hcalls.1 hpid (.inr h)).bind fun m' host' => ih hcalls.2

/-- The pid of the instance stays the same. -/
theorem always_performAll_recorded (hcalls : ∀ call ∈ calls, call.Queries tracker_id)
    (hpid : pid ≠ -1) (h : ∃ info, m.find tracker_id = some info ∧ info.pid = pid) :
    Always Host.step NoSpin (fun m' _ => ∃ info, m'.find tracker_id = some info ∧ info.pid = pid)
      (performAll calls m) host := by
  induction calls generalizing m host with
  | nil => exact h
  | cons call calls ih =>
    rw [List.forall_mem_cons] at hcalls
    refine (always_perform hcalls.1 (I := fun m _ =>
      ∃ info, m.find tracker_id = some info ∧ info.pid = pid) ?_ (fun _ _ _ _ h => h)
      (fun _ _ _ _ h => h) (fun _ _ h => h) h).bind fun m' host' => ih hcalls.2
    rintro m host ⟨info, hfind, rfl⟩
    refine always_getStatus (fun _ _ => NoSpin.of_quiet) hfind hpid ?_ ?_ ?_
    · exact fun _ _ _ _ _ _ => ⟨info, hfind, rfl⟩
    · exact fun _ _ _ _ _ _ _ => ⟨_, Instances.find_setStatus hfind _, rfl⟩
    · exact fun _ _ _ _ _ _ => ⟨_, Instances.find_setStatus hfind _, rfl⟩

/-! ## The exit code -/

/-- Where the child has not been reaped, its status is handed out now. Elsewhere there is none. -/
theorem always_getExitCode_iff {code : UInt8} (hfind : m.find tracker_id = some info)
    (hpid : info.pid ≠ -1) (hexited : ExitedWith host info.pid code) :
    Returns (getExitCode m tracker_id) host code.toNat ↔ host.IsChild info.pid := by
  have hquiet (o : SysOp) (host : Host) (h : o.Quiet) : NoSpin o host := .of_quiet h
  rcases hexited with hended | ⟨hnone, hreaped⟩
  · refine iff_of_true ?_ ⟨_, hended⟩
    exact (always_getExitCode_stopped (always_getStatus_ended hquiet hfind hpid hended)).mono
      (fun _ _ h => h) fun _ _ hafter => hafter.1
  · refine iff_of_false (fun h => ?_) hnone
    have hcollected : Collected tracker_id info.pid (.exited code) m host :=
      ⟨⟨info, hfind, rfl⟩, hnone, hreaped⟩
    obtain ⟨⟨m', exit_code⟩, host', hrun, hcode, _⟩ := exists_runs NoSpin.exists_step
      (always_getExitCode_stopped (always_getStatus_collected hquiet hpid hcollected))
    have hexact : exit_code = code.toNat := h.of_runs hrun
    -- an exit code is not negative
    change exit_code = -1 at hcode
    omega

/-- Behind the end of the child, `getExitCode` has to be the first call that polls. -/
theorem always_performAll_getExitCode_iff {code : UInt8} (hfind : m.find tracker_id = some info)
    (hpid : info.pid ≠ -1) (hended : host.procs info.pid = .child (some (.exited code)))
    (hcalls : ∀ call ∈ calls, call.Queries tracker_id) :
    Returns (performAll calls m >>= fun m => getExitCode m tracker_id) host code.toNat ↔
      calls = [] := by
  cases calls with
  | nil =>
    refine iff_of_true ?_ rfl
    exact (always_getExitCode_iff hfind hpid (.inl hended)).mpr ⟨_, hended⟩
  | cons call calls =>
    refine iff_of_false (fun h => ?_) (List.cons_ne_nil _ _)
    rw [List.forall_mem_cons] at hcalls
    -- the first call collects the status
    have hafter : Always Host.step NoSpin (Collected tracker_id info.pid (.exited code))
        (performAll (call :: calls) m) host :=
      (always_perform_collected hcalls.1 hpid (.inl ⟨⟨info, hfind, rfl⟩, hended⟩)).bind
        fun _ _ => always_performAll_collected hcalls.2 hpid
    obtain ⟨m', host', hrun, ⟨info', hfind', hsame⟩, hnone, hreaped⟩ :=
      exists_runs NoSpin.exists_step hafter
    rw [← hsame] at hnone hreaped hpid
    have hcode := (always_bind.mp h).of_runs hrun
    exact hnone ((always_getExitCode_iff hfind' hpid (.inr ⟨hnone, hreaped⟩)).mp hcode)

/-! ## `runtime` -/

theorem noSpin_stopInstance (m : Instances) (tracker_id : Bytes) :
    (stopInstance m tracker_id).AllOps (· ≠ .spin) := by
  rw [stopInstance]
  cases m.find tracker_id with
  | none => exact allOps_ret _ _
  | some info =>
    show Prog.AllOps _ (if info.pid = -1 then _ else _)
    split_ifs
    · exact allOps_ret _ _
    refine ⟨by simp, fun _ => ⟨by simp, fun result => ?_⟩⟩
    cases result with
    | collected wstatus => exact allOps_ret _ _
    | running | echild =>
      refine ⟨by simp, fun failed => ?_⟩
      cases failed with
      | none => exact (quiet_graceLoop m tracker_id info.pid 20).mono fun _ h => h.ne_spin
      | some errno => cases errno <;> exact allOps_ret _ _

theorem noSpin_killInstance (m : Instances) (tracker_id : Bytes) :
    (killInstance m tracker_id).AllOps (· ≠ .spin) := by
  rw [killInstance]
  cases m.find tracker_id with
  | none => exact allOps_ret _ _
  | some info =>
    show Prog.AllOps _ (if info.pid = -1 then _ else _)
    split_ifs
    · exact allOps_ret _ _
    · exact ⟨by simp, fun _ => ⟨by simp, fun _ => ⟨by simp, fun _ => allOps_ret _ _⟩⟩⟩

/-- `runtime` waits until a poll has found its instance stopped, and asks for the exit code then. -/
theorem always_runtime (m : Instances) (args : List Bytes) (env : Map Bytes) (host : Host) :
    Returns (runtime m args env) host (-1) := by
  have hquiet (o : SysOp) (host : Host) (h : o.Quiet) : NoSpin o host := .of_quiet h
  refine (always_aside hquiet (aside_setupEnvironment env)).bind fun runtime_env host _ => ?_
  refine (always_aside hquiet (aside_setAll runtime_env)).bind fun _ host _ => ?_
  refine always_bind.mpr (always_createInstance hquiet (fun _ _ _ => rfl) ?_)
  intro m tracker_id info forking created hid hfind hrunning hpos _ _ hcreated
  have hpid : info.pid ≠ -1 := by omega
  show Always _ _ _ (if tracker_id = [] then _ else _) _
  rw [if_neg hid]
  refine (always_aside hquiet aside_containerLog).bind fun _ waiting hlogged => ?_
  have hchild := (hcreated.trans hlogged).isChild_iff.mpr (Host.isChild_start forking info.pid)
  -- the instance has its child, until a poll has reaped it
  have hwait : Always Host.step NoSpin (fun r host' => if r.2 then
      ∃ wstatus, Collected tracker_id info.pid wstatus r.1 host'
      else r.1.find tracker_id = some info ∧ host'.IsChild info.pid)
      (waitForInstance m tracker_id TIMEOUT_MS) waiting := by
    refine always_waitForInstance
      (I := fun m host => m.find tracker_id = some info ∧ host.IsChild info.pid)
      (J := fun m host => ∃ wstatus, Collected tracker_id info.pid wstatus m host)
      (K := fun m host => m.find tracker_id = some info ∧ host.IsChild info.pid)
      hquiet ?_ ?_ ?_ (fun _ _ h => h) ⟨hfind, hchild⟩
    · rintro m host ⟨hfind, hchild⟩
      refine always_isRunning hquiet hfind hpid ?_ ?_ ?_
      · intro host' henv _
        rw [hrunning]
        exact ⟨hfind, henv.isChild_iff.mpr hchild⟩
      · intro now wstatus _ _
        exact ⟨wstatus, ⟨_, Instances.find_setStatus hfind _, rfl⟩, Host.not_isChild_reap _ _ _,
          Function.update_self ..⟩
      · exact fun host' henv hnone => absurd (henv.isChild_iff.mpr hchild) hnone
    · exact fun _ _ _ henv h => ⟨h.1, henv.isChild_iff.mpr h.2⟩
    · exact fun _ _ _ henv h => ⟨h.1, henv.isChild_iff.mpr h.2⟩
  refine hwait.bind fun ⟨m, completed⟩ host' hcompleted => ?_
  cases completed with
  | false =>
    exact (Always.of_allOps (fun _ _ h => h) (noSpin_killInstance m tracker_id) host').bind
      fun _ _ _ => rfl
  | true =>
    obtain ⟨wstatus, hcollected⟩ := hcompleted
    refine (always_getExitCode_stopped (always_getStatus_collected hquiet hpid hcollected)).bind
      fun ⟨m, exit_code⟩ host' ⟨hcode, _⟩ => ?_
    obtain rfl : exit_code = -1 := hcode
    refine (always_aside hquiet (aside_getLogs m tracker_id 5)).bind fun _ host' _ => ?_
    exact (Always.of_allOps (fun _ _ h => h) (noSpin_stopInstance m tracker_id) host').bind
      fun _ _ _ => rfl

/-! ## When the exit code is reported -/

/-- The pid of an instance that has been created. -/
theorem pos_of_created {m₀ : Instances} {args : List Bytes} {log_dir : Bytes} {host₀ : Host}
    (hcreate : Runs Host.step (createInstance m₀ args log_dir) host₀ (m, tracker_id) host)
    (hid : tracker_id ≠ []) (hfind : m.find tracker_id = some info) : 0 < info.pid := by
  have hcreated : Always Host.step NoSpin
      (fun r _ => r.2 ≠ [] → ∀ info, r.1.find r.2 = some info → 0 < info.pid)
      (createInstance m₀ args log_dir) host₀ := by
    refine always_createInstance (fun _ _ => NoSpin.of_quiet) (fun _ _ _ h => absurd rfl h) ?_
    intro m tracker_id info _ _ _ hfind _ hpos _ _ _ _ info' hfind'
    obtain rfl : info = info' := Option.some.inj (hfind.symm.trans hfind')
    exact hpos
  exact hcreated.of_runs hcreate hid info hfind

/-- On an instance that has been created, behind any calls that poll it, `getExitCode` returns the
code of the child that has ended exactly where none of the calls has collected it; and then no other
call may come first. `runtime` always returns `-1`. -/
theorem getExitCode_returns_iff (m₀ : Instances) (args : List Bytes) (host₀ : Host) :
    (∀ (log_dir : Bytes) (m : Instances) (tracker_id : Bytes) (info : InstanceInfo) (host : Host),
      Runs Host.step (createInstance m₀ args log_dir) host₀ (m, tracker_id) host →
      tracker_id ≠ [] → m.find tracker_id = some info →
      ∀ calls : List Call, (∀ call ∈ calls, call.Queries tracker_id) →
      ∀ (m' : Instances) (host' : Host) (code : UInt8),
        Runs Host.step (performAll calls m) host m' host' → ExitedWith host' info.pid code →
        (Returns (getExitCode m' tracker_id) host' code.toNat ↔ host'.IsChild info.pid) ∧
        (host'.IsChild info.pid → ∀ later : List Call, (∀ call ∈ later, call.Queries tracker_id) →
          (Returns (performAll later m' >>= fun m => getExitCode m tracker_id) host' code.toNat ↔
            later = []))) ∧
    ∀ env : Map Bytes, Returns (runtime m₀ args env) host₀ (-1) := by
  refine ⟨?_, fun env => always_runtime m₀ args env host₀⟩
  intro log_dir m tracker_id info host hcreate hid hfind calls hcalls m' host' code hrun hexited
  have hpid : info.pid ≠ -1 := by
    have hpos := pos_of_created hcreate hid hfind
    omega
  -- the calls have kept the pid
  have hrecorded : Always Host.step NoSpin
      (fun m' _ => ∃ info', m'.find tracker_id = some info' ∧ info'.pid = info.pid)
      (performAll calls m) host := always_performAll_recorded hcalls hpid ⟨info, hfind, rfl⟩
  obtain ⟨info', hfind', hsame⟩ := hrecorded.of_runs hrun
  rw [← hsame] at hexited hpid ⊢
  refine ⟨always_getExitCode_iff hfind' hpid hexited, fun hchild later hlater => ?_⟩
  refine always_performAll_getExitCode_iff hfind' hpid ?_ hlater
  exact hexited.resolve_right fun hcollected => hcollected.1 hchild

/-- A child ends with 7 before anything polls it: the code is returned, in every run, and there is
one. -/
theorem getExitCode_returns_seven :
    ∃ (m : Instances) (tracker_id : Bytes) (info : InstanceInfo) (host : Host),
      Runs Host.step (createInstance [] [] []) Host.fresh (m, tracker_id) host ∧
      m.find tracker_id = some info ∧ host.procs info.pid = .child (some (.exited 7)) ∧
      Returns (getExitCode m tracker_id) host 7 ∧
      ∃ m' host', Runs Host.step (getExitCode m tracker_id) host (m', 7) host' := by
  obtain ⟨m, tracker_id, info, host, hrun, hid, hfind, hpid, hended⟩ :=
    runs_createInstance [] [] [] one_pos (Host.not_isChild_fresh 1) (.exited 7)
  have hseven : host.procs info.pid = .child (some (.exited 7)) := hpid ▸ hended
  have hreturns : Returns (getExitCode m tracker_id) host 7 :=
    ((getExitCode_returns_iff [] [] Host.fresh).1 [] m tracker_id info host hrun hid hfind []
      (by simp) m host 7 (.ret m host) (.inl hseven)).1.mpr ⟨_, hseven⟩
  obtain ⟨⟨m', exit_code⟩, host', hrun', rfl⟩ := exists_runs NoSpin.exists_step hreturns
  exact ⟨m, tracker_id, info, host, hrun, hfind, hseven, hreturns, m', host', hrun'⟩

/-- One `isRunning` is enough: a child that has ended with 7, and an exit code that is not 7. -/
theorem not_returns_isRunning :
    ∃ (m : Instances) (tracker_id : Bytes) (info : InstanceInfo) (host : Host),
      Runs Host.step (createInstance [] [] []) Host.fresh (m, tracker_id) host ∧
      tracker_id ≠ [] ∧ m.find tracker_id = some info ∧
      host.procs info.pid = .child (some (.exited 7)) ∧
      ¬ Returns (performAll [.isRunning tracker_id] m >>= fun m => getExitCode m tracker_id) host
        7 := by
  obtain ⟨m, tracker_id, info, host, hrun, hid, hfind, hpid, hended⟩ :=
    runs_createInstance [] [] [] one_pos (Host.not_isChild_fresh 1) (.exited 7)
  have hseven : host.procs info.pid = .child (some (.exited 7)) := hpid ▸ hended
  refine ⟨m, tracker_id, info, host, hrun, hid, hfind, hseven, fun h => ?_⟩
  have hqueries : ∀ call ∈ [Call.isRunning tracker_id], call.Queries tracker_id := by
    simp [Call.Queries]
  -- a call comes between
  have hnil := (always_performAll_getExitCode_iff hfind (by omega) hseven hqueries).mp h
  cases hnil

end TestSuite
