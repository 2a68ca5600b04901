import Akkon.Main.Process

/-!
# Replies and actions reach their connection

An fd number outlives the connection it was taken from: it sits in tasks, in pending actions and in
`ws_clients` while the server loop closes the socket, and `accept` may give the number to the next
client. Everything that is sent or applied through a number reaches the connection it was meant for
as long as this does not happen.

* `Process.Refers`: what still holds an fd number, and for which connection;
* `Process.Addressed`: every reply of a handler and every applied action reached its connection;
* `addressed_of_noReuse`: this holds in every run in which `accept` returns no number that something
  still holds;
* `not_addressed_lockdownRun`: and it fails without that, when a lockdown closes the connection of a
  handler at work and a new client gets its number.
-/

namespace Main

open Cpp Security

namespace Process

/-- Something holds an fd number for a connection: a queued task, a handler with a call ahead, an
action, an entry of `ws_clients`, or the loop over them. -/
inductive Refers (p : Process) : ℤ → ℕ → Prop
  | queued {task : Server.Task} : task ∈ p.server.m_tasks → Refers p task.fd task.conn
  | running {w : Fin Server.threadPoolSize} {task : Server.Task} {o : HandlerOp}
    {k : o.Res → Handler Unit} : p.workers w = some ⟨task, .op o k⟩ → Refers p task.fd task.conn
  | action {action : Server.ClientAction} :
    action ∈ p.server.actionList → Refers p action.fd action.conn
  | client {fd : ℤ} : fd ∈ p.ws_clients → Refers p fd (p.owner fd)
  | pass {fd : ℤ} : fd ∈ p.passClients → Refers p fd (p.owner fd)

/-- `accept` does not return an fd number that something still holds. -/
def NoReuse (p : Process) (l : Label) : Prop :=
  ∀ env, l = .loop env → ∀ fd, p.server.accepts env = some fd → ∀ conn, ¬ p.Refers fd conn

/-- Every byte that a handler sent went to its own connection, and every action was applied to the
connection it was meant for. -/
structure Addressed (p : Process) : Prop where
  sent : ∀ conn conn' data taken,
    .sent (.handler conn) conn' data taken ∈ p.server.trace → conn' = conn
  applied : ∀ action conn, .applied action conn ∈ p.server.trace → conn = action.conn

/-- An event that went through an fd number held for a connection. -/
def ThroughRef (p : Process) : Server.Event → Prop
  | .sent (.handler conn) conn' _ _ => ∃ fd, p.Refers fd conn ∧ p.server.sockets fd = some conn'
  | .applied action conn => p.Refers action.fd action.conn ∧ p.server.sockets action.fd = some conn
  | _ => True

/-! ## One step -/

section Step

variable {p p' : Process} {l : Label}

/-- What a step of the process does to the sockets, to what holds fd numbers and to the trace. -/
structure RefStep (p : Process) (l : Label) (p' : Process) : Prop where
  opened : ∀ fd conn, p'.server.sockets fd = some conn → p.server.sockets fd = some conn ∨
    ∃ env, l = .loop env ∧ p.server.accepts env = some fd ∧ p.server.sockets fd = none
  refers : ∀ fd conn, p'.Refers fd conn → p.Refers fd conn ∨ p.server.sockets fd = some conn
  trace : ∀ e ∈ p'.server.trace, e ∈ p.server.trace ∨ p.ThroughRef e

theorem refStep_loop {env : Server.LoopEnv} {server : Server}
    (h : Server.LoopStep env p.server server) : RefStep p (.loop env) { p with server } where
  opened fd conn hfd := (h.opened fd conn hfd).imp_right fun hnew => ⟨env, rfl, hnew⟩
  refers fd conn hrefers := by
    cases hrefers with
    | queued htask => exact (h.tasks _ htask).imp .queued And.left
    | running hworker => exact Or.inl (.running hworker)
    | action haction => exact Or.inl (.action (h.actions _ haction))
    | client hfd => exact Or.inl (.client hfd)
    | pass hfd => exact Or.inl (.pass hfd)
  trace e he := by
    obtain ⟨new, hnew, hevents⟩ := h.trace
    simp only [hnew, List.mem_append] at he
    refine he.symm.imp_right fun he => ?_
    -- the loop itself sends nothing
    have hevent := hevents e he
    cases e with
    | applied action conn => exact ⟨.action hevent.1, hevent.2⟩
    | sent author conn data taken => exact hevent.elim
    | _ => trivial

theorem refStep_pass {payload : Bytes} {taken : Option ℕ} (h : PassStep p p') :
    RefStep p (.pass payload taken) p' where
  opened fd conn hfd := Or.inl (h.sockets ▸ hfd)
  refers fd conn hrefers := by
    refine Or.inl ?_
    cases hrefers with
    | queued htask => exact .queued (h.tasks ▸ htask)
    | running hworker => exact .running (h.workers ▸ hworker)
    | action haction =>
      -- a new action is for a client the loop has come to
      rcases h.actions _ haction with haction | ⟨hfd, hconn⟩
      · exact .action haction
      · rw [hconn]
        exact .pass hfd
    | client hfd =>
      rw [h.owner]
      exact .client (h.clients _ hfd)
    | pass hfd =>
      rw [h.owner]
      exact (h.passClients _ hfd).elim .pass .client
  trace e he := by
    obtain ⟨new, hnew, hevents⟩ := h.trace
    rw [hnew, List.mem_append] at he
    refine he.symm.imp_right fun he => ?_
    obtain ⟨conn, data, n, rfl⟩ := hevents e he
    trivial

/-- The next call of a running handler goes through the fd number of its task. -/
theorem refStep_answer {w : Fin Server.threadPoolSize} {env : HandlerEnv} {taken : Option ℕ}
    {task : Server.Task} {o : HandlerOp} {k : o.Res → Handler Unit} {q : Process}
    (hworker : p.workers w = some ⟨task, .op o k⟩) (h : Answer p task o q)
    (program : Handler Unit) :
    RefStep p (.worker w env taken) (q.setWorker w (some ⟨task, program⟩)) where
  opened fd conn hfd := Or.inl (h.sockets ▸ hfd)
  refers fd conn hrefers := by
    have hself : p.Refers task.fd task.conn := .running hworker
    -- an owner stays, or it becomes the connection of the task
    have howner : ∀ fd, p.Refers fd (p.owner fd) → p.Refers fd (q.owner fd) := by
      intro fd hfd
      rcases h.owner fd with heq | ⟨rfl, heq⟩
      · rwa [heq]
      · rwa [heq]
    refine Or.inl ?_
    cases hrefers with
    | queued htask => exact .queued (h.tasks ▸ htask)
    | running hworker' =>
      rcases running_of_update hworker' with hnew | hold
      · obtain rfl := congrArg Running.task (Option.some.inj hnew)
        exact hself
      · exact .running (h.workers ▸ hold)
    | action haction =>
      rcases h.actions _ haction with haction | ⟨hfd, hconn⟩
      · exact .action haction
      · rw [hfd, hconn]
        exact hself
    | client hfd =>
      rcases h.clients _ hfd with hfd | ⟨rfl, hconn, -⟩
      · exact howner _ (.client hfd)
      · change p.Refers task.fd (q.owner task.fd)
        rwa [hconn]
    | @pass fd hfd =>
      refine howner _ (.pass ?_)
      have hpass : (q.setWorker w (some ⟨task, program⟩)).passClients = p.passClients := by
        simp only [passClients, setWorker, h.pass]
      rwa [← hpass]
  trace e he := by
    obtain ⟨new, hnew, hevents⟩ := h.trace
    change e ∈ q.server.trace at he
    rw [hnew, List.mem_append] at he
    refine he.symm.imp_right fun he => ?_
    have hevent := hevents e he
    cases e with
    | sent author conn data taken =>
      -- the reply goes through the number of the task
      obtain ⟨rfl, hconn, -⟩ := hevent
      exact ⟨task.fd, .running hworker, hconn⟩
    | applied action conn => exact hevent.elim
    | _ => trivial

/-- A step that changes the workers, the queue, the lockdown state or the flag of the process only,
and gives no worker an fd number that was not held before. -/
theorem refStep_workers {workers : Fin Server.threadPoolSize → Option Running}
    {m_tasks : List Server.Task} (lockdown : LockdownState) (terminated : Bool)
    (hworkers : ∀ w task o k, workers w = some ⟨task, .op o k⟩ → p.Refers task.fd task.conn)
    (htasks : ∀ task ∈ m_tasks, task ∈ p.server.m_tasks) :
    RefStep p l
      { p with server := { p.server with m_tasks }, workers, lockdown, terminated } where
  opened _ _ hfd := Or.inl hfd
  refers fd conn hrefers := by
    refine Or.inl ?_
    cases hrefers with
    | queued htask => exact .queued (htasks _ htask)
    | running hworker => exact hworkers _ _ _ _ hworker
    | action haction => exact .action haction
    | client hfd => exact .client hfd
    | pass hfd => exact .pass hfd
  trace _ he := Or.inl he

/-- What a step of the process does. -/
theorem step_refStep (h : p.step l = some p') : RefStep p l p' := by
  have hrunning : ∀ w task o k, p.workers w = some ⟨task, .op o k⟩ → p.Refers task.fd task.conn :=
    fun _ _ _ _ => .running
  -- a worker that is given something else to run
  have hupdate (w : Fin Server.threadPoolSize) (running : Option Running)
      (hnew : ∀ task o k, running = some ⟨task, .op o k⟩ → p.Refers task.fd task.conn) :
      ∀ w' task o k, Function.update p.workers w running w' = some ⟨task, .op o k⟩ →
        p.Refers task.fd task.conn := by
    intro w' task o k hworker
    rcases running_of_update hworker with hworker | hworker
    · exact hnew task o k hworker
    · exact .running hworker
  cases step_cases h with
  | @setLockdown state => exact refStep_workers state p.terminated hrunning fun _ htask => htask
  | loop hserver => exact refStep_loop (Server.loopStep_spec hserver)
  | @take w env taken task m_tasks htasks =>
    -- the worker takes a task, which the queue held before
    refine refStep_workers p.lockdown p.terminated (hupdate w _ fun task' o k heq => ?_)
      fun task' htask' => ?_
    · obtain rfl : task = task' := congrArg Running.task (Option.some.inj heq)
      exact .queued (by simp [htasks])
    · exact htasks ▸ List.mem_cons_of_mem _ htask'
  | done =>
    exact refStep_workers p.lockdown p.terminated (hupdate _ none (by simp)) fun _ htask => htask
  | terminate => exact refStep_workers p.lockdown true hrunning fun _ htask => htask
  | call hworker hanswer => exact refStep_answer hworker (answer_spec hanswer) _
  | pass hpass => exact refStep_pass (passStep_spec hpass)

/-- The invariant: an fd number that is held stands for the connection it is held for, or is not
open. -/
structure Faithful (p : Process) : Prop where
  refers : ∀ fd conn, p.Refers fd conn → ∀ conn', p.server.sockets fd = some conn' → conn' = conn
  addressed : p.Addressed

theorem Faithful.step (hp : Faithful p) (hok : p.NoReuse l) (h : p.step l = some p') :
    Faithful p' := by
  have hstep := step_refStep h
  refine ⟨fun fd conn hrefers conn' hopen => ?_, fun conn conn' data taken he => ?_,
    fun action conn he => ?_⟩
  · rcases hstep.opened fd conn' hopen with hold | ⟨env, hl, haccepts, hfree⟩
    · -- the number is open for the same connection as before
      rcases hstep.refers fd conn hrefers with hrefers | hopen'
      · exact hp.refers fd conn hrefers conn' hold
      · exact Option.some.inj (hold.symm.trans hopen')
    · -- `accept` has returned the number, so nothing holds it
      rcases hstep.refers fd conn hrefers with hrefers | hopen'
      · exact absurd hrefers (hok env hl fd haccepts conn)
      · rw [hfree] at hopen'
        cases hopen'
  · rcases hstep.trace _ he with he | ⟨fd, hrefers, hopen⟩
    · exact hp.addressed.sent conn conn' data taken he
    · exact hp.refers fd conn hrefers conn' hopen
  · rcases hstep.trace _ he with he | ⟨hrefers, hopen⟩
    · exact hp.addressed.applied action conn he
    · exact hp.refers action.fd action.conn hrefers conn hopen

end Step

end Process

/-- In every run in which `accept` returns no fd number that something still holds, replies and
actions reach the connection they are meant for. -/
theorem addressed_of_noReuse (m_server_fd : ℤ) (service : Service) {p : Process}
    (h : (processSystem m_server_fd service).ReachableUnder Process.NoReuse p) : p.Addressed := by
  refine (h.invariant (I := Process.Faithful) ?_
    fun _ _ _ hp hok hstep => hp.step hok hstep).addressed
  rintro p rfl
  refine ⟨fun fd conn _ conn' hopen => ?_, fun _ _ _ _ he => ?_, fun _ _ he => ?_⟩
  · cases hopen
  · cases he
  · cases he

/-! ## A number that is used again -/

namespace Process

def optionsRequest : Bytes := lit "OPTIONS * HTTP/1.1\r\n\r\n"

/-- A client on `5` sends a request and is answered and closed; then the next client gets `5`, sends
its request and is answered. -/
def reuseRun : List Label :=
  acceptFirst 3 5 ++ receiveFirst 5 optionsRequest ++ work 6 ++ [idle, idle, idle, idle, idle] ++
    acceptFirst 3 5 ++ receiveFirst 5 optionsRequest ++ work 5

/-- A lockdown closes the client on `5` while a worker is at its request, and the next client gets
`5` before the worker replies. -/
def lockdownRun : List Label :=
  acceptFirst 3 5 ++ receiveFirst 5 optionsRequest ++ work 3 ++ [.setLockdown .IMMEDIATE] ++
    [idle, idle] ++ pollFor 3 (some 5) ++ work 1

/-- A handler for the connection has sent to it, or to another one. -/
def sentFrom (conn conn' : ℕ) (e : Server.Event) : Bool :=
  match e with
  | .sent (.handler c) c' _ _ => c == conn && c' == conn'
  | _ => false

theorem sentFrom_eq_true {conn conn' : ℕ} {e : Server.Event} (h : sentFrom conn conn' e = true) :
    ∃ data taken, e = .sent (.handler conn) conn' data taken := by
  unfold sentFrom at h
  split at h
  · next c c' data taken =>
    obtain ⟨rfl, rfl⟩ : c = conn ∧ c' = conn' := by simpa using h
    exact ⟨data, taken, rfl⟩
  · cases h

/-- `accept` returns a number only while nothing at all holds one. -/
def acceptsAlone (p : Process) : Label → Bool
  | .loop env => (p.server.accepts env).isNone ||
      (p.server.m_tasks.isEmpty && p.server.actionList.isEmpty && p.ws_clients.isEmpty &&
        p.passClients.isEmpty && (List.finRange _).all fun w => (p.workers w).isNone)
  | _ => true

theorem noReuse_of_acceptsAlone {p : Process} {l : Label} (h : p.acceptsAlone l = true) :
    p.NoReuse l := by
  rintro env rfl fd haccepts conn hrefers
  simp only [acceptsAlone, haccepts, Option.isNone_some, Bool.false_or, Bool.and_eq_true,
    List.isEmpty_iff, List.all_eq_true, Option.isNone_iff_eq_none] at h
  obtain ⟨⟨⟨⟨htasks, hactions⟩, hclients⟩, hpass⟩, hworkers⟩ := h
  cases hrefers with
  | queued htask => simp [htasks] at htask
  | @running w task o k hworker =>
    rw [hworkers w (List.mem_finRange w)] at hworker
    cases hworker
  | action haction => simp [hactions] at haction
  | client hfd => simp [hclients] at hfd
  | pass hfd => simp [hpass] at hfd

end Process

open Process

/-- Two clients in a row on one number get their own replies. -/
theorem addressed_reuseRun :
    ∃ p : Process, (∃ data taken, .sent (.handler 0) 0 data taken ∈ p.server.trace) ∧
      (∃ data taken, .sent (.handler 1) 1 data taken ∈ p.server.trace) ∧ p.Addressed := by
  have hrun : (((processSystem 3 emptyService).restrict (acceptsAlone · ·)).runFrom
      (.start 3 emptyService) reuseRun).any
      (fun p => p.server.trace.any (sentFrom 0 0) && p.server.trace.any (sentFrom 1 1)) = true := by
    decide +kernel
  obtain ⟨p, hp, hsent⟩ := StepSystem.exists_reachable_of_any rfl hrun
  obtain ⟨⟨e, he, hfirst⟩, e', he', hsecond⟩ := by
    simpa only [Bool.and_eq_true, List.any_eq_true] using hsent
  obtain ⟨data, taken, rfl⟩ := sentFrom_eq_true hfirst
  obtain ⟨data', taken', rfl⟩ := sentFrom_eq_true hsecond
  refine ⟨p, ⟨data, taken, he⟩, ⟨data', taken', he'⟩, ?_⟩
  exact addressed_of_noReuse 3 emptyService
    ((StepSystem.Reachable.of_restrict hp).mono fun _ _ => noReuse_of_acceptsAlone)

/-- The reply of a handler can go to another connection. -/
theorem not_addressed_lockdownRun :
    ¬ ∀ (m_server_fd : ℤ) (service : Service) (p : Process),
      (processSystem m_server_fd service).Reachable p → p.Addressed := by
  intro h
  have hrun : ((processSystem 3 emptyService).runFrom (.start 3 emptyService) lockdownRun).any
      (fun p => p.server.trace.any (sentFrom 0 1)) = true := by
    decide +kernel
  obtain ⟨p, hp, hsent⟩ := StepSystem.exists_reachable_of_any rfl hrun
  obtain ⟨e, he, hfrom⟩ := List.any_eq_true.mp hsent
  obtain ⟨data, taken, rfl⟩ := sentFrom_eq_true hfrom
  -- connection `1` got what the handler for connection `0` sent
  exact absurd ((h 3 emptyService p hp).sent 0 1 data taken he) (by decide)

end Main
