import Akkon.Main.Addressing
import Akkon.Network.Resume

/-!
# The poll set of the running process

The poll set of the server loop is right as long as no action is for the listening socket
(`Server.PollInv`). In the running process actions come from the handlers and from the loops over
`ws_clients`, each for a number that a client was accepted on, so this holds in every run.

* `Process.Called`, `Process.answer_called`, `Process.passStep_server`: what the other threads do to
  the server;
* `Process.Tracked`: the poll set is right, and what holds an fd number holds one of an accepted
  connection;
* `pollSet_of_process`: in every run, at the start of every iteration, the entries are the listening
  socket and the open sockets.
-/

namespace Main

open Cpp Security

namespace Process

variable {p p' : Process} {l : Label}

/-! ## Calls on the server -/

/-- What a call of a handler does: it leaves alone what the server loop keeps, and only
`enablePolling` makes a token, which is for the connection of the task. -/
structure Called (task : Server.Task) (o : HandlerOp) (s s' : Server) : Prop where
  untouched : Server.Untouched s s'
  tokens : ∀ conn,
    s'.tokens conn = s.tokens conn + if o = .enablePolling ∧ task.conn = conn then 1 else 0

namespace Called

variable {task : Server.Task} {o : HandlerOp} {s s' : Server}

/-- A call that pushes no action. -/
theorem of_quiet (hne : o ≠ .enablePolling) (huntouched : Server.Untouched s s')
    (htasks : s'.m_tasks = s.m_tasks) (hactions : s'.m_pending_actions = s.m_pending_actions) :
    Called task o s s' := by
  refine ⟨huntouched, fun conn => ?_⟩
  rw [if_neg fun hmakes => hne hmakes.1]
  exact huntouched.tokens_eq htasks hactions conn

theorem refl (hne : o ≠ .enablePolling) : Called task o s s := of_quiet hne (.refl s) rfl rfl

theorem of_push {type : Server.ActionType}
    (hpush : s.pushAction ⟨task.fd, type, task.conn⟩ = some s')
    (htype : type = .ENABLE_POLLING ↔ o = .enablePolling) : Called task o s s' := by
  refine ⟨Server.untouched_pushAction hpush, fun conn => ?_⟩
  rw [Server.tokens_pushAction hpush conn]
  simp only [htype]

end Called

theorem answer_called {task : Server.Task} {env : HandlerEnv} {taken : Option ℕ} {o : HandlerOp}
    {r : o.Res} {q : Process} (h : p.answer task env taken o = some (r, q)) :
    Called task o p.server q.server := by
  -- Only four calls touch the server: a look-up is recorded, a text is sent, and two actions are
  -- pushed. All others are answered by the service.
  cases o with
  | getLockdownState =>
    cases h
    exact .refl (by simp)
  | isWsClient =>
    simp only [answer] at h
    split at h
    · cases h
    · cases h
      refine .of_quiet (by simp) ⟨rfl, rfl, rfl, rfl, rfl, [_], rfl, fun e he => ?_⟩ rfl rfl
      exact .inr ⟨_, _, _, List.mem_singleton.mp he⟩
  | insertWsClient =>
    simp only [answer] at h
    split at h
    · cases h
    · cases h
      exact .refl (by simp)
  | sendData data =>
    obtain ⟨new, hnew, -⟩ := sendData_eq p.server (.handler task.conn) task.fd data taken
    have huntouched :=
      Server.untouched_sendData p.server (.handler task.conn) task.fd data taken
    simp only [answer, Option.some.injEq, Prod.mk.injEq] at h
    obtain ⟨-, rfl⟩ := h
    refine .of_quiet (by simp) huntouched ?_ ?_
    · rw [hnew]
    · rw [hnew]
  | closeClient =>
    obtain ⟨server, hclose, heq⟩ := Option.map_eq_some_iff.mp h
    cases heq
    exact .of_push hclose (by simp)
  | enablePolling =>
    obtain ⟨server, henable, heq⟩ := Option.map_eq_some_iff.mp h
    cases heq
    exact .of_push henable (by simp)
  | throw fault => cases h
  | _ =>
    obtain ⟨service, rfl⟩ := @serviceOp_eq p q env _ r h
    exact .refl (by simp)

/-- A step of a loop over `ws_clients` leaves alone what the server loop keeps, and makes no
token. -/
theorem passStep_server {payload : Bytes} {taken : Option ℕ}
    (h : p.passStep payload taken = some p') :
    Server.Untouched p.server p'.server ∧
      ∀ conn, p'.server.tokens conn = p.server.tokens conn := by
  have hserver (hsame : p'.server = p.server) : Server.Untouched p.server p'.server ∧
      ∀ conn, p'.server.tokens conn = p.server.tokens conn := by
    rw [hsame]
    exact ⟨.refl _, fun _ => rfl⟩
  rcases passStep_cases h with ⟨-, rfl⟩ | ⟨frame, -, rfl⟩ | ⟨frame, fd, rest, phase, -, -, rfl⟩ |
    ⟨frame, rest, fd, server, -, hclose, rfl⟩ | ⟨frame, rest, fd, -, rfl⟩
  · exact hserver rfl
  · exact hserver rfl
  · obtain ⟨new, hnew, -⟩ := sendData_eq p.server .clientPass fd frame taken
    have huntouched := Server.untouched_sendData p.server .clientPass fd frame taken
    refine ⟨huntouched, huntouched.tokens_eq ?_ ?_⟩
    · rw [hnew]
    · rw [hnew]
  · refine ⟨Server.untouched_pushAction hclose, fun conn => ?_⟩
    show server.tokens conn = _
    rw [Server.tokens_pushAction hclose conn, if_neg (by simp), Nat.add_zero]
  · exact hserver rfl

/-! ## The invariant -/

/-- What the server loop relies on, and that a number that is held is the number of a client. -/
structure Tracked (p : Process) : Prop where
  poll : Server.PollInv p.server
  ready : p.server.ReadyPolled
  refers : ∀ fd conn, p.Refers fd conn →
    fd ≠ p.server.m_server_fd ∧ conn < p.server.connections
  /-- Connections are numbered as they are accepted. -/
  sockets : ∀ fd conn, p.server.sockets fd = some conn → conn < p.server.connections

/-- What holds an fd number behind a step holds one of an accepted connection. -/
theorem Tracked.refers_of_step (hp : Tracked p) (h : RefStep p l p') {fd : ℤ} {conn : ℕ}
    (hrefers : p'.Refers fd conn) :
    fd ≠ p.server.m_server_fd ∧ conn < p.server.connections := by
  rcases h.refers fd conn hrefers with hold | hopen
  · exact hp.refers fd conn hold
  · refine ⟨?_, hp.sockets fd conn hopen⟩
    rintro rfl
    rw [hp.poll.sockets_listener] at hopen
    cases hopen

/-- A step of another thread than the server loop. -/
theorem Tracked.of_untouched (hp : Tracked p) (hstep : RefStep p l p')
    (hserver : Server.Untouched p.server p'.server) : Tracked p' where
  poll := hserver.pollInv hp.poll fun _ haction => (hp.refers_of_step hstep (.action haction)).1
  ready := hserver.readyPolled hp.ready
  refers fd conn hrefers := by
    rw [hserver.m_server_fd, hserver.connections]
    exact hp.refers_of_step hstep hrefers
  sockets fd conn hopen := by
    rw [hserver.sockets] at hopen
    rw [hserver.connections]
    exact hp.sockets fd conn hopen

/-- A step of the server loop. -/
theorem Tracked.loop (hp : Tracked p) {env : Server.LoopEnv} {server : Server}
    (hstep : p.server.loopStep p.lockdown env = some server) : Tracked { p with server } := by
  have hconnections := Server.loopStep_connections hstep
  refine ⟨hp.poll.loopStep hstep, hp.ready.loopStep hstep, fun fd conn hrefers => ?_,
    fun fd conn hopen => ?_⟩
  · obtain ⟨hne, hlt⟩ :=
      hp.refers_of_step (refStep_loop (Server.loopStep_spec hstep)) hrefers
    exact ⟨(Server.loopStep_frame hstep).1 ▸ hne, hlt.trans_le hconnections.1⟩
  · rcases hconnections.2 fd conn hopen with hold | hnew
    · exact (hp.sockets fd conn hold).trans_le hconnections.1
    · exact hnew

/-- A step of any thread. -/
theorem Tracked.step (hp : Tracked p) (h : p.step l = some p') : Tracked p' := by
  have hstep := step_refStep h
  cases step_cases h with
  | setLockdown => exact hp.of_untouched hstep (.refl _)
  | loop hserver => exact hp.loop hserver
  | take _ => exact hp.of_untouched hstep ⟨rfl, rfl, rfl, rfl, rfl, [], rfl, by simp⟩
  | done => exact hp.of_untouched hstep (.refl _)
  | terminate => exact hp.of_untouched hstep (.refl _)
  | @call w env taken task o k r q _ hanswer =>
    have huntouched : Server.Untouched p.server q.server := (answer_called hanswer).untouched
    exact hp.of_untouched hstep huntouched
  | pass hpass => exact hp.of_untouched hstep (passStep_server hpass).1

/-- The process in front of the server loop. -/
theorem Tracked.start {m_server_fd : ℤ} (hpos : 0 ≤ m_server_fd) (service : Service) :
    Tracked (.start m_server_fd service) where
  poll := .listening hpos
  ready pfd hpfd := by cases hpfd
  refers fd conn hrefers := by
    cases hrefers with
    | queued htask => cases htask
    | running hworker => cases hworker
    | action haction => cases haction
    | client hfd => cases hfd
    | pass hfd => cases hfd
  sockets fd conn hopen := by cases hopen

end Process

/-- In every run of the process the poll set is right at the start of every iteration of the server
loop, and no socket is closed twice. -/
theorem pollSet_of_process {m_server_fd : ℤ} (hpos : 0 ≤ m_server_fd) (service : Service)
    {p : Process} (h : (processSystem m_server_fd service).Reachable p) :
    (p.server.phase = .top → p.server.PollSet) ∧ Server.ClosedOnce p.server.trace := by
  have htracked : Process.Tracked p := by
    refine h.invariant ?_ fun _ _ _ hp _ hstep => hp.step hstep
    rintro p rfl
    exact .start hpos service
  exact ⟨htracked.poll.pollSet, htracked.poll.tracks.closes.closedOnce⟩

end Main
