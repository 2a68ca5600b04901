import Mathlib.Data.List.Sort
import Akkon.Main.Service
import Akkon.Network.Server

/-!
# The running process

The server loop, the workers of the pool with their handlers, the two loops over `ws_clients`
(the broadcast thread's and the log callback's) and the lockdown state, taken step by step in any
order. A handler is the program `dataHandler`, and one step of a worker is one operation of it.

The lines that the server loop logs are left out: that of `disconnectAll`, and those in debug mode,
of which one is written under `m_action_mutex`. The lines of the other threads come as loops over
`ws_clients` at any time, without the thread that waits for them.

* `Process`: the state of all threads;
* `Process.answer`: an operation of a handler on the server and on the stored data;
* `Process.workerStep`, `Process.passStep`, `Process.step`: one step of a worker, of a loop over
  `ws_clients`, of any thread;
* `processSystem`: the process as a step system;
* `Process.step_cases`, `Process.answer_spec`, `Process.passStep_spec`: what a step does.
-/

namespace Main

open Cpp Security

/-- A task a worker is busy with, and what is left of its handler. -/
structure Running where
  task : Server.Task
  program : Handler Unit

/-- Where a loop over `ws_clients` is. -/
inductive PassPhase
  | sending
  /-- A `sendData` has failed for the client, and `closeClient` follows. -/
  | closing (fd : ℤ)
  /-- The client is erased next. -/
  | erasing (fd : ℤ)
  deriving DecidableEq, Repr

/-- A loop over `ws_clients`, under `ws_mutex`: the frame it sends and the clients ahead. Only the
loop itself changes `ws_clients` meanwhile, so the clients ahead are those of its start. -/
structure Pass where
  frame : Bytes
  rest : List ℤ
  phase : PassPhase

/-- The state of the process. -/
structure Process where
  server : Server
  lockdown : LockdownState
  workers : Fin Server.threadPoolSize → Option Running
  /-- The `std::set` of fd numbers, in its order. -/
  ws_clients : List ℤ
  /-- The connection that an entry of `ws_clients` was made for. -/
  owner : ℤ → ℕ
  /-- The loop that holds `ws_mutex`, if any. -/
  pass : Option Pass
  service : Service
  /-- An exception has left a thread. -/
  terminated : Bool

namespace Process

/-- The process in front of the server loop. -/
def start (m_server_fd : ℤ) (service : Service) : Process where
  server := .listening m_server_fd
  lockdown := .NONE
  workers _ := none
  ws_clients := []
  owner _ := 0
  pass := none
  service := service
  terminated := false

def record (p : Process) (e : Server.Event) : Process := { p with server := p.server.record e }

/-! ## Workers -/

/-- `ws_clients.insert`. -/
def insertClient (p : Process) (fd : ℤ) (conn : ℕ) : Process :=
  { p with
    ws_clients := if fd ∈ p.ws_clients then p.ws_clients else p.ws_clients.orderedInsert (· ≤ ·) fd
    owner := Function.update p.owner fd conn }

/-- An operation on the stored data, the files or the disk. -/
def serviceOp (p : Process) (env : HandlerEnv) (o : HandlerOp) : Option (o.Res × Process) :=
  match handlerOp env o ⟨p.service, []⟩ with
  | .ok (r, w) => some (r, { p with service := w.service })
  | .error _ => none

/-- The answer to an operation of the handler of a task; `none` while the operation waits for a
mutex. `taken` is the result of `send`. -/
def answer (p : Process) (task : Server.Task) (env : HandlerEnv) (taken : Option ℕ) :
    (o : HandlerOp) → Option (o.Res × Process)
  | .getLockdownState => some (p.lockdown, p)
  -- the lookup and the insertion wait for the loop that holds `ws_mutex`
  | .isWsClient =>
    if p.pass.isSome then none
    else some (task.fd ∈ p.ws_clients,
      p.record (.lookedUp task.conn task.data (task.fd ∈ p.ws_clients)))
  | .insertWsClient =>
    if p.pass.isSome then none else some ((), p.insertClient task.fd task.conn)
  | .sendData data =>
    let (sent, server) := p.server.sendData (.handler task.conn) task.fd data taken
    some (sent, { p with server })
  | .closeClient =>
    (p.server.closeClient task.fd task.conn).map fun server => ((), { p with server })
  | .enablePolling =>
    (p.server.enablePolling task.fd task.conn).map fun server => ((), { p with server })
  | .countQuery => p.serviceOp env .countQuery
  | .probeDisk => p.serviceOp env .probeDisk
  | .query item => p.serviceOp env (.query item)
  | .insertIndex item => p.serviceOp env (.insertIndex item)
  | .insertEntity entity => p.serviceOp env (.insertEntity entity)
  | .readFile path => p.serviceOp env (.readFile path)
  | .throw _ => none

def setWorker (p : Process) (w : Fin Server.threadPoolSize) (running : Option Running) : Process :=
  { p with workers := Function.update p.workers w running }

/-- One step of a worker: it takes a task, makes the next call of its handler, or is done with
it. -/
def workerStep (p : Process) (w : Fin Server.threadPoolSize) (env : HandlerEnv)
    (taken : Option ℕ) : Option Process :=
  match p.workers w with
  | none =>
    match p.server.m_tasks with
    | [] => none
    | task :: m_tasks =>
      some (setWorker { p with server := { p.server with m_tasks } } w
        (some ⟨task, dataHandler task.data⟩))
  | some ⟨_, .ret _⟩ => some (p.setWorker w none)
  -- no thread catches, so `std::terminate` ends the process
  | some ⟨_, .op (.throw _) _⟩ => some { p with terminated := true }
  | some ⟨task, .op o k⟩ =>
    (p.answer task env taken o).map fun r => r.2.setWorker w (some ⟨task, k r.1⟩)

/-! ## Loops over `ws_clients` -/

/-- One step of the loop that holds `ws_mutex`, or the start of one for a payload. -/
def passStep (p : Process) (payload : Bytes) (taken : Option ℕ) : Option Process :=
  match p.pass with
  | none =>
    some { p with pass := some ⟨WebSocketHandler.encodeFrame payload, p.ws_clients, .sending⟩ }
  | some ⟨_, [], .sending⟩ => some { p with pass := none }
  | some ⟨frame, fd :: rest, .sending⟩ =>
    let r := p.server.sendData .clientPass fd frame taken
    some { p with server := r.2, pass := some ⟨frame, rest, if r.1 then .sending else .closing fd⟩ }
  -- `closeClient` may wait for the server loop, with `ws_mutex` held
  | some ⟨frame, rest, .closing fd⟩ =>
    (p.server.closeClient fd (p.owner fd)).map fun server =>
      { p with server, pass := some ⟨frame, rest, .erasing fd⟩ }
  | some ⟨frame, rest, .erasing fd⟩ =>
    some { p with ws_clients := p.ws_clients.erase fd, pass := some ⟨frame, rest, .sending⟩ }

/-! ## All threads -/

/-- A step of a thread, with what it is told from outside. -/
inductive Label
  | setLockdown (state : LockdownState)
  | loop (env : Server.LoopEnv)
  | worker (w : Fin Server.threadPoolSize) (env : HandlerEnv) (taken : Option ℕ)
  | pass (payload : Bytes) (taken : Option ℕ)

/-- A step of the process; nothing is logged by the server loop. -/
def step (p : Process) (l : Label) : Option Process :=
  if p.terminated then none
  else match l with
    | .setLockdown state => some { p with lockdown := state }
    | .loop env => (p.server.loopStep p.lockdown env).map fun server => { p with server }
    | .worker w env taken => p.workerStep w env taken
    | .pass payload taken => p.passStep payload taken

/-! ## What the steps do -/

section Spec

variable {p p' : Process} {task : Server.Task} {env : HandlerEnv} {taken : Option ℕ}
  {w : Fin Server.threadPoolSize}

/-- What a worker runs is what it was given last, or what it ran before. -/
theorem running_of_update {workers : Fin Server.threadPoolSize → Option Running}
    {w w' : Fin Server.threadPoolSize} {running : Option Running} {r : Running}
    (h : Function.update workers w running w' = some r) :
    running = some r ∨ workers w' = some r := by
  rw [Function.update_apply] at h
  split at h
  · exact Or.inl h
  · exact Or.inr h

/-- What an operation of the handler of a task can record. -/
def AnswerEvent (p : Process) (task : Server.Task) (o : HandlerOp) : Server.Event → Prop
  | .sent author conn data _ =>
    author = .handler task.conn ∧ p.server.sockets task.fd = some conn ∧ o = .sendData data
  | .lookedUp conn data found =>
    conn = task.conn ∧ data = task.data ∧ o = .isWsClient ∧ (found = true → task.fd ∈ p.ws_clients)
  | _ => False

/-- What an operation of the handler of a task can do. -/
structure Answer (p : Process) (task : Server.Task) (o : HandlerOp) (p' : Process) : Prop where
  sockets : p'.server.sockets = p.server.sockets
  tasks : p'.server.m_tasks = p.server.m_tasks
  workers : p'.workers = p.workers
  pass : p'.pass = p.pass
  /-- A new action is for the client of the task. -/
  actions : ∀ action ∈ p'.server.actionList,
    action ∈ p.server.actionList ∨ (action.fd = task.fd ∧ action.conn = task.conn)
  /-- A new entry of `ws_clients` is the client of the task. -/
  clients : ∀ fd ∈ p'.ws_clients,
    fd ∈ p.ws_clients ∨ (fd = task.fd ∧ p'.owner fd = task.conn ∧ o = .insertWsClient)
  owner : ∀ fd, p'.owner fd = p.owner fd ∨ (fd = task.fd ∧ p'.owner fd = task.conn)
  trace : ∃ new, p'.server.trace = new ++ p.server.trace ∧ ∀ e ∈ new, p.AnswerEvent task o e

/-- A trace that was extended has its old events. -/
theorem forall_mem_of_append {trace trace' : List Server.Event} {P : Server.Event → Prop}
    (h : ∃ new, trace' = new ++ trace ∧ ∀ e ∈ new, P e) : ∀ e ∈ trace, e ∈ trace' := by
  obtain ⟨new, rfl, -⟩ := h
  exact fun _ he => List.mem_append_right new he

/-- A call forgets nothing of what happened. -/
theorem Answer.trace_subset {o : HandlerOp} (h : Answer p task o p') :
    ∀ e ∈ p.server.trace, e ∈ p'.server.trace :=
  forall_mem_of_append h.trace

/-- An operation that leaves all this alone. -/
theorem Answer.of_service {o : HandlerOp} (service : Service) :
    Answer p task o { p with service } :=
  ⟨rfl, rfl, rfl, rfl, fun _ h => Or.inl h, fun _ h => Or.inl h, fun _ => Or.inl rfl, [], rfl,
    by simp⟩

theorem serviceOp_eq {o : HandlerOp} {r : o.Res} (h : p.serviceOp env o = some (r, p')) :
    ∃ service, p' = { p with service } := by
  unfold serviceOp at h
  split at h
  · cases h
    exact ⟨_, rfl⟩
  · cases h

theorem serviceOp_spec {o : HandlerOp} {r : o.Res} (h : p.serviceOp env o = some (r, p')) :
    Answer p task o p' := by
  obtain ⟨service, rfl⟩ := serviceOp_eq h
  exact .of_service service

/-- The calls of `closeClient` and `enablePolling` by a handler. -/
theorem pushAction_spec {o : HandlerOp} {type : Server.ActionType} {server : Server}
    (h : p.server.pushAction ⟨task.fd, type, task.conn⟩ = some server) :
    Answer p task o { p with server } := by
  obtain ⟨rfl, hactions⟩ := Server.pushAction_eq h
  refine ⟨rfl, rfl, rfl, rfl, fun a ha => ?_, fun _ h => Or.inl h, fun _ => Or.inl rfl, [], rfl,
    by simp⟩
  rcases hactions a ha with ha | rfl
  · exact Or.inl ha
  · exact Or.inr ⟨rfl, rfl⟩

/-- A call of `sendData` changes the trace at most, by what an open socket takes. -/
theorem sendData_eq (s : Server) (author : Server.Author) (fd : ℤ) (data : Bytes)
    (taken : Option ℕ) :
    ∃ new, (s.sendData author fd data taken).2 = { s with trace := new ++ s.trace } ∧
      ∀ e ∈ new, ∃ conn n, taken = some n ∧ e = .sent author conn data (min n data.length) ∧
        s.sockets fd = some conn := by
  unfold Server.sendData
  split
  · next conn n hconn =>
    exact ⟨[.sent author conn data (min n data.length)], rfl,
      fun e he => ⟨conn, n, rfl, List.mem_singleton.mp he, hconn⟩⟩
  · exact ⟨[], rfl, by simp⟩

theorem mem_insertClient {fd fd' : ℤ} {conn : ℕ}
    (h : fd' ∈ (p.insertClient fd conn).ws_clients) : fd' ∈ p.ws_clients ∨ fd' = fd := by
  simp only [insertClient] at h
  split at h
  · exact Or.inl h
  · exact ((List.mem_orderedInsert _).mp h).symm

/-- What an operation of the handler of a task does. -/
theorem answer_spec {o : HandlerOp} {r : o.Res} (h : p.answer task env taken o = some (r, p')) :
    Answer p task o p' := by
  cases o with
  | getLockdownState =>
    cases h
    exact .of_service _
  | isWsClient =>
    simp only [answer] at h
    split at h
    · cases h
    · cases h
      refine ⟨rfl, rfl, rfl, rfl, fun _ h => Or.inl h, fun _ h => Or.inl h, fun _ => Or.inl rfl,
        [_], rfl, fun e he => ?_⟩
      -- only the lookup is recorded
      rw [List.mem_singleton.mp he]
      exact ⟨rfl, rfl, rfl, of_decide_eq_true⟩
  | insertWsClient =>
    simp only [answer] at h
    split at h
    · cases h
    · cases h
      refine ⟨rfl, rfl, rfl, rfl, fun _ h => Or.inl h, fun fd hfd => ?_, fun fd => ?_, [], rfl,
        by simp⟩
      · -- the number now stands for the connection of the task
        refine (mem_insertClient hfd).imp_right fun heq => ⟨heq, ?_, rfl⟩
        rw [heq]
        exact Function.update_self _ _ _
      · simp only [insertClient, Function.update_apply]
        split
        · next heq => exact Or.inr ⟨heq, rfl⟩
        · exact Or.inl rfl
  | sendData data =>
    obtain ⟨new, hnew, hevents⟩ := sendData_eq p.server (.handler task.conn) task.fd data taken
    simp only [answer, Option.some.injEq, Prod.mk.injEq] at h
    obtain ⟨-, rfl⟩ := h
    rw [hnew]
    refine ⟨rfl, rfl, rfl, rfl, fun _ h => Or.inl h, fun _ h => Or.inl h, fun _ => Or.inl rfl, new,
      rfl, fun e he => ?_⟩
    obtain ⟨conn, n, -, rfl, hconn⟩ := hevents e he
    exact ⟨rfl, hconn, rfl⟩
  | closeClient =>
    obtain ⟨server, hserver, heq⟩ := Option.map_eq_some_iff.mp h
    cases heq
    exact pushAction_spec hserver
  | enablePolling =>
    obtain ⟨server, hserver, heq⟩ := Option.map_eq_some_iff.mp h
    cases heq
    exact pushAction_spec hserver
  | throw fault => cases h
  | _ => exact @serviceOp_spec p p' task env _ _ h

/-- The clients that the loop over `ws_clients` still has to deal with. -/
def passClients (p : Process) : List ℤ :=
  match p.pass with
  | none => []
  | some ⟨_, rest, .closing fd⟩ => fd :: rest
  | some ⟨_, rest, _⟩ => rest

/-- What a step of a loop over `ws_clients` can do. -/
structure PassStep (p p' : Process) : Prop where
  sockets : p'.server.sockets = p.server.sockets
  tasks : p'.server.m_tasks = p.server.m_tasks
  workers : p'.workers = p.workers
  owner : p'.owner = p.owner
  /-- A new action is for a client of the loop. -/
  actions : ∀ action ∈ p'.server.actionList, action ∈ p.server.actionList ∨
    (action.fd ∈ p.passClients ∧ action.conn = p.owner action.fd)
  /-- No client is added. -/
  clients : ∀ fd ∈ p'.ws_clients, fd ∈ p.ws_clients
  passClients : ∀ fd ∈ p'.passClients, fd ∈ p.passClients ∨ fd ∈ p.ws_clients
  trace : ∃ new, p'.server.trace = new ++ p.server.trace ∧
    ∀ e ∈ new, ∃ conn data n, e = .sent .clientPass conn data n

/-- A step of the loop forgets nothing of what happened. -/
theorem PassStep.trace_subset (h : PassStep p p') :
    ∀ e ∈ p.server.trace, e ∈ p'.server.trace :=
  forall_mem_of_append h.trace

/-- The steps of a loop over `ws_clients`. -/
theorem passStep_cases {payload : Bytes} (h : p.passStep payload taken = some p') :
    (p.pass = none ∧ p' =
      { p with pass := some ⟨WebSocketHandler.encodeFrame payload, p.ws_clients, .sending⟩ }) ∨
    (∃ frame, p.pass = some ⟨frame, [], .sending⟩ ∧ p' = { p with pass := none }) ∨
    (∃ frame fd rest phase, p.pass = some ⟨frame, fd :: rest, .sending⟩ ∧
      (phase = .sending ∨ phase = .closing fd) ∧
      p' = { p with
        server := (p.server.sendData .clientPass fd frame taken).2
        pass := some ⟨frame, rest, phase⟩ }) ∨
    (∃ frame rest fd server, p.pass = some ⟨frame, rest, .closing fd⟩ ∧
      p.server.closeClient fd (p.owner fd) = some server ∧
      p' = { p with server, pass := some ⟨frame, rest, .erasing fd⟩ }) ∨
    ∃ frame rest fd, p.pass = some ⟨frame, rest, .erasing fd⟩ ∧
      p' = { p with
        ws_clients := p.ws_clients.erase fd, pass := some ⟨frame, rest, .sending⟩ } := by
  -- One case for each phase of the loop; a client is closed and erased only when the send failed.
  unfold passStep at h
  split at h
  · next hpass => exact .inl ⟨hpass, (Option.some.inj h).symm⟩
  · next frame hpass => exact .inr (.inl ⟨frame, hpass, (Option.some.inj h).symm⟩)
  · next frame fd rest hpass =>
    refine .inr (.inr (.inl ⟨frame, fd, rest, _, hpass, ?_, (Option.some.inj h).symm⟩))
    split_ifs
    · exact .inl rfl
    · exact .inr rfl
  · next frame rest fd hpass =>
    obtain ⟨server, hserver, rfl⟩ := Option.map_eq_some_iff.mp h
    exact .inr (.inr (.inr (.inl ⟨frame, rest, fd, server, hpass, hserver, rfl⟩)))
  · next frame rest fd hpass =>
    exact .inr (.inr (.inr (.inr ⟨frame, rest, fd, hpass, (Option.some.inj h).symm⟩)))

theorem passStep_spec {payload : Bytes} (h : p.passStep payload taken = some p') :
    PassStep p p' := by
  -- The frame is made, the last client was dealt with, or a client is sent to, closed or erased.
  rcases passStep_cases h with ⟨hpass, rfl⟩ | ⟨frame, hpass, rfl⟩ |
    ⟨frame, fd, rest, phase, hpass, hphase, rfl⟩ | ⟨frame, rest, fd, server, hpass, hclose, rfl⟩ |
    ⟨frame, rest, fd, hpass, rfl⟩
  · exact ⟨rfl, rfl, rfl, rfl, fun _ h => Or.inl h, fun _ h => h, fun _ h => Or.inr h, [], rfl,
      by simp⟩
  · exact ⟨rfl, rfl, rfl, rfl, fun _ h => Or.inl h, fun _ h => h, by simp [Process.passClients], [],
      rfl, by simp⟩
  · -- the client that was sent to is still to be dealt with only if the send has failed
    obtain ⟨new, hnew, hevents⟩ := sendData_eq p.server .clientPass fd frame taken
    rw [hnew]
    refine ⟨rfl, rfl, rfl, rfl, fun _ h => Or.inl h, fun _ h => h, fun fd' hfd' => Or.inl ?_, new,
      rfl, fun e he => ?_⟩
    · simp only [Process.passClients, hpass]
      rcases hphase with rfl | rfl
      · exact List.mem_cons_of_mem _ hfd'
      · exact hfd'
    · obtain ⟨conn, n, -, rfl, -⟩ := hevents e he
      exact ⟨conn, frame, _, rfl⟩
  · -- `closeClient` for the client the send has failed for
    obtain ⟨rfl, hactions⟩ := Server.pushAction_eq hclose
    refine ⟨rfl, rfl, rfl, rfl, fun a ha => ?_, fun _ h => h, fun fd' hfd' => ?_, [], rfl, by simp⟩
    · rcases hactions a ha with ha | rfl
      · exact Or.inl ha
      · exact Or.inr ⟨by simp [Process.passClients, hpass], rfl⟩
    · simp only [Process.passClients] at hfd'
      exact Or.inl (by simp [Process.passClients, hpass, hfd'])
  · refine ⟨rfl, rfl, rfl, rfl, fun _ h => Or.inl h, fun _ h => List.mem_of_mem_erase h,
      fun fd' hfd' => ?_, [], rfl, by simp⟩
    simp only [Process.passClients] at hfd'
    exact Or.inl (by simp [Process.passClients, hpass, hfd'])

/-- The ways through a step of the process. -/
inductive StepCase (p : Process) : Label → Process → Prop
  | setLockdown {state : LockdownState} :
    StepCase p (.setLockdown state) { p with lockdown := state }
  | loop {env : Server.LoopEnv} {server : Server} :
    p.server.loopStep p.lockdown env = some server → StepCase p (.loop env) { p with server }
  /-- A worker takes a task. -/
  | take {w : Fin Server.threadPoolSize} {env : HandlerEnv} {taken : Option ℕ}
    {task : Server.Task} {m_tasks : List Server.Task} : p.server.m_tasks = task :: m_tasks →
    StepCase p (.worker w env taken)
      (setWorker { p with server := { p.server with m_tasks } } w
        (some ⟨task, dataHandler task.data⟩))
  /-- A worker is done with its task. -/
  | done {w : Fin Server.threadPoolSize} {env : HandlerEnv} {taken : Option ℕ} :
    StepCase p (.worker w env taken) (p.setWorker w none)
  | terminate {w : Fin Server.threadPoolSize} {env : HandlerEnv} {taken : Option ℕ} :
    StepCase p (.worker w env taken) { p with terminated := true }
  /-- A handler makes its next call. -/
  | call {w : Fin Server.threadPoolSize} {env : HandlerEnv} {taken : Option ℕ}
    {task : Server.Task} {o : HandlerOp} {k : o.Res → Handler Unit} {r : o.Res} {q : Process} :
    p.workers w = some ⟨task, .op o k⟩ → p.answer task env taken o = some (r, q) →
    StepCase p (.worker w env taken) (q.setWorker w (some ⟨task, k r⟩))
  | pass {payload : Bytes} {taken : Option ℕ} {p' : Process} :
    p.passStep payload taken = some p' → StepCase p (.pass payload taken) p'

/-- A step of the process goes one of the ways. -/
theorem step_cases {l : Label} (h : p.step l = some p') : StepCase p l p' := by
  -- A terminated process does no step; any other step is one of the rules.
  unfold step at h
  split at h
  · cases h
  cases l with
  | setLockdown state =>
    cases h
    exact .setLockdown
  | loop env =>
    obtain ⟨server, hserver, rfl⟩ := Option.map_eq_some_iff.mp h
    exact .loop hserver
  | worker w env taken =>
    simp only [workerStep] at h
    split at h
    · split at h
      · cases h
      · next task m_tasks htasks =>
        obtain rfl := Option.some.inj h
        exact .take htasks
    · obtain rfl := Option.some.inj h
      exact .done
    · obtain rfl := Option.some.inj h
      exact .terminate
    · next task o k _ hworker =>
      obtain ⟨⟨r, q⟩, hanswer, rfl⟩ := Option.map_eq_some_iff.mp h
      exact .call hworker hanswer
  | pass payload taken => exact .pass h

end Spec

end Process

/-- The process as a step system. -/
def processSystem (m_server_fd : ℤ) (service : Service) : StepSystem Process Process.Label where
  init p := p = .start m_server_fd service
  step := Process.step

/-! ## Small runs -/

namespace Process

/-- A step of the server loop for which nothing is there to be read. -/
def idle : Label := .loop ⟨.timeout, none, []⟩

/-- The server loop comes to `poll`, which reports one fd number, and goes past `accept`. -/
def pollFor (fd : ℤ) (client : Option ℤ) : List Label :=
  [idle, idle, idle, .loop ⟨.ready (· == fd), none, []⟩, .loop ⟨.timeout, client, []⟩]

/-- A client is accepted as the only one. -/
def acceptFirst (m_server_fd fd : ℤ) : List Label := pollFor m_server_fd (some fd) ++ [idle, idle]

/-- Bytes are received from the only client and handed to the pool. -/
def receiveFirst (fd : ℤ) (data : Bytes) : List Label :=
  pollFor fd none ++ [.loop ⟨.timeout, none, data⟩, idle]

/-- Steps of the first worker, on a quiet machine and with sockets that take everything. -/
def work (n : ℕ) : List Label :=
  List.replicate n (.worker ⟨0, Server.threadPoolSize_pos⟩ (quietEnv (dbFileSystem [])) (some 4096))

end Process

end Main
