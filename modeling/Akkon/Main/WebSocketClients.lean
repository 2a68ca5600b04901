import Akkon.Main.Process

/-!
# `ws_clients` holds upgraded connections

A handler decodes what it received as WebSocket frames when its fd number is in `ws_clients`. The
number gets there at the end of the upgrade route and leaves it when a send of one of the loops over
`ws_clients` fails; the server loop closes sockets without looking.

* `isWebSocketUpgrade_of_calls`, `sendsFirst_dataHandler`: only an upgrade request is registered,
  and only behind a send;
* `Process.Upgraded`: a connection has asked for an upgrade and was sent a `101` response;
* `Process.ClientsUpgraded`: every entry of `ws_clients` is an open, upgraded connection, and only
  requests of upgraded connections were decoded as frames;
* `clientsUpgraded_of_keepsClients`: this holds in every run in which the server loop closes no
  client of `ws_clients` or of an upgrade under way, `accept` returns no number whose handler is
  still to look it up, and every upgrade is answered in full with a `101` response;
* `not_clientsUpgraded_successorRun`, `reachable_keylessRun`: it fails when a client of `ws_clients`
  ends its stream and another client gets its number, and for an upgrade request without a key.
-/

namespace Main

open Cpp Security Handler

/-! ## What the handler registers -/

/-- Any operation but the registration of a WebSocket client. -/
abbrev HandlerOp.Plain (o : HandlerOp) : Prop := o ≠ .insertWsClient

/-- Any operation but the registration of a WebSocket client and the end of its handlers. -/
abbrev HandlerOp.Calm (o : HandlerOp) : Prop := o ≠ .insertWsClient ∧ o ≠ .enablePolling

/-- A handler that closes its client at the end neither registers it nor polls it again. -/
theorem ClosesLast.calm {program : Handler Unit} (h : ClosesLast HandlerOp.Quiet program) :
    program.AllOps HandlerOp.Calm := by
  refine h.allOps.mono ?_
  rintro o (ho | rfl)
  · constructor <;> rintro rfl <;> exact ho
  · exact ⟨nofun, nofun⟩

theorem calm_refuseInLockdown (request : Bytes) :
    (refuseInLockdown request).AllOps HandlerOp.Calm :=
  ClosesLast.calm ((closesLast_refuseInLockdown request).mono fun _ => And.left)

theorem calm_ofExcept {α : Type} (x : Except Exn α) : (ofExcept x).AllOps HandlerOp.Calm := by
  cases x with
  | ok a => trivial
  | error e => exact ⟨⟨nofun, nofun⟩, nofun⟩

theorem calm_batchResults (ids : List Bytes) : (batchResults ids).AllOps HandlerOp.Calm := by
  induction ids with
  | nil => trivial
  | cons id ids ih =>
    unfold batchResults
    split
    · exact ⟨⟨nofun, nofun⟩, fun _ => ⟨⟨nofun, nofun⟩, fun _ => ih.bind fun _ => trivial⟩⟩
    · exact ih

theorem calm_answerPayload (payload : Bytes) : (answerPayload payload).AllOps HandlerOp.Calm := by
  refine (calm_ofExcept _).bind fun action => ?_
  split
  · refine (calm_ofExcept _).bind fun ids => (calm_ofExcept _).bind fun batch_id => ?_
    exact (calm_batchResults ids).bind fun results => ⟨⟨nofun, nofun⟩, fun _ => trivial⟩
  · trivial

theorem calm_answerPayloads (payloads : List Bytes) :
    (answerPayloads payloads).AllOps HandlerOp.Calm := by
  induction payloads with
  | nil => trivial
  | cons payload payloads ih => exact (calm_answerPayload payload).bind fun _ => ih

theorem plain_webSocketBranch (request : Bytes) :
    (webSocketBranch request).AllOps HandlerOp.Plain := by
  unfold webSocketBranch
  split
  · exact ⟨nofun, nofun⟩
  · next payloads hpayloads =>
    exact ((calm_answerPayloads payloads).mono fun _ => And.left).bind
      fun _ => ⟨nofun, fun _ => trivial⟩

/-- Only an upgrade request is registered. -/
theorem isWebSocketUpgrade_of_calls {request : Bytes}
    (h : (dataHandler request).Calls .insertWsClient) :
    WebSocketHandler.isWebSocketUpgrade request = true := by
  by_contra hnot
  refine h ⟨nofun, fun state => ?_⟩
  change Prog.AllOps _ (if state ≠ .NONE then _ else _)
  split
  · exact (calm_refuseInLockdown request).mono fun _ => And.left
  · refine ⟨nofun, fun is_ws_client => ?_⟩
    change Prog.AllOps _ (if is_ws_client = true then _ else _)
    split
    · exact plain_webSocketBranch request
    · exact ((plainBranch_cases request).resolve_right fun h => hnot h.2).calm.mono fun _ => And.left

/-- `sendData`. -/
def HandlerOp.Sends : HandlerOp → Prop
  | .sendData _ => True
  | _ => False

/-- A program that sends before it registers its client. -/
abbrev SendsFirst (program : Handler Unit) : Prop :=
  program.Precedes HandlerOp.Sends (· = .insertWsClient)

/-- The handler registers its client only behind a send. -/
theorem sendsFirst_dataHandler (request : Bytes) : SendsFirst (dataHandler request) := by
  refine Or.inr ⟨nofun, fun state => ?_⟩
  change Prog.Precedes _ _ (if state ≠ .NONE then _ else _)
  split
  · exact .of_allOps ((calm_refuseInLockdown request).mono fun _ => And.left)
  · refine Or.inr ⟨nofun, fun is_ws_client => ?_⟩
    change Prog.Precedes _ _ (if is_ws_client = true then _ else _)
    split
    · exact .of_allOps (plain_webSocketBranch request)
    · rcases plainBranch_cases request with hcloses | ⟨heq, -⟩
      · exact .of_allOps (hcloses.calm.mono fun _ => And.left)
      · -- the upgrade route sends its response first, whatever the response is
        rw [heq]
        exact (Prog.Precedes.of_allOps ((calm_ofExcept _).mono fun _ => And.left)).bind
          fun ws_response => Or.inl trivial

namespace Process

/-! ## Upgraded connections -/

/-- A connection has sent an upgrade request, and its handler has sent it a whole `101` response. -/
def Upgraded (trace : List Server.Event) (conn : ℕ) : Prop :=
  (∃ request, .received conn request ∈ trace ∧
    WebSocketHandler.isWebSocketUpgrade request = true) ∧
  ∃ response, .sent (.handler conn) conn response response.length ∈ trace ∧
    startsWith response (lit "HTTP/1.1 101 ") = true

theorem Upgraded.mono {trace trace' : List Server.Event} {conn : ℕ}
    (htrace : ∀ e ∈ trace, e ∈ trace') (h : Upgraded trace conn) : Upgraded trace' conn := by
  obtain ⟨⟨request, hreceived, hupgrade⟩, response, hsent, h101⟩ := h
  exact ⟨⟨request, htrace _ hreceived, hupgrade⟩, response, htrace _ hsent, h101⟩

/-- Every entry of `ws_clients` is an open and upgraded connection, and what was decoded as frames
came from upgraded connections. -/
structure ClientsUpgraded (p : Process) : Prop where
  clients : ∀ fd ∈ p.ws_clients,
    ∃ conn, p.server.sockets fd = some conn ∧ Upgraded p.server.trace conn
  decoded : ∀ conn data, .lookedUp conn data true ∈ p.server.trace → Upgraded p.server.trace conn

/-- A task in the queue or with a worker, and what its handler still has to do. -/
inductive Handles (p : Process) : Server.Task → Handler Unit → Prop
  | queued {task : Server.Task} :
    task ∈ p.server.m_tasks → Handles p task (dataHandler task.data)
  | running {w : Fin Server.threadPoolSize} {task : Server.Task} {program : Handler Unit} :
    p.workers w = some ⟨task, program⟩ → Handles p task program

theorem Handles.of_eq {p p' : Process} {task : Server.Task} {program : Handler Unit}
    (h : p'.Handles task program) (hworkers : p'.workers = p.workers)
    (htasks : p'.server.m_tasks = p.server.m_tasks) : p.Handles task program := by
  cases h with
  | queued htask => exact .queued (htasks ▸ htask)
  | running hworker => exact .running (hworkers ▸ hworker)

/-- What a worker runs is what it was given last, or what was there before. -/
theorem handles_setWorker {p : Process} {w : Fin Server.threadPoolSize}
    {running : Option Running} {task : Server.Task} {program : Handler Unit}
    (h : (p.setWorker w running).Handles task program) :
    running = some ⟨task, program⟩ ∨ p.Handles task program := by
  cases h with
  | queued htask => exact .inr (.queued htask)
  | running hworker => exact (running_of_update hworker).imp_right .running

/-- The server loop closes no client in `ws_clients` and none that a handler can still register;
`accept` returns no number that a handler can still look up; and a handler that is going to register
its client sends it a `101` response that is taken as a whole. -/
def KeepsClients (p : Process) : Label → Prop
  | .loop env =>
    (∀ fd, p.server.closes env = some fd → fd ∉ p.ws_clients ∧
      ∀ task program, p.Handles task program → task.fd = fd → ¬ program.Calls .insertWsClient) ∧
    ∀ fd, p.server.accepts env = some fd →
      ∀ task program, p.Handles task program → task.fd = fd → ¬ program.Calls .isWsClient
  | .worker w _ taken =>
    ∀ task data k, p.workers w = some ⟨task, .op (HandlerOp.sendData data) k⟩ →
      (Prog.op (HandlerOp.sendData data) k).Calls .insertWsClient →
      startsWith data (lit "HTTP/1.1 101 ") = true ∧ ∃ n, taken = some n ∧ data.length ≤ n
  | _ => True

/-- The invariant of a task and its handler: the number that is looked up stands for no other
connection, and a client that can still be registered is open, has asked for it, and is sent
something first or has been sent the `101` response. -/
structure HandlerSound (server : Server) (task : Server.Task) (program : Handler Unit) : Prop where
  lookup : program.Calls .isWsClient →
    ∀ conn, server.sockets task.fd = some conn → conn = task.conn
  registers : program.Calls .insertWsClient →
    server.sockets task.fd = some task.conn ∧ .received task.conn task.data ∈ server.trace ∧
      WebSocketHandler.isWebSocketUpgrade task.data = true ∧
      (SendsFirst program ∨ Upgraded server.trace task.conn)

/-- What is asked of a handler stays true while the sockets stay and the trace grows. -/
theorem HandlerSound.mono {server server' : Server} {task : Server.Task} {program : Handler Unit}
    (h : HandlerSound server task program) (hsockets : server'.sockets = server.sockets)
    (htrace : ∀ e ∈ server.trace, e ∈ server'.trace) : HandlerSound server' task program := by
  refine ⟨fun hcalls => hsockets ▸ h.lookup hcalls, fun hcalls => ?_⟩
  obtain ⟨hopen, hreceived, hupgrade, hsent⟩ := h.registers hcalls
  exact ⟨hsockets ▸ hopen, htrace _ hreceived, hupgrade, hsent.imp_right (·.mono htrace)⟩

/-- The invariant. -/
structure ClientsSound (p : Process) : Prop where
  upgraded : p.ClientsUpgraded
  handlers : ∀ task program, p.Handles task program → HandlerSound p.server task program

section Step

variable {p p' : Process} {l : Label}

/-- A step that changes no socket, registers and looks up nothing, and leaves no handler with more
to do. -/
theorem ClientsSound.of_quiet (hp : ClientsSound p)
    (hsockets : p'.server.sockets = p.server.sockets)
    (htrace : ∀ e ∈ p.server.trace, e ∈ p'.server.trace)
    (hlookedUp : ∀ conn data, .lookedUp conn data true ∈ p'.server.trace →
      .lookedUp conn data true ∈ p.server.trace)
    (hclients : ∀ fd ∈ p'.ws_clients, fd ∈ p.ws_clients)
    (hhandles : ∀ task program, p'.Handles task program → p.Handles task program) :
    ClientsSound p' := by
  refine ⟨⟨fun fd hfd => ?_, fun conn data he => ?_⟩, fun task program h => ?_⟩
  · obtain ⟨conn, hopen, hupgraded⟩ := hp.upgraded.clients fd (hclients fd hfd)
    exact ⟨conn, hsockets ▸ hopen, hupgraded.mono htrace⟩
  · exact (hp.upgraded.decoded conn data (hlookedUp conn data he)).mono htrace
  · exact (hp.handlers task program (hhandles task program h)).mono hsockets htrace

theorem ClientsSound.loop (hp : ClientsSound p) {env : Server.LoopEnv} {server : Server}
    (hok : p.KeepsClients (.loop env)) (h : Server.LoopStep env p.server server) :
    ClientsSound { p with server } := by
  obtain ⟨hcloses, haccepts⟩ := hok
  obtain ⟨new, hnew, hevents⟩ := h.trace
  have htrace := h.trace_subset
  -- A close or an `accept` changes what a number stands for; the condition keeps both away from
  -- the clients and from the tasks that are under way.
  refine ⟨⟨fun fd hfd => ?_, fun conn data he => ?_⟩, fun task program hhandles => ?_⟩
  · obtain ⟨conn, hopen, hupgraded⟩ := hp.upgraded.clients fd hfd
    rcases h.kept fd conn hopen with hopen | hclose
    · exact ⟨conn, hopen, hupgraded.mono htrace⟩
    · exact absurd hfd (hcloses fd hclose).1
  · simp only [hnew, List.mem_append] at he
    rcases he with he | he
    · exact (hevents _ he).elim
    · exact (hp.upgraded.decoded conn data he).mono htrace
  · -- a task or a handler that was there before the step
    have hold (hhandles : p.Handles task program) : HandlerSound server task program := by
      have hsound := hp.handlers task program hhandles
      refine ⟨fun hcalls conn hopen => ?_, fun hcalls => ?_⟩
      · rcases h.opened task.fd conn hopen with hopen | ⟨haccept, -⟩
        · exact hsound.lookup hcalls conn hopen
        · exact absurd hcalls (haccepts task.fd haccept task program hhandles rfl)
      · obtain ⟨hopen, hreceived, hupgrade, hsent⟩ := hsound.registers hcalls
        rcases h.kept task.fd task.conn hopen with hopen | hclose
        · exact ⟨hopen, htrace _ hreceived, hupgrade, hsent.imp_right (·.mono htrace)⟩
        · exact absurd hcalls ((hcloses task.fd hclose).2 task program hhandles rfl)
    cases hhandles with
    | queued htask =>
      rcases h.tasks task htask with htask | ⟨-, hopen, hreceived⟩
      · exact hold (.queued htask)
      · -- a task for what was received just now
        refine ⟨fun _ conn hconn => ?_, fun hcalls => ⟨hopen, hreceived,
          isWebSocketUpgrade_of_calls hcalls, Or.inl (sendsFirst_dataHandler task.data)⟩⟩
        rw [hopen] at hconn
        exact (Option.some.inj hconn).symm
    | running hworker => exact hold (.running hworker)

/-- What is sent on an open socket that takes it all is recorded. -/
theorem sent_of_answer {env : HandlerEnv} {task : Server.Task} {data : Bytes} {n conn : ℕ}
    {r : Bool}
    {q : Process} (h : p.answer task env (some n) (.sendData data) = some (r, q))
    (hopen : p.server.sockets task.fd = some conn) (hn : data.length ≤ n) :
    .sent (.handler task.conn) conn data data.length ∈ q.server.trace := by
  simp only [answer, Server.sendData, hopen, Option.some.injEq, Prod.mk.injEq] at h
  obtain ⟨-, rfl⟩ := h
  simp [Server.record, hn]

/-- The next call of a handler leaves it sound: the send in front of a registration is the `101`
response. -/
theorem HandlerSound.call {w : Fin Server.threadPoolSize} {env : HandlerEnv} {taken : Option ℕ}
    {task : Server.Task} {o : HandlerOp} {k : o.Res → Handler Unit} {r : o.Res} {q : Process}
    (hsound : HandlerSound p.server task (.op o k)) (hok : p.KeepsClients (.worker w env taken))
    (hworker : p.workers w = some ⟨task, .op o k⟩)
    (h : p.answer task env taken o = some (r, q)) : HandlerSound q.server task (k r) := by
  have hanswer := answer_spec h
  have hmono := hsound.mono hanswer.sockets hanswer.trace_subset
  refine ⟨fun hcalls => hmono.lookup (.of_op hcalls), fun hcalls => ?_⟩
  obtain ⟨hopen, -, -, hsent⟩ := hsound.registers (.of_op hcalls)
  obtain ⟨hopen', hreceived, hupgrade, -⟩ := hmono.registers (.of_op hcalls)
  refine ⟨hopen', hreceived, hupgrade, ?_⟩
  rcases hsent with (hsends | ⟨-, hfirst⟩) | h101
  · -- this is the send in front of the registration
    cases o with
    | sendData data =>
      obtain ⟨hresponse, n, rfl, hn⟩ := hok task data k hworker (.of_op hcalls)
      have hsent : .sent (.handler task.conn) task.conn data data.length ∈ q.server.trace :=
        sent_of_answer h hopen hn
      exact Or.inr ⟨⟨task.data, hreceived, hupgrade⟩, data, hsent, hresponse⟩
    | _ => exact hsends.elim
  · exact Or.inl (hfirst r)
  · exact Or.inr (h101.mono hanswer.trace_subset)

/-- The next call of a running handler. -/
theorem ClientsSound.answer (hp : ClientsSound p) {w : Fin Server.threadPoolSize} {env : HandlerEnv}
    {taken : Option ℕ} {task : Server.Task} {o : HandlerOp} {k : o.Res → Handler Unit} {r : o.Res}
    {q : Process} (hok : p.KeepsClients (.worker w env taken))
    (hworker : p.workers w = some ⟨task, .op o k⟩)
    (h : p.answer task env taken o = some (r, q)) :
    ClientsSound (q.setWorker w (some ⟨task, k r⟩)) := by
  -- Only a registration adds a client, and only a look-up decides how a text is decoded.
  have hanswer := answer_spec h
  have htrace := hanswer.trace_subset
  have hsound := hp.handlers task _ (.running hworker)
  refine ⟨⟨fun fd hfd => ?_, fun conn data he => ?_⟩, fun task' program' hhandles => ?_⟩
  · rcases hanswer.clients fd hfd with hfd | ⟨rfl, -, rfl⟩
    · obtain ⟨conn, hopen, hupgraded⟩ := hp.upgraded.clients fd hfd
      exact ⟨conn, hanswer.sockets ▸ hopen, hupgraded.mono htrace⟩
    · -- the client is registered now, so its `101` response has been sent before
      obtain ⟨hopen, -, -, hsent⟩ := hsound.registers (Prog.calls_head _ k)
      have h101 := hsent.resolve_left fun hfirst => by
        rcases hfirst with hsends | ⟨hne, -⟩
        · exact hsends
        · exact hne rfl
      exact ⟨task.conn, hanswer.sockets ▸ hopen, h101.mono htrace⟩
  · obtain ⟨new, hnew, hevents⟩ := hanswer.trace
    change Server.Event.lookedUp conn data true ∈ q.server.trace at he
    rw [hnew, List.mem_append] at he
    rcases he with he | he
    · -- the number that was found stands for the connection of the task
      obtain ⟨rfl, -, rfl, hfound⟩ := hevents _ he
      obtain ⟨conn, hopen, hupgraded⟩ := hp.upgraded.clients task.fd (hfound rfl)
      rw [← hsound.lookup (Prog.calls_head _ k) conn hopen]
      exact hupgraded.mono htrace
    · exact (hp.upgraded.decoded conn data he).mono htrace
  · rcases handles_setWorker hhandles with hself | hother
    · cases hself
      have hcalled : HandlerSound q.server task (k r) := hsound.call hok hworker h
      exact hcalled
    · have hold := hother.of_eq hanswer.workers hanswer.tasks
      exact (hp.handlers _ _ hold).mono hanswer.sockets htrace

theorem ClientsSound.pass (hp : ClientsSound p) (h : PassStep p p') : ClientsSound p' := by
  obtain ⟨new, hnew, hevents⟩ := h.trace
  refine hp.of_quiet h.sockets h.trace_subset (fun conn data he => ?_) h.clients
    fun task program hhandles => hhandles.of_eq h.workers h.tasks
  -- a loop over `ws_clients` looks nothing up
  rw [hnew, List.mem_append] at he
  refine he.resolve_left fun he => ?_
  obtain ⟨_, _, _, heq⟩ := hevents _ he
  cases heq

theorem ClientsSound.step (hp : ClientsSound p) (hok : p.KeepsClients l)
    (h : p.step l = some p') : ClientsSound p' := by
  cases step_cases h with
  | setLockdown =>
    exact hp.of_quiet rfl (fun _ he => he) (fun _ _ he => he) (fun _ hfd => hfd)
      fun _ _ hhandles => hhandles.of_eq rfl rfl
  | loop hserver => exact hp.loop hok (Server.loopStep_spec hserver)
  | take htasks =>
    refine hp.of_quiet rfl (fun _ he => he) (fun _ _ he => he) (fun _ hfd => hfd)
      fun task program hhandles => ?_
    -- the task the worker takes was queued before
    rcases handles_setWorker hhandles with hnew | hold
    · cases hnew
      exact .queued (htasks ▸ List.mem_cons_self)
    · cases hold with
      | queued htask => exact .queued (htasks ▸ List.mem_cons_of_mem _ htask)
      | running hworker => exact .running hworker
  | done =>
    exact hp.of_quiet rfl (fun _ he => he) (fun _ _ he => he) (fun _ hfd => hfd)
      fun _ _ hhandles => (handles_setWorker hhandles).resolve_left (by simp)
  | terminate =>
    exact hp.of_quiet rfl (fun _ he => he) (fun _ _ he => he) (fun _ hfd => hfd)
      fun _ _ hhandles => hhandles.of_eq rfl rfl
  | call hworker hanswer => exact hp.answer hok hworker hanswer
  | pass hpass => exact hp.pass (passStep_spec hpass)

end Step

end Process

/-- In every run whose steps keep to `KeepsClients`, `ws_clients` holds open and upgraded
connections, and only what these send is decoded as frames. -/
theorem clientsUpgraded_of_keepsClients (m_server_fd : ℤ) (service : Service) {p : Process}
    (h : (processSystem m_server_fd service).ReachableUnder Process.KeepsClients p) :
    p.ClientsUpgraded := by
  refine (h.invariant (I := Process.ClientsSound) ?_
    fun _ _ _ hp hok hstep => hp.step hok hstep).upgraded
  rintro p rfl
  refine ⟨⟨fun _ hfd => ?_, fun _ _ he => ?_⟩, fun task program hhandles => ?_⟩
  · cases hfd
  · cases he
  · cases hhandles with
    | queued htask => cases htask
    | running hworker => cases hworker

/-! ## A client and its successor -/

namespace Process

def upgradeRequest : Bytes :=
  lit "GET / HTTP/1.1\r\nUpgrade: websocket\r\nSec-WebSocket-Key: akkon\r\n\r\n"

/-- A client on `5` upgrades to a WebSocket, and its polling is enabled again. -/
def upgradeRun : List Label :=
  acceptFirst 3 5 ++ receiveFirst 5 upgradeRequest ++ work 7 ++ [idle, idle, idle, idle, idle]

/-- The client sends a frame, which a worker looks up and decodes. -/
def frameRun : List Label :=
  upgradeRun ++ receiveFirst 5 (WebSocketHandler.encodeFrame (lit "hi")) ++ work 3

/-- The client ends its stream, and the next client gets `5` and sends a plain request. -/
def successorRun : List Label :=
  upgradeRun ++ receiveFirst 5 [] ++ acceptFirst 3 5 ++
    receiveFirst 5 (lit "GET / HTTP/1.1\r\n\r\n") ++ work 3

/-- A client asks for an upgrade without a key. -/
def keylessRun : List Label :=
  acceptFirst 3 5 ++ receiveFirst 5 (lit "GET / HTTP/1.1\r\nUpgrade: websocket\r\n\r\n") ++ work 5

/-- A connection was found in `ws_clients`. -/
def foundFor (conn : ℕ) (e : Server.Event) : Bool :=
  match e with
  | .lookedUp c _ found => c == conn && found
  | _ => false

theorem foundFor_eq_true {conn : ℕ} {e : Server.Event} (h : foundFor conn e = true) :
    ∃ data, e = .lookedUp conn data true := by
  unfold foundFor at h
  split at h
  · next c data found =>
    obtain ⟨rfl, rfl⟩ : c = conn ∧ found = true := by simpa using h
    exact ⟨data, rfl⟩
  · cases h

/-- An upgrade request of a connection. -/
def upgradeFrom (conn : ℕ) (e : Server.Event) : Bool :=
  match e with
  | .received c request => c == conn && WebSocketHandler.isWebSocketUpgrade request
  | _ => false

/-- A `101` response. -/
def isHandshake (e : Server.Event) : Bool :=
  match e with
  | .sent _ _ response _ => startsWith response (lit "HTTP/1.1 101 ")
  | _ => false

/-- Nothing is closed, `accept` returns a number while no handler is there, and what is sent is a
whole `101` response. -/
def upgradesOnly (p : Process) : Label → Bool
  | .loop env => (p.server.closes env).isNone && ((p.server.accepts env).isNone ||
      (p.server.m_tasks.isEmpty && (List.finRange _).all fun w => (p.workers w).isNone))
  | .worker w _ taken =>
    match p.workers w with
    | some ⟨_, .op (.sendData data) _⟩ =>
      startsWith data (lit "HTTP/1.1 101 ") && taken.any fun n => data.length ≤ n
    | _ => true
  | _ => true

theorem keepsClients_of_upgradesOnly {p : Process} {l : Label} (h : p.upgradesOnly l = true) :
    p.KeepsClients l := by
  cases l with
  | loop env =>
    simp only [upgradesOnly, Bool.and_eq_true, Bool.or_eq_true, Option.isNone_iff_eq_none,
      List.isEmpty_iff, List.all_eq_true] at h
    obtain ⟨hcloses, haccepts⟩ := h
    refine ⟨fun fd hclose => ?_, fun fd haccept task program hhandles => ?_⟩
    · rw [hcloses] at hclose
      cases hclose
    · -- no task is queued and no worker is busy
      rcases haccepts with hnone | ⟨htasks, hworkers⟩
      · rw [hnone] at haccept
        cases haccept
      · cases hhandles with
        | queued htask => simp [htasks] at htask
        | @running w _ _ hworker =>
          rw [hworkers w (List.mem_finRange w)] at hworker
          cases hworker
  | worker w env taken =>
    intro task data k hworker _
    simp only [upgradesOnly, hworker, Bool.and_eq_true, Option.any_eq_true, decide_eq_true_eq] at h
    exact h
  | _ => trivial

end Process

open Process

/-- A client that has upgraded is registered, and its frame is decoded. -/
theorem clientsUpgraded_frameRun :
    ∃ p : Process, 5 ∈ p.ws_clients ∧ (∃ data, .lookedUp 0 data true ∈ p.server.trace) ∧
      p.ClientsUpgraded := by
  have hrun : (((processSystem 3 emptyService).restrict (upgradesOnly · ·)).runFrom
      (.start 3 emptyService) frameRun).any
      (fun p => p.ws_clients.contains 5 && p.server.trace.any (foundFor 0)) = true := by
    decide +kernel
  obtain ⟨p, hp, hfound⟩ := StepSystem.exists_reachable_of_any rfl hrun
  obtain ⟨hclient, e, he, hlookedUp⟩ := by
    simpa only [Bool.and_eq_true, List.contains_iff_mem, List.any_eq_true] using hfound
  obtain ⟨data, rfl⟩ := foundFor_eq_true hlookedUp
  refine ⟨p, hclient, ⟨data, he⟩, ?_⟩
  exact clientsUpgraded_of_keepsClients 3 emptyService
    ((StepSystem.Reachable.of_restrict hp).mono fun _ _ => keepsClients_of_upgradesOnly)

/-- The request of a client that never upgraded can be decoded as frames. -/
theorem not_clientsUpgraded_successorRun :
    ¬ ∀ (m_server_fd : ℤ) (service : Service) (p : Process),
      (processSystem m_server_fd service).Reachable p → p.ClientsUpgraded := by
  intro h
  have hrun : ((processSystem 3 emptyService).runFrom (.start 3 emptyService) successorRun).any
      (fun p => p.server.trace.any (foundFor 1) && !p.server.trace.any (upgradeFrom 1)) = true := by
    decide +kernel
  obtain ⟨p, hp, hfound⟩ := StepSystem.exists_reachable_of_any rfl hrun
  obtain ⟨⟨e, he, hlookedUp⟩, hnone⟩ := by
    simpa only [Bool.and_eq_true, Bool.not_eq_true', List.any_eq_true, List.any_eq_false]
      using hfound
  obtain ⟨data, rfl⟩ := foundFor_eq_true hlookedUp
  -- connection `1` has not asked for an upgrade
  obtain ⟨⟨request, hreceived, hupgrade⟩, -⟩ := (h 3 emptyService p hp).decoded 1 data he
  exact hnone _ hreceived (by simp [upgradeFrom, hupgrade])

/-- A client that asks for an upgrade without a key is registered without a response. -/
theorem reachable_keylessRun :
    ∃ p, (processSystem 3 emptyService).Reachable p ∧ 5 ∈ p.ws_clients ∧
      ∀ conn, ¬ Upgraded p.server.trace conn := by
  have hrun : ((processSystem 3 emptyService).runFrom (.start 3 emptyService) keylessRun).any
      (fun p => p.ws_clients.contains 5 && !p.server.trace.any isHandshake) = true := by
    decide +kernel
  obtain ⟨p, hp, hclient⟩ := StepSystem.exists_reachable_of_any rfl hrun
  obtain ⟨hclient, hnone⟩ := by
    simpa only [Bool.and_eq_true, Bool.not_eq_true', List.contains_iff_mem, List.any_eq_false]
      using hclient
  refine ⟨p, hp, hclient, ?_⟩
  rintro conn ⟨-, response, hsent, h101⟩
  exact hnone _ hsent h101

end Main
