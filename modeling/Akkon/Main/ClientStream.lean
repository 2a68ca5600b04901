import Akkon.Main.WebSocketClients

/-!
# The stream of a WebSocket client

The loops over `ws_clients` and the handler of a client write frames to one socket, each by a single
`send`. The socket may take a part of a frame only, and `sendData` reports this as a success.

* `Process.Sends`: what a step of the process sends, to which connection, and how much of it the
  socket takes;
* `Process.acceptedBytes`, `Process.ReceivesFrames`: the bytes a connection was sent, and that from
  some state on these are whole frames;
* `framed_webSocketBranch`: the handler of a client in `ws_clients` sends `exists_batch` replies
  only;
* `receivesFrames_of_takesWhole`: a connection that is sent the frames of the loops and
  `exists_batch` replies receives whole frames in every run in which its socket takes all or
  nothing;
* `not_receivesFrames_shortRun`: it fails when the socket takes one byte of a broadcast.
-/

namespace Main

open Cpp Handler WebSocketHandler

/-! ## Replies of the handler -/

/-- A reply to an `exists_batch` message. -/
def IsBatchFrame (data : Bytes) : Prop :=
  ∃ batch_id results, data = encodeFrame (batchResponse batch_id results)

/-- Any operation but the sending of something else than an `exists_batch` reply. -/
def HandlerOp.Framed (o : HandlerOp) : Prop := ∀ data, o = .sendData data → IsBatchFrame data

theorem HandlerOp.Framed.of_ne {o : HandlerOp} (h : ∀ data, o ≠ .sendData data) : o.Framed :=
  fun data heq => absurd heq (h data)

theorem framed_ofExcept {α : Type} (x : Except Exn α) :
    (ofExcept x).AllOps HandlerOp.Framed := by
  cases x with
  | ok a => trivial
  | error e => exact ⟨.of_ne (by simp), Empty.rec⟩

theorem framed_batchResults (ids : List Bytes) :
    (batchResults ids).AllOps HandlerOp.Framed := by
  induction ids with
  | nil => trivial
  | cons id ids ih =>
    unfold batchResults
    split
    · refine ⟨.of_ne (by simp), fun _ => ⟨.of_ne (by simp), fun _ => ?_⟩⟩
      exact ih.bind fun _ => Prog.allOps_ret _ _
    · exact ih

theorem framed_answerPayload (payload : Bytes) :
    (answerPayload payload).AllOps HandlerOp.Framed := by
  refine (framed_ofExcept _).bind fun action => ?_
  split
  · refine (framed_ofExcept _).bind fun ids => (framed_ofExcept _).bind fun batch_id => ?_
    refine (framed_batchResults ids).bind fun results => ⟨fun data hdata => ?_, fun _ => trivial⟩
    cases hdata
    exact ⟨batch_id, results, rfl⟩
  · trivial

/-- In the branch for a client in `ws_clients` only `exists_batch` replies are sent. -/
theorem framed_webSocketBranch (request : Bytes) :
    (webSocketBranch request).AllOps HandlerOp.Framed := by
  have hpayloads (payloads : List Bytes) : (answerPayloads payloads).AllOps HandlerOp.Framed := by
    induction payloads with
    | nil => trivial
    | cons payload payloads ih => exact (framed_answerPayload payload).bind fun _ => ih
  unfold webSocketBranch
  split
  · exact ⟨.of_ne (by simp), Empty.rec⟩
  · next payloads _ =>
    exact (hpayloads payloads).bind fun _ => ⟨.of_ne (by simp), fun _ => Prog.allOps_ret _ _⟩

namespace Process

/-! ## What is sent -/

/-- The step sends `data` to the connection, and the socket takes the first `taken` bytes. -/
inductive Sends (p : Process) : Label → Server.Author → ℕ → Bytes → ℕ → Prop
  | handler {w : Fin Server.threadPoolSize} {env : HandlerEnv} {n conn : ℕ} {task : Server.Task}
    {data : Bytes} {k : Bool → Handler Unit} :
    p.workers w = some ⟨task, .op (HandlerOp.sendData data) k⟩ →
    p.server.sockets task.fd = some conn →
    Sends p (.worker w env (some n)) (.handler task.conn) conn data (min n data.length)
  | pass {payload frame : Bytes} {n conn : ℕ} {fd : ℤ} {rest : List ℤ} :
    p.pass = some ⟨frame, fd :: rest, .sending⟩ →
    p.server.sockets fd = some conn →
    Sends p (.pass payload (some n)) .clientPass conn frame (min n frame.length)

/-- The bytes that were taken for a connection, in the order they were sent. -/
def acceptedBytes : List Server.Event → ℕ → Bytes
  | [], _ => []
  -- the trace begins with the last event
  | .sent _ conn' data taken :: trace, conn =>
    acceptedBytes trace conn ++ if conn' = conn then data.take taken else []
  | _ :: trace, conn => acceptedBytes trace conn

/-- What a connection has received since the state `p₀` is a concatenation of whole frames. -/
def ReceivesFrames (p₀ p : Process) (conn : ℕ) : Prop :=
  ∃ messages : List Bytes, acceptedBytes p.server.trace conn =
    acceptedBytes p₀.server.trace conn ++ messages.flatMap encodeFrame

/-- A connection is registered in `ws_clients` under its fd number. -/
structure Registered (p : Process) (fd : ℤ) (conn : ℕ) : Prop where
  mem : fd ∈ p.ws_clients
  owner : p.owner fd = conn
  opened : p.server.sockets fd = some conn

/-- Handlers send the connection nothing but `exists_batch` replies. -/
def RepliesFramed (conn : ℕ) (p : Process) (l : Label) : Prop :=
  ∀ conn' data taken, p.Sends l (.handler conn') conn data taken → IsBatchFrame data

/-- The socket of the connection takes all that it is sent, or nothing. -/
def TakesWhole (conn : ℕ) (p : Process) (l : Label) : Prop :=
  ∀ author data taken, p.Sends l author conn data taken → taken = 0 ∨ taken = data.length

/-- The loop over `ws_clients` sends a frame. -/
def PassFramed (p : Process) : Prop :=
  ∀ frame rest phase, p.pass = some ⟨frame, rest, phase⟩ → ∃ message, frame = encodeFrame message

section Step

variable {p p' : Process} {l : Label}

/-- A step records what it sends. -/
def Records (p : Process) (l : Label) (server : Server) : Prop :=
  ∃ new, server.trace = new ++ p.server.trace ∧ ∀ author conn data taken,
    .sent author conn data taken ∈ new → p.Sends l author conn data taken

theorem records_of_trace {server : Server} (h : server.trace = p.server.trace) :
    Records p l server :=
  ⟨[], h, by simp⟩

theorem records_answer {w : Fin Server.threadPoolSize} {env : HandlerEnv} {taken : Option ℕ}
    {task : Server.Task} {o : HandlerOp} {k : o.Res → Handler Unit} {r : o.Res} {q : Process}
    (hworker : p.workers w = some ⟨task, .op o k⟩)
    (h : p.answer task env taken o = some (r, q)) : Records p (.worker w env taken) q.server := by
  cases o with
  | sendData data =>
    obtain ⟨new, hnew, hevents⟩ := sendData_eq p.server (.handler task.conn) task.fd data taken
    simp only [answer, Option.some.injEq, Prod.mk.injEq] at h
    obtain ⟨-, rfl⟩ := h
    refine ⟨new, ?_, fun author conn data' taken' he => ?_⟩
    · rw [hnew]
    · obtain ⟨_, n, rfl, heq, hopen⟩ := hevents _ he
      cases heq
      exact .handler hworker hopen
  | _ =>
    -- the other operations send nothing
    obtain ⟨new, hnew, hevents⟩ := (answer_spec h).trace
    refine ⟨new, hnew, fun author conn data taken' he => ?_⟩
    obtain ⟨-, -, heq⟩ := hevents _ he
    cases heq

theorem records_pass {payload : Bytes} {taken : Option ℕ}
    (h : p.passStep payload taken = some p') : Records p (.pass payload taken) p'.server := by
  rcases passStep_cases h with ⟨-, rfl⟩ | ⟨frame, -, rfl⟩ |
    ⟨frame, fd, rest, phase, hpass, -, rfl⟩ | ⟨frame, rest, fd, server, -, hclose, rfl⟩ |
    ⟨frame, rest, fd, -, rfl⟩
  · exact records_of_trace rfl
  · exact records_of_trace rfl
  · obtain ⟨new, hnew, hevents⟩ := sendData_eq p.server .clientPass fd frame taken
    refine ⟨new, ?_, fun author conn data taken' he => ?_⟩
    · rw [hnew]
    · obtain ⟨_, n, rfl, heq, hopen⟩ := hevents _ he
      cases heq
      exact .pass hpass hopen
  · obtain ⟨rfl, -⟩ := Server.pushAction_eq hclose
    exact records_of_trace rfl
  · exact records_of_trace rfl

/-- What a step of the process sends is recorded. -/
theorem step_records (h : p.step l = some p') : Records p l p'.server := by
  cases step_cases h with
  | loop hserver =>
    obtain ⟨new, hnew, hevents⟩ := (Server.loopStep_spec hserver).trace
    -- the server loop sends nothing
    exact ⟨new, hnew, fun _ _ _ _ he => (hevents _ he).elim⟩
  | @call w env taken task o k r q hworker hanswer =>
    have hrecords : Records p (.worker w env taken) q.server := records_answer hworker hanswer
    exact hrecords
  | pass hpass => exact records_pass hpass
  | _ => exact records_of_trace rfl

/-- The frame of a loop over `ws_clients` is made by `encodeFrame`, and only such a loop changes
it. -/
theorem PassFramed.step (hp : p.PassFramed) (h : p.step l = some p') : p'.PassFramed := by
  cases step_cases h with
  | call hworker hanswer =>
    intro frame rest phase hpass
    refine hp frame rest phase ?_
    rw [← (answer_spec hanswer).pass]
    exact hpass
  | @pass payload taken _ hpass =>
    rcases passStep_cases hpass with ⟨-, rfl⟩ | ⟨frame, -, rfl⟩ |
      ⟨frame, fd, rest, phase, hsending, -, rfl⟩ | ⟨frame, rest, fd, server, hclosing, -, rfl⟩ |
      ⟨frame, rest, fd, herasing, rfl⟩
    · rintro _ _ _ heq
      cases heq
      exact ⟨payload, rfl⟩
    · rintro _ _ _ heq
      cases heq
    -- the loop goes on with the frame it has
    · rintro _ _ _ heq
      cases heq
      exact hp _ _ _ hsending
    · rintro _ _ _ heq
      cases heq
      exact hp _ _ _ hclosing
    · rintro _ _ _ heq
      cases heq
      exact hp _ _ _ herasing
  | _ => exact hp

/-- What is taken whole, or not at all, adds whole frames. -/
theorem acceptedBytes_append {new trace : List Server.Event} {conn : ℕ}
    (h : ∀ author data taken, .sent author conn data taken ∈ new →
      (taken = 0 ∨ taken = data.length) ∧ ∃ message, data = encodeFrame message) :
    ∃ messages : List Bytes, acceptedBytes (new ++ trace) conn =
      acceptedBytes trace conn ++ messages.flatMap encodeFrame := by
  induction new with
  | nil => exact ⟨[], by simp⟩
  | cons e new ih =>
    obtain ⟨messages, hmessages⟩ := ih fun author data taken he =>
      h author data taken (List.mem_cons_of_mem _ he)
    cases e with
    | sent author conn' data taken =>
      rw [List.cons_append, acceptedBytes, hmessages]
      by_cases hconn : conn' = conn
      · -- one frame more, or none
        obtain ⟨hwhole, message, rfl⟩ := h author data taken (hconn ▸ List.mem_cons_self)
        rcases hwhole with rfl | rfl
        · exact ⟨messages, by simp⟩
        · refine ⟨messages ++ [message], ?_⟩
          rw [if_pos hconn, List.take_length, List.append_assoc, List.flatMap_append,
            List.flatMap_singleton]
      · refine ⟨messages, ?_⟩
        rw [if_neg hconn, List.append_nil]
    | _ => exact ⟨messages, hmessages⟩

/-- A step that sends a connection whole frames keeps its stream one of whole frames. -/
theorem ReceivesFrames.step {p₀ : Process} {conn : ℕ} (hp : p₀.ReceivesFrames p conn)
    (hframed : p.PassFramed) (hreplies : RepliesFramed conn p l) (hwhole : TakesWhole conn p l)
    (h : p.step l = some p') : p₀.ReceivesFrames p' conn := by
  obtain ⟨messages, hmessages⟩ := hp
  obtain ⟨new, hnew, hsent⟩ := step_records h
  have hframes : ∀ author data taken, .sent author conn data taken ∈ new →
      (taken = 0 ∨ taken = data.length) ∧ ∃ message, data = encodeFrame message := by
    intro author data taken he
    have hsends := hsent author conn data taken he
    refine ⟨hwhole author data taken hsends, ?_⟩
    cases hsends with
    -- a frame either way
    | handler hworker hopen =>
      obtain ⟨batch_id, results, hdata⟩ := hreplies _ _ _ (.handler hworker hopen)
      exact ⟨_, hdata⟩
    | pass hpass _ => exact hframed _ _ _ hpass
  obtain ⟨messages', hmessages'⟩ := @acceptedBytes_append new p.server.trace conn hframes
  refine ⟨messages ++ messages', ?_⟩
  rw [hnew, hmessages', hmessages, List.append_assoc, List.flatMap_append]

end Step

end Process

/-- From any state on, a connection that handlers send `exists_batch` replies only receives whole
frames in every run in which its socket takes all of each frame or nothing. -/
theorem receivesFrames_of_takesWhole (m_server_fd : ℤ) (service : Service) {p₀ p : Process}
    {conn : ℕ} (h₀ : (processSystem m_server_fd service).Reachable p₀)
    (h : ((processSystem m_server_fd service).startingAt p₀).ReachableUnder
      (fun p l => Process.RepliesFramed conn p l ∧ Process.TakesWhole conn p l) p) :
    p₀.ReceivesFrames p conn := by
  have hframed : p₀.PassFramed := by
    refine h₀.invariant ?_ fun _ _ _ hp _ hstep => hp.step hstep
    rintro p rfl frame rest phase hpass
    cases hpass
  have hinv : p.PassFramed ∧ p₀.ReceivesFrames p conn := by
    refine h.invariant (I := fun p => p.PassFramed ∧ p₀.ReceivesFrames p conn) ?_ ?_
    · rintro p rfl
      exact ⟨hframed, [], by simp⟩
    · rintro p l p' ⟨hp, hreceives⟩ ⟨hreplies, hwhole⟩ hstep
      exact ⟨hp.step hstep, hreceives.step hp hreplies hwhole hstep⟩
  exact hinv.2

/-! ## A frame that is cut off -/

namespace Process

/-- An `exists_batch` message without identifiers. -/
def batchMessage : Bytes :=
  lit "\x7b\"action\":\"exists_batch\",\"batch_id\":\"1\",\"identifiers\":[]\x7d"

/-- The client sends an `exists_batch` message and gets its reply; then it gets a broadcast. -/
def streamRun : List Label :=
  receiveFirst 5 (encodeFrame batchMessage) ++ work 6 ++
    [.pass (lit "stats") none, .pass [] (some 4096), .pass [] none]

/-- The socket takes one byte of a broadcast. -/
def shortRun : List Label := [.pass (lit "stats") none, .pass [] (some 1)]

/-- What is sent is taken as a whole, and by a handler it is the reply to `batchMessage`. -/
def sendsWhole (p : Process) : Label → Bool
  | .worker w _ taken =>
    match p.workers w with
    | some ⟨_, .op (.sendData data) _⟩ =>
      data == encodeFrame (batchResponse (lit "1") []) && taken.all fun n => data.length ≤ n
    | _ => true
  | .pass _ taken =>
    match p.pass with
    | some ⟨frame, _ :: _, .sending⟩ => taken.all fun n => frame.length ≤ n
    | _ => true
  | _ => true

theorem whole_of_sendsWhole {p : Process} {l : Label} (conn : ℕ) (h : p.sendsWhole l = true) :
    RepliesFramed conn p l ∧ TakesWhole conn p l := by
  refine ⟨fun conn' data taken hsends => ?_, fun author data taken hsends => ?_⟩
  · cases hsends with
    | handler hworker hopen =>
      simp only [sendsWhole, hworker, Bool.and_eq_true, beq_iff_eq] at h
      exact ⟨lit "1", [], h.1⟩
  · cases hsends with
    | handler hworker hopen =>
      simp only [sendsWhole, hworker, Bool.and_eq_true, Option.all_some, decide_eq_true_eq] at h
      exact .inr (Nat.min_eq_right h.2)
    | pass hpass hopen =>
      simp only [sendsWhole, hpass, Option.all_some, decide_eq_true_eq] at h
      exact .inr (Nat.min_eq_right h)

/-- Only the loops over `ws_clients` take steps. -/
def passesOnly (_ : Process) : Label → Bool
  | .pass _ _ => true
  | _ => false

theorem repliesFramed_of_passesOnly {p : Process} {l : Label} (conn : ℕ)
    (h : p.passesOnly l = true) : RepliesFramed conn p l := by
  intro conn' data taken hsends
  cases hsends with
  | handler hworker hopen => cases h

instance (p : Process) (fd : ℤ) (conn : ℕ) : Decidable (p.Registered fd conn) :=
  decidable_of_iff (fd ∈ p.ws_clients ∧ p.owner fd = conn ∧ p.server.sockets fd = some conn)
    ⟨fun h => ⟨h.1, h.2.1, h.2.2⟩, fun h => ⟨h.mem, h.owner, h.opened⟩⟩

end Process

open Process

/-- A registered client gets a reply and a broadcast. -/
theorem receivesFrames_streamRun :
    ∃ p₀ p : Process, p₀.Registered 5 0 ∧ p.Registered 5 0 ∧
      (acceptedBytes p₀.server.trace 0).length < (acceptedBytes p.server.trace 0).length ∧
      p₀.ReceivesFrames p 0 := by
  have hrun : ((processSystem 3 emptyService).runFrom (.start 3 emptyService) upgradeRun).any
      (fun p₀ => decide (p₀.Registered 5 0) &&
        ((((processSystem 3 emptyService).startingAt p₀).restrict (sendsWhole · ·)).runFrom p₀
          streamRun).any fun p => decide (p.Registered 5 0) &&
            decide ((acceptedBytes p₀.server.trace 0).length <
              (acceptedBytes p.server.trace 0).length)) = true := by
    decide +kernel
  obtain ⟨p₀, hp₀, hend⟩ := StepSystem.exists_reachable_of_any rfl hrun
  obtain ⟨hclient₀, hstream⟩ := by simpa only [Bool.and_eq_true, decide_eq_true_eq] using hend
  obtain ⟨p, hp, hend⟩ := StepSystem.exists_reachable_of_any rfl hstream
  obtain ⟨hclient, hlt⟩ := by simpa only [Bool.and_eq_true, decide_eq_true_eq] using hend
  refine ⟨p₀, p, hclient₀, hclient, hlt, ?_⟩
  exact receivesFrames_of_takesWhole 3 emptyService hp₀
    ((StepSystem.Reachable.of_restrict hp).mono fun _ _ => whole_of_sendsWhole 0)

/-- A client that stays registered can receive less than a frame. -/
theorem not_receivesFrames_shortRun :
    ¬ ∀ (m_server_fd : ℤ) (service : Service) (p₀ p : Process) (fd : ℤ) (conn : ℕ),
      (processSystem m_server_fd service).Reachable p₀ → p₀.Registered fd conn →
      ((processSystem m_server_fd service).startingAt p₀).ReachableUnder (RepliesFramed conn) p →
      p.Registered fd conn → p₀.ReceivesFrames p conn := by
  intro h
  have hrun : ((processSystem 3 emptyService).runFrom (.start 3 emptyService) upgradeRun).any
      (fun p₀ => decide (p₀.Registered 5 0) &&
        ((((processSystem 3 emptyService).startingAt p₀).restrict (passesOnly · ·)).runFrom p₀
          shortRun).any fun p => decide (p.Registered 5 0) &&
            decide ((acceptedBytes p.server.trace 0).length =
              (acceptedBytes p₀.server.trace 0).length + 1)) = true := by
    decide +kernel
  obtain ⟨p₀, hp₀, hend⟩ := StepSystem.exists_reachable_of_any rfl hrun
  obtain ⟨hclient₀, hshort⟩ := by simpa only [Bool.and_eq_true, decide_eq_true_eq] using hend
  obtain ⟨p, hp, hend⟩ := StepSystem.exists_reachable_of_any rfl hshort
  obtain ⟨hclient, hone⟩ := by simpa only [Bool.and_eq_true, decide_eq_true_eq] using hend
  obtain ⟨messages, hmessages⟩ := h 3 emptyService p₀ p 5 0 hp₀ hclient₀
    ((StepSystem.Reachable.of_restrict hp).mono fun _ _ => repliesFramed_of_passesOnly 0) hclient
  -- one byte is no concatenation of frames, each of which has two at least
  have hlength := congrArg List.length hmessages
  rw [hone, List.length_append] at hlength
  cases messages with
  | nil => simp at hlength
  | cons message messages =>
    have htwo := two_le_length_encodeFrame message
    rw [List.flatMap_cons, List.length_append] at hlength
    omega

end Main
