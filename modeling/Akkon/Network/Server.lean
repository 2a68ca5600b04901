import Mathlib.Data.List.Basic
import Mathlib.Logic.Function.Basic
import Akkon.Cpp.String
import Akkon.Security.LifecycleManager

/-!
# `network::Server`

The server loop of `Server.cpp`, one step at a time, with the sockets it works on. An fd number is
free again as soon as it is closed, and `accept` may return any free number; the source keeps
nothing else of a connection. To speak of connections all the same, the model numbers them in the
order they are accepted: `sockets` tells which connection an fd number stands for, tasks and actions
carry the connection they were made for, and `trace` records what happened to which connection. No
step reads any of these, except that `send`, `recv` and `accept` see whether an fd number is open.

* `LoopPhase`: where the loop is, one phase for each point where another thread can come in between;
* `loopStep`: one step of the loop, with the results of `poll`, `accept` and `recv` in a `LoopEnv`;
* `closeClient`, `enablePolling`, `sendData`: what the other threads call;
* `LoopCase`, `loopStep_cases`: the ways through a step of the loop;
* `LoopStep`, `loopStep_spec`: all that a step of the loop does to sockets, tasks, actions
  and trace.
-/

namespace Server

open Cpp Security

/-! ## State -/

/-- `THREAD_POOL_SIZE`. -/
abbrev threadPoolSize : ℕ := 8

theorem threadPoolSize_pos : 0 < threadPoolSize := by decide

/-- `pollfd`. `POLLIN` is the only event that is asked for and looked at; `fd` is `-1` in an entry
that is to be erased. -/
structure PollFd where
  fd : ℤ
  events : Bool
  revents : Bool
  deriving DecidableEq, Repr

/-- `ActionType`. -/
inductive ActionType
  | CLOSE_CLIENT
  | ENABLE_POLLING
  deriving DecidableEq, Repr

/-- `ClientAction`, with the connection it is meant for. -/
structure ClientAction where
  fd : ℤ
  type : ActionType
  conn : ℕ
  deriving DecidableEq, Repr

/-- A task of the thread pool: `m_handler(fd, data)`, with the connection the data came from. -/
structure Task where
  fd : ℤ
  data : Bytes
  conn : ℕ
  deriving DecidableEq, Repr

/-- Who sends: the handler for a connection, or a loop over `ws_clients`. -/
inductive Author
  | handler (conn : ℕ)
  | clientPass
  deriving DecidableEq, Repr

/-- What happened to a connection. -/
inductive Event
  | accepted (fd : ℤ) (conn : ℕ)
  /-- `close` of an fd number; no connection when the number was not open. -/
  | closed (fd : ℤ) (conn : Option ℕ)
  | received (conn : ℕ) (data : Bytes)
  /-- `send` took the first `taken` bytes of `data`. -/
  | sent (author : Author) (conn : ℕ) (data : Bytes) (taken : ℕ)
  /-- An action was applied to the entry of a connection. -/
  | applied (action : ClientAction) (conn : ℕ)
  /-- The handler for a connection looked its fd number up in `ws_clients`. -/
  | lookedUp (conn : ℕ) (data : Bytes) (found : Bool)
  deriving DecidableEq, Repr

/-- Where the server loop is. -/
inductive LoopPhase
  /-- At the test of the lockdown state. -/
  | top
  /-- In the loop of `disconnectAll`. -/
  | disconnecting (i : ℕ)
  /-- In front of the lock of `m_action_mutex`. -/
  | locking
  /-- Under `m_action_mutex`, with the actions still to be applied. -/
  | actions (rest : List ClientAction)
  | polling
  | accepting
  /-- In the loop over the client sockets. -/
  | receiving (i : ℕ)
  /-- Behind the loop. -/
  | stopped
  deriving DecidableEq, Repr

end Server

open Server Cpp Security in
/-- `Server`, with the sockets of the process. -/
structure Server where
  m_server_fd : ℤ
  m_fds : List PollFd
  m_pending_actions : List ClientAction
  /-- `m_thread_pool.m_tasks`. -/
  m_tasks : List Task
  /-- The static local of `start`. -/
  last_state : LockdownState
  phase : LoopPhase
  /-- The connection an open fd number stands for. -/
  sockets : ℤ → Option ℕ
  /-- The number of connections so far. -/
  connections : ℕ
  /-- The events so far, the last one first. -/
  trace : List Event

namespace Server

open Cpp Security

/-- The state in front of the loop. -/
def listening (m_server_fd : ℤ) : Server where
  m_server_fd := m_server_fd
  m_fds := [⟨m_server_fd, true, false⟩]
  m_pending_actions := []
  m_tasks := []
  last_state := .NONE
  phase := .top
  sockets _ := none
  connections := 0
  trace := []

def record (s : Server) (e : Event) : Server := { s with trace := e :: s.trace }

/-! ## Calls of other threads -/

/-- `m_action_mutex` is held by the loop. -/
def actionsLocked (s : Server) : Bool :=
  match s.phase with
  | .actions _ => true
  | _ => false

/-- `closeClient` and `enablePolling` wait for `m_action_mutex`. -/
def pushAction (s : Server) (action : ClientAction) : Option Server :=
  if s.actionsLocked then none
  else some { s with m_pending_actions := s.m_pending_actions ++ [action] }

def closeClient (s : Server) (fd : ℤ) (conn : ℕ) : Option Server :=
  s.pushAction ⟨fd, .CLOSE_CLIENT, conn⟩

def enablePolling (s : Server) (fd : ℤ) (conn : ℕ) : Option Server :=
  s.pushAction ⟨fd, .ENABLE_POLLING, conn⟩

/-- `sendData`. On an open socket `send` takes a number of bytes or fails, as `taken` says; on an fd
number that is not open it fails. -/
def sendData (s : Server) (author : Author) (fd : ℤ) (data : Bytes) (taken : Option ℕ) :
    Bool × Server :=
  match s.sockets fd, taken with
  | some conn, some n => (true, s.record (.sent author conn data (min n data.length)))
  | _, _ => (false, s)

/-! ## The server loop -/

/-- The result of `poll`. -/
inductive PollResult
  | failed
  | timeout
  | ready (readable : ℤ → Bool)

/-- The results of the system calls of the loop: `poll`, `accept`, and the bytes of a `recv`, none
at the end of the stream or on an error. -/
structure LoopEnv where
  poll : PollResult
  client : Option ℤ
  data : Bytes

/-- `close_socket`. -/
def closeSocket (s : Server) (fd : ℤ) : Server :=
  record { s with sockets := Function.update s.sockets fd none } (.closed fd (s.sockets fd))

/-- The calls of `close_socket` for the entries with an fd number. -/
def closeMatching (s : Server) (fd : ℤ) : List PollFd → Server
  | [] => s
  | pfd :: rest => if pfd.fd = fd then (s.closeSocket fd).closeMatching fd rest
    else s.closeMatching fd rest

/-- The event of an action that meets an entry. -/
def recordApplied (s : Server) (action : ClientAction) : Server :=
  match s.sockets action.fd with
  | some conn =>
    if action.fd ∈ s.m_fds.map PollFd.fd then s.record (.applied action conn) else s
  | none => s

/-- An entry against an action: closed and marked, or polled again, when the fd numbers agree. -/
def ClientAction.applyTo (action : ClientAction) (pfd : PollFd) : PollFd :=
  if pfd.fd = action.fd then
    match action.type with
    | .CLOSE_CLIENT => { pfd with fd := -1 }
    | .ENABLE_POLLING => { pfd with events := true }
  else pfd

/-- One pending action against all entries. -/
def applyAction (s : Server) (action : ClientAction) : Server :=
  let s' := s.recordApplied action
  let s' := if action.type = .CLOSE_CLIENT then s'.closeMatching action.fd s.m_fds else s'
  { s' with m_fds := s.m_fds.map action.applyTo }

/-- `m_fds.erase(std::remove_if(...))`. -/
def eraseMarked (s : Server) : Server := { s with m_fds := s.m_fds.filter fun pfd => pfd.fd ≠ -1 }

/-- `poll` fills in `revents`. -/
def setRevents (s : Server) (readable : ℤ → Bool) : Server :=
  { s with m_fds := s.m_fds.map fun pfd => { pfd with revents := pfd.events && readable pfd.fd } }

/-- A number that `accept` can return. -/
def Free (s : Server) (fd : ℤ) : Prop := 0 ≤ fd ∧ fd ≠ s.m_server_fd ∧ s.sockets fd = none

instance (s : Server) (fd : ℤ) : Decidable (s.Free fd) := inferInstanceAs (Decidable (_ ∧ _))

/-- A new connection. -/
def addClient (s : Server) (fd : ℤ) : Server :=
  record
    { s with
      m_fds := s.m_fds ++ [⟨fd, true, false⟩]
      sockets := Function.update s.sockets fd (some s.connections)
      connections := s.connections + 1 }
    (.accepted fd s.connections)

/-- The body of the loop over the client sockets, for the entry `i`. The buffer of `recv` has 4096
bytes. -/
def receive (s : Server) (i : ℕ) (pfd : PollFd) (data : Bytes) : Server :=
  match s.sockets pfd.fd, data.take 4096 with
  | some conn, b :: bs =>
    record
      { s with
        m_fds := s.m_fds.set i { pfd with events := false }
        m_tasks := s.m_tasks ++ [⟨pfd.fd, b :: bs, conn⟩] }
      (.received conn (b :: bs))
  | _, _ => { s.closeSocket pfd.fd with m_fds := s.m_fds.set i { pfd with fd := -1 } }

/-- `m_fds[0].revents & POLLIN`. -/
def listenerReady (s : Server) : Bool :=
  match s.m_fds with
  | pfd :: _ => pfd.revents
  | [] => false

/-- One step of the loop. -/
def loopStep (s : Server) (lockdown : LockdownState) (env : LoopEnv) : Option Server :=
  match s.phase with
  -- `disconnectAll` is called once for each change to `IMMEDIATE`
  | .top => some
    { s with
      last_state := lockdown
      phase := if lockdown = .IMMEDIATE ∧ s.last_state ≠ .IMMEDIATE then .disconnecting 1
        else .locking }
  | .disconnecting i =>
    match s.m_fds[i]? with
    | some pfd => some { s.closeSocket pfd.fd with phase := .disconnecting (i + 1) }
    -- `m_fds.resize(1)`
    | none => some { s with m_fds := s.m_fds.take 1, phase := .locking }
  | .locking => some { s with phase := .actions s.m_pending_actions }
  | .actions (action :: rest) => some { s.applyAction action with phase := .actions rest }
  | .actions [] => some { s.eraseMarked with m_pending_actions := [], phase := .polling }
  | .polling =>
    match env.poll with
    -- `ret < 0` ends the loop, `ret == 0` starts it over
    | .failed => some { s with phase := .stopped }
    | .timeout => some { s.setRevents (fun _ => false) with phase := .top }
    | .ready readable => some { s.setRevents readable with phase := .accepting }
  | .accepting =>
    if s.listenerReady then
      match env.client with
      | none => some { s with phase := .receiving 1 }
      | some fd => if s.Free fd then some { s.addClient fd with phase := .receiving 1 } else none
    else some { s with phase := .receiving 1 }
  | .receiving i =>
    match s.m_fds[i]? with
    -- the second erasure of the marked entries
    | none => some { s.eraseMarked with phase := .top }
    | some pfd =>
      if pfd.revents then some { s.receive i pfd env.data with phase := .receiving (i + 1) }
      else some { s with phase := .receiving (i + 1) }
  | .stopped => none

/-! ## What a step of the loop does -/

/-- The fd number that the next step of the loop closes. -/
def closes (s : Server) (env : LoopEnv) : Option ℤ :=
  match s.phase with
  | .disconnecting i => s.m_fds[i]?.map PollFd.fd
  | .actions (action :: _) =>
    if action.type = .CLOSE_CLIENT ∧ action.fd ∈ s.m_fds.map PollFd.fd then some action.fd else none
  | .receiving i =>
    match s.m_fds[i]? with
    | some pfd =>
      if pfd.revents = true ∧ (s.sockets pfd.fd = none ∨ env.data = []) then some pfd.fd else none
    | none => none
  | _ => none

/-- The fd number that the next step of the loop gets from `accept`. -/
def accepts (s : Server) (env : LoopEnv) : Option ℤ :=
  match s.phase with
  | .accepting => if s.listenerReady then env.client else none
  | _ => none

/-- The ways through a step of the loop. -/
inductive LoopCase (s : Server) (lockdown : LockdownState) (env : LoopEnv) : Server → Prop
  /-- `disconnectAll` is called. -/
  | disconnectAll : s.phase = .top → lockdown = .IMMEDIATE ∧ s.last_state ≠ .IMMEDIATE →
    LoopCase s lockdown env { s with last_state := lockdown, phase := .disconnecting 1 }
  | top : s.phase = .top → ¬(lockdown = .IMMEDIATE ∧ s.last_state ≠ .IMMEDIATE) →
    LoopCase s lockdown env { s with last_state := lockdown, phase := .locking }
  | disconnect {i : ℕ} {pfd : PollFd} : s.phase = .disconnecting i → s.m_fds[i]? = some pfd →
    LoopCase s lockdown env { s.closeSocket pfd.fd with phase := .disconnecting (i + 1) }
  | resize {i : ℕ} : s.phase = .disconnecting i → s.m_fds[i]? = none →
    LoopCase s lockdown env { s with m_fds := s.m_fds.take 1, phase := .locking }
  | lock : s.phase = .locking →
    LoopCase s lockdown env { s with phase := .actions s.m_pending_actions }
  | action {action : ClientAction} {rest : List ClientAction} :
    s.phase = .actions (action :: rest) →
    LoopCase s lockdown env { s.applyAction action with phase := .actions rest }
  /-- All actions are applied. -/
  | unlock : s.phase = .actions [] →
    LoopCase s lockdown env { s.eraseMarked with m_pending_actions := [], phase := .polling }
  | pollFailed : s.phase = .polling → env.poll = .failed →
    LoopCase s lockdown env { s with phase := .stopped }
  | pollTimeout : s.phase = .polling → env.poll = .timeout →
    LoopCase s lockdown env { s.setRevents (fun _ => false) with phase := .top }
  | pollReady {readable : ℤ → Bool} : s.phase = .polling → env.poll = .ready readable →
    LoopCase s lockdown env { s.setRevents readable with phase := .accepting }
  | noClient : s.phase = .accepting → s.accepts env = none →
    LoopCase s lockdown env { s with phase := .receiving 1 }
  | accept {fd : ℤ} : s.phase = .accepting → s.accepts env = some fd → s.Free fd →
    LoopCase s lockdown env { s.addClient fd with phase := .receiving 1 }
  | receive {i : ℕ} {pfd : PollFd} : s.phase = .receiving i → s.m_fds[i]? = some pfd →
    pfd.revents = true →
    LoopCase s lockdown env { s.receive i pfd env.data with phase := .receiving (i + 1) }
  /-- Nothing is to be read from the entry. -/
  | skip {i : ℕ} {pfd : PollFd} : s.phase = .receiving i → s.m_fds[i]? = some pfd →
    pfd.revents = false →
    LoopCase s lockdown env { s with phase := .receiving (i + 1) }
  | erase {i : ℕ} : s.phase = .receiving i → s.m_fds[i]? = none →
    LoopCase s lockdown env { s.eraseMarked with phase := .top }

/-- The actions that are pending or being applied. -/
def actionList (s : Server) : List ClientAction :=
  match s.phase with
  | .actions rest => s.m_pending_actions ++ rest
  | _ => s.m_pending_actions

/-- What the next step of the loop can record. -/
def LoopEvent (s : Server) (env : LoopEnv) : Event → Prop
  | .accepted fd _ => s.accepts env = some fd
  | .closed fd _ => s.closes env = some fd
  | .received _ _ => True
  | .sent _ _ _ _ => False
  | .applied action conn => action ∈ s.actionList ∧ s.sockets action.fd = some conn
  | .lookedUp _ _ _ => False

/-- What a step of the loop can do to the sockets, the tasks, the actions and the trace. -/
structure LoopStep (env : LoopEnv) (s s' : Server) : Prop where
  /-- A socket was open before, or `accept` has returned its number, which was free. -/
  opened : ∀ fd conn, s'.sockets fd = some conn →
    s.sockets fd = some conn ∨ (s.accepts env = some fd ∧ s.sockets fd = none)
  /-- A socket stays open, or the step closes it. -/
  kept : ∀ fd conn, s.sockets fd = some conn →
    s'.sockets fd = some conn ∨ s.closes env = some fd
  /-- A new task is for the connection behind the socket its data came from, which stays open. -/
  tasks : ∀ task ∈ s'.m_tasks, task ∈ s.m_tasks ∨
    (s.sockets task.fd = some task.conn ∧ s'.sockets task.fd = some task.conn ∧
      .received task.conn task.data ∈ s'.trace)
  /-- No action is added. -/
  actions : ∀ action ∈ s'.actionList, action ∈ s.actionList
  trace : ∃ new, s'.trace = new ++ s.trace ∧ ∀ e ∈ new, s.LoopEvent env e

section LoopSpec

variable {env : LoopEnv} {s s' : Server} {lockdown : LockdownState}

/-- A step of the loop goes one of the ways. -/
theorem loopStep_cases (h : s.loopStep lockdown env = some s') : LoopCase s lockdown env s' := by
  unfold loopStep at h
  -- One case for each phase of an iteration, and for each branch that the phase takes.
  cases hphase : s.phase with
  | top =>
    simp only [hphase, Option.some.injEq] at h
    subst h
    by_cases hlock : lockdown = .IMMEDIATE ∧ s.last_state ≠ .IMMEDIATE
    · simp only [if_pos hlock]
      exact .disconnectAll hphase hlock
    · simp only [if_neg hlock]
      exact .top hphase hlock
  | disconnecting i =>
    simp only [hphase] at h
    split at h
    · next pfd hpfd =>
      cases h
      exact .disconnect hphase hpfd
    · next hend =>
      cases h
      exact .resize hphase hend
  | locking =>
    simp only [hphase, Option.some.injEq] at h
    subst h
    exact .lock hphase
  | actions rest =>
    cases rest with
    | nil =>
      simp only [hphase, Option.some.injEq] at h
      subst h
      exact .unlock hphase
    | cons action rest =>
      simp only [hphase, Option.some.injEq] at h
      subst h
      exact .action hphase
  -- The result of `poll`: an error, no descriptor, or some of them.
  | polling =>
    simp only [hphase] at h
    split at h
    · next hpoll =>
      cases h
      exact .pollFailed hphase hpoll
    · next hpoll =>
      cases h
      exact .pollTimeout hphase hpoll
    · next hpoll =>
      cases h
      exact .pollReady hphase hpoll
  -- `accept` is called only when the listening socket is ready, and the number it returns is not
  -- in use.
  | accepting =>
    simp only [hphase] at h
    split at h
    · next hready =>
      split at h
      · next hclient =>
        cases h
        exact .noClient hphase (by simp [accepts, hphase, hclient])
      · next fd hclient =>
        split at h
        · next hfree =>
          cases h
          exact .accept hphase (by simp [accepts, hphase, hready, hclient]) hfree
        · cases h
    · next hready =>
      cases h
      exact .noClient hphase (by simp [accepts, hphase, hready])
  | receiving i =>
    simp only [hphase] at h
    split at h
    · next hend =>
      cases h
      exact .erase hphase hend
    · next pfd hpfd =>
      split at h
      · next hrevents =>
        cases h
        exact .receive hphase hpfd hrevents
      · next hrevents =>
        cases h
        exact .skip hphase hpfd (by simpa using hrevents)
  | stopped =>
    simp only [hphase] at h
    cases h

/-- A step forgets nothing of what happened. -/
theorem LoopStep.trace_subset (h : LoopStep env s s') : ∀ e ∈ s.trace, e ∈ s'.trace := by
  obtain ⟨new, hnew, -⟩ := h.trace
  intro e he
  rw [hnew]
  exact List.mem_append_right _ he

/-- Pending one more action. -/
theorem pushAction_eq {action : ClientAction}
    (h : s.pushAction action = some s') :
    s' = { s with m_pending_actions := s.m_pending_actions ++ [action] } ∧
      ∀ a ∈ s'.actionList, a ∈ s.actionList ∨ a = action := by
  unfold pushAction at h
  split at h
  · cases h
  · cases h
    refine ⟨rfl, fun a ha => ?_⟩
    simp only [actionList] at ha ⊢
    grind

/-- An action is pushed only while none is being applied. -/
theorem phase_of_pushAction {action : ClientAction} (h : s.pushAction action = some s')
    (rest : List ClientAction) : s.phase ≠ .actions rest := by
  intro hphase
  have hlocked : s.actionsLocked = true := by rw [actionsLocked, hphase]
  rw [pushAction, if_pos hlocked] at h
  cases h

/-- A step that leaves the sockets, the tasks and the trace alone. -/
theorem LoopStep.of_quiet (hsockets : s'.sockets = s.sockets) (htasks : s'.m_tasks = s.m_tasks)
    (hactions : ∀ action ∈ s'.actionList, action ∈ s.actionList) (htrace : s'.trace = s.trace) :
    LoopStep env s s' where
  opened fd conn h := Or.inl (hsockets ▸ h)
  kept fd conn h := Or.inl (hsockets ▸ h)
  tasks task h := Or.inl (htasks ▸ h)
  actions := hactions
  trace := ⟨[], htrace, by simp⟩

/-- A step that closes a socket, and leaves the tasks and the actions alone. -/
theorem LoopStep.of_close {fd : ℤ} (new : List Event) (hcloses : s.closes env = some fd)
    (hsockets : s'.sockets = Function.update s.sockets fd none) (htasks : s'.m_tasks = s.m_tasks)
    (hactions : ∀ action ∈ s'.actionList, action ∈ s.actionList)
    (htrace : s'.trace = new ++ s.trace) (hnew : ∀ e ∈ new, s.LoopEvent env e) :
    LoopStep env s s' where
  opened fd' conn h := by
    rw [hsockets, Function.update_apply] at h
    split at h
    · cases h
    · exact Or.inl h
  kept fd' conn h := by
    rw [hsockets, Function.update_apply]
    split
    · next heq => exact Or.inr (heq ▸ hcloses)
    · exact Or.inl h
  tasks task h := Or.inl (htasks ▸ h)
  actions := hactions
  trace := ⟨new, htrace, hnew⟩

/-- Closing the entries with an fd number changes its socket and the trace. -/
theorem closeMatching_eq (fd : ℤ) (fds : List PollFd) (s : Server) :
    ∃ new, s.closeMatching fd fds =
        { s with
          sockets := if fd ∈ fds.map PollFd.fd then Function.update s.sockets fd none else s.sockets
          trace := new ++ s.trace } ∧
      ∀ e ∈ new, fd ∈ fds.map PollFd.fd ∧ ∃ conn, e = .closed fd conn := by
  induction fds generalizing s with
  | nil => exact ⟨[], rfl, by simp⟩
  | cons pfd fds ih =>
    rw [closeMatching]
    split
    · next hfd =>
      -- closing the number a second time finds it closed already
      obtain ⟨new, hnew, hevents⟩ := ih (s.closeSocket fd)
      have hmem : fd ∈ (pfd :: fds).map PollFd.fd := by
        rw [List.map_cons, hfd]
        exact List.mem_cons_self
      refine ⟨new ++ [.closed fd (s.sockets fd)], ?_, ?_⟩
      · rw [hnew]
        simp only [if_pos hmem]
        split <;> simp [closeSocket, record]
      · intro e he
        rcases List.mem_append.mp he with he | he
        · exact ⟨hmem, (hevents e he).2⟩
        · exact ⟨hmem, _, List.mem_singleton.mp he⟩
    · next hfd =>
      obtain ⟨new, hnew, hevents⟩ := ih s
      refine ⟨new, ?_, fun e he => ⟨List.mem_cons_of_mem _ (hevents e he).1, (hevents e he).2⟩⟩
      have hiff : fd ∈ (pfd :: fds).map PollFd.fd ↔ fd ∈ fds.map PollFd.fd := by
        simp [Ne.symm hfd]
      rw [hnew]
      simp only [hiff]

/-- The event of an action is one of the connection behind its fd number. -/
theorem recordApplied_eq (action : ClientAction) (s : Server) :
    ∃ new, s.recordApplied action = { s with trace := new ++ s.trace } ∧
      ∀ e ∈ new, ∃ conn, e = .applied action conn ∧ s.sockets action.fd = some conn := by
  unfold recordApplied
  split
  · next conn hconn =>
    split
    · refine ⟨[.applied action conn], rfl, fun e he => ⟨conn, List.mem_singleton.mp he, hconn⟩⟩
    · exact ⟨[], rfl, by simp⟩
  · exact ⟨[], rfl, by simp⟩

/-- An action closes at most its own fd number, and changes `m_fds` and the trace. -/
theorem applyAction_eq (action : ClientAction) (s : Server) :
    ∃ new, s.applyAction action =
        { s with
          m_fds := s.m_fds.map action.applyTo
          sockets :=
            if action.type = .CLOSE_CLIENT ∧ action.fd ∈ s.m_fds.map PollFd.fd then
              Function.update s.sockets action.fd none
            else s.sockets
          trace := new ++ s.trace } ∧
      ∀ e ∈ new, (∃ conn, e = .applied action conn ∧ s.sockets action.fd = some conn) ∨
        ((action.type = .CLOSE_CLIENT ∧ action.fd ∈ s.m_fds.map PollFd.fd) ∧
          ∃ conn, e = .closed action.fd conn) := by
  obtain ⟨new, hnew, hevents⟩ := recordApplied_eq action s
  unfold applyAction
  rw [hnew]
  -- Only `CLOSE_CLIENT` closes the sockets of the entries it marks.
  by_cases htype : action.type = .CLOSE_CLIENT
  · obtain ⟨new', hnew', hevents'⟩ := closeMatching_eq action.fd s.m_fds
      { s with trace := new ++ s.trace }
    refine ⟨new' ++ new, ?_, ?_⟩
    · simp only [htype, hnew', true_and, List.append_assoc, if_true]
    · intro e he
      rcases List.mem_append.mp he with he | he
      · exact Or.inr ⟨⟨htype, (hevents' e he).1⟩, (hevents' e he).2⟩
      · exact Or.inl (hevents e he)
  · refine ⟨new, ?_, fun e he => Or.inl (hevents e he)⟩
    simp only [htype, false_and]
    rfl

/-- One pending action. -/
theorem loopStep_action {action : ClientAction} {rest : List ClientAction}
    (hphase : s.phase = .actions (action :: rest)) :
    LoopStep env s { s.applyAction action with phase := .actions rest } := by
  obtain ⟨new, hnew, hevents⟩ := applyAction_eq action s
  rw [hnew]
  have haction : action ∈ s.actionList := by simp [actionList, hphase]
  have hactions : ∀ a ∈ s.m_pending_actions ++ rest, a ∈ s.actionList := by
    intro a ha
    simp only [actionList, hphase, List.mem_append, List.mem_cons] at ha ⊢
    exact ha.imp_right Or.inr
  -- the action closes its fd number, or it leaves the sockets alone
  by_cases hclose : action.type = .CLOSE_CLIENT ∧ action.fd ∈ s.m_fds.map PollFd.fd
  · have hcloses : s.closes env = some action.fd := by
      simp only [closes, hphase, if_pos hclose]
    rw [if_pos hclose]
    refine .of_close new hcloses rfl rfl hactions rfl fun e he => ?_
    rcases hevents e he with ⟨conn, rfl, hconn⟩ | ⟨-, conn, rfl⟩
    · exact ⟨haction, hconn⟩
    · exact hcloses
  · rw [if_neg hclose]
    refine ⟨fun _ _ h => Or.inl h, fun _ _ h => Or.inl h, fun _ h => Or.inl h, hactions, new, rfl,
      fun e he => ?_⟩
    rcases hevents e he with ⟨conn, rfl, hconn⟩ | ⟨hclose', -⟩
    · exact ⟨haction, hconn⟩
    · exact absurd hclose' hclose

/-- A new connection. -/
theorem loopStep_accept {fd : ℤ} (hphase : s.phase = .accepting)
    (haccepts : s.accepts env = some fd) (hfree : s.Free fd) :
    LoopStep env s { s.addClient fd with phase := .receiving 1 } := by
  have hclosed : s.sockets fd = none := hfree.2.2
  refine ⟨fun fd' conn h => ?_, fun fd' conn h => Or.inl ?_, fun _ h => Or.inl h,
    by simp [actionList, hphase, addClient, record], [.accepted fd s.connections], rfl, ?_⟩
  · simp only [addClient, record, Function.update_apply] at h
    split at h
    · next heq => exact Or.inr (heq ▸ ⟨haccepts, hclosed⟩)
    · exact Or.inl h
  · -- a socket that was open has another number
    have hne : fd' ≠ fd := by
      rintro rfl
      rw [hclosed] at h
      cases h
    exact (Function.update_of_ne hne _ _).trans h
  · intro e he
    rw [List.mem_singleton.mp he]
    exact haccepts

/-- One entry of `m_fds` with something to be read. -/
theorem loopStep_receive {i : ℕ} {pfd : PollFd} (hphase : s.phase = .receiving i)
    (hpfd : s.m_fds[i]? = some pfd) (hrevents : pfd.revents = true) :
    LoopStep env s { s.receive i pfd env.data with phase := .receiving (i + 1) } := by
  -- What `recv` returns decides: bytes become a task, and anything else closes the socket.
  unfold receive
  split
  · -- the bytes are a task for the connection behind the socket
    next conn b bs hconn hdata =>
    refine ⟨fun _ _ h => Or.inl h, fun _ _ h => Or.inl h, fun task htask => ?_,
      by simp [actionList, hphase, record], [.received conn (b :: bs)], rfl, ?_⟩
    · rcases List.mem_append.mp htask with htask | htask
      · exact Or.inl htask
      · rw [List.mem_singleton.mp htask]
        exact Or.inr ⟨hconn, hconn, List.mem_cons_self⟩
    · intro e he
      rw [List.mem_singleton.mp he]
      trivial
  · -- the end of the stream, or an error
    next hnot =>
    have hcloses : s.closes env = some pfd.fd := by
      simp only [closes, hphase, hpfd]
      refine if_pos ⟨hrevents, ?_⟩
      cases hconn : s.sockets pfd.fd with
      | none => exact Or.inl rfl
      | some conn =>
        refine Or.inr ?_
        cases hdata : env.data with
        | nil => rfl
        | cons b bs => exact absurd (by rw [hdata]; rfl) (hnot conn b _ hconn)
    refine .of_close [.closed pfd.fd (s.sockets pfd.fd)] hcloses rfl rfl ?_ rfl fun e he => ?_
    · simp [actionList, hphase, closeSocket, record]
    · rw [List.mem_singleton.mp he]
      exact hcloses

/-- One socket in `disconnectAll`. -/
theorem loopStep_disconnect {i : ℕ} {pfd : PollFd} (hphase : s.phase = .disconnecting i)
    (hpfd : s.m_fds[i]? = some pfd) :
    LoopStep env s { s.closeSocket pfd.fd with phase := .disconnecting (i + 1) } := by
  have hcloses : s.closes env = some pfd.fd := by
    simp only [closes, hphase, hpfd]
    rfl
  refine .of_close [.closed pfd.fd (s.sockets pfd.fd)] hcloses rfl rfl ?_ rfl fun e he => ?_
  · simp [actionList, hphase, closeSocket, record]
  · rw [List.mem_singleton.mp he]
    exact hcloses

/-- What a step of the loop does. -/
theorem loopStep_spec (h : s.loopStep lockdown env = some s') : LoopStep env s s' := by
  cases loopStep_cases h with
  | disconnectAll hphase _ => exact .of_quiet rfl rfl (by simp [actionList, hphase]) rfl
  | top hphase => exact .of_quiet rfl rfl (by simp [actionList, hphase]) rfl
  | disconnect hphase hpfd => exact loopStep_disconnect hphase hpfd
  | resize hphase _ => exact .of_quiet rfl rfl (by simp [actionList, hphase]) rfl
  | lock hphase => exact .of_quiet rfl rfl (by simp [actionList, hphase]) rfl
  | action hphase => exact loopStep_action hphase
  | unlock hphase => exact .of_quiet rfl rfl (by simp [actionList]) rfl
  | pollFailed hphase => exact .of_quiet rfl rfl (by simp [actionList, hphase]) rfl
  | pollTimeout hphase => exact .of_quiet rfl rfl (by simp [actionList, hphase, setRevents]) rfl
  | pollReady hphase => exact .of_quiet rfl rfl (by simp [actionList, hphase, setRevents]) rfl
  | noClient hphase => exact .of_quiet rfl rfl (by simp [actionList, hphase]) rfl
  | accept hphase haccepts hfree => exact loopStep_accept hphase haccepts hfree
  | receive hphase hpfd hrevents => exact loopStep_receive hphase hpfd hrevents
  | skip hphase => exact .of_quiet rfl rfl (by simp [actionList, hphase]) rfl
  | erase hphase => exact .of_quiet rfl rfl (by simp [actionList, hphase, eraseMarked]) rfl

end LoopSpec

end Server
