import Akkon.Network.PollSet

/-!
# Suspending and resuming a connection

The loop stops polling a connection when it hands its data to the pool, and polls it again when an
`ENABLE_POLLING` action meets its entry. So a connection has one token, which is in turn a polled
entry, a queued task, a handler (which the loop does not see) and an action that is still to be
applied.

* `Server.tokens`: the tokens of a connection that the server holds;
* `Server.ResumesOwn`: the action that is applied next resumes the connection it was made for, or
  one that is polled anyway;
* `Server.tokens_loopStep`: then a step of the loop makes no token, but for a new connection;
* `Server.loopStep_tasks`: the step that makes a task of what was received.
-/

namespace Server

open Cpp Security

/-! ## Tokens -/

/-- The actions that are still to be applied. -/
def unapplied (s : Server) : List ClientAction :=
  match s.phase with
  -- `m_pending_actions` is cleared behind the last one
  | .actions rest => rest
  | _ => s.m_pending_actions

/-- The queued tasks of a connection. -/
def queuedFor (s : Server) (conn : ℕ) : ℕ := s.m_tasks.countP fun task => task.conn == conn

/-- The actions that are to resume a connection. -/
def resumesFor (s : Server) (conn : ℕ) : ℕ :=
  s.unapplied.countP fun action => action.type == .ENABLE_POLLING && action.conn == conn

/-- The entries that are polled for a connection. -/
def polledFor (sockets : ℤ → Option ℕ) (pfds : List PollFd) (conn : ℕ) : ℕ :=
  pfds.countP fun pfd => pfd.events && sockets pfd.fd == some conn

/-- The tokens of a connection. -/
def tokens (s : Server) (conn : ℕ) : ℕ :=
  s.queuedFor conn + s.resumesFor conn + polledFor s.sockets s.m_fds conn

/-- The entries that the loop over the client sockets still has to look at. -/
def ready (s : Server) : List PollFd :=
  match s.phase with
  | .accepting => s.m_fds
  | .receiving i => s.m_fds.drop i
  | _ => []

/-- Only entries that are polled have something to be read. -/
def ReadyPolled (s : Server) : Prop := ∀ pfd ∈ s.ready, pfd.revents = true → pfd.events = true

/-- An `ENABLE_POLLING` that is applied next is for the connection behind its fd number, or the
entry is polled anyway. -/
def ResumesOwn (s : Server) : Prop :=
  ∀ action rest, s.phase = .actions (action :: rest) → action.type = .ENABLE_POLLING →
    ∀ conn, s.sockets action.fd = some conn →
      conn = action.conn ∨ ∀ pfd ∈ s.m_fds, pfd.fd = action.fd → pfd.events = true

/-- The bytes that came last from a connection. -/
def lastReceived : List Event → ℕ → Option Bytes
  | [], _ => none
  -- the trace begins with the last event
  | .received conn' data :: trace, conn =>
    if conn' = conn then some data else lastReceived trace conn
  | _ :: trace, conn => lastReceived trace conn

/-! ## Counting -/

theorem countP_le_add {α : Type} {p q r : α → Bool} {xs : List α}
    (h : ∀ x ∈ xs, p x = true → q x = true ∨ r x = true) :
    xs.countP p ≤ xs.countP q + xs.countP r := by
  induction xs with
  | nil => simp
  | cons x xs ih =>
    have hx := h x List.mem_cons_self
    have hrest := ih fun y hy => h y (List.mem_cons_of_mem _ hy)
    simp only [List.countP_cons]
    cases hp : p x <;> cases hq : q x <;> cases hr : r x <;> simp_all <;> omega

/-- Closing a socket polls nothing. -/
theorem polledFor_update_none (sockets : ℤ → Option ℕ) (fd : ℤ) (pfds : List PollFd) (conn : ℕ) :
    polledFor (Function.update sockets fd none) pfds conn ≤ polledFor sockets pfds conn := by
  refine List.countP_mono_left fun pfd _ h => ?_
  simp only [Bool.and_eq_true, beq_iff_eq, Function.update_apply] at h ⊢
  obtain ⟨hevents, hconn⟩ := h
  split_ifs at hconn
  exact ⟨hevents, hconn⟩

theorem polledFor_sublist (sockets : ℤ → Option ℕ) {pfds pfds' : List PollFd}
    (h : pfds'.Sublist pfds) (conn : ℕ) :
    polledFor sockets pfds' conn ≤ polledFor sockets pfds conn :=
  h.countP_le

/-- An entry that is not polled any more. -/
theorem polledFor_set (sockets : ℤ → Option ℕ) (pfd' : PollFd) {pfds : List PollFd} {i : ℕ}
    {pfd : PollFd} (hi : pfds[i]? = some pfd) {conn : ℕ}
    (hpfd' : (pfd'.events && sockets pfd'.fd == some conn) = false) :
    polledFor sockets (pfds.set i pfd') conn +
        (if pfd.events = true ∧ sockets pfd.fd = some conn then 1 else 0) =
      polledFor sockets pfds conn := by
  obtain ⟨hlt, hget⟩ := List.getElem?_eq_some_iff.mp hi
  have hsplit : pfds = pfds.take i ++ pfd :: pfds.drop (i + 1) := by
    rw [← hget, ← List.drop_eq_getElem_cons hlt, List.take_append_drop]
  rw [List.set_eq_take_append_cons_drop, if_pos hlt]
  conv_rhs => rw [hsplit]
  simp only [polledFor, List.countP_append, List.countP_cons, hpfd', Bool.and_eq_true, beq_iff_eq]
  simp
  omega

/-! ## One step of the loop -/

section Step

variable {s s' : Server} {lockdown : LockdownState} {env : LoopEnv}

/-- Marked entries have no socket. -/
theorem PollInv.sockets_marked (h : PollInv s) : s.sockets (-1) = none := by
  have hopened := h.tracks.opened (-1)
  simpa using hopened

/-- The listening socket is no connection. -/
theorem PollInv.sockets_listener (h : PollInv s) : s.sockets s.m_server_fd = none := by
  obtain ⟨rest, hfds⟩ := h.exists_fds
  have hpos : 1 ≤ s.firstOpen := by
    unfold firstOpen
    split
    · next i hphase => exact h.index i (.inl hphase)
    · exact le_rfl
  have hnot : s.m_server_fd ∉ s.fds.drop s.firstOpen := by
    have hnodup := h.tracks.nodup
    rw [hfds] at hnodup ⊢
    intro hmem
    rw [← Nat.sub_add_cancel hpos, List.drop_succ_cons] at hmem
    exact Tracks.not_mem_tail_of_nodup hnodup h.ne_marked (List.mem_of_mem_drop hmem)
  rw [← Option.not_isSome_iff_eq_none, h.tracks.opened]
  exact fun hopen => hnot hopen.2

/-- An fd number has one entry. -/
theorem PollInv.countP_fd_le (h : PollInv s) {fd : ℤ} (hfd : fd ≠ -1) :
    s.m_fds.countP (fun pfd => pfd.fd == fd) ≤ 1 := by
  have hcount := List.nodup_iff_count_le_one.mp h.tracks.nodup fd
  rw [List.count_filter (by simpa using hfd)] at hcount
  rwa [List.count, fds, List.countP_map] at hcount

theorem mem_actionList_of_unapplied {action : ClientAction} (h : action ∈ s.unapplied) :
    action ∈ s.actionList := by
  unfold unapplied at h
  unfold actionList
  cases hphase : s.phase with
  | actions rest =>
    simp only [hphase] at h
    exact List.mem_append_right _ h
  | _ => simpa only [hphase] using h

/-- The entries of a number that is closed are marked, the others keep their sockets at most. -/
theorem polledFor_close (h : PollInv s) {action : ClientAction}
    (htype : action.type = .CLOSE_CLIENT) (conn : ℕ) :
    polledFor (if action.fd ∈ s.m_fds.map PollFd.fd then Function.update s.sockets action.fd none
        else s.sockets) (s.m_fds.map action.applyTo) conn ≤
      polledFor s.sockets s.m_fds conn := by
  have hmarked := h.sockets_marked
  rw [polledFor, List.countP_map]
  refine List.countP_mono_left fun pfd _ hpolled => ?_
  simp only [Function.comp_apply, ClientAction.applyTo, htype, Bool.and_eq_true,
    beq_iff_eq] at hpolled ⊢
  split_ifs at hpolled with hfd hmem hmem
  · simp [Function.update_apply, hmarked] at hpolled
  · simp [hmarked] at hpolled
  · simp only [Function.update_apply, if_neg hfd] at hpolled
    exact hpolled
  · exact hpolled

/-- The entry of a number that is resumed is the one of its own connection, or polled anyway. -/
theorem polledFor_resume (h : PollInv s) {action : ClientAction} {rest : List ClientAction}
    (hphase : s.phase = .actions (action :: rest)) (hown : s.ResumesOwn)
    (htype : action.type = .ENABLE_POLLING) (conn : ℕ) :
    polledFor s.sockets (s.m_fds.map action.applyTo) conn ≤
      polledFor s.sockets s.m_fds conn + if action.conn = conn then 1 else 0 := by
  -- The action keeps the number of an entry, and turns `POLLIN` on only for its own number.
  have happly (pfd : PollFd) : (action.applyTo pfd).fd = pfd.fd ∧
      ((action.applyTo pfd).events = true → pfd.events = true ∨ pfd.fd = action.fd) := by
    simp only [ClientAction.applyTo, htype]
    split_ifs with hfd <;> simp [hfd]
  rw [polledFor, List.countP_map]
  by_cases hconn : s.sockets action.fd = some conn ∧ action.conn = conn
  · -- its own connection: the one entry with its number is polled now
    have hfd : action.fd ≠ -1 := by
      intro hfd
      rw [hfd, h.sockets_marked] at hconn
      cases hconn.1
    rw [if_pos hconn.2]
    refine (countP_le_add (r := fun pfd : PollFd => pfd.fd == action.fd)
      fun pfd _ hpolled => ?_).trans (Nat.add_le_add_left (h.countP_fd_le hfd) _)
    obtain ⟨hkeep, hevents⟩ := happly pfd
    simp only [Function.comp_apply, hkeep, Bool.and_eq_true, beq_iff_eq] at hpolled ⊢
    exact (hevents hpolled.1).imp_left fun hevents => ⟨hevents, hpolled.2⟩
  · -- another one: the entry is polled anyway
    refine (List.countP_mono_left fun pfd hpfd hpolled => ?_).trans (Nat.le_add_right _ _)
    obtain ⟨hkeep, hevents⟩ := happly pfd
    simp only [Function.comp_apply, hkeep, Bool.and_eq_true, beq_iff_eq] at hpolled ⊢
    refine ⟨?_, hpolled.2⟩
    rcases hevents hpolled.1 with hevents | hfd
    · exact hevents
    · rw [hfd] at hpolled
      rcases hown action rest hphase htype conn hpolled.2 with heq | hall
      · exact absurd ⟨hpolled.2, heq.symm⟩ hconn
      · exact hall pfd hpfd hfd

/-- What an action does to the tokens: it is used up, and an entry is polled if it is a token of the
connection behind it. -/
theorem tokens_applyAction (h : PollInv s) {action : ClientAction} {rest : List ClientAction}
    (hphase : s.phase = .actions (action :: rest)) (hown : s.ResumesOwn) (conn : ℕ) :
    tokens { s.applyAction action with phase := .actions rest } conn ≤ s.tokens conn := by
  obtain ⟨new, heq, -⟩ := applyAction_eq action s
  have hresumes : s.resumesFor conn =
      rest.countP (fun action => action.type == .ENABLE_POLLING && action.conn == conn) +
        if action.type = .ENABLE_POLLING ∧ action.conn = conn then 1 else 0 := by
    rw [resumesFor, unapplied, hphase]
    simp [List.countP_cons]
  rw [heq, tokens, tokens, hresumes]
  simp only [queuedFor, resumesFor, unapplied]
  cases htype : action.type with
  | CLOSE_CLIENT =>
    have hpolled := polledFor_close h htype conn
    simp only [true_and, reduceCtorEq, false_and, if_false]
    omega
  | ENABLE_POLLING =>
    have hpolled := polledFor_resume h hphase hown htype conn
    simp only [true_and, reduceCtorEq, false_and, if_false]
    omega

/-- A new connection is polled. -/
theorem tokens_addClient (h : PollInv s) (hphase : s.phase = .accepting) {fd : ℤ}
    (hfree : s.Free fd) (conn : ℕ) :
    tokens { s.addClient fd with phase := .receiving 1 } conn ≤
      s.tokens conn + if conn = s.connections then 1 else 0 := by
  have hfd : fd ≠ -1 := by
    have := hfree.1
    omega
  -- No entry has the new number: an open one would have it as a socket.
  have hnot : ∀ pfd ∈ s.m_fds, pfd.fd ≠ fd := by
    rintro pfd hpfd rfl
    obtain ⟨rest, hfds⟩ := h.exists_fds
    have hmem : pfd.fd ∈ s.fds := List.mem_map_of_mem hpfd
    rw [hfds] at hmem
    have hopened := h.tracks.opened pfd.fd
    rw [hfree.2.2, firstOpen, hphase, hfds] at hopened
    exact absurd (hopened.mpr ⟨hfd, (List.mem_cons.mp hmem).resolve_left hfree.2.1⟩) (by simp)
  -- The new entry is polled for the new connection, and no old entry changes its connection.
  have hpolled : polledFor (Function.update s.sockets fd (some s.connections))
      (s.m_fds ++ [⟨fd, true, false⟩]) conn =
      polledFor s.sockets s.m_fds conn + if conn = s.connections then 1 else 0 := by
    have hold : polledFor (Function.update s.sockets fd (some s.connections)) s.m_fds conn =
        polledFor s.sockets s.m_fds conn := by
      refine List.countP_congr fun pfd hpfd => ?_
      rw [Function.update_of_ne (hnot pfd hpfd)]
    have hnew : polledFor (Function.update s.sockets fd (some s.connections))
        [⟨fd, true, false⟩] conn = if conn = s.connections then 1 else 0 := by
      by_cases hconn : s.connections = conn
      · simp [polledFor, hconn]
      · simp [polledFor, hconn, Ne.symm hconn]
    rw [← hold, ← hnew]
    exact List.countP_append
  have hresumes : resumesFor { s.addClient fd with phase := .receiving 1 } conn =
      s.resumesFor conn := by
    simp [resumesFor, unapplied, hphase, addClient, Server.record]
  rw [tokens, tokens, hresumes]
  show s.queuedFor conn + _ + polledFor (Function.update s.sockets fd (some s.connections))
      (s.m_fds ++ [⟨fd, true, false⟩]) conn ≤ _
  rw [hpolled]
  omega

/-- What is received turns the polled entry into a task. -/
theorem tokens_receive (h : PollInv s) {i : ℕ} (hphase : s.phase = .receiving i) {pfd : PollFd}
    (hpfd : s.m_fds[i]? = some pfd) (hevents : pfd.events = true) (data : Bytes) (conn : ℕ) :
    tokens { s.receive i pfd data with phase := .receiving (i + 1) } conn ≤ s.tokens conn := by
  have hresumes : s.resumesFor conn = s.m_pending_actions.countP
      fun action => action.type == .ENABLE_POLLING && action.conn == conn := by
    rw [resumesFor, unapplied, hphase]
  obtain ⟨hlt, hget⟩ := List.getElem?_eq_some_iff.mp hpfd
  rw [tokens, tokens, hresumes]
  unfold Server.receive
  split
  · -- the entry is polled no longer, and its token is with the task
    next conn' b bs hconn hdata =>
    have hpolled := polledFor_set s.sockets { pfd with events := false } hpfd
      (show (false && s.sockets pfd.fd == some conn) = false from rfl)
    simp only [hevents, hconn, true_and, Option.some.injEq] at hpolled
    simp only [queuedFor, resumesFor, unapplied, Server.record, List.countP_append,
      List.countP_singleton, beq_iff_eq]
    omega
  · -- a closed entry takes its token with it
    have hmarked : Function.update s.sockets pfd.fd none (-1) = none := by
      rw [Function.update_apply, h.sockets_marked, ite_self]
    have hset := @polledFor_set (Function.update s.sockets pfd.fd none) { pfd with fd := -1 } _ _ _
      hpfd conn (by simp [hmarked])
    have hpolled := polledFor_update_none s.sockets pfd.fd s.m_fds conn
    show s.queuedFor conn + _ + polledFor (Function.update s.sockets pfd.fd none)
      (s.m_fds.set i { pfd with fd := -1 }) conn ≤ _
    simp only [resumesFor, unapplied]
    show s.queuedFor conn + List.countP _ s.m_pending_actions + _ ≤ _
    omega

/-- A step that leaves the tasks and the actions alone and polls nothing. -/
theorem tokens_le {conn : ℕ} (htasks : s'.m_tasks = s.m_tasks)
    (hunapplied : s'.unapplied = s.unapplied)
    (hpolled : polledFor s'.sockets s'.m_fds conn ≤ polledFor s.sockets s.m_fds conn) :
    s'.tokens conn ≤ s.tokens conn := by
  rw [tokens, tokens, queuedFor, queuedFor, resumesFor, resumesFor, htasks, hunapplied]
  exact Nat.add_le_add_left hpolled _

/-- An entry with something to be read is polled when the loop comes to it. -/
theorem ReadyPolled.events (h : s.ReadyPolled) {i : ℕ} {pfd : PollFd}
    (hphase : s.phase = .receiving i) (hpfd : s.m_fds[i]? = some pfd)
    (hrevents : pfd.revents = true) : pfd.events = true := by
  refine h pfd ?_ hrevents
  rw [ready, hphase]
  refine List.mem_of_getElem? (i := 0) ?_
  rw [List.getElem?_drop, Nat.add_zero, hpfd]

/-- A step of the loop makes no token, but for a new connection. -/
theorem tokens_loopStep (h : PollInv s) (hready : s.ReadyPolled) (hown : s.ResumesOwn)
    (hstep : s.loopStep lockdown env = some s') (conn : ℕ) :
    s'.tokens conn ≤ s.tokens conn + if conn = s.connections then 1 else 0 := by
  have hgrow : s'.tokens conn ≤ s.tokens conn →
      s'.tokens conn ≤ s.tokens conn + if conn = s.connections then 1 else 0 :=
    fun hle => hle.trans (Nat.le_add_right _ _)
  -- the entries that are kept are polled as before
  have herased := polledFor_sublist s.sockets
    (List.filter_sublist (p := fun pfd : PollFd => pfd.fd ≠ -1) (l := s.m_fds)) conn
  have hpolled (readable : ℤ → Bool) :
      polledFor s.sockets (s.setRevents readable).m_fds conn ≤
        polledFor s.sockets s.m_fds conn := by
    simp [polledFor, Server.setRevents, List.countP_map, Function.comp_def]
  cases loopStep_cases hstep with
  | disconnectAll hphase _ => exact hgrow (tokens_le rfl (by simp [unapplied, hphase]) le_rfl)
  | top hphase => exact hgrow (tokens_le rfl (by simp [unapplied, hphase]) le_rfl)
  | disconnect hphase hpfd =>
    exact hgrow (tokens_le rfl (by simp [unapplied, hphase, closeSocket, Server.record])
      (polledFor_update_none _ _ _ _))
  | resize hphase _ =>
    exact hgrow (tokens_le rfl (by simp [unapplied, hphase])
      (polledFor_sublist _ (List.take_sublist _ _) _))
  | lock hphase => exact hgrow (tokens_le rfl (by simp [unapplied, hphase]) le_rfl)
  | action hphase => exact hgrow (tokens_applyAction h hphase hown conn)
  | unlock hphase => exact hgrow (tokens_le rfl (by simp [unapplied, hphase]) herased)
  | pollFailed hphase => exact hgrow (tokens_le rfl (by simp [unapplied, hphase]) le_rfl)
  -- `poll` changes `revents` only
  | pollTimeout hphase =>
    exact hgrow (tokens_le rfl (by simp [unapplied, hphase, Server.setRevents])
      (hpolled fun _ => false))
  | @pollReady readable hphase =>
    exact hgrow (tokens_le rfl (by simp [unapplied, hphase, Server.setRevents])
      (hpolled readable))
  | noClient hphase => exact hgrow (tokens_le rfl (by simp [unapplied, hphase]) le_rfl)
  | accept hphase _ hfree => exact tokens_addClient h hphase hfree conn
  | receive hphase hpfd hrevents =>
    exact hgrow (tokens_receive h hphase hpfd (hready.events hphase hpfd hrevents) env.data conn)
  | skip hphase => exact hgrow (tokens_le rfl (by simp [unapplied, hphase]) le_rfl)
  | erase hphase =>
    exact hgrow (tokens_le rfl (by simp [unapplied, hphase, Server.eraseMarked]) herased)

/-- The entries that are still to be looked at are polled if there is something to be read. -/
theorem ReadyPolled.loopStep (h : s.ReadyPolled) (hstep : s.loopStep lockdown env = some s') :
    s'.ReadyPolled := by
  -- most phases look at no entry
  have hnone : s'.ready = [] → s'.ReadyPolled := by
    intro heq pfd hpfd
    rw [heq] at hpfd
    cases hpfd
  have hentries (hphase : s.phase = .accepting) :
      ∀ pfd ∈ s.m_fds, pfd.revents = true → pfd.events = true := by
    intro pfd hpfd
    refine h pfd ?_
    rwa [ready, hphase]
  have hrest {i : ℕ} (hphase : s.phase = .receiving i) :
      ∀ pfd ∈ s.m_fds.drop (i + 1), pfd.revents = true → pfd.events = true := by
    intro pfd hpfd
    refine h pfd ?_
    rw [ready, hphase]
    rw [← List.drop_drop] at hpfd
    exact List.mem_of_mem_drop hpfd
  cases loopStep_cases hstep with
  | pollReady hphase =>
    -- `poll` reports events that were asked for
    intro pfd hpfd hrevents
    obtain ⟨pfd', -, rfl⟩ := List.mem_map.mp hpfd
    simp only [Bool.and_eq_true] at hrevents
    exact hrevents.1
  | noClient hphase => exact fun pfd hpfd => hentries hphase pfd (List.mem_of_mem_drop hpfd)
  | accept hphase _ _ =>
    intro pfd hpfd hrevents
    rcases List.mem_append.mp (List.mem_of_mem_drop hpfd) with hold | hnew
    · exact hentries hphase pfd hold hrevents
    · rw [List.mem_singleton.mp hnew]
  | receive hphase _ _ =>
    -- the entry that changes is not looked at again
    intro pfd' hpfd'
    refine hrest hphase pfd' ?_
    simp only [ready, Server.receive] at hpfd'
    split at hpfd'
    · rwa [Server.record, List.drop_set_of_lt (Nat.lt_succ_self _)] at hpfd'
    · rwa [List.drop_set_of_lt (Nat.lt_succ_self _)] at hpfd'
  | skip hphase => exact hrest hphase
  | _ => exact hnone rfl

/-- Events that are no data. -/
theorem lastReceived_append {new trace : List Event} (h : ∀ conn data, .received conn data ∉ new)
    (conn : ℕ) : lastReceived (new ++ trace) conn = lastReceived trace conn := by
  induction new with
  | nil => rfl
  | cons e new ih =>
    have hrest := ih fun conn data he => h conn data (List.mem_cons_of_mem _ he)
    cases e with
    | received conn' data => exact absurd List.mem_cons_self (h conn' data)
    | _ => exact hrest

/-- The step that makes a task: the loop receives from an entry that is polled, and the bytes go to
the end of the queue. -/
structure Receives (s : Server) (env : LoopEnv) (s' : Server) (fd : ℤ) (conn : ℕ) (data : Bytes) :
    Prop where
  open_fd : s.sockets fd = some conn
  data_eq : env.data.take 4096 = data
  ne_nil : data ≠ []
  polled : 0 < polledFor s.sockets s.m_fds conn
  tasks : s'.m_tasks = s.m_tasks ++ [⟨fd, data, conn⟩]
  trace : s'.trace = .received conn data :: s.trace

/-- A step of the loop makes a task of what it receives, or it leaves the queue alone and receives
nothing. -/
theorem loopStep_tasks (hready : s.ReadyPolled) (hstep : s.loopStep lockdown env = some s') :
    (s'.m_tasks = s.m_tasks ∧ ∀ conn, lastReceived s'.trace conn = lastReceived s.trace conn) ∨
      ∃ i pfd conn data, s.phase = .receiving i ∧ s.m_fds[i]? = some pfd ∧ pfd.revents = true ∧
        Receives s env s' pfd.fd conn data := by
  cases loopStep_cases hstep with
  | @action action rest hphase =>
    obtain ⟨new, heq, hnew⟩ := applyAction_eq action s
    refine .inl ⟨by rw [heq], fun conn => ?_⟩
    rw [heq]
    refine lastReceived_append (fun conn' data he => ?_) conn
    rcases hnew _ he with ⟨_, heq', -⟩ | ⟨-, _, heq'⟩
    · cases heq'
    · cases heq'
  | @receive i pfd hphase hpfd hrevents =>
    have hevents := hready.events hphase hpfd hrevents
    unfold Server.receive
    split
    · next conn b bs hconn hdata =>
      refine .inr ⟨i, pfd, conn, b :: bs, hphase, hpfd, hrevents, hconn, hdata, by simp, ?_, rfl,
        rfl⟩
      refine List.countP_pos_iff.mpr ⟨pfd, List.mem_of_getElem? hpfd, ?_⟩
      simp [hevents, hconn]
    · exact .inl ⟨rfl, fun _ => rfl⟩
  | _ => exact .inl ⟨rfl, fun _ => rfl⟩

/-- The listening socket stays, and only `accept` makes a connection. -/
theorem loopStep_frame (hstep : s.loopStep lockdown env = some s') :
    s'.m_server_fd = s.m_server_fd ∧
      (s.phase ≠ .accepting → s'.connections = s.connections) := by
  cases loopStep_cases hstep with
  | @action action rest _ =>
    obtain ⟨new, heq, -⟩ := applyAction_eq action s
    rw [heq]
    exact ⟨rfl, fun _ => rfl⟩
  | accept hphase _ _ => exact ⟨rfl, fun hne => absurd hphase hne⟩
  | receive _ _ _ =>
    unfold Server.receive
    split
    · exact ⟨rfl, fun _ => rfl⟩
    · exact ⟨rfl, fun _ => rfl⟩
  | _ => exact ⟨rfl, fun _ => rfl⟩

/-- Connections are numbered in the order they are accepted. -/
theorem loopStep_connections (hstep : s.loopStep lockdown env = some s') :
    s.connections ≤ s'.connections ∧
      ∀ fd conn, s'.sockets fd = some conn → s.sockets fd = some conn ∨ conn < s'.connections := by
  by_cases hphase : s.phase = .accepting
  · simp only [Server.loopStep, hphase] at hstep
    split at hstep
    · split at hstep
      · cases hstep
        exact ⟨le_rfl, fun _ _ h => .inl h⟩
      · next fd _ =>
        split at hstep
        · cases hstep
          refine ⟨Nat.le_succ _, fun fd' conn h => ?_⟩
          have hsockets : Function.update s.sockets fd (some s.connections) fd' = some conn := h
          rw [Function.update_apply] at hsockets
          split_ifs at hsockets
          · obtain rfl := Option.some.inj hsockets
            exact .inr (Nat.lt_succ_self _)
          · exact .inl hsockets
        · cases hstep
    · cases hstep
      exact ⟨le_rfl, fun _ _ h => .inl h⟩
  · refine ⟨((loopStep_frame hstep).2 hphase).ge, fun fd conn h => ?_⟩
    refine ((loopStep_spec hstep).opened fd conn h).imp_right fun hnew => ?_
    -- the other phases accept nothing
    have haccepts := hnew.1
    unfold accepts at haccepts
    split at haccepts
    · next hacc => exact absurd hacc hphase
    · cases haccepts

/-! ## Calls of other threads -/

/-- What the other threads leave alone: they send and look up, take tasks and push actions. -/
structure Untouched (s s' : Server) : Prop where
  m_server_fd : s'.m_server_fd = s.m_server_fd
  m_fds : s'.m_fds = s.m_fds
  phase : s'.phase = s.phase
  sockets : s'.sockets = s.sockets
  connections : s'.connections = s.connections
  trace : ∃ new, s'.trace = new ++ s.trace ∧ ∀ e ∈ new,
    (∃ author conn data taken, e = .sent author conn data taken) ∨
      ∃ conn data found, e = .lookedUp conn data found

theorem Untouched.refl (s : Server) : Untouched s s :=
  ⟨rfl, rfl, rfl, rfl, rfl, [], rfl, by simp⟩

theorem Untouched.polledFor_eq (h : Untouched s s') (conn : ℕ) :
    polledFor s'.sockets s'.m_fds conn = polledFor s.sockets s.m_fds conn := by
  rw [h.sockets, h.m_fds]

theorem Untouched.readyPolled (h : Untouched s s') (hready : s.ReadyPolled) : s'.ReadyPolled := by
  have heq : s'.ready = s.ready := by rw [ready, ready, h.phase, h.m_fds]
  rw [ReadyPolled, heq]
  exact hready

theorem Untouched.lastReceived_eq (h : Untouched s s') (conn : ℕ) :
    lastReceived s'.trace conn = lastReceived s.trace conn := by
  obtain ⟨new, hnew, hevents⟩ := h.trace
  rw [hnew]
  refine lastReceived_append (fun conn' data he => ?_) conn
  rcases hevents _ he with ⟨_, _, _, _, heq⟩ | ⟨_, _, _, heq⟩
  · cases heq
  · cases heq

theorem Untouched.pollInv (h : Untouched s s') (hs : PollInv s)
    (hactions : ∀ action ∈ s'.actionList, action.fd ≠ s.m_server_fd) : PollInv s' where
  pos := h.m_server_fd ▸ hs.pos
  tracks := by
    have hfds : s'.fds = s.fds := by rw [fds, fds, h.m_fds]
    have hopen : s'.firstOpen = s.firstOpen := by rw [firstOpen, firstOpen, h.phase]
    rw [h.m_server_fd, hfds, hopen, h.sockets]
    obtain ⟨new, hnew, hevents⟩ := h.trace
    rw [hnew]
    clear hnew
    -- none of the events is a close or an accept
    induction new with
    | nil => exact hs.tracks
    | cons e new ih =>
      refine (ih fun e he => hevents e (List.mem_cons_of_mem _ he)).record ?_ ?_
      · rintro fd conn rfl
        rcases hevents _ List.mem_cons_self with ⟨_, _, _, _, heq⟩ | ⟨_, _, _, heq⟩
        · cases heq
        · cases heq
      · rintro fd conn rfl
        rcases hevents _ List.mem_cons_self with ⟨_, _, _, _, heq⟩ | ⟨_, _, _, heq⟩
        · cases heq
        · cases heq
  unmarked := by
    rw [h.phase, fds, h.m_fds]
    exact hs.unmarked
  index := by
    rw [h.phase]
    exact hs.index
  actions := by
    rw [h.m_server_fd]
    exact hactions

theorem untouched_sendData (s : Server) (author : Author) (fd : ℤ) (data : Bytes)
    (taken : Option ℕ) : Untouched s (s.sendData author fd data taken).2 := by
  unfold sendData
  split
  · next conn n _ =>
    refine ⟨rfl, rfl, rfl, rfl, rfl, [_], rfl, fun e he => ?_⟩
    exact .inl ⟨author, conn, data, _, List.mem_singleton.mp he⟩
  · exact .refl s

theorem untouched_pushAction {action : ClientAction} (h : s.pushAction action = some s') :
    Untouched s s' := by
  obtain ⟨rfl, -⟩ := pushAction_eq h
  exact ⟨rfl, rfl, rfl, rfl, rfl, [], rfl, by simp⟩

/-- An action that is pushed is applied last. -/
theorem unapplied_pushAction {action : ClientAction} (h : s.pushAction action = some s') :
    s'.unapplied = s.unapplied ++ [action] := by
  obtain ⟨rfl, -⟩ := pushAction_eq h
  unfold unapplied
  cases hphase : s.phase with
  | actions rest => exact absurd hphase (phase_of_pushAction h rest)
  | _ => rfl

theorem tokens_pushAction {action : ClientAction} (h : s.pushAction action = some s')
    (conn : ℕ) : s'.tokens conn = s.tokens conn +
      if action.type = .ENABLE_POLLING ∧ action.conn = conn then 1 else 0 := by
  have hunapplied := unapplied_pushAction h
  have huntouched := untouched_pushAction h
  obtain ⟨rfl, -⟩ := pushAction_eq h
  rw [tokens, tokens, huntouched.polledFor_eq, resumesFor, resumesFor, hunapplied,
    List.countP_append]
  simp only [queuedFor, List.countP_cons, List.countP_nil, Bool.and_eq_true, beq_iff_eq]
  omega

/-- What sends or looks up makes no token. -/
theorem Untouched.tokens_eq (h : Untouched s s') (htasks : s'.m_tasks = s.m_tasks)
    (hactions : s'.m_pending_actions = s.m_pending_actions) (conn : ℕ) :
    s'.tokens conn = s.tokens conn := by
  rw [tokens, tokens, h.polledFor_eq, queuedFor, queuedFor, htasks, resumesFor, resumesFor,
    unapplied, unapplied, h.phase, hactions]

/-- A worker takes a task. -/
theorem queuedFor_take {task : Task} {m_tasks : List Task} (h : s.m_tasks = task :: m_tasks)
    (conn : ℕ) : queuedFor { s with m_tasks } conn + (if task.conn = conn then 1 else 0) =
      s.queuedFor conn := by
  rw [queuedFor, queuedFor, h, List.countP_cons]
  simp only [beq_iff_eq]

theorem tokens_take {task : Task} {m_tasks : List Task} (h : s.m_tasks = task :: m_tasks)
    (conn : ℕ) : tokens { s with m_tasks } conn + (if task.conn = conn then 1 else 0) =
      s.tokens conn := by
  have hqueued := queuedFor_take h conn
  have hresumes : resumesFor { s with m_tasks } conn = s.resumesFor conn := rfl
  rw [tokens, tokens, hresumes]
  show queuedFor { s with m_tasks } conn + s.resumesFor conn +
    polledFor s.sockets s.m_fds conn + _ = _
  omega

end Step

end Server
