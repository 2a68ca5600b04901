import Mathlib.Data.List.Sort
import Akkon.Main.LogLines
import Akkon.Main.Service
import Akkon.Network.Server

/-!
# A plain request releases its connection once

The poll loop suspends a connection while its request is handled, until the handler enqueues
`CLOSE_CLIENT` or `ENABLE_POLLING` for it. Here one call of the handler runs with its log lines and
with the log callback, which enqueues `CLOSE_CLIENT` for the clients it cannot reach.

* `loggedOp`: the answers to the operations, the log callback included;
* `closes_loggedPlainBranch`: every route but the upgrade ends in its only `closeClient`;
* `run_loggedUpgradeRoute`: what the upgrade enqueues;
* `releasesOnce_iff`: a plain request is released exactly once, unless the debug line about an
  upgrade cannot be sent to the connection just upgraded: that is closed, and polled again.
-/

namespace Main

open Cpp Db Security Monitor Handler

/-! ## One call of the handler -/

/-- What a call of the handler is told, its log lines being numbered from `0`. -/
structure LogEnv where
  /-- `s_debug_mode`. -/
  debug : Bool
  /-- What the handler is told apart from its log. It sends to a plain connection at most once. -/
  answers : HandlerEnv
  /-- The result of `sendData(client, frame)` in the log callback, which sends each line to each
  client once. -/
  lineSent : ℕ → ℤ → Bytes → Bool
  time_buf : ℕ → Bytes
  /-- `s_tracker_counter`. -/
  tracker_counter : ℕ
  texts : StorageTexts

/-- The frame of a line. -/
def LogEnv.frame (env : LogEnv) (line : ℕ) (level : LogLevel) (message : Bytes) : Bytes :=
  let tracker_id := trackerId (env.tracker_counter % 0x1000000)
  WebSocketHandler.encodeFrame
    (logPayload level (formatLog (env.time_buf line) level tracker_id message))

/-- The state during a call. -/
structure LoggedWorld where
  service : Service
  /-- The `std::set` of fd numbers, in its order. -/
  ws_clients : List ℤ
  m_pending_actions : List (ℤ × Server.ActionType)
  /-- The number of lines so far. -/
  lines : ℕ
  /-- The call has added its connection to `ws_clients`. -/
  added : Bool

/-- The state a call starts in. -/
def LoggedWorld.start (service : Service) (ws_clients : List ℤ)
    (m_pending_actions : List (ℤ × Server.ActionType)) : LoggedWorld :=
  ⟨service, ws_clients, m_pending_actions, 0, false⟩

namespace LoggedWorld

/-- `m_pending_actions.push_back`. -/
def push (w : LoggedWorld) (fd : ℤ) (type : Server.ActionType) : LoggedWorld :=
  { w with m_pending_actions := w.m_pending_actions ++ [(fd, type)] }

/-- `ws_clients.insert(client_fd)`. -/
def insertClient (w : LoggedWorld) (fd : ℤ) : LoggedWorld :=
  { w with
    ws_clients := if fd ∈ w.ws_clients then w.ws_clients else w.ws_clients.orderedInsert (· ≤ ·) fd
    added := true }

/-- The loop over `ws_clients` in the log callback. -/
def sendToClients (env : LogEnv) (frame : Bytes) : List ℤ → LoggedWorld → LoggedWorld
  | [], w => w
  | client :: rest, w =>
    if env.lineSent w.lines client frame then sendToClients env frame rest w
    else sendToClients env frame rest
      { w.push client .CLOSE_CLIENT with ws_clients := w.ws_clients.erase client }

/-- `SystemMonitor::log`. The callback runs in the call itself, and nothing it calls logs again. -/
def log (w : LoggedWorld) (env : LogEnv) (level : LogLevel) (message : Bytes) : LoggedWorld :=
  if !env.debug && level != .ERROR then w
  else
    { sendToClients env (env.frame w.lines level message) w.ws_clients w with
      lines := w.lines + 1 }

/-- Several lines. -/
def logAll (w : LoggedWorld) (env : LogEnv) (messages : List (LogLevel × Bytes)) : LoggedWorld :=
  messages.foldl (fun w m => w.log env m.1 m.2) w

/-- `debugLine`. -/
def debugLine (w : LoggedWorld) (env : LogEnv) (message : Bytes) : LoggedWorld :=
  if env.debug then w.log env .DEBUG message else w

/-- An operation on the service, the disk or the files. -/
def serviceOp (w : LoggedWorld) (env : LogEnv) (o : HandlerOp) :
    Except HandlerFault (o.Res × LoggedWorld) :=
  (handlerOp env.answers o ⟨w.service, []⟩).map fun r => (r.1, { w with service := r.2.service })

end LoggedWorld

/-- The answers to the operations of the handler for the client on `fd`. -/
def callOp (env : LogEnv) (fd : ℤ) :
    (o : HandlerOp) → LoggedWorld → Except HandlerFault (o.Res × LoggedWorld)
  | .isWsClient, w => .ok (fd ∈ w.ws_clients, w)
  | .insertWsClient, w => .ok ((), w.insertClient fd)
  | .closeClient, w => .ok ((), w.push fd .CLOSE_CLIENT)
  | .enablePolling, w => .ok ((), w.push fd .ENABLE_POLLING)
  -- the storage does not see what its lines do
  | .insertEntity entity, w =>
    (w.logAll env (w.service.data_storage.insertEntityLog entity env.answers.storage
      env.texts)).serviceOp env (.insertEntity entity)
  | .getLockdownState, w => w.serviceOp env .getLockdownState
  | .sendData data, w => w.serviceOp env (.sendData data)
  | .countQuery, w => w.serviceOp env .countQuery
  | .probeDisk, w => w.serviceOp env .probeDisk
  | .query item, w => w.serviceOp env (.query item)
  | .insertIndex item, w => w.serviceOp env (.insertIndex item)
  | .readFile path, w => w.serviceOp env (.readFile path)
  | .throw fault, w => w.serviceOp env (.throw fault)

/-- The answers to all operations. -/
def loggedOp (env : LogEnv) (fd : ℤ) :
    (o : LogOp) → LoggedWorld → Except HandlerFault (o.Res × LoggedWorld)
  | .call o, w => callOp env fd o w
  | .isDebugMode, w => .ok (env.debug, w)
  | .log level message, w => .ok ((), w.log env level message)

/-- The actions for an fd number. -/
def LoggedWorld.actionsOf (w : LoggedWorld) (fd : ℤ) : List Server.ActionType :=
  (w.m_pending_actions.filter (·.1 == fd)).map (·.2)

/-- The handler returns, and it has enqueued exactly one action for its client: the end of the
suspension if the client was added to `ws_clients`, and else the end of the connection. -/
def ReleasesOnce (env : LogEnv) (fd : ℤ) (request : Bytes) (w : LoggedWorld) : Prop :=
  ∃ w', (loggedDataHandler fd request).run (loggedOp env fd) w = .ok ((), w') ∧
    w'.actionsOf fd = w.actionsOf fd ++ [if w'.added then .ENABLE_POLLING else .CLOSE_CLIENT]

/-- The upgrade route is taken. -/
def TakesUpgradeRoute (request : Bytes) : Prop :=
  HttpHandler.isHttpRequest request = true ∧ isInsertRequest request = false ∧
    isExistsRequest request = false ∧ WebSocketHandler.isWebSocketUpgrade request = true

instance (request : Bytes) : Decidable (TakesUpgradeRoute request) :=
  inferInstanceAs (Decidable (_ ∧ _ ∧ _ ∧ _))

/-- The debug line about an upgrade, the second line of the call, cannot be sent to the connection
that was upgraded. -/
def UpgradeLineFails (env : LogEnv) (fd : ℤ) (request : Bytes) : Prop :=
  env.debug = true ∧ env.answers.lockdown = .NONE ∧ TakesUpgradeRoute request ∧
    env.lineSent 1 fd (env.frame 1 .DEBUG (upgradedLine fd)) = false

instance (env : LogEnv) (fd : ℤ) (request : Bytes) : Decidable (UpgradeLineFails env fd request) :=
  inferInstanceAs (Decidable (_ ∧ _ ∧ _ ∧ _))

/-! ## Lines -/

namespace LoggedWorld

variable (w : LoggedWorld) (env : LogEnv)

@[simp]
theorem actionsOf_push_self (fd : ℤ) (type : Server.ActionType) :
    (w.push fd type).actionsOf fd = w.actionsOf fd ++ [type] := by
  simp [actionsOf, push]

theorem actionsOf_push_of_ne {fd client : ℤ} (hne : client ≠ fd) (type : Server.ActionType) :
    (w.push client type).actionsOf fd = w.actionsOf fd := by
  simp [actionsOf, push, hne]

/-- The loop of the log callback closes a client each time it meets it and cannot reach it. -/
theorem actionsOf_sendToClients (frame : Bytes) (clients : List ℤ) (fd : ℤ) :
    (sendToClients env frame clients w).actionsOf fd = w.actionsOf fd ++
      List.replicate (if env.lineSent w.lines fd frame then 0 else clients.count fd)
        .CLOSE_CLIENT := by
  -- the line has one number for the whole loop, so a send fails each time or never
  induction clients generalizing w with
  | nil => simp [sendToClients]
  | cons client rest ih =>
    rw [sendToClients]
    by_cases hclient : client = fd
    · subst hclient
      cases hsent : env.lineSent w.lines client frame with
      | true => rw [if_pos rfl, ih, hsent]; rfl
      | false =>
        -- one action now, the others in the rest of the loop
        rw [if_neg (by simp), ih]
        change (w.push client .CLOSE_CLIENT).actionsOf client ++
          List.replicate (if env.lineSent w.lines client frame then 0 else rest.count client) _ = _
        rw [actionsOf_push_self, List.append_assoc, hsent, List.count_cons_self]
        rfl
    · rw [List.count_cons_of_ne hclient]
      cases env.lineSent w.lines client frame with
      | true => exact ih w
      | false =>
        rw [if_neg (by simp), ih]
        change (w.push client .CLOSE_CLIENT).actionsOf fd ++ _ = _
        rw [actionsOf_push_of_ne w hclient]
        rfl

/-- What else the loop can do: it takes clients out. -/
theorem sendToClients_spec (frame : Bytes) (clients : List ℤ) :
    (∀ fd ∈ (sendToClients env frame clients w).ws_clients, fd ∈ w.ws_clients) ∧
      (sendToClients env frame clients w).added = w.added := by
  induction clients generalizing w with
  | nil => exact ⟨fun _ h => h, rfl⟩
  | cons client rest ih =>
    rw [sendToClients]
    split_ifs with hsent
    · exact ih w
    · obtain ⟨hclients, hadded⟩ :=
        ih { w.push client .CLOSE_CLIENT with ws_clients := w.ws_clients.erase client }
      exact ⟨fun fd hfd => List.mem_of_mem_erase (hclients fd hfd), hadded⟩

/-- A debug line closes the client if it is registered and cannot be reached. -/
theorem actionsOf_debugLine (message : Bytes) (fd : ℤ) :
    (w.debugLine env message).actionsOf fd = w.actionsOf fd ++
      List.replicate
        (if env.debug = true ∧ env.lineSent w.lines fd (env.frame w.lines .DEBUG message) = false
          then w.ws_clients.count fd else 0) .CLOSE_CLIENT := by
  unfold debugLine log
  cases hdebug : env.debug with
  | false => simp
  | true =>
    have hloop := w.actionsOf_sendToClients env (env.frame w.lines .DEBUG message) w.ws_clients fd
    simp only [Bool.not_true, Bool.false_and, Bool.false_eq_true, if_false, if_true, true_and]
    refine hloop.trans ?_
    cases env.lineSent w.lines fd (env.frame w.lines .DEBUG message) <;> rfl

theorem lines_debugLine (hdebug : env.debug = true) (message : Bytes) :
    (w.debugLine env message).lines = w.lines + 1 := by
  simp [debugLine, log, hdebug]

theorem added_debugLine (message : Bytes) : (w.debugLine env message).added = w.added := by
  unfold debugLine log
  split_ifs
  · rfl
  · exact (w.sendToClients_spec env _ _).2
  · rfl

/-- A connection that is not registered is registered once by `ws_clients.insert`. -/
theorem count_insertClient {fd : ℤ} (hplain : fd ∉ w.ws_clients) :
    (w.insertClient fd).ws_clients.count fd = 1 := by
  have hperm := List.perm_orderedInsert (· ≤ ·) fd w.ws_clients
  simp only [insertClient, if_neg hplain]
  rw [hperm.count_eq, List.count_cons_self, List.count_eq_zero.mpr hplain]

end LoggedWorld

/-! ## The routes that close -/

/-- The call has done nothing about its connection so far. -/
structure Untouched (fd : ℤ) (before : List Server.ActionType) (w : LoggedWorld) : Prop where
  plain : fd ∉ w.ws_clients
  added : w.added = false
  actions : w.actionsOf fd = before

namespace Untouched

variable {fd : ℤ} {before : List Server.ActionType} {w : LoggedWorld} (env : LogEnv)

/-- A line is sent to the registered clients only. -/
theorem log (h : Untouched fd before w) (level : LogLevel) (message : Bytes) :
    Untouched fd before (w.log env level message) := by
  unfold LoggedWorld.log
  split_ifs
  · exact h
  · obtain ⟨hclients, hadded⟩ :=
      w.sendToClients_spec env (env.frame w.lines level message) w.ws_clients
    refine ⟨fun hfd => h.plain (hclients fd hfd), hadded.trans h.added, ?_⟩
    have hactions :=
      w.actionsOf_sendToClients env (env.frame w.lines level message) w.ws_clients fd
    rw [List.count_eq_zero.mpr h.plain, ite_self, List.replicate_zero, List.append_nil] at hactions
    exact hactions.trans h.actions

theorem logAll (h : Untouched fd before w) (messages : List (LogLevel × Bytes)) :
    Untouched fd before (w.logAll env messages) := by
  induction messages generalizing w with
  | nil => exact h
  | cons m messages ih => exact ih (h.log env m.1 m.2)

theorem debugLine (h : Untouched fd before w) (message : Bytes) :
    Untouched fd before (w.debugLine env message) := by
  unfold LoggedWorld.debugLine
  split_ifs
  · exact h.log env _ _
  · exact h

/-- The service may change. -/
theorem withService (h : Untouched fd before w) (service : Service) :
    Untouched fd before { w with service } :=
  ⟨h.plain, h.added, h.actions⟩

end Untouched

/-- The quiet operations, with the lines. -/
def LogOp.Quiet : LogOp → Prop
  | .call o => o.Quiet
  | _ => True

section Run

variable (env : LogEnv) {fd : ℤ} {before : List Server.ActionType} {w : LoggedWorld}

theorem serviceOp_untouched {o : HandlerOp} (ho : o.Quiet) (hw : Untouched fd before w) :
    ∃ r w', w.serviceOp env o = .ok (r, w') ∧ Untouched fd before w' := by
  obtain ⟨⟨r, v⟩, hr⟩ := handlerOp_isOk env.answers o ⟨w.service, []⟩ ho.ne_throw
  refine ⟨r, { w with service := v.service }, ?_, hw.withService _⟩
  rw [LoggedWorld.serviceOp, hr]
  rfl

/-- A quiet operation succeeds and leaves the connection alone. -/
theorem loggedOp_quiet {o : LogOp} (ho : o.Quiet) (hw : Untouched fd before w) :
    ∃ r w', loggedOp env fd o w = .ok (r, w') ∧ Untouched fd before w' := by
  cases o with
  | isDebugMode => exact ⟨_, w, rfl, hw⟩
  | log level message => exact ⟨(), _, rfl, hw.log env level message⟩
  | call o =>
    change o.Quiet at ho
    cases o with
    | insertWsClient => exact ho.elim
    | closeClient => exact ho.elim
    | enablePolling => exact ho.elim
    | throw fault => exact ho.elim
    | isWsClient => exact ⟨_, w, rfl, hw⟩
    | insertEntity entity => exact serviceOp_untouched env ho (hw.logAll env _)
    | _ => exact serviceOp_untouched env ho hw

end Run

/-- A program that closes its client once, at its end. -/
abbrev Closes (p : Logged Unit) : Prop := p.Ends LogOp.Quiet (· = .call .closeClient)

/-- A part that writes no line. -/
theorem closes_silent {p : Handler Unit} (hp : ClosesLast HandlerOp.Quiet p) :
    Closes (silent p) := by
  refine Prog.Ends.interpret (fun o => Prog.call (LogOp.call o))
    (fun o ho => ⟨ho, fun _ => trivial⟩) (fun o ho => ?_) hp
  subst ho
  exact Or.inl ⟨rfl, fun r => ⟨r, rfl⟩⟩

/-- A part that writes no line and stores nothing. -/
theorem closes_answer {p : Handler Unit} (hp : ClosesLast HandlerOp.Answers p) :
    Closes (silent p) :=
  closes_silent (hp.mono fun _ => And.left)

theorem closes_reply (res : Bytes) : Closes (silent (reply res)) :=
  closes_answer (closesLast_reply res)

theorem quiet_debugLine (message : Bytes) : (debugLine message).AllOps LogOp.Quiet := by
  refine ⟨trivial, fun debug => ?_⟩
  cases debug with
  | false => trivial
  | true => exact ⟨trivial, fun _ => trivial⟩

/-- A line in front of the end. -/
theorem closes_debugLine (message : Bytes) :
    Closes (debugLine message >>= fun _ => silent closeClient) :=
  .bind (quiet_debugLine message) fun _ => closes_silent (closesLast_closeClient _)

theorem closes_loggedInsertRoute (request : Bytes) : Closes (loggedInsertRoute request) := by
  obtain ⟨fields, hfields⟩ := insertFields_isOk request
  rw [loggedInsertRoute, hfields]
  refine Or.inr ⟨trivial, fun _ => ?_⟩
  change Closes (if fields.1.length = 64 ∧ fields.2.length = 64 then _ else _)
  split
  · refine Or.inr ⟨trivial, fun probe => ?_⟩
    change Closes (if probe.low = true then _ else _)
    split
    · exact closes_reply _
    · refine Or.inr ⟨trivial, fun res => ?_⟩
      change Closes (if res = .DEFINITELY_YES then _ else _)
      split
      · exact closes_reply _
      · -- the index, the storage, the reply, and then the line
        exact Or.inr ⟨trivial, fun _ => Or.inr ⟨trivial, fun _ => Or.inr ⟨trivial, fun _ =>
          closes_debugLine _⟩⟩⟩
  · exact closes_reply _

theorem closes_loggedExistsRoute (request : Bytes) : Closes (loggedExistsRoute request) := by
  obtain ⟨identifier, hid⟩ := existsField_isOk request
  rw [loggedExistsRoute, hid]
  refine Or.inr ⟨trivial, fun _ => ?_⟩
  change Closes (if identifier.length = 64 then _ else _)
  split
  · exact Or.inr ⟨trivial, fun res => Or.inr ⟨trivial, fun _ => closes_debugLine _⟩⟩
  · exact closes_reply _

/-- Every plain route but the upgrade. -/
theorem closes_loggedPlainBranch {fd : ℤ} {request : Bytes} (h : ¬ TakesUpgradeRoute request) :
    Closes (loggedPlainBranch fd request) := by
  unfold loggedPlainBranch
  split_ifs with hhttp hoptions hinsert hexists hupgrade
  · exact closes_reply _
  · exact closes_loggedInsertRoute request
  · exact closes_loggedExistsRoute request
  · -- this would be the upgrade
    simp only [hoptions, Bool.or_false] at hhttp
    exact absurd ⟨hhttp, by simpa using hinsert, by simpa using hexists, hupgrade⟩ h
  · exact closes_answer (closesLast_staticRoute request)
  · exact closes_reply _
  · exact closes_debugLine unknownLine

/-! ## Runs -/

section Run

variable (env : LogEnv) {fd : ℤ} {before : List Server.ActionType} {w : LoggedWorld}

/-- The run of a program that closes its client at its end. -/
theorem run_of_closes {p : Logged Unit} (hp : Closes p) (hw : Untouched fd before w) :
    ∃ w', p.run (loggedOp env fd) w = .ok ((), w') ∧
      w'.actionsOf fd = before ++ [if w'.added then .ENABLE_POLLING else .CLOSE_CLIENT] := by
  have hclose (o : LogOp) (v : LoggedWorld) (ho : o = .call .closeClient)
      (hv : Untouched fd before v) : ∃ r v', loggedOp env fd o v = .ok (r, v') ∧
        v'.actionsOf fd = before ++ [if v'.added then .ENABLE_POLLING else .CLOSE_CLIENT] := by
    subst ho
    refine ⟨(), v.push fd .CLOSE_CLIENT, rfl, ?_⟩
    rw [LoggedWorld.actionsOf_push_self, hv.actions]
    change _ = before ++ [if v.added then _ else _]
    rw [hv.added]
    rfl
  obtain ⟨⟨⟩, w', hrun, hactions⟩ :=
    Prog.run_of_ends (loggedOp env fd) (fun _ _ ho hv => loggedOp_quiet env ho hv) hclose hp hw
  exact ⟨w', hrun, hactions⟩

theorem run_debugLine (message : Bytes) (w : LoggedWorld) :
    (debugLine message).run (loggedOp env fd) w = .ok ((), w.debugLine env message) := by
  unfold LoggedWorld.debugLine
  rw [debugLine, Prog.call_bind, Prog.run_op_ok (r := env.debug) _ rfl]
  cases env.debug <;> rfl

/-- The upgrade enqueues the end of the suspension, and in front of it the end of the connection if
its line could not be sent. -/
theorem run_loggedUpgradeRoute (request : Bytes) (hw : Untouched fd before w) :
    ∃ w', (loggedUpgradeRoute fd request).run (loggedOp env fd) w = .ok ((), w') ∧
      w'.added = true ∧ w'.actionsOf fd = before ++
        (List.replicate (if env.debug = true ∧
          env.lineSent w.lines fd (env.frame w.lines .DEBUG (upgradedLine fd)) = false
            then 1 else 0) .CLOSE_CLIENT ++ [.ENABLE_POLLING]) := by
  obtain ⟨ws_response, hws⟩ := generateHandshakeResponse_isOk request
  refine ⟨((w.insertClient fd).debugLine env (upgradedLine fd)).push fd .ENABLE_POLLING,
    ?_, ?_, ?_⟩
  · -- the result of the first send is dropped
    have hsend : loggedOp env fd (.call (.sendData ws_response)) w =
        .ok (env.answers.sendOk, w) := rfl
    have hinsert : loggedOp env fd (.call .insertWsClient) w = .ok ((), w.insertClient fd) := rfl
    rw [loggedUpgradeRoute, hws]
    change (Prog.op (.call (.sendData ws_response)) fun _ =>
      Prog.op (.call .insertWsClient) fun _ =>
        debugLine (upgradedLine fd) >>= fun _ => silent enablePolling).run _ _ = _
    rw [Prog.run_op_ok _ hsend, Prog.run_op_ok _ hinsert,
      Prog.run_bind_ok _ (run_debugLine env _ _)]
    rfl
  · exact (LoggedWorld.added_debugLine _ env _).trans rfl
  · -- the line meets the client once in `ws_clients`
    rw [LoggedWorld.actionsOf_push_self, LoggedWorld.actionsOf_debugLine,
      LoggedWorld.count_insertClient w hw.plain, ← hw.actions, List.append_assoc]
    rfl

/-- The released upgrades. -/
theorem upgrade_released_iff (request : Bytes) (hw : Untouched fd before w) :
    (∃ w', (loggedUpgradeRoute fd request).run (loggedOp env fd) w = .ok ((), w') ∧
      w'.actionsOf fd = before ++ [if w'.added then .ENABLE_POLLING else .CLOSE_CLIENT]) ↔
        ¬ (env.debug = true ∧
          env.lineSent w.lines fd (env.frame w.lines .DEBUG (upgradedLine fd)) = false) := by
  obtain ⟨w', hrun, hadded, hactions⟩ := run_loggedUpgradeRoute env request hw
  rw [hrun]
  constructor
  · -- two actions are not one
    rintro ⟨_, hw', h⟩ hfails
    cases hw'
    rw [hactions, if_pos hfails, hadded] at h
    simp at h
  · intro hsent
    refine ⟨w', rfl, ?_⟩
    rw [hactions, if_neg hsent, hadded]
    rfl

/-- The handler on a plain connection: its first line, then the lockdown or a route. -/
theorem run_loggedDataHandler (request : Bytes) (hw : Untouched fd before w) :
    (loggedDataHandler fd request).run (loggedOp env fd) w =
      (if env.answers.lockdown ≠ .NONE then silent (refuseInLockdown request)
        else loggedPlainBranch fd request).run (loggedOp env fd)
          (w.debugLine env (receivedLine fd request)) := by
  -- the connection is still not registered behind the first line
  have hv := hw.debugLine env (receivedLine fd request)
  set v := w.debugLine env (receivedLine fd request)
  have hlockdown : loggedOp env fd (.call .getLockdownState) v = .ok (env.answers.lockdown, v) :=
    rfl
  have hlookup : loggedOp env fd (.call .isWsClient) v = .ok (false, v) := by
    change Except.ok (decide (fd ∈ v.ws_clients), v) = _
    rw [decide_eq_false hv.plain]
  rw [loggedDataHandler, Prog.run_bind_ok _ (run_debugLine env _ _)]
  change (Prog.op (LogOp.call .getLockdownState) fun state => _).run _ _ = _
  rw [Prog.run_op_ok _ hlockdown]
  change (if env.answers.lockdown ≠ .NONE then _ else _ : Logged Unit).run _ _ = _
  split_ifs with hstate
  · rfl
  · change (Prog.op (LogOp.call .isWsClient) fun is_ws_client => _).run _ _ = _
    rw [Prog.run_op_ok _ hlookup]
    rfl

end Run

section Release

variable (env : LogEnv) {fd : ℤ} {request : Bytes} (service : Service) {ws_clients : List ℤ}
  (m_pending_actions : List (ℤ × Server.ActionType))

theorem untouched_start (hplain : fd ∉ ws_clients) :
    Untouched fd ((LoggedWorld.start service ws_clients m_pending_actions).actionsOf fd)
      (.start service ws_clients m_pending_actions) :=
  ⟨hplain, rfl, rfl⟩

/-- Whatever is sent, every request but an upgrade is released exactly once. -/
theorem releasesOnce_of_closes (hplain : fd ∉ ws_clients)
    (hcloses : env.answers.lockdown = .NONE → ¬ TakesUpgradeRoute request) :
    ReleasesOnce env fd request (.start service ws_clients m_pending_actions) := by
  have hw := untouched_start service m_pending_actions hplain
  have hv := hw.debugLine env (receivedLine fd request)
  rw [ReleasesOnce, run_loggedDataHandler env request hw]
  split_ifs with hlockdown
  · exact run_of_closes env (closes_answer (closesLast_refuseInLockdown request)) hv
  · exact run_of_closes env (closes_loggedPlainBranch (hcloses (not_not.mp hlockdown))) hv

/-- An upgrade is released exactly once when its debug line, if there is one, reaches it. -/
theorem releasesOnce_upgrade_iff (hplain : fd ∉ ws_clients)
    (hlockdown : env.answers.lockdown = .NONE) (hroute : TakesUpgradeRoute request) :
    ReleasesOnce env fd request (.start service ws_clients m_pending_actions) ↔
      ¬ (env.debug = true ∧
        env.lineSent 1 fd (env.frame 1 .DEBUG (upgradedLine fd)) = false) := by
  have hw := untouched_start service m_pending_actions hplain
  have hv := hw.debugLine env (receivedLine fd request)
  have hbranch : loggedPlainBranch fd request = loggedUpgradeRoute fd request := by
    obtain ⟨hhttp, hinsert, hexists, hupgrade⟩ := hroute
    simp [loggedPlainBranch, hhttp, hinsert, hexists, hupgrade, not_options_of_isHttpRequest hhttp]
  rw [ReleasesOnce, run_loggedDataHandler env request hw, if_neg (not_not.mpr hlockdown), hbranch,
    upgrade_released_iff env request hv]
  -- in debug mode the line about the upgrade is the second line
  refine not_congr (and_congr_right fun hdebug => ?_)
  rw [LoggedWorld.lines_debugLine _ env hdebug]
  rfl

/-- For every request on a connection that is not in `ws_clients`, whatever the state and whatever
is sent: it is released exactly once, unless the debug line about its upgrade cannot be sent to
it. -/
theorem releasesOnce_iff (hplain : fd ∉ ws_clients) :
    ReleasesOnce env fd request (.start service ws_clients m_pending_actions) ↔
      ¬ UpgradeLineFails env fd request := by
  rw [UpgradeLineFails]
  by_cases hupgrade : env.answers.lockdown = .NONE ∧ TakesUpgradeRoute request
  · obtain ⟨hlockdown, hroute⟩ := hupgrade
    rw [releasesOnce_upgrade_iff env service m_pending_actions hplain hlockdown hroute]
    simp [hlockdown, hroute]
  · refine iff_of_true ?_ fun h => hupgrade ⟨h.2.1, h.2.2.1⟩
    exact releasesOnce_of_closes env service m_pending_actions hplain
      fun hlockdown hroute => hupgrade ⟨hlockdown, hroute⟩

end Release

/-! ## An upgrade in debug mode -/

def upgradeOnce : Bytes :=
  lit "GET / HTTP/1.1\r\nUpgrade: websocket\r\nSec-WebSocket-Key: akkon\r\n\r\n"

/-- Debug mode, where every line reaches the clients or none does. -/
def debugEnv (reaches : Bool) : LogEnv where
  debug := true
  answers := quietEnv (dbFileSystem [])
  lineSent _ _ _ := reaches
  time_buf _ := lit "Thu Jan  1 00:00:00 1970"
  tracker_counter := 0
  texts := ⟨[], none, 101⟩

theorem takesUpgradeRoute_upgradeOnce : TakesUpgradeRoute upgradeOnce := by decide

/-- Beside another client. -/
theorem releasesOnce_upgradeOnce :
    ReleasesOnce (debugEnv true) 5 upgradeOnce (.start emptyService [3] []) :=
  (releasesOnce_iff (debugEnv true) emptyService [] (by decide)).mpr fun h => by
    cases h.2.2.2

/-- The connection is closed by its own debug line, and polled again by its handler. -/
theorem not_releasesOnce_upgradeOnce :
    ¬ ReleasesOnce (debugEnv false) 5 upgradeOnce (.start emptyService [] []) := by
  rw [releasesOnce_upgrade_iff (debugEnv false) emptyService [] (by decide) rfl
    takesUpgradeRoute_upgradeOnce]
  exact not_not.mpr ⟨rfl, rfl⟩

end Main
