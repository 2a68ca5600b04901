import Akkon.Main.DataHandler

/-!
# Sequential runs of the data handler

The state the handler works on, and what one call of the handler does to it when nothing else runs:
the handler program of `DataHandler` is run against `handlerOp`, where everything the handler asks
of the outside world is answered by a `HandlerEnv`.

* `boot`: what `main` does with the registered shards before it serves;
* `handle`: one call of the handler, with the calls it makes on the server in order;
* `plainBranch_cases`: every plain route but the upgrade closes its client by its last call;
* `handle_of_lockdown`, `handle_of_not_route`: the calls that leave the stored data as they are;
* `handle_insert`: the outcome of an insert request, case by case.
-/

namespace Main

open Cpp Indexer Db Security Handler

/-- The state the handler reads and changes. -/
structure Service where
  query_engine : QueryEngine
  data_storage : DataStorage
  /-- `g_queries_since_reboot`. -/
  queries_since_reboot : ℕ

/-- What the handler is told during one call. -/
structure HandlerEnv where
  lockdown : LockdownState
  is_ws_client : Bool
  sendOk : Bool
  probe : DiskProbe
  storage : StorageEnv
  files : FileSystem

/-- No lockdown, a plain connection, enough disk, and every SQLite call succeeds. -/
structure Serving (env : HandlerEnv) : Prop where
  lockdown : env.lockdown = .NONE
  plain : env.is_ws_client = false
  probe : env.probe.low = false
  disk : (env.storage.disk.dirExists && env.storage.disk.low) = false
  prepareOk : env.storage.prepareOk = true
  stepDone : env.storage.stepDone = true

/-- Such an environment, for a file system. -/
def quietEnv (files : FileSystem) : HandlerEnv where
  lockdown := .NONE
  is_ws_client := false
  sendOk := true
  probe := ⟨true, some (2 * diskLimit)⟩
  storage := ⟨⟨true, some (2 * diskLimit)⟩, true, true⟩
  files := files

theorem serving_quietEnv (files : FileSystem) : Serving (quietEnv files) :=
  ⟨rfl, rfl, rfl, rfl, rfl, rfl⟩

/-- What a call of the handler does to the server. -/
inductive Effect
  | sendData (data : Bytes)
  | insertWsClient
  | closeClient
  | enablePolling
  deriving DecidableEq, Repr

/-- The service, and the effects so far. -/
structure World where
  service : Service
  effects : List Effect

namespace World

/-- One more effect. -/
def emit (w : World) (e : Effect) : World := { w with effects := w.effects ++ [e] }

@[simp] theorem emit_service (w : World) (e : Effect) : (w.emit e).service = w.service := rfl
@[simp] theorem emit_effects (w : World) (e : Effect) : (w.emit e).effects = w.effects ++ [e] := rfl

end World

/-- The answers to the operations. -/
def handlerOp (env : HandlerEnv) : (o : HandlerOp) → World → Except HandlerFault (o.Res × World)
  | .getLockdownState, w => .ok (env.lockdown, w)
  | .isWsClient, w => .ok (env.is_ws_client, w)
  | .insertWsClient, w => .ok ((), w.emit .insertWsClient)
  | .sendData data, w => .ok (env.sendOk, w.emit (.sendData data))
  | .closeClient, w => .ok ((), w.emit .closeClient)
  | .enablePolling, w => .ok ((), w.emit .enablePolling)
  | .countQuery, w =>
    .ok ((), { w with service :=
      { w.service with queries_since_reboot := w.service.queries_since_reboot + 1 } })
  | .probeDisk, w => .ok (env.probe, w)
  -- the index computes a digest, so its calls can throw as far as their types go
  | .query item, w =>
    match w.service.query_engine.query item with
    | .ok res => .ok (res, w)
    | .error e => .error (.exn e)
  | .insertIndex item, w =>
    match w.service.query_engine.insert item with
    | .ok query_engine => .ok ((), { w with service := { w.service with query_engine } })
    | .error e => .error (.exn e)
  | .insertEntity entity, w =>
    let (data_storage, done) := w.service.data_storage.insertEntity entity env.storage
    .ok (done, { w with service := { w.service with data_storage } })
  | .readFile path, w => .ok (env.files.readFile path, w)
  | .throw fault, _ => .error fault

/-- One call of the data handler. -/
def handle (env : HandlerEnv) (service : Service) (request : Bytes) :
    Except HandlerFault (Service × List Effect) :=
  ((dataHandler request).run (handlerOp env) ⟨service, []⟩).map fun r =>
    (r.2.service, r.2.effects)

theorem indexSize_pos : 0 < 1000000 := by decide

/-- `main` up to the server: the registered shards that open are loaded into a fresh index. -/
def boot (opened : List (Option Shard)) (select : ℕ → DataStorage.SelectOutcome) :
    Except Exn Service := do
  let data_storage := DataStorage.initializeDbs opened
  let query_engine ← data_storage.loadAllIdentifiers select (.new 1000000 indexSize_pos)
  return ⟨query_engine, data_storage, 0⟩

/-- A service with one empty shard and an empty index. -/
def emptyService : Service := ⟨.new 1000000 indexSize_pos, .initializeDbs [some []], 0⟩

/-- A restart: the process starts anew on the same files, and every call on them succeeds. -/
def restart (service : Service) : Except Exn Service :=
  boot (service.data_storage.m_data_dbs.map some) fun _ => .complete

/-! ## Operations that succeed -/

@[simp]
theorem handlerOp_query (env : HandlerEnv) (item : Bytes) (w : World) :
    handlerOp env (.query item) w = .ok (w.service.query_engine.answer item, w) := by
  simp only [handlerOp, QueryEngine.query_eq_ok]

@[simp]
theorem handlerOp_insertIndex (env : HandlerEnv) (item : Bytes) (w : World) :
    handlerOp env (.insertIndex item) w = .ok ((), { w with service :=
      { w.service with query_engine := w.service.query_engine.inserted item } }) := by
  simp only [handlerOp, QueryEngine.insert_eq_ok]

/-- Only `throw` fails. -/
theorem handlerOp_isOk (env : HandlerEnv) (o : HandlerOp) (w : World)
    (h : ∀ fault, o ≠ .throw fault) : ∃ r, handlerOp env o w = .ok r := by
  cases o with
  | query item => exact ⟨_, handlerOp_query env item w⟩
  | insertIndex item => exact ⟨_, handlerOp_insertIndex env item w⟩
  | throw fault => exact absurd rfl (h fault)
  | _ => exact ⟨_, rfl⟩

/-! ## The state the handler leaves behind -/

/-- The stored data: the index and the shards with their round-robin index. -/
def Service.stored (s : Service) : QueryEngine × DataStorage := (s.query_engine, s.data_storage)

/-- The operations that neither throw nor change the stored data. -/
def HandlerOp.Reads : HandlerOp → Prop
  | .insertIndex _ => False
  | .insertEntity _ => False
  | .throw _ => False
  | _ => True

theorem HandlerOp.Reads.ne_throw {o : HandlerOp} (h : o.Reads) (fault : HandlerFault) :
    o ≠ .throw fault := by
  rintro rfl
  exact h

/-- The operations of a route on the way to its end: they neither throw, nor register the client,
nor enqueue an action for it. -/
def HandlerOp.Quiet : HandlerOp → Prop
  | .insertWsClient => False
  | .closeClient => False
  | .enablePolling => False
  | .throw _ => False
  | _ => True

theorem HandlerOp.Quiet.ne_throw {o : HandlerOp} (h : o.Quiet) (fault : HandlerFault) :
    o ≠ .throw fault := by
  rintro rfl
  exact h

/-- The operations of a route that answers without a change. -/
abbrev HandlerOp.Answers (o : HandlerOp) : Prop := o.Quiet ∧ o.Reads

/-- A reading operation keeps the stored data. -/
theorem stored_handlerOp {env : HandlerEnv} {o : HandlerOp} (ho : o.Reads) {w w' : World}
    {r : o.Res} (h : handlerOp env o w = .ok (r, w')) : w'.service.stored = w.service.stored := by
  cases o with
  | query item =>
    rw [handlerOp_query] at h
    cases h
    rfl
  | insertIndex item => exact ho.elim
  | insertEntity entity => exact ho.elim
  | throw fault => exact ho.elim
  | _ =>
    cases h
    rfl

/-- A program of reading operations runs to its end and keeps the stored data. -/
theorem run_of_reads {p : Handler Unit} (hp : p.AllOps HandlerOp.Reads) (env : HandlerEnv)
    (w : World) :
    ∃ w', p.run (handlerOp env) w = .ok ((), w') ∧ w'.service.stored = w.service.stored := by
  -- none of the operations throws, so the run ends
  obtain ⟨⟨⟨⟩, w'⟩, hrun⟩ :=
    Prog.run_isOk (handlerOp env) (fun o w ho => handlerOp_isOk env o w ho.ne_throw) hp w
  refine ⟨w', hrun, ?_⟩
  have hrel := Prog.run_rel (handlerOp env) (R := fun w w' : World =>
    w'.service.stored = w.service.stored) (fun _ => rfl) (fun _ _ _ h h' => h'.trans h)
    (fun _ _ _ _ ho h => stored_handlerOp ho h) hp hrun
  exact hrel

/-! ## The ends of the routes -/

/-- The field of an exists request is always read without an exception: the path of the short form
has 69 characters. -/
theorem existsField_isOk (request : Bytes) : ∃ v, existsField request = .ok v := by
  unfold existsField
  split
  · next h =>
    simp only [isShortExists, Bool.and_eq_true, beq_iff_eq] at h
    exact ⟨_, substr_eq_ok _ (by omega)⟩
  · exact extractQueryString_isOk _ _

/-- The fields of an insert request are always read without an exception: the path of the short form
has 133 characters. -/
theorem insertFields_isOk (request : Bytes) : ∃ v, insertFields request = .ok v := by
  unfold insertFields
  split
  · next h =>
    simp only [isShortInsert, Bool.and_eq_true, beq_iff_eq] at h
    rw [substr_eq_ok _ (by omega), substr_eq_ok _ (by omega)]
    exact ⟨_, rfl⟩
  · obtain ⟨identifier, hid⟩ := extractJsonString_isOk request (lit "identifier")
    obtain ⟨pwk, hpwk⟩ := extractJsonString_isOk request (lit "pwk")
    rw [hid, hpwk]
    exact ⟨(identifier, pwk), rfl⟩

/-- The handshake is computed without an exception: the key starts inside the request. -/
theorem generateHandshakeResponse_isOk (request : Bytes) :
    ∃ v, WebSocketHandler.generateHandshakeResponse request = .ok v := by
  unfold WebSocketHandler.generateHandshakeResponse
  split
  · exact ⟨[], rfl⟩
  · next pos_lower hpos =>
    -- the key header was found in the lowered request, which is as long as the request
    have hle := add_length_le_of_find hpos
    rw [List.length_map] at hle
    simp only
    rw [substr_eq_ok _ hle]
    exact ⟨_, rfl⟩

/-- A program that closes its client by its last call. -/
abbrev ClosesLast (P : HandlerOp → Prop) (p : Handler Unit) : Prop := p.Ends P (· = .closeClient)

theorem closesLast_closeClient (P : HandlerOp → Prop) : ClosesLast P closeClient :=
  Or.inl ⟨rfl, fun _ => ⟨(), rfl⟩⟩

theorem closesLast_reply (res : Bytes) : ClosesLast HandlerOp.Answers (reply res) :=
  Or.inr ⟨⟨trivial, trivial⟩, fun _ => closesLast_closeClient _⟩

theorem closesLast_refuseInLockdown (request : Bytes) :
    ClosesLast HandlerOp.Answers (refuseInLockdown request) := by
  unfold refuseInLockdown
  split
  · exact closesLast_reply _
  · exact closesLast_closeClient _

theorem closesLast_insertRoute (request : Bytes) :
    ClosesLast HandlerOp.Quiet (insertRoute request) := by
  have hreply (res : Bytes) := (closesLast_reply res).mono fun _ => And.left
  obtain ⟨fields, hfields⟩ := insertFields_isOk request
  rw [insertRoute, hfields]
  refine Or.inr ⟨trivial, fun _ => ?_⟩
  change ClosesLast _ (if fields.1.length = 64 ∧ fields.2.length = 64 then _ else _)
  split
  · refine Or.inr ⟨trivial, fun probe => ?_⟩
    change ClosesLast _ (if probe.low = true then _ else _)
    split
    · exact hreply _
    · refine Or.inr ⟨trivial, fun res => ?_⟩
      change ClosesLast _ (if res = .DEFINITELY_YES then _ else _)
      split
      · exact hreply _
      · exact Or.inr ⟨trivial, fun _ => Or.inr ⟨trivial, fun _ => hreply _⟩⟩
  · exact hreply _

theorem closesLast_existsRoute (request : Bytes) :
    ClosesLast HandlerOp.Answers (existsRoute request) := by
  obtain ⟨identifier, hid⟩ := existsField_isOk request
  rw [existsRoute, hid]
  refine Or.inr ⟨⟨trivial, trivial⟩, fun _ => ?_⟩
  change ClosesLast _ (if identifier.length = 64 then _ else _)
  split
  · exact Or.inr ⟨⟨trivial, trivial⟩, fun _ => closesLast_reply _⟩
  · exact closesLast_reply _

theorem closesLast_staticRoute (request : Bytes) :
    ClosesLast HandlerOp.Answers (staticRoute request) := by
  have hrouter (path : Bytes) : (router path).AllOps HandlerOp.Answers := by
    unfold router
    split
    · trivial
    · exact ⟨⟨trivial, trivial⟩, fun _ => trivial⟩
  exact .bind ((hrouter _).bind fun _ => Prog.allOps_ret _ _) fun _ => closesLast_reply _

/-- Every plain route but the upgrade closes its client by its last call. -/
theorem plainBranch_cases (request : Bytes) :
    ClosesLast HandlerOp.Quiet (plainBranch request) ∨
      (plainBranch request = upgradeRoute request ∧
        WebSocketHandler.isWebSocketUpgrade request = true) := by
  unfold plainBranch
  split_ifs with _ _ _ _ hupgrade
  · exact Or.inl ((closesLast_reply _).mono fun _ => And.left)
  · exact Or.inl (closesLast_insertRoute request)
  · exact Or.inl ((closesLast_existsRoute request).mono fun _ => And.left)
  · exact Or.inr ⟨rfl, hupgrade⟩
  · exact Or.inl ((closesLast_staticRoute request).mono fun _ => And.left)
  · exact Or.inl ((closesLast_reply _).mono fun _ => And.left)
  · exact Or.inl (closesLast_closeClient _)

/-! ## The routes that only read -/

theorem ClosesLast.reads {p : Handler Unit} (h : ClosesLast HandlerOp.Answers p) :
    p.AllOps HandlerOp.Reads := by
  refine h.allOps.mono ?_
  rintro o (ho | rfl)
  · exact ho.2
  · trivial

theorem reads_upgradeRoute (request : Bytes) : (upgradeRoute request).AllOps HandlerOp.Reads := by
  obtain ⟨ws_response, hws⟩ := generateHandshakeResponse_isOk request
  rw [upgradeRoute, hws]
  exact ⟨trivial, fun _ => ⟨trivial, fun _ => ⟨trivial, fun _ => trivial⟩⟩⟩

/-- The insert route is taken. -/
def TakesInsertRoute (request : Bytes) : Prop :=
  HttpHandler.isHttpRequest request = true ∧ isInsertRequest request = true

instance (request : Bytes) : Decidable (TakesInsertRoute request) :=
  inferInstanceAs (Decidable (_ ∧ _))

/-- The methods `GET` and `POST` are not `OPTIONS`. -/
theorem not_options_of_isHttpRequest {request : Bytes}
    (h : HttpHandler.isHttpRequest request = true) :
    startsWith request (lit "OPTIONS ") = false := by
  simp only [HttpHandler.isHttpRequest, Bool.or_eq_true] at h
  rcases request with _ | ⟨c, request⟩
  · rfl
  -- the first character is `G` or `P`
  · have hc : c = 71 ∨ c = 80 := h.imp
      (fun h => (List.cons_prefix_cons.mp (List.isPrefixOf_iff_prefix.mp h)).1.symm)
      (fun h => (List.cons_prefix_cons.mp (List.isPrefixOf_iff_prefix.mp h)).1.symm)
    rcases hc with rfl | rfl
    · rfl
    · rfl

/-- Every other route only reads. -/
theorem reads_plainBranch {request : Bytes} (h : ¬ TakesInsertRoute request) :
    (plainBranch request).AllOps HandlerOp.Reads := by
  unfold plainBranch
  split_ifs with hhttp hoptions hinsert
  · exact (closesLast_reply _).reads
  · -- this would be the insert route
    simp only [hoptions, Bool.or_false] at hhttp
    exact absurd ⟨hhttp, hinsert⟩ h
  · exact (closesLast_existsRoute request).reads
  · exact reads_upgradeRoute request
  · exact (closesLast_staticRoute request).reads
  · exact (closesLast_reply _).reads
  · exact (closesLast_closeClient _).reads

/-! ## Insert requests -/

/-- A request for the insert route with an identifier and a pwk of 64 characters. -/
structure InsertRequest (request identifier pwk : Bytes) : Prop where
  route : TakesInsertRoute request
  fields : insertFields request = .ok (identifier, pwk)
  length_identifier : identifier.length = 64
  length_pwk : pwk.length = 64

/-- The service with one more query counted. -/
def Service.counted (s : Service) : Service :=
  { s with queries_since_reboot := s.queries_since_reboot + 1 }

/-- The service after `query_engine.insert` and `insertEntity`, whatever the storage does. -/
def Service.written (s : Service) (identifier pwk : Bytes) (storage : StorageEnv) : Service where
  query_engine := s.query_engine.inserted identifier
  data_storage := (s.data_storage.insertEntity (entityOf identifier pwk) storage).1
  queries_since_reboot := s.queries_since_reboot

/-- The service after an insertion. -/
def Service.inserting (s : Service) (identifier pwk : Bytes) (storage : StorageEnv) : Service :=
  s.counted.written identifier pwk storage

/-- The effects of a reply that ends the connection. -/
def replied (res : Bytes) : List Effect := [.sendData res, .closeClient]

/-- What the insert route does for fields of the right length. -/
def insertOutcome (env : HandlerEnv) (s : Service) (identifier pwk : Bytes) :
    Service × List Effect :=
  if env.probe.low then (s.counted, replied insufficientStorage)
  else if identifier ∈ s.query_engine.members then (s.counted, replied duplicateIdentifier)
  else (s.inserting identifier pwk env.storage, replied insertSuccess)

/-- Without a lockdown the handler is the branch for its connection. -/
theorem handle_eq_branch {env : HandlerEnv} (hlock : env.lockdown = .NONE) (service : Service)
    (request : Bytes) :
    handle env service request =
      ((if env.is_ws_client = true then webSocketBranch request else plainBranch request).run
        (handlerOp env) ⟨service, []⟩).map fun r => (r.2.service, r.2.effects) := by
  have hlockOp : handlerOp env .getLockdownState ⟨service, []⟩ = .ok (.NONE, ⟨service, []⟩) := by
    rw [← hlock]
    rfl
  have hwsOp : handlerOp env .isWsClient ⟨service, []⟩
      = .ok (env.is_ws_client, ⟨service, []⟩) := rfl
  rw [handle, dataHandler, Handler.getLockdownState, Prog.call_bind, Prog.run_op_ok _ hlockOp,
    if_neg (by simp), Handler.isWsClient, Prog.call_bind, Prog.run_op_ok _ hwsOp]

/-- Without a lockdown, on a connection that is not upgraded, the handler is the plain branch. -/
theorem handle_eq_plainBranch {env : HandlerEnv} (hlock : env.lockdown = .NONE)
    (hws : env.is_ws_client = false) (service : Service) (request : Bytes) :
    handle env service request = ((plainBranch request).run (handlerOp env) ⟨service, []⟩).map
      fun r => (r.2.service, r.2.effects) := by
  rw [handle_eq_branch hlock, if_neg (by simp [hws])]

/-- What the handler does in a lockdown. -/
def lockdownEffects (request : Bytes) : List Effect :=
  if HttpHandler.isHttpRequest request && !WebSocketHandler.isWebSocketUpgrade request then
    replied lockdownResponse
  else [.closeClient]

/-- In a lockdown the service stays as it is. -/
theorem handle_of_lockdown {env : HandlerEnv} (hlock : env.lockdown ≠ .NONE) (service : Service)
    (request : Bytes) :
    handle env service request = .ok (service, lockdownEffects request) := by
  have hlockOp : handlerOp env .getLockdownState ⟨service, []⟩
      = .ok (env.lockdown, ⟨service, []⟩) := rfl
  rw [handle, dataHandler, Handler.getLockdownState, Prog.call_bind, Prog.run_op_ok _ hlockOp,
    if_pos hlock, refuseInLockdown, lockdownEffects]
  split_ifs
  · rfl
  · rfl

/-- Any other route leaves the stored data as they are. -/
theorem handle_of_not_route {env : HandlerEnv} (hlock : env.lockdown = .NONE)
    (hws : env.is_ws_client = false) (service : Service) {request : Bytes}
    (h : ¬ TakesInsertRoute request) :
    ∃ service' effects, handle env service request = .ok (service', effects) ∧
      service'.stored = service.stored := by
  obtain ⟨w', hrun, hstored⟩ := run_of_reads (reads_plainBranch h) env ⟨service, []⟩
  refine ⟨w'.service, w'.effects, ?_, hstored⟩
  rw [handle_eq_plainBranch hlock hws, hrun]
  rfl

/-- The plain branch of a request that takes the insert route. -/
theorem plainBranch_of_route {request : Bytes} (h : TakesInsertRoute request) :
    plainBranch request = insertRoute request := by
  rw [plainBranch, not_options_of_isHttpRequest h.1, if_pos (by simp [h.1]), if_neg (by simp),
    if_pos h.2]

/-- The insert route for known fields. -/
theorem insertRoute_of_fields {request identifier pwk : Bytes}
    (hfields : insertFields request = .ok (identifier, pwk)) :
    insertRoute request = .op .countQuery fun _ =>
      if identifier.length = 64 ∧ pwk.length = 64 then insertUnlessDuplicate identifier pwk
      else Handler.reply invalidFields := by
  rw [insertRoute, hfields]
  rfl

/-- On the insert route the handler reads the fields and goes on with them. -/
theorem handle_of_route {env : HandlerEnv} (hlock : env.lockdown = .NONE)
    (hws : env.is_ws_client = false) (service : Service) {request identifier pwk : Bytes}
    (h : TakesInsertRoute request) (hfields : insertFields request = .ok (identifier, pwk)) :
    handle env service request = .ok
      (if identifier.length = 64 ∧ pwk.length = 64 then insertOutcome env service identifier pwk
        else (service.counted, replied invalidFields)) := by
  rw [handle_eq_plainBranch hlock hws, plainBranch_of_route h, insertRoute_of_fields hfields]
  change ((ite _ _ _ : Handler Unit).run _ _).map _ = _
  -- the branches of `insertOutcome` in the order of the handler's tests
  by_cases hlen : identifier.length = 64 ∧ pwk.length = 64
  · rw [if_pos hlen, if_pos hlen, insertOutcome, insertUnlessDuplicate]
    change ((ite _ _ _ : Handler Unit).run _ _).map _ = _
    cases hlow : env.probe.low with
    | true => rfl
    | false =>
      rw [if_neg (by simp), if_neg (by simp), Handler.query, Prog.call_bind,
        Prog.run_op_ok _ (handlerOp_query env identifier _)]
      by_cases hmem : identifier ∈ service.query_engine.members
      · rw [if_pos (QueryEngine.answer_eq_definitelyYes_iff.mpr hmem), if_pos hmem]
        rfl
      · rw [if_neg (mt QueryEngine.answer_eq_definitelyYes_iff.mp hmem), if_neg hmem,
          storeEntity, Handler.insertIndex, Prog.call_bind,
          Prog.run_op_ok _ (handlerOp_insertIndex env identifier _)]
        rfl
  · rw [if_neg hlen, if_neg hlen]
    rfl

/-- The outcome of an insert request. -/
theorem handle_insert {env : HandlerEnv} (hlock : env.lockdown = .NONE)
    (hws : env.is_ws_client = false) (service : Service) {request identifier pwk : Bytes}
    (h : InsertRequest request identifier pwk) :
    handle env service request = .ok (insertOutcome env service identifier pwk) := by
  rw [handle_of_route hlock hws service h.route h.fields,
    if_pos ⟨h.length_identifier, h.length_pwk⟩]

/-! ## Agreement of the index and the shards -/

/-- The identifiers answered `DEFINITELY_YES` are those in the tables. -/
def Service.Agrees (s : Service) : Prop :=
  ∀ identifier, s.query_engine.query identifier = .ok .DEFINITELY_YES ↔
    identifier ∈ s.data_storage.identifiers

theorem agrees_iff {s : Service} :
    s.Agrees ↔ s.query_engine.members = s.data_storage.identifiers := by
  simp only [Service.Agrees, QueryEngine.query_eq_ok, Except.ok.injEq,
    QueryEngine.answer_eq_definitelyYes_iff, Finset.ext_iff]

/-- A start that can read every shard ends in agreement. -/
theorem boot_complete (opened : List (Option Shard)) :
    ∃ s, boot opened (fun _ => .complete) = .ok s ∧ s.Agrees ∧
      s.data_storage = .initializeDbs opened := by
  obtain ⟨qe, hqe, hmem⟩ := (DataStorage.initializeDbs opened).members_loadAllIdentifiers
    (.new 1000000 indexSize_pos)
  refine ⟨⟨qe, .initializeDbs opened, 0⟩, ?_, ?_, rfl⟩
  · rw [boot, hqe]
    rfl
  · rw [agrees_iff, hmem, QueryEngine.members_new, Finset.empty_union]

/-- A restart keeps the tables and ends in agreement. -/
theorem restart_eq (s : Service) :
    ∃ s', restart s = .ok s' ∧ s'.Agrees ∧
      s'.data_storage.m_data_dbs = s.data_storage.m_data_dbs := by
  obtain ⟨s', hboot, hagrees, hds⟩ := boot_complete (s.data_storage.m_data_dbs.map some)
  refine ⟨s', hboot, hagrees, ?_⟩
  rw [hds]
  simp [DataStorage.initializeDbs]

end Main
