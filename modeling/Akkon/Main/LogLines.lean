import Akkon.Main.DataHandler
import Akkon.Main.LogCallback

/-!
# The log lines of the data handler

`DataHandler` leaves the log lines out, because the handler reads none of them. They are not without
effect, though: `SystemMonitor::log` calls the log callback, which sends the line to the clients in
`ws_clients` and closes those it cannot reach. Here the handler is the program with its log lines,
over the operations of the handler, `isDebugMode` and `log`.

* `loggedDataHandler`: the handler with its log lines, route by route;
* `DataStorage.insertEntityLog`: the lines that `insertEntity` writes;
* `formatLog`: a line as the log callback gets it;
* `interpret_loggedDataHandler`: without its log lines the handler is `dataHandler`.
-/

namespace Db

open Cpp Monitor

/-- The parts of the lines of `insertEntity` that come from other libraries. -/
structure StorageTexts where
  /-- `e.what()`. -/
  what : Bytes
  /-- `sqlite3_db_filename(target_db, "main")`. -/
  filename : Option Bytes
  /-- The result of `sqlite3_step`. -/
  rc : ℕ

/-- What `insertEntity` writes to the log. -/
def DataStorage.insertEntityLog (ds : DataStorage) (entity : DbEntity) (env : StorageEnv)
    (texts : StorageTexts) : List (LogLevel × Bytes) :=
  if ds.m_data_dbs = [] then []
  else if entity.uuid ≠ [] ∧ entity.identifyer = [] then
    [(.ERROR, lit "Write rejected: UUID cannot exist without an identifier.")]
  else if env.disk.dirExists && env.disk.low then
    [(.ERROR, lit "Write rejected: Disk space below 100MB guardrail.")]
  else
    -- a probe that throws is logged, and the write goes on
    (if env.disk.dirExists && env.disk.available.isNone then
      [(.WARNING, lit "Failed to check disk space: " ++ texts.what)] else []) ++
    [(.DEBUG, lit "Inserting entity. Target index: " ++ to_string ds.m_round_robin_idx ++
      lit ", File: " ++ texts.filename.getD (lit "unknown"))] ++
    if !env.prepareOk then [(.ERROR, lit "DataStorage prepare statement failed")]
    else if !env.stepDone then
      [(.ERROR, lit "DataStorage insert failed: step rc=" ++ to_string texts.rc)]
    else []

end Db

namespace Main

open Cpp Db Monitor Handler

/-! ## Operations -/

/-- The operations of the handler with its log lines. -/
inductive LogOp
  | call (o : HandlerOp)
  | isDebugMode
  /-- `SystemMonitor::log` with the tracker id of the request. -/
  | log (level : LogLevel) (message : Bytes)
  deriving DecidableEq, Repr

/-- What an operation answers. -/
@[reducible]
def LogOp.Res : LogOp → Type
  | call o => o.Res
  | isDebugMode => Bool
  | log _ _ => Unit

/-- A part of the handler with its log lines. -/
abbrev Logged (α : Type) := Prog LogOp LogOp.Res α

/-- A part of the handler that writes no line. -/
def silent {α : Type} (p : Handler α) : Logged α := p.interpret fun o => Prog.call (LogOp.call o)

/-- `if (isDebugMode()) log(DEBUG, message)`. -/
def debugLine (message : Bytes) : Logged Unit := do
  let debug ← Prog.call LogOp.isDebugMode
  if debug then Prog.call (LogOp.log .DEBUG message) else return ()

/-! ## Lines -/

/-- `std::to_string` of an fd number. -/
def fdText (fd : ℤ) : Bytes :=
  if fd < 0 then lit "-" ++ to_string fd.natAbs else to_string fd.natAbs

def receivedLine (fd : ℤ) (request : Bytes) : Bytes :=
  lit "Received request (FD: " ++ fdText fd ++ lit ", len=" ++ to_string request.length ++
    lit "):\n" ++ request.take 1000

def insertedLine (identifier : Bytes) : Bytes := lit "API Inserted identifier: " ++ identifier

def queriedLine (identifier res_str : Bytes) : Bytes :=
  lit "API Queried identifier: " ++ identifier ++ lit " -> " ++ res_str

def upgradedLine (fd : ℤ) : Bytes :=
  lit "WebSocket connection upgraded (FD: " ++ fdText fd ++ lit ")"

def unknownLine : Bytes :=
  lit "Received unknown payload or WebSocket frame (ignoring as API is now REST)"

/-- `tracker_buf`, which `"TRK_%06X"` fills in for an id below `2 ^ 24`. -/
def trackerId (current_id : ℕ) : Bytes :=
  let digits := (Nat.toDigits 16 current_id).map fun c => c.toUpper.toNat.toUInt8
  lit "TRK_" ++ digits.leftpad 6 48

/-- `level_str`. -/
def levelText : LogLevel → Bytes
  | .INFO => lit "INFO"
  | .WARNING => lit "WARNING"
  | .ERROR => lit "ERROR"
  | .DEBUG => lit "DEBUG"

/-- `formatted` of `SystemMonitor::log`. -/
def formatLog (time_buf : Bytes) (level : LogLevel) (tracker_id message : Bytes) : Bytes :=
  lit "[" ++ time_buf ++ lit "] [" ++ levelText level ++ lit "] [" ++ tracker_id ++ lit "] " ++
    message ++ lit "\n"

example : trackerId 0xAB12 = lit "TRK_00AB12" := by decide

/-! ## The handler -/

/-- `storeEntity` with its line. -/
def loggedStoreEntity (identifier pwk : Bytes) : Logged Unit := do
  silent (insertIndex identifier)
  let _ ← silent (insertEntity (entityOf identifier pwk))
  let _ ← silent (sendData insertSuccess)
  debugLine (insertedLine identifier)
  silent closeClient

/-- `insertUnlessDuplicate` with its line. -/
def loggedInsertUnlessDuplicate (identifier pwk : Bytes) : Logged Unit := do
  let probe ← silent probeDisk
  if probe.low then silent (reply insufficientStorage)
  else
    let res ← silent (query identifier)
    if res = .DEFINITELY_YES then silent (reply duplicateIdentifier)
    else loggedStoreEntity identifier pwk

/-- The insert route with its line. -/
def loggedInsertRoute (request : Bytes) : Logged Unit := do
  silent countQuery
  let fields ← silent (ofExcept (insertFields request))
  if fields.1.length = 64 ∧ fields.2.length = 64 then
    loggedInsertUnlessDuplicate fields.1 fields.2
  else silent (reply invalidFields)

/-- The exists route with its line. -/
def loggedExistsRoute (request : Bytes) : Logged Unit := do
  silent countQuery
  let identifier ← silent (ofExcept (existsField request))
  if identifier.length = 64 then
    let res ← silent (query identifier)
    let _ ← silent (sendData (existsResult res))
    debugLine (queriedLine identifier (resultText res))
    silent closeClient
  else silent (reply invalidIdentifier)

/-- The upgrade with its line, which is written behind the registration. -/
def loggedUpgradeRoute (fd : ℤ) (request : Bytes) : Logged Unit := do
  let ws_response ← silent (ofExcept (WebSocketHandler.generateHandshakeResponse request))
  let _ ← silent (sendData ws_response)
  silent insertWsClient
  debugLine (upgradedLine fd)
  silent enablePolling

/-- `plainBranch` with its lines. -/
def loggedPlainBranch (fd : ℤ) (request : Bytes) : Logged Unit :=
  if HttpHandler.isHttpRequest request || startsWith request (lit "OPTIONS ") then
    if startsWith request (lit "OPTIONS ") then silent (reply optionsResponse)
    else if isInsertRequest request then loggedInsertRoute request
    else if isExistsRequest request then loggedExistsRoute request
    else if WebSocketHandler.isWebSocketUpgrade request then loggedUpgradeRoute fd request
    else silent (staticRoute request)
  else if AkkonProtocolHandler.isAkkonProtocol request then
    silent (reply (AkkonProtocolHandler.handleRequest request))
  else do
    debugLine unknownLine
    silent closeClient

/-- The data handler with its lines, for the client on `fd`. -/
def loggedDataHandler (fd : ℤ) (request : Bytes) : Logged Unit := do
  debugLine (receivedLine fd request)
  let state ← silent getLockdownState
  if state ≠ .NONE then silent (refuseInLockdown request)
  else
    let is_ws_client ← silent isWsClient
    if is_ws_client then silent (webSocketBranch request)
    else loggedPlainBranch fd request

/-! ## Without the lines -/

/-- An operation without its line; `isDebugMode` is answered. -/
def unlogged (debug : Bool) : (o : LogOp) → Handler o.Res
  | .call o => Prog.call o
  | .isDebugMode => .ret debug
  | .log _ _ => .ret ()

@[simp]
theorem interpret_silent {α : Type} (debug : Bool) (p : Handler α) :
    (silent p).interpret (unlogged debug) = p := by
  induction p with
  | ret a => rfl
  | op o k ih => exact congrArg (Prog.op o) (funext ih)

@[simp]
theorem interpret_debugLine (debug : Bool) (message : Bytes) :
    (debugLine message).interpret (unlogged debug) = .ret () := by
  cases debug <;> rfl

section Interpret

variable (debug : Bool)

theorem interpret_loggedStoreEntity (identifier pwk : Bytes) :
    (loggedStoreEntity identifier pwk).interpret (unlogged debug) =
      storeEntity identifier pwk := by
  simp only [loggedStoreEntity, storeEntity, reply, Prog.interpret_bind, interpret_silent,
    interpret_debugLine, Prog.ret_bind]

theorem interpret_loggedInsertRoute (request : Bytes) :
    (loggedInsertRoute request).interpret (unlogged debug) = insertRoute request := by
  simp only [loggedInsertRoute, insertRoute, loggedInsertUnlessDuplicate, insertUnlessDuplicate,
    Prog.interpret_bind, interpret_silent, apply_ite (Prog.interpret (unlogged debug)),
    interpret_loggedStoreEntity]

theorem interpret_loggedExistsRoute (request : Bytes) :
    (loggedExistsRoute request).interpret (unlogged debug) = existsRoute request := by
  simp only [loggedExistsRoute, existsRoute, reply, Prog.interpret_bind, interpret_silent,
    apply_ite (Prog.interpret (unlogged debug)), interpret_debugLine, Prog.ret_bind]

theorem interpret_loggedUpgradeRoute (fd : ℤ) (request : Bytes) :
    (loggedUpgradeRoute fd request).interpret (unlogged debug) = upgradeRoute request := by
  simp only [loggedUpgradeRoute, upgradeRoute, Prog.interpret_bind, interpret_silent,
    interpret_debugLine, Prog.ret_bind]

theorem interpret_loggedPlainBranch (fd : ℤ) (request : Bytes) :
    (loggedPlainBranch fd request).interpret (unlogged debug) = plainBranch request := by
  simp only [loggedPlainBranch, plainBranch, Prog.interpret_bind, interpret_silent,
    apply_ite (Prog.interpret (unlogged debug)), interpret_debugLine, Prog.ret_bind,
    interpret_loggedInsertRoute, interpret_loggedExistsRoute, interpret_loggedUpgradeRoute]

/-- Without its lines the handler is `dataHandler`, in debug mode as outside it. -/
theorem interpret_loggedDataHandler (fd : ℤ) (request : Bytes) :
    (loggedDataHandler fd request).interpret (unlogged debug) = dataHandler request := by
  simp only [loggedDataHandler, dataHandler, Prog.interpret_bind, interpret_silent,
    apply_ite (Prog.interpret (unlogged debug)), interpret_debugLine, Prog.ret_bind,
    interpret_loggedPlainBranch]

end Interpret

end Main
