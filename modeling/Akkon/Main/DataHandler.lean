import Akkon.Db.DataStorage
import Akkon.Main.Extract
import Akkon.Main.StaticFile
import Akkon.Network.Protocols.HttpHandler
import Akkon.Network.Protocols.WebSocketHandler
import Akkon.Security.LifecycleManager
import Akkon.ToMathlib.Program

/-!
# The data handler of `main.cpp`

What a worker thread does with one chunk of received bytes, as a program over the operations the
handler calls on the rest of the server. One text serves twice: run on its own it is the sequential
handler, and taken operation by operation it is a thread that other threads interleave with.

* `HandlerOp`: the operations, each of which is one step: a critical section, a system call, or a
  call on a shared object. `QueryEngine` takes no lock, so that its calls do not overlap is an
  assumption about the interleavings;
* `insertRoute`, `existsRoute`, `upgradeRoute`, `staticRoute`: the HTTP routes in order of
  precedence, chosen by `plainBranch`;
* `webSocketBranch`: the frames of an upgraded connection;
* `dataHandler`: the whole callback.

Log lines and the memory arenas are left out: neither is read by the handler.
-/

namespace Main

open Cpp Indexer Db Security

/-! ## Operations -/

/-- What ends a worker thread: an exception nothing catches, or a fault of the frame decoder. -/
inductive HandlerFault
  | exn (e : Exn)
  | decode (f : WebSocketHandler.DecodeFault)
  deriving DecidableEq, Repr

/-- The operations of the handler for its client. -/
inductive HandlerOp
  | getLockdownState
  /-- `ws_clients.find(client_fd) != ws_clients.end()` under `ws_mutex`. -/
  | isWsClient
  /-- `ws_clients.insert(client_fd)` under `ws_mutex`. -/
  | insertWsClient
  | sendData (data : Bytes)
  | closeClient
  | enablePolling
  /-- `g_queries_since_reboot++`. -/
  | countQuery
  /-- The handler's own look at the disk. -/
  | probeDisk
  | query (item : Bytes)
  /-- `query_engine.insert`. -/
  | insertIndex (item : Bytes)
  /-- `data_storage.insertEntity`. -/
  | insertEntity (entity : DbEntity)
  /-- A whole file through `std::ifstream`, `none` when it does not open. -/
  | readFile (path : Bytes)
  | throw (fault : HandlerFault)
  deriving DecidableEq, Repr

/-- What an operation answers. -/
@[reducible]
def HandlerOp.Res : HandlerOp → Type
  | getLockdownState => LockdownState
  | isWsClient => Bool
  | insertWsClient => Unit
  | sendData _ => Bool
  | closeClient => Unit
  | enablePolling => Unit
  | countQuery => Unit
  | probeDisk => DiskProbe
  | query _ => QueryResult
  | insertIndex _ => Unit
  | insertEntity _ => Bool
  | readFile _ => Option Bytes
  | throw _ => Empty

/-- A part of the handler. -/
abbrev Handler (α : Type) := Prog HandlerOp HandlerOp.Res α

namespace Handler

def getLockdownState : Handler LockdownState := Prog.call HandlerOp.getLockdownState
def isWsClient : Handler Bool := Prog.call HandlerOp.isWsClient
def insertWsClient : Handler Unit := Prog.call HandlerOp.insertWsClient
def sendData (data : Bytes) : Handler Bool := Prog.call (HandlerOp.sendData data)
def closeClient : Handler Unit := Prog.call HandlerOp.closeClient
def enablePolling : Handler Unit := Prog.call HandlerOp.enablePolling
def countQuery : Handler Unit := Prog.call HandlerOp.countQuery
def probeDisk : Handler DiskProbe := Prog.call HandlerOp.probeDisk
def query (item : Bytes) : Handler QueryResult := Prog.call (HandlerOp.query item)
def insertIndex (item : Bytes) : Handler Unit := Prog.call (HandlerOp.insertIndex item)
def insertEntity (entity : DbEntity) : Handler Bool := Prog.call (HandlerOp.insertEntity entity)
def readFile (path : Bytes) : Handler (Option Bytes) := Prog.call (HandlerOp.readFile path)

/-- A call that may throw; the handler has no `catch`. -/
def ofExcept {α : Type} : Except Exn α → Handler α
  | .ok a => .ret a
  | .error e => .op (.throw (.exn e)) fun r => nomatch r

/-- A reply that ends the connection. The result of `sendData` is ignored. -/
def reply (res : Bytes) : Handler Unit := do
  let _ ← sendData res
  closeClient

end Handler

open Handler

/-! ## Replies -/

/-- A reply with a JSON body. -/
def jsonResponse (status body : Bytes) : Bytes :=
  lit "HTTP/1.1 " ++ status ++
    lit "\r\nAccess-Control-Allow-Origin: *\r\nContent-Type: application/json\r\nContent-Length: " ++
    to_string body.length ++ lit "\r\nConnection: close\r\n\r\n" ++ body

def insufficientStorage : Bytes :=
  jsonResponse (lit "507 Insufficient Storage") (lit "\x7b\"error\":\"insufficient storage\"\x7d")

def duplicateIdentifier : Bytes :=
  jsonResponse (lit "409 Conflict") (lit "\x7b\"error\":\"duplicate identifier\"\x7d")

def insertSuccess : Bytes := jsonResponse (lit "200 OK") (lit "\x7b\"status\":\"success\"\x7d")

def invalidFields : Bytes :=
  jsonResponse (lit "400 Bad Request")
    (lit "\x7b\"error\":\"invalid fields or size limits (must be 64 char hashes)\"\x7d")

def invalidIdentifier : Bytes :=
  jsonResponse (lit "400 Bad Request")
    (lit "\x7b\"error\":\"invalid identifier size (must be 64 char hash)\"\x7d")

/-- `res_str`. -/
def resultText : QueryResult → Bytes
  | .PROBABLY_YES => lit "PROBABLY_YES"
  | .DEFINITELY_YES => lit "DEFINITELY_YES"
  | .DEFINITELY_NO => lit "DEFINITELY_NO"

def existsResult (res : QueryResult) : Bytes :=
  jsonResponse (lit "200 OK") (lit "\x7b\"result\":\"" ++ resultText res ++ lit "\"\x7d")

/-- The reply to `OPTIONS`. -/
def optionsResponse : Bytes :=
  lit "HTTP/1.1 204 No Content\r\nAccess-Control-Allow-Origin: *\r\n" ++
    lit "Access-Control-Allow-Methods: POST, GET, OPTIONS\r\n" ++
    lit "Access-Control-Allow-Headers: Content-Type\r\nConnection: close\r\n\r\n"

/-- The reply to HTTP requests in a lockdown. -/
def lockdownResponse : Bytes :=
  lit "HTTP/1.1 503 Service Unavailable\r\n\r\nLOCKDOWN IN EFFECT. ALL REQUESTS BLOCKED."

/-! ## WebSocket clients -/

/-- The loop over `ids`. The comma looks at the number of identifiers, not at their lengths. -/
def batchResults : List Bytes → Handler Bytes
  | [] => return []
  | id :: rest => do
    if id.length = 64 then
      countQuery
      let qres ← query id
      let entry := quoted id ++ lit ":" ++ quoted (resultText qres)
      let others ← batchResults rest
      return entry ++ (if rest = [] then [] else lit ",") ++ others
    else batchResults rest

/-- `response_payload`. -/
def batchResponse (batch_id results : Bytes) : Bytes :=
  lit "\x7b\"action\":\"exists_batch_response\", \"batch_id\":\"" ++ batch_id ++
    lit "\", \"results\":" ++ (lit "\x7b" ++ results ++ lit "\x7d") ++ lit "\x7d"

/-- The body of the loop over the payloads. -/
def answerPayload (payload : Bytes) : Handler Unit := do
  let action ← ofExcept (extractJsonString payload (lit "action"))
  if action = lit "exists_batch" then
    let ids ← ofExcept (extractJsonArray payload (lit "identifiers"))
    let batch_id ← ofExcept (extractJsonString payload (lit "batch_id"))
    let results ← batchResults ids
    let _ ← sendData (WebSocketHandler.encodeFrame (batchResponse batch_id results))
    return ()
  else return ()

/-- The loop over the payloads. -/
def answerPayloads : List Bytes → Handler Unit
  | [] => return ()
  | payload :: rest => do
    answerPayload payload
    answerPayloads rest

/-- The branch for a client in `ws_clients`. -/
def webSocketBranch (request : Bytes) : Handler Unit :=
  match WebSocketHandler.decodeFrames request with
  | .error f => .op (.throw (.decode f)) fun r => nomatch r
  | .ok payloads => do
    answerPayloads payloads
    enablePolling

/-! ## Routing -/

/-- `clean_path`: the path up to a question mark. -/
def cleanPath (path : Bytes) : Bytes :=
  match find path (lit "?") with
  | none => path
  | some q_pos => path.take q_pos

/-- `is_hex_str`. -/
def isHexStr (s : Bytes) (start : ℕ) : Bool :=
  (s.drop start).all fun c => (48 ≤ c && c ≤ 57) || (97 ≤ c && c ≤ 102) || (65 ≤ c && c ≤ 70)

/-- The method and `clean_path` of a request. -/
def requestLine (request : Bytes) : Bytes × Bytes :=
  let (method, path) := HttpHandler.methodPath request
  (method, cleanPath path)

/-- `is_short_insert`. -/
def isShortInsert (request : Bytes) : Bool :=
  let (method, clean_path) := requestLine request
  method == lit "POST" && startsWith clean_path (lit "/api/") && clean_path.length == 133 &&
    isHexStr clean_path 5

/-- `is_short_exists`. -/
def isShortExists (request : Bytes) : Bool :=
  let (method, clean_path) := requestLine request
  method == lit "GET" && startsWith clean_path (lit "/api/") && clean_path.length == 69 &&
    isHexStr clean_path 5

/-- The condition of the insert route: the route text anywhere in the request, or the short form. -/
def isInsertRequest (request : Bytes) : Bool :=
  contains request (lit "POST /api/v1/insert") || contains request (lit "POST /api/v1/create") ||
    isShortInsert request

/-- The condition of the exists route. -/
def isExistsRequest (request : Bytes) : Bool :=
  contains request (lit "GET /api/v1/exists") || isShortExists request

/-- `identifier` and `pwk` of an insert request. -/
def insertFields (request : Bytes) : Except Exn (Bytes × Bytes) :=
  if isShortInsert request then do
    let identifier ← substr (requestLine request).2 5 64
    let pwk ← substr (requestLine request).2 69 64
    return (identifier, pwk)
  else do
    -- the whole request is searched, its head included
    let identifier ← extractJsonString request (lit "identifier")
    let pwk ← extractJsonString request (lit "pwk")
    return (identifier, pwk)

/-- `identifier` of an exists request. -/
def existsField (request : Bytes) : Except Exn Bytes :=
  if isShortExists request then substr (requestLine request).2 5 64
  else extractQueryString request (lit "identifier")

/-- The entity stored for an identifier and a pwk. -/
def entityOf (identifier pwk : Bytes) : DbEntity :=
  ⟨Crypto.Hash.sha256 (identifier ++ pwk), identifier, pwk⟩

/-- The end of the insert route: the index first, then the storage, whose result is dropped. -/
def storeEntity (identifier pwk : Bytes) : Handler Unit := do
  insertIndex identifier
  let _ ← insertEntity (entityOf identifier pwk)
  reply insertSuccess

/-- The insert route behind the check of the field lengths. -/
def insertUnlessDuplicate (identifier pwk : Bytes) : Handler Unit := do
  let probe ← probeDisk
  -- the disk is looked at before the index is asked
  if probe.low then reply insufficientStorage
  else
    let res ← query identifier
    if res = .DEFINITELY_YES then reply duplicateIdentifier
    else storeEntity identifier pwk

/-- The insert route. -/
def insertRoute (request : Bytes) : Handler Unit := do
  countQuery
  let fields ← ofExcept (insertFields request)
  if fields.1.length = 64 ∧ fields.2.length = 64 then insertUnlessDuplicate fields.1 fields.2
  else reply invalidFields

/-- The exists route. -/
def existsRoute (request : Bytes) : Handler Unit := do
  countQuery
  let identifier ← ofExcept (existsField request)
  if identifier.length = 64 then
    let res ← query identifier
    reply (existsResult res)
  else reply invalidIdentifier

/-- The upgrade to a WebSocket. The connection is registered whatever was sent. -/
def upgradeRoute (request : Bytes) : Handler Unit := do
  let ws_response ← ofExcept (WebSocketHandler.generateHandshakeResponse request)
  let _ ← sendData ws_response
  insertWsClient
  enablePolling

/-- The router passed to `HttpHandler::handleRequest`. -/
def router (path : Bytes) : Handler Bytes := do
  if startsWith path (lit "/api/stats") then
    return lit "\x7b\"allocated\": 1024, \"capacity\": 1048576, \"total_queries\": 5, \"hit_rate\": 80.0\x7d"
  else
    let content ← readFile (staticFilePath path)
    return staticFileBody content

/-- The fallback route. -/
def staticRoute (request : Bytes) : Handler Unit := do
  let http_response ← HttpHandler.handleRequest request router
  reply http_response

/-- The branch for a client that is not in `ws_clients`. -/
def plainBranch (request : Bytes) : Handler Unit :=
  if HttpHandler.isHttpRequest request || startsWith request (lit "OPTIONS ") then
    if startsWith request (lit "OPTIONS ") then reply optionsResponse
    else if isInsertRequest request then insertRoute request
    else if isExistsRequest request then existsRoute request
    else if WebSocketHandler.isWebSocketUpgrade request then upgradeRoute request
    else staticRoute request
  else if AkkonProtocolHandler.isAkkonProtocol request then
    reply (AkkonProtocolHandler.handleRequest request)
  else closeClient

/-- The branch in a lockdown. -/
def refuseInLockdown (request : Bytes) : Handler Unit :=
  if HttpHandler.isHttpRequest request && !WebSocketHandler.isWebSocketUpgrade request then
    reply lockdownResponse
  else closeClient

/-- The data handler. -/
def dataHandler (request : Bytes) : Handler Unit := do
  let state ← getLockdownState
  -- `CLOSE` refuses requests as `IMMEDIATE` does
  if state ≠ .NONE then refuseInLockdown request
  else
    let is_ws_client ← isWsClient
    if is_ws_client then webSocketBranch request
    else plainBranch request

end Main
