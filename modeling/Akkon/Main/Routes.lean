import Akkon.Main.ExistsBatch
import Akkon.Main.ShortForm
import Akkon.Network.Protocols.Frame

/-!
# Routes to the same operation

A lookup can be asked for in the short form, with a query string, or in a frame of an upgraded
connection; an insertion in the short form or with a JSON body for one of two routes. The short form
takes its fields out of the path. The long ones search the whole request for them, header lines
included.

* `HeaderBlock`: the header lines a client adds to a request;
* `RoutesAgree`: on every server state the routes report the same result, and insert the same;
* `extractJsonString_eq_ok_iff`: the field of a body is read past the header lines exactly when none
  of them gives another value to its key;
* `routesAgree_iff`: the routes agree exactly for the header lines without `&` in which neither key
  gets another value.
-/

namespace Main

open Cpp Indexer Db Security WebSocketHandler

/-! ## Requests -/

/-- The text of further header lines, in which no long route occurs. -/
structure HeaderBlock where
  text : Bytes
  no_route : contains text (lit "/api/v1/") = false
  length_le : text.length ≤ maxSize

namespace HeaderBlock

variable (block : HeaderBlock)

/-- No long route occurs across the ends of the header lines either. -/
theorem no_route_tail :
    contains (lit " HTTP/1.1\r\n" ++ block.text ++ lit "\r\n") (lit "/api/v1/") = false := by
  have hsplit : lit " HTTP/1.1\r\n" ++ block.text ++ lit "\r\n"
      = lit " HTTP/1.1" ++ 13 :: ((10 :: block.text) ++ 13 :: [10]) := rfl
  rw [hsplit, contains_eq_false_iff, infix_append_cons_iff (by decide) (by decide),
    infix_append_cons_iff (by decide) (by decide), List.infix_cons_iff]
  -- the route has no line end, so it would lie in the request line or in the header lines
  have hfirst : ¬ lit "/api/v1/" <+: 10 :: block.text :=
    fun h => absurd (List.cons_prefix_cons.mp h).1 (by decide)
  rintro (h | (h | h) | h)
  · exact absurd h (by decide)
  · exact hfirst h
  · exact contains_eq_false_iff.mp block.no_route h
  · exact absurd h (by decide)

/-- The rest of a request line, the header lines and the blank line. -/
def tail : Tail :=
  ⟨lit " HTTP/1.1\r\n" ++ block.text ++ lit "\r\n", by simp [lit, isSpace], block.no_route_tail⟩

theorem tail_eq : block.tail.1 = 32 :: (lit "HTTP/1.1\r\n" ++ block.text ++ lit "\r\n") := rfl

end HeaderBlock

/-- `GET /api/v1/exists?identifier=` with header lines. -/
def longGet (identifier : HexId) (block : HeaderBlock) : Bytes :=
  lit "GET /api/v1/exists?identifier=" ++ identifier.1 ++ block.tail.1

/-- The two routes for an insertion with a body. -/
inductive LongRoute
  | insert
  | create
  deriving DecidableEq, Repr

def LongRoute.path : LongRoute → Bytes
  | .insert => lit "/api/v1/insert"
  | .create => lit "/api/v1/create"

/-- The body of an insertion. -/
def insertBody (identifier pwk : HexId) : Bytes :=
  lit "\x7b\"identifier\":\"" ++ identifier.1 ++ lit "\",\"pwk\":\"" ++ pwk.1 ++ lit "\"\x7d"

/-- `POST` to a long route with header lines and a body. -/
def longPost (route : LongRoute) (identifier pwk : HexId) (block : HeaderBlock) : Bytes :=
  lit "POST " ++ route.path ++ block.tail.1 ++ insertBody identifier pwk

/-- The message with which an upgraded client asks about one identifier. -/
def batchRequest (batch_id : Bytes) (identifier : HexId) : Bytes :=
  lit "\x7b\"action\":\"exists_batch\",\"batch_id\":\"" ++ batch_id ++
    lit "\",\"identifiers\":[\"" ++ identifier.1 ++ lit "\"]\x7d"

/-- A text frame with this message. The batch number is any text without a quote. -/
structure BatchFrame (batch_id : Bytes) (identifier : HexId) (f : Frame) : Prop where
  noQuote : 34 ∉ batch_id
  text : opcode f.first_byte = 1
  payload : f.payload = batchRequest batch_id identifier
  length_le : f.wire.length ≤ maxSize

/-! ## Agreement -/

/-- The same state of the server, seen by a connection that is not upgraded. -/
def HandlerEnv.plain (env : HandlerEnv) : HandlerEnv := { env with is_ws_client := false }

/-- The same state of the server, seen by an upgraded connection. -/
def HandlerEnv.upgraded (env : HandlerEnv) : HandlerEnv := { env with is_ws_client := true }

/-- The reply to a lookup over HTTP. -/
def existsReply (res : QueryResult) : List Effect := replied (existsResult res)

/-- The reply to a lookup of one identifier in a frame. -/
def batchReply (batch_id : Bytes) (identifier : HexId) (res : QueryResult) : List Effect :=
  [.sendData (encodeFrame (batchResponse batch_id
    (quoted identifier.1 ++ lit ":" ++ quoted (resultText res)))), .enablePolling]

/-- The handler's calls report a result to the client, or none at all. -/
def Reports (reply : QueryResult → List Effect)
    (outcome : Except HandlerFault (Service × List Effect)) : Option QueryResult → Prop
  | some res => ∃ service', outcome = .ok (service', reply res)
  | none => ∀ service' res, outcome ≠ .ok (service', reply res)

/-- The three digits of the status line, when the first thing done is to send a response. -/
def statusCode : List Effect → Option Bytes
  | .sendData res :: _ => some ((res.drop 9).take 3)
  | _ => none

/-- What an insertion comes to: the status code, and the stored data. -/
def posted (outcome : Except HandlerFault (Service × List Effect)) :
    Except HandlerFault (Option Bytes × (QueryEngine × DataStorage)) :=
  outcome.map fun r => (statusCode r.2, r.1.stored)

/-- All the routes to a lookup report the same result, and all the routes to an insertion give the
same status code and the same stored data, whatever the state of the server. A successful one stores
the entity of the identifier and the pwk. -/
structure RoutesAgree (identifier pwk : HexId) (block : HeaderBlock) : Prop where
  lookups : ∀ (env : HandlerEnv) (service : Service), ∃ report : Option QueryResult,
    (env.lockdown = .NONE → report.isSome = true) ∧
      Reports existsReply (handle env.plain service (shortGet identifier block.tail)) report ∧
      Reports existsReply (handle env.plain service (longGet identifier block)) report ∧
      ∀ (batch_id : Bytes) (f : Frame), BatchFrame batch_id identifier f →
        Reports (batchReply batch_id identifier) (handle env.upgraded service f.wire) report
  insertions : ∀ (env : HandlerEnv) (service : Service),
    ∃ (status : Option Bytes) (stored : QueryEngine × DataStorage),
      posted (handle env.plain service (shortPost identifier pwk block.tail))
        = .ok (status, stored) ∧
      (∀ route, posted (handle env.plain service (longPost route identifier pwk block))
        = .ok (status, stored)) ∧
      (status = some (lit "200") →
        stored = (service.written identifier.1 pwk.1 env.storage).stored)

/-- The first key of the field in the header lines, if there is one, has this value. -/
def Unshadowed (text field value : Bytes) : Prop :=
  ∀ pos, find text (jsonKey field) = some pos →
    value ++ lit "\"" <+: text.drop (pos + (jsonKey field).length)

/-! ## Lookups with a query string -/

section Lookup

variable (identifier : HexId) (block : HeaderBlock)

theorem isShortExists_longGet : isShortExists (longGet identifier block) = false := by
  have hsplit : longGet identifier block = lit "GET" ++ 32 :: (lit "/api/v1/exists" ++
      (63 :: (lit "identifier=" ++ identifier.1 ++ block.tail.1))) := rfl
  have hline : requestLine (longGet identifier block) = (lit "GET", lit "/api/v1/exists") := by
    rw [hsplit]
    exact requestLine_append (by decide) (by simp [lit, isSpace]) (by decide)
      (by simp [lit, isSpace]) (by simp)
  rw [isShortExists, hline]
  decide

theorem isInsertRequest_longGet : isInsertRequest (longGet identifier block) = false := by
  have hshort : isShortInsert (longGet identifier block) = false := rfl
  refine isInsertRequest_append_tail ?_ block.tail hshort
  exact List.not_mem_append (by decide) (identifier.not_mem rfl)

/-- The identifier is read up to the first `&` of the whole request, or else up to the blank. -/
theorem existsField_longGet :
    existsField (longGet identifier block) = .ok
      (if 38 ∈ block.text then (identifier.1 ++ block.tail.1).takeWhile (· != 38)
        else identifier.1) := by
  have hsplit : longGet identifier block = lit "GET /api/v1/exists?" ++
      ((lit "identifier" ++ lit "=") ++ (identifier.1 ++ block.tail.1)) := by
    simp [longGet, lit]
  have hfind : find (longGet identifier block) (lit "identifier" ++ lit "=")
      = some (lit "GET /api/v1/exists?").length := rfl
  have hlength : (longGet identifier block).length < 2 ^ 64 := by
    have hblock := block.length_le
    simp [longGet, HeaderBlock.tail, identifier.2.1, lit, maxSize] at hblock ⊢
    omega
  rw [existsField, if_neg (by simp [isShortExists_longGet])]
  -- the search for `&` comes first, and it goes on to the end of the request
  by_cases hamp : (38 : UInt8) ∈ block.text
  · rw [if_pos hamp]
    exact extractQueryString_eq hsplit hfind hlength (by decide)
      (by simp [HeaderBlock.tail, hamp]) (.inl rfl)
  · rw [if_neg hamp]
    have hnot : (38 : UInt8) ∉ (lit "identifier" ++ lit "=") ++ (identifier.1 ++ block.tail.1) := by
      have hid := identifier.not_mem (c := 38) rfl
      simp [HeaderBlock.tail, lit, hamp, hid]
    rw [extractQueryString_eq hsplit hfind hlength (by decide) (by simp [HeaderBlock.tail_eq])
      (.inr ⟨rfl, hnot⟩), HeaderBlock.tail_eq,
      takeWhile_append_cons (identifier.not_mem rfl)]

/-- With a `&` in the header lines the identifier runs into them, and is refused for its length. -/
theorem handle_longGet {env : HandlerEnv} (hlock : env.lockdown = .NONE)
    (hws : env.is_ws_client = false) (service : Service) :
    handle env service (longGet identifier block) = .ok (service.counted,
      if 38 ∈ block.text then replied invalidIdentifier
      else existsReply (service.query_engine.answer identifier.1)) := by
  have hhttp : HttpHandler.isHttpRequest (longGet identifier block) = true := by
    simp [HttpHandler.isHttpRequest, longGet, startsWith, lit]
  have hexists : isExistsRequest (longGet identifier block) = true := by
    have hroute : contains (longGet identifier block) (lit "GET /api/v1/exists") = true := by
      have hstart : lit "GET /api/v1/exists" <+: longGet identifier block :=
        ⟨lit "?identifier=" ++ identifier.1 ++ block.tail.1, by simp [longGet, lit]⟩
      exact contains_iff.mpr hstart.isInfix
    rw [isExistsRequest, hroute, Bool.true_or]
  rw [handle_of_exists hlock hws service hhttp (isInsertRequest_longGet identifier block) hexists
    (existsField_longGet identifier block)]
  by_cases hamp : (38 : UInt8) ∈ block.text
  · have hlength : ((identifier.1 ++ block.tail.1).takeWhile (· != 38)).length ≠ 64 := by
      have hid : 38 ∉ identifier.1 := identifier.not_mem rfl
      -- the blank behind the identifier is taken with it
      rw [List.takeWhile_append_of_pos (bne_of_not_mem hid), HeaderBlock.tail_eq,
        List.takeWhile_cons_of_pos (by decide), List.length_append, identifier.2.1,
        List.length_cons]
      omega
    rw [if_pos hamp, if_neg hlength, if_pos hamp]
  · rw [if_neg hamp, if_pos identifier.2.1, if_neg hamp, existsReply]

end Lookup

/-! ## Fields behind the header lines -/

/-- A key ends in front of a line end, so it is in the header lines or in the body. -/
theorem find_jsonKey_request {head text body field : Bytes} {n : ℕ} (hhead : 34 ∉ head)
    (hfield : 13 ∉ field) (hfind : find body (jsonKey field) = some n) :
    find (head ++ 13 :: ((10 :: text) ++ 13 :: body)) (jsonKey field) =
      ((find text (jsonKey field)).map (· + (head.length + 2))).or
        (some (head.length + (text.length + 3) + n)) := by
  have hkey : (13 : UInt8) ∉ jsonKey field := by simp [quoted, lit, hfield]
  have hne : jsonKey field ≠ [] := by simp [quoted, lit]
  have hnone : find head (jsonKey field) = none :=
    find_eq_none_of_not_mem (c := 34) (by simp [quoted, lit]) hhead
  have hnewline : find (10 :: text) (jsonKey field) = (find text (jsonKey field)).map (· + 1) := by
    have hnot : ¬ jsonKey field <+: 10 :: text := fun h =>
      absurd (List.cons_prefix_cons.mp (show 34 :: (field ++ lit "\"" ++ lit ":\"") <+: _ from h)).1
        (by decide)
    rw [find, if_neg (by simpa using hnot)]
  rw [find_append_cons_of_not_mem hkey hne, find_append_cons_of_not_mem hkey hne, hnone, hnewline,
    hfind]
  cases find text (jsonKey field) with
  | none =>
    simp
    omega
  | some pos =>
    simp
    omega

/-- A field of a body is read to its value exactly when the header lines do not give another value
to its key. -/
theorem extractJsonString_eq_ok_iff {head text body a b field value : Bytes}
    (hhead : 34 ∉ head) (hfield : 13 ∉ field)
    (hbody : body = a ++ (jsonKey field ++ (value ++ 34 :: b)))
    (hfind : find body (jsonKey field) = some a.length) (hquote : 34 ∉ value) (hline : 13 ∉ value) :
    extractJsonString (head ++ 13 :: ((10 :: text) ++ 13 :: body)) field = .ok value ↔
      Unshadowed text field value := by
  have hrequest := @find_jsonKey_request head text body field _ hhead hfield hfind
  rw [Unshadowed]
  cases hfound : find text (jsonKey field) with
  | none =>
    rw [hfound] at hrequest
    have hsplit : head ++ 13 :: ((10 :: text) ++ 13 :: body)
        = (head ++ 13 :: ((10 :: text) ++ 13 :: a)) ++ (jsonKey field ++ (value ++ 34 :: b)) := by
      rw [hbody]
      simp only [List.append_assoc, List.cons_append]
    have hfirst : find (head ++ 13 :: ((10 :: text) ++ 13 :: body)) (jsonKey field) =
        some (head ++ 13 :: ((10 :: text) ++ 13 :: a)).length := by
      rw [hrequest]
      simp
      omega
    rw [extractJsonString_eq hsplit hfirst (List.mem_append_right _ List.mem_cons_self),
      takeWhile_append_cons hquote]
    refine iff_of_true rfl fun pos h => ?_
    cases h
  | some pos =>
    rw [hfound] at hrequest
    have hle := (prefix_of_find hfound).2
    have htext := eq_append_of_find hfound
    have hunshadowed : (∀ pos', some pos = some pos' →
        value ++ lit "\"" <+: text.drop (pos' + (jsonKey field).length)) ↔
          value ++ lit "\"" <+: text.drop (pos + (jsonKey field).length) := by
      simp
    rw [hunshadowed]
    generalize text.drop (pos + (jsonKey field).length) = s at htext
    -- the header lines are split at their key
    have hsplit : head ++ 13 :: ((10 :: text) ++ 13 :: body)
        = (head ++ 13 :: 10 :: text.take pos) ++ (jsonKey field ++ (s ++ 13 :: body)) := by
      conv_lhs => rw [htext]
      simp only [List.append_assoc, List.cons_append]
    have hfirst : find (head ++ 13 :: ((10 :: text) ++ 13 :: body)) (jsonKey field) =
        some (head ++ 13 :: 10 :: text.take pos).length := by
      rw [hrequest]
      simp [hle]
      omega
    have hmem : 34 ∈ s ++ 13 :: body := by simp [hbody]
    rw [extractJsonString_eq hsplit hfirst hmem, Except.ok.injEq]
    exact takeWhile_append_cons_eq_iff hquote hline (by decide) body

section Insertion

variable (route : LongRoute) (identifier pwk : HexId) (block : HeaderBlock)

/-- The request up to the header lines. -/
def LongRoute.head (route : LongRoute) : Bytes := lit "POST " ++ route.path ++ lit " HTTP/1.1"

theorem longPost_eq : longPost route identifier pwk block =
    route.head ++ 13 :: ((10 :: block.text) ++ 13 :: (10 :: insertBody identifier pwk)) := by
  cases route with
  | _ => simp [longPost, LongRoute.head, HeaderBlock.tail, lit]

theorem isShortInsert_longPost : isShortInsert (longPost route identifier pwk block) = false := by
  have hsplit : longPost route identifier pwk block =
      lit "POST" ++ 32 :: (route.path ++ (block.tail.1 ++ insertBody identifier pwk)) := by
    simp [longPost, lit]
  have hline : requestLine (longPost route identifier pwk block) = (lit "POST", route.path) := by
    rw [hsplit]
    refine requestLine_append (by decide) (by simp [lit, isSpace]) ?_ ?_ ?_
    · cases route <;> decide
    · cases route <;> simp [LongRoute.path, lit, isSpace]
    · simp [HeaderBlock.tail_eq, isSpace]
  rw [isShortInsert, hline]
  cases route <;> decide

/-- The long routes are found in their request line. -/
theorem takesInsertRoute_longPost : TakesInsertRoute (longPost route identifier pwk block) := by
  refine ⟨by simp [HttpHandler.isHttpRequest, longPost, startsWith, lit], ?_⟩
  have hinfix : lit "POST " ++ route.path <:+: longPost route identifier pwk block :=
    List.IsPrefix.isInfix ⟨block.tail.1 ++ insertBody identifier pwk, by simp [longPost]⟩
  have hcontains := contains_iff.mpr hinfix
  cases route with
  | insert => exact Bool.or_eq_true_iff.mpr (.inl (Bool.or_eq_true_iff.mpr (.inl hcontains)))
  | create => exact Bool.or_eq_true_iff.mpr (.inl (Bool.or_eq_true_iff.mpr (.inr hcontains)))

/-- The identifier of the body is the one that is read when no header line comes before it. -/
theorem extract_identifier_longPost_iff :
    extractJsonString (longPost route identifier pwk block) (lit "identifier") = .ok identifier.1 ↔
      Unshadowed block.text (lit "identifier") identifier.1 := by
  rw [longPost_eq]
  refine extractJsonString_eq_ok_iff (a := [10, 123])
    (b := lit ",\"pwk\":\"" ++ pwk.1 ++ lit "\"\x7d") ?_ (by decide) ?_ rfl
    (identifier.not_mem rfl) (identifier.not_mem rfl)
  · cases route <;> decide
  · simp [insertBody, quoted, lit]

theorem extract_pwk_longPost_iff :
    extractJsonString (longPost route identifier pwk block) (lit "pwk") = .ok pwk.1 ↔
      Unshadowed block.text (lit "pwk") pwk.1 := by
  have hbody : 10 :: insertBody identifier pwk
      = (10 :: (lit "\x7b\"identifier\":\"" ++ identifier.1 ++ lit "\"")) ++
        44 :: (jsonKey (lit "pwk") ++ (pwk.1 ++ 34 :: [125])) := by
    simp [insertBody, quoted, lit]
  have hfind : find (10 :: insertBody identifier pwk) (jsonKey (lit "pwk")) =
      some (10 :: (lit "\x7b\"identifier\":\"" ++ identifier.1 ++ lit "\",")).length := by
    -- there is no `w` in the field in front
    have hnone : find (10 :: (lit "\x7b\"identifier\":\"" ++ identifier.1 ++ lit "\""))
        (jsonKey (lit "pwk")) = none := by
      refine find_eq_none_of_not_mem (c := 119) (by decide) ?_
      have hid := identifier.not_mem (c := 119) rfl
      simp [lit, hid]
    have hfirst : find (jsonKey (lit "pwk") ++ (pwk.1 ++ 34 :: [125])) (jsonKey (lit "pwk"))
        = some 0 := rfl
    rw [hbody, find_append_cons_of_not_mem (by decide) (by decide), hnone, hfirst]
    simp [lit]
  rw [longPost_eq]
  refine extractJsonString_eq_ok_iff (b := [125]) ?_ (by decide) ?_ hfind (pwk.not_mem rfl)
    (pwk.not_mem rfl)
  · cases route <;> decide
  · rw [hbody]
    simp [lit]

/-- The two fields are read from the body exactly when no header line gives one of their keys
another value. -/
theorem insertFields_longPost_iff :
    insertFields (longPost route identifier pwk block) = .ok (identifier.1, pwk.1) ↔
      Unshadowed block.text (lit "identifier") identifier.1 ∧
        Unshadowed block.text (lit "pwk") pwk.1 := by
  -- both fields are extracted without an exception, so the pair is right when both are
  rw [← extract_identifier_longPost_iff route identifier pwk block,
    ← extract_pwk_longPost_iff route identifier pwk block, insertFields,
    if_neg (by simp [isShortInsert_longPost])]
  obtain ⟨identifier', hid⟩ :=
    extractJsonString_isOk (longPost route identifier pwk block) (lit "identifier")
  obtain ⟨pwk', hpwk⟩ := extractJsonString_isOk (longPost route identifier pwk block) (lit "pwk")
  rw [hid, hpwk]
  change Except.ok (identifier', pwk') = _ ↔ _
  simp only [Except.ok.injEq, Prod.mk.injEq]

end Insertion

/-! ## Lookups in a frame -/

section Batch

variable (identifier : HexId) (batch_id : Bytes)

theorem batchRequest_eq :
    batchRequest batch_id identifier = batchMessage batch_id [identifier.1] := by
  simp [batchRequest, batchMessage, quotedList, quoted, lit]

/-- The handler reads the batch number and the one identifier. -/
theorem batchRequest_fields (hquote : 34 ∉ batch_id) :
    BatchMessage (batchRequest batch_id identifier) [identifier.1] batch_id := by
  rw [batchRequest_eq]
  refine batchMessage_fields hquote fun id hid => ?_
  rw [List.mem_singleton.mp hid]
  exact ⟨identifier.not_mem rfl, identifier.not_mem rfl, identifier.not_mem rfl⟩

/-- The batch of one identifier counts one query, asks the index and sends what it says. -/
theorem answerPayload_batchRequest (hquote : 34 ∉ batch_id) :
    answerPayload (batchRequest batch_id identifier) =
      .op .countQuery fun _ => .op (.query identifier.1) fun res =>
        .op (.sendData (encodeFrame (batchResponse batch_id
          (quoted identifier.1 ++ lit ":" ++ quoted (resultText res))))) fun _ => .ret () := by
  have hresults : batchResults [identifier.1] =
      .op .countQuery fun _ => .op (.query identifier.1) fun res =>
        .ret (quoted identifier.1 ++ lit ":" ++ quoted (resultText res) ++ [] ++ []) := by
    rw [batchResults, if_pos identifier.2.1]
    rfl
  simp only [List.append_nil] at hresults
  have hfields := batchRequest_fields identifier batch_id hquote
  rw [answerPayload, hfields.action, hfields.identifiers, hfields.batch_id]
  simp only [Handler.ofExcept, Prog.ret_bind, if_true, hresults, Prog.op_bind, Handler.sendData,
    Prog.call_bind, Prog.pure_eq]

/-- A frame that asks about one identifier is answered with what the index says. -/
theorem handle_batch {env : HandlerEnv} (hlock : env.lockdown = .NONE)
    (hws : env.is_ws_client = true) (service : Service) {f : Frame}
    (h : BatchFrame batch_id identifier f) :
    handle env service f.wire = .ok (service.counted,
      batchReply batch_id identifier (service.query_engine.answer identifier.1)) := by
  have hdecode : decodeFrames f.wire = .ok [batchRequest batch_id identifier] := by
    have hdelivered : f.delivered = [f.payload] := if_pos (.inl h.text)
    have hstream : decodeFrames ([f].flatMap Frame.wire ++ [])
        = .ok ([f].flatMap Frame.delivered) :=
      decodeFrames_wire incomplete_nil (by simpa using h.length_le)
    simpa [hdelivered, h.payload] using hstream
  -- the frame holds one message, so there is one loop over one identifier
  rw [handle_eq_branch hlock, if_pos hws, webSocketBranch, hdecode]
  simp only [answerPayloads, answerPayload_batchRequest identifier batch_id h.noQuote]
  simp only [Prog.op_bind, Prog.ret_bind, Prog.pure_eq]
  have hcount : handlerOp env .countQuery ⟨service, []⟩ = .ok ((), ⟨service.counted, []⟩) := rfl
  rw [Prog.run_op_ok _ hcount, Prog.run_op_ok _ (handlerOp_query env identifier.1 _)]
  rfl

end Batch

/-! ## Status codes -/

theorem statusCode_jsonResponse {status : Bytes} (h : 3 ≤ status.length) (body : Bytes) :
    statusCode (replied (jsonResponse status body)) = some (status.take 3) := by
  have hversion : (lit "HTTP/1.1 ").length = 9 := rfl
  simp only [statusCode, replied, jsonResponse, List.append_assoc]
  rw [List.drop_left' hversion, List.take_append_of_le_length h]

/-! ## Lockdowns -/

/-- In a lockdown nothing is reported to a lookup. -/
theorem reports_none_of_lockdown {env : HandlerEnv} (hlock : env.lockdown ≠ .NONE)
    (service : Service) (request : Bytes) {reply : QueryResult → List Effect}
    (hreply : ∀ res, reply res ≠ replied lockdownResponse ∧ reply res ≠ [.closeClient]) :
    Reports reply (handle env service request) none := by
  intro service' res h
  rw [handle_of_lockdown hlock, Except.ok.injEq, Prod.mk.injEq, lockdownEffects] at h
  split_ifs at h
  · exact (hreply res).1 h.2.symm
  · exact (hreply res).2 h.2.symm

theorem existsReply_ne (res : QueryResult) :
    existsReply res ≠ replied lockdownResponse ∧ existsReply res ≠ [.closeClient] := by
  cases res <;> decide +kernel

theorem batchReply_ne (batch_id : Bytes) (identifier : HexId) (res : QueryResult) :
    batchReply batch_id identifier res ≠ replied lockdownResponse ∧
      batchReply batch_id identifier res ≠ [.closeClient] := by
  simp [batchReply, replied]

/-- A text without `u` does not hold the upgrade header, so only the header lines decide. -/
theorem isWebSocketUpgrade_eq {head rest : Bytes} (hhead : 117 ∉ head.map toLower)
    (hrest : 117 ∉ rest.map toLower) (text : Bytes) :
    isWebSocketUpgrade (head ++ 13 :: (text ++ 13 :: rest)) = isWebSocketUpgrade text := by
  have hnot {s : Bytes} (hs : 117 ∉ s) : ¬ lit "upgrade: websocket" <:+: s :=
    find_eq_none_iff.mp (find_eq_none_of_not_mem (c := 117) (by decide) hs)
  rw [Bool.eq_iff_iff, isWebSocketUpgrade, isWebSocketUpgrade, contains_iff, contains_iff]
  simp only [List.map_append, List.map_cons]
  rw [show toLower 13 = 13 from rfl, infix_append_cons_iff (by decide) (by decide),
    infix_append_cons_iff (by decide) (by decide)]
  simp only [hnot hhead, hnot hrest, false_or, or_false]

theorem HexId.not_mem_map_toLower (identifier : HexId) : 117 ∉ identifier.1.map toLower := by
  intro hmem
  obtain ⟨c, hc, heq⟩ := List.mem_map.mp hmem
  have hdigit := List.all_eq_true.mp identifier.2.2 c (by simpa using hc)
  simp only [toLower] at heq
  grind

section Insertion

variable (identifier pwk : HexId) (block : HeaderBlock)

/-- In a lockdown an insertion by any route is refused in the same way. -/
theorem lockdownEffects_longPost (route : LongRoute) :
    lockdownEffects (longPost route identifier pwk block) =
      lockdownEffects (shortPost identifier pwk block.tail) := by
  have hid := identifier.not_mem_map_toLower
  have hpwk := pwk.not_mem_map_toLower
  have hsplit : shortPost identifier pwk block.tail =
      (lit "POST /api/" ++ (identifier.1 ++ pwk.1) ++ lit " HTTP/1.1") ++
        13 :: ((10 :: block.text) ++ 13 :: [10]) := by
    simp [shortPost, HeaderBlock.tail, lit]
  have hlonghead : 117 ∉ route.head.map toLower := by cases route <;> decide
  have hshorthead : 117 ∉
      (lit "POST /api/" ++ (identifier.1 ++ pwk.1) ++ lit " HTTP/1.1").map toLower := by
    simp only [List.map_append, List.mem_append, not_or]
    exact ⟨⟨by decide, hid, hpwk⟩, by decide⟩
  have hbody : 117 ∉ (10 :: insertBody identifier pwk).map toLower := by
    simp only [insertBody, List.map_cons, List.map_append, List.mem_cons, List.mem_append, not_or]
    exact ⟨by decide, ⟨⟨⟨by decide, hid⟩, by decide⟩, hpwk⟩, by decide⟩
  -- both requests hold the same header lines, and no `u` around them
  have hupgrade : isWebSocketUpgrade (longPost route identifier pwk block) =
      isWebSocketUpgrade (shortPost identifier pwk block.tail) := by
    rw [longPost_eq, hsplit, isWebSocketUpgrade_eq hlonghead hbody,
      isWebSocketUpgrade_eq hshorthead (by decide)]
  have hlong := (takesInsertRoute_longPost route identifier pwk block).1
  have hshort := (insertRequest_shortPost identifier pwk block.tail).route.1
  rw [lockdownEffects, lockdownEffects, hupgrade, hlong, hshort]

/-! ## Agreement of the routes -/

/-- What a request of the short form comes to, when the long routes read the same fields. -/
theorem posted_eq_of_unshadowed {block : HeaderBlock}
    (hid : Unshadowed block.text (lit "identifier") identifier.1)
    (hpwk : Unshadowed block.text (lit "pwk") pwk.1) (env : HandlerEnv) (service : Service)
    (route : LongRoute) :
    posted (handle env.plain service (longPost route identifier pwk block)) =
      posted (handle env.plain service (shortPost identifier pwk block.tail)) := by
  by_cases hlock : env.plain.lockdown = .NONE
  · have hfields := (insertFields_longPost_iff route identifier pwk block).mpr ⟨hid, hpwk⟩
    have hlong : InsertRequest (longPost route identifier pwk block) identifier.1 pwk.1 :=
      ⟨takesInsertRoute_longPost route identifier pwk block, hfields, identifier.2.1, pwk.2.1⟩
    rw [handle_insert hlock rfl service hlong,
      handle_insert hlock rfl service
        (insertRequest_shortPost identifier pwk block.tail)]
  · rw [handle_of_lockdown hlock, handle_of_lockdown hlock,
      lockdownEffects_longPost]

/-- An insertion that is answered `200` stores the entity of the identifier and the pwk. -/
theorem stored_of_status (env : HandlerEnv) (service : Service) :
    ∃ status stored, posted (handle env.plain service (shortPost identifier pwk block.tail))
        = .ok (status, stored) ∧
      (status = some (lit "200") →
        stored = (service.written identifier.1 pwk.1 env.storage).stored) := by
  by_cases hlock : env.plain.lockdown = .NONE
  · rw [handle_insert hlock rfl service
      (insertRequest_shortPost identifier pwk block.tail)]
    refine ⟨_, _, rfl, ?_⟩
    rw [insertOutcome]
    split_ifs
    · rw [insufficientStorage, statusCode_jsonResponse (by decide)]
      exact fun h => absurd h (by decide)
    · rw [duplicateIdentifier, statusCode_jsonResponse (by decide)]
      exact fun h => absurd h (by decide)
    · exact fun _ => rfl
  · rw [handle_of_lockdown hlock]
    refine ⟨_, _, rfl, fun h => ?_⟩
    have hstatus : statusCode (lockdownEffects (shortPost identifier pwk block.tail))
        ≠ some (lit "200") := by
      rw [lockdownEffects]
      split_ifs
      · decide
      · decide
    exact absurd h hstatus

end Insertion

/-- On an empty service the stored data tell which fields an insertion was made with. -/
theorem fields_of_stored_eq {identifier pwk : HexId} {identifier' pwk' : Bytes}
    (hlength : pwk'.length = 64)
    (h : (emptyService.written identifier' pwk' (quietEnv (dbFileSystem [])).storage).stored =
      (emptyService.written identifier.1 pwk.1 (quietEnv (dbFileSystem [])).storage).stored) :
    identifier' = identifier.1 ∧ pwk' = pwk.1 := by
  -- the one member of each index
  have hid : identifier' = identifier.1 := by
    have hmembers : insert identifier' (∅ : Finset Bytes) = insert identifier.1 ∅ :=
      congrArg (·.1.members) h
    simpa using hmembers
  refine ⟨hid, ?_⟩
  subst hid
  have hrow (p : Bytes) : (emptyService.written identifier.1 p
      (quietEnv (dbFileSystem [])).storage).data_storage.rows.Perm
        [(entityOf identifier.1 p).toRow] := by
    have hne : (entityOf identifier.1 p).identifyer ≠ [] :=
      List.ne_nil_of_length_pos (lt_of_lt_of_eq (by decide) identifier.2.1.symm)
    have hdbs : emptyService.data_storage.m_data_dbs ≠ [] := by decide
    exact DataStorage.insertEntity_true
      ((DataStorage.insertEntity_snd_iff hne).mpr ⟨hdbs, rfl, rfl, rfl⟩)
  -- the one row of each table holds the pwk up to a NUL, of which there is none in the digits
  have hcut : cStr pwk' = pwk.1 := by
    have hrows : [(entityOf identifier.1 pwk').toRow].Perm [(entityOf identifier.1 pwk.1).toRow] :=
      (hrow pwk').symm.trans ((congrArg (·.2.rows) h).symm ▸ hrow pwk.1)
    have hcell := congrArg Row.pwk (List.singleton_perm_singleton.mp hrows)
    have htext : cStr pwk' = cStr pwk.1 := congrArg Subtype.val (Option.some.inj hcell)
    rw [htext, cStr_eq_self (pwk.not_mem rfl)]
  have hprefix : cStr pwk' <+: pwk' := List.takeWhile_prefix _
  rw [← hcut, hprefix.eq_of_length (by rw [hcut, hlength, pwk.2.1])]

/-- Routes that insert the same read the fields from the body. -/
theorem unshadowed_of_posted {identifier pwk : HexId} {block : HeaderBlock}
    (h : posted (handle (quietEnv (dbFileSystem [])) emptyService
        (longPost .insert identifier pwk block)) =
      posted (handle (quietEnv (dbFileSystem [])) emptyService
        (shortPost identifier pwk block.tail))) :
    Unshadowed block.text (lit "identifier") identifier.1 ∧
      Unshadowed block.text (lit "pwk") pwk.1 := by
  obtain ⟨⟨identifier', pwk'⟩, hfields⟩ :=
    insertFields_isOk (longPost .insert identifier pwk block)
  have houtcome (i p : Bytes) : insertOutcome (quietEnv (dbFileSystem [])) emptyService i p =
      (emptyService.inserting i p (quietEnv (dbFileSystem [])).storage, replied insertSuccess) := by
    rw [insertOutcome, if_neg (by decide), if_neg (by simp [emptyService])]
  rw [handle_of_route rfl rfl _ (takesInsertRoute_longPost .insert identifier pwk block) hfields,
    handle_insert rfl rfl _ (insertRequest_shortPost identifier pwk block.tail),
    houtcome identifier.1 pwk.1] at h
  simp only [posted, Except.map, Except.ok.injEq, Prod.mk.injEq] at h
  obtain ⟨hstatus, hstored⟩ := h
  by_cases hlen : identifier'.length = 64 ∧ pwk'.length = 64
  · rw [if_pos hlen, houtcome] at hstored
    obtain ⟨rfl, rfl⟩ := fields_of_stored_eq hlen.2 hstored
    exact (insertFields_longPost_iff .insert identifier pwk block).mp hfields
  · -- fields of another length are refused
    rw [if_neg hlen, invalidFields, insertSuccess, statusCode_jsonResponse (by decide),
      statusCode_jsonResponse (by decide)] at hstatus
    exact absurd hstatus (by decide)

/-- With a `&` in the header lines the route with a query string refuses what the short form
answers. -/
theorem RoutesAgree.not_mem_text {identifier pwk : HexId} {block : HeaderBlock}
    (h : RoutesAgree identifier pwk block) : 38 ∉ block.text := by
  intro hamp
  obtain ⟨report, hsome, -, hlong, -⟩ := h.lookups (quietEnv (dbFileSystem [])) emptyService
  obtain ⟨res, rfl⟩ := Option.isSome_iff_exists.mp (hsome rfl)
  obtain ⟨service', hlong⟩ := hlong
  rw [handle_longGet _ _ rfl rfl, if_pos hamp, Except.ok.injEq, Prod.mk.injEq] at hlong
  have hne : replied invalidIdentifier ≠ existsReply res := by
    cases res <;> decide +kernel
  exact hne hlong.2

/-- The routes agree exactly for the header lines without `&` in which the key of neither field is
found with another value. -/
theorem routesAgree_iff (identifier pwk : HexId) (block : HeaderBlock) :
    RoutesAgree identifier pwk block ↔
      38 ∉ block.text ∧ Unshadowed block.text (lit "identifier") identifier.1 ∧
        Unshadowed block.text (lit "pwk") pwk.1 := by
  constructor
  · intro h
    obtain ⟨status, stored, hshort, hlong, -⟩ :=
      h.insertions (quietEnv (dbFileSystem [])) emptyService
    exact ⟨h.not_mem_text, unshadowed_of_posted ((hlong .insert).trans hshort.symm)⟩
  · -- the other direction, route by route, with a lockdown and without one
    rintro ⟨hamp, hid, hpwk⟩
    refine ⟨fun env service => ?_, fun env service => ?_⟩
    · by_cases hlock : env.lockdown = .NONE
      · have hplain : env.plain.lockdown = .NONE := hlock
        have hupgraded : env.upgraded.lockdown = .NONE := hlock
        refine ⟨some (service.query_engine.answer identifier.1), fun _ => rfl,
          ⟨_, handle_shortGet hplain rfl service identifier block.tail⟩, ⟨service.counted, ?_⟩,
          fun batch_id f hf => ⟨_, handle_batch identifier batch_id hupgraded rfl service hf⟩⟩
        rw [handle_longGet identifier block hplain rfl, if_neg hamp]
      · have hplain : env.plain.lockdown ≠ .NONE := hlock
        have hupgraded : env.upgraded.lockdown ≠ .NONE := hlock
        refine ⟨none, fun hnone => absurd hnone hlock,
          reports_none_of_lockdown hplain service _ existsReply_ne,
          reports_none_of_lockdown hplain service _ existsReply_ne, fun batch_id f _ => ?_⟩
        exact reports_none_of_lockdown hupgraded service _ (batchReply_ne batch_id identifier)
    · obtain ⟨status, stored, hshort, hstored⟩ := stored_of_status identifier pwk block env service
      refine ⟨status, stored, hshort, fun route => ?_, hstored⟩
      rw [posted_eq_of_unshadowed identifier pwk hid hpwk, hshort]

/-- A header line with a `&`. -/
def cookieBlock : HeaderBlock := ⟨lit "Cookie: a=1&b=2\r\n", by decide, by decide⟩

/-- A `&` in a cookie makes the routes to a lookup disagree. -/
theorem not_routesAgree_cookie : ¬ RoutesAgree digitsA digitsB cookieBlock :=
  fun h => absurd h.not_mem_text (by decide)

end Main
