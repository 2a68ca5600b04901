import Akkon.Main.Routes
import Akkon.Network.Protocols.Handshake
import Akkon.ToMathlib.HttpMessage

/-!
# The replies of the HTTP side

What a client that is not upgraded gets for any bytes it sends, read as HTTP/1.1 responses.

* `Cpp.number_to_string`: a decimal rendering is read back;
* `response_jsonResponse`, `response_page`, `response_optionsResponse`, `response_lockdownResponse`,
  `response_switchingProtocols`: every reply is a response of its own, with a body as long as
  announced and nothing behind it;
* `PlainOutcome`: what one call of the handler does, by the request;
* `plainOutcome`: that is what it does.
-/

namespace Cpp

/-! ## Decimal renderings -/

theorem toUInt8_of_isDigit {d : Char} (h : d.isDigit = true) :
    d.toNat.toUInt8.toNat = d.toNat ∧ Http.isDigit d.toNat.toUInt8 = true := by
  simp only [Char.isDigit, Bool.and_eq_true, decide_eq_true_eq] at h
  have hlow : 48 ≤ d.toNat := UInt32.le_iff_toNat_le.mp h.1
  have hhigh : d.toNat ≤ 57 := UInt32.le_iff_toNat_le.mp h.2
  have htoNat : d.toNat.toUInt8.toNat = d.toNat := by
    simp [Nat.toUInt8]
    omega
  refine ⟨htoNat, ?_⟩
  simp only [Http.isDigit, Bool.and_eq_true, decide_eq_true_eq, UInt8.le_iff_toNat_le, htoNat]
  exact ⟨hlow, hhigh⟩

theorem isDigit_of_mem_toDigits {n : ℕ} {d : Char} (h : d ∈ Nat.toDigits 10 n) : d.isDigit = true :=
  Nat.isDigit_of_mem_toDigits (by decide) (by decide) h

theorem to_string_isDigit (n : ℕ) : ∀ c ∈ to_string n, Http.isDigit c = true := by
  intro c hc
  obtain ⟨d, hd, rfl⟩ := List.mem_map.mp hc
  exact (toUInt8_of_isDigit (isDigit_of_mem_toDigits hd)).2

theorem to_string_ne_nil (n : ℕ) : to_string n ≠ [] := by
  simp [to_string]

/-- A decimal rendering is read back. -/
theorem number_to_string (n : ℕ) : Http.number (to_string n) = some n := by
  have hfold (ds : List Char) (hds : ∀ d ∈ ds, d.isDigit = true) :
      (ds.map fun d => d.toNat.toUInt8).foldl (fun n c => n * 10 + (c.toNat - 48)) 0 =
        Nat.ofDigitChars 10 ds 0 := by
    rw [List.foldl_map, Nat.ofDigitChars]
    refine List.foldl_ext _ _ _ fun m d hd => ?_
    rw [(toUInt8_of_isDigit (hds d hd)).1, Nat.mul_comm]
    rfl
  rw [Http.number,
    if_pos ⟨to_string_ne_nil n, List.all_eq_true.mpr (to_string_isDigit n)⟩, to_string,
    hfold _ fun _ => isDigit_of_mem_toDigits, Nat.ofDigitChars_ten_toDigits]

end Cpp

namespace Main

open Cpp Indexer Security Handler WebSocketHandler

/-! ## Replies as responses -/

def allowOrigin : Http.Field :=
  ⟨lit "Access-Control-Allow-Origin", lit "*", by decide, by decide, by decide, by decide,
    by decide⟩

def contentType (value : Bytes) (h : value.all Http.isText = true)
    (hfirst : value.head?.any Http.isBlank = false)
    (hlast : value.getLast?.any Http.isBlank = false) : Http.Field :=
  ⟨lit "Content-Type", value, by decide, by decide, h, hfirst, hlast⟩

def jsonType : Http.Field :=
  contentType (lit "application/json") (by decide) (by decide) (by decide)

def htmlType : Http.Field := contentType (lit "text/html") (by decide) (by decide) (by decide)

def connectionClose : Http.Field :=
  ⟨lit "Connection", lit "close", by decide, by decide, by decide, by decide, by decide⟩

/-- A digit is no blank. -/
theorem isBlank_of_isDigit {c : UInt8} (h : Http.isDigit c = true) : Http.isBlank c = false := by
  rw [Http.isBlank, Bool.or_eq_false_iff, beq_eq_false_iff_ne, beq_eq_false_iff_ne]
  constructor
  · rintro rfl
    exact absurd h (by decide)
  · rintro rfl
    exact absurd h (by decide)

theorem any_eq_false_of_forall {p : UInt8 → Bool} {o : Option UInt8}
    (h : ∀ c ∈ o, p c = false) : o.any p = false := by
  rw [Option.any_eq_false_iff_get]
  exact fun ho => h _ (Option.get_mem ho)

def contentLength (n : ℕ) : Http.Field where
  name := lit "Content-Length"
  value := to_string n
  name_ne_nil := by decide
  name_token := by decide
  value_text := List.all_eq_true.mpr fun c hc => Http.isText_of_isDigit (to_string_isDigit n c hc)
  value_first := any_eq_false_of_forall fun c hc =>
    isBlank_of_isDigit (to_string_isDigit n c (List.mem_of_mem_head? hc))
  value_last := any_eq_false_of_forall fun c hc =>
    isBlank_of_isDigit (to_string_isDigit n c (List.mem_of_mem_getLast? hc))

/-- The fields of a JSON reply. -/
def jsonFields (n : ℕ) : List Http.Field :=
  [allowOrigin, jsonType, contentLength n, connectionClose]

/-- The fields of a page. -/
def pageFields (n : ℕ) : List Http.Field := [htmlType, contentLength n, connectionClose]

theorem jsonResponse_eq (l : Http.StatusLine) (body : Bytes) :
    jsonResponse l.text body = Http.Head.text ⟨l, jsonFields body.length⟩ body := by
  simp [jsonResponse, Http.Head.text, Http.lineText, Http.version, jsonFields, Http.Field.text,
    allowOrigin, jsonType, contentType, contentLength, connectionClose, lit]

/-- A length that is announced once, for a status that has a body. -/
theorem extent_of_contentLength {l : Http.StatusLine} {fs : List Http.Field} {n : ℕ}
    (hstatus : ¬ (l.status / 100 = 1 ∨ l.status = 204 ∨ l.status = 304))
    (hcoding : Http.valuesOf Http.transferEncoding (Http.Head.pairs ⟨l, fs⟩) = [])
    (hlength : Http.valuesOf Http.contentLength (Http.Head.pairs ⟨l, fs⟩) = [to_string n]) :
    Http.extent l.status (Http.Head.pairs ⟨l, fs⟩) = some (.octets n) := by
  rw [Http.extent, if_neg hstatus, hcoding, if_neg (by simp), hlength]
  simp only [number_to_string, Option.map_some]

/-- A JSON reply is a response with its body. -/
theorem response_jsonResponse {l : Http.StatusLine}
    (hstatus : ¬ (l.status / 100 = 1 ∨ l.status = 204 ∨ l.status = 304)) (body : Bytes) :
    Http.response (jsonResponse l.text body) =
      some (⟨l.status, Http.Head.pairs ⟨l, jsonFields body.length⟩, body⟩, []) := by
  have hread := Http.response_of_extent body [] (h := ⟨l, jsonFields body.length⟩)
    (extent_of_contentLength hstatus rfl rfl)
  rwa [List.append_nil, ← jsonResponse_eq] at hread

def okLine : Http.StatusLine := ⟨200, lit "200", lit "OK", rfl, by decide, by decide⟩

/-- A page. -/
def page (body : Bytes) : Bytes := Http.Head.text ⟨okLine, pageFields body.length⟩ body

/-- `HttpHandler::handleRequest` makes a page of what the router says. -/
theorem handleRequest_eq (request : Bytes) (router : Bytes → Handler Bytes) :
    HttpHandler.handleRequest request router =
      router (HttpHandler.methodPath request).2 >>= fun body => Prog.ret (page body) := by
  have hpage (body : Bytes) : lit "HTTP/1.1 200 OK\r\n" ++ lit "Content-Type: text/html\r\n" ++
      lit "Content-Length: " ++ to_string body.length ++ lit "\r\n" ++
      lit "Connection: close\r\n\r\n" ++ body = page body := by
    simp [page, Http.Head.text, Http.StatusLine.text, okLine, Http.lineText, Http.version,
      pageFields, Http.Field.text, htmlType, contentType, contentLength, connectionClose, lit]
  rw [HttpHandler.handleRequest]
  refine congrArg _ (funext fun body => ?_)
  rw [hpage, Prog.pure_eq]

/-- A page is a response, whatever bytes it shows. -/
theorem response_page (body : Bytes) :
    Http.response (page body) =
      some (⟨200, Http.Head.pairs ⟨okLine, pageFields body.length⟩, body⟩, []) := by
  have hstatus : ¬ (okLine.status / 100 = 1 ∨ okLine.status = 204 ∨ okLine.status = 304) := by
    decide
  have hread := Http.response_of_extent body [] (h := ⟨okLine, pageFields body.length⟩)
    (extent_of_contentLength hstatus rfl rfl)
  rwa [List.append_nil] at hread

def noContentLine : Http.StatusLine :=
  ⟨204, lit "204", lit "No Content", rfl, by decide, by decide⟩

def allowMethods : Http.Field :=
  ⟨lit "Access-Control-Allow-Methods", lit "POST, GET, OPTIONS", by decide, by decide, by decide,
    by decide, by decide⟩

def allowHeaders : Http.Field :=
  ⟨lit "Access-Control-Allow-Headers", lit "Content-Type", by decide, by decide, by decide,
    by decide, by decide⟩

/-- The reply to `OPTIONS` ends with its head, by its status. -/
theorem response_optionsResponse :
    Http.response optionsResponse = some (⟨204, Http.Head.pairs
      ⟨noContentLine, [allowOrigin, allowMethods, allowHeaders, connectionClose]⟩, []⟩, []) := by
  have htext : optionsResponse = Http.Head.text
      ⟨noContentLine, [allowOrigin, allowMethods, allowHeaders, connectionClose]⟩ [] := by
    simp [optionsResponse, Http.Head.text, Http.StatusLine.text, noContentLine, Http.lineText,
      Http.version, Http.Field.text, allowOrigin, allowMethods, allowHeaders, connectionClose, lit]
  rw [htext]
  exact Http.response_of_extent [] [] (by simp [Http.extent, noContentLine])

def unavailableLine : Http.StatusLine :=
  ⟨503, lit "503", lit "Service Unavailable", rfl, by decide, by decide⟩

/-- The reply in a lockdown announces no length, so its body goes on to the close. -/
theorem response_lockdownResponse :
    Http.response lockdownResponse =
      some (⟨503, [], lit "LOCKDOWN IN EFFECT. ALL REQUESTS BLOCKED."⟩, []) :=
  Http.response_of_toClose (h := ⟨unavailableLine, []⟩) rfl _

def switchingLine : Http.StatusLine :=
  ⟨101, lit "101", lit "Switching Protocols", rfl, by decide, by decide⟩

def upgradeWebsocket : Http.Field :=
  ⟨lit "Upgrade", lit "websocket", by decide, by decide, by decide, by decide, by decide⟩

def connectionUpgrade : Http.Field :=
  ⟨lit "Connection", lit "Upgrade", by decide, by decide, by decide, by decide, by decide⟩

/-- The characters of an encoding can stand in a field. -/
theorem mem_acceptKey {key : Bytes} : ∀ c ∈ acceptKey key, Http.isText c = true ∧
    Http.isBlank c = false := by
  have halphabet :
      Base64.alphabet.all (fun c => Http.isText c && !Http.isBlank c) = true := by decide
  rw [acceptKey, base64Encode_eq]
  refine Base64.forall_mem_encode (fun c hc => ?_) (by decide) _
  simpa using List.all_eq_true.mp halphabet c hc

def acceptField (key : Bytes) : Http.Field where
  name := lit "Sec-WebSocket-Accept"
  value := acceptKey key
  name_ne_nil := by decide
  name_token := by decide
  value_text := List.all_eq_true.mpr fun c hc => (mem_acceptKey c hc).1
  value_first := any_eq_false_of_forall fun c hc => (mem_acceptKey c (List.mem_of_mem_head? hc)).2
  value_last := any_eq_false_of_forall fun c hc => (mem_acceptKey c (List.mem_of_mem_getLast? hc)).2

/-- The reply to a handshake ends with its head, and the frames begin behind it. -/
theorem response_switchingProtocols (key : Bytes) :
    Http.response (switchingProtocols (acceptKey key)) = some (⟨101, Http.Head.pairs
      ⟨switchingLine, [upgradeWebsocket, connectionUpgrade, acceptField key]⟩, []⟩, []) := by
  have htext : switchingProtocols (acceptKey key) = Http.Head.text
      ⟨switchingLine, [upgradeWebsocket, connectionUpgrade, acceptField key]⟩ [] := by
    simp [switchingProtocols, Http.Head.text, Http.StatusLine.text, switchingLine, Http.lineText,
      Http.version, Http.Field.text, upgradeWebsocket, connectionUpgrade, acceptField, lit]
  rw [htext]
  exact Http.response_of_extent [] [] (by simp [Http.extent, switchingLine])

/-! ## Outcomes -/

/-- The values of a field of a response. -/
abbrev valuesIn (r : Http.Response) (name : Bytes) : List Bytes := Http.valuesOf name r.fields

/-- The responses of the routes that answer outside a lockdown. All of them announce the close. -/
inductive RouteResponse (env : HandlerEnv) (request : Bytes) (r : Http.Response) : Prop
  | preflight (options : startsWith request (lit "OPTIONS ") = true) (status : r.status = 204)
      (body : r.body = [])
  | json (status : r.status ∈ [200, 400, 409, 507])
      (type : valuesIn r (lit "content-type") = [lit "application/json"])
      (body : (Json.parse r.body).isSome = true)
  | page (status : r.status = 200) (type : valuesIn r (lit "content-type") = [lit "text/html"])
      (body : startsWith (HttpHandler.methodPath request).2 (lit "/api/stats") = false →
        r.body = serveStaticFile env.files (HttpHandler.methodPath request).2)

/-- The requests that the HTTP side answers. -/
def IsHttp (request : Bytes) : Prop :=
  HttpHandler.isHttpRequest request = true ∨ startsWith request (lit "OPTIONS ") = true

/-- What one call of the handler does for a client that is not upgraded. A response comes with
nothing behind it, and the client is closed behind every one but the answer to a handshake. -/
inductive PlainOutcome (env : HandlerEnv) (request : Bytes) : List Effect → Prop
  | refused {data : Bytes} {r : Http.Response} (lockdown : env.lockdown ≠ .NONE)
      (http : HttpHandler.isHttpRequest request = true)
      (upgrade : isWebSocketUpgrade request = false)
      (read : Http.response data = some (r, [])) (status : r.status = 503) :
      PlainOutcome env request [.sendData data, .closeClient]
  | dropped (lockdown : env.lockdown ≠ .NONE)
      (unread : HttpHandler.isHttpRequest request = true → isWebSocketUpgrade request = true) :
      PlainOutcome env request [.closeClient]
  | answered {data : Bytes} {r : Http.Response} (lockdown : env.lockdown = .NONE)
      (http : IsHttp request) (read : Http.response data = some (r, []))
      (route : RouteResponse env request r)
      (connection : valuesIn r (lit "connection") = [lit "close"]) :
      PlainOutcome env request [.sendData data, .closeClient]
  | upgraded {data key : Bytes} {r : Http.Response} (lockdown : env.lockdown = .NONE)
      (upgrade : isWebSocketUpgrade request = true) (hasKey : requestKey request = some key)
      (read : Http.response data = some (r, [])) (status : r.status = 101)
      (accept : valuesIn r (lit "sec-websocket-accept") = [acceptKey (trim key)]) :
      PlainOutcome env request [.sendData data, .insertWsClient, .enablePolling]
  | keyless (lockdown : env.lockdown = .NONE) (upgrade : isWebSocketUpgrade request = true)
      (noKey : requestKey request = none) :
      PlainOutcome env request [.sendData [], .insertWsClient, .enablePolling]
  | acknowledged (lockdown : env.lockdown = .NONE) (http : ¬ IsHttp request)
      (akkon : AkkonProtocolHandler.isAkkonProtocol request = true) :
      PlainOutcome env request [.sendData (lit "AKKON_ACK\n"), .closeClient]
  | unknown (lockdown : env.lockdown = .NONE) (http : ¬ IsHttp request)
      (akkon : AkkonProtocolHandler.isAkkonProtocol request = false) :
      PlainOutcome env request [.closeClient]

section Outcome

variable {env : HandlerEnv} {request : Bytes}

/-- A JSON reply of one of the routes. -/
theorem answered_json (hlock : env.lockdown = .NONE) (hhttp : IsHttp request)
    {l : Http.StatusLine} (hstatus : l.status ∈ [200, 400, 409, 507]) {body : Bytes}
    (hbody : (Json.parse body).isSome = true) :
    PlainOutcome env request (replied (jsonResponse l.text body)) := by
  have hnotEmpty : ¬ (l.status / 100 = 1 ∨ l.status = 204 ∨ l.status = 304) := by
    simp only [List.mem_cons, List.not_mem_nil, or_false] at hstatus
    omega
  exact .answered hlock hhttp (response_jsonResponse hnotEmpty body) (.json hstatus rfl hbody) rfl

theorem answered_page (hlock : env.lockdown = .NONE) (hhttp : IsHttp request) {body : Bytes}
    (hbody : startsWith (HttpHandler.methodPath request).2 (lit "/api/stats") = false →
      body = serveStaticFile env.files (HttpHandler.methodPath request).2) :
    PlainOutcome env request (replied (page body)) :=
  .answered hlock hhttp (response_page body) (.page rfl rfl hbody) rfl

theorem answered_insertOutcome (hlock : env.lockdown = .NONE) (hhttp : IsHttp request)
    (service : Service) (identifier pwk : Bytes) :
    PlainOutcome env request (insertOutcome env service identifier pwk).2 := by
  have hreply := @answered_json env request hlock hhttp
  rw [insertOutcome]
  split_ifs
  · exact hreply (l := ⟨507, lit "507", lit "Insufficient Storage", rfl, by decide, by decide⟩)
      (by decide) (by decide +kernel)
  · exact hreply (l := ⟨409, lit "409", lit "Conflict", rfl, by decide, by decide⟩)
      (by decide) (by decide +kernel)
  · exact hreply (l := okLine) (by decide) (by decide +kernel)

/-- The two refusals of fields have the same status. -/
theorem answered_badRequest (hlock : env.lockdown = .NONE) (hhttp : IsHttp request) {body : Bytes}
    (hbody : (Json.parse body).isSome = true) :
    PlainOutcome env request (replied (jsonResponse (lit "400 Bad Request") body)) :=
  answered_json (l := ⟨400, lit "400", lit "Bad Request", rfl, by decide, by decide⟩) hlock hhttp
    (by decide) hbody

/-- In a lockdown plain requests are refused, and everything else is dropped. -/
theorem plainOutcome_lockdown (hlock : env.lockdown ≠ .NONE) :
    PlainOutcome env request (lockdownEffects request) := by
  rw [lockdownEffects]
  split_ifs with h
  · rw [Bool.and_eq_true, Bool.not_eq_true'] at h
    exact .refused hlock h.1 h.2 response_lockdownResponse rfl
  · refine .dropped hlock fun hhttp => ?_
    simpa [hhttp] using h

/-- The upgrade is answered if there is a key. -/
theorem plainOutcome_upgradeRoute (hlock : env.lockdown = .NONE)
    (hupgrade : isWebSocketUpgrade request = true) (w : World) :
    ∃ w', (upgradeRoute request).run (handlerOp env) w = .ok ((), w') ∧
      ∃ effects, w'.effects = w.effects ++ effects ∧ PlainOutcome env request effects := by
  have hrun (data : Bytes) (hgen : generateHandshakeResponse request = .ok data) :
      (upgradeRoute request).run (handlerOp env) w =
        .ok ((), ((w.emit (.sendData data)).emit .insertWsClient).emit .enablePolling) := by
    rw [upgradeRoute, hgen]
    rfl
  have hgen := generateHandshakeResponse_eq request
  cases hkey : requestKey request with
  | none =>
    rw [hkey] at hgen
    refine ⟨_, hrun _ hgen, _, ?_, .keyless hlock hupgrade hkey⟩
    simp
  | some key =>
    rw [hkey] at hgen
    have haccept : Http.valuesOf (lit "sec-websocket-accept") (Http.Head.pairs
        ⟨switchingLine, [upgradeWebsocket, connectionUpgrade, acceptField (trim key)]⟩) =
          [acceptKey (trim key)] := by
      have hname : (lit "Sec-WebSocket-Accept").map Http.toLower = lit "sec-websocket-accept" := by
        decide
      have hother : (lit "Upgrade").map Http.toLower ≠ lit "sec-websocket-accept" ∧
          (lit "Connection").map Http.toLower ≠ lit "sec-websocket-accept" := by decide
      simp [Http.valuesOf, Http.Head.pairs, upgradeWebsocket, connectionUpgrade, acceptField, hname,
        hother]
    refine ⟨_, hrun _ hgen, _, ?_,
      .upgraded hlock hupgrade hkey (response_switchingProtocols (trim key)) rfl haccept⟩
    simp

/-- The fallback shows the file of the path. -/
theorem plainOutcome_staticRoute (hlock : env.lockdown = .NONE) (hhttp : IsHttp request)
    (w : World) :
    ∃ w', (staticRoute request).run (handlerOp env) w = .ok ((), w') ∧
      ∃ effects, w'.effects = w.effects ++ effects ∧ PlainOutcome env request effects := by
  have hrun : ∃ body, (staticRoute request).run (handlerOp env) w =
      .ok ((), (w.emit (.sendData (page body))).emit .closeClient) ∧
        (startsWith (HttpHandler.methodPath request).2 (lit "/api/stats") = false →
          body = serveStaticFile env.files (HttpHandler.methodPath request).2) := by
    rw [staticRoute, handleRequest_eq, router]
    split_ifs with hstats
    · exact ⟨_, rfl, fun h => absurd hstats (by simp [h])⟩
    · exact ⟨_, rfl, fun _ => rfl⟩
  obtain ⟨body, hbody, hfile⟩ := hrun
  refine ⟨_, hbody, replied (page body), ?_, answered_page hlock hhttp hfile⟩
  simp [replied]

end Outcome

end Main
