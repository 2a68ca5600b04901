import Akkon.Cpp.String

/-!
# `network::HttpHandler` and `network::AkkonProtocolHandler`

The HTTP side of the server as `HttpHandler.cpp` has it, and the two functions of
`AkkonProtocolHandler.cpp`.
-/

namespace HttpHandler

open Cpp

/-- `isHttpRequest`. -/
def isHttpRequest (request : Bytes) : Bool :=
  startsWith request (lit "GET ") || startsWith request (lit "POST ")

/-- The first two tokens of the request line, as `iss >> method >> path` reads them. -/
def methodPath (request : Bytes) : Bytes × Bytes :=
  let (method, rest) := token request
  (method, (token rest).1)

/-- `handleRequest`: the router's answer for the path, under a fixed `200 OK` header. -/
def handleRequest {m : Type → Type} [Monad m] (request : Bytes) (router : Bytes → m Bytes) :
    m Bytes := do
  let response_body ← router (methodPath request).2
  return lit "HTTP/1.1 200 OK\r\n" ++ lit "Content-Type: text/html\r\n" ++
    lit "Content-Length: " ++ to_string response_body.length ++ lit "\r\n" ++
    lit "Connection: close\r\n\r\n" ++ response_body

end HttpHandler

namespace AkkonProtocolHandler

open Cpp

/-- `isAkkonProtocol`. -/
def isAkkonProtocol (request : Bytes) : Bool := startsWith request (lit "AKKON ")

/-- `handleRequest`. -/
def handleRequest (_request : Bytes) : Bytes := lit "AKKON_ACK\n"

end AkkonProtocolHandler
