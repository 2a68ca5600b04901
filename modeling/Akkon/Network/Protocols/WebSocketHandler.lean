import Mathlib.Data.List.DropRight
import Akkon.Crypto.Padding

/-!
# `network::WebSocketHandler`

The WebSocket code as `WebSocketHandler.cpp` has it: base64, SHA-1, the opening handshake, the frame
encoder and the two frame decoders.

`decodeFrames` is a loop over `size_t` counters. One pass of its body is `decodeStep`, which reads
the buffer only through `readByte`, so an index past the end, an exception of the `std::string`
constructor and a loop that does not end are all visible in its result:

* `DecodeFault`: the ways a pass of the loop can go wrong;
* `DecodeState`: `index`, `bytes_left` and the payloads so far;
* `decodeStep`, `decodeLoop`, `decodeFrames`: one pass, the loop, and the whole call.
-/

namespace WebSocketHandler

open Cpp

/-! ## Base64 and SHA-1 -/

/-- The base64 alphabet. -/
def alphabet : Bytes := lit "ABCDEFGHIJKLMNOPQRSTUVWXYZabcdefghijklmnopqrstuvwxyz0123456789+/"

/-- The inner `while (valb >= 0)` loop. `val` is a 32-bit `int`, shifted right arithmetically. -/
def base64Drain : ℕ → BitVec 32 → ℤ → Bytes → ℤ × Bytes
  | 0, _, valb, out => (valb, out)
  | fuel + 1, val, valb, out =>
    if 0 ≤ valb then
      let c := alphabet.getD ((val.sshiftRight valb.toNat) &&& 0x3F).toNat 0
      base64Drain fuel val (valb - 6) (out ++ [c])
    else (valb, out)

/-- The body of the byte loop. -/
def base64Step (st : BitVec 32 × ℤ × Bytes) (c : UInt8) : BitVec 32 × ℤ × Bytes :=
  let val := (st.1 <<< 8) + BitVec.ofNat 32 c.toNat
  (val, base64Drain 2 val (st.2.1 + 8) st.2.2)

/-- `while (out.size() % 4) out.push_back('=')`. -/
def base64Pad : ℕ → Bytes → Bytes
  | 0, out => out
  | fuel + 1, out => if out.length % 4 ≠ 0 then base64Pad fuel (out ++ lit "=") else out

/-- `base64_encode`. -/
def base64Encode (src : Bytes) : Bytes :=
  let (val, valb, out) := src.foldl base64Step (0, -6, [])
  let out := if -6 < valb then
      out ++ [alphabet.getD (((val <<< 8).sshiftRight (valb + 8).toNat) &&& 0x3F).toNat 0]
    else out
  base64Pad 3 out

/-- The five state words of SHA-1. -/
structure Sha1Words where
  a : UInt32
  b : UInt32
  c : UInt32
  d : UInt32
  e : UInt32
  deriving DecidableEq, Repr

/-- The initial state `h0`, …, `h4`. -/
def sha1Init : Sha1Words := ⟨0x67452301, 0xEFCDAB89, 0x98BADCFE, 0x10325476, 0xC3D2E1F0⟩

/-- The word at byte `4 * i` of a chunk. -/
def sha1Word (chunk : Bytes) (i : ℕ) : UInt32 :=
  let byte (j : ℕ) : UInt32 := (chunk.getD (i * 4 + j) 0).toUInt32
  (byte 0 <<< 24) ||| (byte 1 <<< 16) ||| (byte 2 <<< 8) ||| byte 3

/-- The 80 words of the message schedule. -/
def sha1Schedule (chunk : Bytes) : List UInt32 :=
  (List.range' 16 64).foldl
    (fun w i =>
      let val := w.getD (i - 3) 0 ^^^ w.getD (i - 8) 0 ^^^ w.getD (i - 14) 0 ^^^ w.getD (i - 16) 0
      w ++ [(val <<< 1) ||| (val >>> 31)])
    ((List.range 16).map (sha1Word chunk))

/-- One of the 80 rounds. -/
def sha1Round (w : List UInt32) (h : Sha1Words) (i : ℕ) : Sha1Words :=
  let (f, k) : UInt32 × UInt32 :=
    if i < 20 then ((h.b &&& h.c) ||| (~~~h.b &&& h.d), 0x5A827999)
    else if i < 40 then (h.b ^^^ h.c ^^^ h.d, 0x6ED9EBA1)
    else if i < 60 then ((h.b &&& h.c) ||| (h.b &&& h.d) ||| (h.c &&& h.d), 0x8F1BBCDC)
    else (h.b ^^^ h.c ^^^ h.d, 0xCA62C1D6)
  let temp := ((h.a <<< 5) ||| (h.a >>> 27)) + f + h.e + k + w.getD i 0
  ⟨temp, h.a, (h.b <<< 30) ||| (h.b >>> 2), h.c, h.d⟩

/-- The body of the chunk loop. -/
def sha1Compress (h : Sha1Words) (chunk : Bytes) : Sha1Words :=
  let r := (List.range 80).foldl (sha1Round (sha1Schedule chunk)) h
  ⟨h.a + r.a, h.b + r.b, h.c + r.c, h.d + r.d, h.e + r.e⟩

/-- `sha1`: the 20 bytes of the digest. -/
def sha1 (msg : Bytes) : Bytes :=
  let block := Crypto.padMessage msg
  let h := (List.range (block.length / 64)).foldl
    (fun h i => sha1Compress h (block.drop (i * 64))) sha1Init
  [h.a, h.b, h.c, h.d, h.e].flatMap fun (w : UInt32) =>
    [(w >>> 24).toUInt8, (w >>> 16).toUInt8, (w >>> 8).toUInt8, w.toUInt8]

/-! ## The opening handshake -/

/-- `::tolower` in the "C" locale. -/
def toLower (c : UInt8) : UInt8 := if 65 ≤ c && c ≤ 90 then c + 32 else c

/-- `isWebSocketUpgrade`. -/
def isWebSocketUpgrade (request : Bytes) : Bool :=
  contains (request.map toLower) (lit "upgrade: websocket")

/-- The header name `generateHandshakeResponse` looks for. -/
def keyHeader : Bytes := lit "sec-websocket-key: "

/-- The two trimming loops: white space is dropped at the front, then at the back. -/
def trim (key : Bytes) : Bytes := (key.dropWhile isSpace).rdropWhile isSpace

/-- `Sec-WebSocket-Accept` for a key. -/
def acceptKey (key : Bytes) : Bytes :=
  base64Encode (sha1 (key ++ lit "258EAFA5-E914-47DA-95CA-C5AB0DC85B11"))

/-- `generateHandshakeResponse`: the empty string when the request has no key header. Without a line
end `end_pos` is `npos` and the key runs to the end of the request. -/
def generateHandshakeResponse (request : Bytes) : Except Exn Bytes :=
  match find (request.map toLower) keyHeader with
  | none => .ok []
  | some pos_lower => do
    let pos := pos_lower + keyHeader.length
    let end_pos := (findFrom request (lit "\r\n") pos).getD request.length
    let key ← substr request pos (end_pos - pos)
    return lit "HTTP/1.1 101 Switching Protocols\r\n" ++ lit "Upgrade: websocket\r\n" ++
      lit "Connection: Upgrade\r\n" ++ lit "Sec-WebSocket-Accept: " ++ acceptKey (trim key) ++
      lit "\r\n\r\n"

/-! ## Frames -/

/-- `encodeFrame`: a text frame with a 7-bit or a 16-bit length. -/
def encodeFrame (message : Bytes) : Bytes :=
  if message.length ≤ 125 then 0x81 :: message.length.toUInt8 :: message
  else 0x81 :: 126 :: (message.length >>> 8).toUInt8 :: message.length.toUInt8 :: message

theorem two_le_length_encodeFrame (message : Bytes) : 2 ≤ (encodeFrame message).length := by
  unfold encodeFrame
  split_ifs
  · simp
  · simp

/-- `decodeFrame`. -/
def decodeFrame (frame : Bytes) : Except Exn Bytes :=
  if frame.length < 2 then .ok []
  else do
    let second_byte := frame.getD 1 0
    let payload_len := second_byte &&& 0x7F
    let offset := if payload_len = 126 then 4 else if payload_len = 127 then 10 else 2
    let masked := (second_byte &&& 0x80) != 0
    let mask ← if masked then substr frame offset 4 else .ok []
    let offset := if masked then offset + 4 else offset
    if frame.length < offset then return []
    -- everything behind the header is the payload, whatever its length field says
    let decoded ← substr frame offset frame.length
    return if masked then decoded.mapIdx fun i c => c ^^^ mask.getD (i % 4) 0 else decoded

/-- The ways a pass of the loop of `decodeFrames` can go wrong. -/
inductive DecodeFault
  /-- A read of `data[j]` with `j` past the end of the buffer. -/
  | outOfBounds (j : ℕ)
  /-- The exception of `std::string(payload_len, '\0')`. -/
  | threw (e : Exn)
  /-- The loop has not ended within its fuel. -/
  | diverged
  deriving DecidableEq, Repr

/-- The variables the loop carries. -/
structure DecodeState where
  index : ℕ
  bytes_left : ℕ
  payloads : List Bytes
  deriving DecidableEq, Repr

/-- `data[j]`. -/
def readByte (buffer : Bytes) (j : ℕ) : Except DecodeFault UInt8 :=
  match buffer[j]? with
  | some b => .ok b
  | none => .error (.outOfBounds j)

/-- `payload_len = (payload_len << 8) | byte`, in 64 bits. -/
def pushByte (payload_len : ℕ) (b : UInt8) : ℕ := wrap64 (payload_len <<< 8) ||| b.toNat

/-- `opcode`. -/
def opcode (first_byte : UInt8) : UInt8 := first_byte &&& 0x0F

/-- `masked`. -/
def masked (second_byte : UInt8) : Bool := (second_byte &&& 0x80) != 0

/-- The seven-bit length. -/
def shortLength (second_byte : UInt8) : ℕ := (second_byte &&& 0x7F).toNat

/-- `len_offset`: 2, or behind the two or the eight bytes of an extended length. -/
def lenOffset (second_byte : UInt8) : ℕ :=
  if shortLength second_byte = 126 then 4 else if shortLength second_byte = 127 then 10 else 2

/-- `header_len`. -/
def headerLen (second_byte : UInt8) : ℕ :=
  if masked second_byte then lenOffset second_byte + 4 else lenOffset second_byte

/-- `payload_len`, read from the two or the eight length bytes when there are any. -/
def readLength (buffer : Bytes) (index : ℕ) (second_byte : UInt8) : Except DecodeFault ℕ :=
  if shortLength second_byte = 126 then do
    let b0 ← readByte buffer (index + 2)
    let b1 ← readByte buffer (index + 3)
    return (b0.toNat <<< 8) ||| b1.toNat
  else if shortLength second_byte = 127 then do
    let bytes ← (List.range 8).mapM fun i => readByte buffer (index + 2 + i)
    return bytes.foldl pushByte 0
  else return shortLength second_byte

/-- `mask`: four bytes behind the length, all zero for an unmasked frame. -/
def readMask (buffer : Bytes) (index : ℕ) (second_byte : UInt8) : Except DecodeFault (List UInt8) :=
  if masked second_byte then
    (List.range 4).mapM fun i => readByte buffer (index + lenOffset second_byte + i)
  else return [0, 0, 0, 0]

/-- `std::string payload(payload_len, '\0')` and the loop that fills it from `payload_src`. -/
def readPayload (buffer : Bytes) (payload_src payload_len : ℕ) (second_byte : UInt8)
    (mask : List UInt8) : Except DecodeFault Bytes :=
  if maxSize < payload_len then .error (.threw .lengthError)
  else (List.range payload_len).mapM fun i => do
    let b ← readByte buffer (payload_src + i)
    return if masked second_byte then b ^^^ mask.getD (i % 4) 0 else b

/-- One pass of the loop body; `none` is `break`. The size test and the updates of `index` and
`bytes_left` are in 64-bit arithmetic. -/
def decodeStep (buffer : Bytes) (st : DecodeState) : Except DecodeFault (Option DecodeState) := do
  let first_byte ← readByte buffer st.index
  let second_byte ← readByte buffer (st.index + 1)
  let header_len := headerLen second_byte
  if st.bytes_left < header_len then return none
  let payload_len ← readLength buffer st.index second_byte
  let mask ← readMask buffer st.index second_byte
  let frame_size := wrap64 (header_len + payload_len)
  if st.bytes_left < frame_size then return none
  let payload ← readPayload buffer (st.index + header_len) payload_len second_byte mask
  return some
    { index := wrap64 (st.index + frame_size)
      bytes_left := st.bytes_left - frame_size
      payloads := if opcode first_byte = 1 ∨ opcode first_byte = 2 then st.payloads ++ [payload]
        else st.payloads }

/-- The loop `while (bytes_left >= 2)`. -/
def decodeLoop (buffer : Bytes) : ℕ → DecodeState → Except DecodeFault (List Bytes)
  | 0, _ => .error .diverged
  | fuel + 1, st =>
    if st.bytes_left < 2 then .ok st.payloads
    else match decodeStep buffer st with
      | .error e => .error e
      | .ok none => .ok st.payloads
      | .ok (some st') => decodeLoop buffer fuel st'

/-- The state in front of the first pass. -/
def decodeInit (buffer : Bytes) : DecodeState := ⟨0, buffer.length, []⟩

/-- `decodeFrames`. A pass that does not end the loop takes a whole frame off `bytes_left`, so the
buffer's length is fuel enough (`decodeFrames_safe_iff`). -/
def decodeFrames (buffer : Bytes) : Except DecodeFault (List Bytes) :=
  decodeLoop buffer (buffer.length + 1) (decodeInit buffer)

end WebSocketHandler
