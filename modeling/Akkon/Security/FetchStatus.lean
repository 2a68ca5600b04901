import Akkon.Security.LifecycleManager

/-!
# The status response

`LifecycleManager::fetchVulnerabilityStatus`: the request to the vulnerability server, and the loop
that collects its answer in a buffer of 4096 bytes. The loop appends the buffer as a C string,
whatever number of bytes `recv` has returned.

* `cString_recv`: what one chunk adds to the response, `none` when the buffer is read past its end;
* `receive_eq`: what the loop returns;
* `lossless_iff`: which chunks are accumulated as they were received.
-/

namespace Security

open Cpp

/-- What a call of `recv` writes that returns more than `0`: it is asked for at most 4096 bytes. -/
structure Chunk where
  bytes : Bytes
  pos : 0 < bytes.length
  le : bytes.length ≤ 4096

/-- `char buffer[4096]`. -/
structure Buffer where
  bytes : Bytes
  size : bytes.length = 4096

/-- A character array read as a C string, `none` when there is no NUL in it and the read goes on
behind its end. -/
def readCString : Bytes → Option Bytes
  | [] => none
  | c :: s => if c = 0 then some [] else (readCString s).map (c :: ·)

namespace Buffer

/-- The initializer `{0}`, and the buffer behind `memset(buffer, 0, 4096)`. -/
def zero : Buffer where
  bytes := List.replicate 4096 0
  size := List.length_replicate

/-- `recv(sock, buffer, 4096, 0)`. -/
def recv (b : Buffer) (chunk : Chunk) : Buffer where
  bytes := chunk.bytes ++ b.bytes.drop chunk.bytes.length
  size := by
    have hle := chunk.le
    rw [List.length_append, List.length_drop, b.size]
    omega

/-- What `response += buffer` appends. -/
def cString (b : Buffer) : Option Bytes := readCString b.bytes

end Buffer

/-- What the calls on the socket return. -/
structure Network where
  socket : ℤ
  /-- For an address and a port. -/
  connect : Bytes → ℕ → ℤ
  /-- The chunks behind a request, up to the call of `recv` that returns `0` or less. -/
  recv : Bytes → List Chunk

/-- `AKKON_VERSION`. -/
def AKKON_VERSION : Bytes := lit "1.0.0"

/-- `request`. -/
def statusRequest : Bytes :=
  lit "GET /status?version=" ++ AKKON_VERSION ++ lit " HTTP/1.1\r\n" ++ lit "Host: 127.0.0.1\r\n"
    ++ lit "Connection: close\r\n\r\n"

namespace LifecycleManager

/-- The loop around `recv`. -/
def receive (buffer : Buffer) (response : Bytes) : List Chunk → Option Bytes
  | [] => some response
  | chunk :: chunks => do
    let appended ← (buffer.recv chunk).cString
    receive .zero (response ++ appended) chunks

/-- `fetchVulnerabilityStatus`, `none` when the buffer is read past its end. -/
def fetchVulnerabilityStatus (net : Network) : Option Bytes :=
  if net.socket < 0 then some []
  else if net.connect (lit "127.0.0.1") 8081 < 0 then some []
  else receive .zero [] (net.recv statusRequest)

end LifecycleManager

/-- The chunks that `recv` returns in a call of `fetchVulnerabilityStatus`: none when there is no
connection. -/
def Network.received (net : Network) : List Chunk :=
  if net.socket < 0 ∨ net.connect (lit "127.0.0.1") 8081 < 0 then [] else net.recv statusRequest

/-- The response is what was received, and the buffer is not read past its end. -/
def Network.Lossless (net : Network) : Prop :=
  LifecycleManager.fetchVulnerabilityStatus net = some (net.received.flatMap Chunk.bytes)

/-! ## One chunk -/

theorem readCString_eq (s : Bytes) : readCString s = if 0 ∈ s then some (cStr s) else none := by
  induction s with
  | nil => rfl
  | cons c s ih =>
    rw [readCString, ih]
    by_cases hc : c = 0
    · subst hc
      simp [cStr]
    · by_cases hmem : 0 ∈ s <;> simp [cStr, hc, Ne.symm hc, hmem]

theorem cStr_eq_self_iff {s : Bytes} : cStr s = s ↔ 0 ∉ s := by
  refine ⟨fun h hmem => ?_, cStr_eq_self⟩
  rw [← h] at hmem
  simpa using List.mem_takeWhile_imp hmem

/-- Zeros behind a text change nothing about its C string. -/
theorem cStr_append_replicate (s : Bytes) (n : ℕ) : cStr (s ++ List.replicate n 0) = cStr s := by
  induction s with
  | nil => cases n <;> rfl
  | cons c s ih =>
    simp only [cStr] at ih ⊢
    rw [List.cons_append, List.takeWhile_cons, List.takeWhile_cons, ih]

/-- Behind the chunk the buffer has the zeros of `memset`. -/
theorem Buffer.bytes_recv_zero (chunk : Chunk) :
    (Buffer.zero.recv chunk).bytes =
      chunk.bytes ++ List.replicate (4096 - chunk.bytes.length) 0 := by
  show chunk.bytes ++ (List.replicate 4096 0).drop chunk.bytes.length = _
  rw [List.drop_replicate]

/-- A chunk adds its bytes up to the first NUL. Without a NUL in a chunk that fills the buffer, there
is none in the buffer. -/
theorem Buffer.cString_recv (chunk : Chunk) :
    (Buffer.zero.recv chunk).cString =
      if 0 ∈ chunk.bytes ∨ chunk.bytes.length < 4096 then some (cStr chunk.bytes) else none := by
  have hmem : 0 ∈ (Buffer.zero.recv chunk).bytes ↔
      0 ∈ chunk.bytes ∨ chunk.bytes.length < 4096 := by
    rw [bytes_recv_zero, List.mem_append, List.mem_replicate, and_iff_left rfl,
      Nat.sub_ne_zero_iff_lt]
  rw [cString, readCString_eq, bytes_recv_zero, cStr_append_replicate, ← bytes_recv_zero]
  exact if_congr hmem rfl rfl

/-! ## The loop -/

theorem LifecycleManager.receive_eq (response : Bytes) (chunks : List Chunk) :
    receive .zero response chunks =
      if ∀ chunk ∈ chunks, 0 ∈ chunk.bytes ∨ chunk.bytes.length < 4096 then
        some (response ++ chunks.flatMap fun chunk => cStr chunk.bytes)
      else none := by
  induction chunks generalizing response with
  | nil => simp [receive]
  | cons chunk chunks ih =>
    rw [receive, Buffer.cString_recv]
    by_cases hchunk : 0 ∈ chunk.bytes ∨ chunk.bytes.length < 4096
    · -- each round starts with a buffer of zeros
      rw [if_pos hchunk]
      show receive .zero (response ++ cStr chunk.bytes) chunks = _
      rw [ih]
      simp [hchunk]
    · rw [if_neg hchunk, if_neg fun h => hchunk (h chunk (by simp))]
      rfl

theorem length_cStr_le (s : Bytes) : (cStr s).length ≤ s.length :=
  (List.takeWhile_sublist _).length_le

theorem length_flatMap_cStr_le (chunks : List Chunk) :
    (chunks.flatMap fun chunk => cStr chunk.bytes).length ≤
      (chunks.flatMap Chunk.bytes).length := by
  induction chunks with
  | nil => exact Nat.le_refl _
  | cons chunk chunks ih =>
    rw [List.flatMap_cons, List.flatMap_cons, List.length_append, List.length_append]
    exact Nat.add_le_add (length_cStr_le _) ih

/-- Nothing is cut off exactly when no chunk has a NUL. -/
theorem flatMap_cStr_eq_iff (chunks : List Chunk) :
    (chunks.flatMap fun chunk => cStr chunk.bytes) = chunks.flatMap Chunk.bytes ↔
      ∀ chunk ∈ chunks, 0 ∉ chunk.bytes := by
  induction chunks with
  | nil => simp
  | cons chunk chunks ih =>
    rw [List.flatMap_cons, List.flatMap_cons, List.forall_mem_cons, ← ih, ← cStr_eq_self_iff]
    constructor
    · intro h
      -- a part that is cut off is not made up for by another chunk
      have hlength := congrArg List.length h
      rw [List.length_append, List.length_append] at hlength
      have hfirst := length_cStr_le chunk.bytes
      have hrest := length_flatMap_cStr_le chunks
      exact List.append_inj h (by omega)
    · rintro ⟨hfirst, hrest⟩
      rw [hfirst, hrest]

/-- The response is what was received exactly when no chunk has a NUL and none fills the buffer. -/
theorem Network.lossless_iff (net : Network) :
    net.Lossless ↔
      ∀ chunk ∈ net.received, 0 ∉ chunk.bytes ∧ chunk.bytes.length < 4096 := by
  have hfetch : LifecycleManager.fetchVulnerabilityStatus net =
      LifecycleManager.receive .zero [] net.received := by
    rw [LifecycleManager.fetchVulnerabilityStatus, received]
    by_cases hsocket : net.socket < 0
    · rw [if_pos hsocket, if_pos (.inl hsocket), LifecycleManager.receive]
    · by_cases hconnect : net.connect (lit "127.0.0.1") 8081 < 0
      · rw [if_neg hsocket, if_pos hconnect, if_pos (.inr hconnect), LifecycleManager.receive]
      · rw [if_neg hsocket, if_neg hconnect, if_neg (not_or.mpr ⟨hsocket, hconnect⟩)]
  rw [Lossless, hfetch, LifecycleManager.receive_eq, List.nil_append]
  constructor
  · intro h chunk hchunk
    split_ifs at h with hread
    have hnul := (flatMap_cStr_eq_iff net.received).mp (Option.some.inj h) chunk hchunk
    exact ⟨hnul, (hread chunk hchunk).resolve_left hnul⟩
  · intro h
    rw [if_pos fun chunk hchunk => .inr (h chunk hchunk).2,
      (flatMap_cStr_eq_iff net.received).mpr fun chunk hchunk => (h chunk hchunk).1]

/-- A server that answers every request with these chunks. -/
def answering (chunks : List Chunk) : Network where
  socket := 3
  connect := fun _ _ => 0
  recv := fun _ => chunks

/-- Three bytes, the second of them a NUL. -/
def chunkWithNul : Chunk := ⟨lit "a\x00b", by decide, by decide⟩

/-- A chunk of text that fills the buffer. -/
def fullChunk : Chunk where
  bytes := List.replicate 4096 32
  pos := by rw [List.length_replicate]; decide
  le := List.length_replicate.le

/-- What is behind the NUL is lost, and behind a full buffer the read goes on. -/
theorem not_lossless_answering :
    LifecycleManager.fetchVulnerabilityStatus (answering [chunkWithNul]) = some (lit "a") ∧
      ¬ (answering [chunkWithNul]).Lossless ∧
      LifecycleManager.fetchVulnerabilityStatus (answering [fullChunk]) = none ∧
      ¬ (answering [fullChunk]).Lossless := by
  have hcut : LifecycleManager.fetchVulnerabilityStatus (answering [chunkWithNul]) =
      some (lit "a") := LifecycleManager.receive_eq [] [chunkWithNul]
  have hfull : ¬ ∀ chunk ∈ [fullChunk], 0 ∈ chunk.bytes ∨ chunk.bytes.length < 4096 := by
    intro h
    rcases h fullChunk (by simp) with hnul | hlt
    · exact absurd (List.eq_of_mem_replicate hnul) (by decide)
    · exact absurd List.length_replicate hlt.ne
  have hpast : LifecycleManager.fetchVulnerabilityStatus (answering [fullChunk]) = none := by
    have hreceive := LifecycleManager.receive_eq [] [fullChunk]
    rwa [if_neg hfull] at hreceive
  refine ⟨hcut, ?_, hpast, ?_⟩
  · rw [Network.Lossless, hcut]
    decide
  · rw [Network.Lossless, hpast]
    exact Option.some_ne_none _ ∘ Eq.symm

end Security
