import Akkon.Network.Protocols.Frame

/-!
# Decoding what `encodeFrame` made

`encodeFrame` gives the length of a message in seven or in sixteen bits and has no third form: from
`2 ^ 16` bytes on the length field holds the length modulo `2 ^ 16`, and the rest of the message
stands behind the frame as if it were frames of its own.

* `encodeFrame_eq`: an encoding is the wire form of a text frame, followed by the part of the
  message that the length field leaves out;
* `decodeFrames_flatMap_encodeFrame_iff`: `decodeFrames` undoes the encoding of a list of messages
  exactly when each of them is shorter than `2 ^ 16` bytes.
-/

namespace WebSocketHandler

open Cpp

/-! ## The frame at the head of an encoding -/

/-- The text frame a reader finds at the head of `encodeFrame message`. -/
def encodedFrame (message : Bytes) : Frame :=
  if h : message.length ≤ 125 then ⟨0x81, none, .short, message, Nat.lt_succ_of_le h⟩
  else ⟨0x81, none, .medium, message.take (message.length % 2 ^ 16),
    lt_of_le_of_lt (List.length_take_le _ _) (Nat.mod_lt _ (by decide))⟩

variable {message : Bytes}

/-- The frame holds as many bytes of the message as its length field says. -/
theorem payload_encodedFrame :
    (encodedFrame message).payload = message.take (message.length % 2 ^ 16) := by
  unfold encodedFrame
  split_ifs with h
  · rw [Nat.mod_eq_of_lt (by omega), List.take_length]
  · rfl

theorem delivered_encodedFrame :
    (encodedFrame message).delivered = [message.take (message.length % 2 ^ 16)] := by
  have hfirst : (encodedFrame message).first_byte = 0x81 := by
    unfold encodedFrame
    split_ifs <;> rfl
  rw [Frame.delivered, hfirst, payload_encodedFrame]
  exact if_pos (by decide)

/-- The two length bytes of the 16-bit form are those of the length modulo `2 ^ 16`. -/
theorem beBytes_two_mod (n : ℕ) :
    beBytes 2 (n % 2 ^ 16) = [(n >>> 8).toUInt8, n.toUInt8] := by
  have hhigh : (n % 2 ^ 16 / 256 % 256).toUInt8 = (n >>> 8).toUInt8 := by
    refine UInt8.toNat_inj.mp ?_
    simp only [Nat.toUInt8, UInt8.toNat_ofNat', Nat.shiftRight_eq_div_pow]
    omega
  have hlow : (n % 2 ^ 16 % 256).toUInt8 = n.toUInt8 := by
    refine UInt8.toNat_inj.mp ?_
    simp only [Nat.toUInt8, UInt8.toNat_ofNat']
    omega
  simp only [beBytes, List.nil_append, List.cons_append, hhigh, hlow]

/-- An encoding is a text frame, followed by what the length field leaves out. -/
theorem encodeFrame_eq (message : Bytes) :
    encodeFrame message =
      (encodedFrame message).wire ++ message.drop (message.length % 2 ^ 16) := by
  unfold encodeFrame encodedFrame
  split_ifs with h
  · -- the seven-bit form leaves nothing out
    have hdrop : message.drop (message.length % 2 ^ 16) = [] := by
      rw [Nat.mod_eq_of_lt (by omega), List.drop_length]
    rw [hdrop, List.append_nil]
    simp [Frame.wire, Frame.header, Frame.secondByte, Frame.body, LengthForm.code,
      LengthForm.extended]
  · have hlen : (message.take (message.length % 2 ^ 16)).length = message.length % 2 ^ 16 :=
      List.length_take_of_le (Nat.mod_le _ _)
    have hbytes : beBytes 2 (message.take (message.length % 2 ^ 16)).length =
        [(message.length >>> 8).toUInt8, message.length.toUInt8] := by
      rw [hlen, beBytes_two_mod]
    simp only [Frame.wire, Frame.header, Frame.secondByte, Frame.body, LengthForm.code,
      LengthForm.extended, hbytes]
    simp

/-- Two messages are not sent as the same frame. -/
theorem encodeFrame_injective : Function.Injective encodeFrame := by
  intro message message' h
  unfold encodeFrame at h
  -- the second byte of a short frame is at most 125, that of a long one 126
  have hsecond (m : Bytes) (hm : m.length ≤ 125) : m.length.toUInt8 ≠ 126 := by
    intro heq
    have hnat := congrArg UInt8.toNat heq
    simp only [Nat.toUInt8, UInt8.toNat_ofNat'] at hnat
    rw [Nat.mod_eq_of_lt (by omega)] at hnat
    exact absurd hnat (by simp; omega)
  split_ifs at h with hm hm' hm'
  · simp only [List.cons.injEq, true_and] at h
    exact h.2
  · simp only [List.cons.injEq, true_and] at h
    exact absurd h.1 (hsecond message hm)
  · simp only [List.cons.injEq, true_and] at h
    exact absurd h.1.symm (hsecond message' hm')
  · simp only [List.cons.injEq, true_and] at h
    exact h.2.2

/-- A message whose length fits is encoded by the whole frame. -/
theorem encodeFrame_of_lt (h : message.length < 2 ^ 16) :
    encodeFrame message = (encodedFrame message).wire := by
  rw [encodeFrame_eq, Nat.mod_eq_of_lt h, List.drop_length, List.append_nil]

theorem flatMap_encodeFrame_of_lt {messages : List Bytes}
    (h : ∀ message ∈ messages, message.length < 2 ^ 16) :
    messages.flatMap encodeFrame = (messages.map encodedFrame).flatMap Frame.wire := by
  rw [List.flatMap_map]
  exact List.flatMap_congr fun message hmem => encodeFrame_of_lt (h message hmem)

theorem flatMap_delivered_of_lt {messages : List Bytes}
    (h : ∀ message ∈ messages, message.length < 2 ^ 16) :
    (messages.map encodedFrame).flatMap Frame.delivered = messages := by
  rw [List.flatMap_map]
  calc messages.flatMap (fun message => (encodedFrame message).delivered)
      = messages.flatMap fun message => [message] :=
        List.flatMap_congr fun message hmem => by
          rw [delivered_encodedFrame, Nat.mod_eq_of_lt (h message hmem), List.take_length]
    _ = messages := List.flatMap_singleton' messages

/-! ## The round trip -/

/-- The loop only adds to the payloads it has. -/
theorem payloads_prefix_of_decodeLoop {buffer : Bytes} (hmax : buffer.length ≤ maxSize) {fuel : ℕ}
    {st : DecodeState} {payloads : List Bytes}
    (hsum : st.index + st.bytes_left = buffer.length)
    (h : decodeLoop buffer fuel st = .ok payloads) : st.payloads <+: payloads := by
  induction fuel generalizing st with
  | zero => cases h
  | succ fuel ih =>
    rw [decodeLoop] at h
    split_ifs at h with hend
    · rw [Except.ok.inj h]
    · cases hstep : decodeStep buffer st with
      | error e =>
        rw [hstep] at h
        cases h
      | ok next =>
        rw [hstep] at h
        cases next with
        | none =>
          rw [Except.ok.inj h]
        | some st' =>
          obtain ⟨hsize, rfl⟩ := decodeStep_some hmax hsum (by omega) hstep
          exact (List.prefix_append _ _).trans (ih (by simp only; omega) h)

/-- Messages that all fit are decoded into themselves. -/
theorem decodeFrames_flatMap_encodeFrame {messages : List Bytes}
    (h : ∀ message ∈ messages, message.length < 2 ^ 16)
    (hmax : (messages.flatMap encodeFrame).length ≤ maxSize) :
    decodeFrames (messages.flatMap encodeFrame) = .ok messages := by
  have hwire : decodeFrames ((messages.map encodedFrame).flatMap Frame.wire ++ []) = _ :=
    decodeFrames_wire incomplete_nil (by rwa [List.append_nil, ← flatMap_encodeFrame_of_lt h])
  rwa [List.append_nil, ← flatMap_encodeFrame_of_lt h, flatMap_delivered_of_lt h] at hwire

/-- Of the first message that does not fit, the decoder delivers a part. -/
theorem prefix_of_decodeFrames_encodeFrame {front back payloads : List Bytes} {message : Bytes}
    (h : ∀ x ∈ front, x.length < 2 ^ 16)
    (hmax : ((front ++ message :: back).flatMap encodeFrame).length ≤ maxSize)
    (hok : decodeFrames ((front ++ message :: back).flatMap encodeFrame) = .ok payloads) :
    front ++ [message.take (message.length % 2 ^ 16)] <+: payloads := by
  -- the frames up to the message's own, and what the decoder finds behind them
  have hsplit : (front ++ message :: back).flatMap encodeFrame =
      ((front ++ [message]).map encodedFrame).flatMap Frame.wire ++
        (message.drop (message.length % 2 ^ 16) ++ back.flatMap encodeFrame) := by
    simp only [List.flatMap_append, List.flatMap_cons, List.flatMap_nil, List.map_append,
      List.map_cons, List.map_nil, encodeFrame_eq message, flatMap_encodeFrame_of_lt h,
      List.append_assoc, List.nil_append]
  have hdelivered : ((front ++ [message]).map encodedFrame).flatMap Frame.delivered =
      front ++ [message.take (message.length % 2 ^ 16)] := by
    rw [List.map_append, List.flatMap_append, flatMap_delivered_of_lt h]
    simp [delivered_encodedFrame]
  rw [hsplit] at hmax hok
  obtain ⟨fuel, -, heq⟩ := decodeFrames_eq_of_frames hmax
  rw [heq, hdelivered] at hok
  exact payloads_prefix_of_decodeLoop hmax List.length_append.symm hok

/-- A list with a message of `2 ^ 16` bytes or more does not come back. -/
theorem decodeFrames_flatMap_encodeFrame_ne {messages : List Bytes} {message : Bytes}
    (hmem : message ∈ messages) (hlong : 2 ^ 16 ≤ message.length)
    (hmax : (messages.flatMap encodeFrame).length ≤ maxSize) :
    decodeFrames (messages.flatMap encodeFrame) ≠ .ok messages := by
  intro hok
  -- the first message that is too long
  have hfind : (messages.find? fun x => 2 ^ 16 ≤ x.length).isSome :=
    List.find?_isSome.mpr ⟨message, hmem, decide_eq_true hlong⟩
  obtain ⟨first, hfirst⟩ := Option.isSome_iff_exists.mp hfind
  obtain ⟨hbound, front, back, rfl, hfront⟩ := List.find?_eq_some_iff_append.mp hfirst
  have hbound : 2 ^ 16 ≤ first.length := of_decide_eq_true hbound
  have hshort : ∀ x ∈ front, x.length < 2 ^ 16 := fun x hx => by
    have := hfront x hx
    simp only [Bool.not_eq_true', decide_eq_false_iff_not] at this
    omega
  have hprefix := prefix_of_decodeFrames_encodeFrame hshort hmax hok
  -- the decoder would have delivered it in full
  have htake : first.take (first.length % 2 ^ 16) = first := by
    have htail := (List.prefix_append_right_inj front).mp hprefix
    obtain ⟨rest, hrest⟩ := htail
    exact (List.cons.inj hrest).1
  have hlen := congrArg List.length htake
  rw [List.length_take_of_le (Nat.mod_le _ _)] at hlen
  omega

/-- One message that is too long does not come back either. -/
theorem decodeFrames_encodeFrame_ne (hlong : 2 ^ 16 ≤ message.length)
    (hmax : message.length + 4 ≤ maxSize) : decodeFrames (encodeFrame message) ≠ .ok [message] := by
  have hsize : ([message].flatMap encodeFrame).length ≤ maxSize := by
    rw [List.flatMap_singleton, encodeFrame, if_neg (by omega)]
    exact hmax
  have hne := decodeFrames_flatMap_encodeFrame_ne (List.mem_singleton_self _) hlong hsize
  rwa [List.flatMap_singleton] at hne

/-- `decodeFrames` undoes the encoding of a list of messages, one message included, exactly when
every message is shorter than `2 ^ 16` bytes. -/
theorem decodeFrames_flatMap_encodeFrame_iff {messages : List Bytes}
    (hmax : (messages.flatMap encodeFrame).length ≤ maxSize) :
    decodeFrames (messages.flatMap encodeFrame) = .ok messages ↔
      ∀ message ∈ messages, message.length < 2 ^ 16 := by
  constructor
  · intro hok message hmem
    by_contra hlong
    exact decodeFrames_flatMap_encodeFrame_ne hmem (by omega) hmax hok
  · exact fun h => decodeFrames_flatMap_encodeFrame h hmax

/-- Two short messages come back. -/
theorem decodeFrames_flatMap_encodeFrame_iff_two :
    decodeFrames ([lit "hi", lit "ok"].flatMap encodeFrame) = .ok [lit "hi", lit "ok"] :=
  (@decodeFrames_flatMap_encodeFrame_iff [lit "hi", lit "ok"] (by decide)).mpr (by decide)

/-- A log text of 65536 letters is sent under the length 0. -/
theorem decodeFrames_encodeFrame_ne_replicate :
    decodeFrames (encodeFrame (List.replicate 65536 97)) ≠ .ok [List.replicate 65536 97] := by
  refine decodeFrames_encodeFrame_ne ?_ ?_
  · rw [List.length_replicate]
    decide
  · rw [List.length_replicate]
    decide

end WebSocketHandler
