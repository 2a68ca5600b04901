import Akkon.Network.Protocols.Frame

/-!
# `decodeFrame`, and the two decoders side by side

`decodeFrame` takes everything behind the header for the payload, and it cuts the mask out of the
frame before it looks whether the header is there in full.

* `checkedDecodeFrame`: `decodeFrame` with every index it reads checked;
  `checkedDecodeFrame_eq`: no index is ever out of bounds;
* `decodeFrame_eq`: its results by the layout of the header;
* `decodeFrame_returns_iff`: the exception of `substr` is thrown exactly for masked frames that end
  in front of their mask;
* `decoders_agree`: on one whole text or binary frame both decoders return its payload.
-/

namespace WebSocketHandler

open Cpp

/-! ## The reads of `decodeFrame` -/

/-- One index of the loop `decoded[i] ^= mask[i % 4]`. -/
def unmaskByte (decoded mask : Bytes) (i : ℕ) : Except DecodeFault UInt8 := do
  let c ← readByte decoded i
  let m ← readByte mask (i % 4)
  return c ^^^ m

/-- `decodeFrame` with its reads of `frame`, `mask` and `decoded` checked. -/
def checkedDecodeFrame (frame : Bytes) : Except DecodeFault Bytes :=
  if frame.length < 2 then .ok []
  else do
    let second_byte ← readByte frame 1
    let payload_len := second_byte &&& 0x7F
    let offset := if payload_len = 126 then 4 else if payload_len = 127 then 10 else 2
    let masked := (second_byte &&& 0x80) != 0
    let mask ← if masked then (substr frame offset 4).mapError .threw else .ok []
    let offset := if masked then offset + 4 else offset
    if frame.length < offset then return []
    let decoded ← (substr frame offset frame.length).mapError .threw
    if masked then (List.range decoded.length).mapM (unmaskByte decoded mask) else return decoded

/-- The frame ends in front of the mask that its second byte announces. -/
def EndsBeforeMask (frame : Bytes) : Prop :=
  2 ≤ frame.length ∧ masked (frame.getD 1 0) = true ∧ frame.length < lenOffset (frame.getD 1 0)

instance (frame : Bytes) : Decidable (EndsBeforeMask frame) :=
  inferInstanceAs (Decidable (_ ∧ _))

/-- The offset of `decodeFrame`, computed on the byte, is the one of `decodeFrames`. -/
theorem offset_eq_lenOffset (b : UInt8) :
    (if b &&& 0x7F = 126 then 4 else if b &&& 0x7F = 127 then 10 else 2) = lenOffset b := by
  have h (n : ℕ) (hn : n < 256) : b &&& 0x7F = UInt8.ofNat n ↔ shortLength b = n := by
    rw [shortLength, ← UInt8.toNat_inj, UInt8.toNat_ofNat_of_lt' hn]
  rw [lenOffset]
  exact if_congr (h 126 (by decide)) rfl (if_congr (h 127 (by decide)) rfl rfl)

/-- What is behind the header, unmasked. -/
def restPayload (frame : Bytes) : Bytes :=
  let decoded := frame.drop (frameHeaderLen frame)
  if masked (frame.getD 1 0) then
    decoded.mapIdx fun i c => c ^^^ ((frame.drop (lenOffset (frame.getD 1 0))).take 4).getD (i % 4) 0
  else decoded

/-- The results of `decodeFrame`. -/
theorem decodeFrame_eq (frame : Bytes) :
    decodeFrame frame =
      if EndsBeforeMask frame then .error .outOfRange
      else if frame.length < 2 ∨ frame.length < frameHeaderLen frame then .ok []
      else .ok (restPayload frame) := by
  rw [decodeFrame]
  by_cases hlen : frame.length < 2
  · have hends : ¬ EndsBeforeMask frame := fun h => by
      have := h.1
      omega
    rw [if_pos hlen, if_neg hends, if_pos (.inl hlen)]
  rw [if_neg hlen]
  simp only [offset_eq_lenOffset]
  cases hmasked : masked (frame.getD 1 0) with
  | false =>
    have hends : ¬ EndsBeforeMask frame := fun h => by
      rw [EndsBeforeMask, hmasked] at h
      exact Bool.false_ne_true h.2.1
    have hhead : frameHeaderLen frame = lenOffset (frame.getD 1 0) := by
      rw [frameHeaderLen, headerLen, hmasked, if_neg Bool.false_ne_true]
    rw [if_neg hends, restPayload, hhead, hmasked]
    rw [masked] at hmasked
    simp only [hmasked, if_neg Bool.false_ne_true, hlen, false_or]
    show (if _ then _ else _) = _
    split_ifs with hpart
    · rfl
    · rw [substr_to_end (by omega)]
      rfl
  | true =>
    have hhead : frameHeaderLen frame = lenOffset (frame.getD 1 0) + 4 := by
      rw [frameHeaderLen, headerLen, hmasked, if_pos rfl]
    have hends : EndsBeforeMask frame ↔ frame.length < lenOffset (frame.getD 1 0) := by
      rw [EndsBeforeMask, hmasked]
      exact ⟨fun h => h.2.2, fun h => ⟨by omega, rfl, h⟩⟩
    rw [restPayload, hhead, hmasked]
    rw [masked] at hmasked
    simp only [hmasked, if_true, hlen, false_or, hends]
    -- the mask is cut out first, then the length is checked
    by_cases hmask : frame.length < lenOffset (frame.getD 1 0)
    · rw [if_pos hmask, substr, if_neg (by omega)]
      rfl
    · rw [if_neg hmask, substr_eq_ok _ (by omega)]
      show (if _ then _ else _) = _
      split_ifs with hpart
      · rfl
      · rw [substr_to_end (by omega)]
        rfl

/-- The loop over the payload stays inside the payload and inside a mask of four bytes. -/
theorem mapM_unmaskByte (decoded : Bytes) {mask : Bytes} (hmask : mask.length = 4) :
    (List.range decoded.length).mapM (unmaskByte decoded mask) =
      .ok (decoded.mapIdx fun i c => c ^^^ mask.getD (i % 4) 0) := by
  have hbyte : ∀ i ∈ List.range decoded.length,
      unmaskByte decoded mask i = .ok (decoded.getD i 0 ^^^ mask.getD (i % 4) 0) := by
    intro i hi
    rw [unmaskByte, readByte_eq_ok (List.mem_range.mp hi), readByte_eq_ok (by omega)]
    rfl
  rw [mapM_eq_ok hbyte]
  refine congrArg _ (List.ext_getElem (by simp) fun i hi hi' => ?_)
  have hlt : i < decoded.length := by simpa using hi
  simp [hlt]

/-- The checks of the reads never fail: what goes wrong is an exception of `substr`. -/
theorem checkedDecodeFrame_eq (frame : Bytes) :
    checkedDecodeFrame frame = (decodeFrame frame).mapError .threw := by
  rw [checkedDecodeFrame, decodeFrame]
  split_ifs with hlen
  · rfl
  rw [readByte_eq_ok (by omega)]
  simp only [offset_eq_lenOffset, bind, Except.bind]
  cases hmasked : (frame.getD 1 0 &&& 0x80) != 0 with
  | false =>
    simp only [if_neg Bool.false_ne_true]
    split_ifs with hpart
    · rfl
    · cases substr frame (lenOffset (frame.getD 1 0)) frame.length with
      | error e => rfl
      | ok decoded => rfl
  | true =>
    simp only [if_true]
    by_cases hmask : frame.length < lenOffset (frame.getD 1 0)
    · rw [substr, if_neg (by omega)]
      rfl
    rw [substr_eq_ok _ (by omega)]
    simp only [Except.mapError]
    -- with the whole header there, the mask has its four bytes
    split_ifs with hpart
    · rfl
    · rw [substr_eq_ok _ (by omega)]
      refine mapM_unmaskByte _ ?_
      rw [List.length_take, List.length_drop]
      omega

/-- `decodeFrame` returns, with every index in bounds, unless a masked frame ends in front of its
mask. -/
theorem decodeFrame_returns_iff (frame : Bytes) :
    (∃ decoded, decodeFrame frame = .ok decoded ∧ checkedDecodeFrame frame = .ok decoded) ↔
      ¬ EndsBeforeMask frame := by
  rw [checkedDecodeFrame_eq, decodeFrame_eq]
  split_ifs with hends hpart
  · simp [hends]
  · simp [hends, Except.mapError]
  · simp [hends, Except.mapError]

/-- The first two bytes of a masked text frame with a two-byte length. -/
theorem not_decodeFrame_returns_twoBytes :
    ¬ ∃ decoded, decodeFrame [0x81, 0xFE] = .ok decoded ∧
      checkedDecodeFrame [0x81, 0xFE] = .ok decoded := by
  have hthrows : decodeFrame [0x81, 0xFE] = .error .outOfRange := by decide
  rintro ⟨decoded, hdecoded, -⟩
  rw [hthrows] at hdecoded
  cases hdecoded

/-! ## The two decoders -/

/-- The key of a masked frame, cut out of its bytes. -/
theorem take_drop_wire {f : Frame} {m : Mask} (hmask : f.mask = some m) :
    (f.wire.drop (lenOffset f.secondByte)).take 4 = m.bytes := by
  have hwire : f.wire = (f.first_byte :: f.secondByte :: f.form.extended f.payload.length) ++
      (m.bytes ++ f.body) := by
    simp [Frame.wire, Frame.header, hmask]
  have hlen : (f.first_byte :: f.secondByte :: f.form.extended f.payload.length).length =
      lenOffset f.secondByte := by
    rw [f.lenOffset_secondByte, List.length_cons, List.length_cons]
    omega
  rw [hwire, List.drop_left' hlen]
  exact List.take_left' rfl

/-- Behind its header a frame has its payload. -/
theorem restPayload_wire (f : Frame) : restPayload f.wire = f.payload := by
  have hbody : f.wire.drop (frameHeaderLen f.wire) = f.body :=
    List.drop_left' f.length_header
  have hsecond : f.wire.getD 1 0 = f.secondByte := rfl
  rw [restPayload, hbody, hsecond, f.masked_secondByte]
  cases hmask : f.mask with
  | none => simp [Frame.body, hmask]
  | some m =>
    -- the same byte of the key twice
    rw [take_drop_wire hmask]
    refine List.ext_getElem (by simp) fun i hi hi' => ?_
    simp only [Option.isSome_some, if_true, List.getD_eq_getElem?_getD, Frame.body, hmask,
      List.mapIdx_mapIdx, List.getElem_mapIdx, Function.comp_apply]
    rw [UInt8.xor_assoc, UInt8.xor_self, UInt8.xor_zero]

/-- A whole frame is decoded into its payload. -/
theorem decodeFrame_wire (f : Frame) : decodeFrame f.wire = .ok f.payload := by
  have hhead : frameHeaderLen f.wire = headerLen f.secondByte := rfl
  have hlen := f.length_wire
  have htwo := two_le_headerLen f.secondByte
  have hoffset : lenOffset f.secondByte ≤ headerLen f.secondByte := by
    rw [headerLen]
    split <;> omega
  have hends : ¬ EndsBeforeMask f.wire := fun h => by
    have : f.wire.length < lenOffset f.secondByte := h.2.2
    omega
  rw [decodeFrame_eq, if_neg hends, if_neg (by omega), restPayload_wire]

/-- On a whole text or binary frame both decoders return its payload. -/
theorem decoders_agree {f : Frame} (hdata : opcode f.first_byte = 1 ∨ opcode f.first_byte = 2)
    (hmax : f.wire.length ≤ maxSize) :
    decodeFrame f.wire = .ok f.payload ∧ decodeFrames f.wire = .ok [f.payload] := by
  have hframes := @decodeFrames_wire [f] [] incomplete_nil (by simpa using hmax)
  have hdelivered : [f].flatMap Frame.delivered = [f.payload] := by
    simp [Frame.delivered, hdata]
  rw [hdelivered, List.flatMap_singleton, List.append_nil] at hframes
  exact ⟨decodeFrame_wire f, hframes⟩

/-- A masked text frame with its length in two bytes. -/
theorem decoders_agree_okFrame :
    decodeFrame okFrame.wire = .ok (lit "ok") ∧ decodeFrames okFrame.wire = .ok [lit "ok"] :=
  @decoders_agree okFrame (by decide) (by decide)

end WebSocketHandler
