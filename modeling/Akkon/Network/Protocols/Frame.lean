import Akkon.Network.Protocols.DecodeSafety

/-!
# The frame format, and what `decodeFrames` makes of a stream of frames

`Frame` is a frame as the protocol defines it: the first byte (FIN, the RSV bits and the opcode), an
optional mask, one of the three length forms, and a payload that the form can express. `Frame.wire`
is its encoding.

* `framePayload_wire`: the header functions of the decoder read a frame's own fields back;
* `decodeFrames_wire`: a stream of frames, followed by a part of one more frame, is decoded into the
  payloads of its text and binary frames, in order;
* `decodeFrames_take_wire`: the part can be any proper prefix of a frame;
* `decodeChunks`: the calls the data handler makes, one for each `recv`;
* `decodeFrames_cut`, `payload_eq_of_cut`: a frame that is cut is not delivered by its first chunk,
  and the later ones deliver it for at most one of the messages with the same rest;
* `decodeChunks_of_aligned`: cutting a stream of masked text frames between frames loses nothing.
-/

namespace WebSocketHandler

open Cpp

/-! ## Frames -/

/-- The `k` bytes of `n`, most significant first. -/
def beBytes : ℕ → ℕ → Bytes
  | 0, _ => []
  | k + 1, n => beBytes k (n / 256) ++ [(n % 256).toUInt8]

/-- The three ways a header gives the payload length: seven bits, two bytes, or eight bytes. -/
inductive LengthForm
  | short
  | medium
  | long
  deriving DecidableEq, Repr

namespace LengthForm

/-- The lengths below this bound can be given in the form. -/
def bound : LengthForm → ℕ
  | short => 126
  | medium => 2 ^ 16
  | long => 2 ^ 64

/-- The seven length bits of the second byte. -/
def code : LengthForm → ℕ → ℕ
  | short, n => n
  | medium, _ => 126
  | long, _ => 127

/-- The length bytes behind the second byte. -/
def extended : LengthForm → ℕ → Bytes
  | short, _ => []
  | medium, n => beBytes 2 n
  | long, n => beBytes 8 n

end LengthForm

/-- A masking key. -/
structure Mask where
  m0 : UInt8
  m1 : UInt8
  m2 : UInt8
  m3 : UInt8
  deriving DecidableEq, Repr

/-- The four bytes of the key. -/
def Mask.bytes (m : Mask) : Bytes := [m.m0, m.m1, m.m2, m.m3]

/-- A frame. Its length form can express the length of its payload. -/
structure Frame where
  /-- FIN, RSV and opcode bits. -/
  first_byte : UInt8
  /-- The masking key of a masked frame. -/
  mask : Option Mask
  /-- How the payload length is given; not necessarily the shortest way. -/
  form : LengthForm
  payload : Bytes
  length_lt : payload.length < form.bound

namespace Frame

variable (f : Frame)

/-- The mask bit and the seven length bits. -/
def secondByte : UInt8 :=
  (if f.mask.isSome then 0x80 else 0) ||| (f.form.code f.payload.length).toUInt8

/-- The header. -/
def header : Bytes :=
  f.first_byte :: f.secondByte ::
    (f.form.extended f.payload.length ++ (f.mask.map Mask.bytes).getD [])

/-- The payload as it is sent. -/
def body : Bytes :=
  match f.mask with
  | none => f.payload
  | some m => f.payload.mapIdx fun i c => c ^^^ m.bytes.getD (i % 4) 0

/-- The bytes of the frame. -/
def wire : Bytes := f.header ++ f.body

/-- The payloads the decoder is to return for the frame. -/
def delivered : List Bytes :=
  if opcode f.first_byte = 1 ∨ opcode f.first_byte = 2 then [f.payload] else []

/-- A masked text frame, the kind of frame a browser sends for a string. -/
def IsMaskedText : Prop := opcode f.first_byte = 1 ∧ f.mask.isSome

end Frame

/-! ## The header of a frame, read back -/

@[simp]
theorem length_beBytes (k n : ℕ) : (beBytes k n).length = k := by
  induction k generalizing n with
  | zero => rfl
  | succ k ih => simp [beBytes, ih]

/-- One more byte, shifted in. -/
theorem pushByte_eq {n : ℕ} {b : UInt8} (h : n < 2 ^ 56) : pushByte n b = n * 256 + b.toNat := by
  have hshift : n <<< 8 = n * 256 := Nat.shiftLeft_eq n 8
  rw [pushByte, wrap64_of_lt (by omega), ← Nat.shiftLeft_add_eq_or_of_lt b.toNat_lt, hshift]

/-- Reading the bytes back gives the number. -/
theorem foldl_pushByte_beBytes {k n : ℕ} (hk : k ≤ 8) (h : n < 256 ^ k) :
    (beBytes k n).foldl pushByte 0 = n := by
  induction k generalizing n with
  | zero => simp_all [beBytes]
  | succ k ih =>
    have hdiv : n / 256 < 256 ^ k := by
      rw [Nat.div_lt_iff_lt_mul (by decide), ← Nat.pow_succ]
      exact h
    -- the bytes in front leave room for one more in 64 bits
    have hsmall : n / 256 < 2 ^ 56 := by
      refine lt_of_lt_of_le hdiv ?_
      calc 256 ^ k ≤ 256 ^ 7 := Nat.pow_le_pow_right (by decide) (by omega)
        _ = 2 ^ 56 := by decide
    have hlast : ((n % 256).toUInt8).toNat = n % 256 := by
      simp [Nat.toUInt8]
    rw [beBytes, List.foldl_append, ih (by omega) hdiv, List.foldl_cons, List.foldl_nil,
      pushByte_eq hsmall, hlast]
    omega

theorem shortLength_or (b : Bool) (c : Fin 128) :
    shortLength ((if b then 0x80 else 0) ||| c.val.toUInt8) = c := by
  revert b c
  decide

theorem masked_or (b : Bool) (c : Fin 128) :
    masked ((if b then 0x80 else 0) ||| c.val.toUInt8) = b := by
  revert b c
  decide

namespace Frame

variable (f : Frame) (rest : Bytes)

/-- The three forms and their length bits. -/
theorem code_cases :
    (f.form = .short ∧ f.form.code f.payload.length = f.payload.length ∧ f.payload.length < 126) ∨
      (f.form = .medium ∧ f.form.code f.payload.length = 126 ∧ f.payload.length < 2 ^ 16) ∨
      (f.form = .long ∧ f.form.code f.payload.length = 127 ∧ f.payload.length < 2 ^ 64) := by
  have h := f.length_lt
  cases hform : f.form <;> rw [hform] at h
  · exact .inl ⟨rfl, rfl, h⟩
  · exact .inr (.inl ⟨rfl, rfl, h⟩)
  · exact .inr (.inr ⟨rfl, rfl, h⟩)

theorem code_lt : f.form.code f.payload.length < 128 := by
  rcases f.code_cases with ⟨-, hcode, hlt⟩ | ⟨-, hcode, -⟩ | ⟨-, hcode, -⟩ <;> omega

theorem shortLength_secondByte : shortLength f.secondByte = f.form.code f.payload.length :=
  shortLength_or f.mask.isSome ⟨_, f.code_lt⟩

theorem masked_secondByte : masked f.secondByte = f.mask.isSome :=
  masked_or f.mask.isSome ⟨_, f.code_lt⟩

theorem lenOffset_secondByte :
    lenOffset f.secondByte = 2 + (f.form.extended f.payload.length).length := by
  rw [lenOffset, shortLength_secondByte]
  rcases f.code_cases with ⟨hform, hcode, hlt⟩ | ⟨hform, hcode, -⟩ | ⟨hform, hcode, -⟩
  · rw [hcode, if_neg (by omega), if_neg (by omega), hform]
    rfl
  · rw [hcode, if_pos rfl, hform]
    simp [LengthForm.extended]
  · rw [hcode, if_neg (by decide), if_pos rfl, hform]
    simp [LengthForm.extended]

@[simp]
theorem getD_zero_wire : (f.wire ++ rest).getD 0 0 = f.first_byte := rfl

@[simp]
theorem getD_one_wire : (f.wire ++ rest).getD 1 0 = f.secondByte := rfl

theorem length_header : f.header.length = headerLen f.secondByte := by
  rw [headerLen, masked_secondByte, lenOffset_secondByte, header]
  cases f.mask with
  | none =>
    simp
    omega
  | some m =>
    simp [Mask.bytes]
    omega

@[simp]
theorem length_body : f.body.length = f.payload.length := by
  rw [body]
  cases f.mask <;> simp

theorem length_wire : f.wire.length = headerLen f.secondByte + f.payload.length := by
  rw [wire, List.length_append, length_header, length_body]

theorem frameHeaderLen_wire : frameHeaderLen (f.wire ++ rest) = headerLen f.secondByte := by
  rw [frameHeaderLen, getD_one_wire]

/-- Byte `i` behind the second byte, while it is in the length or the mask. -/
theorem getD_ext (i : ℕ) :
    (f.wire ++ rest).getD (2 + i) 0 =
      (f.form.extended f.payload.length ++
        ((f.mask.map Mask.bytes).getD [] ++ (f.body ++ rest))).getD i 0 := by
  rw [Nat.add_comm]
  simp [wire, header, List.getD_eq_getElem?_getD]

theorem declaredLen_wire : declaredLen (f.wire ++ rest) = f.payload.length := by
  -- the bytes behind the second one are those of the extended length
  have hread {k : ℕ} (hk : (f.form.extended f.payload.length).length = k) :
      ((List.range k).map fun i => (f.wire ++ rest).getD (2 + i) 0) =
        f.form.extended f.payload.length := by
    refine List.ext_getElem (by simp [hk]) fun i hi _ => ?_
    have hik : i < (f.form.extended f.payload.length).length := by simpa [hk] using hi
    rw [List.getElem_map, List.getElem_range, getD_ext, List.getD_eq_getElem?_getD,
      List.getElem?_append_left hik, List.getElem?_eq_getElem hik]
    rfl
  rw [declaredLen, getD_one_wire, shortLength_secondByte]
  rcases f.code_cases with ⟨-, hcode, hlt⟩ | ⟨hform, hcode, hlt⟩ | ⟨hform, hcode, hlt⟩
  · rw [hcode, if_neg (by omega), if_neg (by omega)]
  · rw [hform] at hread
    have hbytes := hread (k := 2) (length_beBytes 2 _)
    have hval := foldl_pushByte_beBytes (k := 2) (by decide) hlt
    have h2 := ((f.wire ++ rest).getD 2 0).toNat_lt
    rw [hcode, if_pos rfl, ← Nat.shiftLeft_add_eq_or_of_lt (UInt8.toNat_lt _), Nat.shiftLeft_eq]
    simp only [LengthForm.extended] at hbytes
    simp only [← hbytes, List.range_succ, List.range_zero, List.nil_append, List.map_cons,
      List.map_nil, List.cons_append, List.foldl_cons, List.foldl_nil, Nat.add_zero] at hval
    rw [pushByte_eq (n := 0) (by decide), Nat.zero_mul, Nat.zero_add,
      pushByte_eq (by omega)] at hval
    exact hval
  · rw [hform] at hread
    have hbytes := hread (k := 8) (length_beBytes 8 _)
    have hval := foldl_pushByte_beBytes (k := 8) le_rfl hlt
    simp only [LengthForm.extended] at hbytes
    rw [hcode, if_neg (by decide), if_pos rfl, hbytes]
    exact hval

theorem frameMask_wire :
    frameMask (f.wire ++ rest) = (f.mask.map Mask.bytes).getD [0, 0, 0, 0] := by
  rw [frameMask, getD_one_wire, masked_secondByte, lenOffset_secondByte]
  cases hmask : f.mask with
  | none => rfl
  | some m =>
    -- the mask lies behind the extended length
    have hbyte (i : ℕ) (hi : i < 4) :
        (f.wire ++ rest).getD (2 + (f.form.extended f.payload.length).length + i) 0 =
          m.bytes.getD i 0 := by
      have hlen : i < m.bytes.length := hi
      rw [Nat.add_assoc, getD_ext, hmask, List.getD_eq_getElem?_getD,
        List.getElem?_append_right (by omega), Nat.add_sub_cancel_left]
      simp [List.getElem?_append_left hlen]
    simp only [Option.isSome_some, if_true, Option.map_some, Option.getD_some]
    simp only [List.range_succ, List.range_zero, List.nil_append, List.cons_append, List.map_cons,
      List.map_nil]
    rw [hbyte 0 (by decide), hbyte 1 (by decide), hbyte 2 (by decide), hbyte 3 (by decide)]
    rfl

/-- Byte `i` of the payload as it is sent. -/
theorem getD_body {i : ℕ} (hi : i < f.payload.length) :
    (f.wire ++ rest).getD (headerLen f.secondByte + i) 0 = f.body.getD i 0 := by
  rw [← length_header, wire, List.append_assoc, List.getD_eq_getElem?_getD,
    List.getElem?_append_right (by omega), Nat.add_sub_cancel_left,
    List.getElem?_append_left (by simpa using hi), List.getD_eq_getElem?_getD]

/-- The decoder unmasks a frame's payload. -/
theorem framePayload_wire : framePayload (f.wire ++ rest) = f.payload := by
  refine List.ext_getElem (by simp [declaredLen_wire]) fun i hi hi' => ?_
  simp only [framePayload, List.getElem_map, List.getElem_range]
  rw [frameHeaderLen_wire, getD_body f rest hi', getD_one_wire, masked_secondByte, frameMask_wire]
  cases hmask : f.mask with
  | none => simp [body, hmask, hi']
  | some m =>
    simp only [Option.isSome_some, if_true, body, hmask, List.getD_eq_getElem?_getD,
      List.length_mapIdx, hi', getElem?_pos, List.getElem_mapIdx, Option.getD_some, Option.map_some]
    rw [UInt8.xor_assoc, UInt8.xor_self, UInt8.xor_zero]

theorem deliver_wire : deliver (f.wire ++ rest) = f.delivered := by
  rw [deliver, getD_zero_wire, framePayload_wire, delivered]

/-- A masked text frame delivers its payload. -/
theorem delivered_of_isMaskedText {f : Frame} (h : f.IsMaskedText) : f.delivered = [f.payload] :=
  if_pos (.inl h.1)

end Frame

/-! ## Streams of frames -/

/-- Bytes that do not hold one whole frame: a part of a header, or a whole header that declares more
than there is. -/
def Incomplete (tail : Bytes) : Prop :=
  tail.length < frameHeaderLen tail ∨
    (frameHeaderLen tail + declaredLen tail < 2 ^ 64 ∧
      tail.length < frameHeaderLen tail + declaredLen tail)

theorem incomplete_nil : Incomplete [] := .inl (by decide)

/-- The first bytes of a frame are incomplete: its header, or its payload, is not there in full. -/
theorem Frame.incomplete_take_wire (f : Frame) {d : ℕ} (hd : d < f.wire.length)
    (h64 : f.wire.length < 2 ^ 64) : Incomplete (f.wire.take d) := by
  have hhead : frameHeaderLen f.wire = headerLen f.secondByte := rfl
  have hlen := f.length_wire
  have htake : (f.wire.take d).length = d := List.length_take_of_le hd.le
  by_cases hpart : d < headerLen f.secondByte
  · refine .inl ?_
    rw [htake]
    by_cases htwo : 2 ≤ d
    · rwa [frameHeaderLen_take htwo, hhead]
    · exact lt_of_lt_of_le (by omega) (two_le_headerLen _)
  · have htwo := two_le_headerLen f.secondByte
    have hdeclared : declaredLen (f.wire.take d) = f.payload.length := by
      rw [declaredLen_take (by omega)]
      simpa using f.declaredLen_wire []
    refine .inr ?_
    rw [frameHeaderLen_take (by omega), hhead, hdeclared, htake]
    omega

/-- The loop takes the frames in front of it one by one, one unit of fuel each. -/
theorem decodeLoop_frames {buffer rest : Bytes} (hmax : buffer.length ≤ maxSize)
    {frames : List Frame} {fuel : ℕ} {st : DecodeState}
    (hsum : st.index + st.bytes_left = buffer.length)
    (hdrop : buffer.drop st.index = frames.flatMap Frame.wire ++ rest) :
    decodeLoop buffer (fuel + frames.length) st =
      decodeLoop buffer fuel ⟨st.index + (frames.flatMap Frame.wire).length, rest.length,
        st.payloads ++ frames.flatMap Frame.delivered⟩ := by
  have hleft : st.bytes_left = (buffer.drop st.index).length := by
    rw [List.length_drop]
    omega
  induction frames generalizing st with
  | nil =>
    obtain ⟨index, left, payloads⟩ := st
    simp only [List.flatMap_nil, List.nil_append] at hdrop hleft
    simp [hleft, hdrop]
  | cons f frames ih =>
    rw [List.flatMap_cons, List.append_assoc] at hdrop
    have hsize : f.wire.length ≤ st.bytes_left := by
      rw [hleft, hdrop, List.length_append]
      omega
    have hmax64 : maxSize < 2 ^ 64 := by decide
    have htwo := two_le_headerLen f.secondByte
    have hlen := f.length_wire
    -- one pass takes the first frame
    have hstep : decodeStep buffer st = .ok (some ⟨st.index + f.wire.length,
        st.bytes_left - f.wire.length, st.payloads ++ f.delivered⟩) := by
      rw [decodeStep_eq hsum hmax (by omega), hdrop]
      simp only [Frame.frameHeaderLen_wire, Frame.declaredLen_wire, Frame.deliver_wire, ← hlen]
      rw [if_neg (by omega), if_neg (by omega), if_neg (by omega)]
    have hrest : buffer.drop (st.index + f.wire.length) = frames.flatMap Frame.wire ++ rest := by
      rw [← List.drop_drop, hdrop, List.drop_left]
    rw [List.length_cons, ← Nat.add_assoc, decodeLoop, if_neg (by omega), hstep]
    simp only
    rw [ih (by simp only; omega) hrest (by simp only [List.length_drop]; omega)]
    simp [Nat.add_assoc]

/-- Each frame takes at least two bytes. -/
theorem length_le_length_flatMap_wire (frames : List Frame) :
    frames.length ≤ (frames.flatMap Frame.wire).length := by
  induction frames with
  | nil => simp
  | cons f frames ih =>
    have htwo := two_le_headerLen f.secondByte
    have hlen := f.length_wire
    rw [List.flatMap_cons, List.length_append, List.length_cons]
    omega

/-- In front of an incomplete frame the loop stops. -/
theorem decodeLoop_incomplete {buffer : Bytes} (hmax : buffer.length ≤ maxSize) {fuel : ℕ}
    {st : DecodeState} (hsum : st.index + st.bytes_left = buffer.length)
    (htail : Incomplete (buffer.drop st.index)) :
    decodeLoop buffer (fuel + 1) st = .ok st.payloads := by
  have hleft : st.bytes_left = (buffer.drop st.index).length := by
    rw [List.length_drop]
    omega
  rw [decodeLoop]
  by_cases hend : st.bytes_left < 2
  · rw [if_pos hend]
  · rw [if_neg hend, decodeStep_eq hsum hmax (by omega)]
    simp only
    -- the header is cut, or the payload behind it
    rcases htail with hhead | ⟨hfit, hbody⟩
    · rw [if_pos (by omega)]
    · split_ifs with hhead hover
      · rfl
      · omega
      · rfl
      · omega

/-- The state behind the frames at the head of a buffer, with fuel to spare. -/
theorem decodeFrames_eq_of_frames {frames : List Frame} {rest : Bytes}
    (hmax : (frames.flatMap Frame.wire ++ rest).length ≤ maxSize) :
    ∃ fuel, rest.length < fuel ∧ decodeFrames (frames.flatMap Frame.wire ++ rest) =
      decodeLoop (frames.flatMap Frame.wire ++ rest) fuel
        ⟨(frames.flatMap Frame.wire).length, rest.length, frames.flatMap Frame.delivered⟩ := by
  have hle := length_le_length_flatMap_wire frames
  obtain ⟨fuel, hfuel, hrest⟩ : ∃ fuel,
      (frames.flatMap Frame.wire ++ rest).length + 1 = fuel + frames.length ∧
        rest.length < fuel := by
    refine ⟨(frames.flatMap Frame.wire).length - frames.length + rest.length + 1, ?_, by omega⟩
    rw [List.length_append]
    omega
  refine ⟨fuel, hrest, ?_⟩
  rw [decodeFrames, hfuel, decodeLoop_frames hmax (Nat.zero_add _) rfl]
  simp [decodeInit]

/-- A stream of frames followed by an incomplete one is decoded into the payloads of the text and
binary frames. -/
theorem decodeFrames_wire {frames : List Frame} {tail : Bytes} (htail : Incomplete tail)
    (hmax : (frames.flatMap Frame.wire ++ tail).length ≤ maxSize) :
    decodeFrames (frames.flatMap Frame.wire ++ tail) = .ok (frames.flatMap Frame.delivered) := by
  obtain ⟨fuel, hfuel, heq⟩ := decodeFrames_eq_of_frames hmax
  obtain ⟨fuel, rfl⟩ : ∃ n, fuel = n + 1 := ⟨fuel - 1, by omega⟩
  rw [heq, decodeLoop_incomplete hmax (by simp)]
  show Incomplete (List.drop _ _)
  rwa [List.drop_left]

/-- Of a frame that is cut off at the end of the buffer nothing is delivered. -/
theorem decodeFrames_cut {frames : List Frame} {f : Frame} {d : ℕ} (hd : d < f.wire.length)
    (hmax : (frames.flatMap Frame.wire ++ f.wire).length ≤ maxSize) :
    decodeFrames (frames.flatMap Frame.wire ++ f.wire.take d) =
      .ok (frames.flatMap Frame.delivered) := by
  rw [List.length_append] at hmax
  have hmax64 : maxSize < 2 ^ 64 := by decide
  refine decodeFrames_wire (f.incomplete_take_wire hd (by omega)) ?_
  rw [List.length_append, List.length_take_of_le hd.le]
  omega

/-- The decoder on any frames and any part of one more frame: the unmasked payloads of the text and
binary frames, in order. The frame at the end need not fit in a string, only in 64 bits. -/
theorem decodeFrames_take_wire {frames : List Frame} {f : Frame} {d : ℕ} (hd : d < f.wire.length)
    (h64 : headerLen f.secondByte + f.payload.length < 2 ^ 64)
    (hmax : (frames.flatMap Frame.wire ++ f.wire.take d).length ≤ maxSize) :
    decodeFrames (frames.flatMap Frame.wire ++ f.wire.take d) =
      .ok (frames.flatMap Frame.delivered) := by
  have hwire := f.incomplete_take_wire hd (by rwa [f.length_wire])
  exact decodeFrames_wire hwire hmax

/-- What masked text frames deliver. -/
theorem flatMap_delivered {frames : List Frame} (htext : ∀ f ∈ frames, f.IsMaskedText) :
    frames.flatMap Frame.delivered = frames.map Frame.payload := by
  rw [List.map_eq_flatMap]
  exact List.flatMap_congr fun f hf => Frame.delivered_of_isMaskedText (htext f hf)

/-! ## One call for each chunk -/

/-- The calls the data handler makes for a client: `decodeFrames` on every chunk, by itself. -/
def decodeChunks (chunks : List Bytes) : Except DecodeFault (List Bytes) := do
  let payloads ← chunks.mapM decodeFrames
  return payloads.flatten

/-- The payloads of a chunk come in front of those of the later ones. -/
theorem decodeChunks_cons {chunk : Bytes} {chunks payloads : List Bytes}
    (h : decodeFrames chunk = .ok payloads) :
    decodeChunks (chunk :: chunks) = (decodeChunks chunks).map (payloads ++ ·) := by
  rw [decodeChunks, List.mapM_cons, h, decodeChunks]
  cases chunks.mapM decodeFrames with
  | error e => rfl
  | ok rest => rfl

/-- Of two messages that only differ in front of a cut at most one is delivered: the later chunks do
not tell them apart. -/
theorem payload_eq_of_cut {frames rest rest' : List Frame} {f f' : Frame} {d : ℕ}
    {chunks : List Bytes} (htext : ∀ g ∈ frames, g.IsMaskedText) (hd : d < f.wire.length)
    (hd' : d < f'.wire.length) (hmax : (frames.flatMap Frame.wire ++ f.wire).length ≤ maxSize)
    (hmax' : (frames.flatMap Frame.wire ++ f'.wire).length ≤ maxSize)
    (h : decodeChunks ((frames.flatMap Frame.wire ++ f.wire.take d) :: chunks) =
      .ok ((frames ++ f :: rest).map Frame.payload))
    (h' : decodeChunks ((frames.flatMap Frame.wire ++ f'.wire.take d) :: chunks) =
      .ok ((frames ++ f' :: rest').map Frame.payload)) : f.payload = f'.payload := by
  rw [decodeChunks_cons (decodeFrames_cut hd hmax), flatMap_delivered htext] at h
  rw [decodeChunks_cons (decodeFrames_cut hd' hmax'), flatMap_delivered htext] at h'
  cases hchunks : decodeChunks chunks with
  | error e =>
    rw [hchunks] at h
    cases h
  | ok payloads =>
    -- both frames would be the first payload of the later chunks
    rw [hchunks] at h h'
    simp only [Except.map, Except.ok.injEq, List.map_append, List.append_cancel_left_eq,
      List.map_cons] at h h'
    rw [h] at h'
    exact (List.cons.inj h').1

/-- `chunks` are the results of consecutive `recv` calls with a 4096-byte buffer on `stream`. -/
structure Received (stream : Bytes) (chunks : List Bytes) : Prop where
  flatten_eq : chunks.flatten = stream
  size_le : ∀ c ∈ chunks, 1 ≤ c.length ∧ c.length ≤ 4096

/-- Every boundary between chunks is a boundary between frames. -/
def AlignedCuts (frames : List Frame) (chunks : List Bytes) : Prop :=
  ∃ groups : List (List Frame), groups.flatten = frames ∧
    chunks = groups.map fun group => group.flatMap Frame.wire

/-- Cutting a stream of masked text frames between frames loses and invents nothing: the chunks give
the payloads of the frames, in order. -/
theorem decodeChunks_of_aligned {frames : List Frame} {chunks : List Bytes}
    (htext : ∀ f ∈ frames, f.IsMaskedText)
    (hrecv : Received (frames.flatMap Frame.wire) chunks) (haligned : AlignedCuts frames chunks) :
    decodeChunks chunks = .ok (frames.map Frame.payload) := by
  obtain ⟨groups, rfl, rfl⟩ := haligned
  -- a chunk is a stream of frames with nothing behind it
  have hchunk : ∀ group ∈ groups, decodeFrames (group.flatMap Frame.wire) =
      .ok (group.map Frame.payload) := by
    intro group hgroup
    have hsize := (hrecv.size_le _ (List.mem_map_of_mem hgroup)).2
    have hmax : 4096 ≤ maxSize := by decide
    have h : decodeFrames (group.flatMap Frame.wire ++ []) = .ok (group.flatMap Frame.delivered) :=
      decodeFrames_wire incomplete_nil (by simpa using hsize.trans hmax)
    rw [List.append_nil] at h
    rw [h, flatMap_delivered fun f hf => htext f (List.mem_flatten.mpr ⟨group, hgroup, hf⟩)]
  have hmap : (groups.map fun group => group.flatMap Frame.wire).mapM decodeFrames =
      .ok (groups.map fun group => group.map Frame.payload) := by
    rw [List.mapM_map]
    exact mapM_eq_ok hchunk
  rw [decodeChunks, hmap]
  simp [bind, Except.bind, pure, Except.pure, List.map_flatten]

/-- The text message `hi`, masked. -/
def hiFrame : Frame := ⟨0x81, some ⟨1, 2, 3, 4⟩, .short, lit "hi", by decide⟩

/-- The text message `ok`, masked, with its length in two bytes. -/
def okFrame : Frame := ⟨0x81, some ⟨5, 6, 7, 8⟩, .medium, lit "ok", by decide⟩

/-- A binary frame, unmasked, with its length in eight bytes. -/
def binaryFrame : Frame := ⟨0x02, none, .long, lit "ab", by decide⟩

/-- A masked ping. -/
def pingFrame : Frame := ⟨0x89, some ⟨9, 9, 9, 9⟩, .short, lit "p", by decide⟩

/-- A binary frame, a ping, and a text frame that is cut in its mask. -/
theorem decodeFrames_take_wire_binaryFrame :
    decodeFrames ([binaryFrame, pingFrame].flatMap Frame.wire ++ hiFrame.wire.take 4) =
      .ok [lit "ab"] :=
  (@decodeFrames_take_wire [binaryFrame, pingFrame] hiFrame 4 (by decide) (by decide)
    (by decide)).trans (by decide)

/-- Three messages in two chunks. -/
theorem decodeChunks_of_aligned_threeFrames :
    decodeChunks [hiFrame.wire ++ okFrame.wire, hiFrame.wire] =
      .ok [lit "hi", lit "ok", lit "hi"] :=
  @decodeChunks_of_aligned [hiFrame, okFrame, hiFrame] _
    (by simp [Frame.IsMaskedText]; decide) ⟨by decide, by decide⟩
    ⟨[[hiFrame, okFrame], [hiFrame]], rfl, by decide⟩

/-- One message cut behind its third byte is lost: neither chunk holds the whole frame. -/
theorem decodeChunks_cut_hiFrame :
    hiFrame.IsMaskedText ∧
      Received hiFrame.wire [hiFrame.wire.take 3, hiFrame.wire.drop 3] ∧
      decodeChunks [hiFrame.wire.take 3, hiFrame.wire.drop 3] ≠ .ok [hiFrame.payload] :=
  ⟨⟨by decide, by decide⟩, ⟨by decide, by decide⟩, by decide⟩

-- A cut inside a frame can also go unnoticed: the rest of this frame happens to hold an unmasked
-- text frame with the same payload.
example : decodeChunks [[0x81], [0x81, 1, 0x40, 0x80, 1, 0x41]] = .ok [[0x40]] ∧
    decodeFrames [0x81, 0x81, 1, 0x40, 0x80, 1, 0x41] = .ok [[0x40]] := by decide

end WebSocketHandler
