import Akkon.Network.Protocols.WebSocketHandler

/-!
# What one pass of the frame decoder does

`decodeStep` described by the bytes in front of it. For the bytes `s` from the current index on,

* `frameHeaderLen s` and `declaredLen s` are the header length and the payload length the header
  declares, over the natural numbers;
* `framePayload s` is the payload, unmasked.

`decodeStep_eq` is the whole specification of a pass: it stops at an incomplete header, throws
`length_error` when the declared size does not fit 64 bits, stops at an incomplete payload, and
takes the frame otherwise. Later modules use it instead of unfolding `decodeStep`.
-/

namespace WebSocketHandler

open Cpp

/-- The header length of the frame at the head of `s`. -/
def frameHeaderLen (s : Bytes) : ℕ := headerLen (s.getD 1 0)

/-- The payload length the header at the head of `s` declares. -/
def declaredLen (s : Bytes) : ℕ :=
  if shortLength (s.getD 1 0) = 126 then ((s.getD 2 0).toNat <<< 8) ||| (s.getD 3 0).toNat
  else if shortLength (s.getD 1 0) = 127 then
    ((List.range 8).map fun i => s.getD (2 + i) 0).foldl pushByte 0
  else shortLength (s.getD 1 0)

/-- The mask of the frame at the head of `s`. -/
def frameMask (s : Bytes) : List UInt8 :=
  if masked (s.getD 1 0) then (List.range 4).map fun i => s.getD (lenOffset (s.getD 1 0) + i) 0
  else [0, 0, 0, 0]

/-- The payload of the frame at the head of `s`. -/
def framePayload (s : Bytes) : Bytes :=
  (List.range (declaredLen s)).map fun i =>
    let b := s.getD (frameHeaderLen s + i) 0
    if masked (s.getD 1 0) then b ^^^ (frameMask s).getD (i % 4) 0 else b

/-- The payloads a frame adds: its own when it is a text or a binary frame. -/
def deliver (s : Bytes) : List Bytes :=
  if opcode (s.getD 0 0) = 1 ∨ opcode (s.getD 0 0) = 2 then [framePayload s] else []

@[simp]
theorem length_framePayload (s : Bytes) : (framePayload s).length = declaredLen s := by
  simp [framePayload]

theorem length_le_of_mem_deliver {s p : Bytes} (h : p ∈ deliver s) : p.length = declaredLen s := by
  rw [deliver] at h
  split at h
  · simp [List.mem_singleton.mp h]
  · simp at h

/-! ## Bounds on the header fields -/

theorem lenOffset_mem (b : UInt8) : lenOffset b = 2 ∨ lenOffset b = 4 ∨ lenOffset b = 10 := by
  unfold lenOffset
  split_ifs <;> simp

theorem two_le_headerLen (b : UInt8) : 2 ≤ headerLen b := by
  unfold headerLen
  rcases lenOffset_mem b with h | h | h <;> split_ifs <;> omega

theorem headerLen_le (b : UInt8) : headerLen b ≤ 14 := by
  unfold headerLen
  rcases lenOffset_mem b with h | h | h <;> split_ifs <;> omega

theorem shortLength_lt (b : UInt8) : shortLength b < 128 := by
  have h : (b &&& 0x7F).toNat ≤ 0x7F := by
    rw [UInt8.toNat_and]
    exact Nat.and_le_right
  unfold shortLength
  omega

/-- A length read byte by byte fits 64 bits. -/
theorem pushByte_lt (n : ℕ) (b : UInt8) : pushByte n b < 2 ^ 64 := by
  refine Nat.or_lt_two_pow (Nat.mod_lt _ (by decide)) ?_
  exact lt_of_lt_of_le b.toNat_lt (by decide)

theorem declaredLen_lt (s : Bytes) : declaredLen s < 2 ^ 64 := by
  unfold declaredLen
  split_ifs with h126 h127
  · refine Nat.or_lt_two_pow ?_ (lt_of_lt_of_le (UInt8.toNat_lt _) (by decide))
    have := (s.getD 2 0).toNat_lt
    rw [Nat.shiftLeft_eq]
    omega
  · simp only [List.range_succ, List.map_append, List.foldl_append, List.map_cons, List.map_nil,
      List.foldl_cons, List.foldl_nil]
    exact pushByte_lt _ _
  · have := shortLength_lt (s.getD 1 0)
    omega

/-! ## The header alone -/

theorem getD_take {s : Bytes} {d i : ℕ} (h : i < d) : (s.take d).getD i 0 = s.getD i 0 := by
  rw [List.getD_eq_getElem?_getD, List.getElem?_take_of_lt h, List.getD_eq_getElem?_getD]

/-- The header length is read from the first two bytes. -/
theorem frameHeaderLen_take {s : Bytes} {d : ℕ} (h : 2 ≤ d) :
    frameHeaderLen (s.take d) = frameHeaderLen s := by
  rw [frameHeaderLen, getD_take (by omega), frameHeaderLen]

/-- The declared length is read from the header. -/
theorem declaredLen_take {s : Bytes} {d : ℕ} (h : frameHeaderLen s ≤ d) :
    declaredLen (s.take d) = declaredLen s := by
  have hlen : lenOffset (s.getD 1 0) ≤ d := by
    refine le_trans ?_ h
    unfold frameHeaderLen headerLen
    split_ifs <;> omega
  have htwo : 2 ≤ d := le_trans (two_le_headerLen _) h
  unfold declaredLen
  rw [getD_take (by omega)]
  unfold lenOffset at hlen
  split_ifs at hlen ⊢ with h126 h127
  · rw [getD_take (by omega), getD_take (by omega)]
  · congr 1
    refine List.map_congr_left fun i hi => getD_take ?_
    have := List.mem_range.mp hi
    omega
  · rfl

/-! ## Reads inside the buffer -/

theorem readByte_eq_ok {buffer : Bytes} {j : ℕ} (h : j < buffer.length) :
    readByte buffer j = .ok (buffer.getD j 0) := by
  simp [readByte, List.getElem?_eq_getElem h]

/-- A loop whose passes all succeed collects their results. -/
theorem mapM_eq_ok {ε α β : Type} {f : α → Except ε β} {g : α → β} {l : List α}
    (h : ∀ x ∈ l, f x = .ok (g x)) : l.mapM f = .ok (l.map g) := by
  induction l with
  | nil => rfl
  | cons x l ih =>
    rw [List.mapM_cons, h x (by simp), ih fun y hy => h y (by simp [hy])]
    rfl

variable {buffer : Bytes} {k : ℕ}

theorem getD_drop_eq (i : ℕ) : buffer.getD (k + i) 0 = (buffer.drop k).getD i 0 := by
  simp [List.getD_eq_getElem?_getD]

/-- `n` bytes read in order from `k + i` on, when they are all there. -/
theorem mapM_readByte {i n : ℕ} (h : k + i + n ≤ buffer.length) :
    (List.range n).mapM (fun j => readByte buffer (k + i + j)) =
      .ok ((List.range n).map fun j => (buffer.drop k).getD (i + j) 0) := by
  refine mapM_eq_ok fun j hj => ?_
  rw [readByte_eq_ok (by simp at hj; omega), Nat.add_assoc, getD_drop_eq]

theorem readLength_eq (h : k + frameHeaderLen (buffer.drop k) ≤ buffer.length) :
    readLength buffer k ((buffer.drop k).getD 1 0) = .ok (declaredLen (buffer.drop k)) := by
  -- the length bytes lie in the header
  have hoff : k + lenOffset ((buffer.drop k).getD 1 0) ≤ buffer.length := by
    refine le_trans ?_ h
    unfold frameHeaderLen headerLen
    split_ifs <;> omega
  unfold readLength declaredLen
  unfold lenOffset at hoff
  split_ifs at hoff ⊢ with h126 h127
  · rw [readByte_eq_ok (by omega), readByte_eq_ok (by omega), getD_drop_eq, getD_drop_eq]
    rfl
  · rw [mapM_readByte (by omega)]
    rfl
  · rfl

theorem readMask_eq (h : k + frameHeaderLen (buffer.drop k) ≤ buffer.length) :
    readMask buffer k ((buffer.drop k).getD 1 0) = .ok (frameMask (buffer.drop k)) := by
  unfold readMask frameMask
  unfold frameHeaderLen headerLen at h
  split_ifs at h ⊢ with hm
  · exact mapM_readByte (by omega)
  · rfl

theorem readPayload_eq (hmax : declaredLen (buffer.drop k) ≤ maxSize)
    (h : k + frameHeaderLen (buffer.drop k) + declaredLen (buffer.drop k) ≤ buffer.length) :
    readPayload buffer (k + frameHeaderLen (buffer.drop k)) (declaredLen (buffer.drop k))
      ((buffer.drop k).getD 1 0) (frameMask (buffer.drop k)) =
        .ok (framePayload (buffer.drop k)) := by
  rw [readPayload, if_neg (by omega)]
  refine mapM_eq_ok fun i hi => ?_
  rw [readByte_eq_ok (by simp at hi; omega), Nat.add_assoc, getD_drop_eq]
  rfl

/-! ## The specification of a pass -/

/-- A pass with the first two bytes of the header read. -/
theorem decodeStep_of_header {left : ℕ} {payloads : List Bytes} (h : k + 2 ≤ buffer.length) :
    decodeStep buffer ⟨k, left, payloads⟩ =
      if left < frameHeaderLen (buffer.drop k) then .ok none else do
        let payload_len ← readLength buffer k ((buffer.drop k).getD 1 0)
        let mask ← readMask buffer k ((buffer.drop k).getD 1 0)
        let frame_size := wrap64 (frameHeaderLen (buffer.drop k) + payload_len)
        if left < frame_size then return none
        let payload ← readPayload buffer (k + frameHeaderLen (buffer.drop k)) payload_len
          ((buffer.drop k).getD 1 0) mask
        return some
          { index := wrap64 (k + frame_size)
            bytes_left := left - frame_size
            payloads := if opcode ((buffer.drop k).getD 0 0) = 1 ∨
              opcode ((buffer.drop k).getD 0 0) = 2 then payloads ++ [payload] else payloads } := by
  have hfirst : readByte buffer k = .ok ((buffer.drop k).getD 0 0) := by
    rw [readByte_eq_ok (by omega), ← getD_drop_eq, Nat.add_zero]
  have hsecond : readByte buffer (k + 1) = .ok ((buffer.drop k).getD 1 0) := by
    rw [readByte_eq_ok (by omega), getD_drop_eq]
  simp only [decodeStep, hfirst, hsecond, frameHeaderLen]
  rfl

/-- One pass of the loop, for counters that add up to the size of the buffer. -/
theorem decodeStep_eq {st : DecodeState} (hsum : st.index + st.bytes_left = buffer.length)
    (hmax : buffer.length ≤ maxSize) (htwo : 2 ≤ st.bytes_left) :
    decodeStep buffer st =
      let s := buffer.drop st.index
      if st.bytes_left < frameHeaderLen s then .ok none
      else if 2 ^ 64 ≤ frameHeaderLen s + declaredLen s then .error (.threw .lengthError)
      else if st.bytes_left < frameHeaderLen s + declaredLen s then .ok none
      else .ok (some
        { index := st.index + (frameHeaderLen s + declaredLen s)
          bytes_left := st.bytes_left - (frameHeaderLen s + declaredLen s)
          payloads := st.payloads ++ deliver s }) := by
  obtain ⟨k, left, payloads⟩ := st
  simp only at hsum htwo ⊢
  have hmax64 : maxSize < 2 ^ 64 - 14 := by decide
  rw [decodeStep_of_header (by omega)]
  -- the three tests of the pass in turn
  by_cases hhead : left < frameHeaderLen (buffer.drop k)
  · rw [if_pos hhead, if_pos hhead]
  rw [if_neg hhead, if_neg hhead, readLength_eq (by omega), readMask_eq (by omega)]
  have hle14 : frameHeaderLen (buffer.drop k) ≤ 14 := headerLen_le _
  have hlt := declaredLen_lt (buffer.drop k)
  by_cases hover : 2 ^ 64 ≤ frameHeaderLen (buffer.drop k) + declaredLen (buffer.drop k)
  · -- the 64-bit sum wraps below the header length, so the size test passes
    rw [if_pos hover]
    have hwrap : wrap64 (frameHeaderLen (buffer.drop k) + declaredLen (buffer.drop k)) =
        frameHeaderLen (buffer.drop k) + declaredLen (buffer.drop k) - 2 ^ 64 := by
      unfold wrap64
      omega
    have htest :
        ¬ left < frameHeaderLen (buffer.drop k) + declaredLen (buffer.drop k) - 2 ^ 64 := by
      omega
    have hthrow : maxSize < declaredLen (buffer.drop k) := by omega
    simp only [bind, Except.bind, hwrap, if_neg htest, readPayload, if_pos hthrow]
  · rw [if_neg hover]
    have hwrap : wrap64 (frameHeaderLen (buffer.drop k) + declaredLen (buffer.drop k)) =
        frameHeaderLen (buffer.drop k) + declaredLen (buffer.drop k) := wrap64_of_lt (by omega)
    by_cases hbody : left < frameHeaderLen (buffer.drop k) + declaredLen (buffer.drop k)
    · simp only [bind, Except.bind, hwrap, if_pos hbody]
      rfl
    · have hindex : wrap64 (k + (frameHeaderLen (buffer.drop k) + declaredLen (buffer.drop k))) =
          k + (frameHeaderLen (buffer.drop k) + declaredLen (buffer.drop k)) :=
        wrap64_of_lt (by omega)
      have hpayload : readPayload buffer (k + frameHeaderLen (buffer.drop k))
          (declaredLen (buffer.drop k)) ((buffer.drop k).getD 1 0) (frameMask (buffer.drop k)) =
            .ok (framePayload (buffer.drop k)) := readPayload_eq (by omega) (by omega)
      simp only [bind, Except.bind, hwrap, if_neg hbody, hpayload, hindex, deliver, pure,
        Except.pure]
      split_ifs <;> simp

end WebSocketHandler
