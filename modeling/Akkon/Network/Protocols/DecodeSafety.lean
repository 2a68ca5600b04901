import Akkon.Network.Protocols.FrameHeader

/-!
# Memory and exception safety of `decodeFrames`

`DecodeSafe buffer` says that the call returns: no read past the end, no exception and no endless
loop, with payloads no longer than the buffer, and that `index + bytes_left` is the size of the
buffer at the head of every pass.

The size test of the loop adds the header length to an attacker-chosen 64-bit length, and the sum
wraps. `decodeFrames_safe_iff` says exactly which buffers are safe: those in which no header the
loop comes to declares a frame of `2 ^ 64` bytes or more (`LengthsFit`).
`not_decodeSafe_overflowFrame` is a ten-byte frame that makes the decoder throw.
-/

namespace WebSocketHandler

open Cpp

/-- The states at the head of the loop in `decodeFrames buffer`. -/
inductive LoopReaches (buffer : Bytes) : DecodeState → Prop
  | init : LoopReaches buffer (decodeInit buffer)
  | step {st st' : DecodeState} : LoopReaches buffer st → 2 ≤ st.bytes_left →
      decodeStep buffer st = .ok (some st') → LoopReaches buffer st'

/-- The positions at which a frame starts: the beginning of the buffer, and the byte behind a frame
that is there in full. Sizes are over the natural numbers. -/
inductive FrameStart (buffer : Bytes) : ℕ → Prop
  | zero : FrameStart buffer 0
  | next {k : ℕ} : FrameStart buffer k →
      k + (frameHeaderLen (buffer.drop k) + declaredLen (buffer.drop k)) ≤ buffer.length →
      FrameStart buffer (k + (frameHeaderLen (buffer.drop k) + declaredLen (buffer.drop k)))

/-- Every header that is there in full declares a frame of less than `2 ^ 64` bytes. -/
def LengthsFit (buffer : Bytes) : Prop :=
  ∀ k, FrameStart buffer k → k + frameHeaderLen (buffer.drop k) ≤ buffer.length →
    frameHeaderLen (buffer.drop k) + declaredLen (buffer.drop k) < 2 ^ 64

/-- What a call of `decodeFrames` has to guarantee. A read outside the buffer, an exception and a
loop that does not end would each make the result an error. -/
structure DecodeSafe (buffer : Bytes) : Prop where
  /-- The call returns, and every payload fits in the buffer. -/
  returns : ∃ payloads, decodeFrames buffer = .ok payloads ∧
    ∀ p ∈ payloads, p.length ≤ buffer.length
  /-- The counters add up to the size of the buffer. -/
  counters : ∀ st, LoopReaches buffer st → st.index + st.bytes_left = buffer.length

variable {buffer : Bytes}

/-! ## The passes of the loop -/

/-- A pass that goes on has taken one whole frame. -/
theorem decodeStep_some {st st' : DecodeState} (hmax : buffer.length ≤ maxSize)
    (hsum : st.index + st.bytes_left = buffer.length) (htwo : 2 ≤ st.bytes_left)
    (h : decodeStep buffer st = .ok (some st')) :
    let size := frameHeaderLen (buffer.drop st.index) + declaredLen (buffer.drop st.index)
    size ≤ st.bytes_left ∧
      st' = ⟨st.index + size, st.bytes_left - size,
        st.payloads ++ deliver (buffer.drop st.index)⟩ := by
  rw [decodeStep_eq hsum hmax htwo] at h
  simp only at h ⊢
  split_ifs at h with hhead hover hbody
  · cases h
  · cases h
  · cases h
    exact ⟨by omega, rfl⟩

/-- The loop invariant: the counters add up, the current index starts a frame, and the payloads
taken so far fit in the buffer. -/
theorem loopReaches_inv (hmax : buffer.length ≤ maxSize) {st : DecodeState}
    (h : LoopReaches buffer st) :
    st.index + st.bytes_left = buffer.length ∧ FrameStart buffer st.index ∧
      ∀ p ∈ st.payloads, p.length ≤ buffer.length := by
  induction h with
  | init => exact ⟨by simp [decodeInit], .zero, by simp [decodeInit]⟩
  | @step st st' _ htwo hstep ih =>
    obtain ⟨hsum, hstart, hpay⟩ := ih
    obtain ⟨hsize, rfl⟩ := decodeStep_some hmax hsum htwo hstep
    refine ⟨by simp only; omega, hstart.next (by omega), fun p hp => ?_⟩
    rcases List.mem_append.mp hp with hp | hp
    · exact hpay p hp
    · have := length_le_of_mem_deliver hp
      omega

/-- The loop comes to every frame start. -/
theorem exists_loopReaches (hmax : buffer.length ≤ maxSize) {k : ℕ} (h : FrameStart buffer k) :
    ∃ st, LoopReaches buffer st ∧ st.index = k := by
  induction h with
  | zero => exact ⟨_, .init, rfl⟩
  | @next k _ hfit ih =>
    obtain ⟨st, hreach, rfl⟩ := ih
    have hsum := (loopReaches_inv hmax hreach).1
    have htwo : 2 ≤ frameHeaderLen (buffer.drop st.index) := two_le_headerLen _
    have hmax64 : maxSize < 2 ^ 64 := by decide
    -- the frame at `st.index` is whole, so none of the tests stops the pass
    have hstep := decodeStep_eq hsum hmax (by omega)
    simp only at hstep
    rw [if_neg (by omega), if_neg (by omega), if_neg (by omega)] at hstep
    exact ⟨_, hreach.step (by omega) hstep, rfl⟩

/-- The rest of the run from a state the loop comes to, with fuel to spare. -/
theorem decodeFrames_eq_decodeLoop (hmax : buffer.length ≤ maxSize) {st : DecodeState}
    (h : LoopReaches buffer st) :
    ∃ fuel, st.bytes_left < fuel ∧ decodeFrames buffer = decodeLoop buffer fuel st := by
  induction h with
  | init => exact ⟨buffer.length + 1, Nat.lt_succ_self _, rfl⟩
  | @step st st' hreach htwo hstep ih =>
    obtain ⟨fuel, hfuel, heq⟩ := ih
    obtain ⟨hsize, rfl⟩ := decodeStep_some hmax (loopReaches_inv hmax hreach).1 htwo hstep
    obtain ⟨fuel, rfl⟩ : ∃ n, fuel = n + 1 := ⟨fuel - 1, by omega⟩
    -- a frame takes at least two bytes, and the pass one unit of fuel
    have hhead : 2 ≤ frameHeaderLen (buffer.drop st.index) := two_le_headerLen _
    refine ⟨fuel, by simp only; omega, ?_⟩
    rw [heq, decodeLoop, if_neg (by omega), hstep]

/-- With lengths that fit, the loop ends and returns. -/
theorem decodeLoop_ok (hmax : buffer.length ≤ maxSize) (hfit : LengthsFit buffer) {fuel : ℕ}
    {st : DecodeState} (hreach : LoopReaches buffer st) (hfuel : st.bytes_left < fuel) :
    ∃ payloads, decodeLoop buffer fuel st = .ok payloads ∧
      ∀ p ∈ payloads, p.length ≤ buffer.length := by
  induction fuel generalizing st with
  | zero => omega
  | succ fuel ih =>
    obtain ⟨hsum, hstart, hpay⟩ := loopReaches_inv hmax hreach
    rw [decodeLoop]
    by_cases hend : st.bytes_left < 2
    · exact ⟨st.payloads, if_pos hend, hpay⟩
    rw [if_neg hend]
    have hstep := decodeStep_eq hsum hmax (by omega)
    have hhead : 2 ≤ frameHeaderLen (buffer.drop st.index) := two_le_headerLen _
    simp only at hstep
    -- a partial header, a sum that wraps, a partial payload, a whole frame
    split_ifs at hstep with hpart hover hbody
    · rw [hstep]
      exact ⟨st.payloads, rfl, hpay⟩
    · have := hfit st.index hstart (by omega)
      omega
    · rw [hstep]
      exact ⟨st.payloads, rfl, hpay⟩
    · rw [hstep]
      exact ih (hreach.step (by omega) hstep) (by simp only; omega)

/-! ## Safety -/

/-- The index and the remaining length never drift apart, whatever the buffer. -/
theorem loopReaches_counters (hmax : buffer.length ≤ maxSize) {st : DecodeState}
    (h : LoopReaches buffer st) : st.index + st.bytes_left = buffer.length :=
  (loopReaches_inv hmax h).1

/-- A call of `decodeFrames` is safe exactly when no header the loop comes to declares a frame of
`2 ^ 64` bytes or more. -/
theorem decodeFrames_safe_iff (hmax : buffer.length ≤ maxSize) :
    DecodeSafe buffer ↔ LengthsFit buffer := by
  constructor
  · rintro ⟨⟨payloads, hok, -⟩, -⟩ k hstart hhead
    by_contra hover
    -- the loop comes to the header that does not fit and throws there
    obtain ⟨st, hreach, rfl⟩ := exists_loopReaches hmax hstart
    obtain ⟨fuel, hfuel, heq⟩ := decodeFrames_eq_decodeLoop hmax hreach
    obtain ⟨fuel, rfl⟩ : ∃ n, fuel = n + 1 := ⟨fuel - 1, by omega⟩
    have hsum := loopReaches_counters hmax hreach
    have htwo : 2 ≤ frameHeaderLen (buffer.drop st.index) := two_le_headerLen _
    have hthrow : decodeStep buffer st = .error (.threw .lengthError) := by
      rw [decodeStep_eq hsum hmax (by omega)]
      simp only
      rw [if_neg (by omega), if_pos (by omega)]
    rw [heq, decodeLoop, if_neg (by omega), hthrow] at hok
    cases hok
  · intro hfit
    exact ⟨decodeLoop_ok hmax hfit .init (Nat.lt_succ_self _), fun _ => loopReaches_counters hmax⟩

/-- A masked text frame of two bytes is decoded safely. -/
theorem decodeSafe_maskedFrame : DecodeSafe [0x81, 0x82, 1, 2, 3, 4, 0x69, 0x6B] := by
  refine (decodeFrames_safe_iff (by decide)).mpr fun k hstart hhead => ?_
  have hk : k = 0 ∨ k = 8 := by
    clear hhead
    induction hstart with
    | zero => exact .inl rfl
    | next _ hfit ih =>
      rcases ih with rfl | rfl
      · exact .inr (by decide)
      · exact absurd hfit (by decide)
  rcases hk with rfl | rfl
  · decide
  · decide

/-- An unmasked text frame with a 64-bit length of `2 ^ 64 - 1`. -/
def overflowFrame : Bytes := [0x81, 0x7F, 0xFF, 0xFF, 0xFF, 0xFF, 0xFF, 0xFF, 0xFF, 0xFF]

/-- Ten bytes that make the decoder throw: the sum of header and payload length wraps to 9. -/
theorem not_decodeSafe_overflowFrame :
    decodeFrames overflowFrame = .error (.threw .lengthError) ∧ ¬ DecodeSafe overflowFrame := by
  have hthrow : decodeFrames overflowFrame = .error (.threw .lengthError) := by decide
  refine ⟨hthrow, fun hsafe => ?_⟩
  obtain ⟨payloads, hok, -⟩ := hsafe.returns
  rw [hthrow] at hok
  cases hok

end WebSocketHandler
