import Akkon.ToMathlib.Fips180

/-!
# SHA-1 as FIPS 180-4 defines it

The padding, the blocks and their words are those of SHA-256; what differs are the functions and
constants (4.1.1, 4.2.1, 5.3.1) and the computation of the hash (6.1).

* `octets`: a digest as bytes, and `octets_append_toBits`.
-/

namespace Fips180

/-- A bit string as bytes, eight bits each. -/
def octets : List Bool → List UInt8
  | a :: b :: c :: d :: e :: f :: g :: h :: bits =>
    (ofBits [a, b, c, d, e, f, g, h]).toUInt8 :: octets bits
  | _ => []

/-- A byte in front of a bit string. -/
theorem octets_toBits_append (n : ℕ) (bits : List Bool) :
    octets (toBits 8 n ++ bits) = n.toUInt8 :: octets bits := by
  have hbits : toBits 8 n = [n.testBit 7, n.testBit 6, n.testBit 5, n.testBit 4, n.testBit 3,
      n.testBit 2, n.testBit 1, n.testBit 0] := rfl
  have hbyte : (ofBits (toBits 8 n)).toUInt8 = n.toUInt8 := by
    rw [ofBits_toBits]
    exact UInt8.toNat_inj.mp (by simp [Nat.toUInt8])
  rw [hbits] at hbyte ⊢
  exact congrArg (· :: octets bits) hbyte

namespace Sha1

/-! ## Functions and constants -/

/-- `Parity`. -/
def parity (x y z : BitVec 32) : BitVec 32 := x ^^^ y ^^^ z

/-- `f` of round `t`. -/
def roundFunction (t : ℕ) : BitVec 32 → BitVec 32 → BitVec 32 → BitVec 32 :=
  if t < 20 then ch else if t < 40 then parity else if t < 60 then maj else parity

/-- `K` of round `t`. -/
def roundConstant (t : ℕ) : BitVec 32 :=
  if t < 20 then 0x5a827999 else if t < 40 then 0x6ed9eba1 else if t < 60 then 0x8f1bbcdc
  else 0xca62c1d6

/-! ## Hash computation -/

/-- The words of the message schedule, from the words of a block. -/
def scheduleWord (M : ℕ → BitVec 32) (t : ℕ) : BitVec 32 :=
  if _h : t < 16 then M t
  else
    (scheduleWord M (t - 3) ^^^ scheduleWord M (t - 8) ^^^ scheduleWord M (t - 14) ^^^
      scheduleWord M (t - 16)).rotateLeft 1
termination_by t

/-- The working variables, or the words of a hash value. -/
structure Vars where
  a : BitVec 32
  b : BitVec 32
  c : BitVec 32
  d : BitVec 32
  e : BitVec 32
  deriving DecidableEq, Repr

/-- Round `t`. -/
def round (W : ℕ → BitVec 32) (v : Vars) (t : ℕ) : Vars :=
  let T := v.a.rotateLeft 5 + roundFunction t v.b v.c v.d + v.e + roundConstant t + W t
  { e := v.d, d := v.c, c := v.b.rotateLeft 30, b := v.a, a := T }

/-- The hash value behind a block. -/
def compress (H : Vars) (bits : List Bool) : Vars :=
  let v := (List.range 80).foldl (round (scheduleWord (word bits))) H
  ⟨v.a + H.a, v.b + H.b, v.c + H.c, v.d + H.d, v.e + H.e⟩

/-- The initial hash value. -/
def initial : Vars := ⟨0x67452301, 0xefcdab89, 0x98badcfe, 0x10325476, 0xc3d2e1f0⟩

/-- The hash value behind the last block. -/
def hashValue (message : List Bool) : Vars :=
  let padded := pad message
  (List.range (padded.length / 512)).foldl (fun H i => compress H (block padded i)) initial

end Sha1

/-- The message digest of SHA-1, 160 bits. -/
def sha1 (message : List Bool) : List Bool :=
  let H := Sha1.hashValue message
  [H.a, H.b, H.c, H.d, H.e].flatMap fun w : BitVec 32 => toBits 32 w.toNat

end Fips180
