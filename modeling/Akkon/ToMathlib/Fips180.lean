import Mathlib.Analysis.SpecialFunctions.Pow.NthRootLemmas
import Mathlib.Order.Bounds.Defs
import Mathlib.Tactic.Ring

/-!
# SHA-256 as FIPS 180-4 defines it

The standard's definition on bit strings, section by section: the padding (5.1.1), the parsing into
blocks and words (5.2.1), the functions and constants (4.1.2, 4.2.2, 5.3.3), and the computation of
the hash (6.2). The constants are the first 32 bits of the fractional parts of roots of primes, and
are defined as such.

* `isLeast_padZeros`: the number of zero bits of the padding is the smallest that is possible;
* `toBits_add`, `ofBits_append`: numbers as bit strings, cut and put together;
* `rootBits_eq`: how a table of the constants is checked;
* `hexDigits_append`: the hexadecimal rendering of a bit string, digit by digit.
-/

namespace Fips180

/-! ## Bit strings -/

/-- A number as `w` bits, the most significant one first. -/
def toBits (w n : ℕ) : List Bool := (List.range w).map fun i => n.testBit (w - 1 - i)

/-- The number that a bit string denotes. -/
def ofBits (bits : List Bool) : ℕ := bits.foldl (fun n b => 2 * n + b.toNat) 0

/-- The hexadecimal digits of a bit string, four bits each. -/
def hexDigits : List Bool → List Char
  | a :: b :: c :: d :: bits => Nat.digitChar (ofBits [a, b, c, d]) :: hexDigits bits
  | _ => []

/-! ## Preprocessing -/

/-- The number `k` of zero bits: the smallest solution of `ℓ + 1 + k ≡ 448 mod 512`. -/
def padZeros (ℓ : ℕ) : ℕ := (448 + 511 - ℓ % 512) % 512

/-- The padded message. -/
def pad (message : List Bool) : List Bool :=
  message ++ [true] ++ List.replicate (padZeros message.length) false ++ toBits 64 message.length

/-- Block `i` of the padded message. -/
def block (padded : List Bool) (i : ℕ) : List Bool := (padded.drop (512 * i)).take 512

/-- Word `t` of a block. -/
def word (bits : List Bool) (t : ℕ) : BitVec 32 :=
  BitVec.ofNat 32 (ofBits ((bits.drop (32 * t)).take 32))

/-! ## Functions and constants -/

/-- `Ch`. -/
def ch (x y z : BitVec 32) : BitVec 32 := (x &&& y) ^^^ (~~~x &&& z)

/-- `Maj`. -/
def maj (x y z : BitVec 32) : BitVec 32 := (x &&& y) ^^^ (x &&& z) ^^^ (y &&& z)

/-- `Σ₀`. -/
def bigSigma0 (x : BitVec 32) : BitVec 32 :=
  x.rotateRight 2 ^^^ x.rotateRight 13 ^^^ x.rotateRight 22

/-- `Σ₁`. -/
def bigSigma1 (x : BitVec 32) : BitVec 32 :=
  x.rotateRight 6 ^^^ x.rotateRight 11 ^^^ x.rotateRight 25

/-- `σ₀`. -/
def smallSigma0 (x : BitVec 32) : BitVec 32 := x.rotateRight 7 ^^^ x.rotateRight 18 ^^^ (x >>> 3)

/-- `σ₁`. -/
def smallSigma1 (x : BitVec 32) : BitVec 32 := x.rotateRight 17 ^^^ x.rotateRight 19 ^^^ (x >>> 10)

/-- The first sixty-four primes. -/
def primes : List ℕ :=
  [2, 3, 5, 7, 11, 13, 17, 19, 23, 29, 31, 37, 41, 43, 47, 53, 59, 61, 67, 71, 73, 79, 83, 89, 97,
    101, 103, 107, 109, 113, 127, 131, 137, 139, 149, 151, 157, 163, 167, 173, 179, 181, 191, 193,
    197, 199, 211, 223, 227, 229, 233, 239, 241, 251, 257, 263, 269, 271, 277, 281, 283, 293, 307,
    311]

/-- The first 32 bits of the fractional part of the `n`-th root of `p`. -/
def rootBits (n p : ℕ) : ℕ := Nat.nthRoot n (p * 2 ^ (32 * n)) % 2 ^ 32

/-- `K` of round `t`: from the cube root of prime `t`. -/
def roundConstant (t : ℕ) : BitVec 32 := BitVec.ofNat 32 (rootBits 3 (primes.getD t 0))

/-- Word `j` of the initial hash value: from the square root of prime `j`. -/
def initialWord (j : ℕ) : BitVec 32 := BitVec.ofNat 32 (rootBits 2 (primes.getD j 0))

/-! ## Hash computation -/

/-- The words of the message schedule, from the words of a block. -/
def scheduleWord (M : ℕ → BitVec 32) (t : ℕ) : BitVec 32 :=
  if _h : t < 16 then M t
  else
    smallSigma1 (scheduleWord M (t - 2)) + scheduleWord M (t - 7) +
      smallSigma0 (scheduleWord M (t - 15)) + scheduleWord M (t - 16)
termination_by t

/-- The working variables, or the words of a hash value. -/
structure Vars where
  a : BitVec 32
  b : BitVec 32
  c : BitVec 32
  d : BitVec 32
  e : BitVec 32
  f : BitVec 32
  g : BitVec 32
  h : BitVec 32
  deriving DecidableEq, Repr

/-- Round `t`. -/
def round (W : ℕ → BitVec 32) (v : Vars) (t : ℕ) : Vars :=
  let T₁ := v.h + bigSigma1 v.e + ch v.e v.f v.g + roundConstant t + W t
  let T₂ := bigSigma0 v.a + maj v.a v.b v.c
  { h := v.g, g := v.f, f := v.e, e := v.d + T₁, d := v.c, c := v.b, b := v.a, a := T₁ + T₂ }

/-- The hash value behind a block. -/
def compress (H : Vars) (bits : List Bool) : Vars :=
  let v := (List.range 64).foldl (round (scheduleWord (word bits))) H
  ⟨v.a + H.a, v.b + H.b, v.c + H.c, v.d + H.d, v.e + H.e, v.f + H.f, v.g + H.g, v.h + H.h⟩

/-- The initial hash value. -/
def initial : Vars :=
  ⟨initialWord 0, initialWord 1, initialWord 2, initialWord 3, initialWord 4, initialWord 5,
    initialWord 6, initialWord 7⟩

/-- The hash value behind the last block. -/
def hashValue (message : List Bool) : Vars :=
  let padded := pad message
  (List.range (padded.length / 512)).foldl (fun H i => compress H (block padded i)) initial

/-- The message digest, 256 bits. -/
def sha256 (message : List Bool) : List Bool :=
  let H := hashValue message
  [H.a, H.b, H.c, H.d, H.e, H.f, H.g, H.h].flatMap fun w : BitVec 32 => toBits 32 w.toNat

/-! ## Facts about them -/

theorem isLeast_padZeros (ℓ : ℕ) : IsLeast {k | (ℓ + 1 + k) % 512 = 448} (padZeros ℓ) := by
  constructor
  · show (ℓ + 1 + padZeros ℓ) % 512 = 448
    unfold padZeros
    omega
  · intro k hk
    have hk : (ℓ + 1 + k) % 512 = 448 := hk
    unfold padZeros
    omega

@[simp]
theorem length_toBits (w n : ℕ) : (toBits w n).length = w := by simp [toBits]

theorem getElem_toBits {w n i : ℕ} (h : i < (toBits w n).length) :
    (toBits w n)[i] = n.testBit (w - 1 - i) := by
  simp [toBits]

/-- A bit string of two parts. -/
theorem toBits_add (v w n : ℕ) : toBits (v + w) n = toBits v (n >>> w) ++ toBits w n := by
  refine List.ext_getElem (by simp) fun i hi _ => ?_
  rw [length_toBits] at hi
  rw [getElem_toBits, List.getElem_append]
  split_ifs with hv
  · rw [length_toBits] at hv
    rw [getElem_toBits, Nat.testBit_shiftRight]
    congr 1
    omega
  · rw [length_toBits] at hv
    rw [getElem_toBits, length_toBits]
    congr 1
    omega

/-- Only the low bits are read. -/
theorem toBits_mod {w v n : ℕ} (h : w ≤ v) : toBits w (n % 2 ^ v) = toBits w n := by
  refine List.ext_getElem (by simp) fun i hi _ => ?_
  rw [length_toBits] at hi
  rw [getElem_toBits, getElem_toBits, Nat.testBit_mod_two_pow, decide_eq_true (by omega),
    Bool.true_and]

theorem ofBits_append_singleton (bits : List Bool) (b : Bool) :
    ofBits (bits ++ [b]) = 2 * ofBits bits + b.toNat := by
  simp [ofBits]

/-- A number behind a bit string. -/
theorem ofBits_append_toBits (bits : List Bool) (w n : ℕ) :
    ofBits (bits ++ toBits w n) = ofBits bits * 2 ^ w + n % 2 ^ w := by
  induction w generalizing n with
  | zero => simp [toBits, Nat.mod_one]
  | succ w ih =>
    have hlast : toBits 1 n = [n.testBit 0] := rfl
    have hbit : (n.testBit 0).toNat = n % 2 := Nat.toNat_testBit n 0 ▸ by simp
    have hmod : n % 2 ^ (w + 1) = n % 2 + 2 * (n >>> 1 % 2 ^ w) := by
      rw [pow_succ', Nat.mod_mul, Nat.shiftRight_one]
    rw [toBits_add w 1, hlast, ← List.append_assoc, ofBits_append_singleton, ih, hbit, hmod,
      pow_succ]
    ring

theorem ofBits_toBits (w n : ℕ) : ofBits (toBits w n) = n % 2 ^ w := by
  simpa [ofBits] using ofBits_append_toBits [] w n

/-- How a table of the constants is checked. -/
theorem rootBits_eq {n p q k : ℕ} (hk : k < 2 ^ 32)
    (hle : (q * 2 ^ 32 + k) ^ n ≤ p * 2 ^ (32 * n))
    (hlt : p * 2 ^ (32 * n) < (q * 2 ^ 32 + k + 1) ^ n) : rootBits n p = k := by
  rw [rootBits, Nat.nthRoot_eq_of_le_of_lt hle hlt]
  omega

/-- A bit string of whole digits in front of another one. -/
theorem hexDigits_append {xs : List Bool} (ys : List Bool) (h : xs.length % 4 = 0) :
    hexDigits (xs ++ ys) = hexDigits xs ++ hexDigits ys := by
  induction xs using hexDigits.induct with
  | case1 a b c d bits ih =>
    have hbits : bits.length % 4 = 0 := by
      simp only [List.length_cons] at h
      omega
    simp [hexDigits, ih hbits]
  | case2 bits hshort =>
    -- fewer than four bits, and a multiple of four
    rcases bits with _ | ⟨a, _ | ⟨b, _ | ⟨c, _ | ⟨d, bits⟩⟩⟩⟩
    · simp [hexDigits]
    · simp at h
    · simp at h
    · simp at h
    · exact absurd rfl (hshort a b c d bits)

end Fips180
