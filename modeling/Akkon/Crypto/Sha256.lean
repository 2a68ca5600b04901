import Akkon.Crypto.Hash
import Akkon.ToMathlib.Fips180

/-!
# `Hash::sha256` is SHA-256

`Hash.cpp` works on bytes, 32-bit words and a list of schedule words; the standard on bit strings.
The two are compared part by part:

* `bits_padMessage`: the padding loops build the padded message of the standard;
* `word_block`: the words put together from four bytes are the words of the standard's blocks;
* `toBitVec_schedule`, `toVars_round`, `toVars_compress`: the schedule, a round, a block;
* `toVars_state`: the state behind the last block, as long as no block offset leaves 32 bits;
* `sha256_eq`: the digest in hexadecimal.
-/

namespace Crypto.Hash

open Cpp

/-! ## Bytes as bits -/

/-- The bits of a byte string. -/
def bits (s : Bytes) : List Bool := s.flatMap fun b => Fips180.toBits 8 b.toNat

@[simp]
theorem bits_nil : bits [] = [] := rfl

@[simp]
theorem bits_cons (b : UInt8) (s : Bytes) :
    bits (b :: s) = Fips180.toBits 8 b.toNat ++ bits s := rfl

@[simp]
theorem bits_append (s t : Bytes) : bits (s ++ t) = bits s ++ bits t := List.flatMap_append

@[simp]
theorem length_bits (s : Bytes) : (bits s).length = 8 * s.length := by
  induction s with
  | nil => rfl
  | cons b s ih =>
    rw [bits_cons, List.length_append, ih, Fips180.length_toBits, List.length_cons]
    omega

theorem drop_bits (s : Bytes) (k : ℕ) : (bits s).drop (8 * k) = bits (s.drop k) := by
  by_cases hk : k ≤ s.length
  · have hlen : (bits (s.take k)).length = 8 * k := by rw [length_bits, List.length_take_of_le hk]
    conv_lhs => rw [← List.take_append_drop k s, bits_append]
    rw [List.drop_left' hlen]
  · have hlen : (bits s).length ≤ 8 * k := by
      rw [length_bits]
      omega
    rw [List.drop_eq_nil_of_le hlen, List.drop_eq_nil_of_le (by omega)]
    rfl

theorem take_bits (s : Bytes) (k : ℕ) : (bits s).take (8 * k) = bits (s.take k) := by
  by_cases hk : k ≤ s.length
  · have hlen : (bits (s.take k)).length = 8 * k := by rw [length_bits, List.length_take_of_le hk]
    conv_lhs => rw [← List.take_append_drop k s, bits_append]
    rw [List.take_left' hlen]
  · have hlen : (bits s).length ≤ 8 * k := by
      rw [length_bits]
      omega
    rw [List.take_of_length_le hlen, List.take_of_length_le (by omega)]

/-! ## Padding -/

theorem pushZeros_eq {fuel : ℕ} {msg : Bytes} (h : (56 + 64 - msg.length % 64) % 64 ≤ fuel) :
    pushZeros fuel msg = msg ++ List.replicate ((56 + 64 - msg.length % 64) % 64) 0 := by
  induction fuel generalizing msg with
  | zero =>
    rw [Nat.le_zero.mp h, List.replicate_zero, List.append_nil]
    rfl
  | succ fuel ih =>
    rw [pushZeros]
    split_ifs with hmod
    · -- one zero byte less is missing
      have hcount : (56 + 64 - msg.length % 64) % 64 =
          (56 + 64 - (msg ++ [0]).length % 64) % 64 + 1 := by
        rw [List.length_append, List.length_singleton]
        omega
      rw [ih (by omega), hcount, List.replicate_succ, List.append_assoc]
      rfl
    · have hzero : (56 + 64 - msg.length % 64) % 64 = 0 := by omega
      rw [hzero, List.replicate_zero, List.append_nil]

theorem bits_replicate_zero (k : ℕ) : bits (List.replicate k 0) = List.replicate (8 * k) false := by
  induction k with
  | zero => rfl
  | succ k ih =>
    have hbyte : Fips180.toBits 8 (0 : UInt8).toNat = List.replicate 8 false := by decide
    rw [List.replicate_succ, bits_cons, ih, hbyte, ← List.replicate_add, Nat.mul_succ, Nat.add_comm]

/-- The low byte of a number, as bits. -/
theorem toBits_toUInt8 (n : ℕ) : Fips180.toBits 8 n.toUInt8.toNat = Fips180.toBits 8 n := by
  have hbyte : n.toUInt8.toNat = n % 2 ^ 8 := by simp [Nat.toUInt8]
  rw [hbyte, Fips180.toBits_mod le_rfl]

theorem bits_bigEndian64 (n : ℕ) : bits (bigEndian64 n) = Fips180.toBits 64 n := by
  simp only [bigEndian64, List.map_cons, List.map_nil, bits_cons, bits_nil, toBits_toUInt8]
  rw [Fips180.toBits_add 8 56, Fips180.toBits_add 8 48, Fips180.toBits_add 8 40,
    Fips180.toBits_add 8 32, Fips180.toBits_add 8 24, Fips180.toBits_add 8 16,
    Fips180.toBits_add 8 8]
  simp

/-- The padding loops build the padded message of the standard. -/
theorem bits_padMessage {msg : Bytes} (h : msg.length * 8 < 2 ^ 64) :
    bits (padMessage msg) = Fips180.pad (bits msg) := by
  have hone : Fips180.toBits 8 (0x80 : UInt8).toNat = true :: List.replicate 7 false := by decide
  have hzeros : 7 + 8 * ((56 + 64 - (msg ++ [(0x80 : UInt8)]).length % 64) % 64) =
      Fips180.padZeros (8 * msg.length) := by
    rw [List.length_append, List.length_singleton, Fips180.padZeros]
    omega
  have hfuel : (56 + 64 - (msg ++ [(0x80 : UInt8)]).length % 64) % 64 ≤ 64 := by omega
  rw [padMessage, pushZeros_eq hfuel, bits_append, bits_append, bits_append, bits_cons, bits_nil,
    bits_replicate_zero, bits_bigEndian64, wrap64_of_lt h, hone, Fips180.pad, length_bits,
    ← hzeros, List.replicate_add, Nat.mul_comm msg.length 8]
  simp

/-! ## Words -/

/-- The number that four bytes denote. -/
theorem ofBits_bits_four (b₀ b₁ b₂ b₃ : UInt8) :
    Fips180.ofBits (bits [b₀, b₁, b₂, b₃]) =
      ((b₀.toNat * 2 ^ 8 + b₁.toNat) * 2 ^ 8 + b₂.toNat) * 2 ^ 8 + b₃.toNat := by
  have hbyte (b : UInt8) : b.toNat % 2 ^ 8 = b.toNat := Nat.mod_eq_of_lt b.toNat_lt
  simp only [bits_cons, bits_nil, List.append_nil, ← List.append_assoc,
    Fips180.ofBits_append_toBits, Fips180.ofBits_toBits, hbyte]

/-- The word put together from four bytes. -/
theorem toNat_word (b₀ b₁ b₂ b₃ : UInt8) :
    ((b₀.toUInt32 <<< 24) ||| (b₁.toUInt32 <<< 16) ||| (b₂.toUInt32 <<< 8) ||| b₃.toUInt32).toNat =
      ((b₀.toNat * 2 ^ 8 + b₁.toNat) * 2 ^ 8 + b₂.toNat) * 2 ^ 8 + b₃.toNat := by
  have hor {m n : ℕ} (hn : n < 2 ^ 8) : m * 2 ^ 8 + n = m <<< 8 ||| n := by
    rw [← Nat.shiftLeft_eq, Nat.shiftLeft_add_eq_or_of_lt hn]
  have hmod {m : ℕ} (b : UInt8) (hm : m ≤ 24) : b.toNat <<< m % 2 ^ 32 = b.toNat <<< m := by
    refine Nat.mod_eq_of_lt ?_
    calc b.toNat <<< m = b.toNat * 2 ^ m := Nat.shiftLeft_eq ..
      _ ≤ b.toNat * 2 ^ 24 := Nat.mul_le_mul_left _ (Nat.pow_le_pow_right Nat.two_pos hm)
      _ < 2 ^ 32 := by
        have := b.toNat_lt
        omega
  simp only [UInt32.toNat_or, UInt32.toNat_shiftLeft, UInt8.toNat_toUInt32]
  rw [hor b₁.toNat_lt, hor b₂.toNat_lt, hor b₃.toNat_lt]
  simp only [Nat.shiftLeft_or_distrib, ← Nat.shiftLeft_add]
  show b₀.toNat <<< 24 % 2 ^ 32 ||| b₁.toNat <<< 16 % 2 ^ 32 ||| b₂.toNat <<< 8 % 2 ^ 32 |||
    b₃.toNat = b₀.toNat <<< 24 ||| b₁.toNat <<< 16 ||| b₂.toNat <<< 8 ||| b₃.toNat
  rw [hmod b₀ (by decide), hmod b₁ (by decide), hmod b₂ (by decide)]

/-- Four bytes of a byte string. -/
theorem take_four_drop {s : Bytes} {i : ℕ} (h : i + 4 ≤ s.length) :
    (s.drop i).take 4 =
      [s.getD i 0, s.getD (i + 1) 0, s.getD (i + 2) 0, s.getD (i + 3) 0] := by
  have hcons {j : ℕ} (hj : j < s.length) : s.drop j = s.getD j 0 :: s.drop (j + 1) := by
    rw [List.drop_eq_getElem_cons hj, List.getD, List.getElem?_eq_getElem hj]
    rfl
  rw [hcons (j := i) (by omega), hcons (j := i + 1) (by omega), hcons (j := i + 2) (by omega),
    hcons (j := i + 3) (by omega)]
  rfl

/-- Word `t` of a block. -/
theorem word_block {s : Bytes} {t : ℕ} (ht : t < 16) (hs : 64 ≤ s.length) :
    Fips180.word ((bits s).take 512) t = (blockWord s t).toBitVec := by
  have hword : (((bits s).take 512).drop (32 * t)).take 32 = bits ((s.drop (t * 4)).take 4) := by
    have htake : ((s.take 64).drop (t * 4)).take 4 = (s.drop (t * 4)).take 4 := by
      rw [List.drop_take, List.take_take, Nat.min_eq_left (by omega)]
    rw [← htake, ← take_bits, ← drop_bits, ← take_bits, Nat.mul_comm t 4, ← Nat.mul_assoc]
  rw [Fips180.word, hword, take_four_drop (by omega), ofBits_bits_four, ← toNat_word]
  exact BitVec.ofNat_toNat 32 (blockWord s t).toBitVec

/-! ## Functions and constants -/

theorem toBitVec_rotRight (x : UInt32) {n : ℕ} (hpos : 0 < n) (hn : n < 32) :
    (rotRight x (UInt32.ofNat n)).toBitVec = x.toBitVec.rotateRight n := by
  have hright : ((UInt32.ofNat n).toBitVec % 32).toNat = n := by
    simp
    omega
  have hleft : ((32 - UInt32.ofNat n).toBitVec % 32).toNat = 32 - n := by
    simp
    omega
  rw [rotRight, UInt32.toBitVec_or, UInt32.toBitVec_shiftRight, UInt32.toBitVec_shiftLeft,
    BitVec.ushiftRight_eq', BitVec.shiftLeft_eq', hright, hleft, BitVec.rotateRight_def,
    Nat.mod_eq_of_lt hn]

theorem toBitVec_ep0 (x : UInt32) : (ep0 x).toBitVec = Fips180.bigSigma0 x.toBitVec := by
  have h₂ := toBitVec_rotRight x (n := 2) (by decide) (by decide)
  have h₁₃ := toBitVec_rotRight x (n := 13) (by decide) (by decide)
  have h₂₂ := toBitVec_rotRight x (n := 22) (by decide) (by decide)
  rw [Fips180.bigSigma0, ← h₂, ← h₁₃, ← h₂₂]
  rfl

theorem toBitVec_ep1 (x : UInt32) : (ep1 x).toBitVec = Fips180.bigSigma1 x.toBitVec := by
  have h₆ := toBitVec_rotRight x (n := 6) (by decide) (by decide)
  have h₁₁ := toBitVec_rotRight x (n := 11) (by decide) (by decide)
  have h₂₅ := toBitVec_rotRight x (n := 25) (by decide) (by decide)
  rw [Fips180.bigSigma1, ← h₆, ← h₁₁, ← h₂₅]
  rfl

theorem toBitVec_sig0 (x : UInt32) : (sig0 x).toBitVec = Fips180.smallSigma0 x.toBitVec := by
  have h₇ := toBitVec_rotRight x (n := 7) (by decide) (by decide)
  have h₁₈ := toBitVec_rotRight x (n := 18) (by decide) (by decide)
  rw [Fips180.smallSigma0, ← h₇, ← h₁₈]
  rfl

theorem toBitVec_sig1 (x : UInt32) : (sig1 x).toBitVec = Fips180.smallSigma1 x.toBitVec := by
  have h₁₇ := toBitVec_rotRight x (n := 17) (by decide) (by decide)
  have h₁₉ := toBitVec_rotRight x (n := 19) (by decide) (by decide)
  rw [Fips180.smallSigma1, ← h₁₇, ← h₁₉]
  rfl

/-- The table of the round constants. -/
theorem toBitVec_k {t : ℕ} (ht : t < 64) : (k.getD t 0).toBitVec = Fips180.roundConstant t := by
  -- `q` is the integer part of the cube root
  have hroot : ∀ t < 64, ∃ q < 7,
      (q * 2 ^ 32 + (k.getD t 0).toNat) ^ 3 ≤ Fips180.primes.getD t 0 * 2 ^ (32 * 3) ∧
      Fips180.primes.getD t 0 * 2 ^ (32 * 3) < (q * 2 ^ 32 + (k.getD t 0).toNat + 1) ^ 3 := by
    decide +kernel
  obtain ⟨q, -, hle, hlt⟩ := hroot t ht
  rw [Fips180.roundConstant, Fips180.rootBits_eq (UInt32.toNat_lt _) hle hlt]
  exact (BitVec.ofNat_toNat 32 (k.getD t 0).toBitVec).symm

/-- The words of a state, for the standard. -/
def Words.toVars (h : Words) : Fips180.Vars :=
  ⟨h.w0.toBitVec, h.w1.toBitVec, h.w2.toBitVec, h.w3.toBitVec, h.w4.toBitVec, h.w5.toBitVec,
    h.w6.toBitVec, h.w7.toBitVec⟩

/-- The initial state. -/
theorem toVars_init : init.toVars = Fips180.initial := by
  have hroot : ∀ j < 8, ∃ q < 5,
      (q * 2 ^ 32 + (init.toList.getD j 0).toNat) ^ 2 ≤ Fips180.primes.getD j 0 * 2 ^ (32 * 2) ∧
      Fips180.primes.getD j 0 * 2 ^ (32 * 2) <
        (q * 2 ^ 32 + (init.toList.getD j 0).toNat + 1) ^ 2 := by
    decide +kernel
  have hword {j : ℕ} (hj : j < 8) :
      (init.toList.getD j 0).toBitVec = Fips180.initialWord j := by
    obtain ⟨q, -, hle, hlt⟩ := hroot j hj
    rw [Fips180.initialWord, Fips180.rootBits_eq (UInt32.toNat_lt _) hle hlt]
    exact (BitVec.ofNat_toNat 32 (init.toList.getD j 0).toBitVec).symm
  rw [Fips180.initial, ← hword (j := 0) (by decide), ← hword (j := 1) (by decide),
    ← hword (j := 2) (by decide), ← hword (j := 3) (by decide), ← hword (j := 4) (by decide),
    ← hword (j := 5) (by decide), ← hword (j := 6) (by decide), ← hword (j := 7) (by decide)]
  rfl

/-! ## A block -/

/-- The words of the schedule. -/
theorem schedule_eq {s : Bytes} {M : ℕ → BitVec 32}
    (hM : ∀ t < 16, M t = (blockWord s t).toBitVec) :
    schedule s = (List.range 64).map fun t => UInt32.ofBitVec (Fips180.scheduleWord M t) := by
  -- the list behind `n` rounds
  suffices h : ∀ n, (List.range' 16 n).foldl
      (fun w j => w ++ [sig1 (w.getD (j - 2) 0) + w.getD (j - 7) 0 + sig0 (w.getD (j - 15) 0)
        + w.getD (j - 16) 0])
      ((List.range 16).map (blockWord s)) =
        (List.range (16 + n)).map fun t => UInt32.ofBitVec (Fips180.scheduleWord M t) from h 48
  intro n
  induction n with
  | zero =>
    refine List.map_congr_left fun t ht => ?_
    have ht : t < 16 := List.mem_range.mp ht
    rw [Fips180.scheduleWord, dif_pos ht, hM t ht]
  | succ n ih =>
    have hget {i : ℕ} (hi : i < 16 + n) :
        ((List.range (16 + n)).map fun t => UInt32.ofBitVec (Fips180.scheduleWord M t)).getD i 0 =
          UInt32.ofBitVec (Fips180.scheduleWord M i) := by
      rw [List.getD, List.getElem?_map, List.getElem?_range hi]
      rfl
    rw [List.range'_1_concat, List.foldl_append, ih, List.foldl_cons, List.foldl_nil,
      hget (by omega), hget (by omega), hget (by omega), hget (by omega), ← Nat.add_assoc,
      List.range_succ, List.map_append]
    refine congrArg _ (congrArg (fun w => [w]) (UInt32.toBitVec_inj.mp ?_))
    show _ = Fips180.scheduleWord M (16 + n)
    rw [Fips180.scheduleWord.eq_def M (16 + n), dif_neg (by omega), UInt32.toBitVec_add,
      UInt32.toBitVec_add, UInt32.toBitVec_add, toBitVec_sig1, toBitVec_sig0]

/-- A word of the schedule. -/
theorem toBitVec_schedule {s : Bytes} (hs : 64 ≤ s.length) {t : ℕ} (ht : t < 64) :
    ((schedule s).getD t 0).toBitVec =
      Fips180.scheduleWord (Fips180.word ((bits s).take 512)) t := by
  rw [schedule_eq fun t ht => word_block ht hs, List.getD, List.getElem?_map,
    List.getElem?_range ht]
  rfl

/-- A round. -/
theorem toVars_round {w : List UInt32} {W : ℕ → BitVec 32} (wv : Words) {t : ℕ} (ht : t < 64)
    (hw : (w.getD t 0).toBitVec = W t) :
    (round w wv t).toVars = Fips180.round W wv.toVars t := by
  simp only [round, Fips180.round, Words.toVars, ← hw, ← toBitVec_k ht, ← toBitVec_ep0,
    ← toBitVec_ep1]
  rfl

/-- A block. -/
theorem toVars_compress {s : Bytes} (hs : 64 ≤ s.length) (h : Words) :
    (compress h s).toVars = Fips180.compress h.toVars ((bits s).take 512) := by
  have hrounds : ((List.range 64).foldl (round (schedule s)) h).toVars =
      (List.range 64).foldl
        (Fips180.round (Fips180.scheduleWord (Fips180.word ((bits s).take 512)))) h.toVars := by
    -- the working variables stay equal from round to round
    apply List.foldl_rel (r := fun wv vars => Words.toVars wv = vars) rfl
    intro t ht wv vars hvars
    have ht := List.mem_range.mp ht
    rw [← hvars]
    exact toVars_round wv ht (toBitVec_schedule hs ht)
  rw [Fips180.compress, ← hrounds]
  simp only [compress, Words.add, Words.toVars, UInt32.toBitVec_add, BitVec.add_comm]

/-! ## The digest -/

theorem length_padMessage (msg : Bytes) :
    (padMessage msg).length = msg.length + 9 + (56 + 64 - (msg.length + 1) % 64) % 64 := by
  have hfuel : (56 + 64 - (msg ++ [(0x80 : UInt8)]).length % 64) % 64 ≤ 64 := by omega
  rw [padMessage, pushZeros_eq hfuel]
  simp [bigEndian64]
  omega

/-- The state behind the last block, as long as no block offset leaves 32 bits. -/
theorem toVars_state {input : Bytes} (h : input.length < 2 ^ 32 - 64) :
    (state input).toVars = Fips180.hashValue (bits input) := by
  have hlen := length_padMessage input
  have hblocks : (padMessage input).length / 64 ≤ 2 ^ 26 := by omega
  have hnum : (Fips180.pad (bits input)).length / 512 = (padMessage input).length / 64 := by
    rw [← bits_padMessage (by omega), length_bits]
    omega
  have hstates : (transform (padMessage input) ((padMessage input).length / 64) init).toVars =
      (List.range ((padMessage input).length / 64)).foldl
        (fun H i => Fips180.compress H (Fips180.block (bits (padMessage input)) i))
        Fips180.initial := by
    -- the states behind the blocks stay equal, as the offset of a block does not wrap
    apply List.foldl_rel (r := fun H vars => Words.toVars H = vars) toVars_init
    intro n hn H vars hvars
    have hn := List.mem_range.mp hn
    have hoffset : blockOffset n = 64 * n := by
      rw [blockOffset, Nat.shiftLeft_eq, Nat.mod_eq_of_lt (by omega)]
      omega
    have hblock : Fips180.block (bits (padMessage input)) n =
        (bits ((padMessage input).drop (64 * n))).take 512 := by
      rw [Fips180.block, ← drop_bits, ← Nat.mul_assoc]
    rw [← hvars, hoffset, hblock, toVars_compress]
    rw [List.length_drop]
    omega
  rw [state, Fips180.hashValue, hnum, ← bits_padMessage (by omega), Nat.mod_eq_of_lt (by omega)]
  exact hstates

/-- The digits of a number, filled up with zeros. -/
theorem hexDigits_toBits (k : ℕ) {n : ℕ} (hn : n < 16 ^ (k + 1)) :
    Fips180.hexDigits (Fips180.toBits (4 * (k + 1)) n) =
      (Nat.toDigits 16 n).leftpad (k + 1) '0' := by
  have hdigit : ∀ d < 16, Fips180.hexDigits (Fips180.toBits 4 d) = [Nat.digitChar d] := by decide
  induction k generalizing n with
  | zero =>
    rw [Nat.toDigits_of_lt_base (by simpa using hn)]
    exact hdigit n (by simpa using hn)
  | succ k ih =>
    have hlast : Fips180.hexDigits (Fips180.toBits 4 n) = [Nat.digitChar (n % 16)] := by
      rw [← Fips180.toBits_mod (v := 4) le_rfl]
      exact hdigit (n % 16) (Nat.mod_lt n (by decide))
    have hdiv : n >>> 4 = n / 16 := Nat.shiftRight_eq_div_pow n 4
    have hbits : Fips180.hexDigits (Fips180.toBits (4 * (k + 1 + 1)) n) =
        (Nat.toDigits 16 (n / 16)).leftpad (k + 1) '0' ++ [Nat.digitChar (n % 16)] := by
      rw [Nat.mul_succ, Fips180.toBits_add, Fips180.hexDigits_append _ (by simp), hlast, hdiv, ih]
      exact Nat.div_lt_of_lt_mul (by rwa [pow_succ'] at hn)
    rw [hbits]
    by_cases hsmall : n < 16
    · -- only zeros in front of the one digit
      rw [Nat.div_eq_of_lt hsmall, Nat.mod_eq_of_lt hsmall, Nat.toDigits_of_lt_base hsmall]
      simp [List.leftpad, List.replicate_succ', Nat.toDigits_zero]
    · rw [Nat.toDigits_of_base_le (n := n) (by decide) (by omega)]
      simp [List.leftpad]

theorem hexWord_eq (w : UInt32) :
    hexWord w =
      (Fips180.hexDigits (Fips180.toBits 32 w.toNat)).map fun c => c.toNat.toUInt8 := by
  rw [hexWord, ← hexDigits_toBits 7 w.toNat_lt]

/-- `Hash::sha256` renders the digest of the standard. -/
theorem sha256_eq {input : Bytes} (h : input.length < 2 ^ 32 - 64) :
    sha256 input =
      (Fips180.hexDigits (Fips180.sha256 (bits input))).map fun c => c.toNat.toUInt8 := by
  have hwords (ws : List UInt32) : ws.flatMap hexWord =
      (Fips180.hexDigits ((ws.map UInt32.toBitVec).flatMap fun w : BitVec 32 =>
        Fips180.toBits 32 w.toNat)).map fun c => c.toNat.toUInt8 := by
    induction ws with
    | nil => rfl
    | cons w ws ih =>
      rw [List.flatMap_cons, List.map_cons, List.flatMap_cons,
        Fips180.hexDigits_append _ (by simp), List.map_append, ih, hexWord_eq]
      rfl
  rw [sha256, hwords, Fips180.sha256, ← toVars_state h]
  rfl

/-- A message of four blocks. -/
theorem sha256_eq_fourBlocks :
    (Fips180.hexDigits (Fips180.sha256 (bits (List.replicate 200 97)))).map
      (fun c => c.toNat.toUInt8) =
        lit "c2a908d98f5df987ade41b5fce213067efbcc21ef2240212a41e54b5e7c28ae5" := by
  have hlength : (List.replicate 200 (97 : UInt8)).length = 200 := List.length_replicate
  rw [← sha256_eq (by omega)]
  decide +kernel

example : sha256 (lit "abc") =
    lit "ba7816bf8f01cfea414140de5dae2223b00361a396177a9cb410ff61f20015ad" := by
  decide +kernel

end Crypto.Hash
