import Akkon.Crypto.Sha256
import Akkon.Network.Protocols.WebSocketHandler
import Akkon.ToMathlib.Fips180Sha1

/-!
# `sha1` is SHA-1

The padding loops, the words put together from four bytes and the blocks are those of `Hash.cpp`, so
`bits_padMessage` and `word_block` apply. What is compared here:

* `toBitVec_sha1Schedule`, `toVars_sha1Round`, `toVars_sha1Compress`: the schedule, a round, a block;
* `bits_sha1`: the bits of the 20 bytes;
* `sha1_eq`: the 20 bytes.
-/

namespace WebSocketHandler

open Cpp Crypto.Hash

/-! ## Functions and constants -/

theorem toBitVec_rotLeft (x : UInt32) {m n : ℕ} (hm : 0 < m) (hn : 0 < n) (h : m + n = 32) :
    ((x <<< UInt32.ofNat m) ||| (x >>> UInt32.ofNat n)).toBitVec = x.toBitVec.rotateLeft m := by
  have hleft : ((UInt32.ofNat m).toBitVec % 32).toNat = m := by
    simp
    omega
  have hright : ((UInt32.ofNat n).toBitVec % 32).toNat = 32 - m := by
    simp
    omega
  rw [UInt32.toBitVec_or, UInt32.toBitVec_shiftRight, UInt32.toBitVec_shiftLeft,
    BitVec.ushiftRight_eq', BitVec.shiftLeft_eq', hright, hleft, BitVec.rotateLeft_def,
    Nat.mod_eq_of_lt (by omega)]

/-- The code joins the two parts of `Ch` by `|`, the standard by `⊕`. -/
theorem or_eq_ch (x y z : BitVec 32) : (x &&& y) ||| (~~~x &&& z) = Fips180.ch x y z := by
  ext i
  simp only [Fips180.ch, BitVec.getElem_or, BitVec.getElem_and, BitVec.getElem_not,
    BitVec.getElem_xor]
  cases x[i] <;> simp

/-- So for `Maj`. -/
theorem or_eq_maj (x y z : BitVec 32) :
    (x &&& y) ||| (x &&& z) ||| (y &&& z) = Fips180.maj x y z := by
  ext i
  simp only [Fips180.maj, BitVec.getElem_or, BitVec.getElem_and, BitVec.getElem_xor]
  cases x[i] <;> cases y[i] <;> simp

/-- The state words, for the standard. -/
def Sha1Words.toVars (h : Sha1Words) : Fips180.Sha1.Vars :=
  ⟨h.a.toBitVec, h.b.toBitVec, h.c.toBitVec, h.d.toBitVec, h.e.toBitVec⟩

/-! ## A block -/

/-- The words of the schedule. -/
theorem sha1Schedule_eq {s : Bytes} {M : ℕ → BitVec 32}
    (hM : ∀ t < 16, M t = (sha1Word s t).toBitVec) :
    sha1Schedule s =
      (List.range 80).map fun t => UInt32.ofBitVec (Fips180.Sha1.scheduleWord M t) := by
  -- the list behind `n` rounds
  suffices h : ∀ n, (List.range' 16 n).foldl
      (fun (w : List UInt32) i =>
        let val := w.getD (i - 3) 0 ^^^ w.getD (i - 8) 0 ^^^ w.getD (i - 14) 0 ^^^ w.getD (i - 16) 0
        w ++ [(val <<< 1) ||| (val >>> 31)])
      ((List.range 16).map (sha1Word s)) =
        (List.range (16 + n)).map fun t =>
          UInt32.ofBitVec (Fips180.Sha1.scheduleWord M t) from h 64
  intro n
  induction n with
  | zero =>
    refine List.map_congr_left fun t ht => ?_
    have ht : t < 16 := List.mem_range.mp ht
    rw [Fips180.Sha1.scheduleWord, dif_pos ht, hM t ht]
  | succ n ih =>
    have hget {i : ℕ} (hi : i < 16 + n) :
        ((List.range (16 + n)).map fun t =>
          UInt32.ofBitVec (Fips180.Sha1.scheduleWord M t)).getD i 0 =
            UInt32.ofBitVec (Fips180.Sha1.scheduleWord M i) := by
      rw [List.getD, List.getElem?_map, List.getElem?_range hi]
      rfl
    have hrot (x : UInt32) : ((x <<< 1) ||| (x >>> 31)).toBitVec = x.toBitVec.rotateLeft 1 :=
      toBitVec_rotLeft x (m := 1) (n := 31) (by decide) (by decide) rfl
    rw [List.range'_1_concat, List.foldl_append, ih, List.foldl_cons, List.foldl_nil,
      hget (by omega), hget (by omega), hget (by omega), hget (by omega), ← Nat.add_assoc,
      List.range_succ, List.map_append]
    refine congrArg _ (congrArg (fun w => [w]) (UInt32.toBitVec_inj.mp ?_))
    show _ = Fips180.Sha1.scheduleWord M (16 + n)
    rw [Fips180.Sha1.scheduleWord.eq_def M (16 + n), dif_neg (by omega), hrot]
    rfl

/-- A word of the schedule. -/
theorem toBitVec_sha1Schedule {s : Bytes} (hs : 64 ≤ s.length) {t : ℕ} (ht : t < 80) :
    ((sha1Schedule s).getD t 0).toBitVec =
      Fips180.Sha1.scheduleWord (Fips180.word ((bits s).take 512)) t := by
  -- the two files put their words together in the same way
  have hword : ∀ t < 16, Fips180.word ((bits s).take 512) t = (sha1Word s t).toBitVec :=
    fun t ht => word_block ht hs
  rw [sha1Schedule_eq hword, List.getD, List.getElem?_map, List.getElem?_range ht]
  rfl

/-- A round. -/
theorem toVars_sha1Round {w : List UInt32} {W : ℕ → BitVec 32} (h : Sha1Words) {t : ℕ}
    (hw : (w.getD t 0).toBitVec = W t) :
    (sha1Round w h t).toVars = Fips180.Sha1.round W h.toVars t := by
  have h₅ : ((h.a <<< 5) ||| (h.a >>> 27)).toBitVec = h.a.toBitVec.rotateLeft 5 :=
    toBitVec_rotLeft h.a (m := 5) (n := 27) (by decide) (by decide) rfl
  have h₃₀ : ((h.b <<< 30) ||| (h.b >>> 2)).toBitVec = h.b.toBitVec.rotateLeft 30 :=
    toBitVec_rotLeft h.b (m := 30) (n := 2) (by decide) (by decide) rfl
  -- the four kinds of rounds
  unfold sha1Round Fips180.Sha1.round Fips180.Sha1.roundFunction Fips180.Sha1.roundConstant
  split_ifs
  · simp only [Sha1Words.toVars, UInt32.toBitVec_add, h₅, h₃₀, hw, ← or_eq_ch]
    rfl
  · simp only [Sha1Words.toVars, UInt32.toBitVec_add, h₅, h₃₀, hw]
    rfl
  · simp only [Sha1Words.toVars, UInt32.toBitVec_add, h₅, h₃₀, hw, ← or_eq_maj]
    rfl
  · simp only [Sha1Words.toVars, UInt32.toBitVec_add, h₅, h₃₀, hw]
    rfl

/-- A block. -/
theorem toVars_sha1Compress {s : Bytes} (hs : 64 ≤ s.length) (h : Sha1Words) :
    (sha1Compress h s).toVars = Fips180.Sha1.compress h.toVars ((bits s).take 512) := by
  have hrounds : ((List.range 80).foldl (sha1Round (sha1Schedule s)) h).toVars =
      (List.range 80).foldl (Fips180.Sha1.round
        (Fips180.Sha1.scheduleWord (Fips180.word ((bits s).take 512)))) h.toVars := by
    -- the working variables stay equal from round to round
    apply List.foldl_rel (r := fun wv vars => Sha1Words.toVars wv = vars) rfl
    intro t ht wv vars hvars
    rw [← hvars]
    exact toVars_sha1Round wv (toBitVec_sha1Schedule hs (List.mem_range.mp ht))
  rw [Fips180.Sha1.compress, ← hrounds]
  simp only [sha1Compress, Sha1Words.toVars, UInt32.toBitVec_add, BitVec.add_comm]

/-! ## The digest -/

/-- The state behind the last block. -/
def sha1State (msg : Bytes) : Sha1Words :=
  (List.range ((Crypto.padMessage msg).length / 64)).foldl
    (fun h i => sha1Compress h ((Crypto.padMessage msg).drop (i * 64))) sha1Init

theorem toVars_sha1State {msg : Bytes} (h : msg.length < 2 ^ 61) :
    (sha1State msg).toVars = Fips180.Sha1.hashValue (bits msg) := by
  have hnum : (Fips180.pad (bits msg)).length / 512 = (Crypto.padMessage msg).length / 64 := by
    rw [← bits_padMessage (by omega), length_bits]
    omega
  have hstates : (sha1State msg).toVars =
      (List.range ((Crypto.padMessage msg).length / 64)).foldl (fun H i =>
        Fips180.Sha1.compress H (Fips180.block (bits (Crypto.padMessage msg)) i))
        Fips180.Sha1.initial := by
    -- the states behind the blocks stay equal
    apply List.foldl_rel (r := fun H vars => Sha1Words.toVars H = vars) rfl
    intro n hn H vars hvars
    have hn := List.mem_range.mp hn
    have hblock : Fips180.block (bits (Crypto.padMessage msg)) n =
        (bits ((Crypto.padMessage msg).drop (n * 64))).take 512 := by
      rw [Fips180.block, ← drop_bits, Nat.mul_comm n 64, ← Nat.mul_assoc]
    rw [← hvars, hblock, toVars_sha1Compress]
    rw [List.length_drop]
    omega
  rw [hstates, Fips180.Sha1.hashValue, hnum, ← bits_padMessage (by omega)]

/-- The four bytes of a word. -/
theorem bits_wordBytes (w : UInt32) :
    bits [(w >>> 24).toUInt8, (w >>> 16).toUInt8, (w >>> 8).toUInt8, w.toUInt8] =
      Fips180.toBits 32 w.toNat := by
  have hbyte (v : UInt32) : Fips180.toBits 8 v.toUInt8.toNat = Fips180.toBits 8 v.toNat := by
    rw [UInt32.toNat_toUInt8]
    exact Fips180.toBits_mod le_rfl
  have h₂₄ : (w >>> 24).toNat = w.toNat >>> 24 := UInt32.toNat_shiftRight w 24
  have h₁₆ : (w >>> 16).toNat = w.toNat >>> 16 := UInt32.toNat_shiftRight w 16
  have h₈ : (w >>> 8).toNat = w.toNat >>> 8 := UInt32.toNat_shiftRight w 8
  rw [Fips180.toBits_add 8 24, Fips180.toBits_add 8 16, Fips180.toBits_add 8 8]
  simp only [bits_cons, bits_nil, hbyte, h₂₄, h₁₆, h₈, List.append_nil]

/-- The bits of the digest. -/
theorem bits_sha1 {msg : Bytes} (h : msg.length < 2 ^ 61) :
    bits (sha1 msg) = Fips180.sha1 (bits msg) := by
  have hwords (ws : List UInt32) :
      bits (ws.flatMap fun w : UInt32 =>
        [(w >>> 24).toUInt8, (w >>> 16).toUInt8, (w >>> 8).toUInt8, w.toUInt8]) =
        (ws.map UInt32.toBitVec).flatMap fun w : BitVec 32 => Fips180.toBits 32 w.toNat := by
    induction ws with
    | nil => rfl
    | cons w ws ih =>
      rw [List.flatMap_cons, List.map_cons, List.flatMap_cons, bits_append, ih, bits_wordBytes]
      rfl
  rw [Fips180.sha1, ← toVars_sha1State h]
  exact hwords [(sha1State msg).a, (sha1State msg).b, (sha1State msg).c, (sha1State msg).d,
    (sha1State msg).e]

/-- A byte string is read back from its bits. -/
theorem octets_bits (s : Bytes) : Fips180.octets (bits s) = s := by
  induction s with
  | nil => rfl
  | cons b s ih =>
    rw [bits_cons, Fips180.octets_toBits_append, ih]
    congr 1
    exact UInt8.ofNat_toNat

/-- `sha1` computes the digest of the standard. -/
theorem sha1_eq {msg : Bytes} (h : msg.length < 2 ^ 61) :
    sha1 msg = Fips180.octets (Fips180.sha1 (bits msg)) := by
  rw [← bits_sha1 h, octets_bits]

/-- A message of four blocks. -/
theorem sha1_eq_fourBlocks :
    Fips180.octets (Fips180.sha1 (bits (List.replicate 200 97))) =
      [0xe6, 0x1c, 0xff, 0xfe, 0x0d, 0x91, 0x95, 0xa5, 0x25, 0xfc, 0x6c, 0xf0, 0x6c, 0xa2, 0xd7,
        0x71, 0x19, 0xc2, 0x4a, 0x40] := by
  have hlength : (List.replicate 200 (97 : UInt8)).length = 200 := List.length_replicate
  rw [← sha1_eq (by omega)]
  decide +kernel

/-- The first example of the standard. -/
example : sha1 (lit "abc") =
    [0xa9, 0x99, 0x3e, 0x36, 0x47, 0x06, 0x81, 0x6a, 0xba, 0x3e, 0x25, 0x71, 0x78, 0x50, 0xc2, 0x6c,
      0x9c, 0xd0, 0xd8, 0x9d] := by
  decide +kernel

end WebSocketHandler
