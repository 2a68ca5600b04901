import Akkon.Crypto.Padding

/-!
# `crypto::Hash`

SHA-256 as `Hash.cpp` computes it: the message is padded, `transform` compresses `block_nb` blocks
with a 32-bit block counter and 32-bit byte offsets, and the eight state words are rendered as
eight lowercase hexadecimal digits each.

The rendering is always 64 characters long (`length_sha256`), and the eight characters from `8 * i`
read back as state word `i` (`stoull16_word`).
-/

namespace Crypto.Hash

open Cpp

/-- The round constants. -/
def k : List UInt32 := [
  0x428a2f98, 0x71374491, 0xb5c0fbcf, 0xe9b5dba5,
  0x3956c25b, 0x59f111f1, 0x923f82a4, 0xab1c5ed5,
  0xd807aa98, 0x12835b01, 0x243185be, 0x550c7dc3,
  0x72be5d74, 0x80deb1fe, 0x9bdc06a7, 0xc19bf174,
  0xe49b69c1, 0xefbe4786, 0x0fc19dc6, 0x240ca1cc,
  0x2de92c6f, 0x4a7484aa, 0x5cb0a9dc, 0x76f988da,
  0x983e5152, 0xa831c66d, 0xb00327c8, 0xbf597fc7,
  0xc6e00bf3, 0xd5a79147, 0x06ca6351, 0x14292967,
  0x27b70a85, 0x2e1b2138, 0x4d2c6dfc, 0x53380d13,
  0x650a7354, 0x766a0abb, 0x81c2c92e, 0x92722c85,
  0xa2bfe8a1, 0xa81a664b, 0xc24b8b70, 0xc76c51a3,
  0xd192e819, 0xd6990624, 0xf40e3585, 0x106aa070,
  0x19a4c116, 0x1e376c08, 0x2748774c, 0x34b0bcb5,
  0x391c0cb3, 0x4ed8aa4a, 0x5b9cca4f, 0x682e6ff3,
  0x748f82ee, 0x78a5636f, 0x84c87814, 0x8cc70208,
  0x90befffa, 0xa4506ceb, 0xbef9a3f7, 0xc67178f2]

/-- `ROTRIGHT`. -/
def rotRight (a b : UInt32) : UInt32 := (a >>> b) ||| (a <<< (32 - b))

/-- `CH`. -/
def ch (x y z : UInt32) : UInt32 := (x &&& y) ^^^ (~~~x &&& z)

/-- `MAJ`. -/
def maj (x y z : UInt32) : UInt32 := (x &&& y) ^^^ (x &&& z) ^^^ (y &&& z)

/-- `EP0`. -/
def ep0 (x : UInt32) : UInt32 := rotRight x 2 ^^^ rotRight x 13 ^^^ rotRight x 22

/-- `EP1`. -/
def ep1 (x : UInt32) : UInt32 := rotRight x 6 ^^^ rotRight x 11 ^^^ rotRight x 25

/-- `SIG0`. -/
def sig0 (x : UInt32) : UInt32 := rotRight x 7 ^^^ rotRight x 18 ^^^ (x >>> 3)

/-- `SIG1`. -/
def sig1 (x : UInt32) : UInt32 := rotRight x 17 ^^^ rotRight x 19 ^^^ (x >>> 10)

/-- The eight words `h[0]`, …, `h[7]` (and `wv`) of the hash state. -/
structure Words where
  w0 : UInt32
  w1 : UInt32
  w2 : UInt32
  w3 : UInt32
  w4 : UInt32
  w5 : UInt32
  w6 : UInt32
  w7 : UInt32
  deriving DecidableEq, Repr

namespace Words

/-- The words in order. -/
def toList (h : Words) : List UInt32 := [h.w0, h.w1, h.w2, h.w3, h.w4, h.w5, h.w6, h.w7]

/-- `h[j] += wv[j]` for every `j`. -/
def add (h wv : Words) : Words :=
  ⟨h.w0 + wv.w0, h.w1 + wv.w1, h.w2 + wv.w2, h.w3 + wv.w3,
    h.w4 + wv.w4, h.w5 + wv.w5, h.w6 + wv.w6, h.w7 + wv.w7⟩

end Words

/-- The initial state. -/
def init : Words :=
  ⟨0x6a09e667, 0xbb67ae85, 0x3c6ef372, 0xa54ff53a, 0x510e527f, 0x9b05688c, 0x1f83d9ab, 0x5be0cd19⟩

/-- The big-endian word at byte `4 * j` of a block. -/
def blockWord (sub_block : Bytes) (j : ℕ) : UInt32 :=
  let byte (i : ℕ) : UInt32 := (sub_block.getD (j * 4 + i) 0).toUInt32
  (byte 0 <<< 24) ||| (byte 1 <<< 16) ||| (byte 2 <<< 8) ||| byte 3

/-- The message schedule: sixteen block words, then one word from four earlier ones each round. -/
def schedule (sub_block : Bytes) : List UInt32 :=
  (List.range' 16 48).foldl
    (fun w j => w ++ [sig1 (w.getD (j - 2) 0) + w.getD (j - 7) 0 + sig0 (w.getD (j - 15) 0)
      + w.getD (j - 16) 0])
    ((List.range 16).map (blockWord sub_block))

/-- One of the 64 rounds. -/
def round (w : List UInt32) (wv : Words) (j : ℕ) : Words :=
  let t1 := wv.w7 + ep1 wv.w4 + ch wv.w4 wv.w5 wv.w6 + k.getD j 0 + w.getD j 0
  let t2 := ep0 wv.w0 + maj wv.w0 wv.w1 wv.w2
  ⟨t1 + t2, wv.w0, wv.w1, wv.w2, wv.w3 + t1, wv.w4, wv.w5, wv.w6⟩

/-- The body of the block loop of `transform`. -/
def compress (h : Words) (sub_block : Bytes) : Words :=
  h.add ((List.range 64).foldl (round (schedule sub_block)) h)

/-- The byte offset `i << 6` of block `i`, computed in 32 bits. -/
def blockOffset (i : ℕ) : ℕ := (i <<< 6) % 2 ^ 32

/-- `Hash::transform`. -/
def transform (message : Bytes) (block_nb : ℕ) (h : Words) : Words :=
  (List.range block_nb).foldl (fun h i => compress h (message.drop (blockOffset i))) h

/-- The state after the last block. `block_nb` is a 32-bit integer. -/
def state (input : Bytes) : Words :=
  let msg := padMessage input
  transform msg (msg.length / 64 % 2 ^ 32) init

/-- `ss << std::hex << std::setw(8) << std::setfill('0') << w`. -/
def hexWord (w : UInt32) : Bytes :=
  ((Nat.toDigits 16 w.toNat).leftpad 8 '0').map fun c => c.toNat.toUInt8

/-- `Hash::sha256`. -/
def sha256 (input : Bytes) : Bytes := (state input).toList.flatMap hexWord

/-- A word is rendered as eight characters. -/
theorem length_hexWord (w : UInt32) : (hexWord w).length = 8 := by
  have h : (Nat.toDigits 16 w.toNat).length ≤ 8 := by
    rw [Nat.length_toDigits_le_iff (by decide) (by decide)]
    exact w.toNat_lt
  simp only [hexWord, List.leftpad, List.length_map, List.length_append, List.length_replicate]
  omega

/-- The digest is rendered as 64 characters. -/
theorem length_sha256 (input : Bytes) : (sha256 input).length = 64 := by
  simp [sha256, Words.toList, length_hexWord]

/-- The character of a hexadecimal digit reads back as the digit. -/
theorem hexDigit_digitChar {d : ℕ} (h : d < 16) :
    hexDigit (Nat.digitChar d).toNat.toUInt8 = some d := by
  revert d
  decide

/-- Digits with leading zeros read back as the number. -/
theorem ofHexDigits_toDigits (n : ℕ) :
    ofHexDigits ((Nat.toDigits 16 n).map fun c => c.toNat.toUInt8) = n ∧
      ∀ c ∈ (Nat.toDigits 16 n).map fun c => c.toNat.toUInt8, (hexDigit c).isSome := by
  induction n using Nat.strongRecOn with
  | ind n ih =>
    by_cases hn : n < 16
    · rw [Nat.toDigits_of_lt_base hn]
      simp [ofHexDigits, hexDigit_digitChar hn]
    · -- the last digit is `n % 16`, those in front of it are the digits of `n / 16`
      obtain ⟨hval, hdig⟩ := ih (n / 16) (by omega)
      have hlast := hexDigit_digitChar (d := n % 16) (by omega)
      rw [Nat.toDigits_of_base_le (by decide) (by omega), List.map_append]
      refine ⟨?_, ?_⟩
      · rw [ofHexDigits, List.foldl_append]
        change ofHexDigits _ * 16 + _ = _
        rw [hval]
        simp [hlast]
        omega
      · intro c hc
        rcases List.mem_append.mp hc with hc | hc
        · exact hdig c hc
        · simp_all

/-- A rendered word reads back as the word. -/
theorem stoull16_hexWord (w : UInt32) : stoull16 (hexWord w) = .ok w.toNat := by
  obtain ⟨hval, hdig⟩ := ofHexDigits_toDigits w.toNat
  -- the word is filled up with zeros in front
  have hzero (n : ℕ) (ds : Bytes) : ofHexDigits (List.replicate n 48 ++ ds) = ofHexDigits ds := by
    induction n with
    | zero => rfl
    | succ n ih => exact ih
  have heq : ofHexDigits (hexWord w) = w.toNat := by
    rw [hexWord, List.leftpad, List.map_append, List.map_replicate]
    exact (hzero _ _).trans hval
  rw [stoull16_eq_ok, heq]
  · exact List.ne_nil_of_length_pos (by simp [length_hexWord])
  · rw [hexWord, List.leftpad, List.map_append, List.map_replicate]
    intro c hc
    rcases List.mem_append.mp hc with hc | hc
    · rw [List.eq_of_mem_replicate hc]
      rfl
    · exact hdig c hc
  · rw [heq]
    exact w.toNat_lt.trans (by decide)

/-- Piece `i` of a concatenation of pieces of one length. -/
theorem take_drop_flatMap {α β : Type} {f : α → List β} {n : ℕ} (hf : ∀ a, (f a).length = n)
    {l : List α} {i : ℕ} (hi : i < l.length) :
    ((l.flatMap f).drop (i * n)).take n = f l[i] := by
  induction l generalizing i with
  | nil => simp at hi
  | cons a l ih =>
    rw [List.flatMap_cons]
    cases i with
    | zero => simpa using List.take_left' (hf a)
    | succ i =>
      -- behind the first piece, piece `i + 1` is piece `i`
      have hdrop : (f a ++ l.flatMap f).drop ((i + 1) * n) = (l.flatMap f).drop (i * n) := by
        rw [Nat.succ_mul, Nat.add_comm, ← List.drop_drop, List.drop_left' (hf a)]
      rw [hdrop, List.getElem_cons_succ]
      exact ih (by simpa using hi)

/-- The eight characters from `8 * i` of a digest are those of state word `i`. -/
theorem substr_sha256 (input : Bytes) {i : ℕ} (hi : i < 8) :
    substr (sha256 input) (i * 8) 8 = .ok (hexWord ((state input).toList.getD i 0)) := by
  have hword : i < (state input).toList.length := hi
  rw [substr_eq_ok _ (by rw [length_sha256]; omega), sha256, take_drop_flatMap length_hexWord hword]
  simp [List.getD_eq_getElem?_getD, hword]

/-- State word `i`, read back from the digest. -/
theorem stoull16_word (input : Bytes) {i : ℕ} (hi : i < 8) :
    (substr (sha256 input) (i * 8) 8).bind stoull16
      = .ok ((state input).toList.getD i 0).toNat := by
  rw [substr_sha256 input hi]
  exact stoull16_hexWord _

end Crypto.Hash
