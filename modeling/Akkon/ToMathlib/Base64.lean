import Mathlib.Data.List.GetD
import Mathlib.Data.UInt

/-!
# Base64 as RFC 4648 defines it

The encoding of section 4: groups of three bytes are read as 24-bit numbers, whose four 6-bit digits
are characters of the alphabet. A last group of one or two bytes is filled up with zero bits, and the
characters that hold none of its bits are written as `=`.

* `decode`: the byte string of an encoding, padding included;
* `decode_encode`, `encode_injective`: decoding undoes encoding.
-/

namespace Base64

/-- The alphabet. -/
def alphabet : List UInt8 :=
  "ABCDEFGHIJKLMNOPQRSTUVWXYZabcdefghijklmnopqrstuvwxyz0123456789+/".toList.map fun c =>
    c.toNat.toUInt8

/-- The character of a 6-bit digit. -/
def digit (n : ℕ) : UInt8 := alphabet.getD n 0

/-- The padding character. -/
def padding : UInt8 := 61

/-- The number of a group of three bytes. -/
def group (a b c : UInt8) : ℕ := a.toNat * 2 ^ 16 + b.toNat * 2 ^ 8 + c.toNat

/-- Character `i` of a group, the most significant one first. -/
def char (n i : ℕ) : UInt8 := digit (n / 64 ^ (3 - i) % 64)

/-- The encoding of a byte string. -/
def encode : List UInt8 → List UInt8
  | [] => []
  | [a] => [char (group a 0 0) 0, char (group a 0 0) 1, padding, padding]
  | [a, b] => [char (group a b 0) 0, char (group a b 0) 1, char (group a b 0) 2, padding]
  | a :: b :: c :: s =>
    char (group a b c) 0 :: char (group a b c) 1 :: char (group a b c) 2 :: char (group a b c) 3 ::
      encode s

/-! ## Decoding -/

/-- The digit of a character of the alphabet. -/
def value (c : UInt8) : Option ℕ := alphabet.findIdx? (· == c)

/-- The three bytes of a 24-bit number, the most significant one first. -/
def bytes (n : ℕ) : List UInt8 :=
  [(n / 2 ^ 16).toUInt8, (n / 2 ^ 8).toUInt8, n.toUInt8]

/-- The number of a group of four digits. -/
def quantum (w x y z : ℕ) : ℕ := w * 64 ^ 3 + x * 64 ^ 2 + y * 64 + z

/-- The byte string of an encoding. The last four characters may end in `=` or in `==`; every other
text that is not made of groups of four characters of the alphabet is rejected. -/
def decode : List UInt8 → Option (List UInt8)
  | [] => some []
  | a :: b :: c :: d :: s =>
    if c = padding ∧ d = padding ∧ s = [] then do
      let w ← value a
      let x ← value b
      return (bytes (quantum w x 0 0)).take 1
    else if d = padding ∧ s = [] then do
      let w ← value a
      let x ← value b
      let y ← value c
      return (bytes (quantum w x y 0)).take 2
    else do
      let w ← value a
      let x ← value b
      let y ← value c
      let z ← value d
      let rest ← decode s
      return bytes (quantum w x y z) ++ rest
  | _ => none

/-! ## Decoding an encoding -/

/-- A digit, and what its character is read as. -/
theorem value_digit {n : ℕ} (hn : n < 64) : value (digit n) = some n ∧ digit n ≠ padding := by
  have hall : ∀ n < 64, value (digit n) = some n ∧ digit n ≠ padding := by decide +kernel
  exact hall n hn

theorem value_char (n i : ℕ) : value (char n i) = some (n / 64 ^ (3 - i) % 64) :=
  (value_digit (Nat.mod_lt _ (by decide))).1

theorem char_ne_padding (n i : ℕ) : char n i ≠ padding :=
  (value_digit (Nat.mod_lt _ (by decide))).2

/-- What holds of the alphabet and of the padding holds of every character of an encoding. -/
theorem forall_mem_encode {p : UInt8 → Prop} (halphabet : ∀ c ∈ alphabet, p c) (hpad : p padding)
    (s : List UInt8) : ∀ c ∈ encode s, p c := by
  have hchar (n i : ℕ) : p (char n i) := by
    have hlength : alphabet.length = 64 := by decide
    have hmod : n / 64 ^ (3 - i) % 64 < alphabet.length := hlength ▸ Nat.mod_lt _ (by decide)
    rw [char, digit, List.getD_eq_getElem _ _ hmod]
    exact halphabet _ (List.getElem_mem _)
  induction s using encode.induct with
  | case1 => simp [encode]
  | case2 a => simp [encode, hchar, hpad]
  | case3 a b => simp [encode, hchar, hpad]
  | case4 a b c s ih => simpa [encode, hchar] using ih

/-- The bytes of a group are read back from its number. -/
theorem bytes_group (a b c : UInt8) : bytes (group a b c) = [a, b, c] := by
  have ha := a.toNat_lt
  have hb := b.toNat_lt
  have hc := c.toNat_lt
  have hbyte (x : UInt8) (n : ℕ) (h : n % 256 = x.toNat) : n.toUInt8 = x := by
    rw [← UInt8.toNat_inj, ← h]
    simp [Nat.toUInt8]
  rw [bytes, hbyte a _ (by rw [group]; omega), hbyte b _ (by rw [group]; omega),
    hbyte c _ (by rw [group]; omega)]

/-- The number of a group is put together from its digits. -/
theorem quantum_group (a b c : UInt8) :
    quantum (group a b c / 64 ^ 3 % 64) (group a b c / 64 ^ 2 % 64) (group a b c / 64 ^ 1 % 64)
      (group a b c / 64 ^ 0 % 64) = group a b c := by
  have ha := a.toNat_lt
  have hb := b.toNat_lt
  have hc := c.toNat_lt
  rw [quantum, group]
  omega

/-- A digit that holds only zero bits of the filling. -/
theorem group_mod_64 (a b : UInt8) : group a b 0 / 64 ^ 0 % 64 = 0 := by
  rw [group, UInt8.toNat_zero]
  omega

theorem group_div_64 (a : UInt8) : group a 0 0 / 64 ^ 1 % 64 = 0 := by
  rw [group, UInt8.toNat_zero]
  omega

/-- Decoding undoes encoding. -/
theorem decode_encode (s : List UInt8) : decode (encode s) = some s := by
  induction s using encode.induct with
  | case1 => rfl
  | case2 a =>
    have hnum := quantum_group a 0 0
    rw [group_div_64, group_mod_64] at hnum
    rw [encode, decode, if_pos ⟨rfl, rfl, rfl⟩, value_char, value_char]
    show some ((bytes (quantum _ _ 0 0)).take 1) = _
    rw [hnum, bytes_group]
    rfl
  | case3 a b =>
    have hnum := quantum_group a b 0
    rw [group_mod_64] at hnum
    rw [encode, decode, if_neg fun h => char_ne_padding _ _ h.1, if_pos ⟨rfl, rfl⟩, value_char,
      value_char, value_char]
    show some ((bytes (quantum _ _ _ 0)).take 2) = _
    rw [hnum, bytes_group]
    rfl
  | case4 a b c s ih =>
    rw [encode, decode, if_neg fun h => char_ne_padding _ _ h.1,
      if_neg fun h => char_ne_padding _ _ h.1, value_char, value_char, value_char, value_char, ih]
    show some (bytes (quantum _ _ _ _) ++ s) = _
    rw [quantum_group, bytes_group]
    rfl

/-- Byte strings are told apart by their encodings. -/
theorem encode_injective : Function.Injective encode := by
  intro s t h
  have hdecode := decode_encode s
  rw [h, decode_encode] at hdecode
  exact (Option.some.inj hdecode).symm

end Base64
