import Akkon.Cpp.String

/-!
# Message padding

`Hash::sha256` and `sha1` pad the message by the same loops: one `0x80` byte, zero bytes until the
size is 56 modulo 64, and the bit length as eight bytes, most significant first. The padded message
is a whole number of 64-byte blocks (`length_padMessage`).
-/

namespace Crypto

open Cpp

/-- `while (msg.size() % 64 != 56) msg.push_back(0x00)`, for at most `fuel` rounds. -/
def pushZeros : ℕ → Bytes → Bytes
  | 0, msg => msg
  | fuel + 1, msg => if msg.length % 64 ≠ 56 then pushZeros fuel (msg ++ [0]) else msg

/-- The eight bytes of a 64-bit value, most significant first. -/
def bigEndian64 (n : ℕ) : Bytes :=
  [7, 6, 5, 4, 3, 2, 1, 0].map fun i => (n >>> (i * 8)).toUInt8

/-- The padded message. The bit length is computed in 64 bits. -/
def padMessage (msg : Bytes) : Bytes :=
  pushZeros 64 (msg ++ [0x80]) ++ bigEndian64 (wrap64 (msg.length * 8))

/-- The zero loop runs at most 63 times: with that much fuel it ends at 56 modulo 64. -/
theorem length_pushZeros_mod {fuel : ℕ} {msg : Bytes}
    (h : (56 + 64 - msg.length % 64) % 64 ≤ fuel) : (pushZeros fuel msg).length % 64 = 56 := by
  induction fuel generalizing msg with
  | zero =>
    rw [pushZeros]
    omega
  | succ fuel ih =>
    rw [pushZeros]
    split
    · apply ih
      simp only [List.length_append, List.length_singleton]
      omega
    · omega

/-- The padded message is a whole number of blocks. -/
theorem length_padMessage (msg : Bytes) : (padMessage msg).length % 64 = 0 := by
  have h : (pushZeros 64 (msg ++ [0x80])).length % 64 = 56 := length_pushZeros_mod (by omega)
  simp only [padMessage, List.length_append, bigEndian64, List.length_map, List.length_cons,
    List.length_nil]
  omega

end Crypto
