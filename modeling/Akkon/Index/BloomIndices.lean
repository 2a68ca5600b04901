import Akkon.Crypto.Sha256
import Akkon.Index.BloomFilter

/-!
# The indices of the Bloom filter

The digest passes from eight words through a text of 64 characters into indices of the bit vector.

* `digestWord`, `digestWord_eq`: word `i` of the standard's digest is word `i` of the state;
* `addIndices`, `readIndices`: the loops of `add` and `possiblyContains` with every index checked
  against the bit vector;
* `hash_spec`: the indices are the digest words modulo the number of bits, and neither loop leaves
  the bit vector.
-/

namespace Indexer

open Cpp Crypto.Hash

/-- Word `i` of the digest of an item, most significant bit first. -/
def digestWord (item : Bytes) (i : ℕ) : BitVec 32 := Fips180.word (Fips180.sha256 (bits item)) i

/-- The words of the digest are those of the state. -/
theorem digestWord_eq {item : Bytes} (hlen : item.length < 2 ^ 32 - 64) {i : ℕ} (hi : i < 8) :
    digestWord item i = ((state item).toList.getD i 0).toBitVec := by
  have hwords : Fips180.sha256 (bits item) =
      (state item).toList.flatMap fun w => Fips180.toBits 32 w.toNat := by
    rw [Fips180.sha256, ← toVars_state hlen]
    rfl
  have hi : i < (state item).toList.length := hi
  have hlength (w : UInt32) : (Fips180.toBits 32 w.toNat).length = 32 := Fips180.length_toBits _ _
  rw [digestWord, Fips180.word, hwords, Nat.mul_comm 32 i, take_drop_flatMap hlength hi,
    Fips180.ofBits_toBits, Nat.mod_eq_of_lt (UInt32.toNat_lt _)]
  simp [List.getD_eq_getElem?_getD, hi]

namespace BloomFilter

/-! ## The two loops, with their indices checked -/

/-- The loop `m_bits[h] = true`. -/
def addIndices (m_bits : Array Bool) (hashes : List ℕ) : Option (Array Bool) :=
  hashes.foldlM (fun bits h => if hlt : h < bits.size then some (bits.set h true hlt) else none)
    m_bits

/-- The loop that returns at the first bit that is not set. -/
def readIndices (m_bits : Array Bool) : List ℕ → Option Bool
  | [] => some true
  | h :: hashes =>
    match m_bits[h]? with
    | none => none
    | some bit => if !bit then some false else readIndices m_bits hashes

/-- Indices below the size are never out of bounds when bits are set. -/
theorem addIndices_eq {bits : Array Bool} {hashes : List ℕ} (hlt : ∀ h ∈ hashes, h < bits.size) :
    addIndices bits hashes = some (setAll bits hashes) := by
  induction hashes generalizing bits with
  | nil => rfl
  | cons h hs ih =>
    have hh := hlt h (by simp)
    have hset : bits.set h true hh = bits.setIfInBounds h true := by
      rw [Array.setIfInBounds, dif_pos hh]
    have hbelow : ∀ x ∈ hs, x < (bits.setIfInBounds h true).size := by
      intro x hx
      rw [Array.size_setIfInBounds]
      exact hlt x (by simp [hx])
    rw [addIndices, List.foldlM_cons, dif_pos hh, hset]
    exact ih hbelow

/-- Nor when they are read. -/
theorem readIndices_eq (bf : BloomFilter) {hashes : List ℕ}
    (hlt : ∀ h ∈ hashes, h < bf.m_bits.size) :
    readIndices bf.m_bits hashes = some (bf.allSet hashes) := by
  induction hashes with
  | nil => rfl
  | cons h hs ih =>
    have hh := hlt h (by simp)
    have hbit : bf.m_bits[h]? = some (bf.m_bits.getD h false) := by
      simp [Array.getD_eq_getD_getElem?, hh]
    rw [readIndices, hbit, ih fun x hx => hlt x (by simp [hx]), allSet, allSet, List.all_cons]
    cases bf.m_bits.getD h false with
    | false => rfl
    | true => rfl

/-! ## The indices -/

variable (bf : BloomFilter)

/-- `hashes` are the indices that the digest of `item` gives. -/
structure IndexesDigest (item : Bytes) (hashes : List ℕ) : Prop where
  /-- Neither `substr` nor `stoull` throws. -/
  hash_eq : bf.hash item = .ok hashes
  length_eq : hashes.length = min bf.m_num_hashes.toNat 8
  /-- Index `i` is word `i`, of the state that the code computes and of the digest. -/
  getElem_eq : ∀ i (hi : i < hashes.length),
    hashes[i] = ((state item).toList.getD i 0).toNat % bf.m_bits.size ∧
      hashes[i] = (digestWord item i).toNat % bf.m_bits.size
  lt_size : ∀ h ∈ hashes, h < bf.m_bits.size
  /-- `add` sets the bits, all of them in bounds. -/
  add_eq : bf.add item = .ok (bf.setBits hashes) ∧
    addIndices bf.m_bits hashes = some (bf.setBits hashes).m_bits
  /-- `possiblyContains` reads the bits, all of them in bounds. -/
  possiblyContains_eq : bf.possiblyContains item = .ok (bf.allSet hashes) ∧
    readIndices bf.m_bits hashes = some (bf.allSet hashes)

/-- `hash` gives the digest words modulo the number of bits. -/
theorem hash_spec {item : Bytes} (hlen : item.length < 2 ^ 32 - 64) :
    bf.IndexesDigest item (bf.indices item) where
  hash_eq := bf.hash_eq_ok item
  length_eq := by simp [indices]
  getElem_eq := by
    intro i hi
    have hi8 : i < 8 := by
      simp only [indices, List.length_map, List.length_range] at hi
      omega
    rw [digestWord_eq hlen hi8]
    have hword : (bf.indices item)[i] =
        ((state item).toList.getD i 0).toNat % bf.m_bits.size := by
      simp [indices]
    exact ⟨hword, hword⟩
  lt_size := fun _ h => bf.lt_size_of_mem_indices h
  add_eq := ⟨bf.add_eq_ok item, addIndices_eq fun _ h => bf.lt_size_of_mem_indices h⟩
  possiblyContains_eq :=
    ⟨bf.possiblyContains_eq_ok item, bf.readIndices_eq fun _ h => bf.lt_size_of_mem_indices h⟩

/-- An item of four blocks, in a filter of 1000 bits and twelve hash functions. -/
theorem hash_spec_fourBlocks :
    (new 1000 12 (by decide)).IndexesDigest (List.replicate 200 97)
      [753, 615, 583, 575, 86, 98, 189, 437] := by
  have hindices : (new 1000 12 (by decide)).indices (List.replicate 200 97) =
      [753, 615, 583, 575, 86, 98, 189, 437] := by
    decide +kernel
  have hlength : (List.replicate 200 (97 : UInt8)).length = 200 := List.length_replicate
  rw [← hindices]
  exact hash_spec _ (by omega)

end BloomFilter

end Indexer
