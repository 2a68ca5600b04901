import Akkon.Crypto.Hash

/-!
# `indexer::BloomFilter`

The bit vector of `BloomFilter.cpp` and its hash functions, which are the 32-bit words of the item's
SHA-256 digest modulo the number of bits. `hash` cuts the digest with `substr` and reads each piece
with `stoull`, both of which may throw.

* `hash_eq_ok`: neither ever throws, and the indices are the digest words (`indices`);
* `contains_add`: after `add`, the filter possibly contains the item;
* `contains_add_of_contains`: `add` never removes another item.
-/

namespace Indexer

open Cpp

/-- A filter with at least one bit. The size is fixed by the constructor. -/
structure BloomFilter where
  /-- `m_bits`. -/
  m_bits : Array Bool
  /-- `m_num_hashes`, a `uint8_t`. -/
  m_num_hashes : UInt8
  /-- The constructor is called with a positive size. -/
  size_pos : 0 < m_bits.size
  deriving DecidableEq

namespace BloomFilter

/-- `BloomFilter(size_in_bits, num_hash_functions)`. -/
def new (size_in_bits : ℕ) (num_hash_functions : UInt8) (h : 0 < size_in_bits) : BloomFilter :=
  ⟨Array.replicate size_in_bits false, num_hash_functions, by simpa using h⟩

variable (bf : BloomFilter)

/-- `BloomFilter::hash`. -/
def hash (item : Bytes) : Except Exn (List ℕ) :=
  let sha256_hex := Crypto.Hash.sha256 item
  (List.range (min bf.m_num_hashes.toNat 8)).mapM fun i => do
    let chunk ← substr sha256_hex (i * 8) 8
    let h ← stoull16 chunk
    return h % bf.m_bits.size

/-- The loop `m_bits[h] = true` over the hashes. -/
def setAll (bits : Array Bool) (hashes : List ℕ) : Array Bool :=
  hashes.foldl (fun bits h => bits.setIfInBounds h true) bits

/-- Setting bits keeps the number of bits. -/
@[simp]
theorem size_setAll (bits : Array Bool) (hashes : List ℕ) :
    (setAll bits hashes).size = bits.size := by
  induction hashes generalizing bits with
  | nil => rfl
  | cons h hs ih => exact (ih _).trans (Array.size_setIfInBounds ..)

/-- The filter with the bits of the hashes set. -/
def setBits (hashes : List ℕ) : BloomFilter :=
  ⟨setAll bf.m_bits hashes, bf.m_num_hashes, by
    rw [size_setAll]
    exact bf.size_pos⟩

/-- `BloomFilter::add`. -/
def add (item : Bytes) : Except Exn BloomFilter := do
  let hashes ← bf.hash item
  return bf.setBits hashes

/-- Whether all the bits are set. -/
def allSet (hashes : List ℕ) : Bool := hashes.all fun h => bf.m_bits.getD h false

/-- `BloomFilter::possiblyContains`. -/
def possiblyContains (item : Bytes) : Except Exn Bool := do
  let hashes ← bf.hash item
  return bf.allSet hashes

/-! ## The indices -/

/-- The indices of an item: the first digest words modulo the number of bits. -/
def indices (item : Bytes) : List ℕ :=
  (List.range (min bf.m_num_hashes.toNat 8)).map fun i =>
    ((Crypto.Hash.state item).toList.getD i 0).toNat % bf.m_bits.size

/-- `hash` never throws. -/
theorem hash_eq_ok (item : Bytes) : bf.hash item = .ok (bf.indices item) := by
  -- by induction on the word numbers, which are all below 8
  have hmap (is : List ℕ) (his : ∀ i ∈ is, i < 8) :
      (is.mapM fun i => do
        let chunk ← substr (Crypto.Hash.sha256 item) (i * 8) 8
        let h ← stoull16 chunk
        return h % bf.m_bits.size) =
      (.ok (is.map fun i =>
        ((Crypto.Hash.state item).toList.getD i 0).toNat % bf.m_bits.size) : Except Exn _) := by
    induction is with
    | nil => rfl
    | cons i is ih =>
      rw [List.mapM_cons, ih fun j hj => his j (by simp [hj]),
        Crypto.Hash.substr_sha256 item (his i (by simp))]
      change ((stoull16 _).bind _).bind _ = _
      rw [Crypto.Hash.stoull16_hexWord]
      rfl
  exact hmap _ fun i hi => by simp at hi; omega

theorem lt_size_of_mem_indices {item : Bytes} {i : ℕ} (h : i ∈ bf.indices item) :
    i < bf.m_bits.size := by
  obtain ⟨j, -, rfl⟩ := List.mem_map.mp h
  exact Nat.mod_lt _ bf.size_pos

/-- The answer of `possiblyContains`. -/
def contains (item : Bytes) : Bool := bf.allSet (bf.indices item)

theorem possiblyContains_eq_ok (item : Bytes) :
    bf.possiblyContains item = .ok (bf.contains item) := by
  rw [possiblyContains, hash_eq_ok]
  rfl

theorem add_eq_ok (item : Bytes) : bf.add item = .ok (bf.setBits (bf.indices item)) := by
  rw [add, hash_eq_ok]
  rfl

/-! ## Setting bits -/

variable {bf}

/-- A bit is set afterwards when it was set before or is one of the hashes. -/
theorem getD_setAll {bits : Array Bool} {hashes : List ℕ} (hlt : ∀ h ∈ hashes, h < bits.size)
    (i : ℕ) :
    (setAll bits hashes).getD i false = (bits.getD i false || decide (i ∈ hashes)) := by
  induction hashes generalizing bits with
  | nil => simp [setAll]
  | cons h hs ih =>
    change (setAll (bits.setIfInBounds h true) hs).getD i false = _
    -- the rest of the hashes sees the bits with `h` set
    rw [ih fun x hx => by simpa using hlt x (by simp [hx])]
    have hb := hlt h (by simp)
    by_cases hi : i = h
    · subst hi
      simp [Array.getD_eq_getD_getElem?, hb]
    · simp [Array.getD_eq_getD_getElem?, hi, Ne.symm hi]

/-- Setting bits keeps the indices of every item. -/
@[simp]
theorem indices_setBits (hashes : List ℕ) (item : Bytes) :
    (bf.setBits hashes).indices item = bf.indices item := by
  simp [indices, setBits]

/-- The filter possibly contains what was added. -/
theorem contains_add (item : Bytes) : (bf.setBits (bf.indices item)).contains item = true := by
  rw [contains, indices_setBits, allSet, List.all_eq_true]
  intro i hi
  change (setAll _ _).getD i false = true
  rw [getD_setAll fun h hh => bf.lt_size_of_mem_indices hh]
  simp [hi]

/-- `add` never removes an item. -/
theorem contains_add_of_contains {item other : Bytes} (h : bf.contains item = true) :
    (bf.setBits (bf.indices other)).contains item = true := by
  rw [contains, allSet, List.all_eq_true] at h
  rw [contains, indices_setBits, allSet, List.all_eq_true]
  intro i hi
  change (setAll _ _).getD i false = true
  rw [getD_setAll fun h hh => bf.lt_size_of_mem_indices hh, h i hi]
  rfl

end BloomFilter

end Indexer
