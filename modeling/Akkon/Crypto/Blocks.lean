import Akkon.Crypto.Sha256

/-!
# Which blocks `transform` compresses

`block_nb`, the loop index and the byte offset `i << 6` of `Hash::transform` are 32-bit integers,
whatever the size of the message.

* `offsets`, `state_eq_foldl_offsets`: the byte offsets of the blocks that are compressed, in order;
* `eachBlockOnce_iff`: they are `0`, `64`, `128`, … over the whole padded message exactly as long as
  there are at most `2 ^ 26` blocks;
* `sha256_eq_of_take_eq`: of a longer message the bytes from `2 ^ 32` on are not hashed at all.
-/

namespace Crypto.Hash

open Cpp

/-- The number of 64-byte blocks of the padded message. -/
def blocks (input : Bytes) : ℕ := (padMessage input).length / 64

/-- `block_nb`. -/
def block_nb (input : Bytes) : ℕ := blocks input % 2 ^ 32

/-- The byte offsets of the blocks that `transform` compresses, in order. -/
def offsets (block_nb : ℕ) : List ℕ := (List.range block_nb).map blockOffset

/-- `transform` takes the blocks at the offsets one by one. -/
theorem transform_eq_foldl_offsets (message : Bytes) (block_nb : ℕ) (h : Words) :
    transform message block_nb h =
      (offsets block_nb).foldl (fun h o => compress h (message.drop o)) h := by
  rw [offsets, List.foldl_map]
  rfl

theorem state_eq_foldl_offsets (input : Bytes) :
    state input = (offsets (block_nb input)).foldl
      (fun h o => compress h ((padMessage input).drop o)) init :=
  transform_eq_foldl_offsets (padMessage input) (block_nb input) init

/-- Every block of the padded message is compressed once, in order. -/
def EachBlockOnce (input : Bytes) : Prop :=
  offsets (block_nb input) = (List.range (blocks input)).map fun i => 64 * i

theorem blockOffset_eq {i : ℕ} (h : i < 2 ^ 26) : blockOffset i = 64 * i := by
  rw [blockOffset, Nat.shiftLeft_eq, Nat.mod_eq_of_lt (by omega)]
  omega

theorem blocks_eq (input : Bytes) : blocks input = (input.length + 72) / 64 := by
  rw [blocks, length_padMessage]
  omega

theorem eachBlockOnce_of_le {input : Bytes} (h : blocks input ≤ 2 ^ 26) : EachBlockOnce input := by
  rw [EachBlockOnce, block_nb, Nat.mod_eq_of_lt (by omega), offsets]
  refine List.map_congr_left fun i hi => ?_
  have hlt : i < blocks input := List.mem_range.mp hi
  exact blockOffset_eq (by omega)

/-- One block more, and the offset of the last one is `0` again, or blocks are left out. -/
theorem not_eachBlockOnce_of_lt {input : Bytes} (h : 2 ^ 26 < blocks input) :
    ¬ EachBlockOnce input := by
  intro honce
  have hcount : block_nb input = blocks input := by
    have hlen := congrArg List.length honce
    rwa [offsets, List.length_map, List.length_map, List.length_range, List.length_range] at hlen
  rw [EachBlockOnce, hcount, offsets, List.map_inj_left] at honce
  have hlast := honce (2 ^ 26) (List.mem_range.mpr h)
  have hzero : blockOffset (2 ^ 26) = 0 := by decide
  rw [hzero] at hlast
  omega

/-- Every block is hashed once exactly for messages of at most `2 ^ 32 - 9` bytes. -/
theorem eachBlockOnce_iff (input : Bytes) :
    EachBlockOnce input ↔ input.length ≤ 2 ^ 32 - 9 := by
  have hblocks := blocks_eq input
  constructor
  · intro honce
    by_contra hlen
    exact not_eachBlockOnce_of_lt (by omega) honce
  · intro hlen
    exact eachBlockOnce_of_le (by omega)

/-- `2 ^ 32` zero bytes. -/
theorem not_eachBlockOnce_replicate :
    (List.replicate (2 ^ 32) (0 : UInt8)).length < 2 ^ 61 ∧
      ¬ EachBlockOnce (List.replicate (2 ^ 32) 0) := by
  have hlen : (List.replicate (2 ^ 32) (0 : UInt8)).length = 2 ^ 32 := List.length_replicate
  refine ⟨by omega, not_eachBlockOnce_of_lt ?_⟩
  rw [blocks_eq, hlen]
  decide

/-! ## What is left out -/

/-- A block is 64 bytes. -/
theorem compress_congr (h : Words) {s t : Bytes} (hst : s.take 64 = t.take 64) :
    compress h s = compress h t := by
  have hbyte {k : ℕ} (hk : k < 64) : s.getD k 0 = t.getD k 0 := by
    have hk' := congrArg (fun l => l.getD k 0) hst
    simpa [List.getD_eq_getElem?_getD, hk] using hk'
  have hword : (List.range 16).map (blockWord s) = (List.range 16).map (blockWord t) := by
    refine List.map_congr_left fun j hj => ?_
    have hj : j < 16 := List.mem_range.mp hj
    simp only [blockWord]
    rw [hbyte (by omega), hbyte (by omega), hbyte (by omega), hbyte (by omega)]
  rw [compress, compress, schedule, schedule, hword]

/-- Every offset leaves room for a block below `2 ^ 32`. -/
theorem blockOffset_add_le (i : ℕ) : blockOffset i + 64 ≤ 2 ^ 32 := by
  have hmul : i <<< 6 = i * 64 := Nat.shiftLeft_eq i 6
  rw [blockOffset, hmul]
  omega

/-- Only the first `2 ^ 32` bytes of the padded message are hashed. -/
theorem sha256_eq_of_take_eq {s t : Bytes} (hlen : s.length = t.length)
    (htake : (padMessage s).take (2 ^ 32) = (padMessage t).take (2 ^ 32)) :
    sha256 s = sha256 t := by
  have hnb : block_nb s = block_nb t := by rw [block_nb, block_nb, blocks_eq, blocks_eq, hlen]
  have hstate : state s = state t := by
    rw [state_eq_foldl_offsets, state_eq_foldl_offsets, hnb]
    refine List.foldl_ext _ _ _ fun h o ho => ?_
    obtain ⟨i, -, rfl⟩ := List.mem_map.mp ho
    have hle := blockOffset_add_le i
    -- the block lies in the part that the two messages share
    have hblock (u : Bytes) : (u.drop (blockOffset i)).take 64 =
        ((u.take (2 ^ 32)).drop (blockOffset i)).take 64 := by
      rw [List.drop_take, List.take_take, Nat.min_eq_left (by omega)]
    refine compress_congr h ?_
    rw [hblock, htake, ← hblock]
  rw [sha256, sha256, hstate]

end Crypto.Hash
