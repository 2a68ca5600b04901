import Akkon.Memory.ArenaAllocator

/-!
# Which ranges `check_access` accepts

The upper test of `check_access` adds the size to the pointer in 64 bits.

* `AcceptsExactly`: a call returns for the ranges inside the arena and raises the alarm for all
  others;
* `acceptsExactly_iff_not_wrapsInto`: that fails exactly for the ranges whose end wraps around to an
  address that is not behind the arena;
* `check_access_exact_iff`: the same for an arena in use, and for the blocks it hands out with their
  own sizes.
-/

namespace Memory

open Cpp Security

namespace ArenaAllocator

variable (arena : ArenaAllocator)

/-- The `size` bytes at `ptr` lie in the arena, over the integers. -/
def InRange (ptr size : UInt64) : Prop :=
  arena.m_buffer.toNat ≤ ptr.toNat ∧
    ptr.toNat + size.toNat ≤ arena.m_buffer.toNat + arena.m_capacity.toNat

/-- What `check_access` is to do: return for the ranges of the arena, and otherwise throw with the
lockdown set to `IMMEDIATE`. -/
structure AcceptsExactly (m : LifecycleManager) (ptr size : UInt64) : Prop where
  returns_iff : (arena.check_access m ptr size).2 = .ok () ↔ arena.InRange ptr size
  alarm : ¬ arena.InRange ptr size →
    (∃ alarm, (arena.check_access m ptr size).2 = .error alarm) ∧
      (arena.check_access m ptr size).1.getLockdownState = .IMMEDIATE

/-- The range starts in the arena or behind it, and its end wraps around to an address that is not
behind the arena. -/
def WrapsInto (ptr size : UInt64) : Prop :=
  arena.m_buffer.toNat ≤ ptr.toNat ∧ 2 ^ 64 ≤ ptr.toNat + size.toNat ∧
    ptr.toNat + size.toNat ≤ 2 ^ 64 + (arena.m_buffer.toNat + arena.m_capacity.toNat)

variable {arena} {m : LifecycleManager} {ptr size : UInt64}

/-- A call returns, or throws with the lockdown set. -/
theorem check_access_cases (arena : ArenaAllocator) (m : LifecycleManager) (ptr size : UInt64) :
    (arena.check_access m ptr size).2 = .ok () ∨
      (∃ alarm, (arena.check_access m ptr size).2 = .error alarm) ∧
        (arena.check_access m ptr size).1.getLockdownState = .IMMEDIATE := by
  rw [check_access]
  cases arena.checkAccess ptr size with
  | ok _ => exact .inl rfl
  | error alarm => exact .inr ⟨⟨alarm, rfl⟩, rfl⟩

/-- When a call returns. -/
theorem check_access_returns_iff (hptr : ptr ≠ 0)
    (hplace : arena.m_buffer.toNat + arena.m_capacity.toNat < 2 ^ 64) :
    (arena.check_access m ptr size).2 = .ok () ↔
      arena.m_buffer.toNat ≤ ptr.toNat ∧
        (ptr.toNat + size.toNat) % 2 ^ 64 ≤ arena.m_buffer.toNat + arena.m_capacity.toNat := by
  have hend : (arena.m_buffer + arena.m_capacity).toNat =
      arena.m_buffer.toNat + arena.m_capacity.toNat := by
    rw [UInt64.toNat_add, Nat.mod_eq_of_lt hplace]
  have hsum : (ptr + size).toNat = (ptr.toNat + size.toNat) % 2 ^ 64 := UInt64.toNat_add ptr size
  rw [check_access, checkAccess, if_neg hptr]
  split_ifs with hout
  · rw [UInt64.lt_iff_toNat_lt, gt_iff_lt, UInt64.lt_iff_toNat_lt, hend, hsum] at hout
    refine iff_of_false (fun h => ?_) (by omega)
    cases h
  · rw [UInt64.lt_iff_toNat_lt, gt_iff_lt, UInt64.lt_iff_toNat_lt, hend, hsum] at hout
    exact iff_of_true rfl (by omega)

/-- `check_access` decides exactly, except where the end of the range wraps around. -/
theorem acceptsExactly_iff_not_wrapsInto (hptr : ptr ≠ 0)
    (hplace : arena.m_buffer.toNat + arena.m_capacity.toNat < 2 ^ 64) :
    arena.AcceptsExactly m ptr size ↔ ¬ arena.WrapsInto ptr size := by
  have hreturns := @check_access_returns_iff arena m ptr size hptr hplace
  have hp := ptr.toNat_lt
  have hs := size.toNat_lt
  constructor
  · rintro ⟨hiff, -⟩ ⟨hstart, hover, hend⟩
    have hin := hiff.mp (hreturns.mpr ⟨hstart, by omega⟩)
    have := hin.2
    omega
  · intro hwrap
    have hiff : (arena.check_access m ptr size).2 = .ok () ↔ arena.InRange ptr size := by
      rw [hreturns, InRange]
      rw [WrapsInto] at hwrap
      omega
    refine ⟨hiff, fun hout => ?_⟩
    exact (check_access_cases arena m ptr size).resolve_left fun h => hout (hiff.mp h)

/-! ## The blocks of `allocate` -/

variable {memory : AddressSpace} {data capacity : UInt64}

/-- The pointer to the next block is the buffer and an offset, added in 64 bits. -/
theorem toNat_user_ptr (h : InUse data capacity arena)
    (hplace : data.toNat + (3 * capacity.toNat + 64) ≤ 2 ^ 64) :
    arena.user_ptr.toNat =
      (arena.m_buffer.toNat + (arena.m_used.toNat + arena.padding.toNat + 64)) % 2 ^ 64 := by
  obtain ⟨rfl, rfl, hused⟩ := h
  have hpad := arena.padding_lt
  have hempty : arena.needed 0 < 2 ^ 64 := by
    rw [needed, UInt64.toNat_zero]
    omega
  rw [← toNat_user_offset hempty, ← UInt64.toNat_add]
  congr 1
  grind

/-- A block that was handed out lies in the arena exactly when the request did not wrap. -/
theorem inRange_user_ptr_iff (h : InUse data capacity arena)
    (hplace : data.toNat + (3 * capacity.toNat + 64) ≤ 2 ^ 64)
    (hroom : arena.needed size % 2 ^ 64 ≤ arena.m_capacity.toNat) :
    arena.InRange arena.user_ptr size ↔ arena.needed size < 2 ^ 64 := by
  have hptr := toNat_user_ptr h hplace
  obtain ⟨rfl, rfl, hused⟩ := h
  have hpad := arena.padding_lt
  have hneeded : arena.needed size =
    arena.m_used.toNat + arena.padding.toNat + (size.toNat + 128) := rfl
  have hbuffer := arena.m_buffer.toNat_lt
  rw [InRange, hptr]
  constructor
  · rintro ⟨hstart, hend⟩
    by_contra hwrap
    omega
  · intro hfit
    omega

/-- `check_access` decides exactly, for all ranges that do not wrap around and for all blocks of
`allocate` whose request does not wrap. -/
theorem check_access_exact_iff (h : (system memory data capacity).Reachable arena)
    (hplace : data.toNat + (3 * capacity.toNat + 64) ≤ 2 ^ 64) (m : LifecycleManager) :
    (∀ ptr size, ptr ≠ 0 → (arena.AcceptsExactly m ptr size ↔ ¬ arena.WrapsInto ptr size)) ∧
      ∀ size ptr, (arena.allocate size).2 = .ok ptr →
        ((arena.check_access m ptr size).2 = .ok () ∧ arena.AcceptsExactly m ptr size ↔
          arena.needed size < 2 ^ 64) := by
  have hinuse := inUse_of_reachable h
  have hend : arena.m_buffer.toNat + arena.m_capacity.toNat < 2 ^ 64 := by
    rw [hinuse.m_buffer_eq, hinuse.m_capacity_eq]
    omega
  refine ⟨fun ptr size hptr => acceptsExactly_iff_not_wrapsInto hptr hend, fun size ptr hok => ?_⟩
  have hroom : arena.needed size % 2 ^ 64 ≤ arena.m_capacity.toNat := by
    by_contra hroom
    rw [allocate_eq_error arena (by omega)] at hok
    cases hok
  obtain ⟨-, rfl⟩ := allocate_of_ok arena hok
  rw [← inRange_user_ptr_iff hinuse hplace hroom]
  constructor
  · rintro ⟨hreturns, hexact⟩
    exact hexact.returns_iff.mp hreturns
  · intro hin
    have hptr : arena.user_ptr ≠ 0 := fun hzero => by
      have hnat := toNat_user_ptr hinuse hplace
      have hpad := arena.padding_lt
      have hused := hinuse.m_used_le
      have hcap := congrArg UInt64.toNat hinuse.m_capacity_eq
      rw [InRange, hzero, UInt64.toNat_zero] at hin
      rw [hzero, UInt64.toNat_zero] at hnat
      omega
    -- a range that ends in the arena does not wrap around
    have hwrap : ¬ arena.WrapsInto arena.user_ptr size := fun hwrap => by
      have hover := hwrap.2.1
      have hin := hin.2
      omega
    have hexact := (@acceptsExactly_iff_not_wrapsInto arena m _ size hptr hend).mpr hwrap
    exact ⟨hexact.returns_iff.mpr hin, hexact⟩

/-- A fresh arena at address 4096. -/
theorem check_access_exact_iff_new :
    (new (fun _ => 0) 4096 1024).AcceptsExactly .boot 5000 100 ↔
      ¬ (new (fun _ => 0) 4096 1024).WrapsInto 5000 100 :=
  (@check_access_exact_iff _ (fun _ => 0) 4096 1024 (.init rfl) (by decide) .boot).1 5000 100
    (by decide)

/-- The first byte of an arena at address 4096 and a size of `2 ^ 64 - 1`. -/
theorem not_acceptsExactly_wrap :
    (4096 : UInt64).toNat + (3 * (1024 : UInt64).toNat + 64) ≤ 2 ^ 64 ∧
      ∃ arena, (system (fun _ => 0) 4096 1024).Reachable arena ∧
        ¬ arena.AcceptsExactly .boot 4096 18446744073709551615 := by
  refine ⟨by decide, new (fun _ => 0) 4096 1024, .init rfl, ?_⟩
  rw [acceptsExactly_iff_not_wrapsInto (by decide) (by decide), not_not]
  exact ⟨by decide, by decide, by decide⟩

end ArenaAllocator

end Memory
