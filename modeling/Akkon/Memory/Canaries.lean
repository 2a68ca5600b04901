import Akkon.Memory.LiveRegions

/-!
# Canary checking

`verify` over whole runs of requests below `2 ^ 63` bytes, with bytes written to the buffer
in between.

* `Guarded`: the canaries of all live blocks are as they were written; an allocation keeps this, and
  so does a write inside the user's part of a live block (`Guarded.apply`);
* `canary_allocate`: an allocation touches no canary of a live block, intact or not;
* `verify_over_runs`: `verify` passes where nothing was written outside the live blocks since they
  were allocated, and raises the alarm where a canary is damaged.
-/

namespace Memory

open Cpp Security

/-- The address is one of the user's bytes of the allocation, in a buffer at `base`. -/
def AllocInfo.IsUser (base : UInt64) (alloc : AllocInfo) (a : UInt64) : Prop :=
  a - (base + alloc.offset) < alloc.size

instance (base : UInt64) (alloc : AllocInfo) (a : UInt64) : Decidable (alloc.IsUser base a) :=
  inferInstanceAs (Decidable (a - (base + alloc.offset) < alloc.size))

namespace ArenaAllocator

variable {memory : AddressSpace} {data capacity : UInt64} {arena arena' : ArenaAllocator}

/-- A write goes to a byte that a live block gives to its user; requests are ordinary. -/
def Tidy (arena : ArenaAllocator) : Op → Prop
  | .write address _ => ∃ alloc ∈ arena.m_allocs, alloc.IsUser arena.m_buffer address
  | op => Ordinary op

/-- Since the live blocks were allocated, nothing was written outside the user's bytes of blocks
that were live at the time: the run goes through a state without live blocks, and is tidy from there
on. -/
def Undisturbed (memory : AddressSpace) (data capacity : UInt64) (arena : ArenaAllocator) : Prop :=
  ∃ arena₀, (system memory data capacity).ReachableUnder (fun _ op => Ordinary op) arena₀ ∧
    arena₀.m_allocs = [] ∧
    ((system memory data capacity).startingAt arena₀).ReachableUnder Tidy arena

/-- The canaries of all live blocks are as they were written. -/
structure Guarded (data capacity : UInt64) (arena : ArenaAllocator) : Prop
    extends WellFormed data capacity arena where
  intact : ∀ alloc ∈ arena.m_allocs, ∀ a, alloc.IsCanary arena.m_buffer a →
    arena.memory a = canary

section Offsets

variable {alloc : AllocInfo} {a : UInt64}

/-- A live block with its canaries lies in what is used. -/
theorem WellFormed.stop_le (h : WellFormed data capacity arena) (halloc : alloc ∈ arena.m_allocs) :
    alloc.offset.toNat + alloc.size.toNat + 64 ≤ arena.m_used.toNat :=
  (h.stacked.bounds (List.mem_map_of_mem halloc)).2

/-- So it lies far below `2 ^ 64`. -/
theorem WellFormed.bounds (h : WellFormed data capacity arena) (halloc : alloc ∈ arena.m_allocs) :
    64 ≤ alloc.offset.toNat ∧ alloc.offset.toNat + alloc.size.toNat + 64 < 2 ^ 64 := by
  have hused := arena.m_used.toNat_lt
  have hstop := h.stop_le halloc
  exact ⟨h.header_le alloc halloc, by omega⟩

/-- The canaries of a live block, by offset in the buffer. -/
theorem WellFormed.isCanary_iff (h : WellFormed data capacity arena)
    (halloc : alloc ∈ arena.m_allocs) :
    alloc.IsCanary arena.m_buffer a ↔
      (alloc.offset.toNat - 64 ≤ (a - arena.m_buffer).toNat ∧
        (a - arena.m_buffer).toNat < alloc.offset.toNat) ∨
      (alloc.offset.toNat + alloc.size.toNat ≤ (a - arena.m_buffer).toNat ∧
        (a - arena.m_buffer).toNat < alloc.offset.toNat + alloc.size.toNat + 64) := by
  obtain ⟨hheader, hstop⟩ := h.bounds halloc
  have hcanary : CANARY_SIZE.toNat = 64 := rfl
  have hlow : (arena.m_buffer + alloc.offset - CANARY_SIZE - arena.m_buffer).toNat =
      alloc.offset.toNat - 64 := by
    rw [show arena.m_buffer + alloc.offset - CANARY_SIZE - arena.m_buffer =
      alloc.offset - CANARY_SIZE by grind, UInt64.toNat_sub, hcanary]
    omega
  have hhigh : (arena.m_buffer + alloc.offset + alloc.size - arena.m_buffer).toNat =
      alloc.offset.toNat + alloc.size.toNat := by
    rw [show arena.m_buffer + alloc.offset + alloc.size - arena.m_buffer =
      alloc.offset + alloc.size by grind, UInt64.toNat_add]
    omega
  rw [AllocInfo.IsCanary, sub_lt_iff arena.m_buffer (by omega),
    sub_lt_iff arena.m_buffer (by omega),
    hlow, hhigh, hcanary, Nat.sub_add_cancel hheader]

/-- The user's bytes of a live block, by offset in the buffer. -/
theorem WellFormed.isUser_iff (h : WellFormed data capacity arena)
    (halloc : alloc ∈ arena.m_allocs) :
    alloc.IsUser arena.m_buffer a ↔
      alloc.offset.toNat ≤ (a - arena.m_buffer).toNat ∧
        (a - arena.m_buffer).toNat < alloc.offset.toNat + alloc.size.toNat := by
  obtain ⟨-, hstop⟩ := h.bounds halloc
  have hoffset : arena.m_buffer + alloc.offset - arena.m_buffer = alloc.offset := by grind
  rw [AllocInfo.IsUser, sub_lt_iff arena.m_buffer (by rw [hoffset]; omega), hoffset]

/-- The user's bytes of one live block are no canary of any. -/
theorem WellFormed.not_isCanary_of_isUser (h : WellFormed data capacity arena)
    {other : AllocInfo} (halloc : alloc ∈ arena.m_allocs) (hother : other ∈ arena.m_allocs)
    (huser : alloc.IsUser arena.m_buffer a) : ¬ other.IsCanary arena.m_buffer a := by
  rw [h.isUser_iff halloc] at huser
  rw [h.isCanary_iff hother]
  obtain ⟨hheader, -⟩ := h.bounds halloc
  by_cases hne : alloc = other
  · subst hne
    omega
  · have hsymm : Std.Symm fun x y : AllocInfo => x.region.Apart y.region :=
      ⟨fun _ _ hxy => hxy.symm⟩
    have hapart : alloc.region.Apart other.region :=
      (List.pairwise_map.mp h.stacked.pairwise_apart).forall halloc hother hne
    have hmem : (a - arena.m_buffer).toNat ∈ alloc.region.points := by
      change alloc.offset.toNat - 64 ≤ _ ∧ _ < alloc.offset.toNat + alloc.size.toNat + 64
      omega
    have hnot := hapart _ hmem
    change ¬ (other.offset.toNat - 64 ≤ _ ∧ _ < other.offset.toNat + other.size.toNat + 64) at hnot
    omega

/-- An allocation writes over no canary of a live block. -/
theorem canary_allocate (h : WellFormed data capacity arena)
    (hcap : 3 * capacity.toNat + 64 < 2 ^ 64) {size : UInt64} (hsize : size.toNat < 2 ^ 63)
    (halloc : alloc ∈ arena.m_allocs) (ha : alloc.IsCanary arena.m_buffer a) :
    (arena.allocate size).1.memory a = arena.memory a := by
  obtain ⟨-, heq⟩ | ⟨hfit, heq⟩ := allocate_cases h.toInUse hcap hsize
  · rw [heq]
  · -- what is written lies behind everything that was used
    rw [heq]
    by_contra hne
    have hwritten := (memory_withBlock_ne hfit hne).1
    have hstop := h.stop_le halloc
    rw [h.isCanary_iff halloc] at ha
    omega

end Offsets

/-! ## Runs -/

theorem Guarded.of_no_allocs (h : WellFormed data capacity arena) (hnone : arena.m_allocs = []) :
    Guarded data capacity arena :=
  ⟨h, by simp [hnone]⟩

/-- A tidy step keeps all canaries intact. -/
theorem Guarded.apply (h : Guarded data capacity arena) (hcap : 3 * capacity.toNat + 64 < 2 ^ 64)
    {op : Op} (hop : Tidy arena op) : Guarded data capacity (arena.apply op) := by
  cases op with
  | allocate size =>
    refine ⟨h.toWellFormed.apply hcap hop, ?_⟩
    change ∀ alloc ∈ (arena.allocate size).1.m_allocs, _
    obtain ⟨-, heq⟩ | ⟨-, heq⟩ := allocate_cases h.toInUse hcap hop
    · rw [ArenaAllocator.apply, heq]
      exact h.intact
    · intro alloc halloc a ha
      rw [ArenaAllocator.apply, heq] at *
      change arena.withCanaries size a = canary
      by_cases hnew : (arena.nextAlloc size).IsCanary arena.m_buffer a
      · exact withCanaries_of_isCanary hnew
      · rw [withCanaries_of_not_isCanary hnew]
        rcases List.mem_append.mp halloc with halloc | halloc
        · exact h.intact alloc halloc a ha
        · rw [List.mem_singleton.mp halloc] at ha
          exact absurd ha hnew
  | reset => exact Guarded.of_no_allocs (h.toWellFormed.apply hcap trivial) rfl
  | write address value =>
    refine ⟨h.toWellFormed.apply hcap trivial, fun other hother a ha => ?_⟩
    obtain ⟨alloc, halloc, huser⟩ := hop
    -- the byte written is a user's byte, so it is not this one
    have hne : a ≠ address := by
      rintro rfl
      exact h.not_isCanary_of_isUser halloc hother huser ha
    change Function.update arena.memory address value a = canary
    rw [Function.update_of_ne hne]
    exact h.intact other hother a ha

theorem guarded_of_undisturbed (hcap : 3 * capacity.toNat + 64 < 2 ^ 64)
    (h : Undisturbed memory data capacity arena) : Guarded data capacity arena := by
  obtain ⟨arena₀, hreach, hnone, hrun⟩ := h
  refine StepSystem.ReachableUnder.invariant ?_ ?_ hrun
  · rintro arena rfl
    exact Guarded.of_no_allocs (wellFormed_of_reachable hcap hreach) hnone
  · intro arena op arena' harena hop hstep
    have hstep : (system memory data capacity).step arena op = some arena' := hstep
    rw [eq_apply_of_step hstep]
    exact harena.apply hcap hop

/-- Where a canary of a live block is damaged, `verify` locks the server down and throws. -/
theorem verify_of_damaged {alloc : AllocInfo} {a : UInt64} (halloc : alloc ∈ arena.m_allocs)
    (ha : alloc.IsCanary arena.m_buffer a) (hdamaged : arena.memory a ≠ canary)
    (m : LifecycleManager) :
    ∃ alarm, arena.verify m = (m.triggerLockdown .IMMEDIATE, .error alarm) := by
  rcases hverify : arena.verifyAllocs arena.m_allocs with alarm | ⟨⟩
  · exact ⟨alarm, by rw [verify, hverify, raise]⟩
  · exact absurd (verifyAllocs_eq_ok_iff.mp hverify alloc halloc a ha) hdamaged

/-- `verify` passes and leaves the lockdown state alone when nothing was written outside the live
blocks since they were allocated; it throws, with the state at `IMMEDIATE`, when a byte of a canary
of a live block is damaged; and no allocation writes over such a byte. -/
theorem verify_over_runs (hcap : 3 * capacity.toNat + 64 < 2 ^ 64)
    (h : (system memory data capacity).ReachableUnder (fun _ op => Ordinary op) arena) :
    (Undisturbed memory data capacity arena → ∀ m, arena.verify m = (m, .ok ())) ∧
    (∀ alloc ∈ arena.m_allocs, ∀ a, alloc.IsCanary arena.m_buffer a → arena.memory a ≠ 0xDB →
      ∀ m, ∃ alarm, (arena.verify m).2 = .error alarm ∧
        (arena.verify m).1.getLockdownState = .IMMEDIATE) ∧
    (∀ size : UInt64, size.toNat < 2 ^ 63 → ∀ alloc ∈ arena.m_allocs, ∀ a,
      alloc.IsCanary arena.m_buffer a → (arena.allocate size).1.memory a = arena.memory a) := by
  have hwf := wellFormed_of_reachable hcap h
  refine ⟨fun hundisturbed m => ?_, fun alloc halloc a ha hdamaged m => ?_,
    fun size hsize alloc halloc a ha => canary_allocate hwf hcap hsize halloc ha⟩
  · have hguarded := guarded_of_undisturbed hcap hundisturbed
    rw [verify, verifyAllocs_eq_ok_iff.mpr hguarded.intact, raise]
  · obtain ⟨alarm, heq⟩ := verify_of_damaged halloc ha hdamaged m
    rw [heq]
    exact ⟨alarm, rfl, rfl⟩

/-- One block whose first byte is written. -/
theorem verify_over_runs_write :
    let arena := ((new (fun _ => 0) 4100 1024).apply (.allocate 10)).apply (.write 4224 7)
    arena.verify .boot = (.boot, .ok ()) := by
  have hreach : (system (fun _ => 0) 4100 1024).ReachableUnder (fun _ op => Ordinary op)
      (new (fun _ => 0) 4100 1024) := .init rfl
  have hrun := StepSystem.ReachableUnder.step
    (.step hreach (by decide : Ordinary (.allocate 10)) rfl)
    (by decide : Ordinary (.write 4224 7)) rfl
  have hallocate : Tidy (new (fun _ => 0) 4100 1024) (.allocate 10) :=
    (by decide : Ordinary (.allocate 10))
  refine (verify_over_runs (by decide) hrun).1 ⟨_, hreach, rfl, ?_⟩ .boot
  refine .step (l := .write 4224 7) (.step (.init rfl) hallocate rfl) ?_ rfl
  exact ⟨_, List.mem_singleton_self _, by decide⟩

end ArenaAllocator

end Memory
