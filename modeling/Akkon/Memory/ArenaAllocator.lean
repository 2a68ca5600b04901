import Akkon.Security.LifecycleManager
import Akkon.ToMathlib.Region
import Akkon.ToMathlib.StepSystem

/-!
# `memory::ArenaAllocator`

The bump allocator with canaries around every block. Sizes and addresses are 64-bit values with the
wrapping arithmetic of the code. The pointers are raw, so what they reach is the whole address space
and not the buffer alone.

* `ArenaAllocator.allocate`, `reset`, `verify`, `check_access`: the member functions;
* `ArenaAllocator.system`: an arena that is used by any sequence of calls, with bytes written to its
  buffer in between;
* `allocate_eq_of_lt`, `allocate_eq_of_le`: the result of `allocate` in unbounded arithmetic, where
  the request does not wrap;
* `allocateSafe_iff`: for which requests `allocate` keeps inside the buffer.
-/

namespace Memory

open Cpp Security

/-- The bytes of the address space of the process. -/
abbrev AddressSpace := UInt64 → UInt8

/-- `std::memset(p, v, n)`. -/
def memset (memory : AddressSpace) (p : UInt64) (v : UInt8) (n : UInt64) : AddressSpace :=
  fun a => if a - p < n then v else memory a

/-- `ALIGNMENT`. -/
def ALIGNMENT : UInt64 := 64

/-- `CANARY_SIZE`. -/
def CANARY_SIZE : UInt64 := 64

/-- The byte canaries are made of. -/
def canary : UInt8 := 0xDB

/-- `AllocInfo`. -/
structure AllocInfo where
  /-- Where the user's block starts, from the start of the buffer. -/
  offset : UInt64
  size : UInt64
  deriving DecidableEq, Repr

/-- `ArenaAllocator`. -/
structure ArenaAllocator where
  /-- `m_buffer.data()`. -/
  m_buffer : UInt64
  /-- What the pointers into the buffer, and beyond it, reach. -/
  memory : AddressSpace
  m_capacity : UInt64
  m_used : UInt64
  m_alloc_count : UInt64
  m_allocs : List AllocInfo

/-- What the arena says on its way out: the line on `std::cerr` and the text of the
`std::runtime_error`. -/
structure Alarm where
  cerr : Bytes
  what : Bytes
  deriving DecidableEq, Repr

namespace ArenaAllocator

/-- `m_buffer.size()` for a capacity. -/
def bufferSize (capacity : UInt64) : UInt64 := capacity * 3 + ALIGNMENT

/-- The constructor, for a buffer that the vector gets at the address `data`. -/
def new (memory : AddressSpace) (data capacity : UInt64) : ArenaAllocator where
  m_buffer := data
  memory := memset memory data 0 (bufferSize capacity)
  m_capacity := capacity
  m_used := 0
  m_alloc_count := 0
  m_allocs := []

variable (arena : ArenaAllocator)

/-- `curr_addr`. -/
def curr_addr : UInt64 := arena.m_buffer + arena.m_used

/-- `aligned_addr`. -/
def aligned_addr : UInt64 := (arena.curr_addr + ALIGNMENT - 1) &&& ~~~(ALIGNMENT - 1)

/-- `padding`. -/
def padding : UInt64 := arena.aligned_addr - arena.curr_addr

/-- `consumption`. -/
def consumption (size : UInt64) : UInt64 := CANARY_SIZE + size + CANARY_SIZE

/-- The line on `std::cerr` when the arena has no room. -/
def exhaustedLine (size : UInt64) : Bytes :=
  lit "[ERROR] ArenaAllocator exhausted: "
    ++ to_string (arena.m_used + arena.padding + consumption size).toNat
    ++ lit " > " ++ to_string arena.m_capacity.toNat

/-- `user_ptr`, behind the header canary. -/
def user_ptr : UInt64 := arena.aligned_addr + CANARY_SIZE

/-- `footer_ptr`. -/
def footer_ptr (size : UInt64) : UInt64 := arena.user_ptr + size

/-- The memory with both canaries of a block written. -/
def withCanaries (size : UInt64) : AddressSpace :=
  memset (memset arena.memory arena.aligned_addr canary CANARY_SIZE)
    (arena.footer_ptr size) canary CANARY_SIZE

/-- The record of a block that is handed out. -/
def nextAlloc (size : UInt64) : AllocInfo where
  offset := arena.user_ptr - arena.m_buffer
  size := size

/-- The arena after a block was handed out. -/
def withBlock (size : UInt64) : ArenaAllocator :=
  { arena with
    memory := arena.withCanaries size
    m_used := arena.m_used + (arena.padding + consumption size)
    m_alloc_count := arena.m_alloc_count + 1
    m_allocs := arena.m_allocs ++ [arena.nextAlloc size] }

/-- `allocate`: the pointer to the user's block, or `nullptr` with a line on `std::cerr`. -/
def allocate (size : UInt64) : ArenaAllocator × Except Bytes UInt64 :=
  if arena.m_used + arena.padding + consumption size > arena.m_capacity then
    (arena, .error (arena.exhaustedLine size))
  else (arena.withBlock size, .ok arena.user_ptr)

/-- `reset`. -/
def reset : ArenaAllocator := { arena with m_used := 0, m_alloc_count := 0, m_allocs := [] }

/-- One of the inner loops of `verify`: the canary at `p` is as it was written. -/
def canaryIntact (p : UInt64) : Bool :=
  (List.range CANARY_SIZE.toNat).all fun i => arena.memory (p + UInt64.ofNat i) == canary

/-- The text of the exception that `verify` throws. -/
def corruptionText : Bytes := lit "Memory corruption: Canary check failed!"

/-- The loop of `verify` over the recorded allocations. -/
def verifyAllocs : List AllocInfo → Except Alarm Unit
  | [] => .ok ()
  | alloc :: rest =>
    let user_ptr := arena.m_buffer + alloc.offset
    let header_ptr := user_ptr - CANARY_SIZE
    let footer_ptr := user_ptr + alloc.size
    if !arena.canaryIntact header_ptr then
      .error ⟨lit "[ALARM] Memory corruption detected! Canary corrupted at header prefix.",
        corruptionText⟩
    else if !arena.canaryIntact footer_ptr then
      .error ⟨lit "[ALARM] Memory corruption detected! Canary corrupted at footer suffix.",
        corruptionText⟩
    else verifyAllocs rest

/-- What an alarm does to the lockdown state before the exception is thrown. -/
def raise (m : LifecycleManager) : Except Alarm Unit → LifecycleManager × Except Alarm Unit
  | .ok () => (m, .ok ())
  | .error alarm => (m.triggerLockdown .IMMEDIATE, .error alarm)

/-- `verify`. -/
def verify (m : LifecycleManager) : LifecycleManager × Except Alarm Unit :=
  raise m (arena.verifyAllocs arena.m_allocs)

/-- The line on `std::cerr`, and behind its tag the text of the exception, of `check_access`. -/
def violationText : Bytes := lit "Memory access violation: Address out of designated space!"

/-- The test of `check_access`. -/
def checkAccess (ptr size : UInt64) : Except Alarm Unit :=
  if ptr = 0 then .ok ()
  else if ptr < arena.m_buffer ∨ ptr + size > arena.m_buffer + arena.m_capacity then
    .error ⟨lit "[ALARM] " ++ violationText, violationText⟩
  else .ok ()

/-- `check_access`. -/
def check_access (m : LifecycleManager) (ptr size : UInt64) :
    LifecycleManager × Except Alarm Unit :=
  raise m (arena.checkAccess ptr size)

/-! ## Runs -/

/-- What can happen to an arena: a call, or a byte written to its buffer through some pointer. -/
inductive Op
  | allocate (size : UInt64)
  | reset
  | write (address : UInt64) (value : UInt8)
  deriving DecidableEq, Repr

/-- The arena afterwards. -/
def apply : Op → ArenaAllocator
  | .allocate size => (arena.allocate size).1
  | .reset => arena.reset
  | .write address value => { arena with memory := Function.update arena.memory address value }

/-- An arena in use. -/
def system (memory : AddressSpace) (data capacity : UInt64) : StepSystem ArenaAllocator Op where
  init arena := arena = new memory data capacity
  step arena op :=
    match op with
    | .write address _ =>
      if address - arena.m_buffer < bufferSize arena.m_capacity then some (arena.apply op) else none
    | _ => some (arena.apply op)

theorem eq_apply_of_step {memory : AddressSpace} {data capacity : UInt64}
    {arena arena' : ArenaAllocator} {op : Op}
    (h : (system memory data capacity).step arena op = some arena') : arena' = arena.apply op := by
  cases op with
  | allocate size => exact (Option.some.inj h).symm
  | reset => exact (Option.some.inj h).symm
  | write address value =>
    simp only [system] at h
    split at h
    · exact (Option.some.inj h).symm
    · cases h

/-! ## `allocate` in unbounded arithmetic -/

/-- How far the arena would be used with a block of the size, padding and canaries included. -/
def needed (size : UInt64) : ℕ := arena.m_used.toNat + arena.padding.toNat + (size.toNat + 128)

/-- The padding is what the current address lacks to the next multiple of 64. -/
theorem toNat_padding : arena.padding.toNat = (64 - arena.curr_addr.toNat % 64) % 64 := by
  have hmask := UInt64.toNat_and_not_63 (arena.curr_addr + ALIGNMENT - 1)
  have hsum : (arena.curr_addr + ALIGNMENT - 1).toNat = (arena.curr_addr.toNat + 63) % 2 ^ 64 := by
    rw [show arena.curr_addr + ALIGNMENT - 1 = arena.curr_addr + 63 by
      simp only [ALIGNMENT]; grind, UInt64.toNat_add]
    rfl
  have hlt := arena.curr_addr.toNat_lt
  have halign : arena.aligned_addr = (arena.curr_addr + ALIGNMENT - 1) &&& ~~~63 := rfl
  rw [padding, UInt64.toNat_sub, halign]
  omega

theorem padding_lt : arena.padding.toNat < 64 := by
  rw [toNat_padding]
  exact Nat.mod_lt _ (by decide)

theorem aligned_addr_eq : arena.aligned_addr = arena.m_buffer + arena.m_used + arena.padding := by
  simp only [padding, curr_addr]
  grind

theorem toNat_total (size : UInt64) :
    (arena.m_used + arena.padding + consumption size).toNat = arena.needed size % 2 ^ 64 := by
  simp only [consumption, CANARY_SIZE, needed, UInt64.toNat_add]
  simp
  omega

theorem allocate_eq_error {size : UInt64}
    (h : arena.m_capacity.toNat < arena.needed size % 2 ^ 64) :
    arena.allocate size = (arena, .error (arena.exhaustedLine size)) := by
  rw [← toNat_total] at h
  exact if_pos h

theorem allocate_eq_ok {size : UInt64}
    (h : arena.needed size % 2 ^ 64 ≤ arena.m_capacity.toNat) :
    arena.allocate size = (arena.withBlock size, .ok arena.user_ptr) := by
  rw [← toNat_total] at h
  exact if_neg (not_lt.mpr h)

/-- A request that is refused changes nothing. -/
theorem allocate_of_error {size : UInt64} {line : Bytes}
    (h : (arena.allocate size).2 = .error line) : (arena.allocate size).1 = arena := by
  rcases Nat.lt_or_ge arena.m_capacity.toNat (arena.needed size % 2 ^ 64) with hroom | hroom
  · rw [allocate_eq_error arena hroom]
  · rw [allocate_eq_ok arena hroom] at h
    cases h

/-- A pointer that is handed out is the one of the block that is recorded. -/
theorem allocate_of_ok {size p : UInt64} (h : (arena.allocate size).2 = .ok p) :
    (arena.allocate size).1 = arena.withBlock size ∧ p = arena.user_ptr := by
  rcases Nat.lt_or_ge arena.m_capacity.toNat (arena.needed size % 2 ^ 64) with hroom | hroom
  · rw [allocate_eq_error arena hroom] at h
    cases h
  · rw [allocate_eq_ok arena hroom] at h ⊢
    exact ⟨rfl, (Except.ok.inj h).symm⟩

/-- The recorded offset leads to the user's block. -/
theorem m_buffer_add_offset (size : UInt64) :
    arena.m_buffer + (arena.nextAlloc size).offset = arena.user_ptr := by
  change arena.m_buffer + (arena.user_ptr - arena.m_buffer) = arena.user_ptr
  grind

section Offsets

variable {arena} {size : UInt64}

/-- Where the header canary of the next allocation starts in the buffer. -/
theorem toNat_header_offset (h : arena.needed size < 2 ^ 64) :
    (arena.aligned_addr - arena.m_buffer).toNat = arena.m_used.toNat + arena.padding.toNat := by
  have hoffset : arena.aligned_addr - arena.m_buffer = arena.m_used + arena.padding := by
    rw [aligned_addr_eq]
    grind
  rw [hoffset, UInt64.toNat_add]
  simp [needed] at h ⊢
  omega

/-- Where the user's block of the next allocation starts in the buffer. -/
theorem toNat_user_offset (h : arena.needed size < 2 ^ 64) :
    (arena.user_ptr - arena.m_buffer).toNat =
      arena.m_used.toNat + arena.padding.toNat + 64 := by
  have hoffset : arena.user_ptr - arena.m_buffer = arena.aligned_addr - arena.m_buffer + 64 := by
    rw [user_ptr, CANARY_SIZE]
    grind
  rw [hoffset, UInt64.toNat_add, toNat_header_offset h]
  simp [needed] at h ⊢
  omega

/-- Where the footer canary of the next allocation starts in the buffer. -/
theorem toNat_footer_offset (h : arena.needed size < 2 ^ 64) :
    (arena.footer_ptr size - arena.m_buffer).toNat =
      arena.m_used.toNat + arena.padding.toNat + 64 + size.toNat := by
  have hoffset : arena.footer_ptr size - arena.m_buffer =
      arena.user_ptr - arena.m_buffer + size := by
    rw [footer_ptr]
    grind
  rw [hoffset, UInt64.toNat_add, toNat_user_offset h]
  simp [needed] at h ⊢
  omega

end Offsets

end ArenaAllocator

/-! ## What `memset` reaches -/

/-- Membership in a range of addresses, by offsets from a common base. -/
theorem sub_lt_iff {a p n : UInt64} (base : UInt64) (h : (p - base).toNat + n.toNat ≤ 2 ^ 64) :
    a - p < n ↔ (p - base).toNat ≤ (a - base).toNat ∧
      (a - base).toNat < (p - base).toNat + n.toNat := by
  have ha := (a - base).toNat_lt
  rw [show a - p = (a - base) - (p - base) by grind, UInt64.lt_iff_toNat_lt, UInt64.toNat_sub]
  omega

/-- A byte that `memset` changes lies in the range it was given. -/
theorem of_memset_ne {memory : AddressSpace} {p n a : UInt64} {v : UInt8}
    (h : memset memory p v n a ≠ memory a) : a - p < n := by
  by_contra hlt
  exact h (if_neg hlt)

/-! ## Which requests keep inside the buffer -/

namespace ArenaAllocator

/-- What a caller may rely on: `allocate` refuses and changes nothing, or hands out a block that
lies with both canaries between what was used and the capacity, and writes nothing elsewhere. -/
def AllocateSafe (arena : ArenaAllocator) (size : UInt64) : Prop :=
  match (arena.allocate size).2 with
  | .error _ => (arena.allocate size).1 = arena
  | .ok user_ptr =>
    let offset := (user_ptr - arena.m_buffer).toNat
    arena.m_used.toNat ≤ offset - 64 ∧ 64 ≤ offset ∧
      offset + size.toNat + 64 ≤ arena.m_capacity.toNat ∧
      ∀ a, (arena.allocate size).1.memory a ≠ arena.memory a →
        arena.m_used.toNat ≤ (a - arena.m_buffer).toNat ∧
          (a - arena.m_buffer).toNat < arena.m_capacity.toNat

/-- What holds of an arena in use, whatever is asked of it. -/
structure InUse (data capacity : UInt64) (arena : ArenaAllocator) : Prop where
  m_buffer_eq : arena.m_buffer = data
  m_capacity_eq : arena.m_capacity = capacity
  m_used_le : arena.m_used.toNat ≤ arena.m_capacity.toNat

variable {memory : AddressSpace} {data capacity : UInt64} {arena : ArenaAllocator}

/-- What is used after a block was handed out. -/
theorem toNat_m_used_withBlock (arena : ArenaAllocator) (size : UInt64) :
    (arena.withBlock size).m_used.toNat = arena.needed size % 2 ^ 64 := by
  rw [← toNat_total, UInt64.add_assoc]
  rfl

theorem InUse.allocate (h : InUse data capacity arena) (size : UInt64) :
    InUse data capacity (arena.allocate size).1 := by
  rcases Nat.lt_or_ge arena.m_capacity.toNat (arena.needed size % 2 ^ 64) with hroom | hroom
  · rw [allocate_eq_error arena hroom]
    exact h
  · rw [allocate_eq_ok arena hroom]
    refine ⟨h.m_buffer_eq, h.m_capacity_eq, ?_⟩
    rw [toNat_m_used_withBlock]
    exact hroom

theorem inUse_of_reachable (h : (system memory data capacity).Reachable arena) :
    InUse data capacity arena := by
  refine StepSystem.ReachableUnder.invariant ?_ ?_ h
  · rintro arena rfl
    exact ⟨rfl, rfl, Nat.zero_le _⟩
  · intro arena op arena' harena _ hstep
    rw [eq_apply_of_step hstep]
    cases op with
    | allocate size => exact harena.allocate size
    | reset => exact ⟨harena.m_buffer_eq, harena.m_capacity_eq, Nat.zero_le _⟩
    | write address value => exact ⟨harena.m_buffer_eq, harena.m_capacity_eq, harena.m_used_le⟩

/-- A block that fits without wrapping is written between what was used and the capacity only. -/
theorem memory_withBlock_ne {size a : UInt64} (hfit : arena.needed size ≤ arena.m_capacity.toNat)
    (ha : (arena.withBlock size).memory a ≠ arena.memory a) :
    arena.m_used.toNat ≤ (a - arena.m_buffer).toNat ∧
      (a - arena.m_buffer).toNat < arena.m_capacity.toNat := by
  have hcap := arena.m_capacity.toNat_lt
  have hlt : arena.needed size < 2 ^ 64 := by omega
  have hheader := toNat_header_offset hlt
  have hfooter := toNat_footer_offset hlt
  have hsize : CANARY_SIZE.toNat = 64 := rfl
  rw [needed] at hfit hlt
  -- the byte that changed lies in the footer canary or in the header canary
  by_cases hin : a - arena.footer_ptr size < CANARY_SIZE
  · rw [sub_lt_iff arena.m_buffer (by omega)] at hin
    omega
  · have hne : memset arena.memory arena.aligned_addr canary CANARY_SIZE a ≠ arena.memory a := by
      simpa [withBlock, withCanaries, memset, hin] using ha
    have hin := of_memset_ne hne
    rw [sub_lt_iff arena.m_buffer (by omega)] at hin
    omega

/-- `allocate` keeps its promise exactly for the requests whose size, padding and canaries included,
does not exceed `2 ^ 64` by what the capacity leaves room for. -/
theorem allocateSafe_iff (hcap : 3 * capacity.toNat + 64 < 2 ^ 64)
    (h : (system memory data capacity).Reachable arena) (size : UInt64) :
    AllocateSafe arena size ↔
      ¬ (2 ^ 64 ≤ arena.needed size ∧
        arena.needed size ≤ 2 ^ 64 + arena.m_capacity.toNat) := by
  obtain ⟨-, rfl, hused⟩ := inUse_of_reachable h
  have hsize := size.toNat_lt
  have hpad := arena.padding_lt
  have hneeded : arena.needed size =
    arena.m_used.toNat + arena.padding.toNat + (size.toNat + 128) := rfl
  -- The test compares the wrapped sum with the capacity.
  rcases Nat.lt_or_ge arena.m_capacity.toNat (arena.needed size % 2 ^ 64) with hroom | hroom
  · -- refused, and the sum did not come out as a small one
    have hsafe : AllocateSafe arena size := by
      rw [AllocateSafe, allocate_eq_error arena hroom]
    exact iff_of_true hsafe (by omega)
  · rw [AllocateSafe, allocate_eq_ok arena hroom]
    by_cases hwrap : arena.needed size < 2 ^ 64
    · have hfit : arena.needed size ≤ arena.m_capacity.toNat := by omega
      refine iff_of_true ?_ (by omega)
      simp only [toNat_user_offset hwrap]
      exact ⟨by omega, by omega, by omega, fun a ha => memory_withBlock_ne hfit ha⟩
    · -- a wrapped sum passes the test, but the block is longer than the buffer
      refine iff_of_false ?_ (by omega)
      rintro ⟨-, -, hend, -⟩
      have hempty : arena.needed 0 < 2 ^ 64 := by
        simp only [needed, UInt64.toNat_zero]
        omega
      rw [toNat_user_offset hempty] at hend
      omega

/-- A fresh arena and a request of 100 bytes. -/
theorem allocateSafe_iff_new :
    AllocateSafe (new (fun _ => 0) 4096 1024) 100 ↔
      ¬ (2 ^ 64 ≤ (new (fun _ => 0) 4096 1024).needed 100 ∧
        (new (fun _ => 0) 4096 1024).needed 100 ≤ 2 ^ 64 + 1024) :=
  allocateSafe_iff (by decide) (.init rfl) 100

/-- A request of 128 bytes less than `2 ^ 64` passes the test of an arena of 1024 bytes. -/
theorem exists_not_allocateSafe :
    3 * (1024 : UInt64).toNat + 64 < 2 ^ 64 ∧
      ∃ arena, (system (fun _ => 0) 4096 1024).Reachable arena ∧
        ¬ AllocateSafe arena 18446744073709551488 := by
  refine ⟨by decide, new (fun _ => 0) 4096 1024, .init rfl, fun h => ?_⟩
  have hend := h.2.2.1
  revert hend
  decide

end ArenaAllocator

end Memory
