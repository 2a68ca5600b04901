import Akkon.Memory.ArenaAllocator

/-!
# The live regions of an arena

What holds of an arena over whole runs of requests below `2 ^ 63` bytes: the blocks that were handed
out since the last reset are stacked in the used part of the buffer, each with its canaries, and the
user's pointers are aligned.

* `WellFormed`: the invariant, and `wellFormed_of_reachable`, which carries it over runs;
* `specOutputs_reset`: an arena that was reset answers every further call as a fresh one does;
* `live_regions`: the invariant in terms of offsets in the buffer.
-/

namespace Memory

open Cpp Security

/-- The bytes an allocation takes: the header canary, the user's block and the footer canary. -/
def AllocInfo.region (alloc : AllocInfo) : Region ℕ where
  start := alloc.offset.toNat - CANARY_SIZE.toNat
  stop := alloc.offset.toNat + alloc.size.toNat + CANARY_SIZE.toNat
  le := by omega

namespace ArenaAllocator

/-- A request of less than `2 ^ 63` bytes. -/
def Ordinary : Op → Prop
  | .allocate size => size.toNat < 2 ^ 63
  | _ => True

instance : DecidablePred Ordinary
  | .allocate size => inferInstanceAs (Decidable (size.toNat < 2 ^ 63))
  | .reset => inferInstanceAs (Decidable True)
  | .write _ _ => inferInstanceAs (Decidable True)

/-- The representation invariant. -/
structure WellFormed (data capacity : UInt64) (arena : ArenaAllocator) : Prop
    extends InUse data capacity arena where
  m_alloc_count_eq : arena.m_alloc_count.toNat = arena.m_allocs.length
  stacked : Region.Stacked 0 arena.m_used.toNat (arena.m_allocs.map AllocInfo.region)
  /-- There is room for the header canary. -/
  header_le : ∀ alloc ∈ arena.m_allocs, CANARY_SIZE.toNat ≤ alloc.offset.toNat
  aligned : ∀ alloc ∈ arena.m_allocs, (arena.m_buffer + alloc.offset).toNat % 64 = 0

variable {memory : AddressSpace} {data capacity : UInt64} {arena : ArenaAllocator}

/-- A request below `2 ^ 63` does not wrap. -/
theorem InUse.needed_lt (h : InUse data capacity arena) (hcap : 3 * capacity.toNat + 64 < 2 ^ 64)
    {size : UInt64} (hsize : size.toNat < 2 ^ 63) : arena.needed size < 2 ^ 64 := by
  have hpad := arena.padding_lt
  have hused := h.m_used_le
  rw [h.m_capacity_eq] at hused
  rw [needed]
  omega

/-- The user's pointer is aligned, whatever the address of the buffer. -/
theorem user_ptr_aligned (arena : ArenaAllocator) : arena.user_ptr.toNat % 64 = 0 := by
  have hpad := arena.toNat_padding
  have haligned : arena.aligned_addr = arena.curr_addr + arena.padding := by
    rw [aligned_addr_eq, curr_addr]
  rw [user_ptr, haligned, UInt64.toNat_add, UInt64.toNat_add]
  change ((arena.curr_addr.toNat + arena.padding.toNat) % 2 ^ 64 + 64) % 2 ^ 64 % 64 = 0
  omega

/-- The blocks that are live leave the counter far from wrapping. -/
theorem WellFormed.length_lt (h : WellFormed data capacity arena) :
    arena.m_allocs.length * 128 ≤ arena.m_used.toNat := by
  have hlen := h.stacked.length_mul_le (k := 128) ?_
  · simpa using hlen
  · intro r hr
    obtain ⟨alloc, halloc, rfl⟩ := List.mem_map.mp hr
    have hheader := h.header_le alloc halloc
    change alloc.offset.toNat - 64 + 128 ≤ alloc.offset.toNat + alloc.size.toNat + 64
    change 64 ≤ alloc.offset.toNat at hheader
    omega

theorem wellFormed_new (memory : AddressSpace) (data capacity : UInt64) :
    WellFormed data capacity (new memory data capacity) where
  m_buffer_eq := rfl
  m_capacity_eq := rfl
  m_used_le := Nat.zero_le _
  m_alloc_count_eq := rfl
  stacked := Nat.zero_le _
  header_le := by simp [new]
  aligned := by simp [new]

theorem WellFormed.reset (h : WellFormed data capacity arena) :
    WellFormed data capacity arena.reset where
  m_buffer_eq := h.m_buffer_eq
  m_capacity_eq := h.m_capacity_eq
  m_used_le := Nat.zero_le _
  m_alloc_count_eq := rfl
  stacked := Nat.zero_le _
  header_le := by simp [ArenaAllocator.reset]
  aligned := by simp [ArenaAllocator.reset]

/-- A block that fits goes on top of the live ones. -/
theorem WellFormed.withBlock (h : WellFormed data capacity arena) {size : UInt64}
    (hfit : arena.needed size ≤ arena.m_capacity.toNat) :
    WellFormed data capacity (arena.withBlock size) := by
  have hcap := arena.m_capacity.toNat_lt
  have hlt : arena.needed size < 2 ^ 64 := by omega
  have hoffset := toNat_user_offset hlt
  -- Nothing wraps: what the block needs is within the capacity.
  have hused : (arena.withBlock size).m_used.toNat = arena.needed size := by
    rw [toNat_m_used_withBlock, Nat.mod_eq_of_lt hlt]
  have hneeded : arena.needed size =
    arena.m_used.toNat + arena.padding.toNat + (size.toNat + 128) := rfl
  refine ⟨⟨h.m_buffer_eq, h.m_capacity_eq, ?_⟩, ?_, ?_, ?_, ?_⟩
  · rw [hused]
    exact hfit
  · -- the counter cannot wrap: every block takes 128 bytes at least
    have hlen := h.length_lt
    have hcount := h.m_alloc_count_eq
    have husedle := h.m_used_le
    change (arena.m_alloc_count + 1).toNat = (arena.m_allocs ++ [_]).length
    rw [UInt64.toNat_add, List.length_append, hcount]
    change (arena.m_allocs.length + 1) % 2 ^ 64 = arena.m_allocs.length + 1
    omega
  · rw [hused]
    -- the new region stands behind the others, with its two canaries inside of what is used
    change Region.Stacked 0 _ ((arena.m_allocs ++ [_]).map AllocInfo.region)
    rw [List.map_append, List.map_singleton]
    apply h.stacked.append_singleton
    · change _ ≤ (arena.user_ptr - arena.m_buffer).toNat - 64
      omega
    · change (arena.user_ptr - arena.m_buffer).toNat + size.toNat + 64 ≤ _
      omega
  · intro alloc halloc
    rcases List.mem_append.mp halloc with halloc | halloc
    · exact h.header_le alloc halloc
    · rw [List.mem_singleton.mp halloc]
      change 64 ≤ (arena.user_ptr - arena.m_buffer).toNat
      omega
  · intro alloc halloc
    rcases List.mem_append.mp halloc with halloc | halloc
    · exact h.aligned alloc halloc
    · rw [List.mem_singleton.mp halloc]
      change (arena.m_buffer + (arena.nextAlloc size).offset).toNat % 64 = 0
      rw [m_buffer_add_offset]
      exact arena.user_ptr_aligned

/-- What an ordinary request can do. -/
theorem allocate_cases (h : InUse data capacity arena) (hcap : 3 * capacity.toNat + 64 < 2 ^ 64)
    {size : UInt64} (hsize : size.toNat < 2 ^ 63) :
    (arena.m_capacity.toNat < arena.needed size ∧
      arena.allocate size = (arena, .error (arena.exhaustedLine size))) ∨
    (arena.needed size ≤ arena.m_capacity.toNat ∧
      arena.allocate size = (arena.withBlock size, .ok arena.user_ptr)) := by
  have hmod := Nat.mod_eq_of_lt (h.needed_lt hcap hsize)
  rcases Nat.lt_or_ge arena.m_capacity.toNat (arena.needed size) with hroom | hroom
  · exact .inl ⟨hroom, allocate_eq_error arena (by rwa [hmod])⟩
  · exact .inr ⟨hroom, allocate_eq_ok arena (by rwa [hmod])⟩

/-- One call or write keeps the invariant. -/
theorem WellFormed.apply (h : WellFormed data capacity arena)
    (hcap : 3 * capacity.toNat + 64 < 2 ^ 64) {op : Op} (hop : Ordinary op) :
    WellFormed data capacity (arena.apply op) := by
  cases op with
  | allocate size =>
    rw [ArenaAllocator.apply]
    obtain ⟨-, heq⟩ | ⟨hfit, heq⟩ := allocate_cases h.toInUse hcap hop
    · rw [heq]
      exact h
    · rw [heq]
      exact h.withBlock hfit
  | reset => exact h.reset
  | write address value =>
    exact ⟨⟨h.m_buffer_eq, h.m_capacity_eq, h.m_used_le⟩, h.m_alloc_count_eq, h.stacked,
      h.header_le, h.aligned⟩

/-- The invariant holds in every state of every run of ordinary requests. -/
theorem wellFormed_of_reachable (hcap : 3 * capacity.toNat + 64 < 2 ^ 64)
    (h : (system memory data capacity).ReachableUnder (fun _ op => Ordinary op) arena) :
    WellFormed data capacity arena := by
  refine StepSystem.ReachableUnder.invariant ?_ ?_ h
  · rintro arena rfl
    exact wellFormed_new memory data capacity
  · intro arena op arena' harena hop hstep
    rw [eq_apply_of_step hstep]
    exact harena.apply hcap hop

/-! ## What `verify` reads -/

/-- The canary at `p` is intact exactly when its 64 bytes are. -/
theorem canaryIntact_iff {p : UInt64} :
    arena.canaryIntact p = true ↔ ∀ a, a - p < CANARY_SIZE → arena.memory a = canary := by
  rw [canaryIntact, List.all_eq_true]
  constructor
  · intro h a ha
    have hbyte := h (a - p).toNat (List.mem_range.mpr (UInt64.lt_iff_toNat_lt.mp ha))
    rw [UInt64.ofNat_toNat, show p + (a - p) = a by grind] at hbyte
    exact beq_iff_eq.mp hbyte
  · intro h i hi
    have hi : i < 64 := List.mem_range.mp hi
    apply beq_iff_eq.mpr
    apply h
    rw [show p + UInt64.ofNat i - p = UInt64.ofNat i by grind, UInt64.lt_iff_toNat_lt,
      UInt64.toNat_ofNat_of_lt' (by simp [UInt64.size]; omega)]
    exact hi

end ArenaAllocator

/-- The address lies in one of the two canaries of the allocation, in a buffer at `base`. -/
def AllocInfo.IsCanary (base : UInt64) (alloc : AllocInfo) (a : UInt64) : Prop :=
  a - (base + alloc.offset - CANARY_SIZE) < CANARY_SIZE ∨
    a - (base + alloc.offset + alloc.size) < CANARY_SIZE

namespace ArenaAllocator

variable {memory : AddressSpace} {data capacity : UInt64} {arena other : ArenaAllocator}

/-- `verify` passes over the allocations exactly when all their canaries are intact. -/
theorem verifyAllocs_eq_ok_iff {allocs : List AllocInfo} :
    arena.verifyAllocs allocs = .ok () ↔
      ∀ alloc ∈ allocs, ∀ a, alloc.IsCanary arena.m_buffer a → arena.memory a = canary := by
  induction allocs with
  | nil => simp [verifyAllocs]
  | cons alloc rest ih =>
    rw [List.forall_mem_cons, ← ih, verifyAllocs]
    simp only [AllocInfo.IsCanary, or_imp, forall_and, ← canaryIntact_iff]
    split
    · simp_all
    · split <;> simp_all

/-- Two arenas that keep the same books, over memories that agree on the live canaries. -/
def LooksLike (arena other : ArenaAllocator) : Prop :=
  other = { arena with memory := other.memory } ∧
    ∀ alloc ∈ arena.m_allocs, ∀ a, alloc.IsCanary arena.m_buffer a →
      arena.memory a = other.memory a

/-- `verify` reads the books and the live canaries only. -/
theorem LooksLike.verifyAllocs_eq (h : LooksLike arena other) {allocs : List AllocInfo}
    (hallocs : ∀ alloc ∈ allocs, alloc ∈ arena.m_allocs) :
    arena.verifyAllocs allocs = other.verifyAllocs allocs := by
  have hcanary : ∀ alloc ∈ arena.m_allocs, ∀ p,
      (∀ a, a - p < CANARY_SIZE → alloc.IsCanary arena.m_buffer a) →
        arena.canaryIntact p = other.canaryIntact p := by
    intro alloc halloc p hp
    rw [Bool.eq_iff_iff, canaryIntact_iff, canaryIntact_iff]
    apply forall₂_congr
    intro a ha
    rw [h.2 alloc halloc a (hp a ha)]
  have hbuffer : other.m_buffer = arena.m_buffer := by rw [h.1]
  induction allocs with
  | nil => rfl
  | cons alloc rest ih =>
    have halloc := hallocs alloc List.mem_cons_self
    rw [verifyAllocs, verifyAllocs, hbuffer, ih fun a ha => hallocs a (List.mem_cons_of_mem _ ha),
      hcanary alloc halloc _ fun _ => .inl, hcanary alloc halloc _ fun _ => .inr]

/-- Where the canaries of the next block are. -/
theorem isCanary_nextAlloc_iff {size a : UInt64} :
    (arena.nextAlloc size).IsCanary arena.m_buffer a ↔
      a - arena.aligned_addr < CANARY_SIZE ∨ a - arena.footer_ptr size < CANARY_SIZE := by
  have hheader : arena.user_ptr - CANARY_SIZE = arena.aligned_addr := by
    rw [user_ptr]
    grind
  rw [AllocInfo.IsCanary, m_buffer_add_offset, hheader]
  rfl

/-- The canaries of a block that is handed out are written. -/
theorem withCanaries_of_isCanary {size a : UInt64}
    (ha : (arena.nextAlloc size).IsCanary arena.m_buffer a) :
    arena.withCanaries size a = canary := by
  rcases isCanary_nextAlloc_iff.mp ha with ha | ha
  · -- the header canary, whether or not the footer is written over it
    simp only [withCanaries, memset, if_pos ha, ite_self]
  · exact if_pos ha

/-- Nothing else is written. -/
theorem withCanaries_of_not_isCanary {size a : UInt64}
    (ha : ¬ (arena.nextAlloc size).IsCanary arena.m_buffer a) :
    arena.withCanaries size a = arena.memory a := by
  rw [isCanary_nextAlloc_iff, not_or] at ha
  simp only [withCanaries, memset, if_neg ha.1, if_neg ha.2]

/-- Two arenas that look alike do so after the same call or write. -/
theorem LooksLike.apply (h : LooksLike arena other) (op : Op) :
    LooksLike (arena.apply op) (other.apply op) := by
  obtain ⟨m, rfl⟩ : ∃ m, other = { arena with memory := m } := ⟨_, h.1⟩
  cases op with
  | allocate size =>
    have hneeded : ({ arena with memory := m } : ArenaAllocator).needed size =
      arena.needed size := rfl
    rw [ArenaAllocator.apply, ArenaAllocator.apply]
    -- The decision is made by the counters alone, which both have in common.
    rcases Nat.lt_or_ge arena.m_capacity.toNat (arena.needed size % 2 ^ 64) with hroom | hroom
    · rw [allocate_eq_error arena hroom, allocate_eq_error _ (by rwa [hneeded])]
      exact h
    · rw [allocate_eq_ok arena hroom, allocate_eq_ok _ (by rwa [hneeded])]
      refine ⟨rfl, fun alloc halloc a ha => ?_⟩
      change arena.withCanaries size a =
        ({ arena with memory := m } : ArenaAllocator).withCanaries size a
      by_cases hnew : (arena.nextAlloc size).IsCanary arena.m_buffer a
      · have hother : ({ arena with memory := m } : ArenaAllocator).withCanaries size a = canary :=
          withCanaries_of_isCanary hnew
        rw [withCanaries_of_isCanary hnew, hother]
      · -- a canary of an older block, which nothing is written over
        have hother : ({ arena with memory := m } : ArenaAllocator).withCanaries size a = m a :=
          withCanaries_of_not_isCanary hnew
        rw [withCanaries_of_not_isCanary hnew, hother]
        rcases List.mem_append.mp halloc with halloc | halloc
        · exact h.2 alloc halloc a ha
        · rw [List.mem_singleton.mp halloc] at ha
          exact absurd ha hnew
  | reset => exact ⟨rfl, fun alloc halloc => by cases halloc⟩
  -- The same byte is written in both memories.
  | write address value =>
    refine ⟨rfl, fun alloc halloc a ha => ?_⟩
    change Function.update arena.memory address value a = Function.update m address value a
    rw [Function.update_apply, Function.update_apply, h.2 alloc halloc a ha]

/-- What a caller sees of a call: the pointer it gets, the numbers the arena reports afterwards, and
whether `verify` would pass. -/
structure Reply where
  result : Option (Except Bytes UInt64)
  allocated : UInt64
  capacity : UInt64
  allocation_count : UInt64
  verified : Except Alarm Unit

/-- A call or a write, with what the caller sees of it. -/
def respond (arena : ArenaAllocator) (op : Op) : ArenaAllocator × Reply :=
  (arena.apply op,
    { result := match op with
        | .allocate size => some (arena.allocate size).2
        | _ => none
      allocated := (arena.apply op).m_used
      capacity := (arena.apply op).m_capacity
      allocation_count := (arena.apply op).m_alloc_count
      verified := (arena.apply op).verifyAllocs (arena.apply op).m_allocs })

/-- Two arenas that look alike hand out the same pointers. -/
theorem LooksLike.allocate_eq (h : LooksLike arena other) (size : UInt64) :
    (arena.allocate size).2 = (other.allocate size).2 := by
  obtain ⟨m, rfl⟩ : ∃ m, other = { arena with memory := m } := ⟨_, h.1⟩
  have hneeded : ({ arena with memory := m } : ArenaAllocator).needed size =
    arena.needed size := rfl
  rcases Nat.lt_or_ge arena.m_capacity.toNat (arena.needed size % 2 ^ 64) with hroom | hroom
  · rw [allocate_eq_error arena hroom, allocate_eq_error _ (by rwa [hneeded])]
    rfl
  · rw [allocate_eq_ok arena hroom, allocate_eq_ok _ (by rwa [hneeded])]
    rfl

/-- Two arenas that look alike answer alike. -/
theorem LooksLike.respond (h : LooksLike arena other) (op : Op) :
    LooksLike (arena.respond op).1 (other.respond op).1 ∧
      (arena.respond op).2 = (other.respond op).2 := by
  have happly := h.apply op
  refine ⟨happly, ?_⟩
  have hverified := happly.verifyAllocs_eq fun _ halloc => halloc
  have hresult : ∀ size, (arena.allocate size).2 = (other.allocate size).2 := h.allocate_eq
  have hbooks := happly.1
  simp only [ArenaAllocator.respond, hresult, hverified]
  rw [hbooks]

/-- An arena that was reset answers every further call as a fresh arena on its buffer does. -/
theorem specOutputs_reset (h : InUse data capacity arena) (memory : AddressSpace) (ops : List Op) :
    (specOutputs respond arena.reset ops).2 =
      (specOutputs respond (new memory data capacity) ops).2 := by
  have hrel : ∀ a b op, LooksLike a b →
      LooksLike (a.respond op).1 (b.respond op).1 ∧ (a.respond op).2 = (b.respond op).2 :=
    fun _ _ op hab => hab.respond op
  refine specOutputs_eq hrel ⟨?_, fun alloc halloc => by cases halloc⟩ ops
  rw [← h.m_buffer_eq, ← h.m_capacity_eq]
  rfl

/-! ## The regions over whole runs -/

/-- In every run of requests below `2 ^ 63`: the books are consistent, the live pointers aligned,
and the live regions stacked in the used part of the buffer; a failed request changes nothing, a
successful one records the block it hands out, and a reset makes the arena as good as new. -/
theorem live_regions (hcap : 3 * capacity.toNat + 64 < 2 ^ 64)
    (h : (system memory data capacity).ReachableUnder (fun _ op => Ordinary op) arena) :
    arena.m_used.toNat ≤ arena.m_capacity.toNat ∧
    arena.m_alloc_count.toNat = arena.m_allocs.length ∧
    (∀ alloc ∈ arena.m_allocs,
      (arena.m_buffer + alloc.offset).toNat % 64 = 0 ∧
      64 ≤ alloc.offset.toNat ∧
      alloc.offset.toNat + alloc.size.toNat + 64 ≤ arena.m_used.toNat) ∧
    (arena.m_allocs.Pairwise fun x y =>
      x.offset.toNat + x.size.toNat + 64 ≤ y.offset.toNat - 64) ∧
    (arena.m_allocs.Pairwise fun x y => x.region.Apart y.region) ∧
    (∀ size line, (arena.allocate size).2 = .error line → (arena.allocate size).1 = arena) ∧
    (∀ size user_ptr, (arena.allocate size).2 = .ok user_ptr →
      ∃ alloc, (arena.allocate size).1.m_allocs = arena.m_allocs ++ [alloc] ∧
        arena.m_buffer + alloc.offset = user_ptr ∧ alloc.size = size) ∧
    ∀ ops, (specOutputs respond arena.reset ops).2 =
      (specOutputs respond (new memory data capacity) ops).2 := by
  -- Everything but the last two parts is read off the invariant.
  have hwf := wellFormed_of_reachable hcap h
  refine ⟨hwf.m_used_le, hwf.m_alloc_count_eq, fun alloc halloc => ⟨hwf.aligned alloc halloc,
    hwf.header_le alloc halloc, ?_⟩, List.pairwise_map.mp hwf.stacked.pairwise,
    List.pairwise_map.mp hwf.stacked.pairwise_apart, fun size line => arena.allocate_of_error, ?_,
    specOutputs_reset hwf.toInUse memory⟩
  · exact (hwf.stacked.bounds (List.mem_map_of_mem halloc)).2
  · intro size user_ptr hok
    obtain ⟨heq, rfl⟩ := arena.allocate_of_ok hok
    rw [heq]
    exact ⟨arena.nextAlloc size, rfl, arena.m_buffer_add_offset size, rfl⟩

/-- Two blocks, one of them empty, in a buffer that is not aligned. -/
theorem live_regions_two :
    let arena := ((new (fun _ => 0) 4100 1024).apply (.allocate 10)).apply (.allocate 0)
    arena.m_used.toNat ≤ arena.m_capacity.toNat ∧
      arena.m_alloc_count.toNat = arena.m_allocs.length :=
  have h := live_regions (by decide)
    (.step (.step (.init rfl) (by decide : Ordinary (.allocate 10)) rfl)
      (by decide : Ordinary (.allocate 0)) rfl)
  ⟨h.1, h.2.1⟩

end ArenaAllocator

end Memory
