import Akkon.Memory.Canaries
import Akkon.ToMathlib.Unwinding

/-!
# `memory::MemoryManager`

The five domains of the server: arenas of fixed capacities whose buffers lie in one address space,
so that every pointer into one of them reaches the others as well.

* `MemoryManager`: the domains, over one memory; `getDomain`, `resetDomain`;
* `MemoryManager.Valid`: the representation invariant of all domains;
* `domains_independent`: each domain answers its callers as an arena that is alone in the process
  does, whatever is asked of the other domains in between.
-/

namespace Memory

open Cpp Security ArenaAllocator

/-- `memory::RuntimeDomain`. -/
inductive RuntimeDomain
  | RUNTIME
  | REQUEST
  | RESERVED
  | VERIFICATION
  | LIFECYCLE
  deriving DecidableEq, Repr

namespace RuntimeDomain

/-- `RUNTIME_MEMORY_CAPACITY` and the four constants behind it. -/
def capacity : RuntimeDomain → UInt64
  | RUNTIME => 10 * 1024 * 1024
  | REQUEST => 5 * 1024 * 1024
  | RESERVED => 1 * 1024 * 1024
  | VERIFICATION => 2 * 1024 * 1024
  | LIFECYCLE => 2 * 1024 * 1024

/-- The domains in the order in which their arenas are constructed. -/
def all : List RuntimeDomain := [RUNTIME, REQUEST, RESERVED, VERIFICATION, LIFECYCLE]

theorem capacity_lt (domain : RuntimeDomain) : 3 * domain.capacity.toNat + 64 < 2 ^ 64 := by
  cases domain <;> decide

end RuntimeDomain

/-- `memory::MemoryManager`. -/
structure MemoryManager where
  m_domains : RuntimeDomain → ArenaAllocator
  /-- The pointers of all domains reach the same bytes. -/
  shared : ∀ domain other, (m_domains domain).memory = (m_domains other).memory

namespace MemoryManager

/-- The memory behind the constructors of the domains' buffers. -/
def cleared (memory : AddressSpace) (data : RuntimeDomain → UInt64) : AddressSpace :=
  RuntimeDomain.all.foldl
    (fun memory domain => (ArenaAllocator.new memory (data domain) domain.capacity).memory) memory

/-- The constructor, for buffers at the given addresses. -/
def new (memory : AddressSpace) (data : RuntimeDomain → UInt64) : MemoryManager where
  m_domains domain :=
    { ArenaAllocator.new memory (data domain) domain.capacity with memory := cleared memory data }
  shared _ _ := rfl

variable (m : MemoryManager)

/-- `getDomain`. -/
def getDomain (domain : RuntimeDomain) : ArenaAllocator := m.m_domains domain

/-- The manager after a call of one of its arenas. -/
def withDomain (domain : RuntimeDomain) (arena : ArenaAllocator) : MemoryManager where
  m_domains other :=
    { (if other = domain then arena else m.m_domains other) with memory := arena.memory }
  shared _ _ := rfl

/-- `resetDomain`. -/
def resetDomain (domain : RuntimeDomain) : MemoryManager :=
  m.withDomain domain (m.getDomain domain).reset

/-- A call of one of the domains, or a byte written through one of its pointers. -/
abbrev Event := RuntimeDomain × Op

/-- The manager afterwards, and what the caller sees. -/
def respond (event : Event) : MemoryManager × Reply :=
  (m.withDomain event.1 ((m.getDomain event.1).apply event.2),
    ((m.getDomain event.1).respond event.2).2)

@[simp]
theorem getDomain_withDomain_self (domain : RuntimeDomain) (arena : ArenaAllocator) :
    (m.withDomain domain arena).getDomain domain = arena := by
  simp [getDomain, withDomain]

/-- Another domain sees the change of the memory and nothing else. -/
theorem getDomain_withDomain_of_ne {domain other : RuntimeDomain} (h : other ≠ domain)
    (arena : ArenaAllocator) :
    (m.withDomain domain arena).getDomain other =
      { m.getDomain other with memory := arena.memory } := by
  simp [getDomain, withDomain, h]

theorem resetDomain_eq (domain : RuntimeDomain) :
    m.resetDomain domain = (m.respond (domain, .reset)).1 := rfl

/-! ## Where the domains lie -/

/-- The address lies in the buffer of the domain. -/
def InBuffer (data : RuntimeDomain → UInt64) (domain : RuntimeDomain) (a : UInt64) : Prop :=
  a - data domain < bufferSize domain.capacity

/-- The buffers are different objects. -/
def Apart (data : RuntimeDomain → UInt64) : Prop :=
  ∀ domain other, domain ≠ other → ∀ a, InBuffer data domain a → ¬ InBuffer data other a

/-- A request below `2 ^ 63` bytes, a reset, or a write to the domain's own buffer. -/
def Proper (data : RuntimeDomain → UInt64) (event : Event) : Prop :=
  Ordinary event.2 ∧ ∀ a v, event.2 = .write a v → InBuffer data event.1 a

/-- Every domain keeps the invariant of an arena on its own buffer. -/
def Valid (data : RuntimeDomain → UInt64) : Prop :=
  ∀ domain, WellFormed (data domain) domain.capacity (m.getDomain domain)

variable {m} {memory : AddressSpace} {data : RuntimeDomain → UInt64} {event : Event}
  {domain other : RuntimeDomain} {a : UInt64}

/-- The invariant does not depend on the memory. -/
theorem wellFormed_withMemory {base capacity : UInt64} {arena : ArenaAllocator}
    (h : WellFormed base capacity arena) (memory : AddressSpace) :
    WellFormed base capacity { arena with memory := memory } :=
  ⟨⟨h.m_buffer_eq, h.m_capacity_eq, h.m_used_le⟩, h.m_alloc_count_eq, h.stacked, h.header_le,
    h.aligned⟩

theorem valid_new : (new memory data).Valid data := fun domain =>
  wellFormed_withMemory (wellFormed_new memory (data domain) domain.capacity) _

/-- One call or write keeps the invariant of all domains. -/
theorem Valid.respond (h : m.Valid data) (hevent : Proper data event) :
    (m.respond event).1.Valid data := by
  intro domain
  by_cases hdomain : domain = event.1
  · subst hdomain
    rw [MemoryManager.respond, getDomain_withDomain_self]
    exact (h event.1).apply event.1.capacity_lt hevent.1
  · rw [MemoryManager.respond, getDomain_withDomain_of_ne m hdomain]
    exact wellFormed_withMemory (h domain) _

/-- An offset below the capacity is one of the buffer. -/
theorem inBuffer_of_lt (h : (a - data domain).toNat < domain.capacity.toNat) :
    InBuffer data domain a := by
  rw [InBuffer, UInt64.lt_iff_toNat_lt]
  refine h.trans_le ?_
  cases domain <;> decide

/-- A call of a domain writes to the domain's own buffer only. -/
theorem inBuffer_of_memory_ne (h : m.Valid data) (hevent : Proper data event)
    (ha : ((m.getDomain event.1).apply event.2).memory a ≠ (m.getDomain event.1).memory a) :
    InBuffer data event.1 a := by
  have hwf := h event.1
  obtain ⟨domain, op⟩ := event
  cases op with
  | allocate size =>
    obtain ⟨-, heq⟩ | ⟨hfit, heq⟩ := allocate_cases hwf.toInUse domain.capacity_lt hevent.1
    · rw [ArenaAllocator.apply, heq] at ha
      exact absurd rfl ha
    · rw [ArenaAllocator.apply, heq] at ha
      have hlt := (memory_withBlock_ne hfit ha).2
      rw [hwf.m_buffer_eq, hwf.m_capacity_eq] at hlt
      exact inBuffer_of_lt hlt
  | reset => exact absurd rfl ha
  | write address value =>
    have haddress : a = address := by
      by_contra hne
      exact ha (Function.update_of_ne hne _ _)
    exact haddress ▸ hevent.2 address value rfl

/-- The canaries of a domain's live blocks lie in its buffer. -/
theorem inBuffer_of_isCanary (h : m.Valid data) {alloc : AllocInfo}
    (halloc : alloc ∈ (m.getDomain domain).m_allocs)
    (ha : alloc.IsCanary (m.getDomain domain).m_buffer a) : InBuffer data domain a := by
  have hwf := h domain
  have hstop := hwf.stop_le halloc
  have hused := hwf.m_used_le
  rw [hwf.isCanary_iff halloc, hwf.m_buffer_eq] at ha
  rw [hwf.m_capacity_eq] at hused
  exact inBuffer_of_lt (by omega)

/-! ## The domains do not interfere -/

/-- A domain beside an arena of its own unwinds. -/
theorem unwinds_domain (hdata : Apart data) (domain : RuntimeDomain) :
    Unwinds MemoryManager.respond ArenaAllocator.respond domain (Proper data)
      (fun m => m.Valid data) (fun m arena => LooksLike (m.getDomain domain) arena) where
  keeps m event h hevent := h.respond hevent
  own m arena op h hlike hop := by
    have hown := hlike.respond op
    rw [MemoryManager.respond, getDomain_withDomain_self]
    exact hown
  others m arena other op h hlike hop hne := by
    rw [MemoryManager.respond, getDomain_withDomain_of_ne m hne.symm]
    refine ⟨hlike.1, fun alloc halloc a ha => ?_⟩
    rw [← hlike.2 alloc halloc a ha, getDomain, m.shared domain other]
    -- what the other domain writes lies in its buffer, and so not where the canary is
    by_contra hwritten
    exact hdata domain other hne.symm a (inBuffer_of_isCanary h halloc ha)
      (inBuffer_of_memory_ne h hop hwritten)

/-- In every run of calls of the five domains, and of writes to their buffers, each domain gives its
callers the replies of a fresh arena that gets the calls and writes of that domain alone: the
pointers, the numbers of bytes and blocks in use, and the verdict of `verify`. -/
theorem domains_independent (memory : AddressSpace) (hdata : Apart data) {events : List Event}
    (hevents : ∀ event ∈ events, Proper data event) (domain : RuntimeDomain) :
    outputsOf domain events (specOutputs MemoryManager.respond (new memory data) events).2 =
      (specOutputs ArenaAllocator.respond
        (ArenaAllocator.new memory (data domain) domain.capacity) (eventsOf domain events)).2 := by
  refine (unwinds_domain hdata domain).outputsOf_eq valid_new ⟨rfl, ?_⟩ hevents
  rintro alloc halloc
  cases halloc

/-- Buffers `2 ^ 32` bytes from each other. -/
def spread (domain : RuntimeDomain) : UInt64 :=
  match domain with
  | .RUNTIME => 0x100000000
  | .REQUEST => 0x200000000
  | .RESERVED => 0x300000000
  | .VERIFICATION => 0x400000000
  | .LIFECYCLE => 0x500000000

theorem apart_spread : Apart spread := by
  have hsize (domain : RuntimeDomain) : (bufferSize domain.capacity).toNat < 2 ^ 32 := by
    cases domain <;> decide
  have hdata (domain other : RuntimeDomain) (h : domain ≠ other) :
      (spread domain).toNat < 2 ^ 40 ∧ ((spread domain).toNat + 2 ^ 32 ≤ (spread other).toNat ∨
        (spread other).toNat + 2 ^ 32 ≤ (spread domain).toNat) := by
    cases domain <;> cases other <;> first | exact absurd rfl h | decide
  intro domain other hne a hdomain hother
  rw [InBuffer, UInt64.lt_iff_toNat_lt, UInt64.toNat_sub] at hdomain hother
  have hlow := hsize domain
  have hhigh := hsize other
  have := hdata domain other hne
  have := hdata other domain hne.symm
  have := a.toNat_lt
  omega

/-- Two domains in use in turn, the second one reset in between. -/
theorem domains_independent_turns :
    let events : List Event := [(.RUNTIME, .allocate 100), (.REQUEST, .allocate 64),
      (.RUNTIME, .write 0x100000040 7), (.REQUEST, .reset), (.RUNTIME, .allocate 10)]
    outputsOf .RUNTIME events
        (specOutputs MemoryManager.respond (new (fun _ => 0) spread) events).2 =
      (specOutputs ArenaAllocator.respond
        (ArenaAllocator.new (fun _ => 0) 0x100000000 RuntimeDomain.RUNTIME.capacity)
        [.allocate 100, .write 0x100000040 7, .allocate 10]).2 := by
  refine domains_independent (fun _ => 0) apart_spread ?_ .RUNTIME
  simp only [List.forall_mem_cons, List.not_mem_nil, false_imp_iff, implies_true, and_true]
  refine ⟨⟨by decide, ?_⟩, ⟨by decide, ?_⟩, ⟨trivial, ?_⟩, ⟨trivial, ?_⟩, ⟨by decide, ?_⟩⟩ <;>
    rintro a v ⟨⟩
  exact (by decide : (0x100000040 : UInt64) - 0x100000000 < bufferSize (10 * 1024 * 1024))

end MemoryManager

end Memory
