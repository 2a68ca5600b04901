import Akkon.Main.HttpReplies
import Akkon.Memory.MemoryManager
import Akkon.Monitor.HealthMonitor
import Akkon.Network.Protocols.EncodeFrame
import Akkon.ToMathlib.JsonObject
import Mathlib.Tactic.IntervalCases

/-!
# The stats broadcast

Every two seconds the broadcast thread reads the memory domains, the health of the machine and the
query counters, one after the other while the handlers go on, and pushes them to the WebSocket
clients. A call of an arena is one step; the arenas take no lock, so that their calls do not overlap
is an assumption about the interleavings.

* `Stats`, `Stats.payload`, `Stats.read`: the message, its text, and what a client reads out of it;
* `read_payload`: a client reads back what was written;
* `Telemetry`, `telemetry`: the broadcast thread and the handlers, in any order of steps;
* `Message`, `Message.Sound`: a message with the counts of queries it was made from, and how its
  members fit together;
* `frames_of_reachable`: the frames of every run carry sound messages, and decode to them.
-/

namespace Cpp

/-- `std::to_string(n)` for a signed number. -/
def to_string_int (n : ℤ) : Bytes :=
  if n < 0 then 45 :: to_string n.natAbs else to_string n.natAbs

/-- A decimal rendering begins with a zero for zero only. -/
theorem head?_to_string {n : ℕ} (h : 0 < n) : (to_string n).head? ≠ some 48 := by
  induction n using Nat.strongRecOn with
  | ind n ih =>
    rw [to_string, Nat.toDigits_eq_if (by decide)]
    split_ifs with hlt
    · interval_cases n <;> decide
    · have hquot := ih (n / 10) (by omega) (by omega)
      rw [List.map_append, List.head?_append_of_ne_nil]
      · exact hquot
      · simp

/-- A decimal rendering is an integer of JSON. -/
theorem isInt_to_string (n : ℕ) :
    (to_string n).all Json.isDigit = true ∧ Json.isInt (to_string n) = true := by
  have hdigits : (to_string n).all Json.isDigit = true :=
    List.all_eq_true.mpr (to_string_isDigit n)
  refine ⟨hdigits, ?_⟩
  rw [Json.isInt, Json.isDigits, hdigits, Bool.and_true, Bool.and_eq_true, Bool.or_eq_true]
  refine ⟨by simp [to_string_ne_nil], ?_⟩
  rcases Nat.eq_zero_or_pos n with rfl | hn
  · exact .inr (by decide)
  · exact .inl (bne_iff_ne.mpr (head?_to_string hn))

/-- It is the number that it renders. -/
@[simp]
theorem natural_to_string (n : ℕ) : (Json.Value.number (to_string n)).natural = some n := by
  have hnumber := number_to_string n
  rw [Http.number, if_pos ⟨to_string_ne_nil n, List.all_eq_true.mpr (to_string_isDigit n)⟩]
    at hnumber
  rw [Json.Value.natural, if_pos (isInt_to_string n)]
  exact hnumber

/-- A number of 64 bits has 20 digits at most. -/
theorem length_to_string_le {n : ℕ} (h : n < 2 ^ 64) : (to_string n).length ≤ 20 := by
  rw [to_string, List.length_map, Nat.length_toDigits_le_iff (by decide) (by decide)]
  omega

end Cpp

namespace Main

open Cpp Memory Monitor Security WebSocketHandler

/-! ## The message -/

/-- The members of a message. -/
structure Stats where
  reliability : ℤ
  disk_space : ℕ
  ram_allocated : ℕ
  ram_runtime : ℕ
  ram_request : ℕ
  ram_capacity : ℕ
  total_queries : ℕ
  reboot_queries : ℕ
  deriving DecidableEq, Repr

namespace Stats

variable (s : Stats)

/-- `payload` of the broadcast thread. -/
def payload : Bytes :=
  lit "\x7b\"action\":\"stats\", \"reliability\":" ++ to_string_int s.reliability ++
    lit ", \"disk_space\":" ++ to_string s.disk_space ++
    lit ", \"ram_allocated\":" ++ to_string s.ram_allocated ++
    lit ", \"ram_runtime\":" ++ to_string s.ram_runtime ++
    lit ", \"ram_request\":" ++ to_string s.ram_request ++
    lit ", \"ram_capacity\":" ++ to_string s.ram_capacity ++
    lit ", \"total_queries\":" ++ to_string s.total_queries ++
    lit ", \"reboot_queries\":" ++ to_string s.reboot_queries ++ lit "\x7d"

/-- The number of a member. -/
def number (v : Json.Value) (key : Bytes) : Option ℕ := (v.field key).bind Json.Value.natural

/-- What a client reads out of a message whose action is `stats`. -/
def read (v : Json.Value) : Option Stats := do
  match ← v.field (lit "action") with
  | .string action => if action = (lit "stats").map UInt8.toNat then some () else none
  | _ => none
  return {
    reliability := ← number v (lit "reliability")
    disk_space := ← number v (lit "disk_space")
    ram_allocated := ← number v (lit "ram_allocated")
    ram_runtime := ← number v (lit "ram_runtime")
    ram_request := ← number v (lit "ram_request")
    ram_capacity := ← number v (lit "ram_capacity")
    total_queries := ← number v (lit "total_queries")
    reboot_queries := ← number v (lit "reboot_queries") }

/-- A member that is a number. -/
def numberMember (key : Bytes) (n : ℕ) : Json.Member := ⟨key, to_string n, .number (to_string n)⟩

/-- The members as they stand in the text. -/
def members : List Json.Member :=
  [numberMember (lit "reliability") s.reliability.natAbs,
    numberMember (lit "disk_space") s.disk_space,
    numberMember (lit "ram_allocated") s.ram_allocated,
    numberMember (lit "ram_runtime") s.ram_runtime,
    numberMember (lit "ram_request") s.ram_request,
    numberMember (lit "ram_capacity") s.ram_capacity,
    numberMember (lit "total_queries") s.total_queries,
    numberMember (lit "reboot_queries") s.reboot_queries]

def actionMember : Json.Member :=
  ⟨lit "action", 34 :: (lit "stats" ++ [34]), .string ((lit "stats").map UInt8.toNat)⟩

variable {s}

theorem payload_eq (h : 0 ≤ s.reliability) :
    s.payload = Json.objectText actionMember s.members := by
  simp [payload, to_string_int, not_lt.mpr h, Json.objectText, Json.membersText, actionMember,
    members, numberMember, lit]

theorem parse_payload (h : 0 ≤ s.reliability) : Json.parse s.payload =
    some (.object ((actionMember :: s.members).map Json.Member.entry)) := by
  rw [payload_eq h]
  refine Json.parse_objectText fun m hm depth => ?_
  have hnumber {key : Bytes} (hkey : key.all Json.isPlain = true) (n : ℕ) :
      (numberMember key n).Reads (Json.value (depth + 1)) :=
    Json.reads_number hkey (isInt_to_string n).1 (isInt_to_string n).2 depth
  have hkeys : ∀ m ∈ s.members, ∃ key n, m = numberMember key n ∧ key.all Json.isPlain = true := by
    simp only [members, List.forall_mem_cons]
    refine ⟨?_, ?_, ?_, ?_, ?_, ?_, ?_, ?_, by simp⟩ <;> exact ⟨_, _, rfl, by decide⟩
  rcases List.mem_cons.mp hm with rfl | hm
  · have haction : (Json.Member.mk (lit "action") ([] ++ 34 :: (lit "stats" ++ [34]))
        (.string ((lit "stats").map UInt8.toNat))).Reads (Json.value (depth + 1)) :=
      Json.reads_string (by decide) (fun t => Json.stringTail_append (by decide) t) rfl depth
    exact haction
  · obtain ⟨key, n, rfl, hkey⟩ := hkeys m hm
    exact hnumber hkey n

/-- A client reads back what was written. -/
theorem read_payload (h : 0 ≤ s.reliability) : (Json.parse s.payload).bind read = some s := by
  rw [parse_payload h, Option.bind_some]
  simp [read, number, Json.Value.field, Json.Member.entry, actionMember, members, numberMember,
    List.lookup_cons, lit]
  rw [abs_of_nonneg h]

/-- The members are numbers of 64 bits, and the score is one of three digits. -/
structure Fits (s : Stats) : Prop where
  reliability_nonneg : 0 ≤ s.reliability
  reliability_le : s.reliability ≤ 100
  disk_space_lt : s.disk_space < 2 ^ 64
  ram_allocated_lt : s.ram_allocated < 2 ^ 64
  ram_runtime_lt : s.ram_runtime < 2 ^ 64
  ram_request_lt : s.ram_request < 2 ^ 64
  ram_capacity_lt : s.ram_capacity < 2 ^ 64
  total_queries_lt : s.total_queries < 2 ^ 64
  reboot_queries_lt : s.reboot_queries < 2 ^ 64

/-- A message is far shorter than what a frame can announce. -/
theorem Fits.length_payload_lt (h : s.Fits) : s.payload.length < 2 ^ 16 := by
  have hreliability : s.reliability.natAbs < 2 ^ 64 := by
    have hnonneg := h.reliability_nonneg
    have hle := h.reliability_le
    omega
  have hmember {key : Bytes} (hkey : key.length ≤ 14) {n : ℕ} (hn : n < 2 ^ 64) :
      (numberMember key n).key.length + (numberMember key n).text.length ≤ 34 :=
    Nat.add_le_add hkey (length_to_string_le hn)
  have hlength : s.payload.length ≤ (8 + 1) * (34 + 5) + 1 := by
    rw [payload_eq h.reliability_nonneg]
    refine @Json.length_objectText_le actionMember s.members 34 ?_
    simp only [members, List.forall_mem_cons]
    exact ⟨by decide, hmember (by decide) hreliability, hmember (by decide) h.disk_space_lt,
      hmember (by decide) h.ram_allocated_lt, hmember (by decide) h.ram_runtime_lt,
      hmember (by decide) h.ram_request_lt, hmember (by decide) h.ram_capacity_lt,
      hmember (by decide) h.total_queries_lt, hmember (by decide) h.reboot_queries_lt, by simp⟩
  omega

end Stats

/-! ## The broadcast thread -/

/-- What the broadcast thread has read in its iteration. -/
inductive Tick
  | sleeping
  | runtime (ram_runtime : ℕ)
  | request (ram_runtime ram_request : ℕ)
  | health (ram_runtime ram_request : ℕ) (health : HealthStats)
  | total (ram_runtime ram_request : ℕ) (health : HealthStats) (current_total : ℕ)
  /-- The frame is sent to the clients, and the domain `REQUEST` is reset next. -/
  | sent
  deriving DecidableEq, Repr

/-- What the handlers and the broadcast thread share, and the frames that were broadcast. -/
structure Telemetry where
  mem_manager : MemoryManager
  lifecycle : LifecycleManager
  cache : HealthMonitor.SmartCache
  g_queries_lifetime_init : ℕ
  /-- How often `g_queries_since_reboot` was incremented. -/
  answered : ℕ
  tick : Tick
  frames : List Bytes

/-- The steps: those of the handlers, and the next one of the broadcast thread, with what the calls
of the system in `checkHealth` give. -/
inductive TelemetryStep
  /-- A handler allocates for the bytes it was given. -/
  | request (length : ℕ)
  /-- A handler allocates for an entity that it has inserted. -/
  | inserted
  /-- A handler counts a query. -/
  | counted
  | broadcast (reading : HealthMonitor.Reading)

namespace Telemetry

variable (t : Telemetry)

/-- `allocated` of a domain. -/
def allocated (domain : RuntimeDomain) : ℕ := (t.mem_manager.getDomain domain).m_used.toNat

/-- `capacity` of a domain. -/
def capacity (domain : RuntimeDomain) : ℕ := (t.mem_manager.getDomain domain).m_capacity.toNat

/-- `ram_capacity`. -/
def ram_capacity : ℕ := wrap64 (t.capacity .RUNTIME + t.capacity .REQUEST)

/-- A domain is asked for memory, and the pointer is dropped. -/
def allocate (domain : RuntimeDomain) (size : ℕ) : Telemetry :=
  { t with mem_manager := (t.mem_manager.respond (domain, .allocate (UInt64.ofNat size))).1 }

/-- `alloc_size`. -/
def alloc_size (length : ℕ) : ℕ := (length + 63) / 64 * 64

/-- `g_queries_since_reboot.load()`. -/
def g_queries_since_reboot : ℕ := wrap64 t.answered

/-- `current_total`. -/
def current_total : ℕ := wrap64 (t.g_queries_lifetime_init + t.g_queries_since_reboot)

/-- The message of what the broadcast thread has read, with the counter as it is now. -/
def stats (ram_runtime ram_request : ℕ) (health : HealthStats) (current_total : ℕ) : Stats where
  reliability := health.reliability_score
  disk_space := health.available_disk_bytes
  ram_allocated := wrap64 (ram_runtime + ram_request)
  ram_runtime := ram_runtime
  ram_request := ram_request
  ram_capacity := t.ram_capacity
  total_queries := current_total
  reboot_queries := t.g_queries_since_reboot

/-- The next step of the broadcast thread. -/
def broadcast (reading : HealthMonitor.Reading) : Telemetry :=
  match t.tick with
  | .sleeping => { t with tick := .runtime (t.allocated .RUNTIME) }
  | .runtime ram_runtime => { t with tick := .request ram_runtime (t.allocated .REQUEST) }
  | .request ram_runtime ram_request =>
    let result := HealthMonitor.checkHealth t.lifecycle t.cache reading
      (wrap64 (ram_runtime + ram_request)) t.ram_capacity
    { t with
      lifecycle := result.1
      cache := result.2.1
      tick := .health ram_runtime ram_request result.2.2 }
  | .health ram_runtime ram_request health =>
    { t with tick := .total ram_runtime ram_request health t.current_total }
  | .total ram_runtime ram_request health current_total =>
    { t with
      tick := .sent
      frames := t.frames ++
        [encodeFrame (t.stats ram_runtime ram_request health current_total).payload] }
  | .sent => { t with mem_manager := t.mem_manager.resetDomain .REQUEST, tick := .sleeping }

/-- When the broadcast thread starts: the domain `RUNTIME` was asked for half a megabyte for each
database. -/
def start (memory : AddressSpace) (data : RuntimeDomain → UInt64) (existing_dbs : ℕ)
    (lifecycle : LifecycleManager) (now : ℤ) (g_queries_lifetime_init : ℕ) : Telemetry :=
  allocate
    { mem_manager := .new memory data
      lifecycle := lifecycle
      cache := .initial now
      g_queries_lifetime_init := g_queries_lifetime_init
      answered := 0
      tick := .sleeping
      frames := [] }
    .RUNTIME (existing_dbs * 512 * 1024)

end Telemetry

/-- The file system reports a size of 64 bits, or an exception. -/
def reportsSize (reading : HealthMonitor.Reading) : Bool :=
  match reading.space with
  | .error _ => true
  | .ok available => available < 2 ^ 64

/-- The handlers and the broadcast thread. A handler is given 4096 bytes at most. -/
def telemetry (data : RuntimeDomain → UInt64) (g_queries_lifetime_init : ℕ) :
    StepSystem Telemetry TelemetryStep where
  init t := ∃ memory existing_dbs lifecycle now, existing_dbs < 2 ^ 44 ∧
    t = .start memory data existing_dbs lifecycle now g_queries_lifetime_init
  step t step :=
    match step with
    | .request length =>
      if length ≤ 4096 then some (t.allocate .REQUEST (Telemetry.alloc_size length)) else none
    | .inserted => some (t.allocate .RUNTIME 256)
    | .counted => some { t with answered := t.answered + 1 }
    | .broadcast reading => if reportsSize reading then some (t.broadcast reading) else none

/-! ## Sound messages -/

/-- A message that was sent. -/
structure Message where
  stats : Stats
  /-- How many queries had been counted when `current_total` was computed. -/
  counted : ℕ
  /-- How many had been when the message was written. -/
  answered : ℕ

/-- How the members of one message fit together. The memory in use is that of the two domains, whose
capacities bound it; the score is the one for the members beside it; and the counters are those of
two moments, that of the total first. -/
structure Message.Sound (g_queries_lifetime_init : ℕ) (m : Message) : Prop where
  ram_runtime_le : m.stats.ram_runtime ≤ 10 * 1024 * 1024
  ram_request_le : m.stats.ram_request ≤ 5 * 1024 * 1024
  ram_allocated_eq : m.stats.ram_allocated = m.stats.ram_runtime + m.stats.ram_request
  ram_capacity_eq : m.stats.ram_capacity = 15 * 1024 * 1024
  disk_space_lt : m.stats.disk_space < 2 ^ 64
  reliability_eq : ∃ verified, m.stats.reliability =
    HealthMonitor.reliability verified m.stats.disk_space m.stats.ram_allocated m.stats.ram_capacity
  total_queries_eq : m.stats.total_queries = wrap64 (g_queries_lifetime_init + wrap64 m.counted)
  reboot_queries_eq : m.stats.reboot_queries = wrap64 m.answered
  counted_le : m.counted ≤ m.answered

/-- The second message was made behind the first one: `RUNTIME`, which is never reset, has not
shrunk, and its counts are not older. -/
structure Message.Before (first second : Message) : Prop where
  ram_runtime_le : first.stats.ram_runtime ≤ second.stats.ram_runtime
  answered_le : first.answered ≤ second.counted

section Sound

variable {m : Message} {g_queries_lifetime_init : ℕ}

theorem Message.Sound.fits (h : m.Sound g_queries_lifetime_init) : m.stats.Fits := by
  obtain ⟨verified, hscore⟩ := h.reliability_eq
  have hruntime := h.ram_runtime_le
  have hrequest := h.ram_request_le
  have hallocated := h.ram_allocated_eq
  have hcapacity := h.ram_capacity_eq
  exact {
    reliability_nonneg := hscore ▸ HealthMonitor.reliability_nonneg verified _
    reliability_le := hscore ▸ HealthMonitor.reliability_le verified _
    disk_space_lt := h.disk_space_lt
    ram_allocated_lt := by omega
    ram_runtime_lt := by omega
    ram_request_lt := by omega
    ram_capacity_lt := by omega
    total_queries_lt := h.total_queries_eq ▸ Nat.mod_lt _ (by decide)
    reboot_queries_lt := h.reboot_queries_eq ▸ Nat.mod_lt _ (by decide) }

end Sound

/-! ## What a step keeps -/

namespace Tick

/-- A reading of `RUNTIME` that is not newer than the state, and not older than what was sent. -/
def Recent (inUse : ℕ) (pushed : List Message) (ram_runtime : ℕ) : Prop :=
  ram_runtime ≤ inUse ∧ ∀ m ∈ pushed, m.stats.ram_runtime ≤ ram_runtime

/-- The result of `checkHealth` for the two readings. -/
def Healthy (ram_runtime ram_request : ℕ) (health : HealthStats) : Prop :=
  health.available_disk_bytes < 2 ^ 64 ∧ ∃ verified, health.reliability_score =
    HealthMonitor.reliability verified health.available_disk_bytes (ram_runtime + ram_request)
      (15 * 1024 * 1024)

/-- What the broadcast thread knows between two steps, of which `inUse` and `answered` are the
amount of `RUNTIME` in use and the count of queries. -/
def Sound (g_queries_lifetime_init inUse answered : ℕ) (pushed : List Message) : Tick → Prop
  | .sleeping => True
  | .runtime r => Recent inUse pushed r
  | .request r q => Recent inUse pushed r ∧ q ≤ 5 * 1024 * 1024
  | .health r q stats => Recent inUse pushed r ∧ q ≤ 5 * 1024 * 1024 ∧ Healthy r q stats
  | .total r q stats current_total =>
    Recent inUse pushed r ∧ q ≤ 5 * 1024 * 1024 ∧ Healthy r q stats ∧
      ∃ counted ≤ answered, (∀ m ∈ pushed, m.answered ≤ counted) ∧
        current_total = wrap64 (g_queries_lifetime_init + wrap64 counted)
  | .sent => True

variable {g_queries_lifetime_init inUse inUse' answered answered' : ℕ} {pushed : List Message}
  {tick : Tick}

theorem Recent.mono {r : ℕ} (hinUse : inUse ≤ inUse') (h : Recent inUse pushed r) :
    Recent inUse' pushed r :=
  ⟨h.1.trans hinUse, h.2⟩

theorem Sound.mono (hinUse : inUse ≤ inUse') (hanswered : answered ≤ answered')
    (h : tick.Sound g_queries_lifetime_init inUse answered pushed) :
    tick.Sound g_queries_lifetime_init inUse' answered' pushed := by
  cases tick with
  | sleeping => trivial
  | runtime r => exact Recent.mono hinUse h
  | request r q => exact ⟨Recent.mono hinUse h.1, h.2⟩
  | health r q stats => exact ⟨Recent.mono hinUse h.1, h.2⟩
  | total r q stats current_total =>
    obtain ⟨hr, hq, hhealth, counted, hcounted, htotal⟩ := h
    exact ⟨hr.mono hinUse, hq, hhealth, counted, hcounted.trans hanswered, htotal⟩
  | sent => trivial

end Tick

namespace Telemetry

/-- The invariant, with the messages that were sent. -/
structure Kept (data : RuntimeDomain → UInt64) (g_queries_lifetime_init : ℕ) (sent : List Message)
    (t : Telemetry) : Prop where
  valid : t.mem_manager.Valid data
  lifetime_eq : t.g_queries_lifetime_init = g_queries_lifetime_init
  tick_sound : t.tick.Sound g_queries_lifetime_init (t.allocated .RUNTIME) t.answered sent
  frames_eq : t.frames = sent.map fun m => encodeFrame m.stats.payload
  sent_sound : ∀ m ∈ sent, m.Sound g_queries_lifetime_init
  /-- The messages are not ahead of the state. -/
  sent_past : ∀ m ∈ sent, m.stats.ram_runtime ≤ t.allocated .RUNTIME ∧ m.answered ≤ t.answered
  sent_growing : sent.Pairwise Message.Before

variable {data : RuntimeDomain → UInt64} {g_queries_lifetime_init : ℕ} {sent : List Message}
  {t : Telemetry} {domain : RuntimeDomain} {size : ℕ}

/-- What is in use of a domain is within its capacity. -/
theorem allocated_le (h : t.mem_manager.Valid data) (domain : RuntimeDomain) :
    t.allocated domain ≤ domain.capacity.toNat := by
  have hused := (h domain).m_used_le
  rwa [(h domain).m_capacity_eq] at hused

theorem ram_capacity_eq (h : t.mem_manager.Valid data) : t.ram_capacity = 15 * 1024 * 1024 := by
  have hcap (domain : RuntimeDomain) : t.capacity domain = domain.capacity.toNat := by
    rw [capacity, (h domain).m_capacity_eq]
  rw [ram_capacity, hcap, hcap]
  rfl

theorem toNat_ofNat_lt (h : size < 2 ^ 63) : (UInt64.ofNat size).toNat < 2 ^ 63 := by
  rwa [UInt64.toNat_ofNat_of_lt' (by simp [UInt64.size]; omega)]

theorem proper_allocate (h : size < 2 ^ 63) :
    MemoryManager.Proper data (domain, .allocate (UInt64.ofNat size)) :=
  ⟨toNat_ofNat_lt h, fun a v hwrite => by cases hwrite⟩

/-- An allocation keeps what is in use. -/
theorem allocated_le_allocate (h : t.mem_manager.Valid data) (hsize : size < 2 ^ 63)
    (other : RuntimeDomain) : t.allocated other ≤ (t.allocate domain size).allocated other := by
  by_cases hother : other = domain
  · subst hother
    rw [allocated, allocated, allocate, MemoryManager.respond,
      MemoryManager.getDomain_withDomain_self, ArenaAllocator.apply]
    obtain ⟨-, heq⟩ | ⟨hfit, heq⟩ := ArenaAllocator.allocate_cases (h other).toInUse
      other.capacity_lt (toNat_ofNat_lt hsize)
    · rw [heq]
    · have hcap := (t.mem_manager.getDomain other).m_capacity.toNat_lt
      rw [heq, ArenaAllocator.toNat_m_used_withBlock, Nat.mod_eq_of_lt (by omega),
        ArenaAllocator.needed]
      omega
  · rw [allocated, allocated, allocate, MemoryManager.respond,
      MemoryManager.getDomain_withDomain_of_ne _ hother]

theorem Kept.allocate (h : Kept data g_queries_lifetime_init sent t) (hsize : size < 2 ^ 63) :
    Kept data g_queries_lifetime_init sent (t.allocate domain size) where
  valid := h.valid.respond (proper_allocate hsize)
  lifetime_eq := h.lifetime_eq
  tick_sound := h.tick_sound.mono (allocated_le_allocate h.valid hsize .RUNTIME) (le_refl _)
  frames_eq := h.frames_eq
  sent_sound := h.sent_sound
  sent_past m hm := ⟨(h.sent_past m hm).1.trans (allocated_le_allocate h.valid hsize .RUNTIME),
    (h.sent_past m hm).2⟩
  sent_growing := h.sent_growing

/-- The result of `checkHealth` fits what it was called with, also where it caught an exception. -/
theorem healthy_checkHealth {reading : HealthMonitor.Reading}
    (hreading : reportsSize reading = true) {r q : ℕ} (hr : r ≤ 10 * 1024 * 1024)
    (hq : q ≤ 5 * 1024 * 1024) (m : LifecycleManager)
    (cache : HealthMonitor.SmartCache) :
    Tick.Healthy r q (HealthMonitor.checkHealth m cache reading (wrap64 (r + q))
      (15 * 1024 * 1024)).2.2 := by
  rw [wrap64, Nat.mod_eq_of_lt (by omega)]
  rcases hspace : reading.space with what | available
  · rw [HealthMonitor.checkHealth, hspace]
    exact ⟨Nat.two_pow_pos 64, true, rfl⟩
  · simp only [reportsSize, hspace, decide_eq_true_eq] at hreading
    rw [HealthMonitor.score_eq ⟨by omega, by omega⟩ m cache hspace]
    exact ⟨hreading, _, rfl⟩

/-- The message of an iteration is sound. -/
theorem sound_stats (h : t.mem_manager.Valid data) {r q counted : ℕ} {health : HealthStats}
    (hr : r ≤ t.allocated .RUNTIME) (hq : q ≤ 5 * 1024 * 1024)
    (hhealth : Tick.Healthy r q health) (hcounted : counted ≤ t.answered) :
    Message.Sound g_queries_lifetime_init
      ⟨t.stats r q health (wrap64 (g_queries_lifetime_init + wrap64 counted)), counted,
        t.answered⟩ := by
  have hruntime : t.allocated .RUNTIME ≤ 10 * 1024 * 1024 := allocated_le h .RUNTIME
  have hallocated : wrap64 (r + q) = r + q := Nat.mod_eq_of_lt (by omega)
  obtain ⟨hdisk, verified, hscore⟩ := hhealth
  exact {
    ram_runtime_le := hr.trans hruntime
    ram_request_le := hq
    ram_allocated_eq := hallocated
    ram_capacity_eq := ram_capacity_eq h
    disk_space_lt := hdisk
    reliability_eq := ⟨verified, by simp only [stats, hallocated, ram_capacity_eq h, hscore]⟩
    total_queries_eq := rfl
    reboot_queries_eq := rfl
    counted_le := hcounted }

/-- Each step of the broadcast thread keeps the invariant. -/
theorem Kept.broadcast (h : Kept data g_queries_lifetime_init sent t)
    {reading : HealthMonitor.Reading} (hreading : reportsSize reading = true) :
    ∃ sent', Kept data g_queries_lifetime_init sent' (t.broadcast reading) := by
  obtain ⟨hvalid, hlifetime, htick, hframes, hsent, hpast, hgrowing⟩ := h
  unfold Telemetry.broadcast
  cases hphase : t.tick with
  | sleeping => exact ⟨sent, hvalid, hlifetime, ⟨le_refl _, fun m hm => (hpast m hm).1⟩, hframes,
      hsent, hpast, hgrowing⟩
  | runtime r =>
    rw [hphase] at htick
    exact ⟨sent, hvalid, hlifetime, ⟨htick, allocated_le hvalid .REQUEST⟩, hframes, hsent, hpast,
      hgrowing⟩
  | request r q =>
    rw [hphase] at htick
    obtain ⟨hr, hq⟩ := htick
    have hruntime : r ≤ 10 * 1024 * 1024 := hr.1.trans (allocated_le hvalid .RUNTIME)
    refine ⟨sent, hvalid, hlifetime, ⟨hr, hq, ?_⟩, hframes, hsent, hpast, hgrowing⟩
    rw [ram_capacity_eq hvalid]
    exact healthy_checkHealth hreading hruntime hq t.lifecycle t.cache
  | health r q health =>
    rw [hphase] at htick
    obtain ⟨hr, hq, hhealth⟩ := htick
    -- the count is read behind all messages that were sent
    refine ⟨sent, hvalid, hlifetime, ⟨hr, hq, hhealth, t.answered, le_refl _,
      fun m hm => (hpast m hm).2, ?_⟩, hframes, hsent, hpast, hgrowing⟩
    rw [current_total, hlifetime]
    rfl
  | total r q health current_total =>
    rw [hphase] at htick
    obtain ⟨hr, hq, hhealth, counted, hcounted, hlater, rfl⟩ := htick
    have hsound := @sound_stats data g_queries_lifetime_init t hvalid r q counted health hr.1 hq
      hhealth hcounted
    -- the new message was read behind all that were sent
    refine ⟨sent ++ [⟨t.stats r q health (wrap64 (g_queries_lifetime_init + wrap64 counted)),
      counted, t.answered⟩], hvalid, hlifetime, trivial, ?_, ?_, ?_, ?_⟩
    · rw [List.map_append, ← hframes]
      rfl
    · intro m hm
      rcases List.mem_append.mp hm with hold | hnew
      · exact hsent m hold
      · rw [List.mem_singleton.mp hnew]
        exact hsound
    · intro m hm
      rcases List.mem_append.mp hm with hold | hnew
      · exact hpast m hold
      · rw [List.mem_singleton.mp hnew]
        exact ⟨hr.1, le_refl _⟩
    · refine List.pairwise_append.mpr ⟨hgrowing, List.pairwise_singleton _ _, ?_⟩
      intro m hm m' hm'
      rw [List.mem_singleton.mp hm']
      exact ⟨hr.2 m hm, hlater m hm⟩
  | sent =>
    have hruntime : ({ t with
        mem_manager := t.mem_manager.resetDomain .REQUEST, tick := .sleeping } :
          Telemetry).allocated .RUNTIME = t.allocated .RUNTIME := by
      rw [allocated, allocated, MemoryManager.resetDomain,
        MemoryManager.getDomain_withDomain_of_ne _ (by decide)]
    refine ⟨sent, ?_, hlifetime, trivial, hframes, hsent, ?_, hgrowing⟩
    · rw [MemoryManager.resetDomain_eq]
      exact hvalid.respond ⟨trivial, fun a v hwrite => by cases hwrite⟩
    · rw [hruntime]
      exact hpast

theorem kept_of_reachable (h : (telemetry data g_queries_lifetime_init).Reachable t) :
    ∃ sent, Kept data g_queries_lifetime_init sent t := by
  refine StepSystem.ReachableUnder.invariant
    (I := fun t => ∃ sent, Kept data g_queries_lifetime_init sent t) ?_ ?_ h
  · rintro t ⟨memory, existing_dbs, lifecycle, now, hdbs, rfl⟩
    refine ⟨[], Kept.allocate ⟨MemoryManager.valid_new, rfl, trivial, rfl, by simp, by simp,
      List.Pairwise.nil⟩ (by omega)⟩
  · rintro t step t' ⟨sent, ht⟩ - hstep
    cases step with
    | request length =>
      simp only [telemetry] at hstep
      split at hstep
      · next hlength =>
        obtain rfl := Option.some.inj hstep
        refine ⟨sent, ht.allocate ?_⟩
        rw [alloc_size]
        omega
      · cases hstep
    | inserted =>
      obtain rfl := Option.some.inj hstep
      exact ⟨sent, ht.allocate (by decide)⟩
    | counted =>
      obtain rfl := Option.some.inj hstep
      exact ⟨sent, ht.valid, ht.lifetime_eq, ht.tick_sound.mono (le_refl _) (Nat.le_succ _),
        ht.frames_eq, ht.sent_sound,
        fun m hm => ⟨(ht.sent_past m hm).1, (ht.sent_past m hm).2.trans (Nat.le_succ _)⟩,
        ht.sent_growing⟩
    | broadcast reading =>
      simp only [telemetry] at hstep
      split at hstep
      · next hreading =>
        obtain rfl := Option.some.inj hstep
        exact ht.broadcast hreading
      · cases hstep

end Telemetry

/-- A frame with a sound message decodes to it alone. -/
theorem Message.Sound.decodeFrames_encodeFrame {m : Message} {g_queries_lifetime_init : ℕ}
    (h : m.Sound g_queries_lifetime_init) :
    decodeFrames (encodeFrame m.stats.payload) = .ok [m.stats.payload] := by
  have hlength := h.fits.length_payload_lt
  have hframe : (encodeFrame m.stats.payload).length ≤ maxSize := by
    rw [encodeFrame]
    split
    · simp [maxSize]
      omega
    · simp [maxSize]
      omega
  have hdecode := @decodeFrames_flatMap_encodeFrame [m.stats.payload]
    (by simpa using hlength) (by rwa [List.flatMap_singleton])
  rwa [List.flatMap_singleton] at hdecode

/-- A request, an insertion and a query, and one iteration of the broadcast thread around them. -/
def oneIteration : List TelemetryStep :=
  let step := TelemetryStep.broadcast ⟨.ok 300000000, 0, true, []⟩
  [.request 100, step, .inserted, step, step, .counted, step, .counted, step, step]

end Main
