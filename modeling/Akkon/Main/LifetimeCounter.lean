import Akkon.Cpp.String
import Akkon.ToMathlib.StepSystem

/-!
# The lifetime counter in `metrics`

A run of the server starts from the last `total_queries` of the table, counts the queries it
answers, and writes the sum every two seconds. `getLastTotalQueries` answers `0` for an empty table
and for every failure.

* `MetricsTable`, `getLastTotalQueries`, `insertMetrics`: the table and the two member functions of
  `MasterDB`, by the outcomes of their SQLite calls;
* `Main.counters`: any number of runs, one after another, each with any interleaving of counting and
  ticks;
* `nonDecreasing_of_reachableUnder`: the column does not decrease as long as no start loses the
  total;
* `not_nonDecreasing_of_lost`: after a start that loses it, one tick makes the column decrease.
-/

namespace Construction

open Cpp

/-- The columns of `metrics` that a tick measures. -/
structure Sample where
  timestamp : Bytes
  ram_allocated : ℕ
  ram_runtime : ℕ
  ram_request : ℕ
  ram_capacity : ℕ
  disk_space : ℕ
  reliability : ℤ
  deriving DecidableEq, Repr

/-- A row of `metrics`. -/
structure MetricsRow where
  id : ℤ
  sample : Sample
  total_queries : ℕ
  deriving DecidableEq, Repr

/-- The table `metrics`, in the order of the ids. -/
structure MetricsTable where
  rows : List MetricsRow
  /-- The largest id that was ever given (`AUTOINCREMENT`). -/
  seq : ℤ
  increasing : rows.Pairwise fun r s => r.id < s.id
  le_seq : ∀ r ∈ rows, r.id ≤ seq

namespace MetricsTable

/-- The table when it is created. -/
def empty : MetricsTable where
  rows := []
  seq := 0
  increasing := List.Pairwise.nil
  le_seq := by simp

variable (table : MetricsTable)

/-- The row of an insertion. -/
def newRow (sample : Sample) (total_queries : ℕ) : MetricsRow where
  id := table.seq + 1
  sample := sample
  total_queries := total_queries

theorem insert_increasing (sample : Sample) (total_queries : ℕ) :
    (table.rows ++ [table.newRow sample total_queries]).Pairwise fun r s => r.id < s.id := by
  rw [List.pairwise_append]
  refine ⟨table.increasing, List.pairwise_singleton _ _, fun r hr s hs => ?_⟩
  rw [List.mem_singleton.mp hs]
  exact Int.lt_add_one_of_le (table.le_seq r hr)

theorem insert_le_seq (sample : Sample) (total_queries : ℕ) :
    ∀ r ∈ table.rows ++ [table.newRow sample total_queries], r.id ≤ table.seq + 1 := by
  intro r hr
  rcases List.mem_append.mp hr with hr | hr
  · exact (table.le_seq r hr).trans (by omega)
  · rw [List.mem_singleton.mp hr]
    exact le_refl _

/-- `INSERT INTO metrics`. -/
def insert (sample : Sample) (total_queries : ℕ) : MetricsTable where
  rows := table.rows ++ [table.newRow sample total_queries]
  seq := table.seq + 1
  increasing := table.insert_increasing sample total_queries
  le_seq := table.insert_le_seq sample total_queries

/-- `SELECT total_queries FROM metrics ORDER BY id DESC LIMIT 1`, as `sqlite3_column_int64` gives
it: a larger value is cut to the largest signed one. There is no row in an empty table. -/
def lastTotal : ℕ :=
  match table.rows.getLast? with
  | none => 0
  | some row => min row.total_queries (2 ^ 63 - 1)

/-- The column does not decrease with the ids. -/
def NonDecreasing : Prop :=
  ∀ r ∈ table.rows, ∀ s ∈ table.rows, r.id ≤ s.id → r.total_queries ≤ s.total_queries

instance : Decidable table.NonDecreasing :=
  inferInstanceAs (Decidable (∀ r ∈ table.rows, ∀ s ∈ table.rows, _))

end MetricsTable

/-- Which of the calls of `ensureOpen` succeed. A handle whose table could not be created is closed
again. -/
structure OpenCalls where
  sqlite3_open : Bool
  createDatabases : Bool
  createMetrics : Bool
  deriving DecidableEq, Repr

namespace MasterDB

/-- `ensureOpen`: whether `m_db` is open afterwards, which is also what it returns. -/
def opened (m_db : Bool) (calls : OpenCalls) : Bool :=
  m_db || (calls.sqlite3_open && calls.createDatabases && calls.createMetrics)

/-- `getLastTotalQueries`, with the outcomes of `sqlite3_prepare_v2` and `sqlite3_step`. -/
def getLastTotalQueries (m_db : Bool) (table : MetricsTable) (calls : OpenCalls)
    (prepares steps : Bool) : ℕ :=
  if !opened m_db calls then 0
  else if prepares && steps then table.lastTotal
  else 0

/-- The value of the column for a literal. From `2 ^ 63` on SQLite reads it as a floating-point
number, `double`. -/
def columnValue (double : ℕ → ℕ) (total_queries : ℕ) : ℕ :=
  if total_queries < 2 ^ 63 then total_queries else double total_queries

/-- `insertMetrics`: the table afterwards, with the outcome of `sqlite3_exec`. -/
def insertMetrics (double : ℕ → ℕ) (m_db : Bool) (table : MetricsTable) (calls : OpenCalls)
    (execs : Bool) (sample : Sample) (total_queries : ℕ) : MetricsTable :=
  if !opened m_db calls then table
  else if execs then table.insert sample (columnValue double total_queries)
  else table

end MasterDB

end Construction

namespace Main

open Cpp Construction

/-! ## Runs of the server -/

/-- A run of the server, by what concerns the counter. -/
structure Run where
  /-- Whether `m_db` of `master` is open. -/
  m_db : Bool
  g_queries_lifetime_init : ℕ
  g_queries_since_reboot : ℕ
  /-- `current_total` of the broadcast thread, between its computation and the insertion. -/
  current_total : Option ℕ
  deriving DecidableEq, Repr

/-- The table, and the run that is going on. -/
structure CounterState where
  metrics : MetricsTable
  run : Option Run

/-- What happens to the counters. -/
inductive CounterStep
  /-- A run starts: `MasterDB`, `ensureOpen` and `getLastTotalQueries`, and what their calls give. -/
  | start (constructed ensured queried : OpenCalls) (prepares steps : Bool)
  /-- Another member function of `master` calls `ensureOpen`. -/
  | ensureOpen (calls : OpenCalls)
  /-- A handler counts a query. -/
  | count
  /-- The broadcast thread computes `current_total`. -/
  | load
  /-- The broadcast thread calls `insertMetrics`. -/
  | write (calls : OpenCalls) (execs : Bool) (sample : Sample)
  /-- The run ends, in whatever way. -/
  | stop
  deriving DecidableEq, Repr

namespace Run

variable (r : Run)

/-- The counters behind the initialisation in `main`. -/
def start (table : MetricsTable) (constructed ensured queried : OpenCalls)
    (prepares steps : Bool) : Run :=
  let m_db := MasterDB.opened (MasterDB.opened false constructed) ensured
  { m_db := MasterDB.opened m_db queried
    g_queries_lifetime_init := MasterDB.getLastTotalQueries m_db table queried prepares steps
    g_queries_since_reboot := 0
    current_total := none }

/-- `g_queries_lifetime_init.load() + g_queries_since_reboot.load()`. -/
def total : ℕ := wrap64 (r.g_queries_lifetime_init + r.g_queries_since_reboot)

/-- `g_queries_since_reboot++`. -/
def counted : Run := { r with g_queries_since_reboot := wrap64 (r.g_queries_since_reboot + 1) }

end Run

/-- The counters of any number of runs, on a table that was empty at first. -/
def counters (double : ℕ → ℕ) : StepSystem CounterState CounterStep where
  init s := s = ⟨.empty, none⟩
  step s l :=
    match s.run, l with
    | none, .start constructed ensured queried prepares steps =>
      some { s with run := some (.start s.metrics constructed ensured queried prepares steps) }
    | some r, .ensureOpen calls =>
      some { s with run := some { r with m_db := MasterDB.opened r.m_db calls } }
    | some r, .count => some { s with run := some r.counted }
    | some r, .load => some { s with run := some { r with current_total := some r.total } }
    | some r, .write calls execs sample =>
      match r.current_total with
      | none => none
      | some current_total =>
        some
          { metrics :=
              MasterDB.insertMetrics double r.m_db s.metrics calls execs sample current_total
            run := some { r with m_db := MasterDB.opened r.m_db calls, current_total := none } }
    | some _, .stop => some { s with run := none }
    | _, _ => none

/-! ## Rows and totals -/

section Rows

variable {table : MetricsTable}

/-- The totals in the order of the rows, which is that of the ids. -/
theorem nonDecreasing_of_pairwise
    (h : table.rows.Pairwise fun r s => r.total_queries ≤ s.total_queries) :
    table.NonDecreasing := by
  intro r hr s hs hle
  obtain ⟨i, hi, rfl⟩ := List.mem_iff_getElem.mp hr
  obtain ⟨j, hj, rfl⟩ := List.mem_iff_getElem.mp hs
  -- the row with the smaller id does not stand behind the other one
  rcases Nat.lt_trichotomy i j with hlt | rfl | hlt
  · exact List.pairwise_iff_getElem.mp h i j hi hj hlt
  · exact le_refl _
  · have hid := List.pairwise_iff_getElem.mp table.increasing j i hj hi hlt
    omega

/-- The last row has the largest total. -/
theorem total_le_lastTotal
    (h : table.rows.Pairwise fun r s => r.total_queries ≤ s.total_queries)
    (hsmall : ∀ r ∈ table.rows, r.total_queries < 2 ^ 63) {r : MetricsRow} (hr : r ∈ table.rows) :
    r.total_queries ≤ table.lastTotal := by
  rcases List.eq_nil_or_concat table.rows with hnil | ⟨rows, last, hconcat⟩
  · rw [hnil] at hr
    cases hr
  · rw [List.concat_eq_append] at hconcat
    have hlast : table.lastTotal = min last.total_queries (2 ^ 63 - 1) := by
      rw [MetricsTable.lastTotal, hconcat, List.getLast?_concat]
    have hlt := hsmall last (by rw [hconcat]; simp)
    rw [hconcat, List.pairwise_append] at h
    rw [hconcat] at hr
    rcases List.mem_append.mp hr with hr | hr
    · have hle := h.2.2 r hr last (by simp)
      omega
    · rw [List.mem_singleton.mp hr]
      omega

/-- An insertion adds a row, or it changes nothing. -/
theorem insertMetrics_cases (double : ℕ → ℕ) (m_db : Bool) (table : MetricsTable)
    (calls : OpenCalls) (execs : Bool) (sample : Sample) (total_queries : ℕ) :
    MasterDB.insertMetrics double m_db table calls execs sample total_queries = table ∨
      MasterDB.insertMetrics double m_db table calls execs sample total_queries =
        table.insert sample (MasterDB.columnValue double total_queries) := by
  rw [MasterDB.insertMetrics]
  split_ifs
  · exact .inl rfl
  · exact .inr rfl
  · exact .inl rfl

end Rows

/-! ## The invariant -/

/-- The start reads the last total, or there is nothing to lose; and the counters keep to the
integers of SQLite. -/
def KeepsTotal (s : CounterState) : CounterStep → Prop
  | .start constructed ensured queried prepares steps =>
    MasterDB.opened (MasterDB.opened (MasterDB.opened false constructed) ensured) queried = true ∧
      prepares = true ∧ steps = true ∨ s.metrics.lastTotal = 0
  | .count => ∀ r ∈ s.run, r.g_queries_lifetime_init + r.g_queries_since_reboot + 1 < 2 ^ 63
  | _ => True

instance (s : CounterState) (l : CounterStep) : Decidable (KeepsTotal s l) :=
  match l with
  | .start .. => inferInstanceAs (Decidable (_ ∧ _ ∨ _))
  | .count => inferInstanceAs (Decidable (∀ r ∈ s.run, _))
  | .ensureOpen _ => inferInstanceAs (Decidable True)
  | .load => inferInstanceAs (Decidable True)
  | .write .. => inferInstanceAs (Decidable True)
  | .stop => inferInstanceAs (Decidable True)

/-- What holds between the table and the counters. -/
structure CounterInv (s : CounterState) : Prop where
  ordered : s.metrics.rows.Pairwise fun r s => r.total_queries ≤ s.total_queries
  small : ∀ r ∈ s.metrics.rows, r.total_queries < 2 ^ 63
  /-- The counters of the run are not behind the table. -/
  counted : ∀ r, s.run = some r →
    r.g_queries_lifetime_init + r.g_queries_since_reboot < 2 ^ 63 ∧
      ∀ row ∈ s.metrics.rows,
        row.total_queries ≤ r.g_queries_lifetime_init + r.g_queries_since_reboot
  /-- Nor is a sum that the broadcast thread has computed. -/
  loaded : ∀ r current_total, s.run = some r → r.current_total = some current_total →
    current_total ≤ r.g_queries_lifetime_init + r.g_queries_since_reboot ∧
      ∀ row ∈ s.metrics.rows, row.total_queries ≤ current_total

variable {double : ℕ → ℕ} {s s' : CounterState} {l : CounterStep}

theorem counterInv_init (hinit : (counters double).init s) : CounterInv s := by
  cases hinit
  refine ⟨List.Pairwise.nil, ?_, ?_, ?_⟩
  · intro r hr
    cases hr
  · intro r hr
    cases hr
  · intro r current_total hr
    cases hr

namespace CounterInv

variable {r : Run}

/-- A start that reads the last total is not behind it. -/
theorem start (h : CounterInv s) {constructed ensured queried : OpenCalls} {prepares steps : Bool}
    (hkeeps : KeepsTotal s (.start constructed ensured queried prepares steps)) :
    CounterInv
      { s with run := some (.start s.metrics constructed ensured queried prepares steps) } := by
  have hmax : s.metrics.lastTotal < 2 ^ 63 := by
    rw [MetricsTable.lastTotal]
    split <;> omega
  have hinit : MasterDB.getLastTotalQueries
      (MasterDB.opened (MasterDB.opened false constructed) ensured) s.metrics queried prepares
        steps = s.metrics.lastTotal := by
    rw [MasterDB.getLastTotalQueries]
    rcases hkeeps with ⟨hopen, rfl, rfl⟩ | hzero
    · rw [hopen]
      rfl
    · rw [hzero]
      split_ifs <;> rfl
  refine ⟨h.ordered, h.small, fun r hr => ?_, fun r current_total hr hload => ?_⟩
  · cases hr
    rw [Run.start, hinit, Nat.add_zero]
    exact ⟨hmax, fun row hrow => total_le_lastTotal h.ordered h.small hrow⟩
  · cases hr
    cases hload

theorem count (h : CounterInv s) (hr : s.run = some r) (hkeeps : KeepsTotal s .count) :
    CounterInv { s with run := some r.counted } := by
  have hlt := hkeeps r hr
  have hcounted : r.counted.g_queries_since_reboot = r.g_queries_since_reboot + 1 :=
    wrap64_of_lt (by omega)
  refine ⟨h.ordered, h.small, fun r' hr' => ?_, fun r' current_total hr' hload => ?_⟩
  · cases hr'
    obtain ⟨-, hrows⟩ := h.counted r hr
    rw [hcounted]
    refine ⟨hlt, fun row hrow => ?_⟩
    have hle := hrows row hrow
    show row.total_queries ≤ r.g_queries_lifetime_init + (r.g_queries_since_reboot + 1)
    omega
  · cases hr'
    obtain ⟨hle, hrows⟩ := h.loaded r current_total hr hload
    rw [hcounted]
    refine ⟨?_, hrows⟩
    show current_total ≤ r.g_queries_lifetime_init + (r.g_queries_since_reboot + 1)
    omega

theorem load (h : CounterInv s) (hr : s.run = some r) :
    CounterInv { s with run := some { r with current_total := some r.total } } := by
  obtain ⟨hlt, hrows⟩ := h.counted r hr
  have htotal : r.total = r.g_queries_lifetime_init + r.g_queries_since_reboot :=
    wrap64_of_lt (by omega)
  refine ⟨h.ordered, h.small, fun r' hr' => ?_, fun r' current_total hr' hload => ?_⟩
  · cases hr'
    exact ⟨hlt, hrows⟩
  · cases hr'
    cases hload
    rw [htotal]
    exact ⟨le_refl _, hrows⟩

/-- A row that is written is not behind the earlier ones, and the counters are not behind it. -/
theorem insert (h : CounterInv s) (hr : s.run = some r) {current_total : ℕ}
    (hload : r.current_total = some current_total) (sample : Sample) (m_db : Bool) :
    CounterInv ⟨s.metrics.insert sample (MasterDB.columnValue double current_total),
      some { r with m_db := m_db, current_total := none }⟩ := by
  obtain ⟨hlt, hrows⟩ := h.counted r hr
  obtain ⟨hle, hbehind⟩ := h.loaded r current_total hr hload
  -- The total is below `2 ^ 63`, so the column holds it as it is.
  have hvalue : MasterDB.columnValue double current_total = current_total := if_pos (by omega)
  have hmem (P : MetricsRow → Prop) (hold : ∀ row ∈ s.metrics.rows, P row)
      (hnew : P (s.metrics.newRow sample current_total)) :
      ∀ row ∈ (s.metrics.insert sample current_total).rows, P row := by
    intro row hrow
    rcases List.mem_append.mp hrow with hrow | hrow
    · exact hold row hrow
    · rw [List.mem_singleton.mp hrow]
      exact hnew
  rw [hvalue]
  refine ⟨?_, hmem _ h.small ?_, fun r' hr' => ?_, fun r' total hr' hload' => ?_⟩
  · refine List.pairwise_append.mpr ⟨h.ordered, List.pairwise_singleton _ _, ?_⟩
    intro row hrow s hs
    rw [List.mem_singleton.mp hs]
    exact hbehind row hrow
  · show current_total < 2 ^ 63
    omega
  · cases hr'
    exact ⟨hlt, hmem _ hrows hle⟩
  · cases hr'
    cases hload'

theorem write (h : CounterInv s) (hr : s.run = some r) {current_total : ℕ}
    (hload : r.current_total = some current_total) (calls : OpenCalls) (execs : Bool)
    (sample : Sample) :
    CounterInv
      { metrics := MasterDB.insertMetrics double r.m_db s.metrics calls execs sample current_total
        run := some { r with m_db := MasterDB.opened r.m_db calls, current_total := none } } := by
  rcases insertMetrics_cases double r.m_db s.metrics calls execs sample current_total
    with hsame | hinsert
  · rw [hsame]
    refine ⟨h.ordered, h.small, fun r' hr' => ?_, fun r' total hr' hload' => ?_⟩
    · cases hr'
      exact h.counted r hr
    · cases hr'
      cases hload'
  · rw [hinsert]
    exact h.insert hr hload sample _

/-- Every step that keeps the total keeps the invariant. -/
theorem step (h : CounterInv s) (hkeeps : KeepsTotal s l)
    (hstep : (counters double).step s l = some s') : CounterInv s' := by
  -- One case for each step of a run; what ends a run leaves only the table behind.
  simp only [counters] at hstep
  split at hstep
  · cases hstep
    exact h.start hkeeps
  · next r calls hr =>
    cases hstep
    refine ⟨h.ordered, h.small, fun r' hr' => ?_, fun r' total hr' hload => ?_⟩
    · cases hr'
      exact h.counted r hr
    · cases hr'
      exact h.loaded r total hr hload
  · next r hr =>
    cases hstep
    exact h.count hr hkeeps
  · next r hr =>
    cases hstep
    exact h.load hr
  · next r calls execs sample hr =>
    split at hstep
    · cases hstep
    · next current_total hload =>
      cases hstep
      exact h.write hr hload calls execs sample
  · cases hstep
    refine ⟨h.ordered, h.small, fun r' hr' => ?_, fun r' total hr' => ?_⟩
    · cases hr'
    · cases hr'
  · cases hstep

end CounterInv

/-- In every run of steps that keep the total, the column does not decrease. -/
theorem nonDecreasing_of_reachableUnder (h : (counters double).ReachableUnder KeepsTotal s) :
    s.metrics.NonDecreasing :=
  nonDecreasing_of_pairwise (StepSystem.ReachableUnder.invariant (fun _ => counterInv_init)
    (fun _ _ _ hinv hkeeps hstep => hinv.step hkeeps hstep) h).ordered

/-! ## A lost total -/

/-- Where every call of `ensureOpen` succeeds. -/
def allOpen : OpenCalls := ⟨true, true, true⟩

theorem opened_allOpen (m_db : Bool) : MasterDB.opened m_db allOpen = true := by
  rw [MasterDB.opened, allOpen]
  exact Bool.or_true m_db

/-- A start that does not read the last total starts from zero. -/
theorem getLastTotalQueries_of_lost {constructed ensured queried : OpenCalls}
    {prepares steps : Bool}
    (hlost : ¬ KeepsTotal s (.start constructed ensured queried prepares steps)) :
    MasterDB.getLastTotalQueries (MasterDB.opened (MasterDB.opened false constructed) ensured)
      s.metrics queried prepares steps = 0 := by
  rw [KeepsTotal, not_or] at hlost
  rw [MasterDB.getLastTotalQueries]
  split_ifs with hopen hsteps
  · rfl
  · rw [Bool.and_eq_true] at hsteps
    exact absurd ⟨by simpa using hopen, hsteps⟩ hlost.1
  · rfl

/-- Behind a start that lost the total, the next row is smaller than the last one. -/
theorem not_nonDecreasing_of_lost (hrun : s.run = none) {constructed ensured queried : OpenCalls}
    {prepares steps : Bool} (sample : Sample)
    (hlost : ¬ KeepsTotal s (.start constructed ensured queried prepares steps)) :
    ∃ s', (counters double).runFrom s [.start constructed ensured queried prepares steps, .load,
        .write allOpen true sample] = some s' ∧ ¬ s'.metrics.NonDecreasing := by
  have hzero := getLastTotalQueries_of_lost hlost
  have htable (m_db : Bool) : MasterDB.insertMetrics double m_db s.metrics allOpen true sample 0 =
      s.metrics.insert sample 0 := by
    rw [MasterDB.insertMetrics, opened_allOpen]
    simp [MasterDB.columnValue]
  refine ⟨⟨s.metrics.insert sample 0, some ⟨true, 0, 0, none⟩⟩, ?_, fun h => ?_⟩
  · simp [counters, hrun, Run.start, Run.total, hzero, htable, opened_allOpen]
  · -- the last of the old rows has a positive total
    have hpos : s.metrics.lastTotal ≠ 0 := fun hlast => hlost (.inr hlast)
    rw [MetricsTable.lastTotal] at hpos
    cases hlast : s.metrics.rows.getLast? with
    | none => simp [hlast] at hpos
    | some row =>
      rw [hlast] at hpos
      have hrow : row ∈ s.metrics.rows := List.mem_of_getLast? hlast
      have hid := s.metrics.le_seq row hrow
      have hle := h row (List.mem_append_left _ hrow) (s.metrics.newRow sample 0)
        (List.mem_append_right _ (by simp)) (by simp only [MetricsTable.newRow]; omega)
      have hnew : (s.metrics.newRow sample 0).total_queries = 0 := rfl
      simp only at hpos
      omega

/-- A sample. -/
def someSample : Sample := ⟨lit "2024-01-01 00:00:00", 0, 0, 0, 1024, 0, 100⟩

/-- A run that counts two queries and writes them. -/
def twoQueries : List CounterStep :=
  [.start allOpen allOpen allOpen true true, .count, .count, .load, .write allOpen true someSample,
    .stop]

/-- Two runs, one after the other. -/
theorem nonDecreasing_twoRuns :
    ∃ s : CounterState, s.metrics.rows.map (·.total_queries) = [2, 4] ∧
      s.metrics.NonDecreasing := by
  have hrun : (((counters id).restrict KeepsTotal).runFrom ⟨.empty, none⟩
      (twoQueries ++ twoQueries)).any
      (fun s => s.metrics.rows.map (·.total_queries) == [2, 4]) = true := by
    decide +kernel
  obtain ⟨s, hs, htotals⟩ := StepSystem.exists_reachable_of_any rfl hrun
  exact ⟨s, beq_iff_eq.mp htotals,
    nonDecreasing_of_reachableUnder (StepSystem.Reachable.of_restrict hs)⟩

/-- Behind a run with two queries, `sqlite3_prepare_v2` fails once at the start of the next one. -/
theorem not_nonDecreasing_prepareFails :
    ∃ s, (counters id).Reachable s ∧ ¬ s.metrics.NonDecreasing := by
  have hrun : ((counters id).runFrom ⟨.empty, none⟩ (twoQueries ++
      [.start allOpen allOpen allOpen false true, .load, .write allOpen true someSample])).any
      (fun s => !decide s.metrics.NonDecreasing) = true := by
    decide +kernel
  obtain ⟨s, hs, hdecreases⟩ := StepSystem.exists_reachable_of_any rfl hrun
  exact ⟨s, hs, by simpa using hdecreases⟩

end Main
