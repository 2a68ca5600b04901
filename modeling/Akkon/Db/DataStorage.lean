import Akkon.Index.QueryEngine

/-!
# `db::DataStorage`

The shards of `DataStorage.cpp`. SQLite is taken as given: a text bound with length `-1` is stored
up to its first NUL, a column gives back what was stored, and a statement that does not reach
`SQLITE_DONE` stores nothing. Which of the calls succeed is an argument of each operation.

* `insertEntity_false`: a call that returns false leaves every table as it was;
* `insertEntity_true`: a call that returns true adds exactly one row;
* `members_loadAllIdentifiers`: loading makes the stored identifiers members of the index.
-/

namespace Db

open Cpp Indexer

/-- `DbEntity`. -/
structure DbEntity where
  uuid : Bytes
  identifyer : Bytes
  pwk : Bytes
  deriving DecidableEq, Repr

/-- A text value of SQLite. -/
abbrev SqlText := { t : Bytes // 0 ∉ t }

/-- `sqlite3_bind_text(stmt, i, s.c_str(), -1, SQLITE_TRANSIENT)`. -/
def bindText (s : Bytes) : SqlText := ⟨cStr s, fun h => by
  simpa using List.mem_takeWhile_imp h⟩

/-- A row of the table `information`. A file written by another program may hold NULLs. -/
structure Row where
  uuid : Option SqlText
  identifier : Option SqlText
  pwk : Option SqlText
  deriving DecidableEq, Repr

/-- The row that `INSERT INTO information` stores for an entity. -/
def DbEntity.toRow (entity : DbEntity) : Row :=
  ⟨some (bindText entity.uuid), some (bindText entity.identifyer), some (bindText entity.pwk)⟩

/-- The table `information` of an opened shard. -/
abbrev Shard := List Row

/-- What `exists(dbDir)` and `space(dbDir)` report. Where `db` does not exist the handler asks for
the space of the working directory. -/
structure DiskProbe where
  /-- `std::filesystem::exists(dbDir)`, also where that throws. -/
  dirExists : Bool
  /-- `si.available`, `none` when one of the calls throws. -/
  available : Option ℕ
  deriving DecidableEq, Repr

/-- `100LL * 1024LL * 1024LL`. -/
def diskLimit : ℕ := 100 * 1024 * 1024

/-- `si.available < 100LL * 1024LL * 1024LL`; a probe that throws is taken for enough space. -/
def DiskProbe.low (probe : DiskProbe) : Bool := probe.available.any (· < diskLimit)

/-- How the calls inside one `insertEntity` turn out. -/
structure StorageEnv where
  /-- The disk guard. -/
  disk : DiskProbe
  /-- `sqlite3_prepare_v2` returns `SQLITE_OK`. -/
  prepareOk : Bool
  /-- `sqlite3_step` returns `SQLITE_DONE`. -/
  stepDone : Bool
  deriving DecidableEq, Repr

/-- The opened shards and the round-robin index, which points at one of them. -/
structure DataStorage where
  m_data_dbs : List Shard
  m_round_robin_idx : ℕ
  /-- The index is in range. -/
  idx_lt : m_data_dbs ≠ [] → m_round_robin_idx < m_data_dbs.length
  deriving DecidableEq

namespace DataStorage

/-- `DataStorage::initialize` on a fresh object: the registered files that open, in key order. -/
def initializeDbs (opened : List (Option Shard)) : DataStorage :=
  ⟨opened.filterMap id, 0, List.length_pos_iff.mpr⟩

variable (ds : DataStorage)

/-- `m_round_robin_idx = (m_round_robin_idx + 1) % m_data_dbs.size()`. -/
def advance : DataStorage :=
  ⟨ds.m_data_dbs, (ds.m_round_robin_idx + 1) % ds.m_data_dbs.length, fun h =>
    Nat.mod_lt _ (List.length_pos_iff.mpr h)⟩

/-- The row is added to shard `i`. -/
def addRow (i : ℕ) (row : Row) : DataStorage :=
  ⟨ds.m_data_dbs.modify i (· ++ [row]), ds.m_round_robin_idx, fun h => by
    rw [List.length_modify]
    exact ds.idx_lt fun hnil => h (by simp [hnil])⟩

/-- `DataStorage::insertEntity`. -/
def insertEntity (entity : DbEntity) (env : StorageEnv) : DataStorage × Bool :=
  if ds.m_data_dbs = [] then (ds, false)
  else if entity.uuid ≠ [] ∧ entity.identifyer = [] then (ds, false)
  else if env.disk.dirExists && env.disk.low then (ds, false)
  else
    -- the index moves on before the statement is prepared
    let target := ds.m_round_robin_idx
    if !env.prepareOk then (ds.advance, false)
    else if !env.stepDone then (ds.advance, false)
    else (ds.advance.addRow target entity.toRow, true)

/-- How the `SELECT` over one shard turns out. -/
inductive SelectOutcome
  /-- `sqlite3_prepare_v2` fails. -/
  | prepareFailed
  /-- `sqlite3_step` stops returning `SQLITE_ROW` after `n` rows. -/
  | stoppedAfter (n : ℕ)
  /-- Every row is returned. -/
  | complete
  deriving DecidableEq, Repr

/-- The rows the loop sees. -/
def SelectOutcome.rows : SelectOutcome → Shard → List Row
  | .prepareFailed, _ => []
  | .stoppedAfter n, shard => shard.take n
  | .complete, shard => shard

/-- `query_engine.insert(identifier)` unless the column is NULL. -/
def loadRow (query_engine : QueryEngine) (row : Row) : Except Exn QueryEngine :=
  match row.identifier with
  | some identifier => query_engine.insert identifier
  | none => .ok query_engine

/-- `DataStorage::loadAllIdentifiers`; `select i` is how the query on shard `i` turns out. -/
def loadAllIdentifiers (select : ℕ → SelectOutcome) (query_engine : QueryEngine) :
    Except Exn QueryEngine :=
  (ds.m_data_dbs.zipIdx.flatMap fun p => (select p.2).rows p.1).foldlM loadRow query_engine

/-! ## Stored rows and identifiers -/

/-- All the rows, shard by shard. -/
def rows : List Row := ds.m_data_dbs.flatten

/-- The identifiers in the tables. -/
def identifiers : Finset Bytes := (ds.rows.filterMap fun r => r.identifier.map (·.1)).toFinset

/-- The rows with an identifier. -/
def rowsWith (identifier : Bytes) : List Row :=
  ds.rows.filter fun r => r.identifier.map (·.1) = some identifier

variable {ds}

theorem mem_identifiers {identifier : Bytes} :
    identifier ∈ ds.identifiers ↔ ∃ r ∈ ds.rows, r.identifier.map (·.1) = some identifier := by
  simp [identifiers]

/-- An identifier is stored when some row has it. -/
theorem mem_identifiers_iff_rowsWith {identifier : Bytes} :
    identifier ∈ ds.identifiers ↔ ds.rowsWith identifier ≠ [] := by
  rw [mem_identifiers, rowsWith, ne_eq, List.filter_eq_nil_iff]
  simp

@[simp]
theorem rows_advance : ds.advance.rows = ds.rows := rfl

@[simp]
theorem m_data_dbs_advance : ds.advance.m_data_dbs = ds.m_data_dbs := rfl

/-- A row added to a shard in range is one more row. -/
theorem rows_addRow_perm {i : ℕ} (hi : i < ds.m_data_dbs.length) (row : Row) :
    (ds.addRow i row).rows.Perm (row :: ds.rows) := by
  change (ds.m_data_dbs.modify i (· ++ [row])).flatten.Perm (row :: ds.m_data_dbs.flatten)
  rw [List.modify_eq_take_cons_drop hi]
  conv_rhs => rw [← List.take_append_drop i ds.m_data_dbs, List.drop_eq_getElem_cons hi]
  simp only [List.flatten_append, List.flatten_cons, List.append_assoc, List.singleton_append]
  -- the row moves in front of what is before it in the shard, then of the earlier shards
  exact (List.Perm.append_left _ List.perm_middle).trans List.perm_middle

/-! ## `insertEntity` -/

/-- The guards in front of the statement. -/
def Refuses (ds : DataStorage) (entity : DbEntity) (env : StorageEnv) : Prop :=
  ds.m_data_dbs = [] ∨ (entity.uuid ≠ [] ∧ entity.identifyer = []) ∨
    (env.disk.dirExists && env.disk.low) = true

/-- Everything a call can do: a guard refuses it, the statement fails, or one row is added. -/
theorem insertEntity_cases (ds : DataStorage) (entity : DbEntity) (env : StorageEnv) :
    (ds.Refuses entity env ∧ ds.insertEntity entity env = (ds, false)) ∨
      (¬ ds.Refuses entity env ∧ (env.prepareOk && env.stepDone) = false ∧
        ds.insertEntity entity env = (ds.advance, false)) ∨
      (¬ ds.Refuses entity env ∧ (env.prepareOk && env.stepDone) = true ∧
        ds.insertEntity entity env
          = (ds.advance.addRow ds.m_round_robin_idx entity.toRow, true)) := by
  unfold insertEntity Refuses
  by_cases hnil : ds.m_data_dbs = []
  · exact .inl ⟨.inl hnil, if_pos hnil⟩
  · rw [if_neg hnil]
    by_cases hid : entity.uuid ≠ [] ∧ entity.identifyer = []
    · exact .inl ⟨.inr (.inl hid), if_pos hid⟩
    · rw [if_neg hid]
      by_cases hlow : (env.disk.dirExists && env.disk.low) = true
      · exact .inl ⟨.inr (.inr hlow), if_pos hlow⟩
      · refine .inr ?_
        have hnot : ¬ (ds.m_data_dbs = [] ∨ (entity.uuid ≠ [] ∧ entity.identifyer = []) ∨
            (env.disk.dirExists && env.disk.low) = true) := by tauto
        cases hprep : env.prepareOk <;> cases hstep : env.stepDone <;> simp_all

/-- A call that returns false leaves every table as it was. -/
theorem insertEntity_false {entity : DbEntity} {env : StorageEnv}
    (h : (ds.insertEntity entity env).2 = false) :
    (ds.insertEntity entity env).1.m_data_dbs = ds.m_data_dbs := by
  rcases ds.insertEntity_cases entity env with ⟨-, heq⟩ | ⟨-, -, heq⟩ | ⟨-, -, heq⟩
  · rw [heq]
  · rw [heq, m_data_dbs_advance]
  · rw [heq] at h
    cases h

/-- A call that returns true adds exactly one row. -/
theorem insertEntity_true {entity : DbEntity} {env : StorageEnv}
    (h : (ds.insertEntity entity env).2 = true) :
    (ds.insertEntity entity env).1.rows.Perm (entity.toRow :: ds.rows) := by
  rcases ds.insertEntity_cases entity env with ⟨-, heq⟩ | ⟨-, -, heq⟩ | ⟨hnot, -, heq⟩
  · rw [heq] at h
    cases h
  · rw [heq] at h
    cases h
  · rw [heq]
    -- the shard is the one the index pointed at before it moved on
    have hlt : ds.m_round_robin_idx < ds.advance.m_data_dbs.length :=
      ds.idx_lt fun hnil => hnot (.inl hnil)
    exact rows_addRow_perm hlt entity.toRow

/-- The identifiers after a call: one more when the write succeeds. -/
theorem identifiers_insertEntity (entity : DbEntity) (env : StorageEnv) :
    (ds.insertEntity entity env).1.identifiers =
      if (ds.insertEntity entity env).2 then insert (cStr entity.identifyer) ds.identifiers
      else ds.identifiers := by
  cases h : (ds.insertEntity entity env).2 with
  | false => simp [identifiers, rows, insertEntity_false h]
  | true =>
    ext identifier
    rw [if_pos rfl, Finset.mem_insert, mem_identifiers, mem_identifiers]
    simp only [(insertEntity_true h).mem_iff, List.mem_cons, or_and_right, exists_or,
      exists_eq_left]
    refine or_congr_left ?_
    simp [DbEntity.toRow, bindText, eq_comm]

/-- The number of rows with an identifier after a call. -/
theorem length_rowsWith_insertEntity (ds : DataStorage) (entity : DbEntity) (env : StorageEnv)
    (identifier : Bytes) :
    ((ds.insertEntity entity env).1.rowsWith identifier).length =
      (ds.rowsWith identifier).length +
        if (ds.insertEntity entity env).2 ∧ cStr entity.identifyer = identifier then 1 else 0 := by
  cases h : (ds.insertEntity entity env).2 with
  | false => simp [rowsWith, rows, insertEntity_false h]
  | true =>
    rw [rowsWith, ((insertEntity_true h).filter _).length_eq, List.filter_cons]
    by_cases hid : cStr entity.identifyer = identifier
    · simp [DbEntity.toRow, bindText, hid, rowsWith]
    · simp [DbEntity.toRow, bindText, hid, rowsWith]

/-- Every call inside `insertEntity` succeeds. -/
structure WriteOk (ds : DataStorage) (env : StorageEnv) : Prop where
  opened : ds.m_data_dbs ≠ []
  disk : (env.disk.dirExists && env.disk.low) = false
  prepareOk : env.prepareOk = true
  stepDone : env.stepDone = true

/-- A call for a nonempty identifier returns true exactly when every call inside succeeds. -/
theorem insertEntity_snd_iff {entity : DbEntity} {env : StorageEnv} (h : entity.identifyer ≠ []) :
    (ds.insertEntity entity env).2 = true ↔ ds.WriteOk env := by
  rcases ds.insertEntity_cases entity env with
    ⟨hrefuses, heq⟩ | ⟨-, hstmt, heq⟩ | ⟨hnot, hstmt, heq⟩
  · rw [heq]
    -- each guard is against one of the calls that are to succeed
    refine iff_of_false (by simp) fun hok => ?_
    rcases hrefuses with hnil | hid | hlow
    · exact hok.opened hnil
    · exact h hid.2
    · simp [hok.disk] at hlow
  · rw [heq]
    refine iff_of_false (by simp) fun hok => ?_
    simp [hok.prepareOk, hok.stepDone] at hstmt
  · rw [heq]
    simp only [Refuses, not_or, Bool.not_eq_true] at hnot
    simp only [Bool.and_eq_true] at hstmt
    exact iff_of_true rfl ⟨hnot.1, hnot.2.2, hstmt.1, hstmt.2⟩

/-! ## Loading -/

/-- Loading never throws, and makes members of the identifiers it is shown. -/
theorem foldlM_loadRow (rs : List Row) (query_engine : QueryEngine) :
    ∃ qe, rs.foldlM loadRow query_engine = .ok qe ∧
      qe.members
        = query_engine.members ∪ (rs.filterMap fun r => r.identifier.map (·.1)).toFinset := by
  induction rs generalizing query_engine with
  | nil => exact ⟨query_engine, rfl, by simp⟩
  | cons r rs ih =>
    rw [List.foldlM_cons]
    cases hid : r.identifier with
    | none =>
      -- a NULL is passed over
      obtain ⟨qe, hqe, hmem⟩ := ih query_engine
      have hload : loadRow query_engine r = .ok query_engine := by rw [loadRow, hid]
      exact ⟨qe, by rw [hload]; exact hqe, by simp [hmem, hid]⟩
    | some identifier =>
      obtain ⟨qe, hqe, hmem⟩ := ih (query_engine.inserted identifier)
      have hload : loadRow query_engine r = .ok (query_engine.inserted identifier) := by
        rw [loadRow, hid]
        exact query_engine.insert_eq_ok identifier
      refine ⟨qe, by rw [hload]; exact hqe, ?_⟩
      ext x
      simp [hmem, hid]

/-- Loading with every `SELECT` complete makes exactly the stored identifiers members. -/
theorem members_loadAllIdentifiers (ds : DataStorage) (query_engine : QueryEngine) :
    ∃ qe, ds.loadAllIdentifiers (fun _ => .complete) query_engine = .ok qe ∧
      qe.members = query_engine.members ∪ ds.identifiers := by
  have hrows : (ds.m_data_dbs.zipIdx.flatMap fun p => SelectOutcome.complete.rows p.1)
      = ds.rows := by
    rw [rows, List.flatMap_def]
    simp only [SelectOutcome.rows]
    rw [show (fun p : Shard × ℕ => p.1) = Prod.fst from rfl, List.zipIdx_map_fst]
  obtain ⟨qe, hqe, hmem⟩ := foldlM_loadRow ds.rows query_engine
  refine ⟨qe, ?_, hmem⟩
  rw [loadAllIdentifiers, hrows, hqe]

end DataStorage

end Db
