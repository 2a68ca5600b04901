import Akkon.Construction.Utils
import Akkon.ToMathlib.UniqueTable

/-!
# `construction::MasterDB`

The registry of databases in `master.db`, the database files it is reconciled with, and the member
functions that startup calls. Text columns are given by what the program reads of them, the C string
of `sqlite3_column_text`.

SQLite itself is not part of the repository. What the statements do that the program means is
modelled here (`Registry.insert`, `replaceRow`, `insertRow`); where a text that is not escaped
ends its literal early, the statement is another one, and what SQLite makes of that is a
parameter (`Stray`).

* `Registry`: the table `databases`, whose identifiers are unique and in whose order the rows
  are read;
* `Host`: what the program finds of the file system apart from the contents of files;
* `scanAndImportUnmapped`, `loadExisting`, `getMissing`, `recreateMissing`, `createNewDatabase`.
-/

namespace Construction

open Cpp

/-- `DatabaseInfo`. -/
structure DatabaseInfo where
  uuid : Bytes
  creationDate : Bytes
  filePos : Bytes
  status : Bytes
  deriving DecidableEq, Repr

/-- A row of `databases`. -/
structure Row where
  id : ℤ
  info : DatabaseInfo
  deriving DecidableEq, Repr

/-- The table `databases`, in the order of the ids. -/
structure Registry where
  rows : List Row
  /-- The largest id that was ever given (`AUTOINCREMENT`). -/
  seq : ℤ
  increasing : rows.Pairwise fun r s => r.id < s.id
  le_seq : ∀ r ∈ rows, r.id ≤ seq
  nodup_uuid : (rows.map (·.info.uuid)).Nodup

namespace Registry

/-- The columns without the id. -/
def infos (reg : Registry) : List DatabaseInfo := reg.rows.map (·.info)

/-- The identifiers that are taken. -/
def uuids (reg : Registry) : List Bytes := reg.rows.map (·.info.uuid)

/-- The table when it is created. -/
def empty : Registry where
  rows := []
  seq := 0
  increasing := List.Pairwise.nil
  le_seq := by simp
  nodup_uuid := List.nodup_nil

/-- The row of an insertion. -/
def newRow (reg : Registry) (info : DatabaseInfo) : Row where
  id := reg.seq + 1
  info := info

theorem insert_increasing (reg : Registry) (info : DatabaseInfo) :
    (reg.rows ++ [reg.newRow info]).Pairwise fun r s => r.id < s.id := by
  rw [List.pairwise_append]
  refine ⟨reg.increasing, List.pairwise_singleton _ _, fun r hr s hs => ?_⟩
  rw [List.mem_singleton.mp hs]
  exact Int.lt_add_one_of_le (reg.le_seq r hr)

theorem insert_le_seq (reg : Registry) (info : DatabaseInfo) :
    ∀ r ∈ reg.rows ++ [reg.newRow info], r.id ≤ reg.seq + 1 := by
  intro r hr
  rcases List.mem_append.mp hr with hr | hr
  · exact (reg.le_seq r hr).trans (by omega)
  · rw [List.mem_singleton.mp hr]
    exact le_refl _

theorem insert_nodup_uuid (reg : Registry) {info : DatabaseInfo} (h : info.uuid ∉ reg.uuids) :
    ((reg.rows ++ [reg.newRow info]).map (·.info.uuid)).Nodup := by
  rw [List.map_append, List.map_singleton, ← List.concat_eq_append]
  exact reg.nodup_uuid.concat h

/-- `INSERT INTO databases`, refused when the identifier is taken: `INSERT` then fails and
`INSERT OR IGNORE` does not, and either way the table is as it was. -/
def insert (reg : Registry) (info : DatabaseInfo) : Registry :=
  if h : info.uuid ∈ reg.uuids then reg
  else
    { rows := reg.rows ++ [reg.newRow info]
      seq := reg.seq + 1
      increasing := insert_increasing reg info
      le_seq := insert_le_seq reg info
      nodup_uuid := insert_nodup_uuid reg h }

/-- The status that `ensureOpen` gives a row. -/
def normalizeRow (row : Row) : Row :=
  if row.info.status = lit "external" then
    { row with info := { row.info with status := lit "unmapped" } }
  else row

@[simp]
theorem normalizeRow_id (row : Row) : (normalizeRow row).id = row.id := by
  rw [normalizeRow]
  split <;> rfl

@[simp]
theorem normalizeRow_uuid (row : Row) : (normalizeRow row).info.uuid = row.info.uuid := by
  rw [normalizeRow]
  split <;> rfl

theorem normalize_increasing (reg : Registry) :
    (reg.rows.map normalizeRow).Pairwise fun r s => r.id < s.id := by
  rw [List.pairwise_map]
  simpa using reg.increasing

theorem normalize_le_seq (reg : Registry) : ∀ r ∈ reg.rows.map normalizeRow, r.id ≤ reg.seq := by
  intro r hr
  obtain ⟨s, hs, rfl⟩ := List.mem_map.mp hr
  rw [normalizeRow_id]
  exact reg.le_seq s hs

theorem normalize_nodup_uuid (reg : Registry) :
    ((reg.rows.map normalizeRow).map (·.info.uuid)).Nodup := by
  have hmap : (reg.rows.map normalizeRow).map (·.info.uuid) = reg.rows.map (·.info.uuid) := by
    rw [List.map_map]
    exact List.map_congr_left fun r _ => normalizeRow_uuid r
  rw [hmap]
  exact reg.nodup_uuid

/-- `UPDATE databases SET status='unmapped' WHERE status='external'`. -/
def normalize (reg : Registry) : Registry where
  rows := reg.rows.map normalizeRow
  seq := reg.seq
  increasing := normalize_increasing reg
  le_seq := normalize_le_seq reg
  nodup_uuid := normalize_nodup_uuid reg

@[simp]
theorem length_infos (reg : Registry) : reg.infos.length = reg.rows.length := List.length_map _

theorem map_uuid_infos (reg : Registry) : reg.infos.map (·.uuid) = reg.uuids := List.map_map

theorem infos_insert (reg : Registry) (info : DatabaseInfo) :
    (reg.insert info).infos = UniqueTable.insertNew (·.uuid) reg.infos info := by
  by_cases h : info.uuid ∈ reg.uuids
  · rw [insert, dif_pos h, UniqueTable.insertNew_of_mem (by rwa [map_uuid_infos])]
  · rw [insert, dif_neg h, UniqueTable.insertNew_of_not_mem (by rwa [map_uuid_infos])]
    simp [infos, newRow]

theorem prefix_insert (reg : Registry) (info : DatabaseInfo) :
    reg.rows <+: (reg.insert info).rows := by
  rw [insert]
  split
  · exact List.prefix_refl _
  · exact List.prefix_append _ _

end Registry

/-! ## Files -/

/-- A row of the table `metadata` of a database file. -/
structure MetaRow where
  uuid : Option Bytes
  creation_date : Option Bytes
  file_path : Option Bytes
  deriving DecidableEq, Repr

/-- A file, by its table `metadata`: `none` where there is no such table. -/
structure DbFile where
  metadata : Option (List MetaRow)
  deriving DecidableEq, Repr

/-- What startup reads and writes: the registry, and what exists at each place of the file
system. -/
structure World where
  registry : Registry
  disk : Bytes → Option DbFile

/-- What the program finds of the file system apart from the contents of files. -/
structure Host where
  /-- `dbDir.string()`. -/
  dbDir : Bytes
  /-- The place a path leads to, given by one of the paths that lead there. -/
  locate : Bytes → Bytes
  /-- Whether `sqlite3_open` succeeds. -/
  opens : Bytes → Bool
  /-- The time of the last write, as the import formats it. -/
  mtime : Bytes → Timestamp
  /-- The entries of the directory are different places. -/
  locate_entry : ∀ name, IsName name →
    locate (dbDir ++ lit "/" ++ name) = dbDir ++ lit "/" ++ name

/-- What SQLite makes of a statement whose text is not the one that was meant, on the database file
at a path. -/
abbrev Stray := Bytes → Bytes → World → World

/-- An entry that `directory_iterator` gives. -/
structure DirEntry where
  name : Bytes
  is_regular_file : Bool
  deriving DecidableEq, Repr

/-- The entries of the directory, in the order the iterator gives them. -/
structure Directory where
  entries : List DirEntry
  isName : ∀ entry ∈ entries, IsName entry.name
  nodup_name : (entries.map (·.name)).Nodup

namespace Host

variable (host : Host)

/-- `entry.path().string()`. -/
def entryPath (name : Bytes) : Bytes := host.dbDir ++ lit "/" ++ name

/-- `(m_dbDir / rhs).string()`: an absolute path replaces the directory. -/
def child (rhs : Bytes) : Bytes :=
  if rhs.head? = some 47 then rhs else host.entryPath rhs

/-- The path of the file that is created for an identifier. -/
def databasePath (uuid : Bytes) : Bytes := host.child (databaseName uuid)

/-- `m_dbDir / "master.db"`. -/
def masterPath : Bytes := host.child (lit "master.db")

/-- `std::filesystem::exists`. -/
def fileExists (w : World) (path : Bytes) : Bool :=
  path ≠ [] && (w.disk (host.locate path)).isSome

end Host

theorem Host.locate_entryPath (host : Host) {name : Bytes} (h : IsName name) :
    host.locate (host.entryPath name) = host.entryPath name := host.locate_entry name h

theorem Host.databasePath_eq (host : Host) {uuid : Bytes} (h : 47 ∉ uuid) :
    host.databasePath uuid = host.entryPath (databaseName uuid) := by
  have hhead : (databaseName uuid).head? ≠ some 47 := by
    intro heq
    exact (isName_databaseName h).2.1 (List.mem_of_mem_head? heq)
  rw [databasePath, child, if_neg hhead]

/-- The file of an identifier without a slash lies in the directory. -/
theorem Host.locate_databasePath (host : Host) {uuid : Bytes} (h : 47 ∉ uuid) :
    host.locate (host.databasePath uuid) = host.entryPath (databaseName uuid) := by
  rw [host.databasePath_eq h, host.locate_entryPath (isName_databaseName h)]

/-- The file at a place once it was opened for writing and `CREATE TABLE IF NOT EXISTS metadata` was
executed. -/
def World.metadataAt (w : World) (place : Bytes) : List MetaRow :=
  ((w.disk place).bind (·.metadata)).getD []

/-- A new content of the table `metadata` of the file at a place. -/
def World.writeMetadata (w : World) (place : Bytes) (table : List MetaRow) : World :=
  { w with disk := Function.update w.disk place (some ⟨some table⟩) }

namespace World

variable (w : World) (place other : Bytes) (table table' : List MetaRow)

@[simp]
theorem writeMetadata_registry : (w.writeMetadata place table).registry = w.registry := rfl

@[simp]
theorem metadataAt_writeMetadata_self :
    (w.writeMetadata place table).metadataAt place = table := by
  simp [metadataAt, writeMetadata]

theorem metadataAt_writeMetadata_of_ne {place other : Bytes} (h : other ≠ place) :
    (w.writeMetadata place table).metadataAt other = w.metadataAt other := by
  simp [metadataAt, writeMetadata, h]

@[simp]
theorem writeMetadata_writeMetadata :
    (w.writeMetadata place table).writeMetadata place table' = w.writeMetadata place table' := by
  simp [writeMetadata]

/-- A table that is not empty is the table of a file. -/
theorem disk_eq_of_metadataAt (h : w.metadataAt place = table) (hne : table ≠ []) :
    w.disk place = some ⟨some table⟩ := by
  subst h
  unfold metadataAt at hne ⊢
  cases hfile : w.disk place with
  | none => simp [hfile] at hne
  | some file =>
    obtain ⟨metadata⟩ := file
    cases metadata with
    | none => simp [hfile] at hne
    | some table => rfl

/-- Writing what is there. -/
theorem writeMetadata_eq_self (h : w.disk place = some ⟨some table⟩) :
    w.writeMetadata place table = w := by
  rw [writeMetadata, ← h, Function.update_eq_self]

/-- A file exists once it was written, and the others as before. -/
theorem isSome_disk_writeMetadata : ((w.writeMetadata place table).disk other).isSome ↔
    (w.disk other).isSome ∨ other = place := by
  by_cases h : other = place <;> simp [writeMetadata, h]

end World

/-- `INSERT OR REPLACE INTO metadata`: a row with the same identifier goes. -/
def replaceRow (table : List MetaRow) (row : MetaRow) : List MetaRow :=
  table.filter (fun r => r.uuid ≠ row.uuid) ++ [row]

/-- `INSERT INTO metadata`, which a row with the same identifier makes fail. -/
def insertRow (table : List MetaRow) (row : MetaRow) : List MetaRow :=
  if row.uuid ∈ table.map (·.uuid) then table else table ++ [row]

/-! ## The member functions -/

namespace MasterDB

variable (host : Host) (stray : Stray)

/-- `ensureOpen`, where the database can be opened. -/
def ensureOpen (w : World) : World where
  registry := w.registry.normalize
  disk := fun place =>
    if place = host.locate host.masterPath then some ((w.disk place).getD ⟨none⟩) else w.disk place

/-- The statement of `registerDatabase`. -/
def registerSql (info : DatabaseInfo) : Bytes :=
  lit "INSERT OR IGNORE INTO databases (uuid, creation_date, file_path, status) VALUES ('"
    ++ info.uuid ++ lit "', '" ++ info.creationDate ++ lit "', '" ++ escapeSqlString info.filePos
    ++ lit "', '" ++ (if info.status = [] then lit "active" else info.status) ++ lit "');"

/-- `registerDatabase`: only the path is escaped. -/
def registerDatabase (w : World) (info : DatabaseInfo) : World :=
  match literal info.uuid, literal info.creationDate,
    literal (if info.status = [] then lit "active" else info.status) with
  | some uuid, some creationDate, some status =>
    { w with registry := w.registry.insert { uuid, creationDate, filePos := info.filePos, status } }
  | _, _, _ => stray host.masterPath (registerSql info) w

/-- The loop of `loadExisting` over the rows, from the value of `index` on: `none` stands for the
undefined behaviour of `index++` at the largest `int`. -/
def loadRows : ℤ → List Row → Option (List (ℤ × DatabaseInfo))
  | _, [] => some []
  | index, row :: rest =>
    if index = 2 ^ 31 - 1 then none
    else (loadRows (index + 1) rest).map ((index + 1, row.info) :: ·)

/-- `loadExisting`: the map by its entries in the order of the keys. -/
def loadExisting (w : World) : Option (List (ℤ × DatabaseInfo)) := loadRows 0 w.registry.rows

/-- `getMissing`. -/
def getMissing (w : World) (existing : List (ℤ × DatabaseInfo)) : List DatabaseInfo :=
  (existing.map (·.2)).filter fun info => !host.fileExists w info.filePos

/-- A statement that writes the three values of a metadata row, of which only the path is
escaped. -/
def metadataSql (verb uuid creationDate path : Bytes) : Bytes :=
  verb ++ lit " INTO metadata VALUES ('" ++ uuid ++ lit "', '" ++ creationDate ++ lit "', '"
    ++ escapeSqlString path ++ lit "');"

/-- One round of the loop of `recreateMissing`. -/
def recreate (w : World) (info : DatabaseInfo) : World :=
  let dbPath := host.databasePath info.uuid
  if host.opens dbPath then
    let table := w.metadataAt (host.locate dbPath)
    -- the file exists from here on, with its table
    let w := w.writeMetadata (host.locate dbPath) table
    match literal info.uuid, literal info.creationDate with
    | some uuid, some creationDate =>
      w.writeMetadata (host.locate dbPath)
        (replaceRow table ⟨some uuid, some creationDate, some dbPath⟩)
    | _, _ =>
      stray dbPath (metadataSql (lit "INSERT OR REPLACE") info.uuid info.creationDate dbPath) w
  else w

/-- `recreateMissing`. -/
def recreateMissing (w : World) (missing : List DatabaseInfo) : World :=
  missing.foldl (recreate host stray) w

/-- The uuid and the creation date that the import reads from a file, empty where there is none:
`SELECT uuid, creation_date FROM metadata LIMIT 1`. -/
def readMetadata (w : World) (full : Bytes) : Bytes × Bytes :=
  if host.opens full then
    match (w.metadataAt (host.locate full)).head? with
    | some row => (row.uuid.getD [], row.creation_date.getD [])
    | none => ([], [])
  else ([], [])

/-- What the import registers for a file. -/
def importInfo (w : World) (name : Bytes) : DatabaseInfo where
  uuid :=
    if (readMetadata host w (host.entryPath name)).1 = [] then (splitExtension name).1
    else (readMetadata host w (host.entryPath name)).1
  creationDate :=
    if (readMetadata host w (host.entryPath name)).2 = [] then
      (host.mtime (host.entryPath name)).text
    else (readMetadata host w (host.entryPath name)).2
  filePos := host.entryPath name
  status := lit "unmapped"

/-- One round of the loop of `scanAndImportUnmapped`. All texts of its statement are escaped, so
what it inserts are the texts (`literal_escapeSqlString`). -/
def importEntry (mappedPaths : List Bytes) (w : World) (entry : DirEntry) : World :=
  if !entry.is_regular_file then w
  else if entry.name = lit "master.db" then w
  else if (splitExtension entry.name).2 ≠ lit ".db" then w
  else if host.entryPath entry.name ∈ mappedPaths then w
  else { w with registry := w.registry.insert (importInfo host w entry.name) }

/-- `scanAndImportUnmapped`: the paths that are mapped are collected before the loop. -/
def scanAndImportUnmapped (w : World) (dir : Directory) : World :=
  dir.entries.foldl (importEntry host (w.registry.infos.map (·.filePos))) w

/-- `createNewDatabase`, for the identifier that was generated and the time of the call. -/
def createNewDatabase (w : World) (uuid : Bytes) (now : Timestamp) : World × DatabaseInfo :=
  let dbPath := host.databasePath uuid
  if host.opens dbPath then
    let table := w.metadataAt (host.locate dbPath)
    let w := w.writeMetadata (host.locate dbPath) table
    let w :=
      match literal uuid, literal now.text with
      | some u, some d =>
        w.writeMetadata (host.locate dbPath) (insertRow table ⟨some u, some d, some dbPath⟩)
      | _, _ => stray dbPath (metadataSql (lit "INSERT") uuid now.text dbPath) w
    let info : DatabaseInfo :=
      { uuid, creationDate := now.text, filePos := dbPath, status := lit "active" }
    (registerDatabase host stray w info, info)
  else (w, { uuid, creationDate := now.text, filePos := lit "ERROR", status := [] })

/-! ## What the map of the registry is -/

/-- The entries of a map whose keys count up from an index. -/
def numberedFrom : ℤ → List DatabaseInfo → List (ℤ × DatabaseInfo)
  | _, [] => []
  | index, info :: infos => (index, info) :: numberedFrom (index + 1) infos

@[simp]
theorem map_snd_numberedFrom (index : ℤ) (infos : List DatabaseInfo) :
    (numberedFrom index infos).map (·.2) = infos := by
  induction infos generalizing index with
  | nil => rfl
  | cons info infos ih => rw [numberedFrom, List.map_cons, ih]

@[simp]
theorem length_numberedFrom (index : ℤ) (infos : List DatabaseInfo) :
    (numberedFrom index infos).length = infos.length := by
  rw [← List.length_map (f := (·.2)), map_snd_numberedFrom]

/-- The keys have no gaps. -/
theorem map_fst_numberedFrom (index : ℤ) (infos : List DatabaseInfo) :
    (numberedFrom index infos).map (·.1) =
      (List.range infos.length).map fun i : ℕ => index + i := by
  induction infos generalizing index with
  | nil => rfl
  | cons info infos ih =>
    rw [numberedFrom, List.map_cons, ih, List.length_cons, List.range_succ_eq_map, List.map_cons,
      List.map_map]
    simp [Function.comp_def, add_assoc, add_comm (1 : ℤ)]

theorem numberedFrom_append (index : ℤ) (infos infos' : List DatabaseInfo) :
    numberedFrom index (infos ++ infos') =
      numberedFrom index infos ++ numberedFrom (index + infos.length) infos' := by
  induction infos generalizing index with
  | nil => simp [numberedFrom]
  | cons info infos ih =>
    rw [List.cons_append, numberedFrom, ih, numberedFrom, List.cons_append, List.length_cons]
    simp [add_assoc, add_comm (1 : ℤ)]

theorem loadRows_eq_some (rows : List Row) (index : ℤ) (h : index + rows.length < 2 ^ 31) :
    loadRows index rows = some (numberedFrom (index + 1) (rows.map (·.info))) := by
  induction rows generalizing index with
  | nil => rfl
  | cons row rows ih =>
    rw [List.length_cons] at h
    rw [loadRows, if_neg (by omega), ih (index + 1) (by omega)]
    rfl

theorem loadRows_eq_none (rows : List Row) (index : ℤ) (hindex : index < 2 ^ 31)
    (h : 2 ^ 31 ≤ index + rows.length) : loadRows index rows = none := by
  induction rows generalizing index with
  | nil => simp at h; omega
  | cons row rows ih =>
    rw [List.length_cons] at h
    by_cases hlast : index = 2 ^ 31 - 1
    · rw [loadRows, if_pos hlast]
    · rw [loadRows, if_neg hlast, ih (index + 1) (by omega) (by omega)]
      rfl

/-- `loadExisting` numbers the rows, as long as an `int` can. -/
theorem loadExisting_eq_some {w : World} (h : w.registry.rows.length < 2 ^ 31) :
    loadExisting w = some (numberedFrom 1 w.registry.infos) :=
  loadRows_eq_some w.registry.rows 0 (by omega)

theorem loadExisting_eq_none {w : World} (h : 2 ^ 31 ≤ w.registry.rows.length) :
    loadExisting w = none :=
  loadRows_eq_none w.registry.rows 0 (by omega) (by omega)

theorem loadExisting_eq_some_iff {w : World} {existing : List (ℤ × DatabaseInfo)} :
    loadExisting w = some existing ↔
      w.registry.rows.length < 2 ^ 31 ∧ existing = numberedFrom 1 w.registry.infos := by
  rcases Nat.lt_or_ge w.registry.rows.length (2 ^ 31) with h | h
  · rw [loadExisting_eq_some h, Option.some.injEq]
    exact ⟨fun heq => ⟨h, heq.symm⟩, fun heq => heq.2.symm⟩
  · rw [loadExisting_eq_none h]
    exact iff_of_false (by simp) fun heq => Nat.not_lt.mpr h heq.1

/-! ## What a creation does -/

/-- The row of a database that is created. -/
def newInfo (uuid : Bytes) (now : Timestamp) : DatabaseInfo where
  uuid := uuid
  creationDate := now.text
  filePos := host.databasePath uuid
  status := lit "active"

/-- The texts of a generated row are written as they are, so that both statements are the ones that
were meant. -/
theorem createNewDatabase_eq (w : World) (dis : ℕ → Fin 16) (now : Timestamp)
    (hopens : host.opens (host.databasePath (generateUUID dis)) = true) :
    let uuid := generateUUID dis
    let place := host.locate (host.databasePath uuid)
    let row : MetaRow := ⟨some uuid, some now.text, some (host.databasePath uuid)⟩
    createNewDatabase host stray w uuid now =
      ({ w.writeMetadata place (insertRow (w.metadataAt place) row) with
          registry := w.registry.insert (newInfo host uuid now) }, newInfo host uuid now) := by
  have huuid : literal (generateUUID dis) = some (generateUUID dis) :=
    literal_of_not_mem (not_mem_generateUUID (.inl rfl) dis)
  have hdate : literal now.text = some now.text := literal_of_not_mem now.no_quote
  have hstatus : literal (lit "active") = some (lit "active") := by decide
  have hactive : (if lit "active" = [] then lit "active" else lit "active") = lit "active" :=
    if_neg (by decide)
  simp only [createNewDatabase, hopens, if_true, huuid, hdate, registerDatabase, hactive, hstatus,
    World.writeMetadata_writeMetadata]
  rfl

end MasterDB

end Construction
