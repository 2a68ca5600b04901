import Akkon.Construction.MasterDB

/-!
# The import scan

`scanAndImportUnmapped` decides by path which files are mapped, while the registry decides by uuid
which insertions it takes, and the uuid comes from the file.

* `infos_scan`: the scan is a sequence of insertions into a table with a unique key, one for each
  database file whose path is not in the registry;
* `scanComplete_iff`: exactly when every database file ends up with a row and none with two.
-/

namespace Construction

open Cpp

/-- A database file of the directory. -/
def DirEntry.IsDatabase (entry : DirEntry) : Prop :=
  entry.is_regular_file = true ∧ entry.name ≠ lit "master.db" ∧
    (splitExtension entry.name).2 = lit ".db"

instance (entry : DirEntry) : Decidable entry.IsDatabase :=
  inferInstanceAs (Decidable (entry.is_regular_file = true ∧ entry.name ≠ lit "master.db" ∧
    (splitExtension entry.name).2 = lit ".db"))

namespace Host

variable (host : Host)

theorem entryPath_inj {m n : Bytes} : host.entryPath m = host.entryPath n ↔ m = n :=
  List.append_right_inj _

/-- The places of the files that have a row, one for each row. -/
def places (w : World) : List Bytes := w.registry.infos.map fun info => host.locate info.filePos

/-- No row leads to a place. -/
def noRow (w : World) (place : Bytes) : Bool := !(host.places w).contains place

theorem noRow_iff {w : World} {place : Bytes} :
    host.noRow w place = true ↔ place ∉ host.places w := by
  simp [noRow]

/-- The uuid a file of the directory goes by: that of its first metadata row, or its stem where it
has none. -/
def carriedUuid (w : World) (name : Bytes) : Bytes :=
  let metadata :=
    if host.opens (host.entryPath name) then w.metadataAt (host.locate (host.entryPath name))
    else []
  match metadata.head?.bind (·.uuid) with
  | some uuid => if uuid = [] then (splitExtension name).1 else uuid
  | none => (splitExtension name).1

end Host

namespace MasterDB

section

variable (host : Host) (w : World) (dir : Directory)

/-- The database files whose path is not in the registry. -/
def unmapped : List DirEntry :=
  dir.entries.filter fun entry =>
    entry.IsDatabase && !(w.registry.infos.map (·.filePos)).contains (host.entryPath entry.name)

/-- The rows that the scan tries to insert. -/
def scanned : List DatabaseInfo :=
  (unmapped host w dir).map fun entry => importInfo host w entry.name

/-- Those among them whose file has no row, be it under another path. -/
def rowless : List DatabaseInfo :=
  (scanned host w dir).filter fun info => host.noRow w (host.locate info.filePos)

/-- What the scan is for: every database file has a row, the rows that were there are unchanged, and
no file gets two. -/
structure ScanComplete : Prop where
  mapped : ∀ entry ∈ dir.entries, entry.IsDatabase →
    host.entryPath entry.name ∈ host.places (scanAndImportUnmapped host w dir)
  kept : w.registry.rows <+: (scanAndImportUnmapped host w dir).registry.rows
  single : ∀ place, (host.places (scanAndImportUnmapped host w dir)).count place ≤
    max 1 ((host.places w).count place)

end

variable {host : Host} {w : World} {dir : Directory}

/-! ## The scan as insertions -/

theorem importInfo_uuid (host : Host) (w : World) (name : Bytes) :
    (importInfo host w name).uuid = host.carriedUuid w name := by
  unfold importInfo Host.carriedUuid readMetadata
  split
  · dsimp only
    cases (w.metadataAt (host.locate (host.entryPath name))).head? with
    | none => rfl
    | some row =>
      obtain ⟨uuid, creation_date, file_path⟩ := row
      cases uuid <;> rfl
  · rfl

/-- What is registered for a file depends on the files only. -/
theorem importInfo_congr {w w' : World} (h : w'.disk = w.disk) (name : Bytes) :
    importInfo host w' name = importInfo host w name := by
  have hread : readMetadata host w' = readMetadata host w := by
    funext full
    unfold readMetadata World.metadataAt
    rw [h]
  unfold importInfo
  rw [hread]

theorem importEntry_of_not_isDatabase {mappedPaths : List Bytes} {entry : DirEntry}
    (h : ¬entry.IsDatabase) : importEntry host mappedPaths w entry = w := by
  unfold importEntry
  split
  · rfl
  · split
    · rfl
    · split
      · rfl
      · rename_i hreg hname hext
        exact absurd ⟨by simpa using hreg, hname, not_not.mp hext⟩ h

theorem importEntry_of_isDatabase {mappedPaths : List Bytes} {entry : DirEntry}
    (h : entry.IsDatabase) : importEntry host mappedPaths w entry =
      if host.entryPath entry.name ∈ mappedPaths then w
      else { w with registry := w.registry.insert (importInfo host w entry.name) } := by
  obtain ⟨hreg, hname, hext⟩ := h
  simp [importEntry, hreg, hname, hext]

/-- The loop of the scan, from any world on that differs from the first one in the registry only. -/
theorem importEntries_eq (mappedPaths : List Bytes) (entries : List DirEntry) {w v : World}
    (hdisk : v.disk = w.disk) :
    let after := entries.foldl (importEntry host mappedPaths) v
    after.disk = w.disk ∧ v.registry.rows <+: after.registry.rows ∧
      after.registry.infos = UniqueTable.insertAll (·.uuid) v.registry.infos
        ((entries.filter fun entry =>
          entry.IsDatabase && !mappedPaths.contains (host.entryPath entry.name)).map
            fun entry => importInfo host w entry.name) := by
  -- By induction on the entries: the disk does not change, so what is imported for an entry can be
  -- told from the world in front of the scan.
  induction entries generalizing v with
  | nil => exact ⟨hdisk, List.prefix_refl _, rfl⟩
  | cons entry entries ih =>
    by_cases hdb : entry.IsDatabase
    · by_cases hmem : host.entryPath entry.name ∈ mappedPaths
      · have hskip : importEntry host mappedPaths v entry = v := by
          rw [importEntry_of_isDatabase hdb, if_pos hmem]
        simpa [hskip, hdb, hmem] using ih hdisk
      · -- a file without a row is inserted under its own name
        have hinsert : importEntry host mappedPaths v entry =
            { v with registry := v.registry.insert (importInfo host w entry.name) } := by
          rw [importEntry_of_isDatabase hdb, if_neg hmem, importInfo_congr hdisk]
        obtain ⟨hdisk', hprefix, hinfos⟩ :=
          ih (by rw [hinsert]; exact hdisk : (importEntry host mappedPaths v entry).disk = w.disk)
        refine ⟨hdisk', ?_, ?_⟩
        · have hstep : v.registry.rows <+:
              (importEntry host mappedPaths v entry).registry.rows := by
            rw [hinsert]
            exact Registry.prefix_insert _ _
          exact hstep.trans hprefix
        · rw [List.foldl_cons, hinfos, hinsert, Registry.infos_insert,
            List.filter_cons_of_pos (by simp [hdb, hmem]), List.map_cons,
            UniqueTable.insertAll_cons]
    · have hskip : importEntry host mappedPaths v entry = v := importEntry_of_not_isDatabase hdb
      simpa [hskip, hdb] using ih hdisk

@[simp]
theorem scan_disk : (scanAndImportUnmapped host w dir).disk = w.disk :=
  (importEntries_eq _ dir.entries rfl).1

/-- The rows that were there are kept. -/
theorem prefix_rows_scan :
    w.registry.rows <+: (scanAndImportUnmapped host w dir).registry.rows :=
  (importEntries_eq _ dir.entries rfl).2.1

/-- The scan inserts one row after the other for the unmapped files. -/
theorem infos_scan : (scanAndImportUnmapped host w dir).registry.infos =
    UniqueTable.insertAll (·.uuid) w.registry.infos (scanned host w dir) :=
  (importEntries_eq _ dir.entries rfl).2.2

/-- What every insertion keeps true of the registry stays true. -/
theorem scan_invariant {P : Registry → Prop} (hinsert : ∀ reg info, P reg → P (reg.insert info))
    (dir : Directory) (h : P w.registry) : P (scanAndImportUnmapped host w dir).registry := by
  rw [scanAndImportUnmapped]
  generalize w.registry.infos.map (·.filePos) = mappedPaths
  induction dir.entries generalizing w with
  | nil => exact h
  | cons entry entries ih =>
    rw [List.foldl_cons]
    apply ih
    by_cases hdb : entry.IsDatabase
    · rw [importEntry_of_isDatabase hdb]
      split
      · exact h
      · exact hinsert _ _ h
    · rwa [importEntry_of_not_isDatabase hdb]

/-- Rounds that find the uuid of every file change nothing. -/
theorem importEntries_eq_self (mappedPaths : List Bytes) (entries : List DirEntry)
    (h : ∀ entry ∈ entries, entry.IsDatabase → host.entryPath entry.name ∉ mappedPaths →
      host.carriedUuid w entry.name ∈ w.registry.uuids) :
    entries.foldl (importEntry host mappedPaths) w = w := by
  induction entries with
  | nil => rfl
  | cons entry entries ih =>
    have hround : importEntry host mappedPaths w entry = w := by
      by_cases hdb : entry.IsDatabase
      · rw [importEntry_of_isDatabase hdb]
        by_cases hpath : host.entryPath entry.name ∈ mappedPaths
        · exact if_pos hpath
        · have huuid := h entry List.mem_cons_self hdb hpath
          rw [if_neg hpath, Registry.insert, dif_pos (by rwa [importInfo_uuid])]
      · exact importEntry_of_not_isDatabase hdb
    rw [List.foldl_cons, hround]
    exact ih fun other hother => h other (List.mem_cons_of_mem _ hother)

/-- A scan that finds the uuid of every file that is not mapped changes nothing. -/
theorem scan_eq_self (h : ∀ entry ∈ dir.entries, entry.IsDatabase →
    host.entryPath entry.name ∉ w.registry.infos.map (·.filePos) →
      host.carriedUuid w entry.name ∈ w.registry.uuids) : scanAndImportUnmapped host w dir = w :=
  importEntries_eq_self _ _ h

/-! ## When the scan is complete -/

theorem locate_filePos_importInfo (host : Host) (w : World) {entry : DirEntry}
    (h : entry ∈ dir.entries) :
    host.locate (importInfo host w entry.name).filePos = host.entryPath entry.name :=
  host.locate_entry entry.name (dir.isName entry h)

theorem mem_unmapped_iff {entry : DirEntry} : entry ∈ unmapped host w dir ↔
    entry ∈ dir.entries ∧ entry.IsDatabase ∧
      host.entryPath entry.name ∉ w.registry.infos.map (·.filePos) := by
  simp [unmapped]

theorem mem_rowless_iff {info : DatabaseInfo} : info ∈ rowless host w dir ↔
    info ∈ scanned host w dir ∧ host.locate info.filePos ∉ host.places w := by
  rw [rowless, List.mem_filter, Host.noRow_iff]

theorem mem_dir_of_mem_unmapped {entry : DirEntry} (h : entry ∈ unmapped host w dir) :
    entry ∈ dir.entries := (mem_unmapped_iff.mp h).1

/-- Different entries are different places. -/
theorem nodup_places_scanned (host : Host) (w : World) (dir : Directory) :
    ((scanned host w dir).map fun info => host.locate info.filePos).Nodup := by
  have hmap : ((scanned host w dir).map fun info => host.locate info.filePos) =
      ((unmapped host w dir).map (·.name)).map host.entryPath := by
    rw [scanned, List.map_map, List.map_map]
    exact List.map_congr_left fun entry hentry =>
      locate_filePos_importInfo host w (mem_dir_of_mem_unmapped hentry)
  have hsub : (unmapped host w dir).Sublist dir.entries := List.filter_sublist
  rw [hmap]
  exact (dir.nodup_name.sublist (hsub.map _)).map fun _ _ => host.entryPath_inj.mp

theorem places_of_infos_eq (host : Host) {w' : World} {ys : List DatabaseInfo}
    (h : w'.registry.infos = w.registry.infos ++ ys) :
    host.places w' = host.places w ++ ys.map fun info => host.locate info.filePos := by
  rw [Host.places, h, List.map_append]
  rfl

/-- A complete scan registers exactly the files without a row. -/
theorem ScanComplete.infos_eq (h : ScanComplete host w dir) :
    (scanAndImportUnmapped host w dir).registry.infos =
      w.registry.infos ++ rowless host w dir := by
  have hnodup := nodup_places_scanned host w dir
  obtain ⟨ys, hys, hsub, -⟩ := UniqueTable.exists_sublist_insertAll (·.uuid)
    w.registry.infos (scanned host w dir)
  have hafter := infos_scan.trans hys
  have hplaces := places_of_infos_eq host hafter
  -- what was added had no row: it would have two now
  have hadded : ∀ y ∈ ys, host.locate y.filePos ∉ host.places w := by
    intro y hy hmem
    have hcount := h.single (host.locate y.filePos)
    have hold : 0 < (host.places w).count (host.locate y.filePos) := List.count_pos_iff.mpr hmem
    have hnew : 0 < (ys.map fun info => host.locate info.filePos).count (host.locate y.filePos) :=
      List.count_pos_iff.mpr (List.mem_map_of_mem hy)
    rw [hplaces, List.count_append] at hcount
    omega
  -- and what had no row was added
  have hall : rowless host w dir ⊆ ys := by
    intro x hx
    obtain ⟨hscanned, hno⟩ := mem_rowless_iff.mp hx
    obtain ⟨entry, hentry, rfl⟩ := List.mem_map.mp hscanned
    have hdir := mem_dir_of_mem_unmapped hentry
    have hdb : entry.IsDatabase := (mem_unmapped_iff.mp hentry).2.1
    have hrow := h.mapped entry hdir hdb
    rw [hplaces, ← locate_filePos_importInfo host w hdir] at hrow
    obtain ⟨y, hy, heq⟩ := List.mem_map.mp
      ((List.mem_append.mp hrow).resolve_left hno)
    rwa [← List.inj_on_of_nodup_map hnodup (hsub.subset hy) hscanned heq]
  have hself : ys.filter (fun info => host.noRow w (host.locate info.filePos)) = ys :=
    List.filter_eq_self.mpr fun y hy => host.noRow_iff.mpr (hadded y hy)
  have hrowless : ys.Sublist (rowless host w dir) := by
    rw [← hself]
    exact hsub.filter _
  have hlength := ((hnodup.of_map.filter _).subperm hall).length_le
  rw [hafter, hrowless.eq_of_length_le hlength]

/-- Registering exactly the files without a row completes the scan. -/
theorem scanComplete_of_infos_eq (h : (scanAndImportUnmapped host w dir).registry.infos =
    w.registry.infos ++ rowless host w dir) : ScanComplete host w dir := by
  have hplaces := places_of_infos_eq host h
  refine ⟨fun entry hentry hdb => ?_, prefix_rows_scan, fun place => ?_⟩
  · -- a database file has a row from before, or its own one is among the new ones
    have hplace := locate_filePos_importInfo host w hentry
    rw [hplaces, List.mem_append, or_iff_not_imp_left]
    intro hno
    have hpath : host.entryPath entry.name ∉ w.registry.infos.map (·.filePos) := by
      intro hmem
      obtain ⟨info, hinfo, heq⟩ := List.mem_map.mp hmem
      refine hno (List.mem_map.mpr ⟨info, hinfo, ?_⟩)
      rw [heq]
      exact hplace
    have hunmapped : entry ∈ unmapped host w dir :=
      mem_unmapped_iff.mpr ⟨hentry, hdb, hpath⟩
    have hscanned : importInfo host w entry.name ∈ scanned host w dir :=
      List.mem_map_of_mem hunmapped
    refine List.mem_map.mpr ⟨_, mem_rowless_iff.mpr ⟨hscanned, ?_⟩, hplace⟩
    rwa [hplace]
  · -- a place that had a row gets no further one, and any other place gets one at most
    rw [hplaces, List.count_append]
    by_cases hmem : place ∈ host.places w
    · have hnone : place ∉ (rowless host w dir).map fun info => host.locate info.filePos := by
        intro hrow
        obtain ⟨info, hinfo, rfl⟩ := List.mem_map.mp hrow
        exact (mem_rowless_iff.mp hinfo).2 hmem
      rw [List.count_eq_zero_of_not_mem hnone]
      exact le_max_right _ _
    · have hnodup : ((rowless host w dir).map fun info => host.locate info.filePos).Nodup :=
        (nodup_places_scanned host w dir).sublist (List.filter_sublist.map _)
      rw [List.count_eq_zero_of_not_mem hmem, Nat.zero_add]
      exact (List.nodup_iff_count_le_one.mp hnodup place).trans (le_max_left _ _)

/-- The uuids that the files in front of an entry took. -/
theorem map_uuid_filter {front : List DirEntry} (h : front ⊆ dir.entries) :
    ((front.map fun entry => importInfo host w entry.name).filter
        fun info => host.noRow w (host.locate info.filePos)).map (·.uuid) =
      (front.filter fun entry => host.noRow w (host.entryPath entry.name)).map
        fun entry => host.carriedUuid w entry.name := by
  rw [List.filter_map, List.map_map]
  have hfilter : front.filter ((fun info => host.noRow w (host.locate info.filePos)) ∘
      fun entry => importInfo host w entry.name) =
      front.filter fun entry => host.noRow w (host.entryPath entry.name) :=
    List.filter_congr fun entry hentry => by
      rw [Function.comp_apply, locate_filePos_importInfo host w (h hentry)]
  rw [hfilter]
  exact List.map_congr_left fun entry _ => importInfo_uuid host w entry.name

/-- The import scan is complete exactly when each file whose path is not in the registry carries a
uuid that is free at its turn, and a taken one in case the registry has the file under another
path. -/
theorem scanComplete_iff (host : Host) (w : World) (dir : Directory) :
    ScanComplete host w dir ↔ ∀ front entry back, unmapped host w dir = front ++ entry :: back →
      (host.entryPath entry.name ∉ host.places w ↔
        host.carriedUuid w entry.name ∉ w.registry.uuids ++
          (front.filter fun e => host.noRow w (host.entryPath e.name)).map
            fun e => host.carriedUuid w e.name) := by
  have hsubset : unmapped host w dir ⊆ dir.entries := fun _ => mem_dir_of_mem_unmapped
  have hinfos : ScanComplete host w dir ↔ (scanAndImportUnmapped host w dir).registry.infos =
      w.registry.infos ++ rowless host w dir :=
    ⟨ScanComplete.infos_eq, scanComplete_of_infos_eq⟩
  rw [hinfos, infos_scan, rowless, UniqueTable.insertAll_eq_append_filter_iff]
  -- one entry at a time, among the files on one side and the rows they give on the other
  have hentry : ∀ front entry back, unmapped host w dir = front ++ entry :: back →
      ((host.noRow w (host.locate (importInfo host w entry.name).filePos) = true ↔
          (importInfo host w entry.name).uuid ∉ (w.registry.infos ++
            (front.map fun e => importInfo host w e.name).filter
              fun info => host.noRow w (host.locate info.filePos)).map (·.uuid)) ↔
        (host.entryPath entry.name ∉ host.places w ↔
          host.carriedUuid w entry.name ∉ w.registry.uuids ++
            (front.filter fun e => host.noRow w (host.entryPath e.name)).map
              fun e => host.carriedUuid w e.name)) := by
    intro front entry back heq
    have hall : front ++ entry :: back ⊆ dir.entries := heq ▸ hsubset
    have hfront : front ⊆ dir.entries := fun e he => hall (List.mem_append_left _ he)
    have hmem : entry ∈ dir.entries := hall (by simp)
    rw [locate_filePos_importInfo host w hmem, Host.noRow_iff, importInfo_uuid, List.map_append,
      map_uuid_filter hfront, Registry.map_uuid_infos]
  constructor
  · intro h front entry back heq
    refine (hentry front entry back heq).mp (h _ _ (back.map fun e => importInfo host w e.name) ?_)
    rw [scanned, heq, List.map_append, List.map_cons]
  · intro h front' info back' heq
    obtain ⟨front, rest, hsplit, rfl, hrest⟩ := List.map_eq_append_iff.mp heq
    obtain ⟨entry, back, rfl, rfl, rfl⟩ := List.map_eq_cons_iff.mp hrest
    exact (hentry front entry back hsplit).mpr (h front entry back hsplit)

/-! ## A file and its copy -/

theorem no_quote_newYear : (39 : UInt8) ∉ lit "2026-01-01 00:00:00" := by decide

/-- A point in time. -/
def newYear : Timestamp where
  text := lit "2026-01-01 00:00:00"
  no_quote := no_quote_newYear

/-- A host where every text is a path of its own and every file can be opened. -/
def plainHost : Host where
  dbDir := lit "/db"
  locate := id
  opens := fun _ => true
  mtime := fun _ => newYear
  locate_entry := fun _ _ => rfl

/-- A database file with one metadata row. -/
def namedFile (uuid : Bytes) : DbFile where
  metadata := some [⟨some uuid, some newYear.text, none⟩]

/-- A file and its copy under another name, and an empty registry. -/
def copiedWorld : World where
  registry := Registry.empty
  disk := fun place =>
    if place = lit "/db/a.db" ∨ place = lit "/db/b.db" then some (namedFile (lit "a")) else none

theorem isName_copiedEntries :
    ∀ entry ∈ [(⟨lit "a.db", true⟩ : DirEntry), ⟨lit "b.db", true⟩], IsName entry.name := by
  decide

theorem nodup_copiedEntries :
    ([(⟨lit "a.db", true⟩ : DirEntry), ⟨lit "b.db", true⟩].map (·.name)).Nodup := by
  decide

/-- The directory with the two files. -/
def copiedDir : Directory where
  entries := [⟨lit "a.db", true⟩, ⟨lit "b.db", true⟩]
  isName := isName_copiedEntries
  nodup_name := nodup_copiedEntries

/-- The copy carries the uuid of its original, and is refused. -/
theorem not_scanComplete_copiedFile : ¬ScanComplete plainHost copiedWorld copiedDir := by
  intro h
  have hmapped := h.mapped ⟨lit "b.db", true⟩ (by decide) (by decide)
  revert hmapped
  decide

end MasterDB

end Construction
