import Akkon.Shell.Shell

/-!
# The second start

What a run of `Shell::run` finds when the run before it was the last thing that happened: the files
that were imported, the files that were recreated under the names of their uuids, and the ones that
were created.

* `importStep_final`: the import finds nothing new;
* `recreated_final`: the repair writes what is there;
* `idempotent_iff`: exactly when a second run leaves the rows and the files as the first one
  left them.
-/

namespace Shell

open Cpp Construction Construction.MasterDB

/-- A uuid without a quote, a slash or a NUL. -/
def PlainUuid (uuid : Bytes) : Prop := 39 ∉ uuid ∧ 47 ∉ uuid ∧ 0 ∉ uuid

instance (uuid : Bytes) : Decidable (PlainUuid uuid) :=
  inferInstanceAs (Decidable (39 ∉ uuid ∧ 47 ∉ uuid ∧ 0 ∉ uuid))

/-- The directory lists the database files that exist; `regular` tells for each name whether it is a
regular file. -/
structure Lists (host : Host) (regular : Bytes → Bool) (w : World) (dir : Directory) : Prop where
  flag : ∀ entry ∈ dir.entries, entry.is_regular_file = regular entry.name
  names : ∀ name, IsName name → (⟨name, true⟩ : DirEntry).IsDatabase →
    (name ∈ dir.entries.map (·.name) ↔ (w.disk (host.entryPath name)).isSome)

/-- Each file has at most one metadata row, and the uuids are plain: those in the registry and those
that the files of the directory go by. -/
structure Tidy (host : Host) (w : World) (dir : Directory) : Prop where
  single : ∀ place, (w.metadataAt place).length ≤ 1
  registered : ∀ uuid ∈ w.registry.uuids, PlainUuid uuid
  carried : ∀ entry ∈ dir.entries, entry.IsDatabase → PlainUuid (host.carriedUuid w entry.name)

/-- A second run with the same options leaves the rows and the files as the first one left them. -/
def Idempotent (host : Host) (stray : Stray) (regular : Bytes → Bool) (opts : Options)
    (dir : Directory) (chance : Chance) (w : World) : Prop :=
  ∃ first, run host stray opts dir chance w = some first ∧
    ∀ dir' chance', Lists host regular first.world dir' →
      ∃ second, run host stray opts dir' chance' first.world = some second ∧
        second.world.registry.rows = first.world.registry.rows ∧
        second.world.disk = first.world.disk

variable {host : Host} {stray : Stray} {regular : Bytes → Bool} {opts : Options} {dir : Directory}
  {chance : Chance} {w : World}

/-! ## Opening the registry -/

theorem locate_masterPath (host : Host) :
    host.locate host.masterPath = host.entryPath (lit "master.db") :=
  @Host.locate_databasePath host (lit "master") (by decide)

@[simp]
theorem metadataAt_ensureOpen (place : Bytes) :
    (ensureOpen host w).metadataAt place = w.metadataAt place := by
  unfold World.metadataAt ensureOpen
  by_cases h : place = host.locate host.masterPath
  · cases hfile : w.disk place <;> simp [← h, hfile]
  · simp [h]

theorem isSome_disk_ensureOpen (place : Bytes) : ((ensureOpen host w).disk place).isSome ↔
    (w.disk place).isSome ∨ place = host.locate host.masterPath := by
  by_cases h : place = host.locate host.masterPath <;> simp [ensureOpen, h]

theorem normalizeRow_eq_self {row : Row} (h : row.info.status ≠ lit "external") :
    Registry.normalizeRow row = row := if_neg h

theorem status_normalizeRow (row : Row) :
    (Registry.normalizeRow row).info.status ≠ lit "external" := by
  by_cases h : row.info.status = lit "external"
  · rw [Registry.normalizeRow, if_pos h]
    show lit "unmapped" ≠ lit "external"
    decide
  · rwa [normalizeRow_eq_self h]

theorem status_ensureOpen {info : DatabaseInfo} (h : info ∈ (ensureOpen host w).registry.infos) :
    info.status ≠ lit "external" := by
  obtain ⟨row, hrow, rfl⟩ := List.mem_map.mp h
  obtain ⟨old, -, rfl⟩ := List.mem_map.mp hrow
  exact status_normalizeRow old

/-- Opening changes nothing when no old status is left and the file exists. -/
theorem ensureOpen_eq_self (hstatus : ∀ info ∈ w.registry.infos, info.status ≠ lit "external")
    (hmaster : (w.disk (host.locate host.masterPath)).isSome) : ensureOpen host w = w := by
  obtain ⟨registry, disk⟩ := w
  have hrows : registry.rows.map Registry.normalizeRow = registry.rows := by
    conv_rhs => rw [← List.map_id registry.rows]
    exact List.map_congr_left fun row hrow =>
      normalizeRow_eq_self (hstatus row.info (List.mem_map_of_mem hrow))
  have hregistry : registry.normalize = registry := by
    obtain ⟨rows, seq, _, _, _⟩ := registry
    simp only [Registry.normalize, hrows]
  obtain ⟨file, hfile⟩ := Option.isSome_iff_exists.mp hmaster
  have hdisk : (ensureOpen host ⟨registry, disk⟩).disk = disk := by
    ext1 place
    by_cases h : place = host.locate host.masterPath
    · subst h
      simp [ensureOpen, show disk (host.locate host.masterPath) = some file from hfile]
    · simp [ensureOpen, h]
  exact congrArg₂ World.mk hregistry hdisk

/-! ## The import step -/

@[simp]
theorem importStep_disk (host : Host) (opts : Options) (dir : Directory) (w : World) :
    (importStep host opts dir w).disk = (ensureOpen host w).disk := by
  unfold importStep
  split
  · rfl
  · exact scan_disk

@[simp]
theorem metadataAt_importStep (place : Bytes) :
    (importStep host opts dir w).metadataAt place = w.metadataAt place := by
  rw [World.metadataAt, importStep_disk, ← World.metadataAt, metadataAt_ensureOpen]

theorem prefix_importStep :
    (ensureOpen host w).registry.rows <+: (importStep host opts dir w).registry.rows := by
  unfold importStep
  split
  · exact List.prefix_refl _
  · exact prefix_rows_scan

theorem mem_infos_importStep {info : DatabaseInfo}
    (h : info ∈ (importStep host opts dir w).registry.infos) :
    info ∈ (ensureOpen host w).registry.infos ∨ info ∈ scanned host (ensureOpen host w) dir := by
  unfold importStep at h
  split at h
  · exact .inl h
  · rw [infos_scan] at h
    exact UniqueTable.mem_or_mem_of_mem_insertAll h

theorem carriedUuid_congr {v : World} {name : Bytes}
    (h : v.metadataAt (host.locate (host.entryPath name)) =
      w.metadataAt (host.locate (host.entryPath name))) :
    host.carriedUuid v name = host.carriedUuid w name := by
  unfold Host.carriedUuid
  rw [h]

theorem status_importStep {info : DatabaseInfo}
    (h : info ∈ (importStep host opts dir w).registry.infos) : info.status ≠ lit "external" := by
  rcases mem_infos_importStep h with h | h
  · exact status_ensureOpen h
  · obtain ⟨entry, -, rfl⟩ := List.mem_map.mp h
    show lit "unmapped" ≠ lit "external"
    decide

/-- Opening keeps the uuids. -/
theorem uuids_ensureOpen (host : Host) (w : World) :
    (ensureOpen host w).registry.uuids = w.registry.uuids := by
  show (w.registry.rows.map Registry.normalizeRow).map (·.info.uuid) = _
  rw [List.map_map]
  exact List.map_congr_left fun row _ => Registry.normalizeRow_uuid row

theorem plain_importStep (htidy : Tidy host w dir) {info : DatabaseInfo}
    (h : info ∈ (importStep host opts dir w).registry.infos) : PlainUuid info.uuid := by
  rcases mem_infos_importStep h with h | h
  · apply htidy.registered
    rw [← uuids_ensureOpen host]
    obtain ⟨row, hrow, rfl⟩ := List.mem_map.mp h
    exact List.mem_map_of_mem hrow
  · obtain ⟨entry, hentry, rfl⟩ := List.mem_map.mp h
    obtain ⟨hdir, hdb, -⟩ := mem_unmapped_iff.mp hentry
    rw [importInfo_uuid, carriedUuid_congr (metadataAt_ensureOpen _)]
    exact htidy.carried entry hdir hdb

/-- After an import the uuid of every file that was not mapped is in the registry. -/
theorem carriedUuid_mem_importStep (himport : opts.noImport = false) {entry : DirEntry}
    (h : entry ∈ unmapped host (ensureOpen host w) dir) :
    host.carriedUuid w entry.name ∈ (importStep host opts dir w).registry.infos.map (·.uuid) := by
  have hscanned : importInfo host (ensureOpen host w) entry.name ∈
      scanned host (ensureOpen host w) dir := List.mem_map_of_mem h
  have hkey : (importInfo host (ensureOpen host w) entry.name).uuid ∈
      (UniqueTable.insertAll (·.uuid) (ensureOpen host w).registry.infos
        (scanned host (ensureOpen host w) dir)).map (·.uuid) :=
      UniqueTable.key_mem_insertAll hscanned
  rw [← infos_scan, importInfo_uuid, carriedUuid_congr (metadataAt_ensureOpen _)] at hkey
  rwa [importStep, himport]

/-! ## Files of the rows -/

theorem plain_uuid (chance : Chance) (i : ℤ) : 47 ∉ chance.uuid i :=
  not_mem_generateUUID (.inr (.inl rfl)) _

/-- The place of a row's file tells its uuid. -/
theorem target_eq (host : Host) {info : DatabaseInfo} (h : 47 ∉ info.uuid) :
    target host info = host.entryPath (databaseName info.uuid) :=
  host.locate_databasePath h

theorem target_inj {info other : DatabaseInfo} (hinfo : 47 ∉ info.uuid) (hother : 47 ∉ other.uuid)
    (h : target host other = target host info) : other.uuid = info.uuid := by
  rw [target_eq host hinfo, target_eq host hother, Host.entryPath_inj, databaseName_inj] at h
  exact h

/-- What the loop leaves of a file that is not created. -/
theorem metadataAt_createdWorld (hopens : ∀ path, host.opens path = true) (n : ℕ) (i : ℤ)
    (w : World) {place : Bytes} (h : ∀ info ∈ created host chance n i, target host info ≠ place) :
    (createdWorld host stray chance n i w).metadataAt place = w.metadataAt place := by
  induction n generalizing i w with
  | zero => rfl
  | succ n ih =>
    -- the first round writes to the file of the first created row
    have hplace : place ≠ host.locate (host.databasePath (generateUUID (chance.dis i))) :=
      (h _ List.mem_cons_self).symm
    rw [createdWorld, ih _ _ fun info hinfo => h info (List.mem_cons_of_mem _ hinfo), Chance.uuid,
      createNewDatabase_eq host stray w _ _ (hopens _)]
    exact World.metadataAt_writeMetadata_of_ne _ _ hplace

/-- The files after the loop. -/
theorem isSome_disk_createdWorld (hopens : ∀ path, host.opens path = true) (n : ℕ) (i : ℤ)
    (w : World) (place : Bytes) : ((createdWorld host stray chance n i w).disk place).isSome ↔
      (w.disk place).isSome ∨ ∃ info ∈ created host chance n i, target host info = place := by
  induction n generalizing i w with
  | zero => simp [createdWorld, created]
  | succ n ih =>
    have hround :
        ((createNewDatabase host stray w (chance.uuid i) (chance.now i)).1.disk place).isSome ↔
          (w.disk place).isSome ∨
            place = target host (newInfo host (chance.uuid i) (chance.now i)) := by
      rw [Chance.uuid, createNewDatabase_eq host stray w _ _ (hopens _)]
      exact World.isSome_disk_writeMetadata _ _ _ _
    rw [createdWorld, ih, hround, created]
    simp only [List.exists_mem_cons_iff, or_assoc, eq_comm]

/-- The files after a run whose statements were the ones that were meant. -/
theorem isSome_disk_final (hopens : ∀ path, host.opens path = true)
    (hquoted : ∀ info ∈ missing host opts dir w, info.WellQuoted) (place : Bytes) :
    ((final host stray opts dir chance w).disk place).isSome ↔
      ((ensureOpen host w).disk place).isSome ∨
        (∃ info ∈ missing host opts dir w, target host info = place) ∨
        ∃ info ∈ created host chance (rounds host opts dir w) (existing host opts dir w + 1),
          target host info = place := by
  obtain ⟨-, hdisk, -⟩ := recreateMissing_spec stray hopens _ hquoted (importStep host opts dir w)
  rw [final, isSome_disk_createdWorld hopens, recreated, hdisk, importStep_disk, or_assoc]

/-! ## Metadata after a run -/

theorem nodup_uuid_missing : ((missing host opts dir w).map (·.uuid)).Nodup := by
  have hinfos : ((importStep host opts dir w).registry.infos.map (·.uuid)).Nodup := by
    rw [Registry.map_uuid_infos]
    exact (importStep host opts dir w).registry.nodup_uuid
  exact hinfos.sublist (List.filter_sublist.map _)

theorem plain_missing (htidy : Tidy host w dir) {info : DatabaseInfo}
    (h : info ∈ missing host opts dir w) : PlainUuid info.uuid :=
  plain_importStep htidy (mem_missingRows_iff.mp h).1

/-- No two missing rows are written to one file. -/
theorem filter_target_missing (htidy : Tidy host w dir) {info : DatabaseInfo}
    (h : info ∈ missing host opts dir w) :
    (missing host opts dir w).filter (fun other => target host other = target host info)
      = [info] := by
  rw [← UniqueTable.filter_key_eq_singleton nodup_uuid_missing h]
  -- a plain uuid and the file named for it determine each other
  refine List.filter_congr fun other hother => ?_
  rw [decide_eq_decide]
  refine ⟨target_inj (plain_missing htidy h).2.1 (plain_missing htidy hother).2.1, fun heq => ?_⟩
  show host.locate (host.databasePath other.uuid) = host.locate (host.databasePath info.uuid)
  rw [heq]

/-- The table of a recreated file, as long as it is not created anew. -/
theorem metadataAt_final_target (stray : Stray) (hopens : ∀ path, host.opens path = true)
    (htidy : Tidy host w dir) (hquoted : ∀ info ∈ missing host opts dir w, info.WellQuoted)
    {info : DatabaseInfo} (h : info ∈ missing host opts dir w)
    (hcreated : ∀ other ∈
      created host chance (rounds host opts dir w) (existing host opts dir w + 1),
      target host other ≠ target host info) :
    (final host stray opts dir chance w).metadataAt (target host info) =
      UniqueTable.replace (·.uuid) (w.metadataAt (target host info)) (metaRow host info) := by
  obtain ⟨-, -, htable⟩ := recreateMissing_spec stray hopens _ hquoted (importStep host opts dir w)
  rw [final, metadataAt_createdWorld hopens _ _ _ hcreated, recreated, htable,
    filter_target_missing htidy h, metadataAt_importStep]
  rfl

/-- The table of a file that is neither recreated nor created. -/
theorem metadataAt_final_of_ne (stray : Stray) (hopens : ∀ path, host.opens path = true)
    (hquoted : ∀ info ∈ missing host opts dir w, info.WellQuoted) {place : Bytes}
    (hmissing : ∀ info ∈ missing host opts dir w, target host info ≠ place)
    (hcreated : ∀ other ∈
      created host chance (rounds host opts dir w) (existing host opts dir w + 1),
      target host other ≠ place) :
    (final host stray opts dir chance w).metadataAt place = w.metadataAt place := by
  obtain ⟨-, -, htable⟩ := recreateMissing_spec stray hopens _ hquoted (importStep host opts dir w)
  have hnone : (missing host opts dir w).filter (fun other => target host other = place) = [] := by
    rw [List.filter_eq_nil_iff]
    intro other hother htarget
    exact hmissing other hother (of_decide_eq_true htarget)
  rw [final, metadataAt_createdWorld hopens _ _ _ hcreated, recreated, htable, hnone,
    metadataAt_importStep]
  rfl

/-! ## What the second import finds -/

/-- The uuid of a file is its stem or the one of its first metadata row. -/
theorem carriedUuid_eq_or (host : Host) (v : World) (name : Bytes) :
    host.carriedUuid v name = (splitExtension name).1 ∨
      ∃ row rest, v.metadataAt (host.locate (host.entryPath name)) = row :: rest ∧
        row.uuid = some (host.carriedUuid v name) ∧ host.carriedUuid v name ≠ [] := by
  unfold Host.carriedUuid
  split
  · cases v.metadataAt (host.locate (host.entryPath name)) with
    | nil => exact .inl rfl
    | cons row rest =>
      cases huuid : row.uuid with
      | none => simp [huuid]
      | some uuid =>
        -- an empty uuid is passed over like a missing one
        by_cases hne : uuid = []
        · simp [huuid, hne]
        · right
          exact ⟨row, rest, rfl, by simp [huuid, hne], by simp [huuid, hne]⟩
  · exact .inl rfl

theorem carriedUuid_of_metadataAt (hopens : ∀ path, host.opens path = true) {v : World}
    {name : Bytes} {row : MetaRow} {rest : List MetaRow} {uuid : Bytes}
    (h : v.metadataAt (host.locate (host.entryPath name)) = row :: rest)
    (huuid : row.uuid = some uuid) (hne : uuid ≠ []) : host.carriedUuid v name = uuid := by
  unfold Host.carriedUuid
  rw [if_pos (hopens _), h]
  simp [huuid, hne]

theorem prefix_importStep_final (stray : Stray) (chance : Chance)
    (hopens : ∀ path, host.opens path = true)
    (hquoted : ∀ info ∈ missing host opts dir w, info.WellQuoted) :
    (importStep host opts dir w).registry.rows <+:
      (final host stray opts dir chance w).registry.rows := by
  rw [← registry_recreated stray hopens hquoted]
  exact prefix_final stray opts dir chance hopens w

/-- The first run has seen each file that was there before it. -/
theorem carriedUuid_mem_of_old (stray : Stray) (hopens : ∀ path, host.opens path = true)
    (hlists : Lists host regular w dir)
    (hquoted : ∀ info ∈ missing host opts dir w, info.WellQuoted) (himport : opts.noImport = false)
    {entry : DirEntry} (hname : IsName entry.name) (hdb : entry.IsDatabase)
    (hflag : entry.is_regular_file = regular entry.name)
    (hpath : host.entryPath entry.name ∉
      (final host stray opts dir chance w).registry.infos.map (·.filePos))
    (hold : (w.disk (host.entryPath entry.name)).isSome) :
    host.carriedUuid w entry.name ∈
      (final host stray opts dir chance w).registry.infos.map (·.uuid) := by
  have hkept := prefix_importStep_final stray chance hopens hquoted
  obtain ⟨listed, hlisted, hsame⟩ := List.mem_map.mp
    ((hlists.names entry.name hname ⟨rfl, hdb.2⟩).mpr hold)
  have hlistedFlag := hlists.flag listed hlisted
  -- the directory shows a file in one way only
  have heq : listed = entry := by
    obtain ⟨name, flag⟩ := listed
    obtain ⟨name', flag'⟩ := entry
    simp only at hsame hlistedFlag hflag
    rw [hsame, hlistedFlag, hsame, hflag]
  subst heq
  refine ((hkept.map (·.info)).map (·.uuid)).subset (carriedUuid_mem_importStep himport ?_)
  refine mem_unmapped_iff.mpr ⟨hlisted, hdb, fun hmem => hpath ?_⟩
  exact (((prefix_importStep.trans hkept).map (·.info)).map (·.filePos)).subset hmem

/-- A recreated file goes by the uuid of its row, or by the one it had before. -/
theorem carriedUuid_of_recreated (stray : Stray) (hopens : ∀ path, host.opens path = true)
    (htidy : Tidy host w dir) (hquoted : ∀ info ∈ missing host opts dir w, info.WellQuoted)
    {name : Bytes} (hname : IsName name) (hdb : (⟨name, true⟩ : DirEntry).IsDatabase)
    {info : DatabaseInfo} (hinfo : info ∈ missing host opts dir w)
    (htarget : target host info = host.entryPath name)
    (hcreated : ∀ other ∈
      created host chance (rounds host opts dir w) (existing host opts dir w + 1),
      target host other ≠ host.entryPath name) :
    host.carriedUuid (final host stray opts dir chance w) name = info.uuid ∨
      (w.disk (host.entryPath name)).isSome ∧
        host.carriedUuid (final host stray opts dir chance w) name = host.carriedUuid w name := by
  have hplace := host.locate_entryPath hname
  have hplain := plain_missing htidy hinfo
  have hentry : name = databaseName info.uuid := by
    rw [target_eq host hplain.2.1, Host.entryPath_inj] at htarget
    exact htarget.symm
  -- `.db` is a name without an extension, so no database file
  have hne : info.uuid ≠ [] := by
    intro hnil
    have hext := hdb.2.2
    rw [hentry, hnil, splitExtension_databaseName_nil] at hext
    exact absurd hext (by decide)
  have htable := metadataAt_final_target stray hopens htidy hquoted hinfo
    fun other hother => htarget ▸ hcreated other hother
  rw [htarget] at htable
  rcases carriedUuid_eq_or host (final host stray opts dir chance w) name with
    hstem | ⟨row, rest, hhead, hrow, hnonempty⟩
  · left
    rw [hstem, hentry, splitExtension_databaseName hne]
  · rw [hplace, htable] at hhead
    have hmem : row ∈ UniqueTable.replace (·.uuid) (w.metadataAt (host.entryPath name))
        (metaRow host info) := hhead ▸ List.mem_cons_self
    rcases UniqueTable.mem_replace_iff.mp hmem with heq | ⟨hmem, -⟩
    · -- the row that was written
      left
      have hliteral : (metaRow host info).uuid = some info.uuid := literal_of_not_mem hplain.1
      rw [heq, hliteral] at hrow
      exact (Option.some.inj hrow).symm
    · -- the only row that the file had before
      right
      obtain ⟨other, hother⟩ := List.length_eq_one_iff.mp
        (le_antisymm (htidy.single (host.entryPath name)) (List.length_pos_of_mem hmem))
      rw [hother, List.mem_singleton] at hmem
      subst hmem
      refine ⟨?_, (carriedUuid_of_metadataAt hopens (by rw [hplace, hother]) hrow hnonempty).symm⟩
      rw [w.disk_eq_of_metadataAt _ _ hother (by simp)]
      rfl

/-- Every file that is not mapped after the first run goes by a uuid that is registered. -/
theorem carriedUuid_mem_final (stray : Stray) (hopens : ∀ path, host.opens path = true)
    (hlists : Lists host regular w dir) (htidy : Tidy host w dir)
    (hquoted : ∀ info ∈ missing host opts dir w, info.WellQuoted)
    (hfresh : Fresh host opts dir chance w) (himport : opts.noImport = false) {entry : DirEntry}
    (hname : IsName entry.name) (hdb : entry.IsDatabase)
    (hflag : entry.is_regular_file = regular entry.name)
    (hexists : ((final host stray opts dir chance w).disk (host.entryPath entry.name)).isSome)
    (hpath : host.entryPath entry.name ∉
      (final host stray opts dir chance w).registry.infos.map (·.filePos)) :
    host.carriedUuid (final host stray opts dir chance w) entry.name ∈
      (final host stray opts dir chance w).registry.infos.map (·.uuid) := by
  -- the path of a created file is mapped
  have hcreated : ∀ other ∈ created host chance (rounds host opts dir w)
      (existing host opts dir w + 1), target host other ≠ host.entryPath entry.name := by
    intro other hother htarget
    refine hpath (List.mem_map.mpr ⟨other, ?_, ?_⟩)
    · rw [infos_final_of_fresh stray hopens hquoted hfresh]
      exact List.mem_append_right _ hother
    · obtain ⟨j, -, -, rfl⟩ := mem_created_iff.mp hother
      rw [← htarget, target_eq host (plain_uuid chance j)]
      exact host.databasePath_eq (plain_uuid chance j)
  have hold : (w.disk (host.entryPath entry.name)).isSome →
      host.carriedUuid w entry.name ∈
        (final host stray opts dir chance w).registry.infos.map (·.uuid) :=
    carriedUuid_mem_of_old stray hopens hlists hquoted himport hname hdb hflag hpath
  by_cases hrecreated :
      ∃ info ∈ missing host opts dir w, target host info = host.entryPath entry.name
  · obtain ⟨info, hinfo, htarget⟩ := hrecreated
    rcases carriedUuid_of_recreated stray hopens htidy hquoted hname ⟨rfl, hdb.2⟩ hinfo htarget
      hcreated with heq | ⟨hfile, heq⟩
    · rw [heq]
      have hkept := prefix_importStep_final stray chance hopens hquoted
      exact ((hkept.map (·.info)).map (·.uuid)).subset
        (List.mem_map_of_mem (mem_missingRows_iff.mp hinfo).1)
    · rw [heq]
      exact hold hfile
  · have hnone : ∀ info ∈ missing host opts dir w, target host info ≠ host.entryPath entry.name :=
      fun info hinfo htarget => hrecreated ⟨info, hinfo, htarget⟩
    have htable := metadataAt_final_of_ne stray hopens hquoted hnone hcreated
    have hcarried : host.carriedUuid (final host stray opts dir chance w) entry.name =
        host.carriedUuid w entry.name :=
      carriedUuid_congr (by rw [host.locate_entryPath hname]; exact htable)
    rw [hcarried]
    apply hold
    rw [isSome_disk_final hopens hquoted, isSome_disk_ensureOpen, locate_masterPath,
      Host.entryPath_inj] at hexists
    rcases hexists with (hexists | hmaster) | ⟨info, hinfo, htarget⟩ | ⟨info, hinfo, htarget⟩
    · exact hexists
    · exact absurd hmaster hdb.2.1
    · exact absurd htarget (hnone info hinfo)
    · exact absurd htarget (hcreated info hinfo)

/-! ## The second run -/

theorem status_final (stray : Stray) (hopens : ∀ path, host.opens path = true)
    (hquoted : ∀ info ∈ missing host opts dir w, info.WellQuoted)
    (hfresh : Fresh host opts dir chance w) {info : DatabaseInfo}
    (h : info ∈ (final host stray opts dir chance w).registry.infos) :
    info.status ≠ lit "external" := by
  rw [infos_final_of_fresh stray hopens hquoted hfresh] at h
  rcases List.mem_append.mp h with h | h
  · exact status_importStep h
  · obtain ⟨j, -, -, rfl⟩ := mem_created_iff.mp h
    show lit "active" ≠ lit "external"
    decide

/-- The second run opens the registry as it is. -/
theorem ensureOpen_final (stray : Stray) (hopens : ∀ path, host.opens path = true)
    (hquoted : ∀ info ∈ missing host opts dir w, info.WellQuoted)
    (hfresh : Fresh host opts dir chance w) :
    ensureOpen host (final host stray opts dir chance w) = final host stray opts dir chance w := by
  apply ensureOpen_eq_self
  · exact fun info => status_final stray hopens hquoted hfresh
  · rw [isSome_disk_final hopens hquoted, isSome_disk_ensureOpen]
    exact .inl (.inr rfl)

/-- The second import finds nothing new. -/
theorem importStep_final (stray : Stray) (hopens : ∀ path, host.opens path = true)
    (hlists : Lists host regular w dir) (htidy : Tidy host w dir)
    (hquoted : ∀ info ∈ missing host opts dir w, info.WellQuoted)
    (hfresh : Fresh host opts dir chance w) {dir' : Directory}
    (hlists' : Lists host regular (final host stray opts dir chance w) dir') :
    importStep host opts dir' (final host stray opts dir chance w) =
      final host stray opts dir chance w := by
  rw [importStep, ensureOpen_final stray hopens hquoted hfresh]
  split
  · rfl
  · rename_i himport
    refine scan_eq_self fun entry hentry hdb hpath => ?_
    have hname := dir'.isName entry hentry
    have hflag := hlists'.flag entry hentry
    have hexists := (hlists'.names entry.name hname ⟨rfl, hdb.2⟩).mp (List.mem_map_of_mem hentry)
    have hmem := carriedUuid_mem_final stray hopens hlists htidy hquoted hfresh
      (by simpa using himport) hname hdb hflag hexists hpath
    rwa [Registry.map_uuid_infos] at hmem

/-- A row that is missing at the second start was missing at the first one. -/
theorem mem_missing_of_mem_final (stray : Stray) (hopens : ∀ path, host.opens path = true)
    (hquoted : ∀ info ∈ missing host opts dir w, info.WellQuoted)
    (hfresh : Fresh host opts dir chance w) {info : DatabaseInfo}
    (h : info ∈ missingRows host (final host stray opts dir chance w)) :
    info ∈ missing host opts dir w := by
  obtain ⟨hrow, hgone⟩ := mem_missingRows_iff.mp h
  rw [infos_final_of_fresh stray hopens hquoted hfresh] at hrow
  rcases List.mem_append.mp hrow with hrow | hrow
  · refine mem_missingRows_iff.mpr ⟨hrow, ?_⟩
    -- no run removes a file
    by_contra hthere
    rw [Bool.not_eq_false, Host.fileExists, Bool.and_eq_true] at hthere
    have hstill : host.fileExists (final host stray opts dir chance w) info.filePos = true := by
      rw [Host.fileExists, Bool.and_eq_true]
      refine ⟨hthere.1, (isSome_disk_final hopens hquoted _).mpr (.inl ?_)⟩
      rw [← importStep_disk host opts dir]
      exact hthere.2
    rw [hstill] at hgone
    cases hgone
  · -- a created file is there
    have hfile : ((final host stray opts dir chance w).disk (target host info)).isSome :=
      (isSome_disk_final hopens hquoted _).mpr (.inr (.inr ⟨info, hrow, rfl⟩))
    obtain ⟨j, -, -, rfl⟩ := mem_created_iff.mp hrow
    have hpath : host.databasePath (chance.uuid j) ≠ [] := by
      rw [host.databasePath_eq (plain_uuid chance j)]
      simp [Host.entryPath, databaseName, lit]
    have hthere : host.fileExists (final host stray opts dir chance w)
        (newInfo host (chance.uuid j) (chance.now j)).filePos = true := by
      rw [Host.fileExists, Bool.and_eq_true]
      exact ⟨decide_eq_true hpath, hfile⟩
    rw [hthere] at hgone
    cases hgone

/-- The second repair writes what is there. -/
theorem recreated_final (stray stray' : Stray) (hopens : ∀ path, host.opens path = true)
    (htidy : Tidy host w dir) (hquoted : ∀ info ∈ missing host opts dir w, info.WellQuoted)
    (hfresh : Fresh host opts dir chance w) :
    recreateMissing host stray' (final host stray opts dir chance w)
        (missingRows host (final host stray opts dir chance w)) =
      final host stray opts dir chance w := by
  have hround : ∀ info ∈ missingRows host (final host stray opts dir chance w),
      recreate host stray' (final host stray opts dir chance w) info =
        final host stray opts dir chance w := by
    intro info hmissing
    have hinfo := mem_missing_of_mem_final stray hopens hquoted hfresh hmissing
    have hplain := (plain_missing htidy hinfo).2.1
    -- no created database has the uuid of a row
    have hcreated : ∀ other ∈ created host chance (rounds host opts dir w)
        (existing host opts dir w + 1), target host other ≠ target host info := by
      intro other hother htarget
      obtain ⟨j, hj, hlt, rfl⟩ := mem_created_iff.mp hother
      have huuid : chance.uuid j = info.uuid := target_inj hplain (plain_uuid chance j) htarget
      have hrow : info.uuid ∈ (importStep host opts dir w).registry.infos.map (·.uuid) :=
        List.mem_map_of_mem (mem_missingRows_iff.mp hinfo).1
      rw [Registry.map_uuid_infos] at hrow
      rw [rounds] at hlt
      apply (hfresh j (by omega) (by omega)).1
      rw [huuid]
      exact hrow
    have htable := metadataAt_final_target stray hopens htidy hquoted hinfo hcreated
    rw [recreate_of_wellQuoted stray' _ (hopens _) (hquoted info hinfo), htable,
      UniqueTable.replace_idem]
    apply World.writeMetadata_eq_self
    exact World.disk_eq_of_metadataAt _ _ _ htable (by simp [UniqueTable.replace])
  -- each round leaves the state of the final one, which is where the next round starts
  generalize missingRows host (final host stray opts dir chance w) = rows at hround
  induction rows with
  | nil => rfl
  | cons info rows ih =>
    rw [recreateMissing, List.foldl_cons, hround info List.mem_cons_self]
    exact ih fun other hother => hround other (List.mem_cons_of_mem _ hother)

/-- A second run after a first one that did what it is meant to do. -/
theorem run_final (stray stray' : Stray) (hopens : ∀ path, host.opens path = true)
    (hlists : Lists host regular w dir) (htidy : Tidy host w dir)
    (hcountable : Countable host opts dir w)
    (hquoted : ∀ info ∈ missing host opts dir w, info.WellQuoted)
    (hfresh : Fresh host opts dir chance w) {dir' : Directory} (chance' : Chance)
    (hlists' : Lists host regular (final host stray opts dir chance w) dir') :
    ∃ second, run host stray' opts dir' chance' (final host stray opts dir chance w) = some second ∧
      second.world = final host stray opts dir chance w := by
  have himport := importStep_final stray hopens hlists htidy hquoted hfresh hlists'
  have hlength := length_final_of_fresh stray hopens hquoted hfresh
  have hexisting : existing host opts dir' (final host stray opts dir chance w) =
      max (existing host opts dir w) opts.numDatabases := by
    rw [existing, himport, hlength]
  have hcountable' : Countable host opts dir' (final host stray opts dir chance w) := by
    have hle := opts.le_max
    have hcount := hcountable.1
    rw [Countable, hexisting]
    omega
  -- the first run has created what was asked for
  have hrounds : rounds host opts dir' (final host stray opts dir chance w) = 0 := by
    rw [rounds, hexisting]
    omega
  have hsecond : final host stray' opts dir' chance' (final host stray opts dir chance w) =
      final host stray opts dir chance w := by
    rw [final, hrounds, createdWorld, recreated, missing, himport]
    exact recreated_final stray stray' hopens htidy hquoted hfresh
  rw [run_eq_some hopens hcountable', hsecond,
    (run_of_fresh stray hopens hcountable hquoted hfresh).1]
  exact ⟨_, rfl, rfl⟩

/-- Startup is idempotent where the numbers it counts to are numbers of an `int`, no quote of a
missing row ends its literal early and no identifier is generated twice. -/
theorem idempotent_of (stray : Stray) (hopens : ∀ path, host.opens path = true)
    (hlists : Lists host regular w dir) (htidy : Tidy host w dir)
    (hcountable : Countable host opts dir w)
    (hquoted : ∀ info ∈ missing host opts dir w, info.WellQuoted)
    (hfresh : Fresh host opts dir chance w) : Idempotent host stray regular opts dir chance w := by
  refine ⟨_, (run_of_fresh stray hopens hcountable hquoted hfresh).2,
    fun dir' chance' hlists' => ?_⟩
  obtain ⟨second, hrun, hworld⟩ :=
    run_final stray stray hopens hlists htidy hcountable hquoted hfresh chance' hlists'
  exact ⟨second, hrun, by rw [hworld], by rw [hworld]⟩

/-! ## What makes the second run add something -/

/-- A directory that lists finitely many files. -/
theorem exists_lists (host : Host) (regular : Bytes → Bool) (v : World) (names : List Bytes)
    (h : ∀ name, IsName name → (⟨name, true⟩ : DirEntry).IsDatabase →
      (v.disk (host.entryPath name)).isSome → name ∈ names) :
    ∃ dir', Lists host regular v dir' := by
  -- Exactly the names that have a file behind the run, each of them once.
  let there := fun name => decide (IsName name) && (v.disk (host.entryPath name)).isSome
  have hthere : ∀ name, name ∈ (names.filter there).dedup ↔
      name ∈ names ∧ IsName name ∧ (v.disk (host.entryPath name)).isSome := by
    intro name
    simp [there, List.mem_dedup]
  have hmap : ((names.filter there).dedup.map fun name => (⟨name, regular name⟩ : DirEntry)).map
      (·.name) = (names.filter there).dedup := by
    rw [List.map_map]
    exact List.map_id _
  let dir' : Directory :=
    { entries := (names.filter there).dedup.map fun name => ⟨name, regular name⟩
      isName := by
        intro entry hentry
        obtain ⟨name, hname, rfl⟩ := List.mem_map.mp hentry
        exact ((hthere name).mp hname).2.1
      nodup_name := by
        rw [hmap]
        exact List.nodup_dedup _ }
  refine ⟨dir', fun entry hentry => ?_, fun name hname hdb => ?_⟩
  · obtain ⟨name, -, rfl⟩ := List.mem_map.mp hentry
    rfl
  · rw [show dir'.entries.map (·.name) = (names.filter there).dedup from hmap, hthere]
    exact ⟨fun hmem => hmem.2.2, fun hfile => ⟨h name hname hdb hfile, hname, hfile⟩⟩

/-- The files after a run can be listed. -/
theorem exists_lists_final (opts : Options) (chance : Chance)
    (hopens : ∀ path, host.opens path = true)
    (hstray : ∀ path sql v, (stray path sql v).disk = v.disk) (hlists : Lists host regular w dir)
    (htidy : Tidy host w dir) :
    ∃ dir', Lists host regular (final host stray opts dir chance w) dir' := by
  apply exists_lists host regular _ (dir.entries.map (·.name) ++
    (missing host opts dir w ++ created host chance (rounds host opts dir w)
      (existing host opts dir w + 1)).map fun info => databaseName info.uuid)
  intro name hname hdb hfile
  have htarget : ∀ info : DatabaseInfo, 47 ∉ info.uuid → target host info = host.entryPath name →
      databaseName info.uuid = name := by
    intro info hplain heq
    rwa [target_eq host hplain, Host.entryPath_inj] at heq
  -- a file was there, or it is the file of a missing row or of a created one
  rw [final, isSome_disk_createdWorld hopens] at hfile
  rw [List.mem_append]
  rcases hfile with hfile | ⟨info, hinfo, heq⟩
  · rcases disk_recreateMissing_of_isSome hopens hstray _ hfile with hfile | ⟨info, hinfo, heq⟩
    · rw [importStep_disk, isSome_disk_ensureOpen, locate_masterPath, Host.entryPath_inj] at hfile
      rcases hfile with hfile | rfl
      · exact .inl ((hlists.names name hname hdb).mpr hfile)
      · exact absurd rfl hdb.2.1
    · right
      exact List.mem_map.mpr ⟨info, List.mem_append_left _ hinfo,
        htarget info (plain_missing htidy hinfo).2.1 heq⟩
  · right
    refine List.mem_map.mpr ⟨info, List.mem_append_right _ hinfo, htarget info ?_ heq⟩
    obtain ⟨j, -, -, rfl⟩ := mem_created_iff.mp hinfo
    exact plain_uuid chance j

/-- A run that returns is one whose numbers do not overflow, and its world is the final one. -/
theorem of_run_eq_some (hopens : ∀ path, host.opens path = true) {outcome : Outcome}
    (h : run host stray opts dir chance w = some outcome) :
    Countable host opts dir w ∧ outcome.world = final host stray opts dir chance w := by
  by_cases hcountable : Countable host opts dir w
  · rw [run_eq_some hopens hcountable] at h
    obtain ⟨registry, -, rfl⟩ := Option.map_eq_some_iff.mp h
    exact ⟨hcountable, rfl⟩
  · rw [run_eq_none hopens hcountable] at h
    cases h

/-- A statement that is ignored. -/
def ignored : Stray := fun _ _ v => v

/-- A chance that gives the same identifier at every index. -/
def constantly (dis : ℕ → Fin 16) : Chance where
  dis := fun _ => dis
  now := fun _ => newYear

/-- A run whose identifiers were not fresh leaves fewer rows than were asked for. -/
theorem length_final_lt (stray : Stray) (hopens : ∀ path, host.opens path = true)
    (hquoted : ∀ info ∈ missing host opts dir w, info.WellQuoted)
    (hfresh : ¬Fresh host opts dir chance w) :
    (final host stray opts dir chance w).registry.rows.length < opts.numDatabases := by
  by_contra hlength
  apply hfresh
  rw [fresh_iff]
  have hinfos : (final host stray opts dir chance w).registry.infos =
      UniqueTable.insertAll (·.uuid) (importStep host opts dir w).registry.infos
        (created host chance (rounds host opts dir w) (existing host opts dir w + 1)) := by
    rw [final, infos_createdWorld hopens, registry_recreated stray hopens hquoted]
  have hkept := (prefix_importStep_final stray chance hopens hquoted).length_le
  apply UniqueTable.insertAll_eq_append_of_length_le
  rw [← hinfos, Registry.length_infos, length_created, Registry.length_infos, rounds, existing]
  omega

/-- An identifier that was refused is made up for by the next run. -/
theorem fresh_of_idempotent (hopens : ∀ path, host.opens path = true)
    (hlists : Lists host regular w dir) (htidy : Tidy host w dir)
    (hquoted : ∀ info ∈ missing host opts dir w, info.WellQuoted)
    (h : Idempotent host ignored regular opts dir chance w) : Fresh host opts dir chance w := by
  by_contra hfresh
  obtain ⟨first, hfirst, hidempotent⟩ := h
  obtain ⟨-, hworld⟩ := of_run_eq_some hopens hfirst
  have hshort := length_final_lt ignored hopens hquoted hfresh
  obtain ⟨dir', hlists'⟩ := exists_lists_final opts chance hopens
    (fun path sql v => show (ignored path sql v).disk = v.disk from rfl) hlists htidy
  rw [← hworld] at hshort hlists'
  -- the rows that the second run finds can be counted, so that one identifier is left
  have hcount : existing host opts dir' first.world < 2 ^ 31 := by
    obtain ⟨second, hsecond, -⟩ := hidempotent dir' chance hlists'
    exact (of_run_eq_some hopens hsecond).1.1
  have hleft : (importStep host opts dir' first.world).registry.uuids.length < 2 ^ 31 := by
    rw [Registry.uuids, List.length_map]
    rw [existing] at hcount
    omega
  obtain ⟨dis, hdis⟩ := exists_generateUUID_not_mem hleft
  -- the second run draws this one, and nothing else
  obtain ⟨second, hsecond, hrows, -⟩ := hidempotent dir' (constantly dis) hlists'
  obtain ⟨-, hsecondWorld⟩ := of_run_eq_some hopens hsecond
  rw [hsecondWorld] at hrows
  have hrecreated : (recreated host ignored opts dir' first.world).registry =
      (importStep host opts dir' first.world).registry :=
    recreateMissing_invariant (P := (· = (importStep host opts dir' first.world).registry)) hopens
      (fun _ _ _ heq => heq) _ rfl
  have hlength : (importStep host opts dir' first.world).registry.rows.length ≤
      first.world.registry.rows.length := by
    rw [← hrecreated, ← hrows]
    exact (prefix_final ignored opts dir' (constantly dis) hopens first.world).length_le
  -- so the second run creates a database
  obtain ⟨n, hn⟩ : ∃ n, rounds host opts dir' first.world = n + 1 := by
    refine ⟨rounds host opts dir' first.world - 1, ?_⟩
    rw [rounds, existing]
    omega
  have hmem : generateUUID dis ∈
      (final host ignored opts dir' (constantly dis) first.world).registry.infos.map (·.uuid) := by
    rw [final, infos_createdWorld hopens, hn]
    exact UniqueTable.key_mem_insertAll List.mem_cons_self
  apply hdis
  rw [Registry.map_uuid_infos, Registry.uuids, hrows] at hmem
  have hopened : generateUUID dis ∈ (ensureOpen host first.world).registry.uuids := by
    rw [uuids_ensureOpen]
    exact hmem
  exact (prefix_importStep.map (·.info.uuid)).subset hopened

/-- A row with the status that `ensureOpen` replaces. -/
def oldInfo : DatabaseInfo where
  uuid := []
  creationDate := []
  filePos := []
  status := lit "external"

/-- A statement that leaves one such row, with an id that was never given. -/
def escalate : Stray := fun _ _ v => { v with registry := oneRow (v.registry.seq + 1) oldInfo }

/-- The registry is not the one that the run found: its first row is newer, or its status is. -/
def Moved (seq : ℤ) (reg : Registry) : Prop :=
  seq ≤ reg.seq ∧ ∃ row rest, reg.rows = row :: rest ∧
    (seq < row.id ∨ row.info.status ≠ lit "external")

theorem Moved.insert {seq : ℤ} {reg : Registry} (info : DatabaseInfo) (h : Moved seq reg) :
    Moved seq (reg.insert info) := by
  obtain ⟨hseq, row, rest, hrows, hrow⟩ := h
  unfold Registry.insert
  split
  · exact ⟨hseq, row, rest, hrows, hrow⟩
  · refine ⟨hseq.trans (Int.le_add_one le_rfl), row, rest ++ [reg.newRow info], ?_, hrow⟩
    show reg.rows ++ _ = _
    rw [hrows, List.cons_append]

/-- A stray statement of the first run can leave what the second one changes. -/
theorem wellQuoted_of_idempotent (hopens : ∀ path, host.opens path = true)
    (hlists : Lists host regular w dir) (htidy : Tidy host w dir)
    (h : Idempotent host escalate regular opts dir chance w) :
    ∀ info ∈ missing host opts dir w, info.WellQuoted := by
  by_contra hquoted
  push Not at hquoted
  obtain ⟨info, hinfo, hquoted⟩ := hquoted
  obtain ⟨first, hfirst, hidempotent⟩ := h
  obtain ⟨-, hworld⟩ := of_run_eq_some hopens hfirst
  obtain ⟨dir', hlists'⟩ := exists_lists_final opts chance hopens
    (fun path sql v => show (escalate path sql v).disk = v.disk from rfl) hlists htidy
  -- the first run ends with the old status in its first row
  have hold : ∃ id rest, first.world.registry.rows = ⟨id, oldInfo⟩ :: rest := by
    have hrecreated : ∃ id, (recreated host escalate opts dir w).registry.rows = [⟨id, oldInfo⟩] :=
      recreateMissing_of_stray (P := fun reg => ∃ id, reg.rows = [⟨id, oldInfo⟩]) hopens
        (fun _ _ v => ⟨v.registry.seq + 1, rfl⟩) hinfo hquoted
    obtain ⟨id, hid⟩ := hrecreated
    obtain ⟨rest, hrest⟩ := prefix_final escalate opts dir chance hopens w
    rw [hid, ← hworld] at hrest
    exact ⟨id, rest, hrest.symm⟩
  rw [← hworld] at hlists'
  obtain ⟨second, hsecond, hrows, -⟩ := hidempotent dir' chance hlists'
  obtain ⟨-, hsecondWorld⟩ := of_run_eq_some hopens hsecond
  obtain ⟨id, rest, hid⟩ := hold
  -- the second run opens the registry, which replaces the status, or executes the statement again
  have hmoved : Moved first.world.registry.seq second.world.registry := by
    rw [hsecondWorld]
    apply createdWorld_invariant hopens fun reg info h => h.insert info
    apply recreateMissing_invariant hopens
    · intro path sql v hv
      exact ⟨hv.1.trans (Int.le_add_one le_rfl), _, [], rfl, .inl (Int.lt_add_one_of_le hv.1)⟩
    · have hopened : Moved first.world.registry.seq (ensureOpen host first.world).registry := by
        refine ⟨le_rfl, Registry.normalizeRow ⟨id, oldInfo⟩, rest.map Registry.normalizeRow, ?_,
          .inr (status_normalizeRow _)⟩
        show first.world.registry.rows.map _ = _
        rw [hid, List.map_cons]
      unfold importStep
      split
      · exact hopened
      · exact scan_invariant (fun reg info h => h.insert info) _ hopened
  obtain ⟨-, row, rest', hrow, hnew⟩ := hmoved
  rw [hrows, hid] at hrow
  obtain ⟨rfl, -⟩ := List.cons.inj hrow
  rcases hnew with hnew | hnew
  · have hle := first.world.registry.le_seq ⟨id, oldInfo⟩ (by rw [hid]; exact List.mem_cons_self)
    exact absurd hnew (not_lt.mpr hle)
  · exact hnew rfl

theorem lists_emptyDir {v : World} (h : v.disk = fun _ => none) :
    Lists plainHost (fun _ => true) v emptyDir := by
  refine ⟨fun entry hentry => absurd hentry List.not_mem_nil, fun name _ _ => ?_⟩
  rw [h]
  simp [emptyDir]

theorem tidy_emptyDir {v : World} (h : v.disk = fun _ => none)
    (hregistered : ∀ uuid ∈ v.registry.uuids, PlainUuid uuid) : Tidy plainHost v emptyDir := by
  refine ⟨fun place => ?_, hregistered, fun entry hentry => absurd hentry List.not_mem_nil⟩
  simp [World.metadataAt, h]

theorem lists_used : Lists plainHost (fun _ => true) usedWorld renamedDir := by
  refine ⟨fun entry hentry => ?_, fun name _ _ => ?_⟩
  · rw [List.mem_singleton.mp hentry]
  · have hdisk : usedWorld.disk (plainHost.entryPath name) =
        if plainHost.entryPath name = plainHost.entryPath (lit "copy.db") then
          some (namedFile (lit "a")) else none := rfl
    rw [hdisk]
    by_cases hname : name = lit "copy.db"
    · simp [renamedDir, hname]
    · simp [renamedDir, hname, Host.entryPath_inj]

theorem tidy_used : Tidy plainHost usedWorld renamedDir := by
  refine ⟨fun place => ?_, by decide, fun entry hentry _ => ?_⟩
  · change (((if place = lit "/db/copy.db" then some (namedFile (lit "a")) else none).bind
      (·.metadata)).getD []).length ≤ 1
    split
    · exact le_rfl
    · exact Nat.zero_le 1
  · rw [List.mem_singleton.mp hentry]
    decide +kernel

/-- A creation date behind which a statement follows that adds a metadata row. -/
def repeatedDate : Bytes :=
  lit "x', 'y'); INSERT INTO metadata SELECT max(uuid) || 'a', 'x', 'y' FROM metadata; --"

/-- The registry has the row that was imported from a file with this date, and the file is gone. -/
def repeatedWorld : World where
  registry := (scanAndImportUnmapped plainHost
    { emptyWorld with
      disk := fun place => if place = lit "/db/copy.db" then
          some ⟨some [⟨some (lit "a"), some repeatedDate, none⟩]⟩ else none }
    renamedDir).registry
  disk := fun _ => none

/-- What SQLite makes of the statements of the recreated row: the row of the values in front of the
injected statement, and one whose uuid is longer than all others. -/
def addRow : Stray := fun path _ v =>
  let table := replaceRow (v.metadataAt path) ⟨some (lit "a"), some (lit "x"), some (lit "y")⟩
  v.writeMetadata path (insertRow table
    ⟨some (List.replicate (table.length + 1) 97), some (lit "x"), some (lit "y")⟩)

theorem isName_repeatedEntries :
    ∀ entry ∈ [(⟨lit "a.db", true⟩ : DirEntry)], IsName entry.name := by
  decide

theorem nodup_repeatedEntries : ([(⟨lit "a.db", true⟩ : DirEntry)].map (·.name)).Nodup := by
  decide

/-- The directory with the recreated file. -/
def repeatedDir : Directory where
  entries := [⟨lit "a.db", true⟩]
  isName := isName_repeatedEntries
  nodup_name := nodup_repeatedEntries

/-- The first start leaves `a.db` and `master.db`. -/
theorem lists_repeatedDir : Lists plainHost (fun _ => true)
    (final plainHost addRow defaultOptions emptyDir zeros repeatedWorld) repeatedDir := by
  have hdisk : (final plainHost addRow defaultOptions emptyDir zeros repeatedWorld).disk =
      Function.update (Function.update (ensureOpen plainHost repeatedWorld).disk (lit "/db/a.db")
        (some ⟨some []⟩)) (lit "/db/a.db") (some ⟨some
          [⟨some (lit "a"), some (lit "x"), some (lit "y")⟩,
            ⟨some (lit "aa"), some (lit "x"), some (lit "y")⟩]⟩) := by
    rfl
  refine ⟨fun entry hentry => ?_, fun name hname hdb => ?_⟩
  · rw [List.mem_singleton.mp hentry]
  · have hpath : lit "/db/a.db" = plainHost.entryPath (lit "a.db") := by rfl
    rw [hdisk, Function.update_idem, hpath]
    by_cases hsame : name = lit "a.db"
    · subst hsame
      simp [repeatedDir]
    · have hother : plainHost.entryPath name ≠ plainHost.entryPath (lit "a.db") :=
        fun heq => hsame (plainHost.entryPath_inj.mp heq)
      rw [Function.update_of_ne hother, isSome_disk_ensureOpen, locate_masterPath,
        Host.entryPath_inj]
      simp [repeatedDir, hsame, repeatedWorld, hdb.2.1]

end Shell
