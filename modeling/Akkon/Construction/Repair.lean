import Akkon.Construction.ImportScan

/-!
# The repair of missing databases

`getMissing` looks at the path of a row, while `recreateMissing` writes the file that is named for
the uuid of the row.

* `recreateMissing_spec`: what the files are afterwards, where each statement is the one that
  was meant;
* `repaired_iff`: exactly when no row is missing any more and each recreated file carries the
  metadata of its row.
-/

namespace Construction

open Cpp

/-- No quote of the two texts that are not escaped ends its literal early. -/
def DatabaseInfo.WellQuoted (info : DatabaseInfo) : Prop :=
  (literal info.uuid).isSome ∧ (literal info.creationDate).isSome

namespace MasterDB

section

variable (host : Host) (stray : Stray) (w : World)

/-- The place of the file that is written for a row. -/
def target (info : DatabaseInfo) : Bytes := host.locate (host.databasePath info.uuid)

/-- The rows whose file does not exist. -/
def missingRows : List DatabaseInfo :=
  w.registry.infos.filter fun info => !host.fileExists w info.filePos

/-- The metadata row that is written for a row. -/
def metaRow (info : DatabaseInfo) : MetaRow where
  uuid := literal info.uuid
  creation_date := literal info.creationDate
  file_path := some (host.databasePath info.uuid)

/-- What the repair at startup is for: no row is missing afterwards, and the file of each recreated
row carries its uuid and its creation date. -/
def Repaired : Prop :=
  ∃ existing existing', loadExisting w = some existing ∧
    let missing := getMissing host w existing
    let after := recreateMissing host stray w missing
    loadExisting after = some existing' ∧ getMissing host after existing' = [] ∧
      ∀ info ∈ missing, ∃ row ∈ after.metadataAt (target host info),
        row.uuid = some info.uuid ∧ row.creation_date = some info.creationDate

/-- The last one of the missing rows that writes metadata with this uuid into the file of a row
writes the creation date of the row; where none does, the file had such metadata before. -/
def Dated (info : DatabaseInfo) : Prop :=
  match ((missingRows host w).filter fun other =>
    target host other = target host info ∧ literal other.uuid = some info.uuid).getLast? with
  | some other => literal other.creationDate = some info.creationDate
  | none => ∃ row ∈ w.metadataAt (target host info),
      row.uuid = some info.uuid ∧ row.creation_date = some info.creationDate

/-- When the repair does what it is for. -/
structure Repairable : Prop where
  /-- The rows can be numbered. -/
  count : w.registry.rows.length < 2 ^ 31
  quoted : ∀ info ∈ missingRows host w, info.WellQuoted
  /-- The path of a missing row leads to a file that is written. -/
  reached : ∀ info ∈ missingRows host w, info.filePos ≠ [] ∧
    ∃ other ∈ missingRows host w, target host other = host.locate info.filePos
  dated : ∀ info ∈ missingRows host w, Dated host w info

end

variable {host : Host} {stray : Stray} {w : World}

@[simp]
theorem getMissing_numberedFrom :
    getMissing host w (numberedFrom 1 w.registry.infos) = missingRows host w := by
  rw [getMissing, map_snd_numberedFrom]
  rfl

theorem mem_missingRows_iff {info : DatabaseInfo} : info ∈ missingRows host w ↔
    info ∈ w.registry.infos ∧ host.fileExists w info.filePos = false := by
  simp [missingRows]

/-! ## One round -/

theorem metaRow_of_wellQuoted (host : Host) {info : DatabaseInfo} (h : info.WellQuoted) :
    ∃ uuid creationDate, literal info.uuid = some uuid ∧
      literal info.creationDate = some creationDate ∧
      metaRow host info = ⟨some uuid, some creationDate, some (host.databasePath info.uuid)⟩ := by
  obtain ⟨uuid, huuid⟩ := Option.isSome_iff_exists.mp h.1
  obtain ⟨creationDate, hdate⟩ := Option.isSome_iff_exists.mp h.2
  exact ⟨uuid, creationDate, huuid, hdate, by rw [metaRow, huuid, hdate]⟩

/-- A round that does what it is meant to do puts the metadata row into the file. -/
theorem recreate_of_wellQuoted (stray : Stray) (w : World) {info : DatabaseInfo}
    (hopens : host.opens (host.databasePath info.uuid) = true) (h : info.WellQuoted) :
    recreate host stray w info = w.writeMetadata (target host info)
      (UniqueTable.replace (·.uuid) (w.metadataAt (target host info)) (metaRow host info)) := by
  obtain ⟨uuid, creationDate, huuid, hdate, hrow⟩ := metaRow_of_wellQuoted host h
  simp only [recreate, hopens, huuid, hdate, if_true, World.writeMetadata_writeMetadata, hrow]
  rfl

theorem recreate_of_not_wellQuoted (stray : Stray) (w : World) {info : DatabaseInfo}
    (hopens : host.opens (host.databasePath info.uuid) = true) (h : ¬info.WellQuoted) :
    ∃ path sql, recreate host stray w info = stray path sql
      (w.writeMetadata (target host info) (w.metadataAt (target host info))) := by
  simp only [recreate, hopens, if_true]
  split
  · rename_i huuid hdate
    exact absurd ⟨by rw [huuid]; rfl, by rw [hdate]; rfl⟩ h
  · exact ⟨_, _, rfl⟩

/-! ## The loop -/

/-- What the files are after the loop. -/
theorem recreateMissing_spec (stray : Stray) (hopens : ∀ path, host.opens path = true)
    (missing : List DatabaseInfo)
    (h : ∀ info ∈ missing, info.WellQuoted) (w : World) :
    let after := recreateMissing host stray w missing
    after.registry = w.registry ∧
      (∀ place, (after.disk place).isSome ↔
        (w.disk place).isSome ∨ ∃ info ∈ missing, target host info = place) ∧
      ∀ place, after.metadataAt place = UniqueTable.replaceAll (·.uuid) (w.metadataAt place)
        ((missing.filter fun info => target host info = place).map (metaRow host)) := by
  -- By induction on the rows: each round writes one row into the file of its database.
  induction missing generalizing w with
  | nil => simp [recreateMissing, UniqueTable.replaceAll]
  | cons info missing ih =>
    have hround := recreate_of_wellQuoted stray w
      (hopens (host.databasePath info.uuid)) (h info List.mem_cons_self)
    obtain ⟨hregistry, hdisk, htable⟩ :=
      ih (fun other hother => h other (List.mem_cons_of_mem _ hother))
      (recreate host stray w info)
    rw [recreateMissing, List.foldl_cons]
    refine ⟨?_, fun place => ?_, fun place => ?_⟩
    · rw [← recreateMissing, hregistry, hround]
      rfl
    · rw [← recreateMissing, hdisk, hround, World.isSome_disk_writeMetadata]
      simp only [List.exists_mem_cons_iff, or_assoc, eq_comm]
    · rw [← recreateMissing, htable, hround]
      -- the round of this row changes the table of its own file only
      by_cases hplace : target host info = place
      · subst hplace
        simp [UniqueTable.replaceAll]
      · rw [World.metadataAt_writeMetadata_of_ne _ _ (Ne.symm hplace)]
        simp [hplace]

/-- A round leaves the registry alone, or it is a stray statement that leaves it. -/
theorem recreate_registry (stray : Stray) (hopens : ∀ path, host.opens path = true) (w : World)
    (info : DatabaseInfo) :
    info.WellQuoted ∧ (recreate host stray w info).registry = w.registry ∨
      ¬info.WellQuoted ∧ ∃ path sql v, v.registry = w.registry ∧
        recreate host stray w info = stray path sql v := by
  by_cases hquoted : info.WellQuoted
  · left
    refine ⟨hquoted, ?_⟩
    rw [recreate_of_wellQuoted stray w (hopens _) hquoted]
    rfl
  · right
    obtain ⟨path, sql, heq⟩ := recreate_of_not_wellQuoted stray w (hopens _) hquoted
    exact ⟨hquoted, path, sql,
      w.writeMetadata (target host info) (w.metadataAt (target host info)), rfl, heq⟩

/-- What every stray statement keeps true of the registry stays true. -/
theorem recreateMissing_invariant {P : Registry → Prop} (hopens : ∀ path, host.opens path = true)
    (hstray : ∀ path sql v, P v.registry → P (stray path sql v).registry)
    (missing : List DatabaseInfo) {w : World} (h : P w.registry) :
    P (recreateMissing host stray w missing).registry := by
  induction missing generalizing w with
  | nil => exact h
  | cons info missing ih =>
    rw [recreateMissing, List.foldl_cons]
    apply ih
    rcases recreate_registry stray hopens w info with ⟨-, heq⟩ | ⟨-, path, sql, v, hv, heq⟩
    · rwa [heq]
    · rw [heq]
      exact hstray path sql v (by rwa [hv])

/-- What every stray statement makes true of the registry is true once there was one. -/
theorem recreateMissing_of_stray {P : Registry → Prop} (hopens : ∀ path, host.opens path = true)
    (hstray : ∀ path sql v, P (stray path sql v).registry) {missing : List DatabaseInfo} {w : World}
    {info : DatabaseInfo} (hinfo : info ∈ missing) (h : ¬info.WellQuoted) :
    P (recreateMissing host stray w missing).registry := by
  induction missing generalizing w with
  | nil => cases hinfo
  | cons other missing ih =>
    rw [recreateMissing, List.foldl_cons]
    rcases List.mem_cons.mp hinfo with rfl | hinfo
    · rcases recreate_registry stray hopens w info with ⟨hquoted, -⟩ | ⟨-, path, sql, v, -, heq⟩
      · exact absurd hquoted h
      · rw [heq]
        exact recreateMissing_invariant hopens (fun path sql v _ => hstray path sql v) missing
          (hstray path sql v)
    · exact ih hinfo

/-- Statements that leave the files alone add no others than the ones that are written. -/
theorem disk_recreateMissing_of_isSome (hopens : ∀ path, host.opens path = true)
    (hstray : ∀ path sql v, (stray path sql v).disk = v.disk) (missing : List DatabaseInfo)
    {w : World}
    {place : Bytes} (h : ((recreateMissing host stray w missing).disk place).isSome) :
    (w.disk place).isSome ∨ ∃ info ∈ missing, target host info = place := by
  induction missing generalizing w with
  | nil => exact .inl h
  | cons info missing ih =>
    rw [recreateMissing, List.foldl_cons] at h
    have hround : ((recreate host stray w info).disk place).isSome ↔
        (w.disk place).isSome ∨ place = target host info := by
      by_cases hquoted : info.WellQuoted
      · rw [recreate_of_wellQuoted stray w (hopens _) hquoted]
        exact World.isSome_disk_writeMetadata _ _ _ _
      · obtain ⟨path, sql, heq⟩ := recreate_of_not_wellQuoted stray w (hopens _) hquoted
        rw [heq, hstray]
        exact World.isSome_disk_writeMetadata _ _ _ _
    rcases ih h with h | ⟨other, hother, htarget⟩
    · rcases hround.mp h with h | rfl
      · exact .inl h
      · exact .inr ⟨info, List.mem_cons_self, rfl⟩
    · exact .inr ⟨other, List.mem_cons_of_mem _ hother, htarget⟩

/-! ## When the repair is complete -/

/-- The metadata of a row is in a table after replacements that ends with it. -/
theorem exists_mem_replaceAll_iff (table : List MetaRow) (others : List DatabaseInfo)
    (uuid creationDate : Bytes) :
    (∃ row ∈ UniqueTable.replaceAll (·.uuid) table (others.map (metaRow host)),
        row.uuid = some uuid ∧ row.creation_date = some creationDate) ↔
      match (others.filter fun other => literal other.uuid = some uuid).getLast? with
      | some other => literal other.creationDate = some creationDate
      | none => ∃ row ∈ table, row.uuid = some uuid ∧ row.creation_date = some creationDate := by
  -- The last statement with the identifier decides, since each one replaces the row before it.
  have hlast : ((others.map (metaRow host)).filter fun row => row.uuid = some uuid).getLast? =
      (others.filter fun other => literal other.uuid = some uuid).getLast?.map (metaRow host) := by
    rw [List.filter_map, List.getLast?_map]
    rfl
  have hmem : ∀ row : MetaRow, row.uuid = some uuid →
      (row ∈ UniqueTable.replaceAll (·.uuid) table (others.map (metaRow host)) ↔
        match (others.filter fun other => literal other.uuid = some uuid).getLast? with
        | some other => row = metaRow host other
        | none => row ∈ table) := by
    intro row huuid
    rw [UniqueTable.mem_replaceAll_iff, huuid, hlast]
    cases (others.filter fun other => literal other.uuid = some uuid).getLast? <;> rfl
  cases hcase : (others.filter fun other => literal other.uuid = some uuid).getLast? with
  | none =>
    rw [hcase] at hmem
    constructor
    · rintro ⟨row, hrow, huuid, hdate⟩
      exact ⟨row, (hmem row huuid).mp hrow, huuid, hdate⟩
    · rintro ⟨row, hrow, huuid, hdate⟩
      exact ⟨row, (hmem row huuid).mpr hrow, huuid, hdate⟩
  | some other =>
    rw [hcase] at hmem
    have huuid : literal other.uuid = some uuid :=
      of_decide_eq_true (List.mem_filter.mp (List.mem_of_getLast? hcase)).2
    constructor
    · rintro ⟨row, hrow, hrowUuid, hdate⟩
      rw [(hmem row hrowUuid).mp hrow] at hdate
      exact hdate
    · intro hdate
      exact ⟨metaRow host other, (hmem _ huuid).mpr rfl, huuid, hdate⟩

/-- Whether the file of a missing row ends up with its metadata. -/
theorem exists_metadata_iff_dated (hopens : ∀ path, host.opens path = true)
    (h : ∀ info ∈ missingRows host w, info.WellQuoted) (info : DatabaseInfo) :
    (∃ row ∈ (recreateMissing host stray w (missingRows host w)).metadataAt (target host info),
        row.uuid = some info.uuid ∧ row.creation_date = some info.creationDate) ↔
      Dated host w info := by
  obtain ⟨-, -, htable⟩ := recreateMissing_spec stray hopens (missingRows host w) h w
  rw [htable, exists_mem_replaceAll_iff, List.filter_filter, Dated]
  simp only [← Bool.decide_and, and_comm]

/-- No row is missing afterwards when the path of each one leads to a file that was written. -/
theorem missingRows_recreate_eq_nil_iff (hopens : ∀ path, host.opens path = true)
    (h : ∀ info ∈ missingRows host w, info.WellQuoted) :
    missingRows host (recreateMissing host stray w (missingRows host w)) = [] ↔
      ∀ info ∈ missingRows host w, info.filePos ≠ [] ∧
        ∃ other ∈ missingRows host w, target host other = host.locate info.filePos := by
  obtain ⟨hregistry, hdisk, -⟩ :=
    recreateMissing_spec stray hopens (missingRows host w) h w
  -- A file is there behind the repair when it was there, or when some row has it for its target.
  have hexists : ∀ info : DatabaseInfo,
      host.fileExists (recreateMissing host stray w (missingRows host w)) info.filePos = true ↔
        host.fileExists w info.filePos = true ∨ info.filePos ≠ [] ∧
        ∃ other ∈ missingRows host w, target host other = host.locate info.filePos := by
    intro info
    simp only [Host.fileExists, Bool.and_eq_true, decide_eq_true_eq, hdisk]
    exact and_or_left
  rw [List.eq_nil_iff_forall_not_mem]
  constructor
  · intro hnone info hinfo
    obtain ⟨hrow, hmissing⟩ := mem_missingRows_iff.mp hinfo
    have hnow : host.fileExists (recreateMissing host stray w (missingRows host w)) info.filePos =
        true := by
      rw [← Bool.not_eq_false]
      exact fun hfalse => hnone info (mem_missingRows_iff.mpr ⟨by rwa [hregistry], hfalse⟩)
    exact ((hexists info).mp hnow).resolve_left (by simp [hmissing])
  · intro hreached info hinfo
    obtain ⟨hrow, hmissing⟩ := mem_missingRows_iff.mp hinfo
    rw [hregistry] at hrow
    rw [← Bool.not_eq_true, hexists, not_or, Bool.not_eq_true] at hmissing
    exact hmissing.2 (hreached info (mem_missingRows_iff.mpr ⟨hrow, hmissing.1⟩))

/-- A row that is always missing: the empty path leads nowhere. -/
def pathless : DatabaseInfo := { uuid := [], creationDate := [], filePos := [], status := [] }

/-- What a stray statement can leave. -/
def pathlessWorld : World where
  registry := Registry.empty.insert pathless
  disk := fun _ => none

theorem loadExisting_pathless {after : World} (h : after.registry = pathlessWorld.registry) :
    loadExisting after = some [(1, pathless)] := by
  rw [loadExisting, h]
  rfl

theorem getMissing_pathless (after : World) :
    getMissing host after [(1, pathless)] = [pathless] := by
  simp [getMissing, Host.fileExists, pathless]

/-- A statement other than the one that was meant can undo the repair. -/
theorem not_repaired_of_not_wellQuoted (hopens : ∀ path, host.opens path = true)
    {info : DatabaseInfo} (hinfo : info ∈ missingRows host w) (h : ¬info.WellQuoted) :
    ¬Repaired host (fun _ _ _ => pathlessWorld) w := by
  rintro ⟨existing, existing', hload, hload', hnone, -⟩
  obtain ⟨-, rfl⟩ := loadExisting_eq_some_iff.mp hload
  rw [getMissing_numberedFrom] at hload' hnone
  have hregistry :
      (recreateMissing host (fun _ _ _ => pathlessWorld) w (missingRows host w)).registry =
      pathlessWorld.registry :=
    recreateMissing_of_stray (P := (· = pathlessWorld.registry)) hopens (fun _ _ _ => rfl) hinfo h
  rw [loadExisting_pathless hregistry] at hload'
  rw [← Option.some.inj hload', getMissing_pathless] at hnone
  cases hnone

/-- Startup repairs every mapped database exactly when the rows can be numbered, no quote of a
missing row ends its literal early, the path of each missing row leads to the file of a missing row,
and the creation date of each is the last one written under its uuid into its file. -/
theorem repaired_iff (host : Host) (hopens : ∀ path, host.opens path = true) (w : World) :
    (∀ stray, Repaired host stray w) ↔ Repairable host w := by
  constructor
  · intro hall
    have hquoted : ∀ info ∈ missingRows host w, info.WellQuoted := by
      intro info hinfo
      by_contra h
      exact not_repaired_of_not_wellQuoted hopens hinfo h (hall _)
    obtain ⟨existing, existing', hload, hload', hnone, hmetadata⟩ := hall fun _ _ v => v
    obtain ⟨hcount, rfl⟩ := loadExisting_eq_some_iff.mp hload
    obtain ⟨-, rfl⟩ := loadExisting_eq_some_iff.mp hload'
    rw [getMissing_numberedFrom] at hnone hmetadata
    rw [getMissing_numberedFrom] at hnone
    exact ⟨hcount, hquoted, (missingRows_recreate_eq_nil_iff hopens hquoted).mp hnone,
      fun info hinfo => (exists_metadata_iff_dated hopens hquoted info).mp (hmetadata info hinfo)⟩
  · rintro ⟨hcount, hquoted, hreached, hdated⟩ stray
    obtain ⟨hregistry, -, -⟩ :=
      recreateMissing_spec stray hopens (missingRows host w) hquoted w
    refine ⟨_, numberedFrom 1 (recreateMissing host stray w (missingRows host w)).registry.infos,
      loadExisting_eq_some hcount, ?_⟩
    rw [getMissing_numberedFrom]
    refine ⟨loadExisting_eq_some (by rwa [hregistry]), ?_, fun info hinfo => ?_⟩
    · rw [getMissing_numberedFrom]
      exact (missingRows_recreate_eq_nil_iff hopens hquoted).mpr hreached
    · exact (exists_metadata_iff_dated hopens hquoted info).mpr (hdated info hinfo)

/-! ## An imported file that is lost -/

/-- A file whose metadata names another uuid than its name. -/
def renamedWorld : World where
  registry := Registry.empty
  disk := fun place => if place = lit "/db/copy.db" then some (namedFile (lit "a")) else none

theorem isName_renamedEntries :
    ∀ entry ∈ [(⟨lit "copy.db", true⟩ : DirEntry)], IsName entry.name := by
  decide

theorem nodup_renamedEntries : ([(⟨lit "copy.db", true⟩ : DirEntry)].map (·.name)).Nodup := by
  decide

/-- The directory with this file. -/
def renamedDir : Directory where
  entries := [⟨lit "copy.db", true⟩]
  isName := isName_renamedEntries
  nodup_name := nodup_renamedEntries

/-- The file is lost after it was imported. -/
def lostWorld : World where
  registry := (scanAndImportUnmapped plainHost renamedWorld renamedDir).registry
  disk := fun _ => none

/-- The row of the file that is lost. -/
def lostInfo : DatabaseInfo where
  uuid := lit "a"
  creationDate := newYear.text
  filePos := lit "/db/copy.db"
  status := lit "unmapped"

theorem repaired_iff_lost : (∀ stray, Repaired plainHost stray lostWorld) ↔
    Repairable plainHost lostWorld :=
  repaired_iff plainHost (fun _ => rfl) lostWorld

/-- The file `a.db` is created, and the row of `copy.db` is missing as before. -/
theorem not_repaired_lost : ¬∀ stray, Repaired plainHost stray lostWorld := by
  intro h
  obtain ⟨existing, existing', hload, hload', hnone, -⟩ := h fun _ _ v => v
  have hexisting : loadExisting lostWorld = some [(1, lostInfo)] := by rfl
  have hexisting' : loadExisting (recreateMissing plainHost (fun _ _ v => v) lostWorld
      (getMissing plainHost lostWorld [(1, lostInfo)])) = some [(1, lostInfo)] := by rfl
  obtain rfl := Option.some.inj (hexisting.symm.trans hload)
  obtain rfl := Option.some.inj (hexisting'.symm.trans hload')
  revert hnone
  decide

end MasterDB

end Construction
