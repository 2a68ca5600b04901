import Akkon.Main.Interference
import Akkon.Main.Startup
import Akkon.Shell.Shell

/-!
# One run of the server after another

What is left on the disk between two runs: the registry of the databases, the database files, and
the tables `information` with the identifiers. A run of the server starts with `Shell::run`, loads
the registry, opens its files and reads the identifiers, and then serves requests until it ends in
whatever way; rows are committed one by one, so a run that is killed leaves what it has inserted.
Not covered are a run that is killed in front of the server loop, a registry that opens for
`Shell::run` and not for `main`, and two registered files at one place.

* `Installation`, `Life`: what is left on the disk, and what a run gets from outside;
* `Installation.live`: a run of the server, with the process of all its threads;
* `lives`: any number of runs, with changes of the directory in between;
* `keepsRows_run`, `prefix_written`: a run only adds rows, to the registry and to the tables;
* `extends_of_reachable`: nothing is lost in any number of runs;
* `found_after_restarts`: what was stored in some run is found by every later one, in the shard of
  the same number.
-/

namespace Main

open Cpp Construction Db Indexer

/-- What is left on the disk between two runs. -/
structure Installation where
  world : Construction.World
  /-- The table `information` of the file at a place, empty where there is none. -/
  tables : Bytes → Shard

/-- What a run of the server gets from outside. -/
structure Life where
  host : Host
  stray : Stray
  opts : Shell.Options
  dir : Directory
  chance : Shell.Chance
  /-- Whether `sqlite3_open` of `DataStorage::initialize` succeeds on a path. -/
  opens : Bytes → Bool
  /-- The `SELECT` of `loadAllIdentifiers` on the file at a place. -/
  select : Bytes → DataStorage.SelectOutcome
  m_server_fd : ℤ
  /-- The steps of the process up to its end. -/
  events : List Process.Label

namespace Installation

variable (s : Installation) (life : Life)

/-- The state of `main` in front of the server loop. -/
structure Started where
  world : Construction.World
  existing_dbs : List (ℤ × DatabaseInfo)
  service : Service

/-- The place of a registered file. -/
def place (info : DatabaseInfo) : Bytes := life.host.locate info.filePos

/-- The registered files as `DataStorage` finds them. -/
def registered (existing_dbs : List (ℤ × DatabaseInfo)) : List RegisteredShard :=
  existing_dbs.map fun p =>
    { shard := s.tables (place life p.2)
      opens := life.opens p.2.filePos
      select := life.select (place life p.2) }

/-- The places of the files that `DataStorage` has open, in the order of `m_data_dbs`. -/
def openPlaces (existing_dbs : List (ℤ × DatabaseInfo)) : List Bytes :=
  (existing_dbs.filter fun p => life.opens p.2.filePos).map fun p => place life p.2

/-- The files that are opened exist from then on. -/
def withFiles (w : Construction.World) (places : List Bytes) : Construction.World :=
  { w with
    disk := fun place =>
      if places.contains place then some ((w.disk place).getD ⟨none⟩) else w.disk place }

/-- `main` behind `Shell::run`: the registry is opened once more, which succeeds as it did before,
and loaded, its files are opened and the identifiers are read. Two connections to one file are left
out. -/
def startBehind (w : Construction.World) : Option Started := do
  let w := MasterDB.ensureOpen life.host w
  let existing_dbs ← MasterDB.loadExisting w
  if (openPlaces life existing_dbs).Nodup then
    match startUp (s.registered life existing_dbs) with
    | .ok service =>
      some { world := withFiles w (openPlaces life existing_dbs), existing_dbs, service }
    | .error _ => none
  else none

/-- `main` up to the server loop, or up to its return where `Shell::run` fails. -/
def start : Option (Construction.World × Option Started) := do
  let outcome ← Shell.run life.host life.stray life.opts life.dir life.chance s.world
  if outcome.status = 0 then
    (s.startBehind life outcome.world).map fun started => (started.world, some started)
  else some (outcome.world, none)

/-- The tables when a run is over. -/
def written (tables : Bytes → Shard) (places : List Bytes) (m_data_dbs : List Shard) :
    Bytes → Shard :=
  (places.zip m_data_dbs).foldl (fun tables p => Function.update tables p.1 p.2) tables

/-- What a run leaves that ends in a state of its process. -/
def ended (started : Started) (p : Process) : Installation where
  world := started.world
  tables := written s.tables (openPlaces life started.existing_dbs)
    p.service.data_storage.m_data_dbs

/-- The process behind the steps of the run. -/
def Started.runs (started : Started) : Option Process :=
  (processSystem life.m_server_fd started.service).runFrom
    (.start life.m_server_fd started.service) life.events

/-- A run of the server. -/
def live : Option Installation :=
  (s.start life).bind fun
    | (world, none) => some { s with world }
    | (_, some started) => (started.runs life).map (s.ended life started)

/-- Files come and go. A file that is not there has no rows. -/
def changed (disk : Bytes → Option DbFile) (tables : Bytes → Shard) : Installation where
  world := { s.world with disk }
  tables := fun place => if (disk place).isSome then tables place else []

/-- What happens to an installation. -/
inductive Event
  | live (life : Life)
  /-- Files come and go between two runs. -/
  | outside (disk : Bytes → Option DbFile) (tables : Bytes → Shard)

/-- The state afterwards. -/
def next : Event → Option Installation
  | .live life => s.live life
  | .outside disk tables => some (s.changed disk tables)

/-- Nothing from outside damages the stored data: paths lead where they always lead, no quote of a
row whose file is missing ends its literal early, and the tables of registered files are left
alone. -/
def Undamaged (locate : Bytes → Bytes) : Event → Prop
  | .live life => life.host.locate = locate ∧
      ∀ info ∈ Shell.missing life.host life.opts life.dir s.world, info.WellQuoted
  | .outside disk tables => ∀ info ∈ s.world.registry.infos,
      (s.changed disk tables).tables (locate info.filePos) = s.tables (locate info.filePos)

end Installation

open Installation

/-- Any number of runs, from an installation on. -/
def lives (s : Installation) : StepSystem Installation Installation.Event where
  init t := t = s
  step := next

/-! ## The registry -/

/-- What of a row never changes. -/
def rowKey (row : Construction.Row) : ℤ × Bytes × Bytes × Bytes :=
  (row.id, row.info.uuid, row.info.creationDate, row.info.filePos)

/-- The rows of one registry are the first ones of the other, up to their status. -/
def KeepsRows (reg reg' : Registry) : Prop := reg.rows.map rowKey <+: reg'.rows.map rowKey

theorem KeepsRows.refl (reg : Registry) : KeepsRows reg reg := List.prefix_refl _

theorem KeepsRows.trans {reg reg' reg'' : Registry} (h : KeepsRows reg reg')
    (h' : KeepsRows reg' reg'') : KeepsRows reg reg'' :=
  List.IsPrefix.trans h h'

theorem KeepsRows.of_rows {reg reg' : Registry} (h : reg.rows <+: reg'.rows) :
    KeepsRows reg reg' :=
  h.map rowKey

theorem rowKey_normalizeRow (row : Construction.Row) :
    rowKey (Registry.normalizeRow row) = rowKey row := by
  unfold Registry.normalizeRow
  split <;> rfl

section Registry

variable {host : Host} {stray : Stray} {opts : Shell.Options} {dir : Directory}
  {chance : Shell.Chance} {w : Construction.World}

theorem keepsRows_ensureOpen (host : Host) (w : Construction.World) :
    KeepsRows w.registry (MasterDB.ensureOpen host w).registry := by
  have hkeys : (w.registry.rows.map Registry.normalizeRow).map rowKey =
      w.registry.rows.map rowKey := by
    rw [List.map_map]
    exact List.map_congr_left fun row _ => rowKey_normalizeRow row
  rw [KeepsRows, MasterDB.ensureOpen]
  exact hkeys ▸ List.prefix_refl _

theorem keepsRows_importStep (w : Construction.World) :
    KeepsRows w.registry (Shell.importStep host opts dir w).registry := by
  refine (keepsRows_ensureOpen host w).trans (.of_rows ?_)
  unfold Shell.importStep
  split
  · exact List.prefix_refl _
  · exact MasterDB.prefix_rows_scan

/-- The repair of a well-quoted row leaves the registry alone, whether or not its file opens. -/
theorem registry_recreate {info : DatabaseInfo} (h : info.WellQuoted) :
    (MasterDB.recreate host stray w info).registry = w.registry := by
  by_cases hopens : host.opens (host.databasePath info.uuid) = true
  · rw [MasterDB.recreate_of_wellQuoted stray w hopens h, World.writeMetadata_registry]
  · simp only [MasterDB.recreate, hopens, Bool.false_eq_true, if_false]

theorem registry_recreateMissing {infos : List DatabaseInfo} (h : ∀ info ∈ infos, info.WellQuoted) :
    (MasterDB.recreateMissing host stray w infos).registry = w.registry := by
  induction infos generalizing w with
  | nil => rfl
  | cons info infos ih =>
    rw [MasterDB.recreateMissing, List.foldl_cons]
    exact (ih fun other hother => h other (List.mem_cons_of_mem info hother)).trans
      (registry_recreate (h info List.mem_cons_self))

/-- A creation adds one row at most, whether or not the file opens. -/
theorem keepsRows_createNewDatabase (w : Construction.World) (dis : ℕ → Fin 16)
    (now : Timestamp) :
    KeepsRows w.registry
      (MasterDB.createNewDatabase host stray w (generateUUID dis) now).1.registry := by
  by_cases hopens : host.opens (host.databasePath (generateUUID dis)) = true
  · rw [MasterDB.createNewDatabase_eq host stray w dis now hopens]
    exact .of_rows (Registry.prefix_insert _ _)
  · simp only [MasterDB.createNewDatabase, hopens, Bool.false_eq_true, if_false]
    exact .refl _

theorem keepsRows_createLoop {n : ℕ} {i : ℤ} {map map' : List (ℤ × DatabaseInfo)}
    {w' : Construction.World}
    (h : Shell.createLoop host stray chance n i w map = some (w', map')) :
    KeepsRows w.registry w'.registry := by
  induction n generalizing i w map with
  | zero =>
    cases h
    exact .refl _
  | succ n ih =>
    rw [Shell.createLoop] at h
    simp only at h
    split at h
    · cases h
    · exact (keepsRows_createNewDatabase w (chance.dis i) (chance.now i)).trans (ih h)

/-- A run of the shell only adds rows behind those that it found. -/
theorem keepsRows_run {outcome : Shell.Outcome}
    (hquoted : ∀ info ∈ Shell.missing host opts dir w, info.WellQuoted)
    (h : Shell.run host stray opts dir chance w = some outcome) :
    KeepsRows w.registry outcome.world.registry := by
  unfold Shell.run at h
  split at h
  · obtain ⟨existing, hload, h⟩ := Option.bind_eq_some_iff.mp h
    obtain ⟨⟨w', map⟩, hloop, h⟩ := Option.bind_eq_some_iff.mp h
    obtain ⟨registry, -, h⟩ := Option.bind_eq_some_iff.mp h
    obtain rfl := Option.some.inj h
    obtain ⟨-, rfl⟩ := MasterDB.loadExisting_eq_some_iff.mp hload
    have hrepair : (MasterDB.recreateMissing host stray (Shell.importStep host opts dir w)
        (Shell.missing host opts dir w)).registry = (Shell.importStep host opts dir w).registry :=
      registry_recreateMissing hquoted
    have hcreated := keepsRows_createLoop hloop
    rw [MasterDB.getMissing_numberedFrom] at hcreated
    exact (keepsRows_importStep w).trans (hrepair ▸ hcreated)
  · obtain rfl := Option.some.inj h
    exact .refl _

end Registry

/-! ## The tables -/

/-- What is written back to the places keeps the rows that were there. -/
theorem prefix_written {places : List Bytes} {m_data_dbs : List Shard} {tables : Bytes → Shard}
    (h : List.Forall₂ (fun place table => tables place <+: table) places m_data_dbs)
    (place : Bytes) : tables place <+: written tables places m_data_dbs place := by
  have hfold {l : List (Bytes × Shard)} (hl : ∀ p ∈ l, tables p.1 <+: p.2) {t : Bytes → Shard}
      (ht : tables place <+: t place) :
      tables place <+: l.foldl (fun t p => Function.update t p.1 p.2) t place := by
    induction l generalizing t with
    | nil => exact ht
    | cons p l ih =>
      refine ih (fun q hq => hl q (List.mem_cons_of_mem p hq)) ?_
      change tables place <+: Function.update t p.1 p.2 place
      rw [Function.update_apply]
      split
      · next heq => exact heq ▸ hl p List.mem_cons_self
      · exact ht
  exact hfold (fun p hp => List.forall₂_zip h hp) (List.prefix_refl _)

/-- The places that are written hold what was written, when they are different. -/
theorem written_of_mem {places : List Bytes} {m_data_dbs : List Shard} {tables : Bytes → Shard}
    (hnodup : places.Nodup) {place : Bytes} {table : Shard}
    (h : (place, table) ∈ places.zip m_data_dbs) :
    written tables places m_data_dbs place = table := by
  induction places generalizing m_data_dbs tables with
  | nil => simp at h
  | cons other places ih =>
    cases m_data_dbs with
    | nil => simp at h
    | cons head m_data_dbs =>
      obtain ⟨hother, hnodup⟩ := List.nodup_cons.mp hnodup
      rw [List.zip_cons_cons, List.mem_cons] at h
      rw [written, List.zip_cons_cons, List.foldl_cons]
      rcases h with heq | h
      · obtain ⟨rfl, rfl⟩ := Prod.mk.inj heq
        -- the other places are written later, and none of them is this one
        have hkeep {l : List (Bytes × Shard)} (hl : place ∉ l.map (·.1)) {t : Bytes → Shard} :
            l.foldl (fun t p => Function.update t p.1 p.2) t place = t place := by
          induction l generalizing t with
          | nil => rfl
          | cons p l ih =>
            rw [List.map_cons, List.mem_cons, not_or] at hl
            rw [List.foldl_cons, ih hl.2]
            exact Function.update_of_ne hl.1 _ _
        rw [hkeep fun hmem => ?_]
        · exact Function.update_self _ _ _
        · obtain ⟨p, hp, rfl⟩ := List.mem_map.mp hmem
          exact hother (List.of_mem_zip hp).1
      · exact ih hnodup h

section Start

variable {s : Installation} {life : Life} {w w' : Construction.World} {started : Started}
  {p : Process}

/-- The shards that the service starts with. -/
theorem m_data_dbs_startUp {registered : List RegisteredShard} {service : Service}
    (h : startUp registered = .ok service) :
    service.data_storage.m_data_dbs = (openedShards registered).map (·.shard) := by
  rw [startUp, boot, DataStorage.loadAllIdentifiers, flatMap_rows_opened, foldlM_loadRow_eq] at h
  cases h
  exact m_data_dbs_opened registered

theorem openedShards_registered (existing_dbs : List (ℤ × DatabaseInfo)) :
    (openedShards (s.registered life existing_dbs)).map (·.shard) =
      (openPlaces life existing_dbs).map s.tables := by
  simp only [openedShards, registered, openPlaces, List.filter_map, List.map_map]
  rfl

/-- A start that comes to the server loop. -/
theorem startBehind_eq_some (h : s.startBehind life w = some started) :
    MasterDB.loadExisting (MasterDB.ensureOpen life.host w) = some started.existing_dbs ∧
      startUp (s.registered life started.existing_dbs) = .ok started.service ∧
      started.world.registry = (MasterDB.ensureOpen life.host w).registry ∧
      (openPlaces life started.existing_dbs).Nodup := by
  obtain ⟨existing_dbs, hload, h⟩ := Option.bind_eq_some_iff.mp h
  split at h
  · next hnodup =>
    obtain ⟨service, hservice, -⟩ := startUp_eq (s.registered life existing_dbs)
    rw [hservice] at h
    obtain rfl := Option.some.inj h
    exact ⟨hload, hservice, rfl, hnodup⟩
  · cases h

/-- The two ways a start goes. -/
theorem start_cases {r : Construction.World × Option Started} (h : s.start life = some r) :
    ∃ outcome, Shell.run life.host life.stray life.opts life.dir life.chance s.world =
        some outcome ∧
      (r = (outcome.world, none) ∨
        ∃ started, s.startBehind life outcome.world = some started ∧
          r = (started.world, some started)) := by
  obtain ⟨outcome, hrun, h⟩ := Option.bind_eq_some_iff.mp h
  refine ⟨outcome, hrun, ?_⟩
  split at h
  · obtain ⟨started, hstarted, rfl⟩ := Option.map_eq_some_iff.mp h
    exact .inr ⟨started, hstarted, rfl⟩
  · exact .inl (Option.some.inj h).symm

/-- The shards of the process are at the open places, and each has the rows from before the run in
front. -/
theorem forall₂_runs (h : s.startBehind life w = some started) (hrun : started.runs life = some p) :
    List.Forall₂ (fun place table => s.tables place <+: table)
      (openPlaces life started.existing_dbs) p.service.data_storage.m_data_dbs := by
  obtain ⟨-, hservice, -⟩ := startBehind_eq_some h
  have hstart : started.service.data_storage.m_data_dbs =
      (openPlaces life started.existing_dbs).map s.tables :=
    (m_data_dbs_startUp hservice).trans (openedShards_registered _)
  have hbegin : Prefixes ((openPlaces life started.existing_dbs).map s.tables)
      started.service.data_storage.m_data_dbs := by
    rw [hstart]
    exact List.forall₂_same.mpr fun _ _ => List.prefix_refl _
  exact List.forall₂_map_left_iff.mp
    (Process.keeps_runFrom (P := fun service => Prefixes _ service.data_storage.m_data_dbs)
      prefixes_handlerOp hbegin hrun)

/-- What the process has in its shards when it ends is in the file of a registered shard. -/
theorem exists_of_mem_identifiers (h : s.startBehind life w = some started)
    (hrun : started.runs life = some p) {identifier : Bytes}
    (hmem : identifier ∈ p.service.data_storage.identifiers) :
    ∃ k info, (k, info) ∈ started.existing_dbs ∧
      identifier ∈ identifiersOf ((s.ended life started p).tables (place life info)) := by
  obtain ⟨-, -, -, hnodup⟩ := startBehind_eq_some h
  have hlength := (forall₂_runs h hrun).length_eq
  obtain ⟨row, hrow, hid⟩ := DataStorage.mem_identifiers.mp hmem
  obtain ⟨shard, hshard, hrow⟩ := List.mem_flatten.mp hrow
  obtain ⟨i, hi, rfl⟩ := List.mem_iff_getElem.mp hshard
  have hi' : i < (openPlaces life started.existing_dbs).length := by omega
  obtain ⟨⟨k, info⟩, hdb, hplace⟩ := List.mem_map.mp (List.getElem_mem hi')
  refine ⟨k, info, List.mem_of_mem_filter hdb, ?_⟩
  have hzip : (place life info, p.service.data_storage.m_data_dbs[i]) ∈
      (openPlaces life started.existing_dbs).zip p.service.data_storage.m_data_dbs := by
    refine List.mem_iff_getElem.mpr ⟨i, by simp; omega, ?_⟩
    rw [List.getElem_zip]
    exact Prod.ext hplace.symm rfl
  have htable : (s.ended life started p).tables (place life info) =
      p.service.data_storage.m_data_dbs[i] := written_of_mem hnodup hzip
  rw [htable]
  exact List.mem_filterMap.mpr ⟨row, hrow, hid⟩

end Start

/-! ## Any number of runs -/

/-- No row of the registry is lost, and no row of a registered table. -/
structure Extends (locate : Bytes → Bytes) (s s' : Installation) : Prop where
  registry : KeepsRows s.world.registry s'.world.registry
  tables : ∀ info ∈ s.world.registry.infos,
    s.tables (locate info.filePos) <+: s'.tables (locate info.filePos)

/-- The registered shard of a number stays under it. -/
theorem KeepsRows.exists_getElem? {reg reg' : Registry} (h : KeepsRows reg reg') {i : ℕ}
    {info : DatabaseInfo} (hi : reg.infos[i]? = some info) :
    ∃ info', reg'.infos[i]? = some info' ∧ info'.uuid = info.uuid ∧
      info'.creationDate = info.creationDate ∧ info'.filePos = info.filePos := by
  rw [Registry.infos, List.getElem?_map, Option.map_eq_some_iff] at hi
  obtain ⟨row, hrow, rfl⟩ := hi
  have hkey : (reg'.rows.map rowKey)[i]? = some (rowKey row) := by
    obtain ⟨t, ht⟩ := h
    rw [← ht, List.getElem?_append_left, List.getElem?_map, hrow]
    · rfl
    · rw [List.length_map]
      exact (List.getElem?_eq_some_iff.mp hrow).1
  rw [List.getElem?_map, Option.map_eq_some_iff] at hkey
  obtain ⟨row', hrow', heq⟩ := hkey
  refine ⟨row'.info, ?_, ?_⟩
  · rw [Registry.infos, List.getElem?_map, hrow']
    rfl
  · simp only [rowKey, Prod.mk.injEq] at heq
    exact heq.2

theorem Extends.refl (locate : Bytes → Bytes) (s : Installation) : Extends locate s s :=
  ⟨.refl _, fun _ _ => List.prefix_refl _⟩

theorem Extends.trans {locate : Bytes → Bytes} {s t u : Installation} (h : Extends locate s t)
    (h' : Extends locate t u) : Extends locate s u where
  registry := h.registry.trans h'.registry
  tables info hinfo := by
    obtain ⟨i, hi⟩ := List.mem_iff_getElem?.mp hinfo
    obtain ⟨info', hi', -, -, hpos⟩ := h.registry.exists_getElem? hi
    have hlater := h'.tables info' (List.mem_of_getElem? hi')
    rw [hpos] at hlater
    exact (h.tables info hinfo).trans hlater

/-- A start whose repairs go well only adds rows to the registry. -/
theorem keepsRows_start {s : Installation} {life : Life} {w : Construction.World}
    {r : Option Started}
    (hquoted : ∀ info ∈ Shell.missing life.host life.opts life.dir s.world, info.WellQuoted)
    (h : s.start life = some (w, r)) : KeepsRows s.world.registry w.registry := by
  obtain ⟨outcome, hrun, heq⟩ := start_cases h
  have hshell := keepsRows_run hquoted hrun
  rcases heq with heq | ⟨started, hstarted, heq⟩
  · obtain ⟨rfl, -⟩ := Prod.mk.inj heq
    exact hshell
  · obtain ⟨rfl, -⟩ := Prod.mk.inj heq
    rw [(startBehind_eq_some hstarted).2.2.1]
    exact hshell.trans (keepsRows_ensureOpen _ _)

/-- Nothing is lost in a step. -/
theorem extends_next {locate : Bytes → Bytes} {s t : Installation} {e : Event}
    (hsafe : s.Undamaged locate e) (h : s.next e = some t) : Extends locate s t := by
  cases e with
  | outside disk tables =>
    obtain rfl := Option.some.inj h
    exact ⟨.refl _, fun info hinfo => hsafe info hinfo ▸ List.prefix_refl _⟩
  | live life =>
    obtain ⟨⟨w, r⟩, hstart, h⟩ := Option.bind_eq_some_iff.mp h
    have hrows := keepsRows_start hsafe.2 hstart
    cases r with
    | none =>
      obtain rfl := Option.some.inj h
      exact ⟨hrows, fun _ _ => List.prefix_refl _⟩
    | some started =>
      obtain ⟨p, hrun, rfl⟩ := Option.map_eq_some_iff.mp h
      obtain ⟨outcome, -, heq | ⟨_, hstarted, heq⟩⟩ := start_cases hstart
      · cases heq
      · obtain ⟨rfl, hsome⟩ := Prod.mk.inj heq
        obtain rfl := Option.some.inj hsome
        exact ⟨hrows, fun info _ => prefix_written (forall₂_runs hstarted hrun) _⟩

/-- Nothing is lost in any number of runs. -/
theorem extends_of_reachable {locate : Bytes → Bytes} {s t : Installation}
    (h : (lives s).ReachableUnder (fun u e => u.Undamaged locate e) t) : Extends locate s t :=
  h.invariant (fun _ hu => hu ▸ .refl locate s)
    fun _ _ _ hs hsafe hstep => hs.trans (extends_next hsafe hstep)

/-- The entries of the map are the rows by their numbers. -/
theorem mem_numberedFrom_iff {index k : ℤ} {infos : List DatabaseInfo} {info : DatabaseInfo} :
    (k, info) ∈ MasterDB.numberedFrom index infos ↔
      ∃ i : ℕ, k = index + i ∧ infos[i]? = some info := by
  induction infos generalizing index with
  | nil => simp [MasterDB.numberedFrom]
  | cons other infos ih =>
    rw [MasterDB.numberedFrom, List.mem_cons, ih]
    constructor
    · rintro (heq | ⟨i, rfl, hi⟩)
      · obtain ⟨rfl, rfl⟩ := Prod.mk.inj heq
        exact ⟨0, by simp, rfl⟩
      · exact ⟨i + 1, by push_cast; omega, hi⟩
    · rintro ⟨_ | i, rfl, hi⟩
      · obtain rfl := Option.some.inj hi
        simp
      · exact .inr ⟨i, by push_cast; omega, hi⟩

/-- What is in the files that are opened and read to their end is answered `DEFINITELY_YES` as long
as the run lasts. -/
theorem query_of_mem {s : Installation} {life : Life} {w : Construction.World} {started : Started}
    {p : Process} (h : s.startBehind life w = some started) (hrun : started.runs life = some p)
    {k : ℤ} {info : DatabaseInfo} (hdb : (k, info) ∈ started.existing_dbs)
    (hopens : life.opens info.filePos = true) (hselect : life.select (place life info) = .complete)
    {identifier : Bytes} (hmem : identifier ∈ identifiersOf (s.tables (place life info))) :
    p.service.query_engine.query identifier = .ok .DEFINITELY_YES := by
  obtain ⟨-, hservice, -⟩ := startBehind_eq_some h
  obtain ⟨service, hstart, hindex⟩ := startUp_eq (s.registered life started.existing_dbs)
  obtain rfl : service = started.service := Except.ok.inj (hstart.symm.trans hservice)
  -- the identifier is among those that loading shows to the index
  have hshown : identifier ∈ shownIdentifiers (s.registered life started.existing_dbs) := by
    obtain ⟨row, hrow, hid⟩ := List.mem_filterMap.mp hmem
    refine List.mem_filterMap.mpr ⟨row, List.mem_flatMap.mpr ⟨_, List.mem_map_of_mem hdb, ?_⟩, hid⟩
    simp only [RegisteredShard.shown, hopens, hselect, if_true]
    exact hrow
  have hmember : identifier ∈ started.service.query_engine.members := by
    rw [hindex, QueryEngine.mem_members_foldl_inserted]
    exact .inr hshown
  -- and no step of the process takes it out again
  have hkept : identifier ∈ p.service.query_engine.members :=
    Process.keeps_runFrom (P := fun service => identifier ∈ service.query_engine.members)
      (fun hin hop => (grows_handlerOp hop).members hin) hmember hrun
  rw [QueryEngine.query_eq_ok, QueryEngine.answer_eq_definitelyYes_iff.mpr hkept]

/-- An identifier that is in the tables when a run ends, however it ends, belongs to a registered
shard. Any number of runs later this is the shard of the same number, identifier and file, and where
its file is opened and read to the end, the identifier is answered `DEFINITELY_YES` throughout, by
an index whose calls do not overlap. -/
theorem found_after_restarts {s s' : Installation} {life later : Life} {w w' : Construction.World}
    {started started' : Started} {p p' : Process} (hstart : s.start life = some (w, some started))
    (hrun : started.runs life = some p)
    (hreach : (lives (s.ended life started p)).ReachableUnder
      (fun t e => t.Undamaged life.host.locate e) s')
    (hsafe : s'.Undamaged life.host.locate (.live later))
    (hstart' : s'.start later = some (w', some started')) (hrun' : started'.runs later = some p')
    {identifier : Bytes} (hmem : identifier ∈ p.service.data_storage.identifiers) :
    ∃ k info info', (k, info) ∈ started.existing_dbs ∧ (k, info') ∈ started'.existing_dbs ∧
      info'.uuid = info.uuid ∧ info'.creationDate = info.creationDate ∧
      info'.filePos = info.filePos ∧
      (later.opens info.filePos = true → later.select (place later info) = .complete →
        p'.service.query_engine.query identifier = .ok .DEFINITELY_YES) := by
  obtain ⟨outcome, -, heq | ⟨_, hbehind, heq⟩⟩ := start_cases hstart
  · cases heq
  obtain ⟨-, rfl⟩ : w = _ ∧ started = _ := by simpa using heq
  obtain ⟨outcome', -, heq' | ⟨_, hbehind', heq'⟩⟩ := start_cases hstart'
  · cases heq'
  obtain ⟨rfl, rfl⟩ : w' = _ ∧ started' = _ := by simpa using heq'
  obtain ⟨k, info, hdb, hstored⟩ := exists_of_mem_identifiers hbehind hrun hmem
  have hextends := extends_of_reachable hreach
  -- the number leads to the row of the registry, and from there to the one of the later run
  obtain ⟨hload, -, hregistry, -⟩ := startBehind_eq_some hbehind
  obtain ⟨-, hnumbered⟩ := MasterDB.loadExisting_eq_some_iff.mp hload
  rw [← hregistry] at hnumbered
  obtain ⟨hload', -, hregistry', -⟩ := startBehind_eq_some hbehind'
  obtain ⟨-, hnumbered'⟩ := MasterDB.loadExisting_eq_some_iff.mp hload'
  rw [← hregistry'] at hnumbered'
  obtain ⟨i, rfl, hi⟩ := mem_numberedFrom_iff.mp (hnumbered ▸ hdb)
  obtain ⟨info', hi', huuid, hdate, hpos⟩ :=
    (hextends.registry.trans (keepsRows_start hsafe.2 hstart')).exists_getElem? hi
  have hdb' : (1 + (i : ℤ), info') ∈ started'.existing_dbs :=
    hnumbered' ▸ mem_numberedFrom_iff.mpr ⟨i, rfl, hi'⟩
  refine ⟨_, info, info', hdb, hdb', huuid, hdate, hpos, fun hopens hselect => ?_⟩
  -- its table still has the row
  have hplace : place later info' = place life info := by
    rw [place, place, hsafe.1, hpos]
  have hprefix : (s.ended life started p).tables (place life info) <+:
      s'.tables (place later info') := by
    rw [hplace]
    exact hextends.tables info (List.mem_of_getElem? hi)
  have hplace' : place later info' = place later info := by rw [place, place, hpos]
  refine query_of_mem hbehind' hrun' hdb' (hpos ▸ hopens) (hplace' ▸ hselect) ?_
  obtain ⟨rest, hrest⟩ := hprefix
  rw [← hrest, identifiersOf, List.filterMap_append]
  exact List.mem_append_left _ hstored

/-! ## A file that is copied away and back -/

/-- A run that ends as soon as the server loop begins. -/
def shortLife : Life where
  host := MasterDB.plainHost
  stray := fun _ _ w => w
  opts := Shell.defaultOptions
  dir := Shell.emptyDir
  chance := Shell.zeros
  opens := fun _ => true
  select := fun _ => .complete
  m_server_fd := 3
  events := []

/-- A row with an identifier. -/
def storedRow : Db.Row where
  uuid := none
  identifier := some (bindText (lit "a"))
  pwk := none

/-- One registered file with one row. -/
def oneFile : Installation where
  world := ⟨Shell.oneRow 1 MasterDB.lostInfo, fun _ => some ⟨none⟩⟩
  tables := fun place => if place = lit "/db/copy.db" then [storedRow] else []

/-- Only the registered file is left. -/
def onlyCopy (place : Bytes) : Option DbFile :=
  if place = lit "/db/copy.db" then some ⟨none⟩ else none

/-- A start that finds its files. -/
theorem exists_start {s : Installation} {life : Life} {outcome : Shell.Outcome}
    {existing_dbs : List (ℤ × DatabaseInfo)}
    (hrun : Shell.run life.host life.stray life.opts life.dir life.chance s.world = some outcome)
    (hstatus : outcome.status = 0)
    (hload : MasterDB.loadExisting (MasterDB.ensureOpen life.host outcome.world) =
      some existing_dbs) (hnodup : (openPlaces life existing_dbs).Nodup) :
    ∃ started, s.start life = some (started.world, some started) ∧
      startUp (s.registered life existing_dbs) = .ok started.service ∧
      started.existing_dbs = existing_dbs ∧
      started.world.registry = (MasterDB.ensureOpen life.host outcome.world).registry := by
  obtain ⟨service, hservice, -⟩ := startUp_eq (s.registered life existing_dbs)
  refine ⟨⟨withFiles (MasterDB.ensureOpen life.host outcome.world) (openPlaces life existing_dbs),
    existing_dbs, service⟩, Option.bind_eq_some_iff.mpr ⟨outcome, hrun, ?_⟩, hservice, rfl, rfl⟩
  have hbehind : s.startBehind life outcome.world =
      some ⟨withFiles (MasterDB.ensureOpen life.host outcome.world) (openPlaces life existing_dbs),
        existing_dbs, service⟩ := by
    refine Option.bind_eq_some_iff.mpr ⟨existing_dbs, hload, ?_⟩
    rw [if_pos hnodup, hservice]
  rw [if_pos hstatus, hbehind]
  rfl

/-- The short run finds its one registered file. -/
theorem exists_start_shortLife {s : Installation}
    (hrun : ∃ outcome : Shell.Outcome,
      Shell.run shortLife.host shortLife.stray shortLife.opts shortLife.dir shortLife.chance
        s.world = some outcome ∧ outcome.status = 0 ∧
      outcome.world.registry = Shell.oneRow 1 MasterDB.lostInfo) :
    ∃ started, s.start shortLife = some (started.world, some started) ∧
      started.world.registry = Shell.oneRow 1 MasterDB.lostInfo ∧
      started.service.data_storage.m_data_dbs = [s.tables (lit "/db/copy.db")] := by
  obtain ⟨⟨status, ⟨registry, disk⟩, mapExisting, again⟩, hrun, rfl, rfl⟩ := hrun
  obtain ⟨started, hstart, hservice, -, hregistry⟩ := exists_start hrun rfl rfl (by decide)
  refine ⟨started, hstart, hregistry, ?_⟩
  exact (m_data_dbs_startUp hservice).trans (openedShards_registered _)

/-- All other files are deleted between two runs, and the identifier is found again. -/
theorem found_after_restarts_onlyCopy : ∃ started s started' p',
    oneFile.start shortLife = some (started.world, some started) ∧
    s = oneFile.ended shortLife started (.start 3 started.service) ∧
    (s.changed onlyCopy s.tables).start shortLife = some (started'.world, some started') ∧
    started'.runs shortLife = some p' ∧
    p'.service.query_engine.query (lit "a") = .ok .DEFINITELY_YES := by
  obtain ⟨started, hstart, hregistry, hdbs⟩ :=
    @exists_start_shortLife oneFile ⟨_, rfl, rfl, rfl⟩
  have hworld : (oneFile.ended shortLife started (.start 3 started.service)).world.registry =
      Shell.oneRow 1 MasterDB.lostInfo := hregistry
  generalize hs : oneFile.ended shortLife started (.start 3 started.service) = s at hworld
  obtain ⟨started', hstart', -, -⟩ :=
    @exists_start_shortLife (s.changed onlyCopy s.tables) (by
      simp only [changed, hworld]
      exact ⟨_, rfl, rfl, rfl⟩)
  have hsafe : s.Undamaged id (.outside onlyCopy s.tables) := by
    intro info hinfo
    rw [hworld] at hinfo
    obtain rfl := List.mem_singleton.mp hinfo
    rfl
  have hreach : (lives s).ReachableUnder (fun t e => t.Undamaged id e)
      (s.changed onlyCopy s.tables) := .step (.init rfl) hsafe rfl
  have hlater : (s.changed onlyCopy s.tables).Undamaged id (.live shortLife) := by
    refine ⟨rfl, fun info hinfo => ?_⟩
    simp only [changed, hworld] at hinfo
    cases hinfo
  have hmem : lit "a" ∈ (Process.start 3 started.service).service.data_storage.identifiers := by
    rw [DataStorage.mem_identifiers]
    refine ⟨storedRow, ?_, rfl⟩
    change storedRow ∈ started.service.data_storage.m_data_dbs.flatten
    rw [hdbs]
    exact List.mem_singleton_self _
  obtain ⟨k, info, info', -, -, -, -, -, hfound⟩ :=
    found_after_restarts hstart rfl (hs ▸ hreach) hlater hstart' rfl hmem
  exact ⟨started, s, started', _, hstart, hs.symm, hstart', rfl, hfound rfl rfl⟩

end Main
