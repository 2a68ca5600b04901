import Akkon.Construction.Repair

/-!
# `shell::Shell`

`Shell::run` from where its arguments are parsed: the registry is opened, the files of the
directory are imported, the missing ones recreated, and databases are created up to the number of
the option `-c`.

* `createLoop_eq_some`, `infos_createdWorld`: the loop extends the map and the registry in step;
* `keepsPromise_iff`: exactly when a run leaves the number of rows that was asked for and a map that
  is the registry.
-/

namespace Shell

open Cpp Construction Construction.MasterDB

/-- The options that the arguments of a run give. -/
structure Options where
  /-- The value of `-c`, an `int`. -/
  numDatabases : ℤ
  noImport : Bool
  min_le : -2 ^ 31 ≤ numDatabases
  le_max : numDatabases < 2 ^ 31

/-- What a run gets from the random device and the clock, for each index of its loop. -/
structure Chance where
  dis : ℤ → ℕ → Fin 16
  now : ℤ → Timestamp

/-- The identifier that is generated at an index. -/
def Chance.uuid (chance : Chance) (i : ℤ) : Bytes := generateUUID (chance.dis i)

/-- `map[key] = value`. -/
def assign : List (ℤ × DatabaseInfo) → ℤ → DatabaseInfo → List (ℤ × DatabaseInfo)
  | [], key, value => [(key, value)]
  | (k, v) :: map, key, value =>
    if key < k then (key, value) :: (k, v) :: map
    else if key = k then (key, value) :: map
    else (k, v) :: assign map key value

/-- The state when a run returns. -/
structure Outcome where
  status : ℤ
  world : World
  mapExisting : List (ℤ × DatabaseInfo)
  /-- The registry as it is loaded again for the output. -/
  registry : List (ℤ × DatabaseInfo)

section

variable (host : Host) (stray : Stray) (opts : Options) (dir : Directory) (chance : Chance)

/-- The registry is opened and, unless `--no-import` is given, the directory is scanned. -/
def importStep (w : World) : World :=
  if opts.noImport then ensureOpen host w else scanAndImportUnmapped host (ensureOpen host w) dir

/-- The creations that are left from an index on: `none` stands for the undefined behaviour of `++i`
at the largest `int`. -/
def createLoop : ℕ → ℤ → World → List (ℤ × DatabaseInfo) → Option (World × List (ℤ × DatabaseInfo))
  | 0, _, w, mapExisting => some (w, mapExisting)
  | n + 1, i, w, mapExisting =>
    let (w', info) := createNewDatabase host stray w (chance.uuid i) (chance.now i)
    if i = 2 ^ 31 - 1 then none else createLoop n (i + 1) w' (assign mapExisting i info)

/-- `Shell::run`. -/
def run (w : World) : Option Outcome :=
  if host.opens host.masterPath then do
    let w := importStep host opts dir w
    let mapExisting ← loadExisting w
    let w := recreateMissing host stray w (getMissing host w mapExisting)
    let existingCount : ℤ := mapExisting.length
    let (w, mapExisting) ← createLoop host stray chance (opts.numDatabases - existingCount).toNat
      (existingCount + 1) w mapExisting
    let registry ← loadExisting w
    pure { status := 0, world := w, mapExisting, registry }
  else
    -- `isOpen` is false
    some { status := 1, world := w, mapExisting := [], registry := [] }

/-- The rows after the import step, as the loop counts them. -/
def existing (w : World) : ℤ := (importStep host opts dir w).registry.rows.length

/-- The rows that the loop creates from an index on. -/
def created : ℕ → ℤ → List DatabaseInfo
  | 0, _ => []
  | n + 1, i => newInfo host (chance.uuid i) (chance.now i) :: created n (i + 1)

/-- The world after the creations that are left from an index on. -/
def createdWorld : ℕ → ℤ → World → World
  | 0, _, w => w
  | n + 1, i, w =>
    createdWorld n (i + 1) (createNewDatabase host stray w (chance.uuid i) (chance.now i)).1

/-- What the option `-c` promises. -/
structure Promised (w : World) (outcome : Outcome) : Prop where
  status : outcome.status = 0
  length : outcome.world.registry.rows.length = max (existing host opts dir w) opts.numDatabases
  /-- The rows after the import step come first. -/
  kept : (importStep host opts dir w).registry.rows <+: outcome.world.registry.rows
  /-- The map in memory is the registry. -/
  loaded : loadExisting outcome.world = some outcome.mapExisting
  printed : outcome.registry = outcome.mapExisting
  keys : outcome.mapExisting.map (·.1) =
    (List.range (max (existing host opts dir w) opts.numDatabases).toNat).map
      fun i : ℕ => (1 : ℤ) + i

/-- Each generated identifier differs from those in the registry, the ones created before
included. -/
def Fresh (w : World) : Prop :=
  ∀ i, existing host opts dir w < i → i ≤ opts.numDatabases →
    chance.uuid i ∉ (importStep host opts dir w).registry.uuids ∧
      ∀ j, existing host opts dir w < j → j < i → chance.uuid j ≠ chance.uuid i

end

variable {host : Host} {stray : Stray} {opts : Options} {dir : Directory} {chance : Chance}

/-! ## The map -/

/-- A key behind all others is added at the end. -/
theorem assign_of_forall_lt {map : List (ℤ × DatabaseInfo)} {key : ℤ} (value : DatabaseInfo)
    (h : ∀ p ∈ map, p.1 < key) : assign map key value = map ++ [(key, value)] := by
  induction map with
  | nil => rfl
  | cons p map ih =>
    have hp := h p List.mem_cons_self
    rw [assign, if_neg (by omega), if_neg (by omega),
      ih fun q hq => h q (List.mem_cons_of_mem p hq)]
    rfl

theorem lt_of_mem_numberedFrom {index : ℤ} {infos : List DatabaseInfo} {p : ℤ × DatabaseInfo}
    (h : p ∈ numberedFrom index infos) : p.1 < index + infos.length := by
  have hkey : p.1 ∈ (numberedFrom index infos).map (·.1) := List.mem_map_of_mem h
  rw [map_fst_numberedFrom] at hkey
  obtain ⟨k, hk, heq⟩ := List.mem_map.mp hkey
  have hlt := List.mem_range.mp hk
  omega

/-! ## The loop -/

/-- The loop adds what it creates to the map. -/
theorem createLoop_eq_some (hopens : ∀ path, host.opens path = true) (n : ℕ) (i : ℤ) (w : World)
    {map : List (ℤ × DatabaseInfo)} (hmap : ∀ p ∈ map, p.1 < i) (h : n = 0 ∨ i + n < 2 ^ 31) :
    createLoop host stray chance n i w map =
      some (createdWorld host stray chance n i w,
        map ++ numberedFrom i (created host chance n i)) := by
  induction n generalizing i w map with
  | zero => simp [createLoop, createdWorld, created, numberedFrom]
  | succ n ih =>
    have hlast : i ≠ 2 ^ 31 - 1 := by omega
    have hinfo : (createNewDatabase host stray w (chance.uuid i) (chance.now i)).2 =
        newInfo host (chance.uuid i) (chance.now i) := by
      rw [Chance.uuid, createNewDatabase_eq host stray w _ _ (hopens _)]
    -- the keys stay below the next index, so the map stays in order
    have hkeys : ∀ p ∈ map ++ [(i, newInfo host (chance.uuid i) (chance.now i))], p.1 < i + 1 := by
      intro p hp
      rcases List.mem_append.mp hp with hp | hp
      · exact (hmap p hp).trans (Int.lt_succ i)
      · rw [List.mem_singleton.mp hp]
        exact Int.lt_succ i
    rw [createLoop]
    simp only [if_neg hlast, hinfo, assign_of_forall_lt _ hmap]
    rw [ih _ _ hkeys (by omega), createdWorld, created, numberedFrom, List.append_assoc]
    rfl

/-- The loop that creates the last index overflows. -/
theorem createLoop_eq_none (n : ℕ) (i : ℤ) (w : World) (map : List (ℤ × DatabaseInfo)) (hn : 0 < n)
    (h : i + n = 2 ^ 31) : createLoop host stray chance n i w map = none := by
  induction n generalizing i w map with
  | zero => cases hn
  | succ n ih =>
    rw [createLoop]
    by_cases hlast : i = 2 ^ 31 - 1
    · exact if_pos hlast
    · simp only [if_neg hlast]
      exact ih _ _ _ (by omega) (by omega)

/-- The registry after the loop: one insertion for each index. -/
theorem infos_createdWorld (hopens : ∀ path, host.opens path = true) (n : ℕ) (i : ℤ) (w : World) :
    (createdWorld host stray chance n i w).registry.infos =
      UniqueTable.insertAll (·.uuid) w.registry.infos (created host chance n i) := by
  induction n generalizing i w with
  | zero => rfl
  | succ n ih =>
    rw [createdWorld, ih, created, UniqueTable.insertAll_cons, ← Registry.infos_insert, Chance.uuid,
      createNewDatabase_eq host stray w _ _ (hopens _)]

/-- What every insertion keeps true of the registry stays true. -/
theorem createdWorld_invariant {P : Registry → Prop} (hopens : ∀ path, host.opens path = true)
    (hinsert : ∀ reg info, P reg → P (reg.insert info)) (n : ℕ) (i : ℤ) {w : World}
    (h : P w.registry) : P (createdWorld host stray chance n i w).registry := by
  induction n generalizing i w with
  | zero => exact h
  | succ n ih =>
    rw [createdWorld]
    apply ih
    rw [Chance.uuid, createNewDatabase_eq host stray w _ _ (hopens _)]
    exact hinsert _ _ h

theorem prefix_createdWorld (hopens : ∀ path, host.opens path = true) (n : ℕ) (i : ℤ) (w : World) :
    w.registry.rows <+: (createdWorld host stray chance n i w).registry.rows :=
  createdWorld_invariant (P := fun reg => w.registry.rows <+: reg.rows) hopens
    (fun reg info h => h.trans (reg.prefix_insert info)) n i (List.prefix_refl _)

@[simp]
theorem length_created (n : ℕ) (i : ℤ) : (created host chance n i).length = n := by
  induction n generalizing i with
  | zero => rfl
  | succ n ih => rw [created, List.length_cons, ih]

theorem mem_created_iff {n : ℕ} {i : ℤ} {info : DatabaseInfo} : info ∈ created host chance n i ↔
    ∃ j, i ≤ j ∧ j < i + n ∧ info = newInfo host (chance.uuid j) (chance.now j) := by
  induction n generalizing i with
  | zero =>
    simp only [created, List.not_mem_nil, false_iff, not_exists]
    intro j hj
    omega
  | succ n ih =>
    rw [created, List.mem_cons, ih]
    constructor
    · rintro (rfl | ⟨j, hij, hj, rfl⟩)
      · exact ⟨i, le_refl i, by omega, rfl⟩
      · exact ⟨j, by omega, by omega, rfl⟩
    · rintro ⟨j, hij, hj, rfl⟩
      by_cases heq : j = i
      · exact .inl (by rw [heq])
      · exact .inr ⟨j, by omega, by omega, rfl⟩

theorem created_add (host : Host) (chance : Chance) (m n : ℕ) (i : ℤ) :
    created host chance (m + n) i =
    created host chance m i ++ created host chance n (i + m) := by
  induction m generalizing i with
  | zero => simp [created]
  | succ m ih =>
    have hsum : m + 1 + n = m + n + 1 := by omega
    have hindex : i + ((m + 1 : ℕ) : ℤ) = i + 1 + (m : ℤ) := by
      rw [Nat.cast_add, Nat.cast_one]
      omega
    rw [hsum, created, ih, created, hindex, List.cons_append]

/-- All creations get in when each identifier is new, in the table and among those before it. -/
theorem insertAll_created_iff (t : List DatabaseInfo) (n : ℕ) (i : ℤ) :
    UniqueTable.insertAll (·.uuid) t (created host chance n i) = t ++ created host chance n i ↔
      ∀ j, i ≤ j → j < i + n → chance.uuid j ∉ t.map (·.uuid) ∧
        ∀ k, i ≤ k → k < j → chance.uuid k ≠ chance.uuid j := by
  rw [UniqueTable.insertAll_eq_append_iff]
  constructor
  · intro h j hij hj
    -- the creations in front of the index, the one at it, and those behind
    obtain ⟨m, rfl⟩ : ∃ m : ℕ, j = i + m := ⟨(j - i).toNat, by omega⟩
    obtain ⟨r, rfl⟩ : ∃ r : ℕ, n = m + (r + 1) := ⟨n - m - 1, by omega⟩
    have hfree := h (created host chance m i)
      (newInfo host (chance.uuid (i + m)) (chance.now (i + m)))
      (created host chance r (i + m + 1)) (created_add host chance m (r + 1) i)
    rw [List.map_append, List.mem_append, not_or] at hfree
    refine ⟨hfree.1, fun k hik hkj heq => hfree.2 (List.mem_map.mpr ?_)⟩
    exact ⟨newInfo host (chance.uuid k) (chance.now k), mem_created_iff.mpr ⟨k, hik, hkj, rfl⟩, heq⟩
  · intro h front info back heq
    have hlength := congrArg List.length heq
    rw [length_created, List.length_append, List.length_cons] at hlength
    -- the entry stands behind as many creations as there are in front of it
    have hsplit := created_add host chance front.length (back.length + 1) i
    rw [← hlength, heq] at hsplit
    obtain ⟨hfront, hback⟩ := List.append_inj hsplit (by rw [length_created])
    obtain ⟨rfl, -⟩ := List.cons.inj hback
    obtain ⟨hnew, hne⟩ := h (i + front.length) (by omega) (by omega)
    rw [List.map_append, List.mem_append, not_or]
    refine ⟨hnew, fun hmem => ?_⟩
    obtain ⟨other, hother, hkey⟩ := List.mem_map.mp hmem
    rw [hfront] at hother
    obtain ⟨k, hik, hkj, rfl⟩ := mem_created_iff.mp hother
    exact hne k hik hkj hkey

/-! ## The run -/

/-- The rows that are missing after the import step. -/
def missing (host : Host) (opts : Options) (dir : Directory) (w : World) : List DatabaseInfo :=
  missingRows host (importStep host opts dir w)

/-- The world when the loop begins. -/
def recreated (host : Host) (stray : Stray) (opts : Options) (dir : Directory) (w : World) :
    World :=
  recreateMissing host stray (importStep host opts dir w) (missing host opts dir w)

/-- How many databases the loop creates. -/
def rounds (host : Host) (opts : Options) (dir : Directory) (w : World) : ℕ :=
  (opts.numDatabases - existing host opts dir w).toNat

/-- The world when a run is over. -/
def final (host : Host) (stray : Stray) (opts : Options) (dir : Directory) (chance : Chance)
    (w : World) : World :=
  createdWorld host stray chance (rounds host opts dir w) (existing host opts dir w + 1)
    (recreated host stray opts dir w)

/-- The numbers that a run counts to are numbers of an `int`. -/
def Countable (host : Host) (opts : Options) (dir : Directory) (w : World) : Prop :=
  existing host opts dir w < 2 ^ 31 ∧
    ¬(opts.numDatabases = 2 ^ 31 - 1 ∧ existing host opts dir w < opts.numDatabases)

theorem length_infos_importStep (w : World) :
    ((numberedFrom 1 (importStep host opts dir w).registry.infos).length : ℤ) =
      existing host opts dir w := by
  rw [length_numberedFrom, existing, Registry.length_infos]

/-- A run up to its loop. -/
theorem run_eq_createLoop (hopens : ∀ path, host.opens path = true) {w : World}
    (h : existing host opts dir w < 2 ^ 31) :
    run host stray opts dir chance w =
      (createLoop host stray chance (rounds host opts dir w) (existing host opts dir w + 1)
        (recreated host stray opts dir w)
        (numberedFrom 1 (importStep host opts dir w).registry.infos)).bind fun p =>
          (loadExisting p.1).map fun registry =>
            { status := 0, world := p.1, mapExisting := p.2, registry } := by
  have hload := loadExisting_eq_some (w := importStep host opts dir w)
    (by rw [existing] at h; omega)
  rw [run, if_pos (hopens _)]
  simp only [hload, Option.bind_eq_bind, Option.bind_some, getMissing_numberedFrom,
    length_infos_importStep, Option.map_eq_bind]
  rfl

theorem run_eq_none (hopens : ∀ path, host.opens path = true) {w : World}
    (h : ¬Countable host opts dir w) : run host stray opts dir chance w = none := by
  by_cases hcount : existing host opts dir w < 2 ^ 31
  · have hlast : opts.numDatabases = 2 ^ 31 - 1 ∧ existing host opts dir w < opts.numDatabases := by
      by_contra hlast
      exact h ⟨hcount, hlast⟩
    have hrounds : 0 < rounds host opts dir w := by
      rw [rounds]
      omega
    have hsum : existing host opts dir w + 1 + rounds host opts dir w = 2 ^ 31 := by
      rw [rounds]
      omega
    rw [run_eq_createLoop hopens hcount, createLoop_eq_none _ _ _ _ hrounds hsum]
    rfl
  · have hload : loadExisting (importStep host opts dir w) = none :=
      loadExisting_eq_none (by rw [existing] at hcount; omega)
    rw [run, if_pos (hopens _)]
    simp only [hload]
    rfl

/-- A run whose numbers do not overflow. -/
theorem run_eq_some (hopens : ∀ path, host.opens path = true) {w : World}
    (h : Countable host opts dir w) :
    run host stray opts dir chance w =
      (loadExisting (final host stray opts dir chance w)).map fun registry =>
        { status := 0
          world := final host stray opts dir chance w
          mapExisting := numberedFrom 1 (importStep host opts dir w).registry.infos ++
            numberedFrom (existing host opts dir w + 1)
              (created host chance (rounds host opts dir w) (existing host opts dir w + 1))
          registry } := by
  obtain ⟨hcount, hlast⟩ := h
  have hle := opts.le_max
  have hkeys : ∀ p ∈ numberedFrom 1 (importStep host opts dir w).registry.infos,
      p.1 < existing host opts dir w + 1 := by
    intro p hp
    have hlt := lt_of_mem_numberedFrom hp
    rw [← length_infos_importStep, length_numberedFrom]
    omega
  have hsum : rounds host opts dir w = 0 ∨
      existing host opts dir w + 1 + rounds host opts dir w < 2 ^ 31 := by
    rw [rounds]
    omega
  rw [run_eq_createLoop hopens hcount, createLoop_eq_some hopens _ _ _ hkeys hsum]
  rfl

/-! ## The promise of `-c` -/

theorem registry_recreated (stray : Stray) (hopens : ∀ path, host.opens path = true) {w : World}
    (h : ∀ info ∈ missing host opts dir w, info.WellQuoted) :
    (recreated host stray opts dir w).registry = (importStep host opts dir w).registry :=
  (recreateMissing_spec stray hopens _ h _).1

theorem prefix_final (stray : Stray) (opts : Options) (dir : Directory) (chance : Chance)
    (hopens : ∀ path, host.opens path = true) (w : World) :
    (recreated host stray opts dir w).registry.rows <+:
      (final host stray opts dir chance w).registry.rows :=
  prefix_createdWorld hopens _ _ _

/-- Fresh identifiers are those that the registry does not refuse. -/
theorem fresh_iff {w : World} : Fresh host opts dir chance w ↔
    UniqueTable.insertAll (·.uuid) (importStep host opts dir w).registry.infos
        (created host chance (rounds host opts dir w) (existing host opts dir w + 1)) =
      (importStep host opts dir w).registry.infos ++
        created host chance (rounds host opts dir w) (existing host opts dir w + 1) := by
  rw [insertAll_created_iff, Registry.map_uuid_infos, rounds, Fresh]
  constructor
  · intro h i hi hlt
    obtain ⟨hnew, hne⟩ := h i (by omega) (by omega)
    exact ⟨hnew, fun j hj hji => hne j (by omega) hji⟩
  · intro h i hi hle
    obtain ⟨hnew, hne⟩ := h i (by omega) (by omega)
    exact ⟨hnew, fun j hj hji => hne j (by omega) hji⟩

/-- The registry that a run with fresh identifiers leaves. -/
theorem infos_final_of_fresh (stray : Stray) (hopens : ∀ path, host.opens path = true) {w : World}
    (h : ∀ info ∈ missing host opts dir w, info.WellQuoted)
    (hfresh : Fresh host opts dir chance w) :
    (final host stray opts dir chance w).registry.infos =
      (importStep host opts dir w).registry.infos ++
        created host chance (rounds host opts dir w) (existing host opts dir w + 1) := by
  rw [final, infos_createdWorld hopens, registry_recreated stray hopens h]
  exact fresh_iff.mp hfresh

theorem length_final_of_fresh (stray : Stray) (hopens : ∀ path, host.opens path = true) {w : World}
    (h : ∀ info ∈ missing host opts dir w, info.WellQuoted)
    (hfresh : Fresh host opts dir chance w) :
    (final host stray opts dir chance w).registry.rows.length =
      max (existing host opts dir w) opts.numDatabases := by
  rw [← Registry.length_infos, infos_final_of_fresh stray hopens h hfresh, List.length_append,
    length_created, Nat.cast_add, Registry.length_infos, rounds, ← existing]
  omega

/-- A run with fresh identifiers returns, and the map it leaves is the registry. -/
theorem run_of_fresh (stray : Stray) (hopens : ∀ path, host.opens path = true) {w : World}
    (hcountable : Countable host opts dir w) (h : ∀ info ∈ missing host opts dir w, info.WellQuoted)
    (hfresh : Fresh host opts dir chance w) :
    loadExisting (final host stray opts dir chance w) =
        some (numberedFrom 1 (final host stray opts dir chance w).registry.infos) ∧
      run host stray opts dir chance w = some
        { status := 0
          world := final host stray opts dir chance w
          mapExisting := numberedFrom 1 (final host stray opts dir chance w).registry.infos
          registry := numberedFrom 1 (final host stray opts dir chance w).registry.infos } := by
  have hload : loadExisting (final host stray opts dir chance w) =
      some (numberedFrom 1 (final host stray opts dir chance w).registry.infos) := by
    have hlength := length_final_of_fresh stray hopens h hfresh
    have hle := opts.le_max
    have hcount := hcountable.1
    exact loadExisting_eq_some (by omega)
  have hmap : numberedFrom 1 (final host stray opts dir chance w).registry.infos =
      numberedFrom 1 (importStep host opts dir w).registry.infos ++
        numberedFrom (existing host opts dir w + 1)
          (created host chance (rounds host opts dir w) (existing host opts dir w + 1)) := by
    rw [infos_final_of_fresh stray hopens h hfresh, numberedFrom_append, add_comm (1 : ℤ),
      ← length_infos_importStep, length_numberedFrom]
  exact ⟨hload, by rw [run_eq_some hopens hcountable, hload, hmap]; rfl⟩

/-- A registry with one row. -/
def oneRow (id : ℤ) (info : DatabaseInfo) : Registry where
  rows := [⟨id, info⟩]
  seq := id
  increasing := List.pairwise_singleton _ _
  le_seq := by simp
  nodup_uuid := List.nodup_singleton _

/-- A stray statement can replace the rows. -/
theorem not_promised_of_not_wellQuoted (chance : Chance) (hopens : ∀ path, host.opens path = true)
    {w : World} (h : ¬∀ info ∈ missing host opts dir w, info.WellQuoted) :
    ∃ stray, ¬∃ outcome, run host stray opts dir chance w = some outcome ∧
      Promised host opts dir w outcome := by
  push Not at h
  obtain ⟨info, hinfo, hquoted⟩ := h
  have hrow : info ∈ (importStep host opts dir w).registry.infos := (mem_missingRows_iff.mp hinfo).1
  cases hrows : (importStep host opts dir w).registry.rows with
  | nil => simp [Registry.infos, hrows] at hrow
  | cons row rows =>
    -- one row with another id than the first one
    let bad : World := ⟨oneRow (row.id + 1) pathless, fun _ => none⟩
    refine ⟨fun _ _ _ => bad, ?_⟩
    rintro ⟨outcome, hrun, hpromised⟩
    by_cases hcountable : Countable host opts dir w
    · rw [run_eq_some hopens hcountable] at hrun
      obtain ⟨registry, -, rfl⟩ := Option.map_eq_some_iff.mp hrun
      have hrecreated : (recreated host (fun _ _ _ => bad) opts dir w).registry.rows =
          [⟨row.id + 1, pathless⟩] :=
        recreateMissing_of_stray (P := (·.rows = [⟨row.id + 1, pathless⟩])) hopens
          (fun _ _ _ => rfl) hinfo hquoted
      obtain ⟨rest, hrest⟩ := prefix_final (fun _ _ _ => bad) opts dir chance hopens w
      obtain ⟨rest', hrest'⟩ := hpromised.kept
      rw [hrecreated] at hrest
      rw [hrows] at hrest'
      have hhead := (List.cons.inj (hrest.trans hrest'.symm)).1
      have hid : row.id + 1 = row.id := congrArg Row.id hhead
      omega
    · rw [run_eq_none hopens hcountable] at hrun
      cases hrun

/-- A run leaves what `-c` promises exactly when the numbers it counts to are numbers of an `int`
and no quote of a missing row ends its literal early. -/
theorem keepsPromise_iff (host : Host) (hopens : ∀ path, host.opens path = true) (opts : Options)
    (dir : Directory) (chance : Chance) (w : World) (hfresh : Fresh host opts dir chance w) :
    (∀ stray, ∃ outcome, run host stray opts dir chance w = some outcome ∧
      Promised host opts dir w outcome) ↔
      Countable host opts dir w ∧ ∀ info ∈ missing host opts dir w, info.WellQuoted := by
  constructor
  · intro hall
    constructor
    · by_contra hcountable
      obtain ⟨outcome, hrun, -⟩ := hall fun _ _ v => v
      rw [run_eq_none hopens hcountable] at hrun
      cases hrun
    · by_contra hquoted
      obtain ⟨stray, hstray⟩ := not_promised_of_not_wellQuoted chance hopens hquoted
      exact hstray (hall stray)
  · rintro ⟨hcountable, hquoted⟩ stray
    have hlength := length_final_of_fresh stray hopens hquoted hfresh
    obtain ⟨hload, hrun⟩ := run_of_fresh stray hopens hcountable hquoted hfresh
    refine ⟨_, hrun, ⟨rfl, hlength, ?_, hload, rfl, ?_⟩⟩
    · rw [← registry_recreated stray hopens hquoted]
      exact prefix_final stray opts dir chance hopens w
    · rw [map_fst_numberedFrom, ← hlength, Registry.infos, List.length_map, Int.toNat_natCast]

/-! ## An empty directory -/

/-- The options of a run without arguments. -/
def defaultOptions : Options where
  numDatabases := 1
  noImport := false
  min_le := by decide
  le_max := by decide

theorem zero_lt_sixteen : 0 < 16 := by decide

/-- A random device that gives zeros. -/
def zeros : Chance where
  dis := fun _ _ => ⟨0, zero_lt_sixteen⟩
  now := fun _ => newYear

/-- An empty directory. -/
def emptyDir : Directory where
  entries := []
  isName := by simp
  nodup_name := List.nodup_nil

/-- Nothing has been created. -/
def emptyWorld : World where
  registry := Registry.empty
  disk := fun _ => none

/-! ## A start with a row and a new file -/

/-- The option `-c 4`. -/
def fourDatabases : Options where
  numDatabases := 4
  noImport := false
  min_le := by decide
  le_max := by decide

/-- A random device that gives another digit for each database. -/
def counting : Chance where
  dis := fun i _ => ⟨i.toNat % 16, Nat.mod_lt _ zero_lt_sixteen⟩
  now := fun _ => newYear

/-- A registered database. -/
def goneInfo : DatabaseInfo where
  uuid := lit "gone"
  creationDate := newYear.text
  filePos := lit "/db/gone.db"
  status := lit "active"

/-- Its file is missing, and another file is not registered. -/
def usedWorld : World where
  registry := Registry.empty.insert goneInfo
  disk := renamedWorld.disk

theorem existing_used : existing plainHost fourDatabases renamedDir usedWorld = 2 := by
  decide +kernel

theorem missing_used : missing plainHost fourDatabases renamedDir usedWorld = [goneInfo] := by
  decide +kernel

/-- Two databases are created, with different identifiers. -/
theorem fresh_used : Fresh plainHost fourDatabases renamedDir counting usedWorld := by
  have hnew : counting.uuid 3 ∉
        (importStep plainHost fourDatabases renamedDir usedWorld).registry.uuids ∧
      counting.uuid 4 ∉
        (importStep plainHost fourDatabases renamedDir usedWorld).registry.uuids ∧
      counting.uuid 3 ≠ counting.uuid 4 := by
    decide +kernel
  obtain ⟨hthree, hfour, hne⟩ := hnew
  intro i hi hle
  rw [existing_used] at hi
  have hnum : fourDatabases.numDatabases = 4 := rfl
  obtain rfl | rfl : i = 3 ∨ i = 4 := by omega
  · refine ⟨hthree, fun j hj hji => ?_⟩
    rw [existing_used] at hj
    omega
  · refine ⟨hfour, fun j hj hji => ?_⟩
    rw [existing_used] at hj
    obtain rfl : j = 3 := by omega
    exact hne

theorem countable_used : Countable plainHost fourDatabases renamedDir usedWorld := by
  rw [Countable, existing_used]
  decide

theorem wellQuoted_used :
    ∀ info ∈ missing plainHost fourDatabases renamedDir usedWorld, info.WellQuoted := by
  rw [missing_used]
  intro info hinfo
  rw [List.mem_singleton.mp hinfo]
  exact ⟨by decide, by decide⟩

theorem keepsPromise_used :
    existing plainHost fourDatabases renamedDir usedWorld = 2 ∧
      ∃ outcome,
        run plainHost (fun _ _ v => v) fourDatabases renamedDir counting usedWorld = some outcome ∧
        Promised plainHost fourDatabases renamedDir usedWorld outcome :=
  ⟨existing_used, (keepsPromise_iff plainHost (fun _ => rfl) fourDatabases renamedDir counting
    usedWorld fresh_used).mpr ⟨countable_used, wellQuoted_used⟩ _⟩

/-! ## A creation date that ends its literal -/

/-- A creation date behind which another statement follows. -/
def injectedDate : Bytes := lit "x', 'y'); DELETE FROM databases; --"

/-- A file whose metadata has this date. -/
def injectedFile : DbFile where
  metadata := some [⟨some (lit "master"), some injectedDate, none⟩]

/-- The registry has the row that was imported from the file, and the file is gone. -/
def injectedWorld : World where
  registry := (scanAndImportUnmapped plainHost
    { emptyWorld with
      disk := fun place => if place = lit "/db/copy.db" then some injectedFile else none }
    renamedDir).registry
  disk := fun _ => none

theorem cleared_increasing : ([] : List Row).Pairwise fun r s => r.id < s.id := List.Pairwise.nil

theorem cleared_le_seq (reg : Registry) : ∀ r ∈ ([] : List Row), r.id ≤ reg.seq := by
  simp

theorem cleared_nodup_uuid : (([] : List Row).map (·.info.uuid)).Nodup := List.nodup_nil

/-- The table `databases` without its rows. -/
def cleared (reg : Registry) : Registry where
  rows := []
  seq := reg.seq
  increasing := cleared_increasing
  le_seq := cleared_le_seq reg
  nodup_uuid := cleared_nodup_uuid

/-- What SQLite makes of the statements of the recreated row: the metadata row of the values in
front of the injected statement, and an empty registry. -/
def deleteRows : Stray := fun path _ w =>
  { w.writeMetadata path (replaceRow (w.metadataAt path)
      ⟨some (lit "master"), some (lit "x"), some (lit "y")⟩) with
    registry := cleared w.registry }

/-- The import escapes the date and the repair does not: the registry is lost. -/
theorem not_keepsPromise_injected :
    Fresh plainHost defaultOptions emptyDir zeros injectedWorld ∧
      ¬∀ stray, ∃ outcome, run plainHost stray defaultOptions emptyDir zeros injectedWorld =
        some outcome ∧ Promised plainHost defaultOptions emptyDir injectedWorld outcome := by
  have hexisting : existing plainHost defaultOptions emptyDir injectedWorld = 1 := rfl
  have hnum : defaultOptions.numDatabases = 1 := rfl
  refine ⟨fun i hi hle => absurd hle (by omega), fun h => ?_⟩
  obtain ⟨outcome, hrun, hpromised⟩ := h deleteRows
  have hrows : (run plainHost deleteRows defaultOptions emptyDir zeros injectedWorld).map
      (fun outcome => outcome.world.registry.rows) = some [] := by rfl
  rw [hrun] at hrows
  have hempty : outcome.world.registry.rows = [] := Option.some.inj hrows
  have hlength := hpromised.length
  rw [hempty, hexisting, hnum] at hlength
  exact absurd hlength (by decide)

end Shell
