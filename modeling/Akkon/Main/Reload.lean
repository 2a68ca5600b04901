import Akkon.Main.Startup

/-!
# What a stored identifier is loaded as

The handler checks only the length of an identifier, which may hold any byte. It is stored up to its
first NUL, and loaded from a C string again.

* `identifiers_insert`: what the tables hold behind an insertion;
* `comesBack_iff`: the identifier comes back unchanged exactly when it has no NUL.
-/

namespace Main

open Cpp Indexer Db

/-- An identifier is inserted, and a fresh index loaded: `DEFINITELY_YES` is the answer for that
identifier and for those that were stored before, and for no other. -/
def ComesBack (ds : DataStorage) (env : StorageEnv) (identifier pwk : Bytes) : Prop :=
  ∀ expected_items (h : 0 < expected_items), ∃ query_engine,
    (ds.insertEntity (entityOf identifier pwk) env).1.loadAllIdentifiers (fun _ => .complete)
      (.new expected_items h) = .ok query_engine ∧
    ∀ item, query_engine.query item = .ok .DEFINITELY_YES ↔
      item = identifier ∨ item ∈ ds.identifiers

variable {ds : DataStorage} {env : StorageEnv} {identifier pwk : Bytes}

/-- What is in the tables has no NUL. -/
theorem nul_not_mem_of_mem_identifiers (h : identifier ∈ ds.identifiers) : 0 ∉ identifier := by
  obtain ⟨row, -, hrow⟩ := DataStorage.mem_identifiers.mp h
  obtain ⟨text, -, rfl⟩ := Option.map_eq_some_iff.mp hrow
  exact text.2

/-- The tables behind an insertion. -/
theorem identifiers_insert (hok : ds.WriteOk env) (hlength : identifier.length = 64) :
    (ds.insertEntity (entityOf identifier pwk) env).1.identifiers =
      insert (cStr identifier) ds.identifiers := by
  have hne : (entityOf identifier pwk).identifyer ≠ [] :=
    List.ne_nil_of_length_pos (show 0 < identifier.length by omega)
  rw [DataStorage.identifiers_insertEntity, if_pos ((DataStorage.insertEntity_snd_iff hne).mpr hok)]
  rfl

/-- The identifier comes back exactly when it is stored whole. -/
theorem comesBack_iff (hok : ds.WriteOk env) (hlength : identifier.length = 64) :
    ComesBack ds env identifier pwk ↔ 0 ∉ identifier := by
  have hload (expected_items : ℕ) (h : 0 < expected_items) : ∃ query_engine,
      (ds.insertEntity (entityOf identifier pwk) env).1.loadAllIdentifiers (fun _ => .complete)
        (.new expected_items h) = .ok query_engine ∧
      ∀ item, query_engine.query item = .ok .DEFINITELY_YES ↔
        item = cStr identifier ∨ item ∈ ds.identifiers := by
    obtain ⟨query_engine, hqe, hmem⟩ :=
      (ds.insertEntity (entityOf identifier pwk) env).1.members_loadAllIdentifiers
        (.new expected_items h)
    refine ⟨query_engine, hqe, fun item => ?_⟩
    rw [QueryEngine.query_eq_ok, Except.ok.injEq, QueryEngine.answer_eq_definitelyYes_iff, hmem,
      QueryEngine.members_new, Finset.empty_union, identifiers_insert hok hlength,
      Finset.mem_insert]
  -- one filter size is enough for the one direction, the other is about all of them
  constructor
  · intro hback hnul
    obtain ⟨query_engine, hqe, hyes⟩ := hback 1000000 indexSize_pos
    obtain ⟨query_engine', hqe', hyes'⟩ := hload 1000000 indexSize_pos
    rw [hqe] at hqe'
    cases hqe'
    -- the identifier is a member, but no text of the tables has a NUL
    rcases (hyes' identifier).mp ((hyes identifier).mpr (.inl rfl)) with hstored | hstored
    · have hcut : 0 ∉ cStr identifier := (bindText identifier).2
      rw [← hstored] at hcut
      exact hcut hnul
    · exact nul_not_mem_of_mem_identifiers hstored hnul
  · intro hnul expected_items h
    obtain ⟨query_engine, hqe, hyes⟩ := hload expected_items h
    rw [cStr_eq_self hnul] at hyes
    exact ⟨query_engine, hqe, hyes⟩

/-- One empty shard. -/
def oneShard : DataStorage := .initializeDbs [some []]

theorem writeOk_oneShard : oneShard.WriteOk (quietEnv (dbFileSystem [])).storage :=
  ⟨by simp [oneShard, DataStorage.initializeDbs], rfl, rfl, rfl⟩

/-- An identifier of hexadecimal digits comes back. -/
theorem comesBack_digits :
    ComesBack oneShard (quietEnv (dbFileSystem [])).storage digitsA.1 digitsB.1 ↔
      0 ∉ digitsA.1 :=
  comesBack_iff writeOk_oneShard digitsA.2.1

/-- An identifier with a NUL behind 63 letters. -/
def nulIdentifier : Bytes := List.replicate 63 97 ++ [0]

/-- A request inserts an identifier that does not come back. -/
theorem not_comesBack_nulIdentifier :
    (∃ request, InsertRequest request nulIdentifier digitsB.1) ∧
      ¬ ComesBack oneShard (quietEnv (dbFileSystem [])).storage nulIdentifier digitsB.1 := by
  refine ⟨⟨_, insertRequest_insertPost (by decide) (by decide)⟩, fun hback => ?_⟩
  -- the tables hold the 63 letters
  obtain ⟨query_engine, hqe, hyes⟩ := hback 1000000 indexSize_pos
  obtain ⟨query_engine', hqe', hmem⟩ :=
    (oneShard.insertEntity (entityOf nulIdentifier digitsB.1)
      (quietEnv (dbFileSystem [])).storage).1.members_loadAllIdentifiers
      (.new 1000000 indexSize_pos)
  rw [hqe] at hqe'
  cases hqe'
  have hmember := (hyes nulIdentifier).mpr (.inl rfl)
  rw [QueryEngine.query_eq_ok, Except.ok.injEq, QueryEngine.answer_eq_definitelyYes_iff, hmem,
    QueryEngine.members_new, Finset.empty_union] at hmember
  exact nul_not_mem_of_mem_identifiers hmember (by decide)

end Main
