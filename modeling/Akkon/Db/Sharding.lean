import Akkon.Db.DataStorage
import Akkon.ToMathlib.RoundRobin

/-!
# Entities dealt to the shards

A sequence of calls of `DataStorage::insertEntity` on freshly opened shards, with disk space and
every SQLite call succeeding.

* `sharded_insertAll`: what the shards hold and where the index points behind any such sequence;
* `insertAll_eq_deal`: the accepted entities are dealt to the shards in turn.
-/

namespace Db

open Cpp RoundRobin

/-- None of the texts of the entity has a NUL. -/
structure DbEntity.NulFree (entity : DbEntity) : Prop where
  uuid : 0 ∉ entity.uuid
  identifyer : 0 ∉ entity.identifyer
  pwk : 0 ∉ entity.pwk

/-- A uuid without an identifier. -/
def DbEntity.rejected (entity : DbEntity) : Bool :=
  !entity.uuid.isEmpty && entity.identifyer.isEmpty

/-- The three columns of a row read back; `none` where one of them is NULL. -/
def Row.toEntity? (row : Row) : Option DbEntity :=
  match row.uuid, row.identifier, row.pwk with
  | some uuid, some identifier, some pwk => some ⟨uuid.1, identifier.1, pwk.1⟩
  | _, _, _ => none

theorem DbEntity.rejected_iff {entity : DbEntity} :
    entity.rejected = true ↔ entity.uuid ≠ [] ∧ entity.identifyer = [] := by
  simp [rejected]

/-- An entity without NULs is read back as it was written. -/
theorem DbEntity.NulFree.toEntity?_toRow {entity : DbEntity} (h : entity.NulFree) :
    entity.toRow.toEntity? = some entity := by
  rw [DbEntity.toRow, Row.toEntity?]
  simp only [bindText, cStr_eq_self h.uuid, cStr_eq_self h.identifyer, cStr_eq_self h.pwk]

namespace DataStorage

/-- One `insertEntity` after another. -/
def insertAll (ds : DataStorage) (calls : List (DbEntity × StorageEnv)) : DataStorage :=
  calls.foldl (fun ds call => (ds.insertEntity call.1 call.2).1) ds

/-- The entities among them that have what a row needs. -/
def accepted (calls : List (DbEntity × StorageEnv)) : List DbEntity :=
  (calls.map Prod.fst).filter fun entity => !entity.rejected

/-- Behind the accepted entities `entities`: what was dealt to a shard stands behind its old rows,
and the index points at the shard whose turn it is. -/
structure Sharded (shards : List Shard) (entities : List DbEntity) (ds : DataStorage) : Prop where
  dbs : ds.m_data_dbs = shards.mapIdx fun j shard =>
    shard ++ (deal shards.length j entities).map DbEntity.toRow
  idx : ds.m_round_robin_idx = entities.length % shards.length

variable {ds : DataStorage} {shards : List Shard} {entities : List DbEntity}
  {calls : List (DbEntity × StorageEnv)}

/-- With every call inside succeeding, only the entity decides. -/
theorem WriteOk.insertEntity {env : StorageEnv} (h : ds.WriteOk env) (entity : DbEntity) :
    ds.insertEntity entity env =
      if entity.rejected then (ds, false)
      else (ds.advance.addRow ds.m_round_robin_idx entity.toRow, true) := by
  have hstmt : (env.prepareOk && env.stepDone) = true := by rw [h.prepareOk, h.stepDone]; rfl
  -- of the guards only the one about the entity is left, and the statement does not fail
  rcases ds.insertEntity_cases entity env with ⟨hrefuses, heq⟩ | ⟨-, hfail, -⟩ | ⟨hnot, -, heq⟩
  · have hrej : entity.rejected = true := by
      rcases hrefuses with hnil | hid | hlow
      · exact absurd hnil h.opened
      · exact DbEntity.rejected_iff.mpr hid
      · rw [h.disk] at hlow
        cases hlow
    rw [if_pos hrej, heq]
  · rw [hstmt] at hfail
    cases hfail
  · have hrej : ¬ entity.rejected = true := fun hrej =>
      hnot (.inr (.inl (DbEntity.rejected_iff.mp hrej)))
    rw [if_neg hrej, heq]

namespace Sharded

/-- No shard is opened or closed. -/
theorem length_eq (h : Sharded shards entities ds) : ds.m_data_dbs.length = shards.length := by
  rw [h.dbs, List.length_mapIdx]

/-- The index stays in range. -/
theorem idx_lt (h : Sharded shards entities ds) (hne : shards ≠ []) :
    ds.m_round_robin_idx < shards.length :=
  h.idx ▸ Nat.mod_lt _ (List.length_pos_iff.mpr hne)

/-- Nothing is dealt when the shards are opened. -/
theorem initial (opened : List (Option Shard)) :
    Sharded (opened.filterMap id) [] (initializeDbs opened) where
  dbs := by
    ext1 j
    simp [initializeDbs]
  idx := by simp [initializeDbs]

/-- One accepted entity more. -/
theorem addRow (h : Sharded shards entities ds) (entity : DbEntity) :
    Sharded shards (entities ++ [entity])
      (ds.advance.addRow ds.m_round_robin_idx entity.toRow) where
  dbs := by
    show ds.m_data_dbs.modify ds.m_round_robin_idx (· ++ [entity.toRow]) = _
    ext1 j
    rw [List.getElem?_modify, h.dbs, List.getElem?_mapIdx, List.getElem?_mapIdx, h.idx]
    -- only the shard whose turn it is gets the row
    cases shards[j]? with
    | none => rfl
    | some shard =>
      simp only [Option.map_some, Option.map_eq_map, Option.some.injEq]
      rw [deal_concat, List.map_append]
      split_ifs with hturn <;> simp
  idx := by
    show (ds.m_round_robin_idx + 1) % ds.m_data_dbs.length = _
    rw [h.length_eq, h.idx, Nat.mod_add_mod, List.length_append, List.length_singleton]

/-- One call. -/
theorem insertEntity (h : Sharded shards entities ds) {env : StorageEnv} (hok : ds.WriteOk env)
    (entity : DbEntity) :
    Sharded shards (entities ++ if entity.rejected then [] else [entity])
      (ds.insertEntity entity env).1 := by
  rw [hok.insertEntity]
  by_cases hrej : entity.rejected = true
  · rw [if_pos hrej, if_pos hrej, List.append_nil]
    exact h
  · rw [if_neg hrej, if_neg hrej]
    exact h.addRow entity

end Sharded

/-- A write succeeds on any shards once it does on some. -/
theorem WriteOk.of_ne_nil {ds' : DataStorage} {env : StorageEnv} (h : ds.WriteOk env)
    (hne : ds'.m_data_dbs ≠ []) : ds'.WriteOk env :=
  ⟨hne, h.disk, h.prepareOk, h.stepDone⟩

@[simp]
theorem insertAll_concat (ds : DataStorage) (calls : List (DbEntity × StorageEnv))
    (call : DbEntity × StorageEnv) :
    ds.insertAll (calls ++ [call]) = ((ds.insertAll calls).insertEntity call.1 call.2).1 := by
  rw [insertAll, List.foldl_concat]
  rfl

theorem accepted_concat (calls : List (DbEntity × StorageEnv)) (call : DbEntity × StorageEnv) :
    accepted (calls ++ [call]) = accepted calls ++ if call.1.rejected then [] else [call.1] := by
  rw [accepted, List.map_append, List.filter_append]
  congr 1
  by_cases hrej : call.1.rejected = true <;> simp [hrej]

/-- What the shards hold and where the index points behind any sequence of calls. -/
theorem sharded_insertAll (h : Sharded shards [] ds) (hne : shards ≠ [])
    (hok : ∀ call ∈ calls, ds.WriteOk call.2) :
    Sharded shards (accepted calls) (ds.insertAll calls) := by
  -- the last call comes in the state behind the others
  induction calls using List.reverseRecOn with
  | nil => exact h
  | append_singleton calls call ih =>
    have hrun := ih fun c hc => hok c (List.mem_append_left _ hc)
    have hopen : (ds.insertAll calls).m_data_dbs ≠ [] := by
      rw [← List.length_pos_iff, hrun.length_eq]
      exact List.length_pos_iff.mpr hne
    rw [insertAll_concat, accepted_concat]
    exact hrun.insertEntity ((hok call (by simp)).of_ne_nil hopen) call.1

/-- What was dealt to a shard, read back. -/
theorem map_toEntity?_deal (n j : ℕ) (hnul : ∀ entity ∈ entities, entity.NulFree) :
    ((deal n j entities).map DbEntity.toRow).map Row.toEntity? = (deal n j entities).map some := by
  rw [List.map_map]
  refine List.map_congr_left fun entity hmem => ?_
  exact (hnul entity (mem_of_mem_deal hmem)).toEntity?_toRow

/-- Behind any sequence of calls on freshly opened shards a further call returns false exactly for
a uuid without an identifier, and changes nothing then; row `m` that was added to shard `j` is the
accepted entity `m * n + j`, no shard has been given more than one row more than another, and the
index is in range. -/
theorem insertAll_eq_deal (opened : List (Option Shard)) (calls : List (DbEntity × StorageEnv))
    (hne : opened.filterMap id ≠ [])
    (hnul : ∀ call ∈ calls, call.1.NulFree)
    (hok : ∀ call ∈ calls, (initializeDbs opened).WriteOk call.2) :
    let shards := opened.filterMap id
    let ds := (initializeDbs opened).insertAll calls
    (∀ entity env, (initializeDbs opened).WriteOk env →
      ((ds.insertEntity entity env).2 = false ↔
        entity.uuid ≠ [] ∧ entity.identifyer = []) ∧
      ((ds.insertEntity entity env).2 = false → (ds.insertEntity entity env).1 = ds)) ∧
    ds.m_data_dbs.length = shards.length ∧
    (∃ added : ℕ → List Row,
      (∀ j < shards.length,
        ds.m_data_dbs[j]? = shards[j]?.map (· ++ added j) ∧
        ∀ m, (added j)[m]?.map Row.toEntity? = (accepted calls)[m * shards.length + j]?.map some) ∧
      ∀ i < shards.length, ∀ j < shards.length, (added i).length ≤ (added j).length + 1) ∧
    ds.m_round_robin_idx < shards.length := by
  intro shards ds
  have hrun : Sharded shards (accepted calls) ds :=
    sharded_insertAll (Sharded.initial opened) hne hok
  -- All that is claimed is read off the invariant of the run.
  have hopen : ds.m_data_dbs ≠ [] := by
    rw [← List.length_pos_iff, hrun.length_eq]
    exact List.length_pos_iff.mpr hne
  have hfree : ∀ entity ∈ accepted calls, entity.NulFree := by
    intro entity hmem
    obtain ⟨call, hcall, rfl⟩ := List.mem_map.mp (List.mem_filter.mp hmem).1
    exact hnul call hcall
  refine ⟨fun entity env hwrite => ?_, hrun.length_eq,
    ⟨fun j => (deal shards.length j (accepted calls)).map DbEntity.toRow, ?_, ?_⟩,
    hrun.idx_lt hne⟩
  · -- one more call: the entity alone decides, and a refusal changes nothing
    rw [(hwrite.of_ne_nil hopen).insertEntity, ← DbEntity.rejected_iff]
    by_cases hrej : entity.rejected = true <;> simp [hrej]
  · intro j hj
    constructor
    · rw [hrun.dbs, List.getElem?_mapIdx]
    · intro m
      rw [← List.getElem?_map, map_toEntity?_deal _ _ hfree, List.getElem?_map, getElem?_deal hj]
  · intro i hi j hj
    rw [List.length_map, List.length_map]
    exact length_deal_le hi hj (accepted calls)

/-- Two shards, behind an identifier, a uuid without one, and another identifier. -/
theorem insertAll_eq_deal_two :
    let env : StorageEnv := ⟨⟨true, some diskLimit⟩, true, true⟩
    let ds := (initializeDbs [some [], none, some []]).insertAll
      [(⟨[], lit "a", []⟩, env), (⟨lit "u", [], []⟩, env), (⟨lit "u", lit "b", lit "p"⟩, env)]
    ds.m_data_dbs.length = 2 ∧ ds.m_round_robin_idx < 2 := by
  intro env ds
  have h := insertAll_eq_deal [some [], none, some []]
    [(⟨[], lit "a", []⟩, env), (⟨lit "u", [], []⟩, env), (⟨lit "u", lit "b", lit "p"⟩, env)]
    (by simp)
    (by
      -- each text is one letter or none
      simp only [List.mem_cons, List.not_mem_nil, or_false]
      rintro call (rfl | rfl | rfl) <;> exact ⟨by decide, by decide, by decide⟩)
    (by
      simp only [List.mem_cons, List.not_mem_nil, or_false]
      rintro call (rfl | rfl | rfl) <;> exact ⟨by simp [initializeDbs], by decide, rfl, rfl⟩)
  exact ⟨h.2.1, h.2.2.2⟩

end DataStorage

end Db
