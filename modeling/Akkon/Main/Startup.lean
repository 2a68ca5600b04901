import Akkon.Index.History
import Akkon.Main.ShortForm

/-!
# Startup on shards that fail

`DataStorage::initialize` passes over a shard that does not open, and `loadAllIdentifiers` takes a
failed `SELECT` and a step that fails halfway for the end of the table. The service starts all the
same, with an index that lacks the identifiers it was not shown.

* `startUp`: `boot` on registered shards, each with the outcome of its calls;
* `Serves`: the requests that are handled afterwards;
* `insertable_iff`: the identifiers that some request can insert;
* `neverDenied_iff`: no stored identifier is ever denied exactly when every one of them was read, or
  no request can insert it and the filter has its bits from others.
-/

namespace Main

open Cpp Indexer Db Security

/-- A registered shard: its table, and how opening it and reading it turn out. -/
structure RegisteredShard where
  shard : Shard
  /-- `sqlite3_open` returns `SQLITE_OK`. -/
  opens : Bool
  /-- The `SELECT`, if the shard opens. -/
  select : DataStorage.SelectOutcome
  deriving DecidableEq, Repr

/-- The identifiers in rows. -/
def identifiersOf (rows : List Row) : List Bytes := rows.filterMap fun r => r.identifier.map (·.1)

/-- The rows of a shard that `loadAllIdentifiers` is shown. -/
def RegisteredShard.shown (r : RegisteredShard) : List Row :=
  if r.opens then r.select.rows r.shard else []

section Startup

variable (registered : List RegisteredShard)

/-- The identifiers in the registered shards. -/
def storedIdentifiers : List Bytes := identifiersOf (registered.flatMap (·.shard))

/-- The identifiers that are read. -/
def shownIdentifiers : List Bytes := identifiersOf (registered.flatMap (·.shown))

/-- The shards that open. -/
def openedShards : List RegisteredShard := registered.filter (·.opens)

/-- What `initialize` gets of the registered shards. -/
def opened : List (Option Shard) := registered.map fun r => if r.opens then some r.shard else none

/-- The `SELECT` on shard `i` of those that open. -/
def selectOf (i : ℕ) : DataStorage.SelectOutcome :=
  ((openedShards registered).map (·.select)).getD i .complete

/-- The startup of `main` on the registered shards. -/
def startUp : Except Exn Service := boot (opened registered) (selectOf registered)

end Startup

/-- Requests are handled one after another, whatever each call of the handler is told. -/
def Serves : Service → Service → Prop :=
  Relation.ReflTransGen fun s s' =>
    ∃ env request effects, handle env s request = .ok (s', effects)

/-- Once the service is started, no stored identifier is answered `DEFINITELY_NO`, and no request
that inserts one is answered `200`. -/
def NeverDenied (registered : List RegisteredShard) : Prop :=
  ∀ s s', startUp registered = .ok s → Serves s s' →
    ∀ identifier ∈ storedIdentifiers registered,
      s'.query_engine.query identifier ≠ .ok .DEFINITELY_NO ∧
      ∀ env request pwk, env.is_ws_client = false → InsertRequest request identifier pwk →
        ∀ s'' effects, handle env s' request = .ok (s'', effects) → effects ≠ replied insertSuccess

/-! ## The index after loading -/

/-- Loading shows the index one identifier after another. -/
theorem foldlM_loadRow_eq (rows : List Row) (query_engine : QueryEngine) :
    rows.foldlM DataStorage.loadRow query_engine =
      .ok ((identifiersOf rows).foldl QueryEngine.inserted query_engine) := by
  induction rows generalizing query_engine with
  | nil => rfl
  | cons r rows ih =>
    rw [List.foldlM_cons]
    cases hid : r.identifier with
    | none =>
      have hload : DataStorage.loadRow query_engine r = .ok query_engine := by
        rw [DataStorage.loadRow, hid]
      have hrest : identifiersOf (r :: rows) = identifiersOf rows := by simp [identifiersOf, hid]
      rw [hload, hrest]
      exact ih query_engine
    | some identifier =>
      have hload : DataStorage.loadRow query_engine r = .ok (query_engine.inserted identifier) := by
        rw [DataStorage.loadRow, hid]
        exact query_engine.insert_eq_ok identifier
      have hrest : identifiersOf (r :: rows) = identifier.1 :: identifiersOf rows := by
        simp [identifiersOf, hid]
      rw [hload, hrest]
      exact ih (query_engine.inserted identifier)

section Loading

variable (registered : List RegisteredShard)

/-- The shards of `DataStorage` are those that open. -/
theorem m_data_dbs_opened :
    (DataStorage.initializeDbs (opened registered)).m_data_dbs =
      (openedShards registered).map (·.shard) := by
  show (opened registered).filterMap id = _
  induction registered with
  | nil => rfl
  | cons r registered ih => cases hr : r.opens <;> simp_all [opened, openedShards]

/-- Only shards that open show rows. -/
theorem flatMap_shown :
    registered.flatMap (·.shown) =
      (openedShards registered).flatMap fun r => r.select.rows r.shard := by
  induction registered with
  | nil => rfl
  | cons r registered ih =>
    cases hr : r.opens <;> simp_all [openedShards, RegisteredShard.shown]

/-- The rows that `loadAllIdentifiers` goes through, shard by shard. -/
theorem flatMap_rows_opened :
    ((DataStorage.initializeDbs (opened registered)).m_data_dbs.zipIdx.flatMap fun p =>
      (selectOf registered p.2).rows p.1) = registered.flatMap (·.shown) := by
  rw [m_data_dbs_opened, flatMap_shown, List.zipIdx_map, List.flatMap_map]
  have hrows : ∀ p ∈ (openedShards registered).zipIdx,
      (selectOf registered p.2).rows p.1.shard = p.1.select.rows p.1.shard := by
    intro p hp
    have hget : (openedShards registered)[p.2]? = some p.1 := List.mem_zipIdx_iff_getElem?.mp hp
    rw [selectOf, List.getD, List.getElem?_map, hget]
    rfl
  show (openedShards registered).zipIdx.flatMap (fun p =>
    (selectOf registered p.2).rows p.1.shard) = _
  rw [List.flatMap_congr hrows]
  conv_rhs => rw [← List.zipIdx_map_fst 0 (openedShards registered), List.flatMap_map]

/-- Startup always ends in a service, and its index is made of the identifiers it was shown. -/
theorem startUp_eq : ∃ s, startUp registered = .ok s ∧
    s.query_engine =
      (shownIdentifiers registered).foldl QueryEngine.inserted (.new 1000000 indexSize_pos) := by
  refine ⟨⟨_, .initializeDbs (opened registered), 0⟩, ?_, rfl⟩
  rw [startUp, boot, DataStorage.loadAllIdentifiers, flatMap_rows_opened, foldlM_loadRow_eq]
  rfl

end Loading

/-! ## What an index knows -/

/-- Every bit of the item is a bit of one of the others. -/
def SharesBits (bf : BloomFilter) (item : Bytes) (others : List Bytes) : Prop :=
  ∀ i ∈ bf.indices item, ∃ other ∈ others, i ∈ bf.indices other

/-- One index answers at least what another one does. -/
structure Grows (qe qe' : QueryEngine) : Prop where
  members : qe.members ⊆ qe'.members
  contains : ∀ item, qe.m_filter.contains item = true → qe'.m_filter.contains item = true

theorem Grows.refl (qe : QueryEngine) : Grows qe qe := ⟨subset_rfl, fun _ h => h⟩

theorem Grows.trans {qe qe' qe'' : QueryEngine} (h : Grows qe qe') (h' : Grows qe' qe'') :
    Grows qe qe'' :=
  ⟨h.members.trans h'.members, fun item hitem => h'.contains item (h.contains item hitem)⟩

theorem grows_inserted (qe : QueryEngine) (item : Bytes) : Grows qe (qe.inserted item) where
  members := by
    rw [QueryEngine.members_inserted]
    exact Finset.subset_insert _ _
  contains _ h := BloomFilter.contains_add_of_contains h

/-- `DEFINITELY_NO` is the answer exactly for what the filter does not contain. -/
theorem query_ne_definitelyNo_iff {qe : QueryEngine} {item : Bytes} :
    qe.query item ≠ .ok .DEFINITELY_NO ↔ qe.m_filter.contains item = true := by
  rw [QueryEngine.query_eq_ok, ne_eq, Except.ok.injEq, QueryEngine.answer_eq_definitelyNo_iff,
    Bool.not_eq_false]

/-- The bits of an index made of some identifiers. -/
theorem getD_foldl_inserted {ids : List Bytes} {qe : QueryEngine} :
    (∀ item, (ids.foldl QueryEngine.inserted qe).m_filter.indices item
      = qe.m_filter.indices item) ∧
    ∀ i, (ids.foldl QueryEngine.inserted qe).m_filter.m_bits.getD i false = true ↔
      qe.m_filter.m_bits.getD i false = true ∨ ∃ id ∈ ids, i ∈ qe.m_filter.indices id := by
  induction ids generalizing qe with
  | nil => simp
  | cons id ids ih =>
    have hindices (item : Bytes) :
        (qe.inserted id).m_filter.indices item = qe.m_filter.indices item :=
      BloomFilter.indices_setBits _ item
    have hbits (i : ℕ) : (qe.inserted id).m_filter.m_bits.getD i false =
        (qe.m_filter.m_bits.getD i false || decide (i ∈ qe.m_filter.indices id)) :=
      BloomFilter.getD_setAll (fun _ => qe.m_filter.lt_size_of_mem_indices) i
    obtain ⟨hrest, hset⟩ := @ih (qe.inserted id)
    rw [List.foldl_cons]
    refine ⟨fun item => (hrest item).trans (hindices item), fun i => ?_⟩
    rw [hset i, hbits i]
    simp [hindices, or_assoc]

/-- The filter of the identifiers that were read contains an item exactly when these share its
bits. -/
theorem contains_foldl_inserted {ids : List Bytes} {item : Bytes} :
    (ids.foldl QueryEngine.inserted (.new 1000000 indexSize_pos)).m_filter.contains item = true ↔
      SharesBits (QueryEngine.new 1000000 indexSize_pos).m_filter item ids := by
  obtain ⟨hindices, hset⟩ :=
    @getD_foldl_inserted ids (.new 1000000 indexSize_pos)
  have hempty (i : ℕ) :
      (QueryEngine.new 1000000 indexSize_pos).m_filter.m_bits.getD i false = false := by
    simp only [QueryEngine.new, BloomFilter.new, Array.getD_eq_getD_getElem?,
      Array.getElem?_replicate]
    split_ifs <;> rfl
  rw [BloomFilter.contains, BloomFilter.allSet, List.all_eq_true, SharesBits, hindices]
  refine forall₂_congr fun i _ => ?_
  rw [hset i, hempty i]
  simp

/-! ## Requests -/

/-- No operation of the handler makes the index forget. -/
theorem grows_handlerOp {env : HandlerEnv} {o : HandlerOp} {w w' : World} {r : o.Res}
    (h : handlerOp env o w = .ok (r, w')) :
    Grows w.service.query_engine w'.service.query_engine := by
  cases o with
  | insertIndex item =>
    rw [handlerOp_insertIndex] at h
    cases h
    exact grows_inserted _ item
  | query item =>
    rw [handlerOp_query] at h
    cases h
    exact .refl _
  | throw fault => cases h
  | _ =>
    cases h
    exact .refl _

theorem grows_handle {env : HandlerEnv} {s s' : Service} {request : Bytes} {effects : List Effect}
    (h : handle env s request = .ok (s', effects)) : Grows s.query_engine s'.query_engine := by
  rw [handle] at h
  cases hrun : (dataHandler request).run (handlerOp env) ⟨s, []⟩ with
  | error fault =>
    rw [hrun] at h
    cases h
  | ok r =>
    rw [hrun] at h
    cases h
    obtain ⟨⟨⟩, w'⟩ := r
    have hrel := Prog.run_rel (handlerOp env) (R := fun w w' : World =>
      Grows w.service.query_engine w'.service.query_engine) (fun _ => .refl _)
      (fun _ _ _ h h' => h.trans h') (fun _ _ _ _ _ h => grows_handlerOp h)
      (Prog.allOps_true _) hrun
    exact hrel

theorem Serves.grows {s s' : Service} (h : Serves s s') :
    Grows s.query_engine s'.query_engine := by
  induction h with
  | refl => exact .refl _
  | tail _ hstep ih =>
    obtain ⟨env, request, effects, hhandle⟩ := hstep
    exact ih.trans (grows_handle hhandle)

/-- A member of the index is not inserted again. -/
theorem ne_insertSuccess_of_mem {env : HandlerEnv} (hws : env.is_ws_client = false) {s s' : Service}
    {request identifier pwk : Bytes} (hreq : InsertRequest request identifier pwk)
    (hmem : identifier ∈ s.query_engine.members) {effects : List Effect}
    (h : handle env s request = .ok (s', effects)) : effects ≠ replied insertSuccess := by
  by_cases hlock : env.lockdown = .NONE
  · rw [handle_insert hlock hws s hreq, insertOutcome] at h
    split_ifs at h
    · cases h
      decide
    · cases h
      decide
  · rw [handle_of_lockdown hlock] at h
    cases h
    unfold lockdownEffects
    split_ifs
    · decide
    · decide

/-- What is not a member is inserted. -/
theorem handle_of_not_mem {s : Service} {request identifier pwk : Bytes}
    (hreq : InsertRequest request identifier pwk) (hmem : identifier ∉ s.query_engine.members) :
    ∃ s', handle (quietEnv (dbFileSystem [])) s request = .ok (s', replied insertSuccess) := by
  refine ⟨s.inserting identifier pwk (quietEnv (dbFileSystem [])).storage, ?_⟩
  rw [handle_insert rfl rfl s hreq, insertOutcome, if_neg (by decide), if_neg hmem]

/-! ## Which identifiers can be inserted -/

/-- A value that is read as a JSON string has no quote in it. -/
theorem quote_not_mem_of_extractJsonString {json field value : Bytes}
    (h : extractJsonString json field = .ok value) : 34 ∉ value := by
  unfold extractJsonString at h
  split at h
  · cases h
    simp
  · split at h
    · cases h
      simp
    · next pos _ =>
      split at h
      · cases h
        simp
      · next stop hstop =>
        -- the value ends at the first quote
        have hle := (findFrom_eq_some hstop).1
        rw [findFrom, show lit "\"" = [34] from rfl, find_singleton] at hstop
        split_ifs at hstop with hpos hquote
        · have hlen : stop - pos - 1 =
              ((json.drop (pos + 1)).takeWhile (· != 34)).length := by
            simp only [Option.map_some, Option.some.injEq] at hstop
            omega
          rw [substr_eq_ok _ hpos, hlen, Except.ok.injEq] at h
          rw [← h, ← List.prefix_iff_eq_take.mp (List.takeWhile_prefix _)]
          intro hmem
          simpa using List.mem_takeWhile_imp hmem
        all_goals simp at hstop

/-- A request for the long insert route with the two fields in its body, the pwk first. -/
def insertPost (identifier : Bytes) : Bytes :=
  lit "POST /api/v1/insert HTTP/1.1\r\n\r\n\x7b" ++ (jsonKey (lit "pwk") ++ (digitsB.1 ++
    34 :: (44 :: (jsonKey (lit "identifier") ++ (identifier ++ 34 :: lit "\x7d")))))

theorem insertRequest_insertPost {identifier : Bytes} (hlength : identifier.length = 64)
    (hquote : 34 ∉ identifier) : InsertRequest (insertPost identifier) identifier digitsB.1 where
  route := by
    have hstarts :
        lit "POST /api/v1/insert" <+: lit "POST /api/v1/insert HTTP/1.1\r\n\r\n\x7b" := by
      decide
    have hcontains : contains (insertPost identifier) (lit "POST /api/v1/insert") = true :=
      contains_iff.mpr (hstarts.trans (List.prefix_append _ _)).isInfix
    exact ⟨rfl, by simp [isInsertRequest, hcontains]⟩
  fields := by
    have hline : requestLine (insertPost identifier) = (lit "POST", lit "/api/v1/insert") := by
      have hhead : lit "POST /api/v1/insert HTTP/1.1\r\n\r\n\x7b" =
          lit "POST" ++ 32 :: (lit "/api/v1/insert" ++ 32 :: lit "HTTP/1.1\r\n\r\n\x7b") := by
        decide
      rw [insertPost, hhead]
      simp only [List.append_assoc, List.cons_append]
      exact requestLine_append (by decide) (by simp [lit, isSpace]) (by decide)
        (by simp [lit, isSpace]) (by simp [isSpace])
    have hshort : isShortInsert (insertPost identifier) = false := by
      rw [isShortInsert, hline]
      rfl
    have hpwk : extractJsonString (insertPost identifier) (lit "pwk") = .ok digitsB.1 := by
      have hfind : find (insertPost identifier) (jsonKey (lit "pwk")) =
          some (lit "POST /api/v1/insert HTTP/1.1\r\n\r\n\x7b").length := rfl
      rw [extractJsonString_eq (by rfl) hfind (List.mem_append_right _ List.mem_cons_self),
        takeWhile_append_cons (by decide)]
    have hid : extractJsonString (insertPost identifier) (lit "identifier") = .ok identifier := by
      -- the key is not in front of the comma
      let a := lit "POST /api/v1/insert HTTP/1.1\r\n\r\n\x7b" ++
        (jsonKey (lit "pwk") ++ (digitsB.1 ++ [34]))
      have hsplit : insertPost identifier =
          a ++ 44 :: (jsonKey (lit "identifier") ++ (identifier ++ 34 :: lit "\x7d")) := by
        simp [insertPost, a]
      have hfind : find (insertPost identifier) (jsonKey (lit "identifier")) =
          some (a ++ [44]).length := by
        have hnone : find a (jsonKey (lit "identifier")) = none := by decide +kernel
        have hfirst : find (jsonKey (lit "identifier") ++ (identifier ++ 34 :: lit "\x7d"))
            (jsonKey (lit "identifier")) = some 0 := rfl
        rw [hsplit, find_append_cons_of_not_mem (by decide) (by decide), hnone, hfirst]
        simp
      rw [List.append_cons] at hsplit
      rw [extractJsonString_eq hsplit hfind (List.mem_append_right _ List.mem_cons_self),
        takeWhile_append_cons hquote]
    rw [insertFields, if_neg (by simp [hshort]), hid, hpwk]
    rfl
  length_identifier := hlength
  length_pwk := digitsB.2.1

/-- An identifier that some request can insert. -/
def Insertable (identifier : Bytes) : Prop := identifier.length = 64 ∧ 34 ∉ identifier

theorem insertable_iff {identifier : Bytes} :
    Insertable identifier ↔ ∃ request pwk, InsertRequest request identifier pwk := by
  constructor
  · rintro ⟨hlength, hquote⟩
    exact ⟨_, _, insertRequest_insertPost hlength hquote⟩
  · rintro ⟨request, pwk, hreq⟩
    refine ⟨hreq.length_identifier, ?_⟩
    have hfields := hreq.fields
    rw [insertFields] at hfields
    split_ifs at hfields with hshort
    · -- the short form cuts it out of a path of hexadecimal digits
      obtain ⟨-, hhex⟩ := Bool.and_eq_true_iff.mp hshort
      have hdigit := List.all_eq_true.mp hhex
      have hid : identifier = ((requestLine request).2.drop 5).take 64 := by
        unfold substr at hfields
        split_ifs at hfields
        · cases hfields
          rfl
        all_goals cases hfields
      rw [hid]
      intro hmem
      exact absurd (hdigit 34 (List.mem_of_mem_take hmem)) (by decide)
    · -- the long form cuts it out between two quotes
      obtain ⟨identifier', hid⟩ := extractJsonString_isOk request (lit "identifier")
      obtain ⟨pwk', hpwk⟩ := extractJsonString_isOk request (lit "pwk")
      rw [hid, hpwk] at hfields
      cases hfields
      exact quote_not_mem_of_extractJsonString hid

/-! ## When no stored identifier is denied -/

/-- No stored identifier is denied exactly when each one was read, or no request can insert it and
those that were read share its bits in the filter. -/
theorem neverDenied_iff (registered : List RegisteredShard) :
    NeverDenied registered ↔ ∀ identifier ∈ storedIdentifiers registered,
      identifier ∈ shownIdentifiers registered ∨
        (¬ Insertable identifier ∧
          SharesBits (QueryEngine.new 1000000 indexSize_pos).m_filter identifier
            (shownIdentifiers registered)) := by
  obtain ⟨s, hstart, hindex⟩ := startUp_eq registered
  have hmem {identifier : Bytes} : identifier ∈ s.query_engine.members ↔
      identifier ∈ shownIdentifiers registered := by
    rw [hindex, QueryEngine.mem_members_foldl_inserted, QueryEngine.members_new]
    simp
  have hcontains {identifier : Bytes} : s.query_engine.m_filter.contains identifier = true ↔
      SharesBits (QueryEngine.new 1000000 indexSize_pos).m_filter identifier
        (shownIdentifiers registered) := by
    rw [hindex, contains_foldl_inserted]
  constructor
  · intro h identifier hstored
    obtain ⟨hquery, hinsert⟩ := h s s hstart .refl identifier hstored
    by_cases hins : Insertable identifier
    · -- the request that inserts it is refused, so it is a member
      obtain ⟨request, pwk, hreq⟩ := insertable_iff.mp hins
      refine .inl (hmem.mp ?_)
      by_contra hnot
      obtain ⟨s', hhandle⟩ := handle_of_not_mem hreq hnot
      exact hinsert _ _ _ rfl hreq _ _ hhandle rfl
    · exact .inr ⟨hins, hcontains.mp (query_ne_definitelyNo_iff.mp hquery)⟩
  · intro h t s' hstart' hserves identifier hstored
    rw [hstart] at hstart'
    cases hstart'
    -- what the index knows at the start, it knows for ever
    have hgrows := hserves.grows
    rcases h identifier hstored with hshown | ⟨hins, hshares⟩
    · have hmember := hgrows.members (hmem.mpr hshown)
      exact ⟨query_ne_definitelyNo_iff.mpr (s'.query_engine.covered identifier hmember),
        fun _ _ _ hws hreq _ _ hhandle => ne_insertSuccess_of_mem hws hreq hmember hhandle⟩
    · refine ⟨query_ne_definitelyNo_iff.mpr (hgrows.contains identifier (hcontains.mpr hshares)),
        fun _ request pwk _ hreq => ?_⟩
      exact absurd (insertable_iff.mpr ⟨request, pwk, hreq⟩) hins

/-- A shard with one row that does not open. -/
def lockedShard : RegisteredShard where
  shard := [(entityOf digitsA.1 digitsB.1).toRow]
  opens := false
  select := .complete

/-- The identifier in a shard that does not open can be inserted again. -/
theorem not_neverDenied_lockedShard : ¬ NeverDenied [lockedShard] := by
  intro h
  obtain ⟨s, hstart, hindex⟩ := startUp_eq [lockedShard]
  have hnot : digitsA.1 ∉ s.query_engine.members := by
    rw [hindex, QueryEngine.mem_members_foldl_inserted, QueryEngine.members_new]
    simp [shownIdentifiers, identifiersOf, RegisteredShard.shown, lockedShard]
  have hreq := insertRequest_shortPost digitsA digitsB httpTail
  obtain ⟨s', hhandle⟩ := handle_of_not_mem hreq hnot
  have hstored : digitsA.1 ∈ storedIdentifiers [lockedShard] := by decide +kernel
  exact (h s s hstart .refl _ hstored).2 _ _ _ rfl hreq _ _ hhandle rfl

end Main
