import Akkon.Construction.ImportScan
import Akkon.ToMathlib.SqlText

/-!
# The texts of the statements

The texts that `scanAndImportUnmapped` and `recreateMissing` give to `sqlite3_exec` for the row of an
imported file. The import escapes the three values of the row. `recreateMissing` escapes only the
path, which is that of the file it creates.

* `escapeSqlString_exact`: an escaped value is read back out of its literal;
* `stores_importSql`: the statement of the import stores the values of the row;
* `storesExactly_iff`: both statements do exactly when neither the identifier nor the creation date
  has a quote and the path is that of the file named for the identifier.
-/

namespace Construction

open Cpp

namespace MasterDB

/-- The statement of `scanAndImportUnmapped`. -/
def importSql (info : DatabaseInfo) : Bytes :=
  lit "INSERT INTO databases (uuid, creation_date, file_path, status) VALUES ('"
    ++ escapeSqlString info.uuid ++ lit "', '" ++ escapeSqlString info.creationDate ++ lit "', '"
    ++ escapeSqlString info.filePos ++ lit "', 'unmapped');"

/-- `sqlite3_exec` of the text executes one statement, with these values for its literals. -/
def Executes (sql : Bytes) (values : List Bytes) : Prop := Sql.Stores (cStr sql) values

end MasterDB

/-- None of the three texts has a NUL. -/
structure DatabaseInfo.NulFree (info : DatabaseInfo) : Prop where
  uuid : 0 ∉ info.uuid
  creationDate : 0 ∉ info.creationDate
  filePos : 0 ∉ info.filePos

/-- For the row of a file, the statement of the import and the statement of `recreateMissing` store
exactly its identifier, its creation date and its path. -/
def MasterDB.StoresExactly (host : Host) (info : DatabaseInfo) : Prop :=
  MasterDB.Executes (MasterDB.importSql info)
      [info.uuid, info.creationDate, info.filePos, lit "unmapped"] ∧
    MasterDB.Executes
      (MasterDB.metadataSql (lit "INSERT OR REPLACE") info.uuid info.creationDate
        (host.databasePath info.uuid))
      [info.uuid, info.creationDate, info.filePos]

namespace MasterDB

variable {info : DatabaseInfo} {uuid creationDate path : Bytes}

theorem not_mem_escapeSqlString {c : UInt8} (hc : c ≠ 39) {s : Bytes} (h : c ∉ s) :
    c ∉ escapeSqlString s := by
  intro hmem
  obtain ⟨d, hd, hcd⟩ := List.mem_flatMap.mp hmem
  split_ifs at hcd
  · simp [hc] at hcd
  · exact h (List.mem_singleton.mp hcd ▸ hd)

theorem escapeSqlString_eq (s : Bytes) : escapeSqlString s = Sql.doubled s := rfl

/-- An escaped text between quotes is read back, no two texts are escaped alike, and whatever stands
behind an escaped text, its literal is closed there. -/
theorem escapeSqlString_exact (s : Bytes) {rest : Bytes} (hrest : rest.head? ≠ some 39) :
    Sql.literal (39 :: (escapeSqlString s ++ 39 :: rest)) = some (s, rest) ∧
      Function.Injective escapeSqlString ∧
      ∀ t value behind, Sql.literal (39 :: (escapeSqlString s ++ t)) = some (value, behind) →
        ∃ v w, value = s ++ v ∧ t = w ++ 39 :: behind := by
  refine ⟨?_, Sql.doubled_injective, ?_⟩
  · rw [Sql.literal_quote, escapeSqlString_eq]
    exact Sql.literalTail_doubled s hrest
  · intro t value behind h
    rw [Sql.literal_quote, escapeSqlString_eq, Sql.literalTail_doubled_append] at h
    obtain ⟨p, hp, heq⟩ := Option.map_eq_some_iff.mp h
    simp only [Prod.mk.injEq] at heq
    -- what is read behind the escaped text ends with a quote of `t`
    obtain ⟨w, hw⟩ := Sql.exists_eq_of_literalTail hp
    exact ⟨p.1, w, heq.1.symm, heq.2 ▸ hw⟩

/-- A text with quotes at both ends and a run of them inside, in front of another value. -/
theorem escapeSqlString_exact_runs :
    (lit ", 'unmapped');").head? ≠ some 39 ∧
      Sql.literal (39 :: (escapeSqlString (lit "'a'''b'") ++ 39 :: lit ", 'unmapped');")) =
        some (lit "'a'''b'", lit ", 'unmapped');") ∧
      Function.Injective escapeSqlString ∧
      ∀ t value behind,
        Sql.literal (39 :: (escapeSqlString (lit "'a'''b'") ++ t)) = some (value, behind) →
          ∃ v w, value = lit "'a'''b'" ++ v ∧ t = w ++ 39 :: behind :=
  ⟨by decide, escapeSqlString_exact (lit "'a'''b'") (by decide)⟩

theorem importSql_eq (info : DatabaseInfo) : importSql info =
    lit "INSERT INTO databases (uuid, creation_date, file_path, status) VALUES (" ++
      (Sql.valueList [info.uuid, info.creationDate, info.filePos, lit "unmapped"] ++ [41, 59]) := by
  have hstatus : Sql.doubled (lit "unmapped") = lit "unmapped" := by decide
  simp only [importSql, Sql.valueList, hstatus, escapeSqlString_eq]
  simp [lit]

/-- A statement for a metadata row whose first two values have no quotes. -/
theorem metadataSql_eq (verb path : Bytes) (huuid : 39 ∉ uuid) (hdate : 39 ∉ creationDate) :
    metadataSql verb uuid creationDate path =
      (verb ++ lit " INTO metadata VALUES (") ++
        (Sql.valueList [uuid, creationDate, path] ++ [41, 59]) := by
  simp only [metadataSql, Sql.valueList, Sql.doubled_of_not_mem huuid,
    Sql.doubled_of_not_mem hdate, escapeSqlString_eq]
  simp [lit]

/-- All values of the import are escaped. -/
theorem stores_importSql (h : info.NulFree) :
    Executes (importSql info) [info.uuid, info.creationDate, info.filePos, lit "unmapped"] := by
  have hnul : 0 ∉ importSql info := by
    have huuid := not_mem_escapeSqlString (c := 0) (by decide) h.uuid
    have hdate := not_mem_escapeSqlString (c := 0) (by decide) h.creationDate
    have hpath := not_mem_escapeSqlString (c := 0) (by decide) h.filePos
    simp [importSql, lit, huuid, hdate, hpath]
  rw [Executes, cStr_eq_self hnul, importSql_eq]
  exact Sql.stores_valueList (by decide) (by decide) (by simp)

/-- The values of `recreateMissing` are stored exactly when the first two have no quotes. -/
theorem executes_metadataSql_iff (huuid : 0 ∉ uuid) (hdate : 0 ∉ creationDate) (hpath : 0 ∉ path)
    {values : List Bytes} :
    Executes (metadataSql (lit "INSERT OR REPLACE") uuid creationDate path)
        (uuid :: creationDate :: values) ↔
      39 ∉ uuid ∧ 39 ∉ creationDate ∧ values = [path] := by
  have hnul : 0 ∉ metadataSql (lit "INSERT OR REPLACE") uuid creationDate path := by
    have hescaped := not_mem_escapeSqlString (c := 0) (by decide) hpath
    simp [metadataSql, lit, huuid, hdate, hescaped]
  rw [Executes, cStr_eq_self hnul]
  constructor
  · -- the statement cut at its first two literals, whose values are not escaped
    rintro ⟨tokens, hlex, -, hliterals⟩
    have hsplit : metadataSql (lit "INSERT OR REPLACE") uuid creationDate path =
        lit "INSERT OR REPLACE INTO metadata VALUES (" ++ 39 :: (uuid ++ 39 :: 44 ::
          32 :: 39 :: (creationDate ++ 39 :: 44 :: 32 :: (Sql.valueList [path] ++ [41, 59]))) := by
      simp only [metadataSql, Sql.valueList, escapeSqlString_eq]
      simp [lit]
    rw [hsplit] at hlex
    -- one literal after the other is what was put there
    obtain ⟨hu, tokens', hlex', hliterals'⟩ :=
      Sql.not_mem_of_literals_eq (by decide) hlex hliterals
    obtain ⟨hd, tokens'', hlex'', hliterals''⟩ :=
      Sql.not_mem_of_literals_eq (p := [44, 32]) (by decide) hlex' hliterals'
    obtain ⟨statement, hpathLex, -, hpathLiterals⟩ :=
      @Sql.exists_lex_valueList [path] (by simp)
    rw [Sql.lex_cons (by decide), Sql.lex_cons (by decide), hpathLex] at hlex''
    obtain rfl := Option.some.inj hlex''
    refine ⟨hu, hd, ?_⟩
    rw [← hliterals'', ← hpathLiterals]
    simp [Sql.literals]
  · rintro ⟨hu, hd, rfl⟩
    rw [metadataSql_eq _ _ hu hd]
    exact Sql.stores_valueList (by decide) (by decide) (by simp)

/-- For every imported file, both statements store exactly the values of its row exactly when
neither the identifier nor the creation date has a quote and the row has the path of the file that
is named for its identifier. -/
theorem storesExactly_iff (host : Host) (w : World) (name : Bytes)
    (h : (importInfo host w name).NulFree) :
    StoresExactly host (importInfo host w name) ↔
      39 ∉ (importInfo host w name).uuid ∧ 39 ∉ (importInfo host w name).creationDate ∧
        host.databasePath (importInfo host w name).uuid = (importInfo host w name).filePos := by
  -- the path of the row begins with the directory
  have hdir : 0 ∉ host.dbDir := fun hmem =>
    h.filePos (List.mem_append_left _ (List.mem_append_left _ hmem))
  have hname : 0 ∉ databaseName (importInfo host w name).uuid := by
    simp [databaseName, lit, h.uuid]
  have hpath : 0 ∉ host.databasePath (importInfo host w name).uuid := by
    unfold Host.databasePath Host.child Host.entryPath
    split_ifs
    · exact hname
    · simp [lit, hdir, hname]
  rw [StoresExactly, executes_metadataSql_iff h.uuid h.creationDate hpath,
    and_iff_right (stores_importSql h), List.cons.injEq, and_iff_left rfl, eq_comm]

/-- An empty registry, and files without metadata. -/
def bareWorld : World where
  registry := Registry.empty
  disk := fun _ => some ⟨none⟩

theorem storesExactly_iff_bare :
    StoresExactly plainHost (importInfo plainHost bareWorld (lit "a.db")) ↔
      39 ∉ (importInfo plainHost bareWorld (lit "a.db")).uuid ∧
        39 ∉ (importInfo plainHost bareWorld (lit "a.db")).creationDate ∧
          plainHost.databasePath (importInfo plainHost bareWorld (lit "a.db")).uuid =
            (importInfo plainHost bareWorld (lit "a.db")).filePos :=
  storesExactly_iff plainHost bareWorld (lit "a.db") ⟨by decide, by decide, by decide⟩

/-- A file with a quote in its name is imported under that name. -/
theorem importInfo_quoted : importInfo plainHost bareWorld (lit "a'b.db") =
    { uuid := lit "a'b", creationDate := newYear.text, filePos := lit "/db/a'b.db",
      status := lit "unmapped" } := by
  decide

/-- The quote in the identifier ends its literal. -/
theorem not_storesExactly_quoted :
    (importInfo plainHost bareWorld (lit "a'b.db")).NulFree ∧
      ¬ StoresExactly plainHost (importInfo plainHost bareWorld (lit "a'b.db")) := by
  rw [importInfo_quoted]
  refine ⟨⟨by decide, by decide, by decide⟩, fun h => ?_⟩
  have hquote := (executes_metadataSql_iff (by decide) (by decide) (by decide)).mp h.2
  exact absurd hquote.1 (by decide)

end MasterDB

end Construction
