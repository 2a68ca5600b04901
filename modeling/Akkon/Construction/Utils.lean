import Akkon.Cpp.String
import Mathlib.Data.Fintype.BigOperators

/-!
# `construction/Utils`

Texts in SQL statements, generated identifiers, timestamps and file names.

* `literal_escapeSqlString`: an escaped text between quotes denotes the text;
* `literal_of_not_mem`: so does a text without quotes that is not escaped;
* `not_mem_generateUUID`: a generated identifier has hexadecimal digits and dashes only;
* `exists_generateUUID_not_mem`: no registry has all of them.
-/

namespace Construction

open Cpp

/-! ## SQL literals -/

/-- `escapeSqlString`: every quote is doubled. -/
def escapeSqlString (input : Bytes) : Bytes :=
  input.flatMap fun c => if c = 39 then [39, 39] else [c]

/-- The text that SQL reads between two single quotes: a doubled quote stands for one. A single
quote in between ends the literal early, so the statement is not the one it was meant to be
(`none`). -/
def literal : Bytes → Option Bytes
  | [] => some []
  | [c] => if c = 39 then none else some [c]
  | c :: d :: s =>
    if c = 39 then if d = 39 then (literal s).map (39 :: ·) else none
    else (literal (d :: s)).map (c :: ·)

theorem literal_cons {c : UInt8} (hc : c ≠ 39) (s : Bytes) :
    literal (c :: s) = (literal s).map (c :: ·) := by
  cases s <;> simp [literal, hc]

@[simp]
theorem literal_escapeSqlString (s : Bytes) : literal (escapeSqlString s) = some s := by
  induction s with
  | nil => rfl
  | cons c s ih =>
    by_cases hc : c = 39
    · subst hc
      change literal (39 :: 39 :: escapeSqlString s) = _
      simp [literal, ih]
    · have hcons : escapeSqlString (c :: s) = c :: escapeSqlString s := by
        simp [escapeSqlString, hc]
      rw [hcons, literal_cons hc, ih]
      rfl

theorem literal_of_not_mem {s : Bytes} (h : 39 ∉ s) : literal s = some s := by
  induction s with
  | nil => rfl
  | cons c s ih =>
    obtain ⟨hc, hs⟩ := not_or.mp (fun hmem => h (List.mem_cons.mpr hmem))
    rw [literal_cons (Ne.symm hc), ih hs]
    rfl

/-! ## Generated texts -/

/-- A digit as `std::hex` writes it. -/
def hexChar (n : ℕ) : UInt8 := if n < 10 then 48 + n.toUInt8 else 87 + n.toUInt8

/-- `generateUUID`, for the number the distribution gives at each position. -/
def generateUUID (dis : ℕ → Fin 16) : Bytes :=
  (List.range 36).map fun i =>
    if i = 8 ∨ i = 13 ∨ i = 18 ∨ i = 23 then 45
    else if i = 14 then 52
    else if i = 19 then hexChar (((dis i).val &&& 3) ||| 8)
    else hexChar (dis i).val

/-- The characters of a generated identifier. -/
theorem not_mem_generateUUID {c : UInt8} (hc : c = 39 ∨ c = 47 ∨ c = 46 ∨ c = 0)
    (dis : ℕ → Fin 16) :
    c ∉ generateUUID dis := by
  have hchar : ∀ n < 16, hexChar n ≠ c := by
    intro n hn
    rcases hc with rfl | rfl | rfl | rfl <;> revert n <;> decide
  intro hmem
  obtain ⟨i, -, hi⟩ := List.mem_map.mp hmem
  have hmask : ∀ d : Fin 16, (d.val &&& 3) ||| 8 < 16 := by decide
  split at hi
  · rcases hc with rfl | rfl | rfl | rfl <;> exact absurd hi (by decide)
  · split at hi
    · rcases hc with rfl | rfl | rfl | rfl <;> exact absurd hi (by decide)
    · split at hi
      · exact hchar _ (hmask (dis i)) hi
      · exact hchar _ (dis i).isLt hi

/-- Different digits are different characters. -/
theorem hexChar_inj : ∀ a b : Fin 16, hexChar a.val = hexChar b.val → a = b := by
  decide

/-- The numbers that give the first eight digits. -/
def leadingDigits (f : Fin 8 → Fin 16) (i : ℕ) : Fin 16 := if h : i < 8 then f ⟨i, h⟩ else 0

theorem getElem?_generateUUID (dis : ℕ → Fin 16) (i : Fin 8) :
    (generateUUID dis)[i.val]? = some (hexChar (dis i).val) := by
  have hlt : i.val < 36 := i.isLt.trans (by omega)
  have hdash : ¬(i.val = 8 ∨ i.val = 13 ∨ i.val = 18 ∨ i.val = 23) := by omega
  have hmark : i.val ≠ 14 ∧ i.val ≠ 19 := by omega
  rw [generateUUID, List.getElem?_map, List.getElem?_range hlt, Option.map_some, if_neg hdash,
    if_neg hmark.1, if_neg hmark.2]

theorem generateUUID_injective : Function.Injective fun f => generateUUID (leadingDigits f) := by
  intro f g h
  ext i : 1
  have hchar := congrArg (fun s : Bytes => s[i.val]?) h
  simp only [getElem?_generateUUID, Option.some.injEq] at hchar
  simpa [leadingDigits] using hexChar_inj _ _ hchar

/-- A registry does not have all identifiers. -/
theorem exists_generateUUID_not_mem {uuids : List Bytes} (h : uuids.length < 2 ^ 31) :
    ∃ dis, generateUUID dis ∉ uuids := by
  by_contra hall
  push Not at hall
  have hsubset : Finset.univ.image (fun f => generateUUID (leadingDigits f)) ⊆ uuids.toFinset := by
    intro uuid huuid
    obtain ⟨f, -, rfl⟩ := Finset.mem_image.mp huuid
    exact List.mem_toFinset.mpr (hall _)
  have hcard := Finset.card_le_card hsubset
  rw [Finset.card_image_of_injective _ generateUUID_injective, Finset.card_univ, Fintype.card_fun,
    Fintype.card_fin, Fintype.card_fin] at hcard
  have hlength := List.toFinset_card_le uuids
  omega

/-- What `std::put_time` makes of the format `%Y-%m-%d %H:%M:%S`: a text without quotes. -/
structure Timestamp where
  text : Bytes
  no_quote : 39 ∉ text

/-! ## File names -/

/-- A name of a file in a directory. -/
def IsName (name : Bytes) : Prop :=
  name ≠ [] ∧ 47 ∉ name ∧ name ≠ lit "." ∧ name ≠ lit ".."

instance (name : Bytes) : Decidable (IsName name) :=
  inferInstanceAs (Decidable (name ≠ [] ∧ 47 ∉ name ∧ name ≠ lit "." ∧ name ≠ lit ".."))

/-- `stem()` and `extension()` of a name: the name is cut in front of its last dot, unless it starts
with that. -/
def splitExtension (name : Bytes) : Bytes × Bytes :=
  let ext := name.reverse.takeWhile (· != 46)
  let stem := name.take (name.length - (ext.length + 1))
  if 46 ∈ name ∧ stem ≠ [] then (stem, 46 :: ext.reverse) else (name, [])

/-- The name of the file of a database. -/
def databaseName (uuid : Bytes) : Bytes := uuid ++ lit ".db"

/-- `dbPath.stem()` of a database file is the identifier it was named for. -/
theorem splitExtension_databaseName {uuid : Bytes} (hne : uuid ≠ []) :
    splitExtension (databaseName uuid) = (uuid, lit ".db") := by
  have hlit : lit ".db" = [46, 100, 98] := by decide
  have hext : (databaseName uuid).reverse.takeWhile (· != 46) = [98, 100] := by
    rw [databaseName, hlit, List.reverse_append]
    rfl
  have hstem : (databaseName uuid).take ((databaseName uuid).length - (2 + 1)) = uuid := by
    simp [databaseName, hlit]
  have hdot : (46 : UInt8) ∈ databaseName uuid := by simp [databaseName, hlit]
  rw [splitExtension]
  simp only [hext]
  change (if 46 ∈ databaseName uuid ∧
    (databaseName uuid).take ((databaseName uuid).length - (2 + 1)) ≠ [] then _ else _) = _
  rw [hstem, if_pos ⟨hdot, hne⟩, hlit]
  exact congrArg (·, _) hstem

/-- A file name that is only an extension has none. -/
theorem splitExtension_databaseName_nil : splitExtension (databaseName []) = (lit ".db", []) := by
  decide

theorem isName_databaseName {uuid : Bytes} (h : 47 ∉ uuid) : IsName (databaseName uuid) := by
  have hlit : lit ".db" = [46, 100, 98] := by decide
  refine ⟨by simp [databaseName, hlit], by simp [databaseName, hlit, h], ?_, ?_⟩
  · intro heq
    have hlen := congrArg List.length heq
    simp [databaseName, lit] at hlen
  · intro heq
    have hlen := congrArg List.length heq
    simp [databaseName, lit] at hlen

theorem databaseName_inj {u v : Bytes} : databaseName u = databaseName v ↔ u = v :=
  List.append_left_inj _

end Construction
