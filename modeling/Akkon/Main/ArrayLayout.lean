import Akkon.Main.JsonLayout

/-!
# JSON arrays in any layout

The message `exists_batch` has its identifiers in an array, and white space may stand around the
brackets, the colon, the elements and the commas. `extractJsonArray` looks for the key and for the
next brackets, and reads a text out of each piece between two commas.

* `ArrayMember`: a key with an array of texts, as it is written;
* `getlines_inside`: the pieces between the commas, for an array with elements and for an empty one;
* `extractJsonArray_arrayMember`: the texts are read back in their order.
-/

namespace Main

open Cpp

/-- A text that is written in an array as it stands, without a character of the array itself. -/
abbrev ArrayText := { s : Bytes // 34 ∉ s ∧ 44 ∉ s ∧ 91 ∉ s ∧ 92 ∉ s ∧ 93 ∉ s }

/-- An element of an array, with its white space. -/
structure ArrayElement where
  before : White
  value : ArrayText
  after : White

/-- An element as it is written. -/
def ArrayElement.text (e : ArrayElement) : Bytes := e.before.1 ++ (quoted e.value.1 ++ e.after.1)

/-- A member of an object whose value is an array of texts, with the white space from its key on. -/
structure ArrayMember where
  /-- What is written between the quotes. -/
  key : Bytes
  beforeColon : White
  afterColon : White
  /-- The white space of an array without elements. -/
  empty : White
  elements : List ArrayElement

namespace ArrayMember

variable (m : ArrayMember)

/-- The text between the brackets. -/
def inside : Bytes :=
  match m.elements with
  | [] => m.empty.1
  | e :: es => [44].intercalate ((e :: es).map ArrayElement.text)

/-- The text behind the key. -/
def tail : Bytes := m.beforeColon.1 ++ 58 :: (m.afterColon.1 ++ 91 :: (m.inside ++ [93]))

/-- The texts of the elements. -/
def values : List Bytes := m.elements.map fun e => e.value.1

end ArrayMember

/-- In `a ++ (t ++ b)` the text `t` does not occur in front of this place. -/
def OccursFirst (t a b : Bytes) : Prop :=
  ∀ x y, a ++ (t ++ b) = x ++ (t ++ y) → a.length ≤ x.length

/-- The first occurrence is the one that is found. -/
theorem occursFirst_iff {t a b : Bytes} :
    OccursFirst t a b ↔ find (a ++ (t ++ b)) t = some a.length := by
  constructor
  · intro h
    have hinfix : t <:+: a ++ (t ++ b) := ⟨a, b, List.append_assoc a t b⟩
    obtain ⟨n, hn⟩ := Option.ne_none_iff_exists'.mp (mt find_eq_none_iff.mp (not_not.mpr hinfix))
    have hcut := eq_append_of_find hn
    rw [List.append_assoc] at hcut
    -- it is neither in front of the first occurrence nor behind it
    have hle := h _ _ hcut
    rw [List.length_take_of_le (prefix_of_find hn).2] at hle
    rw [hn, Nat.le_antisymm (le_of_find hn) hle]
  · intro h x y hxy
    rw [hxy] at h
    exact le_of_find h

instance (t a b : Bytes) : Decidable (OccursFirst t a b) := decidable_of_iff _ occursFirst_iff.symm

/-! ## White space -/

theorem White.not_mem (white : White) {c : UInt8} (hc : Json.isWs c = false) : c ∉ white.1 := by
  intro hmem
  have hws := List.all_eq_true.mp white.2 c hmem
  rw [hc] at hws
  cases hws

/-- A character of an element is white space, one of its quotes or a character of its text. -/
theorem ArrayElement.not_mem_text (e : ArrayElement) {c : UInt8} (hc : Json.isWs c = false)
    (hquote : c ≠ 34) (hvalue : c ∉ e.value.1) : c ∉ e.text := by
  have hbefore := e.before.not_mem hc
  have hafter := e.after.not_mem hc
  simp [text, quoted, lit, hbefore, hafter, hquote, hvalue]

/-- White space in front of the quotes and behind them is not read. -/
theorem quotedItem_text (e : ArrayElement) : quotedItem e.text = .ok (some e.value.1) :=
  quotedItem_eq (e.before.not_mem (by decide)) e.value.2.1 e.after.1

namespace ArrayMember

variable (m : ArrayMember)

theorem not_mem_inside : 93 ∉ m.inside := by
  rw [inside]
  split
  · exact m.empty.not_mem (by decide)
  · refine not_mem_intercalate (by decide) fun piece hpiece => ?_
    obtain ⟨e, -, rfl⟩ := List.mem_map.mp hpiece
    exact e.not_mem_text (by decide) (by decide) e.value.2.2.2.2.2

/-- The pieces of an array with elements are these elements. -/
theorem getlines_elements (es : List ArrayElement) :
    getlines ([44].intercalate (es.map ArrayElement.text)) = es.map ArrayElement.text := by
  apply getlines_intercalate
  intro piece hpiece
  obtain ⟨e, -, rfl⟩ := List.mem_map.mp hpiece
  exact ⟨e.not_mem_text (by decide) (by decide) e.value.2.2.1,
    by simp [ArrayElement.text, quoted, lit]⟩

/-- The white space of an empty array is one piece without a text, or no piece at all. -/
theorem quotedItems_white (white : White) : quotedItems (getlines white.1) = .ok [] := by
  by_cases hne : white.1 = []
  · rw [hne]
    rfl
  · have hpieces : ∀ piece ∈ [white.1], 44 ∉ piece ∧ piece ≠ [] := by
      simpa [hne] using white.not_mem (c := 44) (by decide)
    have hpiece := getlines_intercalate hpieces
    rw [List.intercalate_singleton] at hpiece
    have hquote : find white.1 (lit "\"") = none :=
      find_eq_none_of_not_mem (by decide) (white.not_mem (c := 34) (by decide))
    rw [hpiece, quotedItems, quotedItem, hquote]
    rfl

/-- The texts are what is read between the brackets. -/
theorem quotedItems_inside : quotedItems (getlines m.inside) = .ok m.values := by
  rw [inside, values]
  split
  · next hnil =>
    rw [hnil]
    exact quotedItems_white m.empty
  · next e es hcons =>
    rw [getlines_elements, hcons]
    exact quotedItems_map fun e _ => quotedItem_text e

/-- The array of a key that occurs first as the key of its member is read back. The brackets are
searched from the key on, so there is none in the key itself. -/
theorem extractJsonArray_arrayMember {a rest : Bytes} (hkey : 91 ∉ m.key)
    (hfirst : OccursFirst (quoted m.key) a (m.tail ++ rest)) :
    extractJsonArray (a ++ (quoted m.key ++ (m.tail ++ rest))) m.key = .ok m.values := by
  have hsplit : a ++ (quoted m.key ++ (m.tail ++ rest)) =
      a ++ ((quoted m.key ++ (m.beforeColon.1 ++ 58 :: m.afterColon.1)) ++
        91 :: (m.inside ++ 93 :: rest)) := by
    simp [tail]
  -- the first bracket behind the start of the key opens the array
  have hgap : 91 ∉ quoted m.key ++ (m.beforeColon.1 ++ 58 :: m.afterColon.1) := by
    have hbefore := m.beforeColon.not_mem (c := 91) (by decide)
    have hafter := m.afterColon.not_mem (c := 91) (by decide)
    simp [quoted, lit, hkey, hbefore, hafter]
  rw [extractJsonArray_eq_quotedItems hsplit (occursFirst_iff.mp hfirst) hgap m.not_mem_inside]
  exact m.quotedItems_inside

end ArrayMember

/-- Three identifiers, one of them empty, with white space around them. -/
def spacedIdentifiers : ArrayMember where
  key := lit "identifiers"
  beforeColon := blank
  afterColon := ⟨lit "\n\t", by decide⟩
  empty := noWhite
  elements :=
    [⟨blank, ⟨lit "ab c", by decide⟩, noWhite⟩,
      ⟨noWhite, ⟨[], by decide⟩, blank⟩,
      ⟨⟨lit "\r\n ", by decide⟩, ⟨lit "0:d", by decide⟩, blank⟩]

theorem extractJsonArray_spacedIdentifiers :
    91 ∉ spacedIdentifiers.key ∧
      OccursFirst (quoted spacedIdentifiers.key) (lit "\x7b\"action\": \"exists_batch\", ")
        (spacedIdentifiers.tail ++ lit ", \"batch_id\": \"7\"\x7d") ∧
      extractJsonArray (lit "\x7b\"action\": \"exists_batch\", " ++ (quoted spacedIdentifiers.key ++
          (spacedIdentifiers.tail ++ lit ", \"batch_id\": \"7\"\x7d"))) spacedIdentifiers.key =
        .ok spacedIdentifiers.values := by
  have hfirst : OccursFirst (quoted spacedIdentifiers.key)
      (lit "\x7b\"action\": \"exists_batch\", ")
      (spacedIdentifiers.tail ++ lit ", \"batch_id\": \"7\"\x7d") := by decide
  exact ⟨by decide, hfirst, spacedIdentifiers.extractJsonArray_arrayMember (by decide) hfirst⟩

end Main
