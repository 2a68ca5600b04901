import Akkon.Cpp.String

/-!
# The text extractors of `main.cpp`

`extractJsonString`, `extractJsonArray` and `extractQueryString` search the raw text for a field.
All of them cut with `substr`, which throws past the end.

* `extractJsonString_isOk`, `extractJsonArray_isOk`, `extractQueryString_isOk`: none of them
  ever does;
* `extractJsonString_eq`, `extractJsonArray_eq`, `extractQueryString_eq`: what they read, given
  where the field is first found.
-/

namespace Main

open Cpp

/-- The text in double quotes. -/
def quoted (s : Bytes) : Bytes := lit "\"" ++ s ++ lit "\""

/-- `extractJsonString`. -/
def extractJsonString (json field : Bytes) : Except Exn Bytes :=
  match (find json (quoted field ++ lit ":\"")).or (find json (quoted field ++ lit ": \"")) with
  | none => .ok []
  | some start =>
    -- the search for the opening quote begins behind the colon
    match findFrom json (lit "\"") (start + field.length + 3) with
    | none => .ok []
    | some pos =>
      match findFrom json (lit "\"") (pos + 1) with
      | none => .ok []
      | some stop => substr json (pos + 1) (stop - pos - 1)

/-- `while (std::getline(ss, item, ','))`: the pieces between commas, without an empty last one. -/
def getlines (s : Bytes) : List Bytes :=
  let pieces := s.splitOn 44
  if pieces.getLast? = some [] then pieces.dropLast else pieces

/-- The first quoted text of a piece, `none` when there is none. -/
def quotedItem (item : Bytes) : Except Exn (Option Bytes) :=
  match find item (lit "\"") with
  | none => .ok none
  | some start =>
    match findFrom item (lit "\"") (start + 1) with
    | none => .ok none
    | some stop => (substr item (start + 1) (stop - start - 1)).map some

/-- The loop of `extractJsonArray`. -/
def quotedItems : List Bytes → Except Exn (List Bytes)
  | [] => .ok []
  | item :: rest => do
    let first ← quotedItem item
    let others ← quotedItems rest
    return first.toList ++ others

/-- `extractJsonArray`. -/
def extractJsonArray (json field : Bytes) : Except Exn (List Bytes) :=
  match find json (quoted field) with
  | none => .ok []
  | some field_pos =>
    match findFrom json (lit "[") field_pos with
    | none => .ok []
    | some start_bracket =>
      match findFrom json (lit "]") start_bracket with
      | none => .ok []
      | some end_bracket => do
        let array_content ← substr json (start_bracket + 1) (end_bracket - start_bracket - 1)
        quotedItems (getlines array_content)

/-- `extractQueryString`. The length passed to `substr` is a `size_t` difference. -/
def extractQueryString (path field : Bytes) : Except Exn Bytes :=
  match find path (field ++ lit "=") with
  | none => .ok []
  | some pos =>
    match (findFrom path (lit "&") pos).or (findFrom path (lit " ") pos) with
    | none => .ok []
    | some stop =>
      let start := pos + (field ++ lit "=").length
      -- with a `&` inside the name of the field the difference would wrap
      substr path start (wrap64 (stop + 2 ^ 64 - start))

/-! ## None of them throws -/

/-- What is read behind a quote starts inside the text. -/
theorem substr_behind_quote {s : Bytes} {pos p : ℕ} (h : findFrom s (lit "\"") pos = some p)
    (n : ℕ) : ∃ v, substr s (p + 1) n = .ok v :=
  ⟨_, substr_eq_ok n (lt_length_of_findFrom (by decide) h)⟩

theorem extractJsonString_isOk (json field : Bytes) :
    ∃ v, extractJsonString json field = .ok v := by
  unfold extractJsonString
  split
  · exact ⟨[], rfl⟩
  · split
    · exact ⟨[], rfl⟩
    · next hpos =>
      split
      · exact ⟨[], rfl⟩
      · exact substr_behind_quote hpos _

theorem quotedItem_isOk (item : Bytes) : ∃ v, quotedItem item = .ok v := by
  unfold quotedItem
  split
  · exact ⟨none, rfl⟩
  · next start hstart =>
    split
    · exact ⟨none, rfl⟩
    · -- the quote was found inside the piece
      have hle : start + 1 ≤ item.length := add_length_le_of_find hstart
      exact ⟨_, by rw [substr_eq_ok _ hle]; rfl⟩

theorem quotedItems_isOk (items : List Bytes) : ∃ v, quotedItems items = .ok v := by
  induction items with
  | nil => exact ⟨[], rfl⟩
  | cons item rest ih =>
    obtain ⟨first, hfirst⟩ := quotedItem_isOk item
    obtain ⟨others, hothers⟩ := ih
    exact ⟨first.toList ++ others, by rw [quotedItems, hfirst, hothers]; rfl⟩

theorem extractJsonArray_isOk (json field : Bytes) :
    ∃ v, extractJsonArray json field = .ok v := by
  unfold extractJsonArray
  split
  · exact ⟨[], rfl⟩
  · split
    · exact ⟨[], rfl⟩
    · next start_bracket hopen =>
      split
      · exact ⟨[], rfl⟩
      · have hle : start_bracket + 1 ≤ json.length := lt_length_of_findFrom (by decide) hopen
        rw [substr_eq_ok _ hle]
        exact quotedItems_isOk _

theorem extractQueryString_isOk (path field : Bytes) :
    ∃ v, extractQueryString path field = .ok v := by
  unfold extractQueryString
  split
  · exact ⟨[], rfl⟩
  · next pos hpos =>
    split
    · exact ⟨[], rfl⟩
    · exact ⟨_, substr_eq_ok _ (add_length_le_of_find hpos)⟩

/-! ## What they read -/

/-- The key of a JSON field, up to the quote in front of its value. -/
abbrev jsonKey (field : Bytes) : Bytes := quoted field ++ lit ":\""

/-- Where one of the two spellings is found, the value runs from the first quote behind the colon to
the next one. -/
theorem extractJsonString_eq_of_start {json field a gap value rest : Bytes}
    (hjson : json = a ++ (quoted field ++ 58 :: (gap ++ 34 :: (value ++ 34 :: rest))))
    (hstart : (find json (quoted field ++ lit ":\"")).or (find json (quoted field ++ lit ": \"")) =
      some a.length)
    (hgap : 34 ∉ gap) (hvalue : 34 ∉ value) : extractJsonString json field = .ok value := by
  -- The search for the opening quote begins behind the colon, whichever spelling was found.
  have hlength : a.length + field.length + 3 = (a ++ (quoted field ++ [58])).length := by
    simp [quoted, lit]
    omega
  have hopen : findFrom json (lit "\"") (a.length + field.length + 3)
      = some (a.length + field.length + 3 + gap.length) := by
    have hsplit : json = (a ++ (quoted field ++ [58])) ++ (gap ++ 34 :: (value ++ 34 :: rest)) := by
      rw [hjson]
      simp
    rw [hsplit]
    exact findFrom_append hlength hgap _
  have hsplit : json = (a ++ (quoted field ++ [58]) ++ gap ++ [34]) ++ (value ++ 34 :: rest) := by
    rw [hjson]
    simp
  have hbehind : a.length + field.length + 3 + gap.length + 1 =
      (a ++ (quoted field ++ [58]) ++ gap ++ [34]).length := by
    rw [hlength]
    simp only [List.length_append, List.length_singleton]
  -- The value ends at the next quote.
  have hclose : findFrom json (lit "\"") (a.length + field.length + 3 + gap.length + 1)
      = some (a.length + field.length + 3 + gap.length + 1 + value.length) := by
    rw [hsplit]
    exact findFrom_append hbehind hvalue rest
  rw [extractJsonString, hstart]
  simp only [hopen, hclose]
  rw [hsplit]
  exact substr_append hbehind (by omega) _

/-- The value of a field runs from its key to the next quote. -/
theorem extractJsonString_eq {json field a rest : Bytes}
    (hjson : json = a ++ (jsonKey field ++ rest))
    (hfind : find json (jsonKey field) = some a.length) (hquote : 34 ∈ rest) :
    extractJsonString json field = .ok (rest.takeWhile (· != 34)) := by
  obtain ⟨v, w, rfl, hv⟩ := List.eq_append_cons_of_mem hquote
  rw [takeWhile_append_cons hv]
  -- the opening quote is the last character of the key
  have hsplit : json = a ++ (quoted field ++ 58 :: ([] ++ 34 :: (v ++ 34 :: w))) := by
    rw [hjson]
    simp [lit]
  exact extractJsonString_eq_of_start hsplit (by rw [hfind, Option.some_or]) (by simp) hv

/-- A piece with a quoted text in it is read as this text. -/
theorem quotedItem_eq {before item : Bytes} (hbefore : 34 ∉ before) (hitem : 34 ∉ item)
    (after : Bytes) : quotedItem (before ++ (quoted item ++ after)) = .ok (some item) := by
  have hsplit : before ++ (quoted item ++ after) = (before ++ [34]) ++ (item ++ 34 :: after) := by
    simp [quoted, lit]
  have hopen : find (before ++ (quoted item ++ after)) (lit "\"") = some before.length := by
    rw [hsplit, List.append_assoc]
    exact find_append_cons hbefore _
  have hclose : findFrom (before ++ (quoted item ++ after)) (lit "\"") (before.length + 1) =
      some (before.length + 1 + item.length) := by
    rw [hsplit]
    exact findFrom_append (by simp) hitem after
  have hcut : substr (before ++ (quoted item ++ after)) (before.length + 1)
      (before.length + 1 + item.length - before.length - 1) = .ok item := by
    rw [hsplit]
    exact substr_append (by simp) (by omega) _
  rw [quotedItem, hopen]
  simp only [hclose, hcut]
  rfl

/-- Pieces that are read as a value each. -/
theorem quotedItems_map {α : Type} {piece value : α → Bytes} {items : List α}
    (h : ∀ x ∈ items, quotedItem (piece x) = .ok (some (value x))) :
    quotedItems (items.map piece) = .ok (items.map value) := by
  induction items with
  | nil => rfl
  | cons x items ih =>
    rw [List.map_cons, quotedItems, h x (by simp), ih fun y hy => h y (List.mem_cons_of_mem x hy)]
    rfl

/-- What was joined with commas is cut at them. -/
theorem getlines_intercalate {pieces : List Bytes}
    (h : ∀ piece ∈ pieces, 44 ∉ piece ∧ piece ≠ []) :
    getlines ([44].intercalate pieces) = pieces := by
  by_cases hne : pieces = []
  · rw [hne]
    rfl
  · rw [getlines, List.splitOn_intercalate 44 (fun piece hpiece => (h piece hpiece).1) hne]
    -- no piece is empty, the last one neither
    exact if_neg fun hlast => (h [] (List.mem_of_getLast? hlast)).2 rfl

/-- A character of a joined text is in its separator or in one of its parts. -/
theorem not_mem_intercalate {c : UInt8} {sep : Bytes} {pieces : List Bytes} (hsep : c ∉ sep)
    (h : ∀ piece ∈ pieces, c ∉ piece) : c ∉ sep.intercalate pieces := by
  induction pieces with
  | nil => simp
  | cons piece pieces ih =>
    have hpiece := h piece (by simp)
    have hrest := ih fun x hx => h x (List.mem_cons_of_mem piece hx)
    cases pieces with
    | nil => simpa using hpiece
    | cons next pieces =>
      rw [List.intercalate_cons_cons]
      simp [hpiece, hsep, hrest]

/-- An array is the text up to the next closing bracket, cut at its commas. -/
theorem extractJsonArray_eq_quotedItems {json field a gap content rest : Bytes}
    (hjson : json = a ++ ((quoted field ++ gap) ++ 91 :: (content ++ 93 :: rest)))
    (hfind : find json (quoted field) = some a.length) (hgap : 91 ∉ quoted field ++ gap)
    (hcontent : 93 ∉ content) :
    extractJsonArray json field = quotedItems (getlines content) := by
  have hopen : findFrom json (lit "[") a.length =
      some (a.length + (quoted field ++ gap).length) := by
    rw [hjson]
    exact findFrom_append rfl hgap _
  have hclose : findFrom json (lit "]") (a.length + (quoted field ++ gap).length)
      = some (a.length + (quoted field ++ gap).length + (91 :: content).length) := by
    have hsplit : json = (a ++ (quoted field ++ gap)) ++ ((91 :: content) ++ 93 :: rest) := by
      rw [hjson]
      simp
    rw [hsplit]
    exact findFrom_append (by simp) (by simp [hcontent]) rest
  have hcut : substr json (a.length + (quoted field ++ gap).length + 1)
      (a.length + (quoted field ++ gap).length + (91 :: content).length -
        (a.length + (quoted field ++ gap).length) - 1) = .ok content := by
    have hsplit : json = (a ++ (quoted field ++ gap) ++ [91]) ++ (content ++ 93 :: rest) := by
      rw [hjson]
      simp
    rw [hsplit]
    exact substr_append (by simp; omega) (by simp) _
  rw [extractJsonArray, hfind]
  simp only [hopen, hclose, hcut]
  rfl

/-- Quoted texts with commas between them. -/
def quotedList (items : List Bytes) : Bytes := [44].intercalate (items.map quoted)

/-- An array of texts without white space. -/
theorem extractJsonArray_eq {json field a gap rest : Bytes} {items : List Bytes}
    (hjson : json = a ++ ((quoted field ++ gap) ++ 91 :: (quotedList items ++ 93 :: rest)))
    (hfind : find json (quoted field) = some a.length) (hgap : 91 ∉ quoted field ++ gap)
    (hitems : ∀ item ∈ items, 34 ∉ item ∧ 44 ∉ item ∧ 93 ∉ item) :
    extractJsonArray json field = .ok items := by
  have hbracket : (93 : UInt8) ∉ quotedList items := by
    refine not_mem_intercalate (by decide) fun piece hpiece => ?_
    obtain ⟨item, hitem, rfl⟩ := List.mem_map.mp hpiece
    simp [quoted, lit, (hitems item hitem).2.2]
  have hpieces : ∀ piece ∈ items.map quoted, 44 ∉ piece ∧ piece ≠ [] := by
    intro piece hpiece
    obtain ⟨item, hitem, rfl⟩ := List.mem_map.mp hpiece
    simp [quoted, lit, (hitems item hitem).2.1]
  have hread : ∀ item ∈ items, quotedItem (quoted item) = .ok (some (id item)) := by
    intro item hitem
    have hitem := @quotedItem_eq [] item (by simp) (hitems item hitem).1 []
    rwa [List.append_nil, List.nil_append] at hitem
  rw [extractJsonArray_eq_quotedItems hjson hfind hgap hbracket, quotedList,
    getlines_intercalate hpieces, quotedItems_map hread, List.map_id]

/-- The value of a query field runs to its end character: a `&` anywhere behind the field, or else a
blank. -/
theorem extractQueryString_eq {path field a rest : Bytes} {c : UInt8}
    (hpath : path = a ++ ((field ++ lit "=") ++ rest))
    (hfind : find path (field ++ lit "=") = some a.length) (hlength : path.length < 2 ^ 64)
    (hfield : c ∉ field ++ lit "=") (hc : c ∈ rest)
    (hstop : c = 38 ∨ c = 32 ∧ 38 ∉ (field ++ lit "=") ++ rest) :
    extractQueryString path field = .ok (rest.takeWhile (· != c)) := by
  obtain ⟨v, w, rfl, hv⟩ := List.eq_append_cons_of_mem hc
  have hend : findFrom path [c] a.length
      = some (a.length + ((field ++ lit "=") ++ v).length) := by
    have hsplit : path = a ++ (((field ++ lit "=") ++ v) ++ c :: w) := by
      rw [hpath, List.append_assoc (field ++ lit "=") v]
    rw [hsplit]
    exact findFrom_append rfl (by simpa [hv] using hfield) w
  -- the field is in front of its end, so the difference does not wrap
  have hwrap : wrap64 (a.length + ((field ++ lit "=") ++ v).length + 2 ^ 64 -
      (a.length + (field ++ lit "=").length)) = v.length := by
    have hv_lt : v.length < 2 ^ 64 := by
      have := congrArg List.length hpath
      simp only [List.length_append] at this
      omega
    have hsub : a.length + ((field ++ lit "=") ++ v).length + 2 ^ 64 -
        (a.length + (field ++ lit "=").length) = v.length + 2 ^ 64 := by
      simp only [List.length_append]
      omega
    rw [hsub, wrap64, Nat.add_mod_right, Nat.mod_eq_of_lt hv_lt]
  have hfirst : (findFrom path (lit "&") a.length).or (findFrom path (lit " ") a.length)
      = some (a.length + ((field ++ lit "=") ++ v).length) := by
    rcases hstop with rfl | ⟨rfl, hamp⟩
    · rw [show lit "&" = [38] from rfl, hend]
      rfl
    · have hnone : findFrom path (lit "&") a.length = none := by
        have hnot := find_eq_none_of_not_mem (t := lit "&") (by decide) hamp
        rw [findFrom, hpath, List.drop_left, hnot]
        simp
      rw [hnone, show lit " " = [32] from rfl, hend]
      rfl
  rw [extractQueryString, hfind]
  simp only [hfirst, hwrap]
  rw [takeWhile_append_cons hv, hpath, ← List.append_assoc]
  exact substr_append (by simp) rfl _

end Main
