import Akkon.Main.ShortForm
import Akkon.ToMathlib.Json

/-!
# JSON bodies in any layout

The body of an insertion is a JSON object, and white space may stand around its colons and commas.
The handler looks for a key, a colon and a quote, with one blank behind the colon or none.

* `JsonMember`, `objectText`: an object as it is written;
* `extractJsonString_member_iff`: a field is read exactly when its colon stands behind its key and
  one blank or none behind the colon;
* `insertFields_jsonInsert_iff`: the same for the two fields of an insertion.
-/

namespace Main

open Cpp

/-- JSON white space. -/
abbrev White := { s : Bytes // s.all Json.isWs = true }

/-- A value that is a string, written without quotes and backslashes, or a number. -/
inductive MemberValue
  | string (chars : { s : Bytes // 34 ∉ s ∧ 92 ∉ s })
  | number (text : { s : Bytes // Json.isNumber s = true })

/-- A value as it is written. -/
def MemberValue.text : MemberValue → Bytes
  | string chars => quoted chars.1
  | number text => text.1

/-- A member of an object, with its white space. -/
structure JsonMember where
  beforeKey : White
  /-- What is written between the quotes. -/
  key : Bytes
  beforeColon : White
  afterColon : White
  value : MemberValue
  afterValue : White

namespace JsonMember

variable (m : JsonMember)

/-- The text behind the key. -/
def tail : Bytes := m.beforeColon.1 ++ 58 :: (m.afterColon.1 ++ (m.value.text ++ m.afterValue.1))

def text : Bytes := m.beforeKey.1 ++ (quoted m.key ++ m.tail)

/-- The colon stands behind the key, and one blank or none behind the colon. -/
def Tight : Prop := m.beforeColon.1 = [] ∧ (m.afterColon.1 = [] ∨ m.afterColon.1 = [32])

end JsonMember

/-- An object as it is written. -/
def objectText (members : List JsonMember) : Bytes :=
  123 :: ([44].intercalate (members.map JsonMember.text) ++ [125])

/-- `POST /api/v1/insert`. `head` runs from the HTTP version to the white space in front of the
object. -/
def jsonInsert (head : Bytes) (members : List JsonMember) (trailing : White) : Bytes :=
  lit "POST /api/v1/insert " ++ (head ++ (objectText members ++ trailing.1))

/-- There is no other place where the text occurs. -/
def OccursOnce (t s : Bytes) : Prop :=
  ∀ a b a' b', s = a ++ (t ++ b) → s = a' ++ (t ++ b') → a = a'

/-! ## Searching for a text that occurs once -/

variable {json a b t : Bytes}

/-- What begins with the text is found where it goes on that way. -/
theorem find_of_occursOnce (honce : OccursOnce t json) (hjson : json = a ++ (t ++ b)) (s : Bytes) :
    find json (t ++ s) = if s <+: b then some a.length else none := by
  split_ifs with hs
  · obtain ⟨rest, rfl⟩ := hs
    have hinfix : t ++ s <:+: json := ⟨a, rest, by simp [hjson]⟩
    obtain ⟨n, hn⟩ := Option.ne_none_iff_exists'.mp (mt find_eq_none_iff.mp (not_not.mpr hinfix))
    -- it is found at the one place where the text occurs
    have hcut := eq_append_of_find hn
    rw [List.append_assoc, List.append_assoc] at hcut
    have ha := honce _ _ _ _ hjson hcut
    rw [hn, ha, List.length_take, Nat.min_eq_left (prefix_of_find hn).2]
  · -- another place for it would be another place for the text
    refine find_eq_none_iff.mpr fun ⟨x, rest, hinfix⟩ => hs ?_
    have hcut : json = x ++ (t ++ (s ++ rest)) := by simp [← hinfix]
    obtain rfl := honce _ _ _ _ hjson hcut
    rw [hjson] at hcut
    exact ⟨rest, (List.append_cancel_left (List.append_cancel_left hcut)).symm⟩

/-- A text begins with white space and a character that is none: where that character begins it,
there is no white space. -/
theorem cons_prefix_white_iff {c d : UInt8} (hc : Json.isWs c = false) (white : White)
    (t u : Bytes) :
    c :: t <+: white.1 ++ d :: u ↔ white.1 = [] ∧ c :: t <+: d :: u := by
  obtain ⟨_ | ⟨w, white⟩, hwhite⟩ := white
  · simp
  · refine iff_of_false (fun h => ?_) (by simp)
    -- the first character would be white space
    have hw := (Bool.and_eq_true _ _ ▸ hwhite : _ ∧ _).1
    rw [List.cons_append, List.cons_prefix_cons] at h
    rw [← h.1, hc] at hw
    cases hw

/-- The compact spelling. -/
theorem compact_prefix_iff (beforeColon afterColon : White) (u : Bytes) :
    lit ":\"" <+: beforeColon.1 ++ 58 :: (afterColon.1 ++ 34 :: u) ↔
      beforeColon.1 = [] ∧ afterColon.1 = [] := by
  rw [show lit ":\"" = [58, 34] from rfl, cons_prefix_white_iff (by decide), List.cons_prefix_cons,
    cons_prefix_white_iff (by decide)]
  simp

/-- The spelling with a blank. -/
theorem blank_prefix_iff (beforeColon afterColon : White) (u : Bytes) :
    lit ": \"" <+: beforeColon.1 ++ 58 :: (afterColon.1 ++ 34 :: u) ↔
      beforeColon.1 = [] ∧ afterColon.1 = [32] := by
  rw [show lit ": \"" = [58, 32, 34] from rfl, cons_prefix_white_iff (by decide),
    List.cons_prefix_cons]
  obtain ⟨_ | ⟨w, rest⟩, hwhite⟩ := afterColon
  · simp
  · -- behind the blank the white space is at its end
    have hrest := cons_prefix_white_iff (c := 34) (d := 34) (by decide)
      ⟨rest, (Bool.and_eq_true _ _ ▸ hwhite : _ ∧ _).2⟩ [] u
    rw [List.cons_append, List.cons_prefix_cons, hrest]
    simp [eq_comm]

/-- A field that occurs once, with a value that is not empty, is read exactly when its colon is in
one of the two spellings. -/
theorem extractJsonString_member_iff {field value rest : Bytes} {beforeColon afterColon : White}
    (honce : OccursOnce (quoted field) json)
    (hjson : json = a ++ (quoted field ++
      (beforeColon.1 ++ 58 :: (afterColon.1 ++ 34 :: (value ++ 34 :: rest)))))
    (hvalue : 34 ∉ value) (hne : value ≠ []) :
    extractJsonString json field = .ok value ↔
      beforeColon.1 = [] ∧ (afterColon.1 = [] ∨ afterColon.1 = [32]) := by
  have hcompact := find_of_occursOnce honce hjson (lit ":\"")
  have hblank := find_of_occursOnce honce hjson (lit ": \"")
  simp only [compact_prefix_iff] at hcompact
  simp only [blank_prefix_iff] at hblank
  by_cases htight : beforeColon.1 = [] ∧ (afterColon.1 = [] ∨ afterColon.1 = [32])
  · refine iff_of_true ?_ htight
    have hsplit : json =
        a ++ (quoted field ++ 58 :: (afterColon.1 ++ 34 :: (value ++ 34 :: rest))) := by
      rw [hjson, htight.1, List.nil_append]
    -- the compact spelling is searched first, then the one with a blank
    refine extractJsonString_eq_of_start hsplit ?_ ?_ hvalue
    · rw [hcompact, hblank]
      rcases htight.2 with hafter | hafter <;> simp [htight.1, hafter]
    · rcases htight.2 with hafter | hafter <;> simp [hafter]
  · refine iff_of_false (fun h => hne ?_) htight
    -- neither spelling is found, and nothing is read
    rw [if_neg fun h => htight ⟨h.1, .inl h.2⟩] at hcompact
    rw [if_neg fun h => htight ⟨h.1, .inr h.2⟩] at hblank
    rw [extractJsonString, hcompact, hblank] at h
    exact (Except.ok.inj h).symm

/-! ## Insertions -/

/-- A part of a joined text. -/
theorem exists_intercalate_eq (sep : Bytes) {part : Bytes} {parts : List Bytes}
    (h : part ∈ parts) :
    ∃ a b, sep.intercalate parts = a ++ (part ++ b) := by
  induction parts with
  | nil => cases h
  | cons first parts ih =>
    cases parts with
    | nil => exact ⟨[], [], by simpa using (List.mem_singleton.mp h).symm⟩
    | cons next parts =>
      rw [List.intercalate_cons_cons]
      rcases List.mem_cons.mp h with rfl | hrest
      · exact ⟨[], sep ++ sep.intercalate (next :: parts), by simp⟩
      · obtain ⟨a, b, hab⟩ := ih hrest
        exact ⟨first ++ sep ++ a, b, by simp [hab]⟩

section Insertion

variable (head : Bytes) {members : List JsonMember} (trailing : White)

theorem isShortInsert_jsonInsert : isShortInsert (jsonInsert head members trailing) = false := by
  have hsplit : jsonInsert head members trailing = lit "POST" ++ 32 :: (lit "/api/v1/insert" ++
      32 :: (head ++ (objectText members ++ trailing.1))) := rfl
  have hline : requestLine (jsonInsert head members trailing) =
      (lit "POST", lit "/api/v1/insert") := by
    rw [hsplit]
    exact requestLine_append (by decide) (by simp [lit, isSpace]) (by decide)
      (by simp [lit, isSpace]) (by simp [isSpace])
  rw [isShortInsert, hline]
  rfl

/-- Where a member with a string stands in the request. -/
theorem exists_jsonInsert_eq {m : JsonMember} (hm : m ∈ members) {value : Bytes}
    (hvalue : m.value.text = quoted value) : ∃ a rest,
    jsonInsert head members trailing = a ++ (quoted m.key ++
      (m.beforeColon.1 ++ 58 :: (m.afterColon.1 ++ 34 :: (value ++ 34 :: rest)))) := by
  obtain ⟨a, b, hab⟩ := exists_intercalate_eq [44] (List.mem_map_of_mem
    (f := JsonMember.text) hm)
  refine ⟨lit "POST /api/v1/insert " ++ head ++ 123 :: a ++ m.beforeKey.1,
    m.afterValue.1 ++ b ++ [125] ++ trailing.1, ?_⟩
  rw [jsonInsert, objectText, hab, JsonMember.text, JsonMember.tail, hvalue]
  simp [quoted, lit]

/-- The two fields are read exactly when each one's colon is in one of the two spellings. -/
theorem insertFields_jsonInsert_iff {m m' : JsonMember} {identifier pwk : HexId}
    (hm : m ∈ members) (hkey : m.key = lit "identifier")
    (hvalue : m.value.text = quoted identifier.1)
    (hm' : m' ∈ members) (hkey' : m'.key = lit "pwk") (hvalue' : m'.value.text = quoted pwk.1)
    (honce : OccursOnce (quoted (lit "identifier")) (jsonInsert head members trailing))
    (honce' : OccursOnce (quoted (lit "pwk")) (jsonInsert head members trailing)) :
    insertFields (jsonInsert head members trailing) = .ok (identifier.1, pwk.1) ↔
      m.Tight ∧ m'.Tight := by
  -- each field stands somewhere in the request, whatever is around it
  obtain ⟨a, rest, hjson⟩ := exists_jsonInsert_eq head trailing hm hvalue
  obtain ⟨a', rest', hjson'⟩ := exists_jsonInsert_eq head trailing hm' hvalue'
  rw [hkey] at hjson
  rw [hkey'] at hjson'
  have hne (x : HexId) : x.1 ≠ [] := List.ne_nil_of_length_pos (by rw [x.2.1]; decide)
  have hid := extractJsonString_member_iff honce hjson (identifier.not_mem rfl) (hne identifier)
  have hpwk := extractJsonString_member_iff honce' hjson' (pwk.not_mem rfl) (hne pwk)
  obtain ⟨value, hextract⟩ := extractJsonString_isOk (jsonInsert head members trailing)
    (lit "identifier")
  obtain ⟨value', hextract'⟩ := extractJsonString_isOk (jsonInsert head members trailing)
    (lit "pwk")
  rw [hextract, Except.ok.injEq] at hid
  rw [hextract', Except.ok.injEq] at hpwk
  rw [JsonMember.Tight, JsonMember.Tight, ← hid, ← hpwk, insertFields,
    if_neg (by simp [isShortInsert_jsonInsert]), hextract, hextract']
  show Except.ok (value, value') = _ ↔ _
  simp

end Insertion

/-- A text occurs once when every occurrence has the same position. -/
theorem occursOnce_of_forall {s : Bytes} {n : ℕ}
    (h : ∀ i ∈ List.range (s.length + 1), t <+: s.drop i → i = n) : OccursOnce t s := by
  have hposition {a b : Bytes} (hs : s = a ++ (t ++ b)) : a = s.take n := by
    have hlt : a.length ∈ List.range (s.length + 1) := by
      rw [List.mem_range, hs, List.length_append]
      omega
    have hprefix : t <+: s.drop a.length := by
      rw [hs, List.drop_left]
      exact List.prefix_append t b
    rw [← h a.length hlt hprefix, hs, List.take_left]
  intro a b a' b' hs hs'
  rw [hposition hs, hposition hs']

theorem HexId.unquoted (x : HexId) : 34 ∉ x.1 ∧ 92 ∉ x.1 := ⟨x.not_mem rfl, x.not_mem rfl⟩

/-- No white space. -/
def noWhite : White := ⟨[], by decide⟩

/-- One blank. -/
def blank : White := ⟨[32], by decide⟩

/-- A member for a hexadecimal value. -/
def hexMember (key : Bytes) (beforeColon afterColon : White) (value : HexId) : JsonMember :=
  ⟨noWhite, key, beforeColon, afterColon, .string ⟨value.1, value.unquoted⟩, noWhite⟩

/-- The version, and no header lines. -/
def jsonHead : Bytes := lit "HTTP/1.1\r\n\r\n"

/-- The pwk first, in the compact spelling, and the identifier with a blank behind its colon. -/
def tightMembers : List JsonMember :=
  [hexMember (lit "pwk") noWhite noWhite digitsB,
    hexMember (lit "identifier") noWhite blank digitsA]

theorem insertFields_tightMembers :
    insertFields (jsonInsert jsonHead tightMembers noWhite) = .ok (digitsA.1, digitsB.1) ↔
      (hexMember (lit "identifier") noWhite blank digitsA).Tight ∧
        (hexMember (lit "pwk") noWhite noWhite digitsB).Tight := by
  refine insertFields_jsonInsert_iff jsonHead noWhite (by simp [tightMembers]) rfl rfl
    (by simp [tightMembers]) rfl rfl ?_ ?_
  · exact occursOnce_of_forall (n := 106) (by decide +kernel)
  · exact occursOnce_of_forall (n := 33) (by decide +kernel)

/-- The same members with a blank in front of the colon of the identifier. -/
def spacedMembers : List JsonMember :=
  [hexMember (lit "pwk") noWhite noWhite digitsB,
    hexMember (lit "identifier") blank blank digitsA]

/-- The identifier is not found. -/
theorem not_insertFields_spacedMembers :
    OccursOnce (quoted (lit "identifier")) (jsonInsert jsonHead spacedMembers noWhite) ∧
      OccursOnce (quoted (lit "pwk")) (jsonInsert jsonHead spacedMembers noWhite) ∧
      insertFields (jsonInsert jsonHead spacedMembers noWhite) ≠ .ok (digitsA.1, digitsB.1) := by
  refine ⟨occursOnce_of_forall (n := 106) (by decide +kernel),
    occursOnce_of_forall (n := 33) (by decide +kernel), ?_⟩
  decide +kernel

end Main
