import Mathlib.Data.List.Infix
import Mathlib.Data.List.TakeWhile
import Mathlib.Data.UInt

/-!
# `std::string` on byte lists

The part of the C++ string API that the server's parsers call, on byte lists: `find`, `substr`,
`starts_with`, the stream extraction `iss >> token`, the conversions `stoull` and `stoi`, and the
decimal rendering of `to_string`.
A `std::string` may hold any bytes, NUL included, so nothing here is cut at a NUL; the conversion
to a C string (`c_str`) is what cuts.

* `findFrom_eq_some`: a successful `find` points at an occurrence at or after the start position;
* `find_eq_none_iff`: `find` fails exactly when there is no occurrence;
* `substr_eq_ok`: `substr` throws only past the end;
* `token_append`: the token read in front of white space is the text before it;
* `stoull16_eq_ok`: `stoull` reads a text of hexadecimal digits as the number it denotes.
-/

namespace Cpp

/-- The content of a `std::string`. -/
abbrev Bytes := List UInt8

/-- The exceptions the modelled calls can throw. -/
inductive Exn
  /-- `std::out_of_range`, thrown by `substr` past the end. -/
  | outOfRange
  /-- `std::length_error`, thrown by a constructor asked for more than `max_size` bytes. -/
  | lengthError
  /-- `std::invalid_argument`, thrown by `stoull` and `stoi` when there is no number. -/
  | invalidArgument
  deriving DecidableEq, Repr

/-- The bytes of an ASCII string literal. -/
def lit (s : String) : Bytes := s.toList.map fun c => c.toNat.toUInt8

/-- `std::string::max_size()` for 64-bit `size_t`. -/
def maxSize : ℕ := 2 ^ 63 - 1

/-- The value of a `size_t` or `uint64_t` expression whose unbounded value is `n`. -/
def wrap64 (n : ℕ) : ℕ := n % 2 ^ 64

@[simp]
theorem wrap64_of_lt {n : ℕ} (h : n < 2 ^ 64) : wrap64 n = n := Nat.mod_eq_of_lt h

/-- `s.starts_with(p)`. -/
def startsWith (s p : Bytes) : Bool := p.isPrefixOf s

/-- `s.find(t)`: the first position where `t` occurs, `none` for `npos`. -/
def find : Bytes → Bytes → Option ℕ
  | [], t => if t.isPrefixOf [] then some 0 else none
  | c :: s, t => if t.isPrefixOf (c :: s) then some 0 else (find s t).map (· + 1)

/-- `s.find(t, pos)`. -/
def findFrom (s t : Bytes) (pos : ℕ) : Option ℕ :=
  if pos ≤ s.length then (find (s.drop pos) t).map (· + pos) else none

/-- `s.find(t) != std::string::npos`. -/
def contains (s t : Bytes) : Bool := (find s t).isSome

/-- `s.substr(pos, n)`: at most `n` bytes from `pos`, and an exception past the end. -/
def substr (s : Bytes) (pos n : ℕ) : Except Exn Bytes :=
  if pos ≤ s.length then .ok ((s.drop pos).take n) else .error .outOfRange

/-- `std::isspace` in the "C" locale. -/
def isSpace (c : UInt8) : Bool := c == 32 || (9 ≤ c && c ≤ 13)

/-- `iss >> token`: the token after leading white space, and what is left of the stream. -/
def token (s : Bytes) : Bytes × Bytes :=
  (s.dropWhile isSpace).span (!isSpace ·)

/-- `s.c_str()` read as a C string: the bytes in front of the first NUL. -/
def cStr (s : Bytes) : Bytes := s.takeWhile (· != 0)

/-- `std::to_string(n)`. -/
def to_string (n : ℕ) : Bytes := (Nat.toDigits 10 n).map fun c => c.toNat.toUInt8

/-- The value of a hexadecimal digit of either case. -/
def hexDigit (c : UInt8) : Option ℕ :=
  if 48 ≤ c && c ≤ 57 then some (c.toNat - 48)
  else if 97 ≤ c && c ≤ 102 then some (c.toNat - 87)
  else if 65 ≤ c && c ≤ 70 then some (c.toNat - 55)
  else none

/-- Whether a number starts with `0x` in front of a digit. -/
def hasHexPrefix : Bytes → Bool
  | z :: x :: d :: _ => z == 48 && (x == 120 || x == 88) && (hexDigit d).isSome
  | _ => false

/-- The number a text of hexadecimal digits denotes. -/
def ofHexDigits (ds : Bytes) : ℕ := ds.foldl (fun n c => n * 16 + (hexDigit c).getD 0) 0

/-- `std::stoull(s, nullptr, 16)`: white space, a sign and `0x` are optional, and the digits are
read as far as they go. -/
def stoull16 (s : Bytes) : Except Exn ℕ :=
  let s := s.dropWhile isSpace
  let negative := s.head? == some 45
  let s := if negative || s.head? == some 43 then s.tail else s
  -- without a digit behind it, `0x` is read as the number `0`
  let s := if hasHexPrefix s then s.drop 2 else s
  let ds := s.takeWhile fun c => (hexDigit c).isSome
  if ds = [] then .error .invalidArgument
  else if 2 ^ 64 ≤ ofHexDigits ds then .error .outOfRange
  -- a number behind a minus sign is negated modulo `2 ^ 64`
  else .ok (if negative then wrap64 (2 ^ 64 - ofHexDigits ds) else ofHexDigits ds)

/-- A decimal digit. -/
def isDigit (c : UInt8) : Bool := 48 ≤ c && c ≤ 57

/-- The number a text of decimal digits denotes. -/
def ofDigits (ds : Bytes) : ℕ := ds.foldl (fun n c => n * 10 + (c.toNat - 48)) 0

/-- `std::stoi(s)`: white space and a sign are optional, and the digits are read as far as they
go. -/
def stoi (s : Bytes) : Except Exn Int32 :=
  let s := s.dropWhile isSpace
  let negative := s.head? == some 45
  let s := if negative || s.head? == some 43 then s.tail else s
  let ds := s.takeWhile isDigit
  let n : ℤ := if negative then -(ofDigits ds) else ofDigits ds
  if ds = [] then .error .invalidArgument
  else if n < -2 ^ 31 ∨ 2 ^ 31 ≤ n then .error .outOfRange
  else .ok (.ofInt n)

/-! ## `find` -/

/-- The position `find` returns is the start of an occurrence. -/
theorem prefix_of_find {s t : Bytes} {n : ℕ} (h : find s t = some n) :
    t <+: s.drop n ∧ n ≤ s.length := by
  induction s generalizing n with
  | nil =>
    simp only [find] at h
    split at h
    · cases h
      simp_all
    · cases h
  | cons c s ih =>
    simp only [find] at h
    split at h
    · cases h
      simp_all
    · -- not at the head, so it is the first occurrence in the tail
      obtain ⟨m, hm, rfl⟩ := Option.map_eq_some_iff.mp h
      obtain ⟨hp, hle⟩ := ih hm
      exact ⟨by simpa using hp, by simpa using hle⟩

/-- An occurrence lies inside the text. -/
theorem add_length_le_of_find {s t : Bytes} {n : ℕ} (h : find s t = some n) :
    n + t.length ≤ s.length := by
  obtain ⟨hfound, hle⟩ := prefix_of_find h
  have hlen := hfound.length_le
  rw [List.length_drop] at hlen
  omega

/-- A text is cut in three by an occurrence. -/
theorem eq_append_of_find {s t : Bytes} {n : ℕ} (h : find s t = some n) :
    s = s.take n ++ t ++ s.drop (n + t.length) := by
  obtain ⟨⟨rest, hrest⟩, -⟩ := prefix_of_find h
  have hdrop : s.drop (n + t.length) = rest := by
    rw [← List.drop_drop, ← hrest, List.drop_left]
  rw [hdrop, List.append_assoc, hrest, List.take_append_drop]

/-- A text that stands at the start is found there. -/
theorem find_of_prefix {s t : Bytes} (h : t <+: s) : find s t = some 0 := by
  cases s with
  | nil => simp [find, List.prefix_nil.mp h]
  | cons c s => simp [find, h]

/-- No occurrence is in front of the one that is found. -/
theorem le_of_find {x t y : Bytes} {n : ℕ} (h : find (x ++ (t ++ y)) t = some n) :
    n ≤ x.length := by
  induction x generalizing n with
  | nil =>
    rw [List.nil_append, find_of_prefix (List.prefix_append t y)] at h
    exact (Option.some.inj h).ge
  | cons c x ih =>
    rw [List.cons_append, find] at h
    split at h
    · cases h
      exact Nat.zero_le _
    · obtain ⟨m, hm, rfl⟩ := Option.map_eq_some_iff.mp h
      exact Nat.succ_le_succ (ih hm)

/-- `find` fails exactly when the text does not occur. -/
theorem find_eq_none_iff {s t : Bytes} : find s t = none ↔ ¬ t <:+: s := by
  induction s with
  | nil => cases t <;> simp [find]
  | cons c s ih =>
    rw [find, List.infix_cons_iff]
    by_cases h : t <+: c :: s
    · simp [h]
    · simp [h, ih]

theorem contains_iff {s t : Bytes} : contains s t = true ↔ t <:+: s := by
  rw [contains, Option.isSome_iff_ne_none, ne_eq, find_eq_none_iff, not_not]

theorem contains_eq_false_iff {s t : Bytes} : contains s t = false ↔ ¬ t <:+: s := by
  rw [← contains_iff, Bool.not_eq_true]

/-- A character is found behind a text without it. -/
theorem find_append_cons {p : Bytes} {c : UInt8} (hp : c ∉ p) (q : Bytes) :
    find (p ++ c :: q) [c] = some p.length := by
  induction p with
  | nil => simp [find]
  | cons d p ih =>
    have hne : c ≠ d := fun h => hp (by simp [h])
    rw [List.cons_append, find, if_neg (by simp [hne]), ih fun h => hp (by simp [h])]
    rfl

/-- The first occurrence of a character is behind the text without it. -/
theorem find_singleton (s : Bytes) (c : UInt8) :
    find s [c] = if c ∈ s then some (s.takeWhile (· != c)).length else none := by
  induction s with
  | nil => rfl
  | cons d s ih =>
    rw [find, ih]
    by_cases hd : c = d
    · subst hd
      simp
    · have hne : d ≠ c := Ne.symm hd
      by_cases hc : c ∈ s <;> simp [hd, hc, hne]

/-- A text that starts with a character that does not occur in `a` occurs in `a ++ b` only when it
occurs in `b`. -/
theorem infix_of_head_not_mem {c : UInt8} {t a b : Bytes} (hc : c ∉ a) (h : c :: t <:+: a ++ b) :
    c :: t <:+: b := by
  induction a with
  | nil => exact h
  | cons d a ih =>
    rcases List.infix_cons_iff.mp h with h | h
    · -- an occurrence in front would begin with a character of `a`
      exact absurd (List.cons_prefix_cons.mp h).1 fun heq => hc (by simp [heq])
    · exact ih (fun hmem => hc (by simp [hmem])) h

/-- A text is found behind a text without its first character. -/
theorem find_append_of_head_not_mem {c : UInt8} {t a : Bytes} (hc : c ∉ a) (b : Bytes) :
    find (a ++ b) (c :: t) = (find b (c :: t)).map (· + a.length) := by
  induction a with
  | nil => simp
  | cons d a ih =>
    have hne : c ≠ d := fun h => hc (by simp [h])
    rw [List.cons_append, find, if_neg (by simp [hne]), ih fun h => hc (by simp [h]),
      Option.map_map]
    rfl

/-- A text is not found where one of its characters does not occur. -/
theorem find_eq_none_of_not_mem {s t : Bytes} {c : UInt8} (ht : c ∈ t) (hs : c ∉ s) :
    find s t = none :=
  find_eq_none_iff.mpr fun h => hs (h.subset ht)

/-- A text without a character starts in front of it only when it also ends there. -/
theorem prefix_append_cons_iff {t : Bytes} {d : UInt8} (hd : d ∉ t) (a b : Bytes) :
    t <+: a ++ d :: b ↔ t <+: a := by
  induction a generalizing t with
  | nil =>
    cases t with
    | nil => simp
    | cons c t =>
      have hne : c ≠ d := fun h => hd (by simp [h])
      simp [List.cons_prefix_cons, hne]
  | cons c a ih =>
    cases t with
    | nil => simp
    | cons e t =>
      rw [List.cons_append, List.cons_prefix_cons, List.cons_prefix_cons,
        ih fun hmem => hd (by simp [hmem])]

/-- A text without a character is found in front of it, or else behind it. -/
theorem find_append_cons_of_not_mem {t : Bytes} {d : UInt8} (hd : d ∉ t) (ht : t ≠ [])
    (a b : Bytes) :
    find (a ++ d :: b) t = (find a t).or ((find b t).map (· + (a.length + 1))) := by
  induction a with
  | nil =>
    have hnot : ¬ t <+: d :: b := fun h =>
      ht (List.prefix_nil.mp ((prefix_append_cons_iff hd [] b).mp h))
    simp [find, hnot, ht]
  | cons c a ih =>
    have hprefix := prefix_append_cons_iff hd (c :: a) b
    rw [List.cons_append] at hprefix
    rw [List.cons_append, find, find, ih]
    by_cases h : t <+: c :: a
    · simp [h, hprefix.mpr h]
    · -- both occurrences move on by the character in front
      simp only [List.isPrefixOf_iff_prefix, hprefix, h, if_false, Option.map_or, Option.map_map,
        List.length_cons]
      congr 2

/-- A text without a character occurs in front of it or behind it. -/
theorem infix_append_cons_iff {t : Bytes} {d : UInt8} (hd : d ∉ t) (ht : t ≠ []) (a b : Bytes) :
    t <:+: a ++ d :: b ↔ t <:+: a ∨ t <:+: b := by
  rw [← contains_iff, ← contains_iff, ← contains_iff, contains, contains, contains,
    find_append_cons_of_not_mem hd ht]
  simp

/-- A character is found at the end of the text without it that follows the start position. -/
theorem findFrom_append {a p : Bytes} {c : UInt8} {n : ℕ} (hn : n = a.length) (hp : c ∉ p)
    (q : Bytes) : findFrom (a ++ (p ++ c :: q)) [c] n = some (n + p.length) := by
  rw [hn, findFrom, if_pos (by simp), List.drop_left, find_append_cons hp, Option.map_some,
    Nat.add_comm]

/-- The position `findFrom` returns is an occurrence at or after the start position. -/
theorem findFrom_eq_some {s t : Bytes} {pos n : ℕ} (h : findFrom s t pos = some n) :
    pos ≤ n ∧ n ≤ s.length ∧ t <+: s.drop n := by
  simp only [findFrom] at h
  split at h
  · obtain ⟨m, hm, rfl⟩ := Option.map_eq_some_iff.mp h
    obtain ⟨hp, hle⟩ := prefix_of_find hm
    refine ⟨by omega, by simp at hle; omega, ?_⟩
    simpa [List.drop_drop, Nat.add_comm] using hp
  · cases h

/-- A nonempty text found at `n` leaves room behind `n`. -/
theorem lt_length_of_findFrom {s t : Bytes} {pos n : ℕ} (ht : t ≠ [])
    (h : findFrom s t pos = some n) : n + t.length ≤ s.length := by
  obtain ⟨-, hle, hp⟩ := findFrom_eq_some h
  have hlen := hp.length_le
  simp only [List.length_drop] at hlen
  have := List.length_pos_iff.mpr ht
  omega

/-! ## `substr` -/

theorem substr_eq_ok {s : Bytes} {pos : ℕ} (n : ℕ) (h : pos ≤ s.length) :
    substr s pos n = .ok ((s.drop pos).take n) := if_pos h

/-- With the length of the whole text, the cut goes to the end. -/
theorem substr_to_end {s : Bytes} {pos : ℕ} (h : pos ≤ s.length) :
    substr s pos s.length = .ok (s.drop pos) := by
  rw [substr_eq_ok _ h, List.take_of_length_le (by simp)]

/-- A part is cut out of a text by its position and its length. -/
theorem substr_append {a p : Bytes} {pos n : ℕ} (hpos : pos = a.length) (hn : n = p.length)
    (q : Bytes) : substr (a ++ (p ++ q)) pos n = .ok p := by
  rw [substr_eq_ok n (by simp [hpos]), hpos, hn, List.drop_left, List.take_left]

/-! ## Scans to a character -/

/-- A text without a character, as a scan for it sees it. -/
theorem bne_of_not_mem {s : Bytes} {c : UInt8} (h : c ∉ s) : ∀ d ∈ s, (d != c) = true := by
  intro d hd
  rw [bne_iff_ne]
  rintro rfl
  exact h hd

/-- What is in front of the first occurrence of a character. -/
theorem takeWhile_append_cons {v : Bytes} {c : UInt8} (hv : c ∉ v) (w : Bytes) :
    (v ++ c :: w).takeWhile (· != c) = v := by
  rw [List.takeWhile_append_of_pos (bne_of_not_mem hv), List.takeWhile_cons_of_neg (by simp),
    List.append_nil]

/-- A text without `d` is what is in front of `c` exactly when this `c` comes in front of `d`. -/
theorem takeWhile_append_cons_eq_iff {s v : Bytes} {c d : UInt8} (hc : c ∉ v) (hd : d ∉ v)
    (hne : d ≠ c) (w : Bytes) :
    (s ++ d :: w).takeWhile (· != c) = v ↔ v ++ [c] <+: s := by
  constructor
  · intro h
    by_cases hmem : c ∈ s
    · obtain ⟨u, t, rfl, hu⟩ := List.eq_append_cons_of_mem hmem
      rw [List.append_assoc, List.cons_append, takeWhile_append_cons hu] at h
      subst h
      exact ⟨t, by simp⟩
    · -- without one in `s` the `d` is taken as well
      refine absurd ?_ hd
      rw [← h, List.takeWhile_append_of_pos (bne_of_not_mem hmem),
        List.takeWhile_cons_of_pos (by simp [hne])]
      simp
  · rintro ⟨t, rfl⟩
    rw [List.append_assoc, List.append_assoc, List.singleton_append, takeWhile_append_cons hc]

/-- A text without NUL is its own C string. -/
theorem cStr_eq_self {s : Bytes} (h : 0 ∉ s) : cStr s = s :=
  List.takeWhile_eq_self_iff.mpr (bne_of_not_mem h)

/-! ## Tokens -/

/-- A token that starts at once goes on to the first white space behind it. -/
theorem token_append_eq {t : Bytes} (ht : t ≠ []) (hsp : ∀ c ∈ t, isSpace c = false)
    (rest : Bytes) :
    token (t ++ rest) = (t ++ rest.takeWhile (!isSpace ·), rest.dropWhile (!isSpace ·)) := by
  -- there is no white space in front to skip
  have hdrop : (t ++ rest).dropWhile isSpace = t ++ rest := by
    cases t with
    | nil => exact absurd rfl ht
    | cons c t => simp [hsp c (by simp)]
  rw [token, hdrop, List.span_eq_takeWhile_dropWhile,
    List.takeWhile_append_of_pos (by simpa using hsp),
    List.dropWhile_append_of_pos (by simpa using hsp)]

/-- A token that starts at once and is followed by white space or the end of the text. -/
theorem token_append {t rest : Bytes} (ht : t ≠ []) (hsp : ∀ c ∈ t, isSpace c = false)
    (hrest : ∀ c ∈ rest.head?, isSpace c = true) : token (t ++ rest) = (t, rest) := by
  rw [token_append_eq ht hsp]
  cases rest with
  | nil => simp
  | cons c rest => simp [hrest c (by simp)]

/-- White space in front of a token is skipped. -/
theorem token_cons_space {c : UInt8} (hc : isSpace c = true) (s : Bytes) :
    token (c :: s) = token s := by
  rw [token, token, List.dropWhile_cons_of_pos hc]

/-! ## Numbers -/

/-- A hexadecimal digit is no white space, no sign and no `x`. -/
theorem not_special_of_hexDigit {c : UInt8} (h : (hexDigit c).isSome) :
    isSpace c = false ∧ c ≠ 45 ∧ c ≠ 43 ∧ c ≠ 120 ∧ c ≠ 88 := by
  grind [hexDigit, isSpace]

/-- A text of hexadecimal digits is read whole. -/
theorem stoull16_eq_ok {ds : Bytes} (hne : ds ≠ []) (hds : ∀ c ∈ ds, (hexDigit c).isSome)
    (hlt : ofHexDigits ds < 2 ^ 64) : stoull16 ds = .ok (ofHexDigits ds) := by
  obtain ⟨c, cs, rfl⟩ := List.exists_cons_of_ne_nil hne
  have hc := not_special_of_hexDigit (hds c (by simp))
  -- the second character is a digit, so it is no `x`
  have hprefix : hasHexPrefix (c :: cs) = false := by
    rcases cs with _ | ⟨x, _ | ⟨d, cs⟩⟩
    · rfl
    · rfl
    · have hx := not_special_of_hexDigit (hds x (by simp))
      simp [hasHexPrefix, hx.2.2.2]
  have htake : (c :: cs).takeWhile (fun c => (hexDigit c).isSome) = c :: cs :=
    List.takeWhile_eq_self_iff.mpr hds
  simp only [stoull16, List.dropWhile_cons, hc.1]
  simpa [hc.2.1, hc.2.2.1, hprefix, htake] using hlt

end Cpp
