import Mathlib.Data.List.Basic
import Mathlib.Data.UInt

/-!
# JSON texts

RFC 8259 for ASCII texts, given as octets. A string is read as its code units, a number is kept as
its text.

* `parse`: the value of a text, `none` when it is not well formed;
* `stringTail_append`: a string of plain characters is read as it stands;
* `members_cons`, `members_last`, `value_object`: an object is read member by member.
-/

namespace Json

/-- The characters between tokens. -/
def isWs (c : UInt8) : Bool := c == 32 || c == 9 || c == 10 || c == 13

def skipWs (t : List UInt8) : List UInt8 := t.dropWhile isWs

/-- A JSON value. -/
inductive Value
  | null
  | bool (b : Bool)
  /-- The text of a number. -/
  | number (text : List UInt8)
  /-- The code units of a string. -/
  | string (chars : List ℕ)
  | array (items : List Value)
  | object (members : List (List ℕ × Value))

/-! ## Strings -/

/-- What stands for itself in a string: no control character, quote or backslash. -/
def isPlain (c : UInt8) : Bool := 32 ≤ c && c ≤ 127 && c != 34 && c != 92

/-- The character of an escape of two characters. -/
def escaped (c : UInt8) : Option ℕ :=
  if c = 34 then some 34
  else if c = 92 then some 92
  else if c = 47 then some 47
  else if c = 98 then some 8
  else if c = 102 then some 12
  else if c = 110 then some 10
  else if c = 114 then some 13
  else if c = 116 then some 9
  else none

def hexValue (c : UInt8) : Option ℕ :=
  if 48 ≤ c ∧ c ≤ 57 then some (c.toNat - 48)
  else if 65 ≤ c ∧ c ≤ 70 then some (c.toNat - 55)
  else if 97 ≤ c ∧ c ≤ 102 then some (c.toNat - 87)
  else none

/-- The code unit of four hexadecimal digits. -/
def codeUnit (a b c d : UInt8) : Option ℕ := do
  return (((← hexValue a) * 16 + (← hexValue b)) * 16 + (← hexValue c)) * 16 + (← hexValue d)

/-- What is read up to the closing quote, and what is behind it. -/
def stringTail : List UInt8 → Option (List ℕ × List UInt8)
  | [] => none
  | c :: t =>
    if c = 34 then some ([], t)
    else if c = 92 then
      match t with
      | [] => none
      | e :: t' =>
        if e = 117 then
          match t' with
          | h1 :: h2 :: h3 :: h4 :: t'' => do
            let u ← codeUnit h1 h2 h3 h4
            let p ← stringTail t''
            return (u :: p.1, p.2)
          | _ => none
        else do
          let u ← escaped e
          let p ← stringTail t'
          return (u :: p.1, p.2)
    else if isPlain c then (stringTail t).map fun p => (c.toNat :: p.1, p.2)
    else none

/-! ## Numbers -/

def isDigit (c : UInt8) : Bool := 48 ≤ c && c ≤ 57

/-- The characters that occur in numbers. -/
def isNumberChar (c : UInt8) : Bool :=
  isDigit c || c == 43 || c == 45 || c == 46 || c == 69 || c == 101

/-- Digits, at least one. -/
def isDigits (t : List UInt8) : Bool := !t.isEmpty && t.all isDigit

/-- Digits without a leading zero. -/
def isInt (t : List UInt8) : Bool := isDigits t && (t.head? != some 48 || t.length == 1)

/-- The digits of an exponent, with or without a sign. -/
def isExponent (t : List UInt8) : Bool :=
  if t.head? = some 43 ∨ t.head? = some 45 then isDigits t.tail else isDigits t

/-- A number without its sign: the integer, the fraction behind a point, the exponent. -/
def isUnsigned (t : List UInt8) : Bool :=
  let mantissa := t.takeWhile fun c => c != 69 && c != 101
  let exponent := t.dropWhile fun c => c != 69 && c != 101
  let fraction := mantissa.dropWhile (· != 46)
  isInt (mantissa.takeWhile (· != 46)) && (fraction.isEmpty || isDigits fraction.tail) &&
    (exponent.isEmpty || isExponent exponent.tail)

def isNumber (t : List UInt8) : Bool :=
  if t.head? = some 45 then isUnsigned t.tail else isUnsigned t

/-! ## Values -/

/-- A value at the start of a text, and what is behind it. -/
abbrev Reader (α : Type) := List UInt8 → Option (α × List UInt8)

/-- A key, the colon behind it, and the white space up to the value. -/
def keyColon (t : List UInt8) : Option (List ℕ × List UInt8) :=
  match t with
  | [] => none
  | c :: rest =>
    if c = 34 then do
      let p ← stringTail rest
      match skipWs p.2 with
      | [] => none
      | d :: t' => if d = 58 then some (p.1, skipWs t') else none
    else none

/-- One member or more, up to the closing brace. Each round reads a character at least. -/
def members (value : Reader Value) : ℕ → Reader (List (List ℕ × Value))
  | 0, _ => none
  | fuel + 1, t => do
    let key ← keyColon t
    let v ← value key.2
    match skipWs v.2 with
    | [] => none
    | c :: rest =>
      if c = 44 then (members value fuel (skipWs rest)).map fun p => ((key.1, v.1) :: p.1, p.2)
      else if c = 125 then some ([(key.1, v.1)], rest)
      else none

/-- One element or more, up to the closing bracket. -/
def items (value : Reader Value) : ℕ → Reader (List Value)
  | 0, _ => none
  | fuel + 1, t => do
    let v ← value t
    match skipWs v.2 with
    | [] => none
    | c :: rest =>
      if c = 44 then (items value fuel (skipWs rest)).map fun p => (v.1 :: p.1, p.2)
      else if c = 93 then some ([v.1], rest)
      else none

/-- A literal name. -/
def literal (name : List UInt8) (v : Value) (t : List UInt8) : Option (Value × List UInt8) :=
  if name <+: t then some (v, t.drop name.length) else none

/-- A value; `fuel` bounds the depth. -/
def value : ℕ → Reader Value
  | 0, _ => none
  | _, [] => none
  | fuel + 1, c :: t =>
    if c = 34 then (stringTail t).map fun p => (.string p.1, p.2)
    else if c = 123 then
      match skipWs t with
      | [] => none
      | d :: t' =>
        if d = 125 then some (.object [], t')
        else (members (value fuel) fuel (d :: t')).map fun p => (.object p.1, p.2)
    else if c = 91 then
      match skipWs t with
      | [] => none
      | d :: t' =>
        if d = 93 then some (.array [], t')
        else (items (value fuel) fuel (d :: t')).map fun p => (.array p.1, p.2)
    else if c = 110 then literal [110, 117, 108, 108] .null (c :: t)
    else if c = 116 then literal [116, 114, 117, 101] (.bool true) (c :: t)
    else if c = 102 then literal [102, 97, 108, 115, 101] (.bool false) (c :: t)
    else
      let text := (c :: t).takeWhile isNumberChar
      if isNumber text then some (.number text, (c :: t).dropWhile isNumberChar) else none

/-- The value of a text. Its length bounds the depth and the number of members. -/
def parse (t : List UInt8) : Option Value :=
  match value (t.length + 1) (skipWs t) with
  | none => none
  | some p => if skipWs p.2 = [] then some p.1 else none

/-! ## Reading what was written -/

variable {s key t u : List UInt8} {c : UInt8} {fuel : ℕ}

@[simp]
theorem skipWs_cons_of_not_isWs (h : isWs c = false) (t : List UInt8) :
    skipWs (c :: t) = c :: t := by
  rw [skipWs, List.dropWhile_cons_of_neg (by simp [h])]

theorem skipWs_blank (t : List UInt8) : skipWs (32 :: t) = skipWs t :=
  List.dropWhile_cons_of_pos rfl

/-- The closing quote. -/
theorem stringTail_quote (t : List UInt8) : stringTail (34 :: t) = some ([], t) := by
  rw [stringTail.eq_def]
  exact if_pos rfl

/-- A plain character stands for itself. -/
theorem stringTail_plain (h : isPlain c = true) (t : List UInt8) :
    stringTail (c :: t) = (stringTail t).map fun p => (c.toNat :: p.1, p.2) := by
  -- a plain character is neither of the two that the reader looks for first
  have hquote : c ≠ 34 := by rintro rfl; simp [isPlain] at h
  have hslash : c ≠ 92 := by rintro rfl; simp [isPlain] at h
  rw [stringTail.eq_def]
  simp only [if_neg hquote, if_neg hslash, if_pos h]

/-- Two characters that stand for another one. -/
theorem stringTail_escape {e : UInt8} {n : ℕ} (h : escaped e = some n) (t : List UInt8) :
    stringTail (92 :: e :: t) = (stringTail t).map fun p => (n :: p.1, p.2) := by
  -- `u` has no code of its own
  have hunicode : e ≠ 117 := by rintro rfl; cases h
  rw [stringTail.eq_def]
  simp only [if_neg (show ¬ (92 : UInt8) = 34 by decide), if_true, if_neg hunicode, h]
  cases stringTail t <;> rfl

/-- What is none of these ends the reading. -/
theorem stringTail_bad (h : isPlain c = false) (hquote : c ≠ 34) (hslash : c ≠ 92)
    (t : List UInt8) : stringTail (c :: t) = none := by
  rw [stringTail.eq_def]
  simp only [if_neg hquote, if_neg hslash, h, Bool.false_eq_true, if_false]

/-- A string of plain characters is read as it stands. -/
theorem stringTail_append (h : s.all isPlain = true) (t : List UInt8) :
    stringTail (s ++ 34 :: t) = some (s.map UInt8.toNat, t) := by
  induction s with
  | nil => exact stringTail_quote t
  | cons c s ih =>
    rw [List.all_cons, Bool.and_eq_true] at h
    rw [List.cons_append, stringTail_plain h.1, ih h.2]
    rfl

/-- A key of plain characters and its colon. -/
theorem keyColon_eq (h : key.all isPlain = true) (t : List UInt8) :
    keyColon (34 :: (key ++ 34 :: 58 :: t)) = some (key.map UInt8.toNat, skipWs t) := by
  rw [keyColon.eq_def]
  simp only [if_true, stringTail_append h, Option.bind_eq_bind, Option.bind_some,
    skipWs_cons_of_not_isWs (show isWs 58 = false by decide)]

/-- A string. -/
theorem value_quote (t : List UInt8) :
    value (fuel + 1) (34 :: t) = (stringTail t).map fun p => (.string p.1, p.2) := by
  rw [value.eq_def]
  simp only [if_true]

/-- A string of plain characters. -/
theorem value_string (h : s.all isPlain = true) (t : List UInt8) :
    value (fuel + 1) (34 :: (s ++ 34 :: t)) = some (.string (s.map UInt8.toNat), t) := by
  rw [value_quote, stringTail_append h, Option.map_some]

/-- A number of one digit. -/
theorem value_digit (hc : isDigit c = true) {d : UInt8} (hd : isNumberChar d = false)
    (t : List UInt8) : value (fuel + 1) (c :: d :: t) = some (.number [c], d :: t) := by
  have hne (n : UInt8) (hn : isDigit n = false) : c ≠ n := by
    rintro rfl
    rw [hn] at hc
    cases hc
  have hnumber : isNumberChar c = true := by simp [isNumberChar, hc]
  have htake : (c :: d :: t).takeWhile isNumberChar = [c] := by simp [hnumber, hd]
  have hdrop : (c :: d :: t).dropWhile isNumberChar = d :: t := by simp [hnumber, hd]
  -- one digit has no sign, no fraction and no exponent
  have hisNumber : isNumber [c] = true := by
    have h45 := hne 45 (by decide)
    have h46 := hne 46 (by decide)
    have h69 := hne 69 (by decide)
    have h101 := hne 101 (by decide)
    simp [isNumber, isUnsigned, isInt, isDigits, h45, h46, h69, h101, hc]
  rw [value.eq_def]
  -- none of the characters that other values begin with is a digit
  simp only [if_neg (hne 34 (by decide)), if_neg (hne 123 (by decide)), if_neg (hne 91 (by decide)),
    if_neg (hne 110 (by decide)), if_neg (hne 116 (by decide)), if_neg (hne 102 (by decide)),
    htake, hdrop, hisNumber, if_true]

/-- An object with members. -/
theorem value_object (hws : isWs c = false) (hclose : c ≠ 125) (t : List UInt8) :
    value (fuel + 1) (123 :: c :: t) =
      (members (value fuel) fuel (c :: t)).map fun p => (.object p.1, p.2) := by
  rw [value.eq_def]
  simp only [if_neg (show ¬ (123 : UInt8) = 34 by decide), if_true,
    skipWs_cons_of_not_isWs hws, if_neg hclose]

/-- An object without members. -/
theorem value_object_nil (t : List UInt8) :
    value (fuel + 1) (123 :: 125 :: t) = some (.object [], t) := by
  rw [value.eq_def]
  simp only [if_neg (show ¬ (123 : UInt8) = 34 by decide), if_true,
    skipWs_cons_of_not_isWs (show isWs 125 = false by decide)]

section Members

variable {readValue : Reader Value} {v : Value}

/-- A member and a comma. -/
theorem members_cons (hkey : key.all isPlain = true)
    (hvalue : readValue (skipWs t) = some (v, 44 :: u)) :
    members readValue (fuel + 1) (34 :: (key ++ 34 :: 58 :: t)) =
      (members readValue fuel (skipWs u)).map fun p => ((key.map UInt8.toNat, v) :: p.1, p.2) := by
  rw [members.eq_def]
  simp only [keyColon_eq hkey, hvalue, Option.bind_eq_bind, Option.bind_some,
    skipWs_cons_of_not_isWs (show isWs 44 = false by decide), if_true]

/-- The last member. -/
theorem members_last (hkey : key.all isPlain = true)
    (hvalue : readValue (skipWs t) = some (v, 125 :: u)) :
    members readValue (fuel + 1) (34 :: (key ++ 34 :: 58 :: t)) =
      some ([(key.map UInt8.toNat, v)], u) := by
  rw [members.eq_def]
  simp only [keyColon_eq hkey, hvalue, Option.bind_eq_bind, Option.bind_some,
    skipWs_cons_of_not_isWs (show isWs 125 = false by decide), if_true,
    if_neg (show ¬ (125 : UInt8) = 44 by decide)]

/-- A value that cannot be read. -/
theorem members_none (hkey : key.all isPlain = true)
    (hvalue : readValue (skipWs t) = none) :
    members readValue fuel (34 :: (key ++ 34 :: 58 :: t)) = none := by
  cases fuel with
  | zero => rfl
  | succ fuel =>
    rw [members.eq_def]
    simp only [keyColon_eq hkey, hvalue, Option.bind_eq_bind, Option.bind_some, Option.bind_none]

/-- A member begins with a quote. -/
theorem members_brace (t : List UInt8) : members readValue fuel (125 :: t) = none := by
  cases fuel with
  | zero => rfl
  | succ fuel => rfl

end Members

section StringMembers

variable {depth : ℕ} (hkey : key.all isPlain = true) (hs : s.all isPlain = true)

include hkey hs

/-- A member whose value is a string, and a comma. -/
theorem members_cons_string (u : List UInt8) :
    members (value (depth + 1)) (fuel + 1) (34 :: (key ++ 34 :: 58 :: 34 :: (s ++ 34 :: 44 :: u))) =
      (members (value (depth + 1)) fuel (skipWs u)).map fun p =>
        ((key.map UInt8.toNat, .string (s.map UInt8.toNat)) :: p.1, p.2) := by
  refine members_cons hkey ?_
  rw [skipWs_cons_of_not_isWs (by decide)]
  exact value_string hs (44 :: u)

/-- The last member, with a string for its value. -/
theorem members_last_string (u : List UInt8) :
    members (value (depth + 1)) (fuel + 1)
        (34 :: (key ++ 34 :: 58 :: 34 :: (s ++ 34 :: 125 :: u))) =
      some ([(key.map UInt8.toNat, .string (s.map UInt8.toNat))], u) := by
  refine members_last hkey ?_
  rw [skipWs_cons_of_not_isWs (by decide)]
  exact value_string hs (125 :: u)

end StringMembers

/-- A text that begins with a value. -/
theorem parse_eq {v : Value} (hws : skipWs t = t) (hvalue : value (t.length + 1) t = some (v, [])) :
    parse t = some v := by
  rw [parse, hws, hvalue]
  rfl

theorem parse_eq_none (hws : skipWs t = t) (hvalue : value (t.length + 1) t = none) :
    parse t = none := by
  rw [parse, hws, hvalue]

end Json
