import Mathlib.Data.List.DropRight
import Mathlib.Data.List.TakeWhile
import Mathlib.Data.UInt

/-!
# HTTP responses

The message format of HTTP/1.1 for responses without a transfer coding: a status line, header fields
up to an empty line, and a body whose length the status and the fields say.

* `response`: the response at the start of a text and what is behind it;
* `Head`: a status line and fields that can be written, with their text;
* `response_of_extent`, `response_of_toClose`: a written response is read back, with a body of the
  announced length or one that goes on to the close of the connection.
-/

namespace Http

/-! ## Reading -/

/-- A line up to its CRLF, and what is behind it. -/
def line : List UInt8 → Option (List UInt8 × List UInt8)
  | [] => none
  | c :: t =>
    if c = 13 then
      match t with
      | [] => none
      | d :: t' => if d = 10 then some ([], t') else none
    else if c = 10 then none
    else (line t).map fun p => (c :: p.1, p.2)

def isDigit (c : UInt8) : Bool := 48 ≤ c && c ≤ 57

def isAlpha (c : UInt8) : Bool := (65 ≤ c && c ≤ 90) || (97 ≤ c && c ≤ 122)

/-- The characters of names. -/
def isTokenChar (c : UInt8) : Bool :=
  isDigit c || isAlpha c ||
    c ∈ [33, 35, 36, 37, 38, 39, 42, 43, 45, 46, 94, 95, 96, 124, 126]

/-- The characters of values and reason phrases: no control character but the tab. -/
def isText (c : UInt8) : Bool := c == 9 || (32 ≤ c && c != 127)

def isBlank (c : UInt8) : Bool := c == 9 || c == 32

def toLower (c : UInt8) : UInt8 := if 65 ≤ c && c ≤ 90 then c + 32 else c

/-- A decimal number. -/
def number (t : List UInt8) : Option ℕ :=
  if t ≠ [] ∧ t.all isDigit then some (t.foldl (fun n c => n * 10 + (c.toNat - 48)) 0) else none

/-- `HTTP/1.1` and a blank. -/
def version : List UInt8 := [72, 84, 84, 80, 47, 49, 46, 49, 32]

/-- The status of a status line: three digits between the version and the reason phrase. -/
def statusLine (l : List UInt8) : Option ℕ :=
  if l.take 9 = version ∧ l[12]? = some 32 ∧ (l.drop 13).all isText then
    number ((l.drop 9).take 3)
  else none

/-- The name and the value of a header field, without the blanks around the value. -/
def field (l : List UInt8) : Option (List UInt8 × List UInt8) :=
  let name := l.takeWhile (· != 58)
  match l.dropWhile (· != 58) with
  | [] => none
  | _ :: value =>
    if name ≠ [] ∧ name.all isTokenChar ∧ value.all isText then
      some (name, (value.dropWhile isBlank).rdropWhile isBlank)
    else none

/-- The header fields up to the empty line. Each round reads a line. -/
def fields : ℕ → List UInt8 → Option (List (List UInt8 × List UInt8) × List UInt8)
  | 0, _ => none
  | fuel + 1, t => do
    let p ← line t
    if p.1 = [] then return ([], p.2)
    else
      let f ← field p.1
      let q ← fields fuel p.2
      return (f :: q.1, q.2)

/-- How far a body goes. -/
inductive Extent
  | octets (n : ℕ)
  | toClose
  deriving DecidableEq, Repr

/-- The values of the fields with a name, which is given in small letters. -/
def valuesOf (name : List UInt8) (fs : List (List UInt8 × List UInt8)) : List (List UInt8) :=
  (fs.filter fun f => f.1.map toLower = name).map Prod.snd

/-- `content-length`. -/
def contentLength : List UInt8 :=
  [99, 111, 110, 116, 101, 110, 116, 45, 108, 101, 110, 103, 116, 104]

/-- `transfer-encoding`. -/
def transferEncoding : List UInt8 :=
  [116, 114, 97, 110, 115, 102, 101, 114, 45, 101, 110, 99, 111, 100, 105, 110, 103]

/-- The body of a response: there is none for some statuses, whatever the fields say. A transfer
coding is not known here, and several lengths are refused. -/
def extent (status : ℕ) (fs : List (List UInt8 × List UInt8)) : Option Extent :=
  if status / 100 = 1 ∨ status = 204 ∨ status = 304 then some (.octets 0)
  else if valuesOf transferEncoding fs ≠ [] then none
  else
    match valuesOf contentLength fs with
    | [] => some .toClose
    | [value] => (number value).map .octets
    | _ => none

/-- A response. -/
structure Response where
  status : ℕ
  fields : List (List UInt8 × List UInt8)
  body : List UInt8
  deriving DecidableEq, Repr

/-- The response at the start of a text, and what is behind it. -/
def response (t : List UInt8) : Option (Response × List UInt8) := do
  let p ← line t
  let status ← statusLine p.1
  let q ← fields p.2.length p.2
  match ← extent status q.1 with
  | .octets n => if n ≤ q.2.length then some (⟨status, q.1, q.2.take n⟩, q.2.drop n) else none
  | .toClose => some (⟨status, q.1, q.2⟩, [])

/-! ## Writing -/

/-- A header field that can be written with one blank behind the colon. -/
structure Field where
  name : List UInt8
  value : List UInt8
  name_ne_nil : name ≠ []
  name_token : name.all isTokenChar = true
  value_text : value.all isText = true
  value_first : value.head?.any isBlank = false
  value_last : value.getLast?.any isBlank = false

/-- The line of a field. -/
def Field.text (f : Field) : List UInt8 := f.name ++ 58 :: 32 :: f.value

/-- A status line. -/
structure StatusLine where
  status : ℕ
  /-- The three digits. -/
  code : List UInt8
  reason : List UInt8
  code_length : code.length = 3
  code_status : number code = some status
  reason_text : reason.all isText = true

/-- The status and the reason phrase. -/
def StatusLine.text (l : StatusLine) : List UInt8 := l.code ++ 32 :: l.reason

/-- The status line and the fields of a response. -/
structure Head extends StatusLine where
  fields : List Field

/-- A line with its end, and what is behind it. -/
def lineText (l t : List UInt8) : List UInt8 := l ++ 13 :: 10 :: t

/-- The head up to the empty line, and what is behind it. -/
def Head.text (h : Head) (t : List UInt8) : List UInt8 :=
  lineText (version ++ h.toStatusLine.text)
    ((h.fields.map Field.text).foldr lineText (lineText [] t))

/-- The fields as they are read. -/
def Head.pairs (h : Head) : List (List UInt8 × List UInt8) :=
  h.fields.map fun f => (f.name, f.value)

/-! ## Lines -/

theorem line_lineText {l : List UInt8} (h : l.all isText = true) (t : List UInt8) :
    line (lineText l t) = some (l, t) := by
  induction l with
  | nil => rfl
  | cons c l ih =>
    rw [List.all_cons, Bool.and_eq_true] at h
    have hcr : c ≠ 13 := by
      rintro rfl
      exact absurd h.1 (by decide)
    have hlf : c ≠ 10 := by
      rintro rfl
      exact absurd h.1 (by decide)
    have hrest := ih h.2
    rw [lineText] at hrest ⊢
    rw [List.cons_append, line.eq_def]
    simp only [if_neg hcr, if_neg hlf, hrest, Option.map_some]

theorem isText_of_isTokenChar {c : UInt8} (h : isTokenChar c = true) : isText c = true := by
  have hall : ∀ n : Fin 256, isTokenChar (UInt8.ofFin n) = true →
      isText (UInt8.ofFin n) = true := by
    decide +kernel
  exact hall c.toFin h

theorem isText_of_isDigit {c : UInt8} (h : isDigit c = true) : isText c = true :=
  isText_of_isTokenChar (by simp [isTokenChar, h])

/-- A colon is no character of names. -/
theorem bne_colon_of_isTokenChar {c : UInt8} (h : isTokenChar c = true) : (c != 58) = true := by
  rw [bne_iff_ne]
  rintro rfl
  exact absurd h (by decide)

theorem all_digit_of_number {t : List UInt8} {n : ℕ} (h : number t = some n) :
    t.all isDigit = true := by
  rw [number] at h
  split at h
  · next hdigits => exact hdigits.2
  · cases h

/-! ## Fields -/

namespace Field

variable (f : Field)

theorem all_isText : f.text.all isText = true := by
  have hname : f.name.all isText = true :=
    List.all_eq_true.mpr fun c hc => isText_of_isTokenChar (List.all_eq_true.mp f.name_token c hc)
  have hcolon : isText 58 = true := by decide
  have hblank : isText 32 = true := by decide
  rw [text, List.all_append, List.all_cons, List.all_cons, hname, hcolon, hblank, f.value_text]
  rfl

theorem text_ne_nil : f.text ≠ [] := by simp [text]

/-- A written field is read back. -/
theorem field_text : field f.text = some (f.name, f.value) := by
  have hname : ∀ c ∈ f.name, (c != 58) = true := fun c hc =>
    bne_colon_of_isTokenChar (List.all_eq_true.mp f.name_token c hc)
  have hblank : isText 32 = true := by decide
  have htake : f.text.takeWhile (· != 58) = f.name := by
    rw [text, List.takeWhile_append_of_pos hname]
    simp
  have hdrop : f.text.dropWhile (· != 58) = 58 :: 32 :: f.value := by
    rw [text, List.dropWhile_append_of_pos hname]
    simp
  -- the blank behind the colon is dropped, and no other
  have hfirst : (32 :: f.value).dropWhile isBlank = f.value := by
    rw [List.dropWhile_cons_of_pos (by decide), List.dropWhile_eq_self_iff]
    intro hlength
    have h0 := f.value_first
    rw [List.head?_eq_getElem?, List.getElem?_eq_getElem hlength] at h0
    simpa using h0
  have hlast : f.value.rdropWhile isBlank = f.value := by
    rw [List.rdropWhile_eq_self_iff]
    intro hne
    have h0 := f.value_last
    rw [List.getLast?_eq_some_getLast hne] at h0
    simpa using h0
  rw [field, htake, hdrop]
  simp only
  rw [if_pos ⟨f.name_ne_nil, f.name_token, by rw [List.all_cons, hblank, f.value_text]; rfl⟩,
    hfirst, hlast]

end Field

/-- Written fields are read back. -/
theorem fields_text (fs : List Field) (t : List UInt8) {fuel : ℕ} (hfuel : fs.length < fuel) :
    fields fuel ((fs.map Field.text).foldr lineText (lineText [] t)) =
      some (fs.map (fun f => (f.name, f.value)), t) := by
  induction fs generalizing fuel with
  | nil =>
    obtain ⟨fuel, rfl⟩ := Nat.exists_eq_add_of_lt hfuel
    rw [show ([] : List Field).length + fuel + 1 = fuel + 1 by simp, fields, List.map_nil,
      List.foldr_nil, line_lineText rfl]
    rfl
  | cons f fs ih =>
    obtain ⟨fuel, rfl⟩ : ∃ n, fuel = n + 1 := ⟨fuel - 1, by omega⟩
    have hlength : fs.length < fuel := by simpa using hfuel
    rw [fields, List.map_cons, List.foldr_cons, line_lineText f.all_isText]
    simp only [Option.bind_eq_bind, Option.bind_some, if_neg f.text_ne_nil, f.field_text,
      ih hlength]
    rfl

/-! ## Responses -/

namespace StatusLine

variable (l : StatusLine)

/-- The status line is read back. -/
theorem statusLine_text : statusLine (version ++ l.text) = some l.status := by
  have hlength := l.code_length
  have hdrop : (version ++ l.text).drop 9 = l.text := List.drop_left' rfl
  have hcode : l.text.take 3 = l.code := List.take_left' hlength
  have hblank : (version ++ l.text)[12]? = some 32 := by
    rw [List.getElem?_append_right (by decide), text,
      List.getElem?_append_right (by rw [hlength]; decide), hlength]
    rfl
  have hreason : (version ++ l.text).drop 13 = l.reason := by
    rw [show 13 = 9 + 4 by rfl, ← List.drop_drop, hdrop, text, show 4 = l.code.length + 1 by omega,
      ← List.drop_drop, List.drop_left]
    rfl
  rw [statusLine, if_pos ⟨List.take_left' rfl, hblank, by rw [hreason]; exact l.reason_text⟩, hdrop,
    hcode, l.code_status]

theorem all_isText : (version ++ l.text).all isText = true := by
  have hversion : version.all isText = true := by decide
  have hcode : l.code.all isText = true := List.all_eq_true.mpr fun c hc =>
    isText_of_isDigit (List.all_eq_true.mp (all_digit_of_number l.code_status) c hc)
  have hblank : isText 32 = true := by decide
  rw [text, List.all_append, List.all_append, List.all_cons, hversion, hcode, hblank, l.reason_text]
  rfl

end StatusLine

namespace Head

variable (h : Head)

/-- The head of a written response is read, and the body as far as the head says. -/
theorem response_text (t : List UInt8) :
    response (h.text t) = (extent h.status h.pairs).bind fun
      | .octets n => if n ≤ t.length then some (⟨h.status, h.pairs, t.take n⟩, t.drop n) else none
      | .toClose => some (⟨h.status, h.pairs, t⟩, []) := by
  have hlength (fs : List Field) :
      fs.length < ((fs.map Field.text).foldr lineText (lineText [] t)).length := by
    induction fs with
    | nil => simp [lineText]
    | cons f fs ih =>
      simp only [List.map_cons, List.foldr_cons, lineText, List.length_append, List.length_cons]
        at ih ⊢
      omega
  rw [response, text, line_lineText h.toStatusLine.all_isText]
  simp only [Option.bind_eq_bind, Option.bind_some, h.toStatusLine.statusLine_text,
    fields_text h.fields t (hlength _)]
  rfl

end Head

variable {h : Head}

/-- A body of the announced length is read back, whatever is behind it. -/
theorem response_of_extent (body rest : List UInt8)
    (hextent : extent h.status h.pairs = some (.octets body.length)) :
    response (h.text (body ++ rest)) = some (⟨h.status, h.pairs, body⟩, rest) := by
  rw [h.response_text, hextent]
  simp

/-- A body without a length goes on to the close. -/
theorem response_of_toClose (hextent : extent h.status h.pairs = some .toClose)
    (body : List UInt8) : response (h.text body) = some (⟨h.status, h.pairs, body⟩, []) := by
  rw [h.response_text, hextent]
  rfl

end Http
