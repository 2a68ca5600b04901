import Mathlib.Data.List.Basic
import Mathlib.Data.UInt

/-!
# String literals in SQL texts

A SQL text as octets, cut into its string literals and the characters outside of them. A literal runs
to the first quote that is not doubled, and two quotes in it denote one.

* `lex`: the tokens of a text, `none` when a literal is not closed;
* `literalTail_doubled_append`: a text whose quotes are doubled is read back, whatever follows;
* `not_mem_of_literals_eq`: a text that was not escaped is read back only when it has no quotes;
* `stores_valueList`: a statement with a list of values stores these values.
-/

namespace Sql

/-- What is behind the opening quote: the value of the literal, and the text behind its closing
quote. -/
def literalTail : List UInt8 → Option (List UInt8 × List UInt8)
  | [] => none
  | [c] => if c = 39 then some ([], []) else none
  | c :: d :: t =>
    if c = 39 then
      if d = 39 then (literalTail t).map fun p => (39 :: p.1, p.2) else some ([], d :: t)
    else (literalTail (d :: t)).map fun p => (c :: p.1, p.2)

theorem literalTail_cons {c : UInt8} (hc : c ≠ 39) (t : List UInt8) :
    literalTail (c :: t) = (literalTail t).map fun p => (c :: p.1, p.2) := by
  cases t with
  | nil =>
    show (if c = 39 then _ else _) = _
    rw [if_neg hc]
    rfl
  | cons d t => rw [literalTail, if_neg hc]

theorem literalTail_quotes (t : List UInt8) :
    literalTail (39 :: 39 :: t) = (literalTail t).map fun p => (39 :: p.1, p.2) := by
  rw [literalTail, if_pos rfl, if_pos rfl]

/-- The closing quote. -/
theorem literalTail_close {t : List UInt8} (ht : t.head? ≠ some 39) :
    literalTail (39 :: t) = some ([], t) := by
  cases t with
  | nil => rfl
  | cons d t => rw [literalTail, if_pos rfl, if_neg fun hd => ht (congrArg some hd)]

/-- A literal ends with a quote of the text. -/
theorem exists_eq_of_literalTail {t : List UInt8} {p : List UInt8 × List UInt8}
    (h : literalTail t = some p) : ∃ w, t = w ++ 39 :: p.2 := by
  induction t using literalTail.induct generalizing p with
  | case1 => cases h
  | case2 =>
    cases h
    exact ⟨[], rfl⟩
  | case3 c hc => rw [literalTail, if_neg hc] at h; cases h
  | case4 t ih =>
    rw [literalTail_quotes] at h
    obtain ⟨q, hq, rfl⟩ := Option.map_eq_some_iff.mp h
    obtain ⟨w, rfl⟩ := ih hq
    exact ⟨39 :: 39 :: w, rfl⟩
  | case5 d t hd =>
    rw [literalTail, if_pos rfl, if_neg hd] at h
    cases h
    exact ⟨[], rfl⟩
  | case6 c d t hc ih =>
    rw [literalTail, if_neg hc] at h
    obtain ⟨q, hq, rfl⟩ := Option.map_eq_some_iff.mp h
    obtain ⟨w, hw⟩ := ih hq
    exact ⟨c :: w, by rw [hw]; rfl⟩

/-- A literal takes something of the text. -/
theorem length_of_literalTail {t : List UInt8} {p : List UInt8 × List UInt8}
    (h : literalTail t = some p) : p.2.length < t.length := by
  obtain ⟨w, rfl⟩ := exists_eq_of_literalTail h
  rw [List.length_append, List.length_cons]
  omega

/-- The literal at the start of a text: its value, and the text behind it. -/
def literal : List UInt8 → Option (List UInt8 × List UInt8)
  | [] => none
  | c :: t => if c = 39 then literalTail t else none

theorem literal_quote (t : List UInt8) : literal (39 :: t) = literalTail t := by
  rw [literal, if_pos rfl]

/-- What a SQL text consists of. -/
inductive Token
  /-- A character outside of the literals. -/
  | char (c : UInt8)
  /-- The value of a literal. -/
  | literal (value : List UInt8)
  deriving DecidableEq, Repr

/-- The tokens of a text. -/
def lex : List UInt8 → Option (List Token)
  | [] => some []
  | c :: t =>
    if c = 39 then
      match _h : literalTail t with
      | none => none
      | some p => (lex p.2).map (.literal p.1 :: ·)
    else (lex t).map (.char c :: ·)
termination_by t => t.length
decreasing_by
  · exact (length_of_literalTail ‹_›).trans (by simp)
  · simp

/-- The values of the literals. -/
def literals (tokens : List Token) : List (List UInt8) :=
  tokens.filterMap fun
    | .char _ => none
    | .literal value => some value

/-- The text is one statement: its only semicolon outside of the literals is its last character. -/
def IsSingle (tokens : List Token) : Prop :=
  ∃ statement, tokens = statement ++ [.char 59] ∧ .char 59 ∉ statement

@[simp]
theorem literals_char (c : UInt8) (tokens : List Token) :
    literals (.char c :: tokens) = literals tokens := rfl

@[simp]
theorem literals_literal (value : List UInt8) (tokens : List Token) :
    literals (.literal value :: tokens) = value :: literals tokens := rfl

theorem literals_append (tokens tokens' : List Token) :
    literals (tokens ++ tokens') = literals tokens ++ literals tokens' :=
  List.filterMap_append

@[simp]
theorem literals_map_char (p : List UInt8) : literals (p.map .char) = [] := by
  simp [literals]

/-! ## Cutting a text -/

variable {s t : List UInt8}

theorem lex_cons {c : UInt8} (hc : c ≠ 39) (t : List UInt8) :
    lex (c :: t) = (lex t).map (.char c :: ·) := by
  rw [lex, if_neg hc]

theorem lex_quote (t : List UInt8) :
    lex (39 :: t) = (literalTail t).bind fun p => (lex p.2).map (.literal p.1 :: ·) := by
  rw [lex, if_pos rfl]
  split
  · next h => rw [h]; rfl
  · next h => rw [h]; rfl

/-- Text without quotes. -/
theorem lex_append (hs : 39 ∉ s) (t : List UInt8) :
    lex (s ++ t) = (lex t).map (s.map .char ++ ·) := by
  induction s with
  | nil => simp
  | cons c s ih =>
    rw [List.cons_append, lex_cons (fun hc => hs (by simp [hc])),
      ih fun hmem => hs (List.mem_cons_of_mem c hmem), Option.map_map]
    rfl

/-- Every quote doubled. -/
def doubled (s : List UInt8) : List UInt8 := s.flatMap fun c => if c = 39 then [39, 39] else [c]

theorem doubled_of_not_mem (hs : 39 ∉ s) : doubled s = s := by
  induction s with
  | nil => rfl
  | cons c s ih =>
    have hc : c ≠ 39 := fun hc => hs (by simp [hc])
    have hcons : doubled (c :: s) = c :: doubled s := by simp [doubled, hc]
    rw [hcons, ih fun hmem => hs (List.mem_cons_of_mem c hmem)]

/-- A text whose quotes are doubled is read as itself, whatever follows it. -/
theorem literalTail_doubled_append (s t : List UInt8) :
    literalTail (doubled s ++ t) = (literalTail t).map fun p => (s ++ p.1, p.2) := by
  induction s with
  | nil => simp [doubled]
  | cons c s ih =>
    by_cases hc : c = 39
    · -- the two quotes are read as one before the next character is looked at
      subst hc
      show literalTail (39 :: 39 :: (doubled s ++ t)) = _
      rw [literalTail_quotes, ih, Option.map_map]
      rfl
    · have hcons : doubled (c :: s) = c :: doubled s := by simp [doubled, hc]
      rw [hcons, List.cons_append, literalTail_cons hc, ih, Option.map_map]
      rfl

/-- A text whose quotes are doubled is read back. -/
theorem literalTail_doubled (s : List UInt8) (ht : t.head? ≠ some 39) :
    literalTail (doubled s ++ 39 :: t) = some (s, t) := by
  rw [literalTail_doubled_append, literalTail_close ht, Option.map_some, List.append_nil]

theorem doubled_injective : Function.Injective doubled := by
  intro s s' h
  have hs := literalTail_doubled s (t := []) (by simp)
  rw [h, literalTail_doubled s' (by simp)] at hs
  exact (congrArg Prod.fst (Option.some.inj hs)).symm

/-- The literal of such a text. -/
theorem lex_doubled (s : List UInt8) (ht : t.head? ≠ some 39) :
    lex (39 :: (doubled s ++ 39 :: t)) = (lex t).map (.literal s :: ·) := by
  rw [lex_quote, literalTail_doubled s ht]
  rfl

/-- What is read between quotes in front of a comma: when it is the text itself behind some quotes,
then there are no quotes. -/
theorem not_mem_of_literalTail_replicate {k : ℕ} {w rest : List UInt8}
    (h : literalTail (w ++ 39 :: 44 :: t) = some (List.replicate k 39 ++ w, rest)) :
    k = 0 ∧ 39 ∉ w := by
  have hcomma : (44 : UInt8) ≠ 39 := by decide
  -- each doubled quote is read as one, so the quotes in front can only become more
  induction w using literalTail.induct generalizing k rest with
  | case1 =>
    -- the closing quote
    rw [List.nil_append, literalTail_close (by simp)] at h
    simp only [List.append_nil, Option.some.injEq, Prod.mk.injEq] at h
    exact ⟨by simpa using h.1.symm, by simp⟩
  | case2 =>
    -- the last quote and the closing one are a doubled quote, and a comma follows
    rw [List.singleton_append, literalTail_quotes, literalTail_cons hcomma] at h
    obtain ⟨p, hp, heq⟩ := Option.map_eq_some_iff.mp h
    obtain ⟨q, -, rfl⟩ := Option.map_eq_some_iff.mp hp
    simp only [Prod.mk.injEq] at heq
    have hreplicate : 39 :: 44 :: q.1 = List.replicate (k + 1) 39 := by
      rw [List.replicate_succ', heq.1]
    have hmem : (44 : UInt8) ∈ List.replicate (k + 1) 39 := hreplicate ▸ by simp
    exact absurd (List.eq_of_mem_replicate hmem) hcomma
  | case3 c hc =>
    rw [List.singleton_append, literalTail_cons hc, literalTail_close (by simp)] at h
    simp only [Option.map_some, Option.some.injEq, Prod.mk.injEq] at h
    -- what was read begins with a character that is no quote
    cases k with
    | zero => exact ⟨rfl, by simpa using Ne.symm hc⟩
    | succ k => exact absurd (List.cons.inj h.1).1 hc
  | case4 w ih =>
    rw [List.cons_append, List.cons_append, literalTail_quotes] at h
    obtain ⟨⟨text, rest'⟩, hp, heq⟩ := Option.map_eq_some_iff.mp h
    simp only [Prod.mk.injEq] at heq
    -- one quote more than was read
    have htext : text = List.replicate (k + 1) 39 ++ w := by
      have hcons : 39 :: text = 39 :: (List.replicate (k + 1) 39 ++ w) := by
        rw [heq.1, ← List.cons_append, ← List.replicate_succ, List.replicate_succ',
          List.append_assoc, List.replicate_succ', List.append_assoc]
        rfl
      exact (List.cons.inj hcons).2
    subst htext
    obtain ⟨hk, -⟩ := ih hp
    exact absurd hk (by omega)
  | case5 d w hd =>
    -- the text ends at once, but there is more of it
    rw [List.cons_append, literalTail_close (by simpa using hd)] at h
    simp at h
  | case6 c d w hc ih =>
    rw [List.cons_append, literalTail_cons hc] at h
    obtain ⟨⟨text, rest'⟩, hp, heq⟩ := Option.map_eq_some_iff.mp h
    simp only [Prod.mk.injEq] at heq
    cases k with
    | zero =>
      have htext : text = List.replicate 0 39 ++ (d :: w) := (List.cons.inj heq.1).2
      subst htext
      obtain ⟨-, hw⟩ := ih hp
      exact ⟨rfl, by simp [Ne.symm hc, hw]⟩
    | succ k => exact absurd (List.cons.inj heq.1).1 hc

/-- The first literal of a text, when it is the text that stands between its quotes in front of a
comma: it has no quotes, and the text behind it is cut by itself. -/
theorem not_mem_of_literals_eq {p w : List UInt8} {values : List (List UInt8)}
    {tokens : List Token} (hp : 39 ∉ p)
    (hlex : lex (p ++ 39 :: (w ++ 39 :: 44 :: t)) = some tokens)
    (hliterals : literals tokens = w :: values) :
    39 ∉ w ∧ ∃ tokens', lex (44 :: t) = some tokens' ∧ literals tokens' = values := by
  rw [lex_append hp, lex_quote] at hlex
  obtain ⟨rest, hrest, rfl⟩ := Option.map_eq_some_iff.mp hlex
  obtain ⟨q, hq, hbehind⟩ := Option.bind_eq_some_iff.mp hrest
  obtain ⟨tokens', htokens', rfl⟩ := Option.map_eq_some_iff.mp hbehind
  rw [literals_append, literals_map_char, List.nil_append, literals_literal] at hliterals
  have hvalue := (List.cons.inj hliterals).1
  have hq' : literalTail (w ++ 39 :: 44 :: t) = some (List.replicate 0 39 ++ w, q.2) := by
    rw [hq, ← hvalue]
    rfl
  have hw := (not_mem_of_literalTail_replicate hq').2
  -- without quotes the literal ends at the quote in front of the comma
  have hdoubled := literalTail_doubled w (t := 44 :: t) (by simp)
  rw [doubled_of_not_mem hw, hq] at hdoubled
  obtain rfl := Option.some.inj hdoubled
  exact ⟨hw, tokens', htokens', (List.cons.inj hliterals).2⟩

/-! ## Statements -/

/-- The text is one statement, and these are the values of its literals. -/
def Stores (sql : List UInt8) (values : List (List UInt8)) : Prop :=
  ∃ tokens, lex sql = some tokens ∧ IsSingle tokens ∧ literals tokens = values

/-- Values as literals, with a comma and a blank between them. -/
def valueList : List (List UInt8) → List UInt8
  | [] => []
  | [v] => 39 :: (doubled v ++ [39])
  | v :: w :: vs => 39 :: (doubled v ++ 39 :: 44 :: 32 :: valueList (w :: vs))

/-- The values are read back, and no semicolon is read in front of the last one. -/
theorem exists_lex_valueList {values : List (List UInt8)} (hne : values ≠ []) :
    ∃ statement, lex (valueList values ++ [41, 59]) = some (statement ++ [.char 59]) ∧
      .char 59 ∉ statement ∧ literals statement = values := by
  induction values with
  | nil => exact absurd rfl hne
  | cons v values ih =>
    cases values with
    | nil =>
      -- the last value, the parenthesis and the semicolon
      refine ⟨[.literal v, .char 41], ?_, by simp, rfl⟩
      rw [valueList, List.cons_append, List.append_assoc]
      show lex (39 :: (doubled v ++ 39 :: [41, 59])) = _
      rw [lex_doubled v (by simp), lex_cons (by decide), lex_cons (by decide), lex]
      rfl
    | cons w values =>
      obtain ⟨statement, hlex, hsingle, hliterals⟩ := ih (by simp)
      refine ⟨.literal v :: .char 44 :: .char 32 :: statement, ?_, by simp [hsingle],
        by simp [hliterals]⟩
      rw [valueList, List.cons_append, List.append_assoc]
      show lex (39 :: (doubled v ++ 39 :: 44 :: 32 :: (valueList (w :: values) ++ [41, 59]))) = _
      rw [lex_doubled v (by simp), lex_cons (by decide), lex_cons (by decide), hlex]
      rfl

/-- A statement that ends with a list of values. -/
theorem stores_valueList {p : List UInt8} (hquote : 39 ∉ p) (hsemicolon : 59 ∉ p)
    {values : List (List UInt8)} (hne : values ≠ []) :
    Stores (p ++ (valueList values ++ [41, 59])) values := by
  obtain ⟨statement, hlex, hsingle, hliterals⟩ := exists_lex_valueList hne
  refine ⟨p.map .char ++ (statement ++ [.char 59]), ?_, ⟨p.map .char ++ statement, ?_, ?_⟩, ?_⟩
  · rw [lex_append hquote, hlex, Option.map_some]
  · rw [List.append_assoc]
  · simp [hsemicolon, hsingle]
  · rw [literals_append, literals_map_char, literals_append, hliterals]
    simp [literals]

end Sql
