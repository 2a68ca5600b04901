import Akkon.Cpp.String

/-!
# `shell::ArgumentRegistry`

The command line is read as a sequence of names, each of them looked up in the registry and, where
the registered argument takes one, followed by a value. `ParseResult` and `parse` are those of
`ArgumentRegistry.cpp`; of an argument's metadata only what the parser reads is kept.

`Token` is a command line as a structure: flags, options with their values, and words that are not
registered.

* `parse_of_forall_isKnown`, `parse_debug`: what the parser makes of the words of a structure;
* `parse_of_unknown`: outside debug mode the first unknown word ends the parsing;
* `parse_success_iff`, `parse_debug_success_iff`: it accepts exactly the words of the structures,
  outside debug mode those without unknown words.
-/

namespace Shell

open Cpp

/-! ## The registry -/

/-- `ArgumentMetadata`, as far as the parser reads it. -/
structure ArgumentMetadata where
  name : Bytes
  takes_arg : Bool
  deriving DecidableEq, Repr

/-- `m_registry`. -/
abbrev ArgumentRegistry := List ArgumentMetadata

/-- `registerArgument`, with what is written to `std::cerr`: a name that is taken stays as it is. -/
def registerArgument (registry : ArgumentRegistry) (info : ArgumentMetadata) :
    ArgumentRegistry × List Bytes :=
  if registry.any (·.name == info.name) then
    (registry, [lit "[WARN] Argument " ++ info.name ++ lit " already registered"])
  else (registry ++ [info], [])

/-- The search for an argument's name. -/
def lookup (registry : ArgumentRegistry) (arg : Bytes) : Option ArgumentMetadata :=
  registry.find? (·.name == arg)

theorem name_of_lookup {registry : ArgumentRegistry} {arg : Bytes} {info : ArgumentMetadata}
    (h : lookup registry arg = some info) : info ∈ registry ∧ info.name = arg :=
  ⟨List.mem_of_find?_eq_some h, by simpa using List.find?_some h⟩

/-! ## `parse` -/

/-- `ParseResult`. -/
structure ParseResult where
  success : Bool
  /-- The names that were found, each followed by its value when it takes one. -/
  parsed_args : List Bytes := []
  unregistered : List Bytes := []
  warnings : List Bytes := []
  error : Bytes := []
  deriving DecidableEq, Repr

/-- The loop of `parse` over the arguments from the current one on. -/
def parseLoop (registry : ArgumentRegistry) (debug_mode : Bool) :
    List Bytes → ParseResult → ParseResult
  | [], result => result
  | arg :: args, result =>
    match lookup registry arg with
    | none =>
      if debug_mode then
        parseLoop registry debug_mode args
          { result with
            warnings := result.warnings ++ [lit "Unregistered argument: " ++ arg]
            unregistered := result.unregistered ++ [arg] }
      else { result with success := false, error := lit "Unknown argument: " ++ arg }
    | some info =>
      if info.takes_arg then
        match args with
        | [] =>
          { result with
            success := false, error := lit "Argument " ++ arg ++ lit " requires a value" }
        | value :: args =>
          -- the value is taken without being looked up
          parseLoop registry debug_mode args
            { result with parsed_args := result.parsed_args ++ [arg, value] }
      else
        parseLoop registry debug_mode args
          { result with parsed_args := result.parsed_args ++ [arg] }

/-- `parse`. The name of the program is skipped. -/
def parse (registry : ArgumentRegistry) (argv : List Bytes) (debug_mode : Bool) : ParseResult :=
  parseLoop registry debug_mode argv.tail { success := true }

section

variable {registry : ArgumentRegistry} {debug_mode : Bool} {arg : Bytes} {info : ArgumentMetadata}

/-- The loop at a word that is not registered. -/
theorem parseLoop_unknown (h : lookup registry arg = none) (args : List Bytes)
    (result : ParseResult) :
    parseLoop registry debug_mode (arg :: args) result =
      if debug_mode then
        parseLoop registry debug_mode args
          { result with
            warnings := result.warnings ++ [lit "Unregistered argument: " ++ arg]
            unregistered := result.unregistered ++ [arg] }
      else { result with success := false, error := lit "Unknown argument: " ++ arg } := by
  rw [parseLoop.eq_def]
  simp only [h]

/-- The loop at an argument without a value. -/
theorem parseLoop_flag (h : lookup registry arg = some info) (htakes : info.takes_arg = false)
    (args : List Bytes) (result : ParseResult) :
    parseLoop registry debug_mode (arg :: args) result =
      parseLoop registry debug_mode args
        { result with parsed_args := result.parsed_args ++ [arg] } := by
  rw [parseLoop.eq_def]
  simp only [h, htakes, Bool.false_eq_true, if_false]

/-- The loop at an argument and its value. -/
theorem parseLoop_valued (h : lookup registry arg = some info) (htakes : info.takes_arg = true)
    (value : Bytes) (args : List Bytes) (result : ParseResult) :
    parseLoop registry debug_mode (arg :: value :: args) result =
      parseLoop registry debug_mode args
        { result with parsed_args := result.parsed_args ++ [arg, value] } := by
  rw [parseLoop.eq_def]
  simp only [h, htakes, if_true]

/-- The loop at an argument whose value is missing. -/
theorem parseLoop_valued_nil (h : lookup registry arg = some info)
    (htakes : info.takes_arg = true) (result : ParseResult) :
    parseLoop registry debug_mode [arg] result =
      { result with
        success := false, error := lit "Argument " ++ arg ++ lit " requires a value" } := by
  rw [parseLoop.eq_def]
  simp only [h, htakes, if_true]

end

/-! ## Command lines as structures -/

/-- A part of a command line. -/
inductive Token
  /-- A registered argument without a value. -/
  | flag (name : Bytes)
  /-- A registered argument with its value. -/
  | valued (name value : Bytes)
  /-- A word that is not registered. -/
  | unknown (arg : Bytes)
  deriving DecidableEq, Repr

namespace Token

/-- The words a part stands for. -/
def words : Token → List Bytes
  | flag name => [name]
  | valued name value => [name, value]
  | unknown arg => [arg]

/-- Whether the part is a registered argument. -/
def isKnown : Token → Bool
  | unknown _ => false
  | _ => true

/-- The word of an unknown part. -/
def unknownWord : Token → List Bytes
  | unknown arg => [arg]
  | _ => []

/-- The part is what the registry makes of its first word. -/
def WellFormed (registry : ArgumentRegistry) : Token → Prop
  | flag name => ∃ info, lookup registry name = some info ∧ info.takes_arg = false
  | valued name _ => ∃ info, lookup registry name = some info ∧ info.takes_arg = true
  | unknown arg => lookup registry arg = none

end Token

/-- The words of the registered arguments. -/
def knownWords (tokens : List Token) : List Bytes :=
  (tokens.filter Token.isKnown).flatMap Token.words

/-- The words that are not registered. -/
def unknownWords (tokens : List Token) : List Bytes := tokens.flatMap Token.unknownWord

/-- The texts of the warnings about them. -/
def warningsFor (tokens : List Token) : List Bytes :=
  (unknownWords tokens).map (lit "Unregistered argument: " ++ ·)

@[simp]
theorem knownWords_nil : knownWords [] = [] := rfl

@[simp]
theorem unknownWords_nil : unknownWords [] = [] := rfl

@[simp]
theorem knownWords_cons (token : Token) (tokens : List Token) :
    knownWords (token :: tokens) =
      (if token.isKnown then token.words else []) ++ knownWords tokens := by
  unfold knownWords
  rw [List.filter_cons]
  split_ifs <;> simp

@[simp]
theorem unknownWords_cons (token : Token) (tokens : List Token) :
    unknownWords (token :: tokens) = token.unknownWord ++ unknownWords tokens := rfl

theorem knownWords_of_forall {tokens : List Token} (h : ∀ t ∈ tokens, t.isKnown = true) :
    knownWords tokens = tokens.flatMap Token.words := by
  rw [knownWords, List.filter_eq_self.mpr h]

theorem unknownWords_eq_nil_iff {tokens : List Token} :
    unknownWords tokens = [] ↔ ∀ t ∈ tokens, t.isKnown = true := by
  rw [unknownWords, List.flatMap_eq_nil_iff]
  refine forall₂_congr fun t _ => ?_
  cases t <;> simp [Token.unknownWord, Token.isKnown]

/-! ## What the parser makes of them -/

variable {registry : ArgumentRegistry} {debug_mode : Bool}

/-- The parser goes through a structure part by part, as long as the unknown words are only warned
about. -/
theorem parseLoop_words {tokens : List Token} {result : ParseResult}
    (hwf : ∀ t ∈ tokens, t.WellFormed registry)
    (h : debug_mode = true ∨ ∀ t ∈ tokens, t.isKnown = true) (args : List Bytes) :
    parseLoop registry debug_mode (tokens.flatMap Token.words ++ args) result =
      parseLoop registry debug_mode args
        { result with
          parsed_args := result.parsed_args ++ knownWords tokens
          unregistered := result.unregistered ++ unknownWords tokens
          warnings := result.warnings ++ warningsFor tokens } := by
  induction tokens generalizing result with
  | nil => simp [warningsFor]
  | cons token tokens ih =>
    have hrest : debug_mode = true ∨ ∀ t ∈ tokens, t.isKnown = true :=
      h.imp_right fun hknown t ht => hknown t (List.mem_cons_of_mem _ ht)
    have hwf' : ∀ t ∈ tokens, t.WellFormed registry :=
      fun t ht => hwf t (List.mem_cons_of_mem _ ht)
    have htoken := hwf token List.mem_cons_self
    rw [List.flatMap_cons]
    cases token with
    | flag name =>
      obtain ⟨info, hlookup, htakes⟩ := htoken
      show parseLoop registry debug_mode (name :: (tokens.flatMap Token.words ++ args)) result = _
      rw [parseLoop_flag hlookup htakes, ih hwf' hrest]
      simp [Token.isKnown, Token.unknownWord, Token.words, warningsFor]
    | valued name value =>
      obtain ⟨info, hlookup, htakes⟩ := htoken
      show parseLoop registry debug_mode
        (name :: value :: (tokens.flatMap Token.words ++ args)) result = _
      rw [parseLoop_valued hlookup htakes, ih hwf' hrest]
      simp [Token.isKnown, Token.unknownWord, Token.words, warningsFor]
    | unknown arg =>
      -- only debug mode comes past an unknown word
      have hdebug : debug_mode = true :=
        h.resolve_right fun hknown => Bool.noConfusion (hknown _ List.mem_cons_self)
      show parseLoop registry debug_mode (arg :: (tokens.flatMap Token.words ++ args)) result = _
      rw [parseLoop_unknown htoken, if_pos hdebug, ih hwf' hrest]
      simp [Token.isKnown, Token.unknownWord, warningsFor]

/-- In debug mode unknown words are skipped and warned about. -/
theorem parse_debug {tokens : List Token} {argv : List Bytes}
    (hwf : ∀ t ∈ tokens, t.WellFormed registry)
    (hargv : argv.tail = tokens.flatMap Token.words) :
    parse registry argv true =
      { success := true
        parsed_args := knownWords tokens
        unregistered := unknownWords tokens
        warnings := warningsFor tokens } := by
  have hargs : argv.tail = tokens.flatMap Token.words ++ [] := by rw [hargv, List.append_nil]
  rw [parse, hargs, parseLoop_words hwf (.inl rfl)]
  rfl

/-- Without unknown words the mode makes no difference. -/
theorem parse_of_forall_isKnown {tokens : List Token} {argv : List Bytes}
    (hwf : ∀ t ∈ tokens, t.WellFormed registry) (hknown : ∀ t ∈ tokens, t.isKnown = true)
    (hargv : argv.tail = tokens.flatMap Token.words) :
    parse registry argv debug_mode =
      { success := true, parsed_args := tokens.flatMap Token.words } := by
  have hargs : argv.tail = tokens.flatMap Token.words ++ [] := by rw [hargv, List.append_nil]
  rw [parse, hargs, parseLoop_words hwf (.inr hknown), knownWords_of_forall hknown, warningsFor,
    unknownWords_eq_nil_iff.mpr hknown]
  rfl

/-- Outside debug mode the first unknown word ends the parsing. -/
theorem parse_of_unknown {front back : List Token} {arg : Bytes} {argv : List Bytes}
    (hwf : ∀ t ∈ front, t.WellFormed registry) (hknown : ∀ t ∈ front, t.isKnown = true)
    (harg : lookup registry arg = none)
    (hargv : argv.tail = (front ++ .unknown arg :: back).flatMap Token.words) :
    parse registry argv false =
      { success := false
        parsed_args := front.flatMap Token.words
        error := lit "Unknown argument: " ++ arg } := by
  have hsplit : argv.tail =
      front.flatMap Token.words ++ arg :: back.flatMap Token.words := by
    rw [hargv, List.flatMap_append, List.flatMap_cons]
    rfl
  rw [parse, hsplit, parseLoop_words hwf (.inr hknown), parseLoop_unknown harg,
    if_neg Bool.false_ne_true]
  simp [knownWords_of_forall hknown, unknownWords_eq_nil_iff.mpr hknown, warningsFor]

/-- `tokens` is the structure of the command line, and every part of it is registered. -/
structure Parses (registry : ArgumentRegistry) (argv : List Bytes) (tokens : List Token) :
    Prop where
  wellFormed : ∀ t ∈ tokens, t.WellFormed registry
  isKnown : ∀ t ∈ tokens, t.isKnown = true
  words_eq : argv.tail = tokens.flatMap Token.words

/-- Arguments that the loop accepts have a structure, outside debug mode one without unknown
words. -/
theorem exists_tokens_of_parseLoop {args : List Bytes} {result : ParseResult}
    (h : (parseLoop registry debug_mode args result).success = true) :
    ∃ tokens : List Token, (∀ t ∈ tokens, t.WellFormed registry) ∧
      (debug_mode = true ∨ ∀ t ∈ tokens, t.isKnown = true) ∧
      args = tokens.flatMap Token.words := by
  -- The recursion of the parser: one word for a flag or an unknown word, two for an option with a
  -- value.
  induction args using List.twoStepInduction generalizing result with
  | nil => exact ⟨[], by simp, .inr (by simp), rfl⟩
  | singleton arg =>
    cases hlookup : lookup registry arg with
    | none =>
      cases debug_mode with
      | false => simp [parseLoop_unknown hlookup] at h
      | true => exact ⟨[.unknown arg], by simpa [Token.WellFormed] using hlookup, .inl rfl, rfl⟩
    | some info =>
      cases htakes : info.takes_arg with
      | false =>
        refine ⟨[.flag arg], ?_, .inr (by simp [Token.isKnown]), rfl⟩
        simpa [Token.WellFormed] using ⟨info, hlookup, htakes⟩
      -- an option whose value is missing is refused
      | true => simp [parseLoop_valued_nil hlookup htakes] at h
  | cons_cons arg value args ihargs ihtail =>
    cases hlookup : lookup registry arg with
    | none =>
      cases debug_mode with
      | false => simp [parseLoop_unknown hlookup] at h
      | true =>
        rw [parseLoop_unknown hlookup, if_pos rfl] at h
        obtain ⟨tokens, hwf, -, heq⟩ := ihtail value h
        refine ⟨.unknown arg :: tokens, ?_, .inl rfl, by rw [heq]; rfl⟩
        simpa [Token.WellFormed] using ⟨hlookup, hwf⟩
    | some info =>
      cases htakes : info.takes_arg with
      | false =>
        rw [parseLoop_flag hlookup htakes] at h
        obtain ⟨tokens, hwf, hknown, heq⟩ := ihtail value h
        refine ⟨.flag arg :: tokens, ?_, ?_, by rw [heq]; rfl⟩
        · simpa [Token.WellFormed] using ⟨⟨info, hlookup, htakes⟩, hwf⟩
        · simpa [Token.isKnown] using hknown
      | true =>
        rw [parseLoop_valued hlookup htakes] at h
        obtain ⟨tokens, hwf, hknown, heq⟩ := ihargs h
        refine ⟨.valued arg value :: tokens, ?_, ?_, by rw [heq]; rfl⟩
        · simpa [Token.WellFormed] using ⟨⟨info, hlookup, htakes⟩, hwf⟩
        · simpa [Token.isKnown] using hknown

/-- Outside debug mode the accepted command lines are those that have a structure. -/
theorem parse_success_iff {argv : List Bytes} :
    (parse registry argv false).success = true ↔ ∃ tokens, Parses registry argv tokens := by
  constructor
  · intro h
    obtain ⟨tokens, hwf, hknown, heq⟩ := exists_tokens_of_parseLoop h
    exact ⟨tokens, hwf, hknown.resolve_left Bool.false_ne_true, heq⟩
  · rintro ⟨tokens, hwf, hknown, heq⟩
    rw [parse_of_forall_isKnown hwf hknown heq]

/-- In debug mode the unknown words make no difference. -/
theorem parse_debug_success_iff {argv : List Bytes} :
    (parse registry argv true).success = true ↔
      ∃ tokens : List Token, (∀ t ∈ tokens, t.WellFormed registry) ∧
        argv.tail = tokens.flatMap Token.words := by
  constructor
  · intro h
    obtain ⟨tokens, hwf, -, heq⟩ := exists_tokens_of_parseLoop h
    exact ⟨tokens, hwf, heq⟩
  · rintro ⟨tokens, hwf, heq⟩
    rw [parse_debug hwf heq]

end Shell
