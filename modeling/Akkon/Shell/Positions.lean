import Mathlib.Data.List.Nodup
import Akkon.Shell.CommandLine

/-!
# Option positions and value positions

Two loops go over the arguments, the one of the parser and the walk of `Shell::run` over
`parsed_args`. Here they are put beside one reading of a command line: which of its words are in
option position and which are values.

* `Structured`: a command line as a sequence of registered flags, registered options with a value,
  and words that are not registered. Where the names are distinct there is at most one
  (`Structured.unique`);
* `ParsesExactly`: what the parser accepts and returns in either mode;
* `walkVisiting`: the walk with the positions that it goes through; it is the walk
  (`walkVisiting_snd`);
* `parsesExactly_and_visits`: the parser accepts exactly the structures, and the walk stays in step
  with it up to a value of `-c` that is not a number, where `run` returns.
-/

namespace Shell

open Cpp

variable {registry : ArgumentRegistry} {args : List Bytes} {tokens : List Token}

/-! ## Registries with distinct names -/

/-- The part is one of the registry. -/
def Token.Registered (registry : ArgumentRegistry) : Token → Prop
  | flag name => ⟨name, false⟩ ∈ registry
  | valued name _ => ⟨name, true⟩ ∈ registry
  | unknown arg => arg ∉ registry.map (·.name)

/-- `registerArgument` keeps the names distinct. -/
theorem nodup_registerArgument (hnodup : (registry.map (·.name)).Nodup) (info : ArgumentMetadata) :
    ((registerArgument registry info).1.map (·.name)).Nodup := by
  rw [registerArgument]
  split_ifs with htaken
  · exact hnodup
  · rw [List.map_append, List.nodup_append]
    refine ⟨hnodup, List.nodup_singleton _, fun name hname other hother => ?_⟩
    obtain rfl := List.mem_singleton.mp hother
    rintro rfl
    obtain ⟨entry, hentry, heq⟩ := List.mem_map.mp hname
    exact htaken (List.any_eq_true.mpr ⟨entry, hentry, by simpa using heq⟩)

/-- With distinct names it does not matter that the first entry is taken. -/
theorem lookup_eq_some_iff (hnodup : (registry.map (·.name)).Nodup) {arg : Bytes}
    {info : ArgumentMetadata} :
    lookup registry arg = some info ↔ info ∈ registry ∧ info.name = arg := by
  refine ⟨name_of_lookup, ?_⟩
  rintro ⟨hmem, rfl⟩
  cases hlookup : lookup registry info.name with
  | none =>
    have hnone := List.find?_eq_none.mp hlookup info hmem
    simp at hnone
  | some other =>
    obtain ⟨hother, hname⟩ := name_of_lookup hlookup
    rw [List.inj_on_of_nodup_map hnodup hother hmem hname]

theorem wellFormed_iff (hnodup : (registry.map (·.name)).Nodup) (token : Token) :
    token.WellFormed registry ↔ token.Registered registry := by
  have htakes (name : Bytes) (takes_arg : Bool) :
      (∃ info, lookup registry name = some info ∧ info.takes_arg = takes_arg) ↔
        ⟨name, takes_arg⟩ ∈ registry := by
    constructor
    · rintro ⟨info, hlookup, rfl⟩
      obtain ⟨hmem, rfl⟩ := name_of_lookup hlookup
      exact hmem
    · exact fun hmem => ⟨_, (lookup_eq_some_iff hnodup).mpr ⟨hmem, rfl⟩, rfl⟩
  cases token with
  | flag name => exact htakes name false
  | valued name value => exact htakes name true
  | unknown arg => simp [Token.WellFormed, Token.Registered, lookup]

/-! ## Command lines -/

/-- The words are those of the parts. -/
structure Structured (registry : ArgumentRegistry) (args : List Bytes) (tokens : List Token) :
    Prop where
  registered : ∀ t ∈ tokens, t.Registered registry
  words_eq : args = tokens.flatMap Token.words

theorem Structured.wellFormed (hnodup : (registry.map (·.name)).Nodup)
    (h : Structured registry args tokens) : ∀ t ∈ tokens, t.WellFormed registry :=
  fun t ht => (wellFormed_iff hnodup t).mpr (h.registered t ht)

/-- The first word of a part. -/
def Token.name : Token → Bytes
  | flag name => name
  | valued name _ => name
  | unknown arg => arg

/-- Whether the part takes a value, where it is registered. -/
def Token.kind : Token → Option Bool
  | flag _ => some false
  | valued _ _ => some true
  | unknown _ => none

/-- The first word decides the kind of a part. -/
theorem lookup_name {token : Token} (h : token.WellFormed registry) :
    (lookup registry token.name).map (·.takes_arg) = token.kind := by
  cases token with
  | flag name =>
    obtain ⟨info, hlookup, htakes⟩ := h
    rw [Token.name, hlookup, Option.map_some, htakes, Token.kind]
  | valued name value =>
    obtain ⟨info, hlookup, htakes⟩ := h
    rw [Token.name, hlookup, Option.map_some, htakes, Token.kind]
  | unknown arg =>
    have hlookup : lookup registry arg = none := h
    rw [Token.name, hlookup, Option.map_none, Token.kind]

theorem eq_of_words_append {token token' : Token} {rest rest' : List Bytes}
    (hwf : token.WellFormed registry) (hwf' : token'.WellFormed registry)
    (h : token.words ++ rest = token'.words ++ rest') : token = token' ∧ rest = rest' := by
  have hname : token.name = token'.name := by
    cases token <;> cases token' <;> exact (List.cons.inj h).1
  have hkind : token.kind = token'.kind := by
    rw [← lookup_name hwf, ← lookup_name hwf', hname]
  -- parts of the same kind have the same number of words
  cases token with
  | flag name =>
    cases token' with
    | flag name' =>
      obtain ⟨rfl, rfl⟩ := List.cons.inj h
      exact ⟨rfl, rfl⟩
    | _ => cases hkind
  | valued name value =>
    cases token' with
    | valued name' value' =>
      obtain ⟨rfl, hrest⟩ := List.cons.inj h
      obtain ⟨rfl, rfl⟩ := List.cons.inj hrest
      exact ⟨rfl, rfl⟩
    | _ => cases hkind
  | unknown arg =>
    cases token' with
    | unknown arg' =>
      obtain ⟨rfl, rfl⟩ := List.cons.inj h
      exact ⟨rfl, rfl⟩
    | _ => cases hkind

/-- There is at most one way to read a command line. -/
theorem Structured.unique (hnodup : (registry.map (·.name)).Nodup) {tokens' : List Token}
    (h : Structured registry args tokens) (h' : Structured registry args tokens') :
    tokens = tokens' := by
  have hwf := h.wellFormed hnodup
  have hwf' := h'.wellFormed hnodup
  have hwords := h.words_eq.symm.trans h'.words_eq
  clear h h'
  induction tokens generalizing tokens' with
  | nil =>
    cases tokens' with
    | nil => rfl
    | cons token' tokens' => cases token' <;> simp [Token.words] at hwords
  | cons token tokens ih =>
    cases tokens' with
    | nil => cases token <;> simp [Token.words] at hwords
    | cons token' tokens' =>
      rw [List.forall_mem_cons] at hwf hwf'
      rw [List.flatMap_cons, List.flatMap_cons] at hwords
      obtain ⟨rfl, hrest⟩ := eq_of_words_append hwf.1 hwf'.1 hwords
      rw [ih hwf.2 hwf'.2 hrest]

/-! ## The parser -/

/-- What the parser accepts, and what it returns. -/
structure ParsesExactly (registry : ArgumentRegistry) (argv : List Bytes) : Prop where
  /-- Outside debug mode every word in option position is registered. -/
  success_iff : (parse registry argv false).success = true ↔
    ∃ tokens, Structured registry argv.tail tokens ∧ ∀ t ∈ tokens, t.isKnown = true
  parsed_args : (parse registry argv false).success = true →
    (parse registry argv false).parsed_args = argv.tail
  /-- In debug mode it may be any word. -/
  debug_success_iff : (parse registry argv true).success = true ↔
    ∃ tokens, Structured registry argv.tail tokens
  /-- The registered arguments and the other words, each in order. -/
  debug : ∀ tokens, Structured registry argv.tail tokens →
    (parse registry argv true).parsed_args = knownWords tokens ∧
      (parse registry argv true).unregistered = unknownWords tokens

theorem parsesExactly (hnodup : (registry.map (·.name)).Nodup) (argv : List Bytes) :
    ParsesExactly registry argv := by
  have hsuccess : (parse registry argv false).success = true ↔
      ∃ tokens, Structured registry argv.tail tokens ∧ ∀ t ∈ tokens, t.isKnown = true := by
    rw [parse_success_iff]
    constructor
    · rintro ⟨tokens, hwf, hknown, heq⟩
      exact ⟨tokens, ⟨fun t ht => (wellFormed_iff hnodup t).mp (hwf t ht), heq⟩, hknown⟩
    · rintro ⟨tokens, h, hknown⟩
      exact ⟨tokens, h.wellFormed hnodup, hknown, h.words_eq⟩
  refine ⟨hsuccess, fun h => ?_, ?_, fun tokens h => ?_⟩
  · obtain ⟨tokens, h, hknown⟩ := hsuccess.mp h
    rw [parse_of_forall_isKnown (h.wellFormed hnodup) hknown h.words_eq, h.words_eq]
  · rw [parse_debug_success_iff]
    constructor
    · rintro ⟨tokens, hwf, heq⟩
      exact ⟨tokens, fun t ht => (wellFormed_iff hnodup t).mp (hwf t ht), heq⟩
    · rintro ⟨tokens, h⟩
      exact ⟨tokens, h.wellFormed hnodup, h.words_eq⟩
  · rw [parse_debug (h.wellFormed hnodup) h.words_eq]
    exact ⟨rfl, rfl⟩

/-! ## The walk -/

/-- What the walk does with a word, by its position in `parsed_args`. -/
inductive Visit
  /-- The word is compared with the options. -/
  | option (i : ℕ)
  /-- The word is taken or skipped as a value. -/
  | value (i : ℕ)
  deriving DecidableEq, Repr

/-- The position of the word. -/
def Visit.position : Visit → ℕ
  | option i => i
  | value i => i

/-- The walk over `parsed_args` from the position on, with what it visits. -/
def walkVisiting (i : ℕ) : List Bytes → Walk → List Visit × Except Walk Walk
  | [], st => ([], .ok st)
  | arg :: args, st =>
    if arg = lit "--help" then
      let (visits, result) := walkVisiting (i + 1) args { st with showHelp := true }
      (.option i :: visits, result)
    else if arg = lit "-c" then
      match args with
      | [] => ([.option i], .ok st)
      | value :: args =>
        match stoi value with
        | .error _ => ([.option i, .value (i + 1)], .error st)
        | .ok n =>
          let (visits, result) := walkVisiting (i + 2) args { st with numDatabases := n }
          (.option i :: .value (i + 1) :: visits, result)
    else if arg = lit "--no-import" then
      let (visits, result) := walkVisiting (i + 1) args { st with noImport := true }
      (.option i :: visits, result)
    else if arg = lit "--debug" then
      let (visits, result) := walkVisiting (i + 1) args { st with m_debug := true }
      (.option i :: visits, result)
    else if arg = lit "-p" ∨ arg = lit "--port" then
      match args with
      | [] => ([.option i], .ok st)
      | _ :: args =>
        let (visits, result) := walkVisiting (i + 2) args st
        (.option i :: .value (i + 1) :: visits, result)
    else
      let (visits, result) := walkVisiting (i + 1) args st
      (.option i :: visits, result)

/-- Nothing else is different. -/
theorem walkVisiting_snd (i : ℕ) (args : List Bytes) (st : Walk) :
    (walkVisiting i args st).2 = walk args st := by
  induction args using List.twoStepInduction generalizing i st with
  | nil => rfl
  | singleton arg =>
    rw [walkVisiting.eq_def, walk.eq_def]
    simp only
    split_ifs <;> rfl
  | cons_cons arg value args ihargs ihtail =>
    rw [walkVisiting.eq_def, walk.eq_def]
    simp only
    split_ifs
    · exact ihtail value _ _
    · cases stoi value with
      | error e => rfl
      | ok n => exact ihargs _ _
    · exact ihtail value _ _
    · exact ihtail value _ _
    · exact ihargs _ _
    · exact ihtail value _ _

namespace Token

/-- The visits of a part that begins at the position. -/
def visits (i : ℕ) : Token → List Visit
  | valued _ _ => [.option i, .value (i + 1)]
  | _ => [.option i]

/-- An option `-c` whose value is not a number. -/
def rejected : Token → Bool
  | valued name value => name == lit "-c" && !(stoi value).isOk
  | _ => false

end Token

/-- The visits of a command line that begins at the position: every option, and every value behind
its option. -/
def visitsFrom : ℕ → List Token → List Visit
  | _, [] => []
  | i, token :: tokens => token.visits i ++ visitsFrom (i + token.words.length) tokens

/-- So every word is visited once, in order. -/
theorem map_position_visitsFrom (i : ℕ) (tokens : List Token) :
    (visitsFrom i tokens).map Visit.position =
      List.range' i (tokens.flatMap Token.words).length := by
  induction tokens generalizing i with
  | nil => rfl
  | cons token tokens ih =>
    have htoken : (token.visits i).map Visit.position = List.range' i token.words.length := by
      cases token <;> rfl
    rw [visitsFrom, List.map_append, ih, htoken, List.range'_append_1, List.flatMap_cons,
      List.length_append]

/-- The parts up to the first value of `-c` that is not a number. -/
def upToRejected : List Token → List Token
  | [] => []
  | token :: tokens => token :: if token.rejected then [] else upToRejected tokens

theorem upToRejected_of_forall (h : ∀ t ∈ tokens, t.rejected = false) :
    upToRejected tokens = tokens := by
  induction tokens with
  | nil => rfl
  | cons token tokens ih =>
    rw [List.forall_mem_cons] at h
    rw [upToRejected, h.1, ih h.2]
    rfl

/-- The walk at a flag. -/
theorem walkVisiting_flag {name : Bytes} (h : (Token.flag name).WellFormed allArguments) (i : ℕ)
    (args : List Bytes) (st : Walk) :
    ∃ st', (walkVisiting i (name :: args) st).1 =
      .option i :: (walkVisiting (i + 1) args st').1 := by
  rw [walkVisiting.eq_def]
  rcases eq_of_wellFormed_flag h with rfl | rfl | rfl
  · exact ⟨{ st with showHelp := true }, rfl⟩
  · exact ⟨{ st with noImport := true }, rfl⟩
  · exact ⟨{ st with m_debug := true }, rfl⟩

/-- The walk at an option and its value. -/
theorem walkVisiting_valued {name value : Bytes}
    (h : (Token.valued name value).WellFormed allArguments) (i : ℕ) (args : List Bytes)
    (st : Walk) :
    ∃ st', (walkVisiting i (name :: value :: args) st).1 = .option i :: .value (i + 1) ::
      if (Token.valued name value).rejected then [] else (walkVisiting (i + 2) args st').1 := by
  rw [walkVisiting.eq_def, Token.rejected]
  rcases eq_of_wellFormed_valued h with rfl | rfl | rfl
  · cases hstoi : stoi value with
    | error e =>
      -- `run` returns
      refine ⟨st, ?_⟩
      simp only [hstoi]
      rfl
    | ok n =>
      refine ⟨{ st with numDatabases := n }, ?_⟩
      simp only [hstoi]
      rfl
  · exact ⟨st, rfl⟩
  · exact ⟨st, rfl⟩

/-- The walk visits the parts one after another. -/
theorem walkVisiting_words (hwf : ∀ t ∈ tokens, t.WellFormed allArguments)
    (hknown : ∀ t ∈ tokens, t.isKnown = true) (i : ℕ) (st : Walk) :
    (walkVisiting i (tokens.flatMap Token.words) st).1 = visitsFrom i (upToRejected tokens) := by
  induction tokens generalizing i st with
  | nil => rfl
  | cons token tokens ih =>
    rw [List.forall_mem_cons] at hwf hknown
    have ih := ih hwf.2 hknown.2
    rw [List.flatMap_cons, upToRejected, visitsFrom]
    cases token with
    | flag name =>
      obtain ⟨st', hvisits⟩ := walkVisiting_flag hwf.1 i (tokens.flatMap Token.words) st
      rw [ih] at hvisits
      exact hvisits
    | valued name value =>
      obtain ⟨st', hvisits⟩ := walkVisiting_valued hwf.1 i (tokens.flatMap Token.words) st
      rw [ih] at hvisits
      refine hvisits.trans ?_
      cases (Token.valued name value).rejected with
      | false => rfl
      | true => rfl
    | unknown arg => exact Bool.noConfusion hknown.1

/-! ## The parser and the walk -/

/-- What an accepted command line is for the walk that `run` makes over `parsed_args`. -/
structure WalksInStep (argv : List Bytes) (m_debug : Bool) (tokens : List Token) : Prop where
  /-- The visits are those of the walk. -/
  walk : (walkVisiting 0 (parse allArguments argv m_debug).parsed_args { m_debug }).2 =
    Shell.walk (parse allArguments argv m_debug).parsed_args { m_debug }
  /-- The parts are visited up to the first value that is not a number, where `run` returns. -/
  visits : (walkVisiting 0 (parse allArguments argv m_debug).parsed_args { m_debug }).1 =
    visitsFrom 0 (upToRejected (tokens.filter Token.isKnown))
  /-- Without such a value all of them are visited, and every word once. -/
  visits_all : (∀ t ∈ tokens, t.rejected = false) →
    (walkVisiting 0 (parse allArguments argv m_debug).parsed_args { m_debug }).1 =
        visitsFrom 0 (tokens.filter Token.isKnown) ∧
      (visitsFrom 0 (tokens.filter Token.isKnown)).map Visit.position =
        List.range (parse allArguments argv m_debug).parsed_args.length

theorem nodup_allArguments : (allArguments.map (·.name)).Nodup := by decide

/-- What the parser returns for an accepted command line, in either mode. -/
theorem parsed_args_of_success {argv : List Bytes} {m_debug : Bool}
    (hnodup : (registry.map (·.name)).Nodup) (h : Structured registry argv.tail tokens)
    (hsuccess : (parse registry argv m_debug).success = true) :
    (parse registry argv m_debug).parsed_args = knownWords tokens := by
  cases m_debug with
  | true => exact ((parsesExactly hnodup argv).debug tokens h).1
  | false =>
    obtain ⟨tokens', h', hknown⟩ := (parsesExactly hnodup argv).success_iff.mp hsuccess
    obtain rfl := h.unique hnodup h'
    rw [parse_of_forall_isKnown (h.wellFormed hnodup) hknown h.words_eq,
      knownWords_of_forall hknown]

theorem walksInStep {argv : List Bytes} {m_debug : Bool}
    (h : Structured allArguments argv.tail tokens)
    (hsuccess : (parse allArguments argv m_debug).success = true) :
    WalksInStep argv m_debug tokens := by
  have hwf : ∀ t ∈ tokens.filter Token.isKnown, t.WellFormed allArguments :=
    fun t ht => h.wellFormed nodup_allArguments t (List.mem_of_mem_filter ht)
  have hvisits := walkVisiting_words hwf (fun _ ht => (List.mem_filter.mp ht).2) 0 { m_debug }
  have hparsed := parsed_args_of_success nodup_allArguments h hsuccess
  rw [knownWords] at hparsed
  rw [← hparsed] at hvisits
  refine ⟨walkVisiting_snd 0 _ _, hvisits, fun hnone => ?_⟩
  have hrejected : ∀ t ∈ tokens.filter Token.isKnown, t.rejected = false :=
    fun t ht => hnone t (List.mem_of_mem_filter ht)
  rw [upToRejected_of_forall hrejected] at hvisits
  refine ⟨hvisits, ?_⟩
  rw [map_position_visitsFrom, hparsed, List.range_eq_range']

/-- The parser accepts exactly the command lines that have a structure, and returns their words. For
the arguments of `Shell` the walk goes through the structure part by part, up to a value of `-c`
that is not a number. -/
theorem parsesExactly_and_walksInStep (hnodup : (registry.map (·.name)).Nodup)
    (argv : List Bytes) :
    ParsesExactly registry argv ∧
      ∀ m_debug tokens, Structured allArguments argv.tail tokens →
        (parse allArguments argv m_debug).success = true → WalksInStep argv m_debug tokens :=
  ⟨parsesExactly hnodup argv, fun _ _ => walksInStep⟩

/-- A value may look like an option. -/
theorem parsesExactly_and_walksInStep_port :
    ParsesExactly allArguments [lit "Akkon", lit "-p", lit "--help", lit "--debug"] ∧
      WalksInStep [lit "Akkon", lit "-p", lit "--help", lit "--debug"] false
        [.valued (lit "-p") (lit "--help"), .flag (lit "--debug")] := by
  obtain ⟨hparses, hwalks⟩ := parsesExactly_and_walksInStep nodup_allArguments
    [lit "Akkon", lit "-p", lit "--help", lit "--debug"]
  refine ⟨hparses, hwalks false _ ⟨?_, rfl⟩ rfl⟩
  simp [Token.Registered, allArguments]

/-- The walk over `-c x --help` does not come to `--help`. -/
theorem not_visits_all :
    Structured allArguments [lit "-c", lit "x", lit "--help"]
        [.valued (lit "-c") (lit "x"), .flag (lit "--help")] ∧
      (parse allArguments [lit "Akkon", lit "-c", lit "x", lit "--help"] false).success = true ∧
      (walkVisiting 0 (parse allArguments [lit "Akkon", lit "-c", lit "x", lit "--help"]
        false).parsed_args { m_debug := false }).1 ≠
          visitsFrom 0 [.valued (lit "-c") (lit "x"), .flag (lit "--help")] := by
  refine ⟨⟨by simp [Token.Registered, allArguments], rfl⟩, rfl, ?_⟩
  decide

end Shell
