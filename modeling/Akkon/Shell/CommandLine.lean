import Akkon.Shell.ArgumentRegistry
import Akkon.Shell.Shell

/-!
# `Shell::run` and its arguments

The part of `Shell::run` in front of `ensureDbDirectory`: the arguments are registered and parsed,
and a walk over `parsed_args` takes the options from them. `runArgs` is the whole of `Shell::run`.

The parser is called with `m_debug` as it is at that moment, and only the walk behind it sets
`m_debug` when it meets `--debug`.

* `walk_words`: the walk goes through the structure of the command line part by part;
* `tolerates_iff`: exactly when unknown words change nothing but the warnings.
-/

namespace Shell

open Cpp Construction

/-! ## The options -/

/-- The arguments `registerAllArguments` registers, in order. -/
def allArguments : List ArgumentMetadata :=
  [⟨lit "--help", false⟩, ⟨lit "-c", true⟩, ⟨lit "--no-import", false⟩, ⟨lit "--debug", false⟩,
    ⟨lit "--port", true⟩, ⟨lit "-p", true⟩]

/-- `registerAllArguments`, with what is written to `std::cerr`. -/
def registerAllArguments (registry : ArgumentRegistry) : ArgumentRegistry × List Bytes :=
  allArguments.foldl
    (fun st info =>
      let (registry, warned) := registerArgument st.1 info
      (registry, st.2 ++ warned))
    (registry, [])

/-- In a new process all of them are registered, without a warning. -/
theorem registerAllArguments_nil : registerAllArguments [] = (allArguments, []) := by decide

/-- `printUsage`. -/
def usage : Bytes :=
  lit "Usage: Akkon [-c N] [--no-import] [--debug] [--help] [-p port]\n" ++
  lit "  -c N         Create or require N mapped databases\n" ++
  lit "  --no-import  Skip importing unmapped .db files from db/\n" ++
  lit "  --debug      Enable debug mode (warn on unregistered args)\n" ++
  lit "  -p, --port   Server port to listen on (default 2409)\n" ++
  lit "  --help       Show this message\n"

/-- The variables of the walk over `parsed_args`. -/
structure Walk where
  numDatabases : Int32 := 1
  noImport : Bool := false
  showHelp : Bool := false
  m_debug : Bool
  deriving DecidableEq, Repr

/-- The walk over `parsed_args` from the current argument on. An error is the state in which a value
of `-c` is not a number. -/
def walk : List Bytes → Walk → Except Walk Walk
  | [], st => .ok st
  | arg :: args, st =>
    if arg = lit "--help" then walk args { st with showHelp := true }
    else if arg = lit "-c" then
      match args with
      | [] => .ok st
      | value :: args =>
        match stoi value with
        | .error _ => .error st
        | .ok n => walk args { st with numDatabases := n }
    else if arg = lit "--no-import" then walk args { st with noImport := true }
    else if arg = lit "--debug" then walk args { st with m_debug := true }
    else if arg = lit "-p" ∨ arg = lit "--port" then
      match args with
      | [] => .ok st
      | _ :: args => walk args st
    else walk args st

/-- What `Shell::run` has done when it comes to `ensureDbDirectory`, or returns in front of it. -/
structure Prologue where
  registry : ArgumentRegistry
  m_debug : Bool
  /-- What was written to `std::cout`. -/
  out : List Bytes
  /-- What was written to `std::cerr`. -/
  err : List Bytes
  /-- The options to go on with, or the value that is returned. -/
  next : Except ℤ Options

/-- The options of a walk. -/
def Walk.options (st : Walk) : Options where
  numDatabases := st.numDatabases.toInt
  noImport := st.noImport
  min_le := st.numDatabases.le_toInt
  le_max := st.numDatabases.toInt_lt

/-- `Shell::run` up to `ensureDbDirectory`. -/
def prologue (registry : ArgumentRegistry) (m_debug : Bool) (argv : List Bytes) : Prologue :=
  let (registry, warned) := registerAllArguments registry
  let parseResult := parse registry argv m_debug
  let out := parseResult.warnings.map (lit "[WARN] " ++ ·)
  if parseResult.success then
    match walk parseResult.parsed_args { m_debug } with
    | .error st =>
      ⟨registry, st.m_debug, out, warned ++ [lit "[ERROR] Invalid value for -c"], .error 1⟩
    | .ok st =>
      if st.showHelp then ⟨registry, st.m_debug, out ++ [usage], warned, .error 0⟩
      else ⟨registry, st.m_debug, out, warned, .ok st.options⟩
  else
    ⟨registry, m_debug, out ++ [usage], warned ++ [lit "[ERROR] " ++ parseResult.error], .error 1⟩

/-- `Shell::run`. -/
def runArgs (host : Host) (stray : Stray) (dir : Directory) (chance : Chance)
    (registry : ArgumentRegistry) (m_debug : Bool) (argv : List Bytes) (w : World) :
    Option Outcome :=
  match (prologue registry m_debug argv).next with
  | .error status => some { status, world := w, mapExisting := [], registry := [] }
  | .ok opts => run host stray opts dir chance w

/-! ## The walk over a structure -/

/-- The flags among the registered arguments. -/
theorem eq_of_wellFormed_flag {name : Bytes} (h : (Token.flag name).WellFormed allArguments) :
    name = lit "--help" ∨ name = lit "--no-import" ∨ name = lit "--debug" := by
  obtain ⟨info, hlookup, htakes⟩ := h
  obtain ⟨hmem, rfl⟩ := name_of_lookup hlookup
  simp only [allArguments, List.mem_cons, List.not_mem_nil, or_false] at hmem
  rcases hmem with rfl | rfl | rfl | rfl | rfl | rfl <;> simp_all

/-- The registered arguments that take a value. -/
theorem eq_of_wellFormed_valued {name value : Bytes}
    (h : (Token.valued name value).WellFormed allArguments) :
    name = lit "-c" ∨ name = lit "--port" ∨ name = lit "-p" := by
  obtain ⟨info, hlookup, htakes⟩ := h
  obtain ⟨hmem, rfl⟩ := name_of_lookup hlookup
  simp only [allArguments, List.mem_cons, List.not_mem_nil, or_false] at hmem
  rcases hmem with rfl | rfl | rfl | rfl | rfl | rfl <;> simp_all

/-- What the walk does at one part of the command line. -/
def Token.walkStep (st : Walk) : Token → Except Walk Walk
  | flag name =>
    .ok { st with
      showHelp := name == lit "--help" || st.showHelp
      noImport := name == lit "--no-import" || st.noImport
      m_debug := name == lit "--debug" || st.m_debug }
  | valued name value =>
    if name = lit "-c" then
      match stoi value with
      | .error _ => .error st
      | .ok n => .ok { st with numDatabases := n }
    else .ok st
  | unknown _ => .ok st

/-- The walk at a flag. -/
theorem walk_flag {name : Bytes} (h : (Token.flag name).WellFormed allArguments)
    (args : List Bytes) (st : Walk) :
    walk (name :: args) st = Token.walkStep st (.flag name) >>= walk args := by
  rw [walk.eq_def]
  rcases eq_of_wellFormed_flag h with rfl | rfl | rfl
  · rfl
  · rfl
  · rfl

/-- The walk at an argument and its value. -/
theorem walk_valued {name value : Bytes} (h : (Token.valued name value).WellFormed allArguments)
    (args : List Bytes) (st : Walk) :
    walk (name :: value :: args) st = Token.walkStep st (.valued name value) >>= walk args := by
  rcases eq_of_wellFormed_valued h with rfl | rfl | rfl
  · show (match stoi value with
      | .error _ => .error st
      | .ok n => walk args { st with numDatabases := n }) =
        (match stoi value with
          | .error _ => .error st
          | .ok n => .ok { st with numDatabases := n } : Except Walk Walk) >>= walk args
    cases stoi value with
    | error e => rfl
    | ok n => rfl
  · rfl
  · rfl

/-- The walk stays in step with the parser: it goes from one part of the command line to the next
and never takes a value for a name. -/
theorem walk_words {tokens : List Token} (hwf : ∀ t ∈ tokens, t.WellFormed allArguments)
    (hknown : ∀ t ∈ tokens, t.isKnown = true) (st : Walk) :
    walk (tokens.flatMap Token.words) st = tokens.foldlM Token.walkStep st := by
  induction tokens generalizing st with
  | nil => rfl
  | cons token tokens ih =>
    have ih := ih (fun t ht => hwf t (List.mem_cons_of_mem _ ht))
      fun t ht => hknown t (List.mem_cons_of_mem _ ht)
    have htoken := hwf token List.mem_cons_self
    rw [List.flatMap_cons, List.foldlM_cons]
    cases token with
    | flag name =>
      show walk (name :: tokens.flatMap Token.words) st = _
      rw [walk_flag htoken, funext ih]
    | valued name value =>
      show walk (name :: value :: tokens.flatMap Token.words) st = _
      rw [walk_valued htoken, funext ih]
    | unknown arg => exact Bool.noConfusion (hknown _ List.mem_cons_self)

/-- A run of a new process that returns 0 has accepted its command line. -/
theorem parses_of_runArgs {host : Host} {stray : Stray} {dir : Directory} {chance : Chance}
    {argv : List Bytes} {w : World}
    (hrun : (runArgs host stray dir chance [] false argv w).map Outcome.status = some 0) :
    ∃ tokens, Parses allArguments argv tokens := by
  rw [← parse_success_iff]
  by_contra hfail
  rw [Bool.not_eq_true] at hfail
  -- the run returned 1
  rw [runArgs, prologue, registerAllArguments_nil] at hrun
  simp [hfail] at hrun

/-! ## Unknown words -/

section

variable (registry : ArgumentRegistry) (m_debug : Bool) (program : Bytes) (tokens : List Token)

/-- The run on the whole command line. -/
def withUnknown : Prologue :=
  prologue registry m_debug (program :: tokens.flatMap Token.words)

/-- The run on the command line without its unknown words. -/
def withoutUnknown : Prologue :=
  prologue registry m_debug (program :: knownWords tokens)

/-- The unknown words are reported as warnings, and everything else is as if they were absent. -/
structure Tolerates : Prop where
  out : (withUnknown registry m_debug program tokens).out =
    (warningsFor tokens).map (lit "[WARN] " ++ ·) ++
      (withoutUnknown registry m_debug program tokens).out
  err : (withUnknown registry m_debug program tokens).err =
    (withoutUnknown registry m_debug program tokens).err
  debug : (withUnknown registry m_debug program tokens).m_debug =
    (withoutUnknown registry m_debug program tokens).m_debug
  /-- The run does not fail because of them, and has the same options. -/
  next : (withUnknown registry m_debug program tokens).next =
    (withoutUnknown registry m_debug program tokens).next

variable {registry m_debug program tokens}

/-- The command line without its unknown words is parsed in either mode. -/
theorem parse_knownWords
    (hwf : ∀ t ∈ tokens, t.WellFormed (registerAllArguments registry).1) :
    parse (registerAllArguments registry).1 (program :: knownWords tokens) m_debug =
      { success := true, parsed_args := knownWords tokens } := by
  have hwf' : ∀ t ∈ tokens.filter Token.isKnown,
      t.WellFormed (registerAllArguments registry).1 :=
    fun t ht => hwf t (List.mem_of_mem_filter ht)
  exact parse_of_forall_isKnown hwf' (fun _ ht => (List.mem_filter.mp ht).2) rfl

/-- A walk that has begun with the same words gives the same options. -/
theorem tolerates_of_parse {warnings unregistered : List Bytes}
    (hwf : ∀ t ∈ tokens, t.WellFormed (registerAllArguments registry).1)
    (hwarnings : warnings = warningsFor tokens)
    (hparse : parse (registerAllArguments registry).1 (program :: tokens.flatMap Token.words)
      m_debug = { success := true, parsed_args := knownWords tokens, unregistered, warnings }) :
    Tolerates registry m_debug program tokens := by
  have hknown :
      parse (registerAllArguments registry).1 (program :: knownWords tokens) m_debug = _ :=
    parse_knownWords hwf
  subst hwarnings
  constructor
  all_goals
    simp only [withUnknown, withoutUnknown, prologue, hparse, hknown, if_true, List.map_nil]
    cases walk (knownWords tokens) { m_debug } with
    | error st => simp
    | ok st =>
      simp only
      split_ifs <;> simp

/-- Outside debug mode an unknown word ends the run with an error in place of a warning. -/
theorem not_tolerates_of_unknown
    (hwf : ∀ t ∈ tokens, t.WellFormed (registerAllArguments registry).1)
    (hunknown : ¬ ∀ t ∈ tokens, t.isKnown = true) : ¬ Tolerates registry false program tokens := by
  intro htol
  -- the first unknown word
  have hsome : (tokens.find? fun t => !t.isKnown).isSome := by
    rw [List.find?_isSome]
    push Not at hunknown
    obtain ⟨t, ht, hne⟩ := hunknown
    exact ⟨t, ht, by simpa using hne⟩
  obtain ⟨token, hfind⟩ := Option.isSome_iff_exists.mp hsome
  obtain ⟨htoken, front, back, rfl, hfront⟩ := List.find?_eq_some_iff_append.mp hfind
  have hmem : token ∈ front ++ token :: back := List.mem_append_right _ List.mem_cons_self
  have hwf' : ∀ t ∈ front, t.WellFormed (registerAllArguments registry).1 :=
    fun t ht => hwf t (List.mem_append_left _ ht)
  obtain ⟨arg, rfl⟩ : ∃ arg, token = .unknown arg := by
    cases token with
    | unknown arg => exact ⟨arg, rfl⟩
    | flag name => simp [Token.isKnown] at htoken
    | valued name value => simp [Token.isKnown] at htoken
  have hparse : parse (registerAllArguments registry).1
      (program :: (front ++ .unknown arg :: back).flatMap Token.words) false = _ :=
    parse_of_unknown hwf' (fun t ht => by simpa using hfront t ht) (hwf _ hmem) rfl
  -- no warning is written, although there is one to write
  have hout : (withUnknown registry false program (front ++ .unknown arg :: back)).out =
      [usage] := by
    simp only [withUnknown, prologue, hparse, Bool.false_eq_true, if_false, List.map_nil,
      List.nil_append]
  have hwarn : warningsFor (front ++ .unknown arg :: back) ≠ [] := by
    simp [warningsFor, unknownWords, Token.unknownWord]
  obtain ⟨text, texts, htexts⟩ := List.exists_cons_of_ne_nil hwarn
  have heq := htol.out
  rw [hout, htexts, List.map_cons, List.cons_append] at heq
  have hhead : usage.head? = some 85 := by decide
  rw [(List.cons.inj heq).1] at hhead
  cases hhead

/-- Unknown words are tolerated exactly when the object is in debug mode already before the run, or
there are none. That `--debug` is among the arguments makes no difference. -/
theorem tolerates_iff (hwf : ∀ t ∈ tokens, t.WellFormed (registerAllArguments registry).1) :
    Tolerates registry m_debug program tokens ↔
      m_debug = true ∨ ∀ t ∈ tokens, t.isKnown = true := by
  constructor
  · intro htol
    by_contra hneither
    obtain ⟨hdebug, hunknown⟩ := not_or.mp hneither
    rw [Bool.not_eq_true] at hdebug
    subst hdebug
    exact not_tolerates_of_unknown hwf hunknown htol
  · rintro (hdebug | hknown)
    · subst hdebug
      exact tolerates_of_parse hwf rfl (parse_debug hwf rfl)
    · have hnone : warningsFor tokens = [] := by
        rw [warningsFor, unknownWords_eq_nil_iff.mpr hknown, List.map_nil]
      have hparse : parse (registerAllArguments registry).1
          (program :: tokens.flatMap Token.words) m_debug = _ :=
        parse_of_forall_isKnown hwf hknown rfl
      exact tolerates_of_parse hwf hnone.symm
        (hparse.trans (by rw [knownWords_of_forall hknown]))

end

/-- The object behind a run with `--debug`. -/
def debugRun : Prologue := prologue [] false [lit "Akkon", lit "--debug"]

/-- The second run of this object tolerates a word behind a valued option. -/
theorem tolerates_iff_secondRun :
    debugRun.registry = allArguments ∧ debugRun.m_debug = true ∧
      Tolerates debugRun.registry debugRun.m_debug (lit "Akkon")
        [.flag (lit "--debug"), .valued (lit "-c") (lit "2"), .unknown (lit "--foo")] := by
  have hregistry : debugRun.registry = allArguments := by decide
  have hdebug : debugRun.m_debug = true := by decide
  have hagain : (registerAllArguments debugRun.registry).1 = allArguments := by decide
  refine ⟨hregistry, hdebug, (tolerates_iff fun t ht => ?_).mpr (.inl hdebug)⟩
  simp only [List.mem_cons, List.not_mem_nil, or_false] at ht
  rw [hagain]
  rcases ht with rfl | rfl | rfl
  · exact ⟨⟨lit "--debug", false⟩, by decide, rfl⟩
  · exact ⟨⟨lit "-c", true⟩, by decide, rfl⟩
  · show lookup allArguments (lit "--foo") = none
    decide

/-- `Akkon --debug --foo` ends with an error. -/
theorem not_tolerates_debugFoo :
    ¬ Tolerates [] false (lit "Akkon") [.flag (lit "--debug"), .unknown (lit "--foo")] := by
  intro htol
  have hnext := htol.next
  have hfail : (withUnknown [] false (lit "Akkon")
      [.flag (lit "--debug"), .unknown (lit "--foo")]).next = .error 1 := rfl
  have hstart : (withoutUnknown [] false (lit "Akkon")
      [.flag (lit "--debug"), .unknown (lit "--foo")]).next =
        .ok defaultOptions := rfl
  rw [hfail, hstart] at hnext
  cases hnext

end Shell
