import Akkon.Shell.CommandLine

/-!
# The command line in `main`

`main` reads `argv` with loops of its own: one looks for `--debug`, one for `--help`, and one takes
the port from what stands behind `--port` or `-p`. They look at every word, in the place of a value
too.

* `portLoop_words`: the port loop finds the values of the port options and nothing else;
* `optionsAgree_iff`: when `Shell::run` returns 0, the loops agree with the structure of the command
  line exactly when `--help` and `--debug` stand in the place of a value only beside the option.
-/

namespace Main

open Cpp Shell Construction MasterDB

/-! ## The loops -/

/-- `debug_mode`, set in front of everything else. -/
def debugMode (argv : List Bytes) : Bool := argv.tail.any (· == lit "--debug")

/-- Whether the loop behind `Shell::run` returns. -/
def helpScan (argv : List Bytes) : Bool := argv.tail.any (· == lit "--help")

/-- The port loop over the arguments from the current one on. A value that is not a number is
ignored. -/
def portLoop : List Bytes → Int32 → Int32
  | [], port => port
  | arg :: args, port =>
    portLoop args <|
      if arg = lit "--port" ∨ arg = lit "-p" then
        match args with
        | [] => port
        | value :: _ => (stoi value).toOption.getD port
      else port

/-- `port`. -/
def port (argv : List Bytes) : Int32 := portLoop argv.tail 2409

/-- How far `main` gets: it returns, or constructs the server. -/
inductive Startup
  | exit (rc : ℤ)
  | serve (debug_mode : Bool) (port : Int32)
  deriving DecidableEq, Repr

/-- `main` up to the server, with what `SystemMonitor::init` and `Shell::run` return. -/
def startup (init : Bool) (rc : ℤ) (argv : List Bytes) : Startup :=
  if init then
    if rc ≠ 0 then .exit rc
    else if helpScan argv then .exit 0
    else .serve (debugMode argv) (port argv)
  else .exit 0

/-! ## What they should find -/

/-- The value of a port option. -/
def portValue : Token → Option Bytes
  | .valued name value => if name = lit "--port" ∨ name = lit "-p" then some value else none
  | _ => none

/-- The numbers among the values of the port options. -/
def portNumbers (tokens : List Token) : List Int32 :=
  (tokens.filterMap portValue).filterMap fun value => (stoi value).toOption

/-- What the loops of `main` find is what the options say, when `Shell::run` has returned 0. -/
structure OptionsAgree (argv : List Bytes) (tokens : List Token) : Prop where
  /-- `main` leaves exactly when `--help` occurs as an option. -/
  help : (∃ rc, startup true 0 argv = .exit rc) ↔ .flag (lit "--help") ∈ tokens
  /-- Debug mode is on exactly when `--debug` occurs as an option. -/
  debug : debugMode argv = true ↔ .flag (lit "--debug") ∈ tokens
  /-- The port is the last number among the values of the port options. -/
  port : port argv = (portNumbers tokens).getLast?.getD 2409

/-- The word stands in the place of a value only if it is an option as well. -/
def BesideOption (tokens : List Token) (name : Bytes) : Prop :=
  ∀ option, .valued option name ∈ tokens → .flag name ∈ tokens

variable {tokens : List Token} {argv : List Bytes}

theorem exit_startup_iff : (∃ rc, startup true 0 argv = .exit rc) ↔ helpScan argv = true := by
  unfold startup
  cases helpScan argv <;> simp

/-! ## The two flags -/

/-- A word of the command line is a flag or an option, or it is a value. -/
theorem mem_words_iff (hknown : ∀ t ∈ tokens, t.isKnown = true) {word : Bytes} :
    word ∈ tokens.flatMap Token.words ↔
      .flag word ∈ tokens ∨ (∃ value, .valued word value ∈ tokens) ∨
        ∃ option, .valued option word ∈ tokens := by
  rw [List.mem_flatMap]
  constructor
  · rintro ⟨token, hmem, hword⟩
    cases token with
    | flag name =>
      rw [List.mem_singleton.mp hword]
      exact .inl hmem
    | valued name value =>
      rcases List.mem_cons.mp hword with rfl | hword
      · exact .inr (.inl ⟨value, hmem⟩)
      · rw [List.mem_singleton.mp hword]
        exact .inr (.inr ⟨name, hmem⟩)
    | unknown arg => exact Bool.noConfusion (hknown _ hmem)
  · rintro (hmem | ⟨value, hmem⟩ | ⟨option, hmem⟩)
    · exact ⟨_, hmem, by simp [Token.words]⟩
    · exact ⟨_, hmem, by simp [Token.words]⟩
    · exact ⟨_, hmem, by simp [Token.words]⟩

/-- A search through all words for a registered flag finds the option exactly when the word stands
in the place of a value only beside it. -/
theorem any_iff_flag_mem (hparses : Parses allArguments argv tokens) (name : Bytes)
    (hname : ∀ value, ¬ (Token.valued name value).WellFormed allArguments) :
    (argv.tail.any (· == name) = true ↔ .flag name ∈ tokens) ↔ BesideOption tokens name := by
  have hany : argv.tail.any (· == name) = true ↔
      .flag name ∈ tokens ∨ ∃ option, .valued option name ∈ tokens := by
    rw [List.any_eq_true, hparses.words_eq]
    simp only [beq_iff_eq, exists_eq_right]
    rw [mem_words_iff hparses.isKnown]
    refine or_congr_right (or_iff_right ?_)
    rintro ⟨value, hmem⟩
    exact hname value (hparses.wellFormed _ hmem)
  rw [hany, BesideOption]
  constructor
  · exact fun h option hmem => h.mp (.inr ⟨option, hmem⟩)
  · exact fun h => ⟨fun hor => hor.elim id fun ⟨option, hmem⟩ => h option hmem, .inl⟩

/-! ## The port -/

/-- The first word of a command line is not a number. -/
theorem toOption_stoi_head {value : Bytes} {rest : List Bytes}
    (hwf : ∀ t ∈ tokens, t.WellFormed allArguments) (hknown : ∀ t ∈ tokens, t.isKnown = true)
    (h : tokens.flatMap Token.words = value :: rest) : (stoi value).toOption = none := by
  cases tokens with
  | nil => cases h
  | cons token tokens =>
    have htoken := hwf token List.mem_cons_self
    rw [List.flatMap_cons] at h
    cases token with
    | flag name =>
      obtain ⟨rfl, -⟩ := List.cons.inj h
      rcases eq_of_wellFormed_flag htoken with rfl | rfl | rfl <;> decide
    | valued name value =>
      obtain ⟨rfl, -⟩ := List.cons.inj h
      rcases eq_of_wellFormed_valued htoken with rfl | rfl | rfl <;> decide
    | unknown arg => exact Bool.noConfusion (hknown _ List.mem_cons_self)

theorem portLoop_cons (arg : Bytes) (args : List Bytes) (port : Int32) :
    portLoop (arg :: args) port = portLoop args
      (if arg = lit "--port" ∨ arg = lit "-p" then
        (args.head?.bind fun value => (stoi value).toOption).getD port
      else port) := by
  rw [portLoop.eq_def]
  cases args <;> rfl

/-- The loop at a value: when it has the name of a port option, the word behind it is not a
number. -/
theorem portLoop_cons_words (hwf : ∀ t ∈ tokens, t.WellFormed allArguments)
    (hknown : ∀ t ∈ tokens, t.isKnown = true) (arg : Bytes) (port : Int32) :
    portLoop (arg :: tokens.flatMap Token.words) port =
      portLoop (tokens.flatMap Token.words) port := by
  have hnone : ((tokens.flatMap Token.words).head?.bind fun value => (stoi value).toOption) =
      none := by
    cases hwords : tokens.flatMap Token.words with
    | nil => rfl
    | cons value rest => exact toOption_stoi_head hwf hknown hwords
  rw [portLoop_cons, hnone, Option.getD_none, ite_self]

/-- What one part of the command line adds to the numbers. -/
theorem portNumbers_cons (token : Token) (tokens : List Token) :
    portNumbers (token :: tokens) =
      ((portValue token).bind fun value => (stoi value).toOption).toList ++ portNumbers tokens := by
  unfold portNumbers
  cases hvalue : portValue token with
  | none => simp [hvalue]
  | some value => cases hnumber : (stoi value).toOption <;> simp [hvalue, hnumber]

/-- The loop finds the values of the port options and nothing else. -/
theorem portLoop_words (hwf : ∀ t ∈ tokens, t.WellFormed allArguments)
    (hknown : ∀ t ∈ tokens, t.isKnown = true) (port : Int32) :
    portLoop (tokens.flatMap Token.words) port = (portNumbers tokens).getLast?.getD port := by
  induction tokens generalizing port with
  | nil => rfl
  | cons token tokens ih =>
    have hwf' : ∀ t ∈ tokens, t.WellFormed allArguments :=
      fun t ht => hwf t (List.mem_cons_of_mem _ ht)
    have hknown' : ∀ t ∈ tokens, t.isKnown = true :=
      fun t ht => hknown t (List.mem_cons_of_mem _ ht)
    have htoken := hwf token List.mem_cons_self
    rw [List.flatMap_cons]
    cases token with
    | flag name =>
      have hname : ¬ (name = lit "--port" ∨ name = lit "-p") := by
        rcases eq_of_wellFormed_flag htoken with rfl | rfl | rfl <;> decide
      show portLoop (name :: tokens.flatMap Token.words) port = _
      rw [portLoop_cons, if_neg hname, ih hwf' hknown', portNumbers_cons]
      rfl
    | valued name value =>
      -- the value counts behind a port option, and is then passed over as a word of its own
      show portLoop (name :: value :: tokens.flatMap Token.words) port = _
      rw [portLoop_cons, portLoop_cons_words hwf' hknown', ih hwf' hknown', List.head?_cons,
        Option.bind_some, portNumbers_cons, portValue]
      split_ifs with hname
      · rw [Option.bind_some]
        cases (stoi value).toOption with
        | none => rfl
        | some number =>
          -- the number is the last one when no other follows
          simp [List.getLast?_cons]
      · rfl
    | unknown arg => exact Bool.noConfusion (hknown _ List.mem_cons_self)

/-! ## The loops and the options -/

/-- When `Shell::run` returns 0 in a new process, the loops of `main` agree with the structure of
the command line exactly when `--help` and `--debug` stand in the place of a value only beside the
option. -/
theorem optionsAgree_iff {host : Host} {stray : Stray} {dir : Directory} {chance : Chance}
    {w : Construction.World}
    (hrun : (runArgs host stray dir chance [] false argv w).map Outcome.status = some 0) :
    ∃ tokens, Parses allArguments argv tokens ∧
      (OptionsAgree argv tokens ↔
        BesideOption tokens (lit "--help") ∧ BesideOption tokens (lit "--debug")) := by
  obtain ⟨tokens, hparses⟩ := parses_of_runArgs hrun
  have hhelp := any_iff_flag_mem hparses (lit "--help") fun value h => by
    rcases eq_of_wellFormed_valued h with h | h | h <;> exact absurd h (by decide)
  have hdebug := any_iff_flag_mem hparses (lit "--debug") fun value h => by
    rcases eq_of_wellFormed_valued h with h | h | h <;> exact absurd h (by decide)
  refine ⟨tokens, hparses, ?_, ?_⟩
  · exact fun h => ⟨hhelp.mp (exit_startup_iff.symm.trans h.help), hdebug.mp h.debug⟩
  · rintro ⟨hhelp', hdebug'⟩
    refine ⟨exit_startup_iff.trans (hhelp.mpr hhelp'), hdebug.mpr hdebug', ?_⟩
    rw [port, hparses.words_eq]
    exact portLoop_words hparses.wellFormed hparses.isKnown 2409

/-- `Akkon --debug -p 8080`. -/
def debugPort : List Bytes := [lit "Akkon", lit "--debug", lit "-p", lit "8080"]

theorem optionsAgree_iff_debugPort :
    (runArgs plainHost (fun _ _ v => v) emptyDir zeros [] false debugPort emptyWorld).map
        Outcome.status = some 0 ∧
      ∃ tokens, Parses allArguments debugPort tokens ∧
        (OptionsAgree debugPort tokens ↔
          BesideOption tokens (lit "--help") ∧ BesideOption tokens (lit "--debug")) :=
  ⟨rfl, @optionsAgree_iff debugPort plainHost (fun _ _ v => v) emptyDir zeros emptyWorld rfl⟩

example : startup true 0 debugPort = .serve true 8080 := by decide

/-- `Akkon --port --help`. -/
def portHelp : List Bytes := [lit "Akkon", lit "--port", lit "--help"]

/-- The value of `--port` is taken for the option: `Shell::run` sets the databases up and returns 0,
and `main` leaves. -/
theorem not_optionsAgree_portHelp :
    (runArgs plainHost (fun _ _ v => v) emptyDir zeros [] false portHelp emptyWorld).map
        Outcome.status = some 0 ∧
      Parses allArguments portHelp [.valued (lit "--port") (lit "--help")] ∧
      ¬ OptionsAgree portHelp [.valued (lit "--port") (lit "--help")] := by
  refine ⟨rfl, ⟨?_, by decide, rfl⟩, fun hagrees => ?_⟩
  · intro t ht
    rw [List.mem_singleton.mp ht]
    exact ⟨⟨lit "--port", true⟩, by decide, rfl⟩
  · have hleaves : ∃ rc, startup true 0 portHelp = .exit rc := ⟨0, by decide⟩
    exact absurd (hagrees.help.mp hleaves) (by decide)

end Main
