import Akkon.Shell.CommandLine

/-!
# `shell::ArgumentParser`

A second parser of the command line, with its words built in. `Shell::run` goes by the registry, and
knows more words.

* `ArgumentParser.parse`: the parser of `ArgumentParser.cpp`;
* `Token.Plain`: the parts of a command line that both of them know;
* `loop_eq_iff`: the command lines that are accepted, by their structure;
* `next_of_help`: where the parser asks for help, `Shell::run` does not come to the databases;
* `parse_iff_goesOn`: what the parser accepts, `Shell::run` understands in the same way.
-/

namespace Shell

open Cpp

/-- `ShellOptions`. -/
structure ShellOptions where
  count : Int32 := 1
  noImport : Bool := false
  help : Bool := false
  deriving DecidableEq, Repr

namespace ArgumentParser

/-- What `parse` returns, and what it leaves in `options` and in `error`. -/
structure Outcome where
  ok : Bool
  options : ShellOptions
  error : Bytes
  deriving DecidableEq, Repr

/-- The loop of `parse` over the arguments from the current one on, and the check behind it. -/
def loop (error : Bytes) : List Bytes → ShellOptions → Outcome
  | [], options =>
    if options.count ≤ 0 then ⟨false, options, lit "Number of databases must be positive"⟩
    else ⟨true, options, error⟩
  | arg :: args, options =>
    -- the rest of the command line is not looked at
    if arg = lit "-h" ∨ arg = lit "--help" then ⟨true, { options with help := true }, error⟩
    else if arg = lit "--no-import" then loop error args { options with noImport := true }
    else if arg = lit "-c" then
      match args with
      | [] => ⟨false, options, lit "Missing value for -c"⟩
      | value :: args =>
        match stoi value with
        | .error _ => ⟨false, options, lit "Invalid numeric value for -c"⟩
        | .ok n => loop error args { options with count := n }
    else ⟨false, options, lit "Unknown argument: " ++ arg⟩

/-- `parse`, called with a text in `error`. -/
def parse (argv : List Bytes) (error : Bytes) : Outcome := loop error argv.tail {}

end ArgumentParser

/-! ## What both parsers know -/

/-- `--no-import`, or `-c` with its value. -/
def Token.Plain : Token → Prop
  | flag name => name = lit "--no-import"
  | valued name _ => name = lit "-c"
  | unknown _ => False

namespace Token.Plain

variable {token : Token} {tokens : List Token} {st st' : Walk}

theorem wellFormed (h : token.Plain) : token.WellFormed allArguments := by
  cases token with
  | flag name =>
    obtain rfl := h
    exact ⟨⟨lit "--no-import", false⟩, by decide, rfl⟩
  | valued name value =>
    obtain rfl := h
    exact ⟨⟨lit "-c", true⟩, by decide, rfl⟩
  | unknown arg => exact h.elim

theorem isKnown (h : token.Plain) : token.isKnown = true := by
  cases token with
  | unknown arg => exact h.elim
  | _ => rfl

/-- The walk asks for nothing but a number and the import. -/
theorem walkStep_eq (h : token.Plain) (hstep : token.walkStep st = .ok st') :
    st'.showHelp = st.showHelp ∧ st'.m_debug = st.m_debug := by
  cases token with
  | flag name =>
    obtain rfl := h
    obtain rfl := Except.ok.inj hstep
    exact ⟨rfl, rfl⟩
  | valued name value =>
    obtain rfl := h
    rw [Token.walkStep, if_pos rfl] at hstep
    cases hvalue : stoi value with
    | error e => simp [hvalue] at hstep
    | ok n =>
      rw [hvalue] at hstep
      obtain rfl := Except.ok.inj hstep
      exact ⟨rfl, rfl⟩
  | unknown arg => exact h.elim

theorem foldlM_eq (h : ∀ t ∈ tokens, t.Plain) (hwalk : tokens.foldlM Token.walkStep st = .ok st') :
    st'.showHelp = st.showHelp ∧ st'.m_debug = st.m_debug := by
  induction tokens generalizing st with
  | nil =>
    obtain rfl := Except.ok.inj hwalk
    exact ⟨rfl, rfl⟩
  | cons token tokens ih =>
    obtain ⟨htoken, htokens⟩ := List.forall_mem_cons.mp h
    rw [List.foldlM_cons] at hwalk
    cases hstep : token.walkStep st with
    | error e => rw [hstep] at hwalk; cases hwalk
    | ok next =>
      rw [hstep] at hwalk
      have hfirst := htoken.walkStep_eq hstep
      have hrest := ih htokens hwalk
      exact ⟨hrest.1.trans hfirst.1, hrest.2.trans hfirst.2⟩

end Token.Plain

/-! ## The accepted command lines -/

namespace ArgumentParser

variable {error : Bytes} {args : List Bytes} {options : ShellOptions} {n : Int32} {b : Bool}

theorem loop_noImport (args : List Bytes) (options : ShellOptions) :
    loop error (lit "--no-import" :: args) options =
      loop error args { options with noImport := true } := by
  rw [loop.eq_def]
  rfl

theorem loop_count (value : Bytes) (args : List Bytes) (options : ShellOptions) :
    loop error (lit "-c" :: value :: args) options =
      match stoi value with
      | .error _ => ⟨false, options, lit "Invalid numeric value for -c"⟩
      | .ok n => loop error args { options with count := n } := by
  rw [loop.eq_def]
  rfl

/-- The walk over the words of the parts, with the options of the parser. -/
abbrev walkOptions (tokens : List Token) (options : ShellOptions) : Except Walk Walk :=
  tokens.foldlM Token.walkStep ⟨options.count, options.noImport, false, false⟩

/-- The parser goes through a structure as the walk does. -/
theorem loop_words {tokens : List Token} (hplain : ∀ t ∈ tokens, t.Plain)
    (hhelp : options.help = false) (hwalk : walkOptions tokens options = .ok ⟨n, b, false, false⟩)
    (args : List Bytes) :
    loop error (tokens.flatMap Token.words ++ args) options = loop error args ⟨n, b, false⟩ := by
  induction tokens generalizing options with
  | nil =>
    obtain ⟨count, noImport, help⟩ := options
    obtain rfl : help = false := hhelp
    cases hwalk
    rfl
  | cons token tokens ih =>
    obtain ⟨htoken, htokens⟩ := List.forall_mem_cons.mp hplain
    rw [List.flatMap_cons, List.append_assoc]
    rw [walkOptions, List.foldlM_cons] at hwalk
    cases token with
    | flag name =>
      obtain rfl := htoken
      exact (loop_noImport _ _).trans (ih htokens hhelp hwalk)
    | valued name value =>
      obtain rfl := htoken
      refine (loop_count value _ _).trans ?_
      rw [Token.walkStep, if_pos rfl] at hwalk
      cases hvalue : stoi value with
      | error e => rw [hvalue] at hwalk; cases hwalk
      | ok m =>
        rw [hvalue] at hwalk
        exact ih htokens hhelp hwalk
    | unknown arg => exact htoken.elim

/-- What is behind the parts that both parsers know: nothing, or a word for help. -/
def Ends (rest : List Bytes) (n : Int32) : Prop :=
  (rest = [] ∧ 0 < n) ∨ ∃ name args, rest = name :: args ∧ (name = lit "-h" ∨ name = lit "--help")

/-- The structure of a command line that is accepted. -/
structure Accepted (args : List Bytes) (options : ShellOptions) (tokens : List Token)
    (rest : List Bytes) (n : Int32) (b : Bool) : Prop where
  plain : ∀ t ∈ tokens, t.Plain
  args_eq : args = tokens.flatMap Token.words ++ rest
  walk_eq : walkOptions tokens options = .ok ⟨n, b, false, false⟩
  ends : Ends rest n

theorem Accepted.nil (h : Ends args options.count) :
    Accepted args options [] args options.count options.noImport :=
  ⟨List.forall_mem_nil _, rfl, rfl, h⟩

/-- One part in front. -/
theorem Accepted.cons {options' : ShellOptions} {tokens : List Token} {rest : List Bytes}
    {token : Token} (h : Accepted args options' tokens rest n b) (htoken : token.Plain)
    (hstep : token.walkStep ⟨options.count, options.noImport, false, false⟩ =
      .ok ⟨options'.count, options'.noImport, false, false⟩) :
    Accepted (token.words ++ args) options (token :: tokens) rest n b := by
  refine ⟨List.forall_mem_cons.mpr ⟨htoken, h.plain⟩, ?_, ?_, h.ends⟩
  · rw [h.args_eq, List.flatMap_cons, List.append_assoc]
  · rw [walkOptions, List.foldlM_cons, hstep]
    exact h.walk_eq

theorem exists_accepted_of_loop (hok : (loop error args options).ok = true) :
    ∃ tokens rest n b, Accepted args options tokens rest n b := by
  -- the recursion of the loop
  induction args, options using loop.induct with
  | case1 options hcount =>
    rw [loop, if_pos hcount] at hok
    cases hok
  | case2 options hcount =>
    exact ⟨[], [], options.count, options.noImport, .nil (.inl ⟨rfl, Int32.not_le.mp hcount⟩)⟩
  | case3 arg args options hname =>
    exact ⟨[], arg :: args, options.count, options.noImport, .nil (.inr ⟨arg, args, rfl, hname⟩)⟩
  | case4 args options _ ih =>
    rw [loop_noImport] at hok
    obtain ⟨tokens, rest, n, b, h⟩ := ih hok
    have hplain : Token.Plain (.flag (lit "--no-import")) := rfl
    exact ⟨_, rest, n, b, h.cons hplain rfl⟩
  | case5 options _ _ => cases hok
  | case6 options value args e hvalue _ _ =>
    rw [loop_count, hvalue] at hok
    cases hok
  | case7 options value args m hvalue _ _ ih =>
    rw [loop_count, hvalue] at hok
    obtain ⟨tokens, rest, n, b, h⟩ := ih hok
    have hstep : Token.walkStep ⟨options.count, options.noImport, false, false⟩
        (.valued (lit "-c") value) = .ok ⟨m, options.noImport, false, false⟩ := by
      rw [Token.walkStep, if_pos rfl, hvalue]
    have hplain : Token.Plain (.valued (lit "-c") value) := rfl
    exact ⟨_, rest, n, b, h.cons hplain hstep⟩
  | case8 arg args options hname himport hcount =>
    rw [loop.eq_def] at hok
    simp only [if_neg hname, if_neg himport, if_neg hcount] at hok
    cases hok

/-- What the loop makes of an accepted command line. -/
theorem Accepted.loop_eq {tokens : List Token} {rest : List Bytes}
    (h : Accepted args options tokens rest n b) (hhelp : options.help = false) :
    loop error args options = ⟨true, ⟨n, b, !rest.isEmpty⟩, error⟩ := by
  rw [h.args_eq, loop_words h.plain hhelp h.walk_eq]
  rcases h.ends with ⟨rfl, hpos⟩ | ⟨name, args, rfl, hname⟩
  · exact if_neg (Int32.not_le.mpr hpos)
  · rw [loop.eq_def]
    exact if_pos hname

/-! ## The two parsers -/

/-- A walk that has come by `--help` does not forget it. -/
theorem showHelp_of_walk {st st' : Walk} (hwalk : walk args st = .ok st')
    (hhelp : st.showHelp = true) : st'.showHelp = true := by
  fun_induction walk args st with
  | case1 | case3 | case8 =>
    -- it ends here
    rw [← Except.ok.inj hwalk]
    exact hhelp
  | case2 st args ih => exact ih hwalk rfl
  | case4 => cases hwalk
  | case5 | case6 | case7 | case9 | case10 => rename_i ih; exact ih hwalk hhelp

theorem walk_append {tokens : List Token} (hplain : ∀ t ∈ tokens, t.Plain) (args : List Bytes)
    (st : Walk) :
    walk (tokens.flatMap Token.words ++ args) st =
      tokens.foldlM Token.walkStep st >>= walk args := by
  induction tokens generalizing st with
  | nil => rfl
  | cons token tokens ih =>
    obtain ⟨htoken, htokens⟩ := List.forall_mem_cons.mp hplain
    have ih := ih htokens
    have hwf := htoken.wellFormed
    rw [List.flatMap_cons, List.foldlM_cons, List.append_assoc, bind_assoc]
    cases token with
    | flag name =>
      show walk (name :: (tokens.flatMap Token.words ++ args)) st = _
      rw [walk_flag hwf, funext ih]
    | valued name value =>
      show walk (name :: value :: (tokens.flatMap Token.words ++ args)) st = _
      rw [walk_valued hwf, funext ih]
    | unknown arg => exact htoken.elim

/-- `Shell::run` with a command line that the registry does not accept, or with one that it does. -/
theorem next_prologue_eq (argv : List Bytes) : (prologue [] false argv).next =
    if (Shell.parse allArguments argv false).success then
      match walk argv.tail { m_debug := false } with
      | .error _ => .error 1
      | .ok st => if st.showHelp then .error 0 else .ok st.options
    else .error 1 := by
  rw [prologue, registerAllArguments_nil]
  show (if (Shell.parse allArguments argv false).success then _ else _ : Prologue).next = _
  split_ifs with hsuccess
  · obtain ⟨tokens, hparses⟩ := parse_success_iff.mp hsuccess
    have hargs : (Shell.parse allArguments argv false).parsed_args = argv.tail := by
      rw [parse_of_forall_isKnown hparses.wellFormed hparses.isKnown hparses.words_eq,
        hparses.words_eq]
    show (match walk (Shell.parse allArguments argv false).parsed_args { m_debug := false } with
      | .error st => _
      | .ok st => if st.showHelp then _ else _ : Prologue).next = _
    rw [hargs]
    cases walk argv.tail { m_debug := false } with
    | error st => rfl
    | ok st =>
      show (if st.showHelp then _ else _ : Prologue).next = if st.showHelp then _ else _
      split_ifs <;> rfl
  · rfl

/-- Where the parser asks for help, `Shell::run` does not come to the databases. -/
theorem next_of_help {argv : List Bytes} {tokens : List Token} {name : Bytes}
    (hplain : ∀ t ∈ tokens, t.Plain)
    (hargv : argv.tail = tokens.flatMap Token.words ++ name :: args)
    (hname : name = lit "-h" ∨ name = lit "--help") :
    ∃ status, (prologue [] false argv).next = .error status := by
  have hwf (t : Token) (ht : t ∈ tokens) := (hplain t ht).wellFormed
  have hknown (t : Token) (ht : t ∈ tokens) := (hplain t ht).isKnown
  rw [next_prologue_eq]
  rcases hname with rfl | rfl
  · -- the registry does not know `-h`
    have hwords : (args.map Token.unknown).flatMap Token.words = args := by
      rw [List.flatMap_map]
      exact List.flatMap_singleton' args
    have hsplit : argv.tail =
        (tokens ++ .unknown (lit "-h") :: args.map Token.unknown).flatMap Token.words := by
      rw [List.flatMap_append, List.flatMap_cons, hwords, hargv]
      rfl
    rw [parse_of_unknown hwf hknown (by decide) hsplit]
    exact ⟨1, rfl⟩
  · rw [hargv, walk_append hplain]
    split_ifs
    · cases tokens.foldlM Token.walkStep { m_debug := false } with
      | error st => exact ⟨1, rfl⟩
      | ok st =>
        show ∃ status, (match walk (lit "--help" :: args) st with
          | .error _ => .error 1
          | .ok st => if st.showHelp then .error 0 else .ok st.options : Except ℤ Options) =
            .error status
        cases hwalk : walk (lit "--help" :: args) st with
        | error st' => exact ⟨1, rfl⟩
        | ok st' =>
          have hhelp : st'.showHelp = true := by
            rw [walk.eq_def] at hwalk
            exact showHelp_of_walk hwalk rfl
          exact ⟨0, if_pos hhelp⟩
    · exact ⟨1, rfl⟩

/-- There are only parts that both parsers know. -/
def PlainLine (argv : List Bytes) : Prop :=
  ∃ tokens : List Token, (∀ t ∈ tokens, t.Plain) ∧ argv.tail = tokens.flatMap Token.words

/-- `Shell::run` goes on to the databases with these options. -/
def GoesOn (argv : List Bytes) (n : Int32) (b : Bool) : Prop :=
  ∃ opts, (prologue [] false argv).next = .ok opts ∧ opts.numDatabases = n.toInt ∧ opts.noImport = b

/-- `Shell::run` with a command line of such parts. -/
theorem goesOn_iff {argv : List Bytes} {tokens : List Token} (hplain : ∀ t ∈ tokens, t.Plain)
    (hargv : argv.tail = tokens.flatMap Token.words) :
    GoesOn argv n b ↔ walkOptions tokens {} = .ok ⟨n, b, false, false⟩ := by
  have hwf (t : Token) (ht : t ∈ tokens) := (hplain t ht).wellFormed
  have hknown (t : Token) (ht : t ∈ tokens) := (hplain t ht).isKnown
  have hsuccess : (Shell.parse allArguments argv false).success = true :=
    parse_success_iff.mpr ⟨tokens, hwf, hknown, hargv⟩
  rw [GoesOn, next_prologue_eq, if_pos hsuccess, hargv, walk_words hwf hknown]
  show _ ↔ tokens.foldlM Token.walkStep { m_debug := false } = _
  cases hwalk : tokens.foldlM Token.walkStep { m_debug := false } with
  | error st =>
    refine iff_of_false ?_ fun heq => nomatch heq
    rintro ⟨opts, hnext, _⟩
    cases hnext
  | ok st =>
    obtain ⟨numDatabases, noImport, showHelp, m_debug⟩ := st
    obtain ⟨rfl, rfl⟩ := Token.Plain.foldlM_eq hplain hwalk
    constructor
    · rintro ⟨opts, hnext, hn, rfl⟩
      obtain rfl := Except.ok.inj hnext
      obtain rfl := Int32.toInt_inj.mp hn
      rfl
    · intro heq
      cases heq
      exact ⟨_, rfl, rfl, rfl⟩

/-- What the parser accepts, `Shell::run` understands in the same way. The parser accepts a command
line without asking for help exactly where there are only parts that both of them know, the number
is positive, and `Shell::run` goes on with the same options. Where it asks for help, `Shell::run`
does not come to the databases. -/
theorem parse_iff_goesOn (argv : List Bytes) (error : Bytes) :
    (∀ n b, parse argv error = ⟨true, ⟨n, b, false⟩, error⟩ ↔
      0 < n ∧ PlainLine argv ∧ GoesOn argv n b) ∧
    ((parse argv error).ok = true → (parse argv error).options.help = true →
      ∃ status, (prologue [] false argv).next = .error status) := by
  constructor
  · intro n b
    constructor
    · intro hparse
      obtain ⟨tokens, rest, m, c, h⟩ := exists_accepted_of_loop (congrArg Outcome.ok hparse)
      have heq := (h.loop_eq rfl).symm.trans hparse
      rw [Outcome.mk.injEq, ShellOptions.mk.injEq] at heq
      obtain ⟨_, ⟨rfl, rfl, hrest⟩, _⟩ := heq
      rw [Bool.not_eq_false', List.isEmpty_iff] at hrest
      subst hrest
      have hargv : argv.tail = tokens.flatMap Token.words := by
        rw [h.args_eq, List.append_nil]
      refine ⟨?_, ⟨tokens, h.plain, hargv⟩, (goesOn_iff h.plain hargv).mpr h.walk_eq⟩
      rcases h.ends with ⟨_, hpos⟩ | ⟨name, args, hnil, _⟩
      · exact hpos
      · cases hnil
    · rintro ⟨hpos, ⟨tokens, hplain, hargv⟩, hgoes⟩
      have haccepted : Accepted argv.tail {} tokens [] n b :=
        ⟨hplain, by rw [List.append_nil, hargv], (goesOn_iff hplain hargv).mp hgoes,
          .inl ⟨rfl, hpos⟩⟩
      exact haccepted.loop_eq rfl
  · intro hok hhelp
    obtain ⟨tokens, rest, m, c, h⟩ := exists_accepted_of_loop hok
    rw [parse, h.loop_eq rfl] at hhelp
    rcases h.ends with ⟨rfl, _⟩ | ⟨name, args, rfl, hname⟩
    · cases hhelp
    · exact next_of_help h.plain h.args_eq hname

end ArgumentParser

end Shell
