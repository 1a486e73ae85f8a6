import Stencil.Arguments.Invocation
import Stencil.Proofs.Arguments.Switches

/-!
# Exclusion — being verbose and being quiet, on either side of the subcommand

The two flags for the level of events may stand in front of the subcommand and behind it. On one
side they exclude each other; across the subcommand nothing keeps them apart (`read_flags`): what
is asked for is whatever was given on either side, and a flag in front of the subcommand is taken
whatever stands behind it. Being verbose wins then.

The route: leading arguments are read up to the first name of a subcommand, so a command line has
one reading as a `CommandLine`. `readLeading_ok` says what its leading arguments leave behind and
`read_ok_iff` what the rest makes of it.
-/

namespace Stencil.Arguments

-- ── Command lines ───────────────────────────────────────────────────────────

/-- A command line with a subcommand: the arguments in front of it, its name, and its own
    arguments. -/
structure CommandLine where
  leading : List String
  word : String
  level : List String
  subcommand : Subcommand
  named : Subcommand.ofName? word = some subcommand
  unnamed : ∀ argument ∈ leading, Subcommand.ofName? argument = none

namespace CommandLine

/-- All arguments, in order. -/
def arguments (line : CommandLine) : List String :=
  line.leading ++ line.word :: line.level

/-- The switches that are given in front of the subcommand. -/
def leadingGiven (line : CommandLine) : List Switch :=
  switchesIn leadingSwitches line.leading

/-- The switches that are given behind the subcommand. -/
def levelGiven (line : CommandLine) : List Switch :=
  switchesIn line.subcommand.switches line.level

/-- What stands in front of the first name of a subcommand is leading. -/
theorem takeWhile_arguments (line : CommandLine) :
    line.arguments.takeWhile (fun argument => (Subcommand.ofName? argument).isNone)
      = line.leading := by
  have hall : ∀ argument ∈ line.leading, (Subcommand.ofName? argument).isNone = true :=
    fun argument hargument => Option.isNone_iff_eq_none.mpr (line.unnamed argument hargument)
  rw [arguments, List.takeWhile_append_of_pos hall, List.takeWhile_cons, line.named]
  exact List.append_nil _

/-- **One reading**: arguments are a command line in one way only. -/
theorem eq_of_arguments_eq {line other : CommandLine} (h : line.arguments = other.arguments) :
    line = other := by
  have hleading : line.leading = other.leading := by
    rw [← takeWhile_arguments, h, takeWhile_arguments]
  obtain ⟨leading, word, level, subcommand, named, unnamed⟩ := line
  obtain ⟨leading', word', level', subcommand', named', unnamed'⟩ := other
  obtain rfl : leading = leading' := hleading
  obtain ⟨rfl, rfl⟩ : word = word' ∧ level = level' := List.cons.inj (List.append_cancel_left h)
  obtain rfl : subcommand = subcommand' := Option.some.inj (named.symm.trans named')
  rfl

end CommandLine

-- ── Leading arguments ───────────────────────────────────────────────────────

namespace Given

variable {g g' : Given}

/-- Where no switch takes a value, nothing is due behind one. -/
theorem due_long {accepted : List Switch} (hflags : ∀ switch ∈ accepted, switch.takesValue = false)
    {name : String} {value : Option String} (h : g.long accepted name value = .ok g') :
    g'.due = none := by
  unfold long at h
  split at h
  · cases h
  · next switch hfind =>
      rw [hflags switch (List.mem_of_find?_eq_some hfind), if_neg Bool.false_ne_true] at h
      split at h
      · cases h
      · exact (react_adds h).2

theorem due_letters {accepted : List Switch}
    (hflags : ∀ switch ∈ accepted, switch.takesValue = false) {letters : List Char}
    (hdue : g.due = none) (h : g.letters accepted letters = .ok g') : g'.due = none := by
  induction letters generalizing g with
  | nil =>
      obtain rfl := Except.ok.inj h
      exact hdue
  | cons c rest ih =>
      rw [Given.letters] at h
      split at h
      · cases h
      · next switch hfind =>
          rw [hflags switch (List.mem_of_find?_eq_some hfind), if_neg Bool.false_ne_true] at h
          obtain ⟨reacted, hreacted, hrest⟩ := Journaled.bind_eq_ok_iff.mp h
          exact ih (react_adds hreacted).2 hrest

end Given

/-- No switch in front of the subcommand takes a value. -/
theorem takesValue_of_mem_leadingSwitches : ∀ switch ∈ leadingSwitches,
    switch.takesValue = false := by
  decide

/-- Switches have been read, nothing is due, and more switches may follow. -/
structure Settled (g : Given) (found : List Switch) : Prop where
  switches : g.switches.map Prod.fst = found
  due : g.due = none
  wordsOnly : g.wordsOnly = false

/-- What was asked for is what was found. -/
theorem Settled.has_iff {g : Given} {found : List Switch} (h : Settled g found)
    {switch : Switch} : g.has switch = true ↔ switch ∈ found := by
  rw [Given.has_iff, h.switches]

theorem Settled.has_eq_false {g : Given} {found : List Switch} (h : Settled g found)
    {switch : Switch} (hnew : switch ∉ found) : g.has switch = false := by
  rw [← Bool.not_eq_true, h.has_iff]
  exact hnew

/-- A leading argument that is no word and not two dashes leaves nothing due. -/
theorem Settled.argument {g next : Given} {found : List Switch} {text : String}
    (h : Settled g found) (hword : ∀ word, shapeOf text ≠ .word word) (hdashes : text ≠ "--")
    (hread : g.argument leadingSwitches text = .ok next) :
    Settled next (found ++ switchesOf leadingSwitches text) := by
  obtain ⟨hseen, hwords⟩ := Given.argument_adds h.wordsOnly hdashes hread
  have hdue : next.due = none := by
    rw [Given.argument, h.wordsOnly, if_neg Bool.false_ne_true] at hread
    split at hread
    · next hshape => exact absurd (shapeOf_eq_escape_iff.mp hshape) hdashes
    · exact Given.due_long takesValue_of_mem_leadingSwitches hread
    · exact Given.due_letters takesValue_of_mem_leadingSwitches h.due hread
    · next word hshape => exact absurd hshape (hword word)
  refine ⟨?_, hdue, hwords.trans h.wordsOnly⟩
  rw [← Given.seen_of_due_eq_none hdue, hseen, Given.seen_of_due_eq_none h.due, h.switches]

section Leading

variable {g g' next : Given} {argument : String} {arguments level : List String}
  {subcommand : Subcommand}

/-- The first name of a subcommand ends the leading arguments. -/
theorem readLeading_named (hwords : g.wordsOnly = false)
    (hnamed : Subcommand.ofName? argument = some subcommand) (rest : List String) :
    readLeading g (argument :: rest) = .ok (g, .subcommand subcommand rest) := by
  rw [readLeading, hwords, hnamed]
  rfl

/-- A leading switch is read, and the rest from there. -/
theorem readLeading_switch (hwords : g.wordsOnly = false)
    (hunnamed : Subcommand.ofName? argument = none) (hhelp : (argument == helpWord) = false)
    (hword : ∀ word, shapeOf argument ≠ .word word)
    (hnext : g.argument leadingSwitches argument = .ok next) (rest : List String) :
    readLeading g (argument :: rest) = readLeading next rest := by
  rw [readLeading, hwords, hunnamed, hhelp, hnext]
  simp only [Bool.false_eq_true, if_false]

/-- Behind two dashes no subcommand follows. -/
theorem wordsOnly_of_readLeading
    (h : readLeading g arguments = .ok (g', .subcommand subcommand level)) :
    g.wordsOnly = false := by
  cases hwords : g.wordsOnly with
  | false => rfl
  | true =>
      cases arguments with
      | nil => cases h
      | cons argument arguments =>
          rw [readLeading, hwords, if_pos rfl] at h
          split at h <;> cases h

/-- **One leading argument** on the way to a subcommand: its name, or a switch in front of it. -/
theorem readLeading_cons_cases (hwords : g.wordsOnly = false)
    (h : readLeading g (argument :: arguments) = .ok (g', .subcommand subcommand level)) :
    (Subcommand.ofName? argument = some subcommand ∧ g = g' ∧ arguments = level) ∨
      (Subcommand.ofName? argument = none ∧ (argument == helpWord) = false ∧
        (∀ word, shapeOf argument ≠ .word word) ∧
        ∃ next, g.argument leadingSwitches argument = .ok next) := by
  rw [readLeading, hwords, if_neg Bool.false_ne_true] at h
  split at h
  · next known hnamed =>
      obtain ⟨hsame, hcontinuation⟩ := Prod.mk.inj (Except.ok.inj h)
      obtain ⟨rfl, hlevel⟩ := Continuation.subcommand.inj hcontinuation
      exact .inl ⟨hnamed, hsame, hlevel⟩
  · next hunnamed =>
      split at h
      · cases h
      · next hhelp =>
          split at h
          · cases h
          · next hword =>
              split at h
              · cases h
              · next next hnext =>
                  exact .inr ⟨hunnamed, Bool.eq_false_iff.mpr hhelp, hword, next, hnext⟩

/-- **Leading arguments** are read up to the first name of a subcommand. They leave behind the
    switches that they give, and whatever follows them is read from there. -/
theorem readLeading_ok {found : List Switch} (hsettled : Settled g found)
    (h : readLeading g arguments = .ok (g', .subcommand subcommand level)) :
    ∃ line : CommandLine, line.arguments = arguments ∧ line.subcommand = subcommand ∧
      line.level = level ∧ Settled g' (found ++ line.leadingGiven) ∧
      ∀ rest, readLeading g (line.leading ++ rest) = readLeading g' rest := by
  induction arguments generalizing g found with
  | nil => cases h
  | cons argument arguments ih =>
      rcases readLeading_cons_cases hsettled.wordsOnly h with
        ⟨hnamed, rfl, rfl⟩ | ⟨hunnamed, hhelp, hword, next, hnext⟩
      · refine ⟨⟨[], argument, arguments, subcommand, hnamed, List.forall_mem_nil _⟩, rfl, rfl,
          rfl, ?_, fun rest => rfl⟩
        rw [CommandLine.leadingGiven, switchesIn_nil, List.append_nil]
        exact hsettled
      · have hon := readLeading_switch hsettled.wordsOnly hunnamed hhelp hword hnext
        rw [hon] at h
        have hdashes : argument ≠ "--" := by
          rintro rfl
          rw [Given.argument, hsettled.wordsOnly] at hnext
          obtain rfl := Except.ok.inj hnext
          cases wordsOnly_of_readLeading h
        obtain ⟨line, harguments, hsubcommand, hlevel, hafter, hrest⟩ :=
          ih (hsettled.argument hword hdashes hnext) h
        refine ⟨⟨argument :: line.leading, line.word, line.level, line.subcommand, line.named,
          List.forall_mem_cons.mpr ⟨hunnamed, line.unnamed⟩⟩,
          congrArg (argument :: ·) harguments, hsubcommand, hlevel, ?_, ?_⟩
        · rw [List.append_assoc] at hafter
          rw [CommandLine.leadingGiven, switchesIn_cons_of_ne hdashes]
          exact hafter
        · intro rest
          rw [← hrest]
          exact hon (line.leading ++ rest)

end Leading

-- ── Both sides ──────────────────────────────────────────────────────────────

/-- The invocation that the two sides of a command line ask for. -/
def invocationOf (environment : Option String) (leading : Given) (subcommand : Subcommand)
    (level : Given) (input : String) : Invocation where
  action := actionOf subcommand level input
  setup :=
    { settingsFile := level.value? .settings
      keywordsFile := level.value? .keywords
      inlineKeywords := (level.value? .inlineKeywords).or environment }
  verbose := leading.has .verbose || level.has .verbose
  quiet := leading.has .quiet || level.has .quiet

section Read

variable {environment : Option String} {arguments level : List String} {subcommand : Subcommand}
  {leading : Given} {invocation : Invocation}

/-- Nothing is accepted without a subcommand. -/
theorem exists_readLeading_of_read (h : read environment arguments = .ok invocation) :
    ∃ leading subcommand level,
      readLeading {} arguments = .ok (leading, .subcommand subcommand level) := by
  unfold read at h
  obtain ⟨⟨leading, continuation⟩, hleading, hrest⟩ := Journaled.bind_eq_ok_iff.mp h
  cases continuation with
  | nothing => cases hrest
  | help topics => cases hrest
  | subcommand subcommand level => exact ⟨leading, subcommand, level, hleading⟩

/-- **What is accepted**: both sides hold no clash, and the subcommand has its input. -/
theorem read_ok_iff
    (h : readLeading {} arguments = .ok (leading, .subcommand subcommand level)) :
    read environment arguments = .ok invocation
      ↔ ∃ given input, readLevel subcommand level = .ok given ∧
          checkLevel given = .ok input ∧ leading.checkLevels = .ok () ∧
          invocationOf environment leading subcommand given input = invocation := by
  unfold read
  rw [h, Journaled.bind_eq_ok_iff]
  constructor
  · rintro ⟨found, hfound, hrest⟩
    obtain rfl := Except.ok.inj hfound
    obtain ⟨given, hgiven, hrest⟩ := Journaled.bind_eq_ok_iff.mp hrest
    obtain ⟨input, hinput, hrest⟩ := Journaled.bind_eq_ok_iff.mp hrest
    obtain ⟨_, hlevels, hdone⟩ := Journaled.bind_eq_ok_iff.mp hrest
    exact ⟨given, input, hgiven, hinput, hlevels, Except.ok.inj hdone⟩
  · rintro ⟨given, input, hgiven, hinput, hlevels, rfl⟩
    refine ⟨_, rfl, ?_⟩
    dsimp only
    rw [Journaled.bind_eq_ok_iff]
    refine ⟨given, hgiven, ?_⟩
    rw [Journaled.bind_eq_ok_iff]
    refine ⟨input, hinput, ?_⟩
    rw [Journaled.bind_eq_ok_iff]
    exact ⟨(), hlevels, rfl⟩

end Read

/-- What the level of a subcommand has taken down is what its arguments give. -/
theorem switches_of_readLevel {subcommand : Subcommand} {arguments : List String} {given : Given}
    (h : readLevel subcommand arguments = .ok given) :
    given.switches.map Prod.fst = switchesIn subcommand.switches arguments := by
  unfold readLevel at h
  obtain ⟨last, hlast, hsettled⟩ := Journaled.bind_eq_ok_iff.mp h
  obtain ⟨⟨hseen, -⟩, hdue⟩ := Given.settle_ok hsettled
  rw [← Given.seen_of_due_eq_none hdue, hseen, Given.seen_of_reads hlast]
  exact List.append_nil _

/-- Both flags for the level of events are given. -/
def Clash (given : List Switch) : Prop :=
  .verbose ∈ given ∧ .quiet ∈ given

/-- **On one side the flags exclude each other.** -/
theorem not_clash_of_checkLevels {given : Given} (h : given.checkLevels = .ok ()) :
    ¬ Clash (given.switches.map Prod.fst) := by
  rintro ⟨hverbose, hquiet⟩
  rw [Given.checkLevels, Given.has_iff.mpr hverbose, Given.has_iff.mpr hquiet] at h
  cases h

theorem checkLevels_of_checkLevel {given : Given} {input : String}
    (h : checkLevel given = .ok input) : given.checkLevels = .ok () := by
  unfold checkLevel at h
  obtain ⟨_, hlevels, -⟩ := Journaled.bind_eq_ok_iff.mp h
  exact hlevels

-- ── Flags on both sides ─────────────────────────────────────────────────────

section Sides

variable {environment : Option String} {arguments : List String} {invocation : Invocation}

/-- **An accepted command line**, taken apart: what its leading arguments leave behind, what its
    subcommand's arguments leave behind, and what both come to. -/
theorem exists_line_of_read (h : read environment arguments = .ok invocation) :
    ∃ (line : CommandLine) (leading given : Given) (input : String),
      line.arguments = arguments ∧ Settled leading line.leadingGiven ∧
      (∀ rest, readLeading {} (line.leading ++ rest) = readLeading leading rest) ∧
      readLevel line.subcommand line.level = .ok given ∧ checkLevel given = .ok input ∧
      leading.checkLevels = .ok () ∧
      invocationOf environment leading line.subcommand given input = invocation := by
  obtain ⟨leading, subcommand, level, hleading⟩ := exists_readLeading_of_read h
  obtain ⟨given, input, hgiven, hinput, hlevels, hinvocation⟩ := (read_ok_iff hleading).mp h
  have hnothing : Settled {} [] := ⟨rfl, rfl, rfl⟩
  obtain ⟨line, harguments, rfl, rfl, hsettled, hrest⟩ := readLeading_ok hnothing hleading
  exact ⟨line, leading, given, input, harguments, hsettled, hrest, hgiven, hinput, hlevels,
    hinvocation⟩

/-- A flag is asked for if it was given on either side. -/
theorem has_or_has_iff {leading given : Given} {line : CommandLine}
    (hsettled : Settled leading line.leadingGiven)
    (hgiven : readLevel line.subcommand line.level = .ok given) (switch : Switch) :
    (leading.has switch || given.has switch) = true
      ↔ switch ∈ line.leadingGiven ∨ switch ∈ line.levelGiven := by
  rw [Bool.or_eq_true, hsettled.has_iff, Given.has_iff, switches_of_readLevel hgiven]
  rfl

/-- The flags for the level of events, each as an argument of its own. -/
def levelFlags : List (Switch × String) :=
  [(.verbose, "-v"), (.quiet, "-q")]

theorem levelFlags_cases {switch : Switch} {text : String} (h : (switch, text) ∈ levelFlags) :
    switch = .verbose ∧ text = "-v" ∨ switch = .quiet ∧ text = "-q" := by
  simpa [levelFlags] using h

/-- A flag for the level of events is taken down if it has not been given. -/
theorem argument_flag {g : Given} {switch : Switch} {text : String} (hdue : g.due = none)
    (hwords : g.wordsOnly = false) (hflag : (switch, text) ∈ levelFlags)
    (hnew : g.has switch = false) :
    g.argument leadingSwitches text
      = .ok { g with switches := g.switches ++ [(switch, none)] } := by
  obtain ⟨switches, input, due, inputSeen, wordsOnly⟩ := g
  obtain rfl : due = none := hdue
  obtain rfl : wordsOnly = false := hwords
  rcases levelFlags_cases hflag with ⟨rfl, rfl⟩ | ⟨rfl, rfl⟩
  · show Given.takeSwitch _ .verbose none >>= (fun g => g.letters leadingSwitches []) = _
    rw [Given.takeSwitch, hnew]
    rfl
  · show Given.takeSwitch _ .quiet none >>= (fun g => g.letters leadingSwitches []) = _
    rw [Given.takeSwitch, hnew]
    rfl

/-- A flag in front of the subcommand is taken if it has not been given there. -/
theorem readLeading_flag {g : Given} {found : List Switch} {switch : Switch} {text : String}
    (hsettled : Settled g found) (hflag : (switch, text) ∈ levelFlags) (hnew : switch ∉ found)
    (rest : List String) :
    readLeading g (text :: rest)
      = readLeading { g with switches := g.switches ++ [(switch, none)] } rest := by
  have hhas := hsettled.has_eq_false hnew
  have hnext := argument_flag hsettled.due hsettled.wordsOnly hflag hhas
  rcases levelFlags_cases hflag with ⟨rfl, rfl⟩ | ⟨rfl, rfl⟩
  · have hshape : shapeOf "-v" = .letters ['v'] := rfl
    refine readLeading_switch hsettled.wordsOnly rfl rfl (fun word hword => ?_) hnext rest
    exact nomatch hshape.symm.trans hword
  · have hshape : shapeOf "-q" = .letters ['q'] := rfl
    refine readLeading_switch hsettled.wordsOnly rfl rfl (fun word hword => ?_) hnext rest
    exact nomatch hshape.symm.trans hword

theorem has_append (g : Given) (switch asked : Switch) :
    Given.has { g with switches := g.switches ++ [(switch, none)] } asked
      = (g.has asked || switch == asked) := by
  simp [Given.has]

/-- **Across the subcommand nothing is excluded**: a flag in front of it is taken in addition to
    whatever stands behind it. -/
theorem read_flag_in_front {line : CommandLine} {switch : Switch} {text : String}
    (hflag : (switch, text) ∈ levelFlags) (hverbose : .verbose ∉ line.leadingGiven)
    (hquiet : .quiet ∉ line.leadingGiven)
    (h : read environment line.arguments = .ok invocation) :
    read environment (line.leading ++ text :: line.word :: line.level)
      = .ok { invocation with
          verbose := switch == .verbose || invocation.verbose
          quiet := switch == .quiet || invocation.quiet } := by
  obtain ⟨same, leading, given, input, harguments, hsettled, hrest, hgiven, hinput, -, rfl⟩ :=
    exists_line_of_read h
  obtain rfl := CommandLine.eq_of_arguments_eq harguments
  have hnew : switch ∉ same.leadingGiven := by
    rcases levelFlags_cases hflag with ⟨rfl, -⟩ | ⟨rfl, -⟩
    · exact hverbose
    · exact hquiet
  have hleading : readLeading {} (same.leading ++ text :: same.word :: same.level)
      = .ok ({ leading with switches := leading.switches ++ [(switch, none)] },
          .subcommand same.subcommand same.level) := by
    have hwords : Given.wordsOnly
        { leading with switches := leading.switches ++ [(switch, none)] } = false :=
      hsettled.wordsOnly
    rw [hrest, readLeading_flag hsettled hflag hnew]
    exact readLeading_named hwords same.named same.level
  refine (read_ok_iff hleading).mpr ⟨given, input, hgiven, hinput, ?_, ?_⟩
  · rw [Given.checkLevels, has_append, has_append, hsettled.has_eq_false hverbose,
      hsettled.has_eq_false hquiet]
    rcases levelFlags_cases hflag with ⟨rfl, -⟩ | ⟨rfl, -⟩ <;> rfl
  · rw [invocationOf, has_append, has_append, invocationOf, hsettled.has_eq_false hverbose,
      hsettled.has_eq_false hquiet]
    simp only [Bool.false_or]

end Sides

/-- **THE FLAGS OF A COMMAND LINE**: a command line that gives both flags for the level of events
    on one side of its subcommand is refused. One that is accepted asks for what is given on
    either side. A flag that is put in front of the subcommand of an accepted one, where neither
    was given, is taken, whichever is given behind it. -/
theorem read_flags (environment : Option String) :
    (∀ line : CommandLine, Clash line.leadingGiven ∨ Clash line.levelGiven →
      ∃ fault, read environment line.arguments = .error fault) ∧
    (∀ arguments invocation, read environment arguments = .ok invocation →
      ∃ line : CommandLine, line.arguments = arguments ∧
        (invocation.verbose = true ↔ .verbose ∈ line.leadingGiven ∨ .verbose ∈ line.levelGiven) ∧
        (invocation.quiet = true ↔ .quiet ∈ line.leadingGiven ∨ .quiet ∈ line.levelGiven)) ∧
    ∀ (line : CommandLine) (invocation : Invocation),
      read environment line.arguments = .ok invocation →
      .verbose ∉ line.leadingGiven → .quiet ∉ line.leadingGiven →
      read environment (line.leading ++ "-v" :: line.word :: line.level)
          = .ok { invocation with verbose := true } ∧
        read environment (line.leading ++ "-q" :: line.word :: line.level)
          = .ok { invocation with quiet := true } := by
  refine ⟨?_, ?_, ?_⟩
  · intro line hclash
    cases hread : read environment line.arguments with
    | error fault => exact ⟨fault, rfl⟩
    | ok invocation =>
        obtain ⟨same, leading, given, input, harguments, hsettled, -, hgiven, hinput, hlevels, -⟩ :=
          exists_line_of_read hread
        obtain rfl := CommandLine.eq_of_arguments_eq harguments
        rcases hclash with hfront | hbehind
        · rw [← hsettled.switches] at hfront
          exact absurd hfront (not_clash_of_checkLevels hlevels)
        · rw [CommandLine.levelGiven, ← switches_of_readLevel hgiven] at hbehind
          exact absurd hbehind (not_clash_of_checkLevels (checkLevels_of_checkLevel hinput))
  · intro arguments invocation hread
    obtain ⟨line, leading, given, input, harguments, hsettled, -, hgiven, -, -, rfl⟩ :=
      exists_line_of_read hread
    exact ⟨line, harguments, has_or_has_iff hsettled hgiven .verbose,
      has_or_has_iff hsettled hgiven .quiet⟩
  · intro line invocation hread hverbose hquiet
    exact ⟨read_flag_in_front (List.mem_cons_self ..) hverbose hquiet hread,
      read_flag_in_front (List.mem_cons_of_mem _ (List.mem_cons_self ..)) hverbose hquiet hread⟩

/-- Both flags behind the subcommand, one of them among grouped letters. -/
def groupedLine : CommandLine :=
  ⟨[], "checksum", ["f", "-qk", "k.json", "--verbose"], .checksum, rfl, List.forall_mem_nil _⟩

/-- A flag behind the subcommand only. A value that looks like the other one is none. -/
def quietLine : CommandLine :=
  ⟨[], "parse", ["-qk-v", "--", "-v"], .parse, rfl, List.forall_mem_nil _⟩

/-- Both flags in one level, the second one within grouped letters, are refused. One flag behind the
    subcommand leaves room for the other one in front of it, although the words behind it look like
    flags. -/
theorem read_flags_sampleLines :
    (Clash groupedLine.levelGiven ∧
      ∃ fault, read none groupedLine.arguments = .error fault) ∧
    quietLine.leadingGiven = [] ∧ quietLine.levelGiven = [.quiet, .keywords] ∧
      read none quietLine.arguments
        = .ok ⟨.parse "-v" false, { keywordsFile := some "-v" }, false, true⟩ ∧
      read none ["-v", "parse", "-qk-v", "--", "-v"]
        = .ok ⟨.parse "-v" false, { keywordsFile := some "-v" }, true, true⟩ := by
  obtain ⟨hrefused, -, hfront⟩ := read_flags none
  have hclash : Clash groupedLine.levelGiven := by
    constructor <;> decide +kernel
  have hread : read none quietLine.arguments
      = .ok ⟨.parse "-v" false, { keywordsFile := some "-v" }, false, true⟩ := rfl
  exact ⟨⟨hclash, hrefused groupedLine (.inr hclash)⟩, rfl, by decide +kernel, hread,
    (hfront quietLine _ hread (List.not_mem_nil) (List.not_mem_nil)).1⟩

/-- Each flag on one side of the subcommand. -/
def dividedLine : CommandLine :=
  ⟨["-v"], "parse", ["a", "-q"], .parse, rfl, by decide⟩

/-- **Not always refused**: across the subcommand both flags are accepted. -/
theorem not_read_exclusive :
    ¬ ∀ (environment : Option String) (line : CommandLine),
        (.verbose ∈ line.leadingGiven ∨ .verbose ∈ line.levelGiven) →
        (.quiet ∈ line.leadingGiven ∨ .quiet ∈ line.levelGiven) →
        ∃ fault, read environment line.arguments = .error fault := by
  intro hall
  obtain ⟨fault, hfault⟩ := hall none dividedLine (.inl (by decide +kernel))
    (.inr (by decide +kernel))
  have hread : read none dividedLine.arguments = .ok ⟨.parse "a" false, {}, true, true⟩ := rfl
  exact nomatch hread.symm.trans hfault

end Stencil.Arguments
