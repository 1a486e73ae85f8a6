import Stencil.Arguments.Switch

/-!
# Given arguments — reading the switches and the input of one level

The arguments before a subcommand and those behind it are two levels that are read in the
same way. A value that stands in an argument of its own is due first and is taken down
when the next switch or input appears, or when the arguments end; only then do its faults
show. So an argument that does not belong here is reported before a value that does not
fit.
-/

namespace Stencil.Arguments

/-- Why a command line is refused. Asking for help or for the version counts as well. -/
inductive UsageFault where
  | displayHelp
  | displayVersion
  | nothingGiven
  | missingSubcommand
  | invalidSubcommand
  | missingRequired
  | unknownArgument
  | invalidValue
  | tooManyValues
  | conflict
deriving Repr, DecidableEq

/-- What an argument looks like. -/
inductive Shape where
  /-- Two dashes: what follows holds no switches. -/
  | escape
  /-- A long switch, perhaps with a value behind an equals sign. -/
  | long (name : String) (value : Option String)
  /-- Letters behind a dash. -/
  | letters (letters : List Char)
  /-- Anything else. -/
  | word (text : String)
deriving Repr, DecidableEq

/-- Splits a text at its first equals sign. -/
def splitAtEquals (text : List Char) : String × Option String :=
  match text.dropWhile (· ≠ '=') with
  | [] => (String.ofList text, none)
  | _ :: value => (String.ofList (text.takeWhile (· ≠ '=')), some (String.ofList value))

/-- What an argument looks like. A single dash is a word. -/
def shapeOf (argument : String) : Shape :=
  match argument.toList with
  | ['-', '-'] => .escape
  | '-' :: '-' :: text =>
    let (name, value) := splitAtEquals text
    .long name value
  | '-' :: c :: letters => .letters (c :: letters)
  | _ => .word argument

/-- What a value can be for: a switch, or the input. -/
inductive Slot where
  | switch (switch : Switch)
  | input
deriving Repr, DecidableEq

/-- What has been given on a level. -/
structure Given where
  /-- The switches with their values, in order. -/
  switches : List (Switch × Option String) := []
  /-- The input. -/
  input : Option String := none
  /-- A value that is still due, or that has not been taken down yet. -/
  due : Option (Slot × Option String) := none
  /-- An input has appeared. -/
  inputSeen : Bool := false
  /-- No more switches follow. -/
  wordsOnly : Bool := false

namespace Given

/-- A switch has been given. -/
def has (g : Given) (switch : Switch) : Bool :=
  g.switches.any fun entry => entry.1 == switch

/-- The value of a switch. -/
def value? (g : Given) (switch : Switch) : Option String :=
  (g.switches.find? fun entry => entry.1 == switch).bind Prod.snd

/-- All values of a switch, in order. -/
def values (g : Given) (switch : Switch) : List String :=
  (g.switches.filter fun entry => entry.1 == switch).filterMap Prod.snd

/-- Takes down a switch. -/
def takeSwitch (g : Given) (switch : Switch) (value : Option String) :
    Except UsageFault Given :=
  if switch.takesValue && value.isNone then .error .invalidValue
  else if g.has switch && !switch.repeats then .error .conflict
  else if value == some "" && !switch.mayBeEmpty then .error .invalidValue
  else .ok { g with switches := g.switches ++ [(switch, value)] }

/-- Takes down the value that is due. -/
def settle (g : Given) : Except UsageFault Given :=
  match g.due with
  | none => .ok g
  | some (slot, value) =>
    let g := { g with due := none }
    match slot with
    | .switch switch => g.takeSwitch switch value
    | .input => if value == some "" then .error .invalidValue else .ok { g with input := value }

/-- Reacts to a switch whose value, if it takes one, is known. -/
def react (g : Given) (switch : Switch) (value : Option String) : Except UsageFault Given := do
  let g ← g.settle
  match switch with
  | .help => .error .displayHelp
  | .version => .error .displayVersion
  | _ => g.takeSwitch switch value

/-- A switch whose value stands in the next argument. -/
def await (g : Given) (switch : Switch) : Except UsageFault Given := do
  let g ← g.settle
  return { g with due := some (.switch switch, none) }

/-- Reads a long switch. -/
def long (accepted : List Switch) (g : Given) (name : String) (value : Option String) :
    Except UsageFault Given :=
  match accepted.find? fun switch => switch.long == name with
  | none => .error .unknownArgument
  | some switch =>
    if switch.takesValue then
      match value with
      | some _ => g.react switch value
      | none => g.await switch
    else if value.isSome then .error .tooManyValues
    else g.react switch none

/-- What the letters behind that of a switch say about its value. An equals sign in front
    of it does not belong to it. -/
def attached? : List Char → Option String
  | [] => none
  | '=' :: value => some (String.ofList value)
  | value => some (String.ofList value)

/-- Reads letters behind a dash. The first switch that takes a value has the rest. -/
def letters (accepted : List Switch) (g : Given) : List Char → Except UsageFault Given
  | [] => .ok g
  | c :: rest =>
    match accepted.find? fun switch => switch.letter? == some c with
    | none => .error .unknownArgument
    | some switch =>
      if switch.takesValue then
        match attached? rest with
        | some value => g.react switch (some value)
        | none => g.await switch
      else do
        let g ← g.react switch none
        letters accepted g rest

/-- Reads a word as the value that is due, or else as the input. -/
def word (g : Given) (text : String) : Except UsageFault Given :=
  match g.due, g.wordsOnly with
  | some (.switch switch, none), false =>
    .ok { g with due := some (.switch switch, some text) }
  | _, _ =>
    if g.inputSeen then .error .unknownArgument
    else do
      let g ← g.settle
      return { g with due := some (.input, some text), inputSeen := true }

/-- Reads one argument. -/
def argument (accepted : List Switch) (g : Given) (text : String) : Except UsageFault Given :=
  if g.wordsOnly then g.word text
  else
    match shapeOf text with
    | .escape => .ok { g with wordsOnly := true }
    | .long name value => g.long accepted name value
    | .letters letters => g.letters accepted letters
    | .word text => g.word text

/-- The two flags for the level of events exclude each other on one level. -/
def checkLevels (g : Given) : Except UsageFault Unit :=
  if g.has .verbose && g.has .quiet then .error .conflict else .ok ()

end Given

end Stencil.Arguments
