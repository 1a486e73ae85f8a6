import Stencil.Arguments.Given
import Stencil.Action

/-!
# Invocations — what a command line asks for

A command line is a level of leading flags, a subcommand, and a level of its arguments.
The subcommand's level is read and checked to its end before the leading flags are
checked. The level of events can be asked for on either level; being verbose wins.
-/

namespace Stencil.Arguments

/-- What a command line asks for. -/
structure Invocation where
  action : Action
  setup : Setup
  verbose : Bool
  quiet : Bool
deriving Repr, DecidableEq

/-- The name of the level of events that is asked for. -/
def Invocation.levelName (i : Invocation) : String :=
  if i.verbose then "debug" else if i.quiet then "error" else "warn"

/-- What follows the leading flags. -/
inductive Continuation where
  /-- A subcommand and its arguments. -/
  | subcommand (subcommand : Subcommand) (arguments : List String)
  /-- The word for help and the words behind it. -/
  | help (topics : List String)
  /-- Nothing. -/
  | nothing

/-- Reads leading flags up to a subcommand. -/
def readLeading (g : Given) : List String → Except UsageFault (Given × Continuation)
  | [] => .ok (g, .nothing)
  | argument :: arguments =>
    let known := Subcommand.ofName? argument
    if g.wordsOnly then
      if known.isSome || argument == helpWord then .error .unknownArgument
      else .error .invalidSubcommand
    else
      match known with
      | some subcommand => .ok (g, .subcommand subcommand arguments)
      | none =>
        if argument == helpWord then .ok (g, .help arguments)
        else
          match shapeOf argument with
          | .word _ => .error .invalidSubcommand
          | _ =>
            match g.argument leadingSwitches argument with
            | .error fault => .error fault
            | .ok g => readLeading g arguments

/-- The answer to a request for help: only subcommands and help itself can be asked
    about, one at a time. -/
def helpAbout : List String → UsageFault
  | [] => .displayHelp
  | [topic] =>
    if (Subcommand.ofName? topic).isSome || topic == helpWord then .displayHelp
    else .invalidSubcommand
  | _ => .invalidSubcommand

/-- Reads the level of a subcommand. -/
def readLevel (subcommand : Subcommand) (arguments : List String) : Except UsageFault Given := do
  let g ← arguments.foldlM (Given.argument subcommand.switches) {}
  g.settle

/-- The action that a subcommand's level asks for. -/
def actionOf (subcommand : Subcommand) (g : Given) (input : String) : Action :=
  match subcommand with
  | .normalize => .normalize input (g.has .compact)
  | .parse => .parse input (g.has .compact)
  | .checksum => .checksum input (g.value? .other)
  | .reduce => .reduce input (g.values .exclude) (g.has .pretty)

/-- Checks a subcommand's level. -/
def checkLevel (g : Given) : Except UsageFault String := do
  g.checkLevels
  match g.input with
  | some input => return input
  | none => .error .missingRequired

/-- Why a command line without a subcommand is refused. -/
def refusal (g : Given) : UsageFault :=
  if g.switches.isEmpty then .nothingGiven else .missingSubcommand

/-- Reads a command line. `environment` stands in for keywords that are not given
    directly. -/
def read (environment : Option String) (arguments : List String) :
    Except UsageFault Invocation := do
  let (leading, continuation) ← readLeading {} arguments
  match continuation with
  | .nothing => .error (refusal leading)
  | .help topics => .error (helpAbout topics)
  | .subcommand subcommand arguments =>
    let g ← readLevel subcommand arguments
    let input ← checkLevel g
    leading.checkLevels
    let setup : Setup :=
      { settingsFile := g.value? .settings
        keywordsFile := g.value? .keywords
        inlineKeywords := (g.value? .inlineKeywords).or environment }
    return {
      action := actionOf subcommand g input
      setup
      verbose := leading.has .verbose || g.has .verbose
      quiet := leading.has .quiet || g.has .quiet }

end Stencil.Arguments
