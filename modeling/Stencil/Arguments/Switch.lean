/-!
# Switches — the options of the command line and its subcommands

Every switch has a long name, most have a letter, and some take a value. Each subcommand
takes one input and the switches listed for it.
-/

namespace Stencil.Arguments

/-- The options and flags. -/
inductive Switch where
  | settings
  | keywords
  | inlineKeywords
  | compact
  | other
  | exclude
  | pretty
  | verbose
  | quiet
  | help
  | version
deriving Repr, DecidableEq

namespace Switch

/-- The long name of a switch. -/
def long : Switch → String
  | settings => "config"
  | keywords => "keywords"
  | inlineKeywords => "keyword-mappings"
  | compact => "compact"
  | other => "compare"
  | exclude => "exclude"
  | pretty => "pretty"
  | verbose => "verbose"
  | quiet => "quiet"
  | help => "help"
  | version => "version"

/-- The letter of a switch. -/
def letter? : Switch → Option Char
  | settings => some 'c'
  | keywords => some 'k'
  | exclude => some 'e'
  | verbose => some 'v'
  | quiet => some 'q'
  | help => some 'h'
  | version => some 'V'
  | _ => none

/-- The switch takes a value. -/
def takesValue : Switch → Bool
  | settings | keywords | inlineKeywords | other | exclude => true
  | _ => false

/-- The switch may be given more than once. -/
def repeats : Switch → Bool
  | exclude => true
  | _ => false

/-- The value of the switch may be empty. Paths may not. -/
def mayBeEmpty : Switch → Bool
  | inlineKeywords | exclude => true
  | _ => false

end Switch

/-- The subcommands. -/
inductive Subcommand where
  | normalize
  | parse
  | checksum
  | reduce
deriving Repr, DecidableEq

namespace Subcommand

/-- The subcommand of a word. -/
def ofName? : String → Option Subcommand
  | "normalize" => some normalize
  | "parse" => some parse
  | "checksum" => some checksum
  | "reduce" => some reduce
  | _ => none

/-- The switches that every subcommand takes. -/
def shared : List Switch :=
  [.settings, .keywords, .inlineKeywords, .verbose, .quiet, .help]

/-- The switches that a subcommand takes. -/
def switches : Subcommand → List Switch
  | normalize => .compact :: shared
  | parse => .compact :: shared
  | checksum => .other :: shared
  | reduce => .exclude :: .pretty :: shared

end Subcommand

/-- The switches that stand before a subcommand. -/
def leadingSwitches : List Switch :=
  [.verbose, .quiet, .help, .version]

/-- The word that asks for help about subcommands. -/
def helpWord : String := "help"

end Stencil.Arguments
