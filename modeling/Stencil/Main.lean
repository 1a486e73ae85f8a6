import Stencil.Arguments.Invocation
import Stencil.Files.Snapshot
import Stencil.Filter

/-!
# The command line — reading files, printing results

The program reads the files that its arguments name, hands what they hold to the library
and prints what comes back: the result on standard output, events and reports on standard
error.
-/

namespace Stencil

/-- A system error as a file fault. -/
def faultOfSystem : IO.Error → FileFault
  | .noFileOrDirectory _ _ _ => .notFound
  | .noSuchThing _ _ _ => .notFound
  | .permissionDenied _ _ _ => .system .permissionDenied "Permission denied (os error 13)"
  | .inappropriateType _ _ _ => .isDirectory
  | other => .system .other (toString other)

/-- What a path holds. -/
def readPath (path : String) : IO (String × Except FileFault String) := do
  try
    let bytes ← IO.FS.readBinFile path
    match String.fromUTF8? bytes with
    | some text => return (path, .ok text)
    | none => return (path, .error .notText)
  catch e => return (path, .error (faultOfSystem e))

/-- What all files hold that an invocation needs. -/
def takeSnapshot (i : Arguments.Invocation) : IO Snapshot := do
  let named ← (i.setup.paths ++ i.action.paths).mapM readPath
  let further ← (i.setup.pathsInSettings (Snapshot.files named)).mapM readPath
  return named ++ further

/-- The environment variable that keywords can be given in. -/
def keywordsVariable : String := "DEPLOYKIT_KEYWORD_MAPPINGS"

/-- The environment variable that a filter of events can be given in. -/
def filterVariable : String := "RUST_LOG"

/-- The events that an invocation shows: those that the environment asks for if it gives a filter,
    and otherwise those up to the level of its flags. -/
def filterOf (environment : Option String) (i : Arguments.Invocation) : Filter :=
  let flags := Filter.upTo (if i.verbose then .debug else if i.quiet then .error else .warn)
  (environment.bind Filter.read?).getD flags

/-- An event as it is shown: its level in five columns, and its message. -/
def shownEvent (event : Event) : String :=
  let level := event.level.name
  String.ofList (List.replicate (5 - level.length) ' ') ++ level ++ " " ++ event.message

/-- How the program is called. -/
def synopsis : String :=
  "Usage: deploykit [OPTIONS] <COMMAND>\n"

/-- What is printed when help is asked for. -/
def help : String :=
  "Keyword templating and normalization for deployment assets\n" ++
  "\n" ++ synopsis ++ "\n" ++
  "Commands:\n" ++
  "  normalize  Unify a JSON list of resources into a name-keyed map\n" ++
  "  parse      Resolve keywords in a JSON file and print the parsed result\n" ++
  "  checksum   Print the SHA-256 digest of a file\n" ++
  "  reduce     Remove properties from a JSON document at every depth\n" ++
  "  help       Print this message or the help of the given subcommand(s)\n" ++
  "\n" ++
  "Options:\n" ++
  "  -v, --verbose  Enable verbose output (equivalent to `RUST_LOG=debug`)\n" ++
  "  -q, --quiet    Suppress everything except errors\n" ++
  "  -h, --help     Print help (see more with '--help')\n" ++
  "  -V, --version  Print version\n"

/-- What is said about a command line that is refused. -/
def refusalMessage : Arguments.UsageFault → String
  | .missingSubcommand => "a subcommand is required but one was not provided"
  | .invalidSubcommand => "unrecognized subcommand"
  | .missingRequired => "one or more required arguments were not provided"
  | .unknownArgument => "unexpected argument found"
  | .invalidValue => "one of the values isn't valid for an argument"
  | .tooManyValues => "unexpected value for an argument found"
  | .conflict => "an argument cannot be used with one or more of the other specified arguments"
  | .displayHelp | .displayVersion | .nothingGiven => ""

/-- Answers a command line that asks for no action. -/
def refuse : Arguments.UsageFault → IO UInt32
  | .displayHelp => do
    IO.print help
    return 0
  | .displayVersion => do
    IO.println "deploykit 0.1.0"
    return 0
  | .nothingGiven => do
    IO.eprint help
    return 2
  | fault => do
    IO.eprint ("error: " ++ refusalMessage fault ++ "\n\n" ++ synopsis ++ "\n" ++
      "For more information, try '--help'.\n")
    return 2

/-- Carries out an invocation. -/
def carryOut (filter : Filter) (i : Arguments.Invocation) : IO UInt32 := do
  let snapshot ← takeSnapshot i
  let done := i.action.run snapshot.files i.setup
  for event in done.events do
    if filter.shows event then IO.eprintln (shownEvent event)
  match done.result with
  | .ok text =>
    IO.println text
    return 0
  | .error chain =>
    let coloured ← (← IO.getStderr).isTty
    IO.eprint (chain.report.terminal coloured)
    return 1

end Stencil

/-- Runs the program. -/
def main (arguments : List String) : IO UInt32 := do
  let keywords ← IO.getEnv Stencil.keywordsVariable
  let filter ← IO.getEnv Stencil.filterVariable
  match Stencil.Arguments.read keywords arguments with
  | .error fault => Stencil.refuse fault
  | .ok invocation => Stencil.carryOut (Stencil.filterOf filter invocation) invocation
