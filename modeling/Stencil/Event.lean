/-!
# Events — what the library reports while it works

An event is a value. It is written as its level, the part of the library it comes from
and a message.
-/

namespace Stencil

/-- How serious an event is. -/
inductive Level where
  | error
  | warn
  | info
  | debug
  | trace
deriving Repr, DecidableEq

/-- Levels by severity, the most severe first. -/
def Level.rank : Level → Nat
  | .error => 0
  | .warn => 1
  | .info => 2
  | .debug => 3
  | .trace => 4

/-- The name of a level. -/
def Level.name : Level → String
  | .error => "ERROR"
  | .warn => "WARN"
  | .info => "INFO"
  | .debug => "DEBUG"
  | .trace => "TRACE"

/-- The things that are reported. -/
inductive Event where
  /-- A text refers to no keyword that is mapped. -/
  | nothingToResolve
  /-- A text refers to so many different keywords that are mapped. -/
  | resolving (count : Nat)
  /-- A source that is no document refers to keywords that are not mapped. -/
  | undefinedInSource (label : String) (keywords : List String)
  /-- A templated field refers to keywords that are not mapped. -/
  | undefinedInField (field name : String) (keywords : List String)
  /-- A name is defined again in the same list. -/
  | redefined (name : String)
  /-- A list of resources was unified. -/
  | unified (resources entries : Nat)
  /-- Settings hold reserved keys. -/
  | reservedKeys (kind : String) (count : Nat)
  /-- A settings file was loaded. -/
  | settingsLoaded (path : String) (templatedFields : Nat)
  /-- All keyword sources were merged. -/
  | mappingsMerged (count : Nat)
  /-- A resource file was normalized. -/
  | normalized (count : Nat) (label : String)
  /-- Two files were compared. -/
  | compared (first second verdict : String)
deriving Repr, DecidableEq

namespace Event

/-- The level of an event. -/
def level : Event → Level
  | nothingToResolve | resolving _ => .trace
  | redefined _ => .warn
  | normalized _ _ => .info
  | _ => .debug

/-- The part of the library an event comes from. -/
def target : Event → String
  | nothingToResolve | resolving _ => "templating::tokens"
  | undefinedInSource _ _ => "templating::parser"
  | undefinedInField _ _ _ | redefined _ | unified _ _ => "assets"
  | reservedKeys _ _ => "validation"
  | settingsLoaded _ _ => "config"
  | mappingsMerged _ | normalized _ _ | compared _ _ _ => "cli"

/-- The message of an event. -/
def message : Event → String
  | nothingToResolve => "No known keywords in text"
  | resolving count => s!"Resolving {count} distinct keyword(s)"
  | undefinedInSource label keywords =>
    s!"{label} references undefined keyword(s): " ++ ", ".intercalate keywords
  | undefinedInField field name keywords =>
    s!"Field '{field}' of resource '{name}' keeps undefined keyword(s): " ++
      ", ".intercalate keywords
  | redefined name =>
    s!"Resource '{name}' is defined more than once; the later definition wins"
  | unified resources entries => s!"Unified {resources} resource(s) into {entries} entries"
  | reservedKeys kind count => s!"{kind} carries {count} reserved key(s)"
  | settingsLoaded path fields => s!"Loaded {path} with {fields} templated field(s)"
  | mappingsMerged count => s!"Using {count} keyword mapping(s)"
  | normalized count label => s!"Normalized {count} resource(s) from {label}"
  | compared first second verdict => s!"{first} vs {second}: {verdict}"

/-- An event on one line. -/
def text (event : Event) : String :=
  s!"{event.level.name} {event.target}: {event.message}"

end Event

end Stencil
