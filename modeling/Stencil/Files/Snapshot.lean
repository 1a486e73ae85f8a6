import Stencil.Action

/-!
# Snapshots — the files that an action needs

An action reads the files that its arguments name and the keywords file that its settings
name, and no others. Collecting what they hold beforehand is all the reading there is.
-/

namespace Stencil

/-- What some paths hold. -/
abbrev Snapshot := List (String × Except FileFault String)

/-- A snapshot as what all paths hold; a path that is not in it is not found. -/
def Snapshot.files (s : Snapshot) : Files := fun path =>
  (s.lookup path).getD (.error .notFound)

/-- The files that a setup names. -/
def Setup.paths (setup : Setup) : List String :=
  setup.settingsFile.toList ++ setup.keywordsFile.toList

/-- The keywords file that the settings of a setup name. -/
def Setup.pathsInSettings (files : Files) (setup : Setup) : List String :=
  match setup.settingsFile with
  | none => []
  | some path =>
    match (Settings.fromFile files path).result with
    | .ok settings => settings.keywordsFile.toList
    | .error _ => []

/-- The files that an action names. -/
def Action.paths : Action → List String
  | .normalize input _ => [input]
  | .parse input _ => [input]
  | .checksum input other => input :: other.toList
  | .reduce input _ _ => [input]

end Stencil
