import Stencil.Settings.Toml
import Stencil.Files.Basic
import Stencil.Files.Path

/-!
# Setup — settings and keywords from where they are kept

Settings come from a file. Keywords come from up to four places; what a later one says
about a keyword replaces what an earlier one said: the keywords file named in the
settings, the keywords in the settings, a further keywords file, and keywords given
directly. How a mismatch in the settings is put into words can be chosen.
-/

namespace Stencil

/-- Keywords from a file that holds a JSON object. -/
def keywordsFromFile (files : Files) (path : String) : Journaled FaultChain Mappings := do
  let text ← .lift (files.readNoting "Failed to read keywords file: " path)
  let document ← ((Source.mk path text).document []).mapFault fun fault => .of (.fault fault)
  match document with
  | .object members => return members
  | other =>
    let found := if other.kind = .array then "an array" else "a scalar"
    .fail (.of (.fault (.settings
      ("Keywords file " ++ path ++ " must contain a JSON object, found " ++ found))))

namespace Settings

/-- Settings from a TOML file. A keywords file that they name is relative to the directory
    of that file. -/
def fromFile (files : Files) (path : String) (wording : Wording := Mismatch.inBrief) :
    Journaled FaultChain Settings := do
  let text ← .lift (files.readNoting "Failed to read config file: " path)
  let parsed ← .lift ((ofToml text).mapError fun refusal =>
    (FaultChain.of (.toml (refusal.message wording text))).wrap
      (.note ("Failed to parse config file: " ++ path)))
  let settings :=
    { parsed with keywordsFile := parsed.keywordsFile.map (Path.within (Path.directory path)) }
  .report [.settingsLoaded path settings.templatedFields.length]
  return settings

/-- The keywords of settings: those of the file they name, then their own. -/
def mappings (files : Files) (settings : Settings) : Journaled FaultChain Mappings := do
  let named ← match settings.keywordsFile with
    | some path => keywordsFromFile files path
    | none => .ok []
  return Members.merge (Members.merge [] named) settings.keywords

end Settings

/-- Where settings and keywords are to be taken from. -/
structure Setup where
  settingsFile : Option String := none
  keywordsFile : Option String := none
  inlineKeywords : Option String := none
deriving Repr, DecidableEq

/-- Settings and all keywords, ready for work. -/
structure Workspace where
  settings : Settings
  mappings : Mappings
deriving DecidableEq

/-- How directly given keywords are called in faults. -/
def inlineLabel : String := "--keyword-mappings"

/-- Keywords that are given directly as the text of a JSON object. -/
def keywordsFromText (text : String) : Journaled FaultChain Mappings := do
  let document ← ((Source.mk inlineLabel text).document []).mapFault fun fault =>
    .of (.fault fault)
  match document with
  | .object members => return members
  | _ => .fail (.of (.plain (inlineLabel ++ " must be a JSON object")))

/-- Loads settings and merges the keywords of all sources, in their order. -/
def Setup.load (files : Files) (setup : Setup)
    (wording : Settings.Wording := Settings.Mismatch.inBrief) :
    Journaled FaultChain Workspace := do
  let settings ← match setup.settingsFile with
    | some path => Settings.fromFile files path wording
    | none => .ok {}
  let own ← settings.mappings files
  let filed ← match setup.keywordsFile with
    | some path => keywordsFromFile files path
    | none => .ok []
  let given ← match setup.inlineKeywords with
    | some text => keywordsFromText text
    | none => .ok []
  let mappings := Members.merge (Members.merge own filed) given
  .report [.mappingsMerged mappings.length]
  return ⟨settings, mappings⟩

end Stencil
