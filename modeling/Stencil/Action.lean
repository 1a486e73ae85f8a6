import Stencil.Setup
import Stencil.Digest
import Stencil.ReservedKeys
import Stencil.Resource.Unification

/-!
# Actions — what can be done with one input file

Each action loads its settings and keywords first, reads its input then, and gives the
text to print. It is a function of what the files hold.
-/

namespace Stencil

/-- What is to be done, and with which file. -/
inductive Action where
  /-- Unify a list of resources into a map by name. -/
  | normalize (input : String) (compact : Bool)
  /-- Resolve the keywords of a document. -/
  | parse (input : String) (compact : Bool)
  /-- Digest a text, or compare it with another one. -/
  | checksum (input : String) (other : Option String)
  /-- Leave members out of a document. -/
  | reduce (input : String) (exclude : List String) (pretty : Bool)
deriving Repr, DecidableEq

/-- A document as it is printed. -/
def printed (pretty : Bool) (document : Document) : String :=
  if pretty then document.indented else document.compact

/-- The text of an input file. -/
def readInput (files : Files) (path : String) : Journaled FaultChain String :=
  .lift (files.readNoting "Failed to read " path)

/-- The document in an input file. -/
def readDocument (mappings : Mappings) (path text : String) : Journaled FaultChain Document :=
  ((Source.mk path text).document mappings).mapFault fun fault => .of (.fault fault)

/-- Unifies the resources of a file. Their placeholders are resolved field by field, not
    in the file as a whole. -/
def normalizeFile (files : Files) (setup : Setup) (input : String) (compact : Bool) :
    Journaled FaultChain String := do
  let workspace ← setup.load files
  let text ← readInput files input
  match ← readDocument [] input text with
  | .array resources =>
    let unified ← (unify workspace.settings.rules workspace.mappings resources).mapFault
      fun fault => (FaultChain.of (.fault fault)).wrap
        (.note ("Failed to normalize resources from " ++ input))
    .report [.normalized unified.length input]
    return printed (!compact) (workspace.settings.exclusions.reduce (.object unified))
  | _ => .fail (.of (.plain (input ++ " must contain a JSON array of resources")))

/-- Reads the document of a file and leaves out what the settings exclude, unless it holds
    reserved keys. -/
def parseFile (files : Files) (setup : Setup) (input : String) (compact : Bool) :
    Journaled FaultChain String := do
  let workspace ← setup.load files
  let text ← readInput files input
  let document ← readDocument workspace.mappings input text
  (rejectReservedKeys input workspace.settings.reservedKeys document).mapFault
    fun fault => .of (.fault fault)
  return printed (!compact) (workspace.settings.exclusions.reduce document)

/-- Resolves the text of a file. -/
def resolveFile (files : Files) (mappings : Mappings) (path : String) :
    Journaled FaultChain String := do
  let text ← readInput files path
  .report (Placeholder.resolutionEvents mappings text)
  return Placeholder.resolve mappings text

/-- Digests the resolved text of a file, or compares it with that of another one. -/
def checksumFile (files : Files) (setup : Setup) (input : String) (other : Option String) :
    Journaled FaultChain String := do
  let workspace ← setup.load files
  let first ← resolveFile files workspace.mappings input
  match other with
  | none => return digest first
  | some path =>
    let second ← resolveFile files workspace.mappings path
    let verdict := if sameDigest first second then "identical" else "different"
    .report [.compared input path verdict]
    return verdict

/-- Reads the document of a file and leaves out what the settings exclude and some further
    names. For the compact layout the document is put together anew first. -/
def reduceFile (files : Files) (setup : Setup) (input : String) (exclude : List String)
    (pretty : Bool) : Journaled FaultChain String := do
  let workspace ← setup.load files
  let text ← readInput files input
  let document ← readDocument workspace.mappings input text
  let exclusions := Exclusions.names (workspace.settings.excluded ++ exclude)
  if pretty then return printed true (exclusions.reduce document)
  else return exclusions.text document.rebuilt

/-- Carries out an action. Gives the text to print. -/
def Action.run (files : Files) (setup : Setup) : Action → Journaled FaultChain String
  | .normalize input compact => normalizeFile files setup input compact
  | .parse input compact => parseFile files setup input compact
  | .checksum input other => checksumFile files setup input other
  | .reduce input exclude pretty => reduceFile files setup input exclude pretty

end Stencil
