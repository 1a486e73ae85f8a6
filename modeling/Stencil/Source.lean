import Stencil.Document.Reader
import Stencil.Placeholder.Suggestion
import Stencil.Fault
import Stencil.Journaled

/-!
# Sources — labelled texts that become documents

A source is resolved first and read then. Nothing checks the placeholders beforehand: a
keyword that is not mapped leaves its placeholder in place, where it is usually no JSON.
The fault then lists the keywords that the resolved text still refers to, with what they
may have been meant to be.
-/

namespace Stencil

/-- A text with the label that faults call it by. -/
structure Source where
  label : String
  text : String

/-- What an unknown keyword may have been meant to be; empty if nothing is close. -/
def didYouMean (mappings : Mappings) (keyword : String) : String :=
  match Placeholder.suggestions keyword mappings with
  | [] => ""
  | close => "; did you mean " ++ " or ".intercalate close ++ s!" for '{keyword}'?"

/-- The keywords that are missing, and the suggestions for each; empty if none is. -/
def missingNote (mappings : Mappings) : List String → String
  | [] => ""
  | missing =>
    " (undefined keywords: " ++ ", ".intercalate missing ++ ")" ++
      String.join (missing.map (didYouMean mappings))

/-- What the library says about a resolved text that is no document. -/
def unreadableReason (mappings : Mappings) (resolved : String)
    (diagnostic : Document.Diagnostic) : String :=
  diagnostic.message ++ missingNote mappings (Placeholder.unresolved mappings resolved)

namespace Source

/-- The events of a failure to read a resolved text. -/
def missingEvents (label : String) : List String → List Event
  | [] => []
  | missing => [.undefinedInSource label missing]

/-- The document that a source becomes once its placeholders are resolved. -/
def document (mappings : Mappings) (source : Source) : Journaled Fault Document := do
  let resolved := Placeholder.resolve mappings source.text
  Journaled.report (Placeholder.resolutionEvents mappings source.text)
  match Document.read resolved with
  | .ok document => return document
  | .error diagnostic =>
    Journaled.report (missingEvents source.label (Placeholder.unresolved mappings resolved))
    Journaled.fail (.unreadable source.label (unreadableReason mappings resolved diagnostic))

end Source

end Stencil
