import Stencil.Placeholder.Basic
import Stencil.Document.Rendering
import Stencil.Event

/-!
# Resolution — placeholders replaced by what their keywords are mapped to

A mapped string is put in as a quoted literal, any other value as its compact text.
Keywords that are not mapped stay as they stand. What was put in is never scanned again.
-/

namespace Stencil

/-- The values that keywords stand for. -/
abbrev Mappings := Members

/-- How a mapped value is put into a text. -/
def substitutionText (value : Document) : String :=
  value.compact

namespace Placeholder

/-- The characters that a piece becomes. -/
def Piece.resolved (mappings : Mappings) : Piece → List Char
  | .plain c => [c]
  | .keyword word =>
    match mappings.get? (String.ofList word) with
    | some value => (substitutionText value).toList
    | none => Piece.source (.keyword word)

/-- Replaces every mapped placeholder in one pass. -/
def substitute (mappings : Mappings) (text : String) : String :=
  String.ofList ((scan text.toList).flatMap (Piece.resolved mappings))

/-- The text holds a pair of at-signs, without which it can hold no placeholder. -/
def hasMark : List Char → Bool
  | '@' :: '@' :: _ => true
  | _ :: rest => hasMark rest
  | [] => false

/-- The keywords of a text that are mapped. -/
def resolvable (mappings : Mappings) (text : String) : List String :=
  (keywords text).filter mappings.has

/-- The keywords of a text that are not mapped, in the order of their first occurrence. -/
def unresolved (mappings : Mappings) (text : String) : List String :=
  (keywords text).filter fun keyword => !mappings.has keyword

/-- Resolves a text. A text in which nothing can be replaced is given back as it is. -/
def resolve (mappings : Mappings) (text : String) : String :=
  if mappings.isEmpty || !hasMark text.toList then text
  else if (resolvable mappings text).isEmpty then text
  else substitute mappings text

/-- What resolving a text reports. -/
def resolutionEvents (mappings : Mappings) (text : String) : List Event :=
  if mappings.isEmpty || !hasMark text.toList then []
  else
    let known := resolvable mappings text
    if known.isEmpty then [.nothingToResolve] else [.resolving known.length]

end Placeholder

end Stencil
