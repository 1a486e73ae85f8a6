import Stencil.Document.Rendering
import Stencil.Text.Visible

/-!
# Shapes — reading a document as something more definite

A reader of a shape takes a document of the kind it wants and refuses all others, saying
what it found and what it wanted. Lists are read from the front, and the first item that
does not fit decides.
-/

namespace Stencil

/-- What was wanted of a document. -/
inductive Wanted where
  | settings
  | sequence
  | string
  | map
  | path
  | stringOrMap
  | unit
deriving Repr, DecidableEq

/-- The name of what was wanted. -/
def Wanted.name : Wanted → String
  | .settings => "struct EngineConfig"
  | .sequence => "a sequence"
  | .string => "a string"
  | .map => "a map"
  | .path => "path string"
  | .stringOrMap => "string or map"
  | .unit => "unit"

/-- Why a document does not have a shape. -/
inductive ShapeFault where
  /-- It is of another kind. -/
  | wrongKind (found : Document) (wanted : Wanted)
  /-- It names a policy that does not exist. -/
  | unknownPolicy (name : String)
  /-- It is an object that should have exactly one member. -/
  | notSingleMember
  /-- It is a list with too many items. -/
  | tooLong (length : Nat)

/-- What a document is called when it is not what was wanted. -/
def Document.found : Document → String
  | .null => "null"
  | .bool true => "boolean `true`"
  | .bool false => "boolean `false`"
  | .number (.integer value fits) =>
    "integer `" ++ String.ofList (Number.integer value fits).text ++ "`"
  | .number (.float value) =>
    "floating point `" ++ String.ofList (Number.float value).text ++ "`"
  | .string value => "string " ++ Text.visible value
  | .array _ => "sequence"
  | .object _ => "map"

/-- The text of a shape fault. -/
def ShapeFault.message : ShapeFault → String
  | .wrongKind found wanted => "invalid type: " ++ found.found ++ ", expected " ++ wanted.name
  | .unknownPolicy name =>
    "unknown variant `" ++ name ++ "`, expected `overwrite` or `reject`"
  | .notSingleMember => "invalid value: map, expected map with a single key"
  | .tooLong length =>
    "invalid length " ++ toString length ++ ", expected fewer elements in array"

namespace Document

/-- A string, where a given thing is wanted. -/
def asString (wanted : Wanted) : Document → Except ShapeFault String
  | .string value => .ok value
  | other => .error (.wrongKind other wanted)

/-- A string or nothing. -/
def asString? (wanted : Wanted) : Document → Except ShapeFault (Option String)
  | .null => .ok none
  | other => (other.asString wanted).map some

/-- A list of strings. -/
def asStrings : Document → Except ShapeFault (List String)
  | .array items => items.mapM (asString .string)
  | other => .error (.wrongKind other .sequence)

/-- The members of an object. -/
def asMembers : Document → Except ShapeFault Members
  | .object members => .ok members
  | other => .error (.wrongKind other .map)

end Document

end Stencil
