import Stencil.Document.Basic
import Stencil.Fault

/-!
# Offences — what makes a list of resources unusable

An offence is a flaw with the names of the resources around the list it is in, the
outermost first. Every flaw but one makes a malformed resource; its message begins with
the resources around it. A repeated name is a fault of its own.
-/

namespace Stencil

/-- The name of a kind of documents in messages about resources. -/
def Document.Kind.phrase : Document.Kind → String
  | .null => "null"
  | .boolean => "a boolean"
  | .number => "a number"
  | .string => "a string"
  | .array => "a list"
  | .object => "an object"

/-- The field that every resource is named by. -/
def nameField : String := "name"

/-- What can be wrong with an entry of a list. -/
inductive Flaw where
  /-- The entry at an index is no object. -/
  | notObject (index : Nat) (found : Document.Kind)
  /-- The entry at an index has no name, or one that is no string. -/
  | unnamed (index : Nat)
  /-- The child list field of a resource holds no list. -/
  | childrenNotList (field owner : String) (found : Document.Kind)
  /-- An earlier entry of the list has the same name. -/
  | repeated (name : String)
deriving Repr, DecidableEq

/-- A flaw, inside the resources that enclose it. -/
structure Offence where
  enclosing : List String
  flaw : Flaw
deriving Repr, DecidableEq

/-- An offence in a list at the top. -/
def Flaw.offence (flaw : Flaw) : Offence :=
  ⟨[], flaw⟩

/-- The same offence seen from outside one more resource. -/
def Offence.within (parent : String) (offence : Offence) : Offence :=
  { offence with enclosing := parent :: offence.enclosing }

/-- The resources around an offence, as they stand before its message. -/
def enclosingNote (enclosing : List String) : String :=
  String.join (enclosing.map fun parent => s!"in resource '{parent}': ")

/-- The resources around a repeated name, as one path; none at the top. -/
def enclosingPath : List String → Option String
  | [] => none
  | enclosing => some ("/".intercalate enclosing)

/-- The fault that an offence is. -/
def Offence.fault (offence : Offence) : Fault :=
  let note := enclosingNote offence.enclosing
  match offence.flaw with
  | .notObject index found =>
    .resource (note ++ s!"resource at index {index} must be an object, found {found.phrase}")
  | .unnamed index =>
    .resource (note ++ s!"resource at index {index} has no string '{nameField}' field")
  | .childrenNotList field owner found =>
    .resource (note ++
      s!"field '{field}' of resource '{owner}' must be a list, found {found.phrase}")
  | .repeated name => .duplicateName name (enclosingPath offence.enclosing)

end Stencil
