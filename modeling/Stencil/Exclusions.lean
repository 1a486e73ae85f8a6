import Stencil.Document.Rendering
import Stencil.Fault

/-!
# Exclusions — members left out of a document

Leaving out a set of names removes every member with one of these names, at any depth,
and nothing else: lists keep their items and their order, members their order. What is to
be written without some names is put together anew first, from a document or from a map
whose keys need not be strings.
-/

namespace Stencil

/-- The names to leave out: none, a single one, or a set. -/
inductive Exclusions where
  | nothing
  | one (name : String)
  | names (all : List String)
deriving Repr, DecidableEq

namespace Exclusions

/-- The names as a list. -/
def toList : Exclusions → List String
  | .nothing => []
  | .one name => [name]
  | .names all => all

/-- A name is left out. -/
def excludes (x : Exclusions) (name : String) : Bool :=
  x.toList.contains name

mutual

/-- A document without the members whose names are excluded. -/
def strip (x : Exclusions) : Document → Document
  | .object members => .object (stripMembers x members)
  | .array items => .array (stripItems x items)
  | .null => .null
  | .bool value => .bool value
  | .number value => .number value
  | .string value => .string value

/-- The items of a list, each stripped. -/
def stripItems (x : Exclusions) : List Document → List Document
  | [] => []
  | item :: items => strip x item :: stripItems x items

/-- The members that are not excluded, each stripped. -/
def stripMembers (x : Exclusions) : List (String × Document) → List (String × Document)
  | [] => []
  | (name, value) :: members =>
    if x.excludes name then stripMembers x members
    else (name, strip x value) :: stripMembers x members

end

/-- What is left of a document. Where nothing is excluded that is the document itself. -/
def reduce (x : Exclusions) (document : Document) : Document :=
  if x.toList.isEmpty then document else strip x document

/-- What is left of a member: none if its name is excluded. -/
def visit (x : Exclusions) (name : String) (value : Document) : Option Document :=
  if x.excludes name then none else some (x.reduce value)

end Exclusions

-- ── Maps with keys of any kind ──────────────────────────────────────────────

/-- The name that a key stands under in an object: scalars other than null have one. -/
def Document.asName? : Document → Option String
  | .string value => some value
  | .number value => some (String.ofList value.text)
  | .bool true => some "true"
  | .bool false => some "false"
  | _ => none

/-- The members of a map, in order; none if some key has no name. -/
def Members.ofPairs? (pairs : List (Document × Document)) : Option Members :=
  pairs.foldlM
    (fun (members : Members) pair => pair.1.asName?.map fun name => members.insert name pair.2)
    []

/-- The compact text of what is left of a map. -/
def Exclusions.mapText (x : Exclusions) (pairs : List (Document × Document)) :
    Except Fault String :=
  match Members.ofPairs? pairs with
  | some members => .ok (x.reduce (.object members)).compact
  | none => .error (.other "Failed to serialize value for filtering: key must be a string")

namespace Document

mutual

/-- A document put together anew: the members of an object are inserted one after another. -/
def rebuilt : Document → Document
  | .object members => .object (rebuiltMembers [] members)
  | .array items => .array (rebuiltItems items)
  | .null => .null
  | .bool value => .bool value
  | .number value => .number value
  | .string value => .string value

/-- The items of a list, each put together anew. -/
def rebuiltItems : List Document → List Document
  | [] => []
  | item :: items => rebuilt item :: rebuiltItems items

/-- The members of an object, each put together anew and inserted behind others. -/
def rebuiltMembers (before : Members) : List (String × Document) → Members
  | [] => before
  | (name, value) :: members => rebuiltMembers (before.insert name (rebuilt value)) members

end

end Document

/-- The compact text of what is left of a document. -/
def Exclusions.text (x : Exclusions) (document : Document) : String :=
  (x.reduce document).compact

end Stencil
