/-!
# Rules — how one kind of resources is unified

The rules name the templated fields, the field that holds a list of children, if there is
one, and what happens when two resources of a list have the same name.
-/

namespace Stencil

/-- What to do with a name that is used again in the same list. -/
inductive DuplicatePolicy where
  /-- The later definition wins. -/
  | overwrite
  /-- It is a fault. -/
  | reject
deriving Repr, DecidableEq

/-- The rules for one kind of resources. -/
structure Rules where
  templatedFields : List String
  childListField : Option String
  duplicates : DuplicatePolicy
deriving Repr, DecidableEq

/-- A field is templated. -/
def Rules.isTemplated (rules : Rules) (field : String) : Bool :=
  rules.templatedFields.contains field

/-- A field holds the list of children. -/
def Rules.isChildList (rules : Rules) (field : String) : Bool :=
  rules.childListField == some field

end Stencil
