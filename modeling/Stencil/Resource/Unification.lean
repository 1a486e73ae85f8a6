import Stencil.Placeholder.Resolution
import Stencil.Resource.Rules
import Stencil.Resource.Offence
import Stencil.Journaled

/-!
# Unification — lists of resources as maps by name

A list of named resources becomes an object in which each resource stands under its
name. Templated fields become canonical text, so that two copies can be compared as
text; the child list of a resource is unified by the same rules; every other field is
kept. A later resource takes the place of an earlier one of the same name, unless the
rules reject that.
-/

namespace Stencil

/-- The canonical text of a templated field: a string with its keywords resolved, any
    other value in its compact form. -/
def normalizeField (mappings : Mappings) : Document → String
  | .string text => Placeholder.resolve mappings text
  | structured => structured.compact

/-- What normalizing a templated field of a resource reports. Structured values have no
    keywords. -/
def fieldEvents (mappings : Mappings) (owner field : String) : Document → List Event
  | .string text =>
    let missing := Placeholder.unresolved mappings (Placeholder.resolve mappings text)
    Placeholder.resolutionEvents mappings text ++
      (if missing.isEmpty then [] else [.undefinedInField field owner missing])
  | _ => []

/-- The name of a resource, if it has one that is a string. -/
def resourceName? (fields : Members) : Option String :=
  match fields.get? nameField with
  | some (.string name) => some name
  | _ => none

/-- What the rules say about a name that is, or is not, in use already. -/
def checkName (rules : Rules) (unified : Members) (name : String) : Journaled Offence Unit :=
  if unified.has name then
    match rules.duplicates with
    | .reject => .fail (Flaw.repeated name).offence
    | .overwrite => .report [.redefined name]
  else .ok ()

mutual

/-- Unifies the rest of a list of resources. `index` is the place of the first of them,
    `unified` what the resources before it have become. -/
def unifyFrom (rules : Rules) (mappings : Mappings) (index : Nat) (unified : Members) :
    List Document → Journaled Offence Members
  | [] => do
    .report [.unified index unified.length]
    return unified
  | .object fields :: resources =>
    match resourceName? fields with
    | none => .fail (Flaw.unnamed index).offence
    | some name => do
      let normalized ← normalizeFields rules mappings name fields
      checkName rules unified name
      unifyFrom rules mappings (index + 1) (unified.insert name (.object normalized)) resources
  | entry :: _ => .fail (Flaw.notObject index entry.kind).offence

/-- Normalizes the fields of a resource, in order. -/
def normalizeFields (rules : Rules) (mappings : Mappings) (owner : String) :
    List (String × Document) → Journaled Offence Members
  | [] => .ok []
  | (field, value) :: fields => do
    let normalized ← normalizeValue rules mappings owner field value
    let others ← normalizeFields rules mappings owner fields
    return (field, normalized) :: others

/-- Normalizes the value of one field. -/
def normalizeValue (rules : Rules) (mappings : Mappings) (owner field : String) :
    Document → Journaled Offence Document
  | .array items =>
    if rules.isChildList field then do
      let nested ← (unifyFrom rules mappings 0 [] items).mapFault (.within owner)
      return .object nested
    else if rules.isTemplated field then .ok (.string (normalizeField mappings (.array items)))
    else .ok (.array items)
  | value =>
    if rules.isChildList field then
      .fail (Flaw.childrenNotList field owner value.kind).offence
    else if rules.isTemplated field then do
      .report (fieldEvents mappings owner field value)
      return .string (normalizeField mappings value)
    else .ok value

end

/-- Unifies a list of resources. -/
def unify (rules : Rules) (mappings : Mappings) (resources : List Document) :
    Journaled Fault Members :=
  (unifyFrom rules mappings 0 [] resources).mapFault Offence.fault

end Stencil
