import Stencil.Settings.Basic
import Stencil.Document.Shape
import Stencil.Source

/-!
# The shape of settings — documents read as settings

Settings are an object with known members, in any order and each of them optional, or a
list of their values in the order in which settings are written. The members are read in
the order of the document, and the first one that does not fit decides; members with
other names are passed over.
-/

namespace Stencil

/-- A policy: its name, or an object whose only member has that name and no value. -/
def Document.asPolicy : Document → Except ShapeFault DuplicatePolicy
  | .string name =>
    match DuplicatePolicy.ofName? name with
    | some policy => .ok policy
    | none => .error (.unknownPolicy name)
  | .object [(name, value)] =>
    match DuplicatePolicy.ofName? name, value with
    | some policy, .null => .ok policy
    | some _, value => .error (.wrongKind value .unit)
    | none, _ => .error (.unknownPolicy name)
  | .object _ => .error .notSingleMember
  | other => .error (.wrongKind other .stringOrMap)

namespace Settings

/-- The settings, in the order in which they are written. -/
inductive Field where
  | templatedFields
  | childListField
  | duplicates
  | reservedKeys
  | excluded
  | keywords
  | keywordsFile
deriving Repr, DecidableEq

namespace Field

/-- All settings in order. -/
def all : List Field :=
  [templatedFields, childListField, duplicates, reservedKeys, excluded, keywords, keywordsFile]

/-- The name of a setting in a document. -/
def name : Field → String
  | templatedFields => "templated_fields"
  | childListField => "child_list_field"
  | duplicates => "duplicate_names"
  | reservedKeys => "reserved_keys"
  | excluded => "exclude_properties"
  | keywords => "keywords"
  | keywordsFile => "keywords_file"

/-- The setting of a name. -/
def ofName? (name : String) : Option Field :=
  all.find? fun field => field.name == name

/-- Reads the value of a setting into settings. -/
def read (field : Field) (value : Document) (s : Settings) : Except ShapeFault Settings :=
  match field with
  | templatedFields => value.asStrings.map fun v => { s with templatedFields := v }
  | childListField => (value.asString? .string).map fun v => { s with childListField := v }
  | duplicates => value.asPolicy.map fun v => { s with duplicates := v }
  | reservedKeys => value.asStrings.map fun v => { s with reservedKeys := v }
  | excluded => value.asStrings.map fun v => { s with excluded := v }
  | keywords => value.asMembers.map fun v => { s with keywords := v }
  | keywordsFile => (value.asString? .path).map fun v => { s with keywordsFile := v }

end Field

/-- Reads the members of an object, in order. -/
def ofMembers (s : Settings) : Members → Except ShapeFault Settings
  | [] => .ok s
  | (name, value) :: members =>
    match Field.ofName? name with
    | none => ofMembers s members
    | some field =>
      match field.read value s with
      | .error fault => .error fault
      | .ok s => ofMembers s members

/-- Reads the values of settings in order. Gives what is left when all are read. -/
def ofItems (s : Settings) :
    List Field → List Document → Except ShapeFault (Settings × List Document)
  | field :: fields, value :: values =>
    match field.read value s with
    | .error fault => .error fault
    | .ok s => ofItems s fields values
  | _, values => .ok (s, values)

/-- Reads a document as settings. -/
def ofDocument : Document → Except ShapeFault Settings
  | .object members => ofMembers {} members
  | .array items =>
    match ofItems {} Field.all items with
    | .error fault => .error fault
    | .ok (s, []) => .ok s
    | .ok (_, _ :: _) => .error (.tooLong items.length)
  | other => .error (.wrongKind other .settings)

end Settings

/-- A source read as something more definite than a document. -/
def Source.shaped {α : Type} (shape : Document → Except ShapeFault α) (mappings : Mappings)
    (source : Source) : Journaled Fault α := do
  let document ← source.document mappings
  .lift ((shape document).mapError fun fault => .unreadable source.label fault.message)

end Stencil
