import Stencil.Settings.Shape
import Stencil.Sorting
import Stencil.Toml.Reader

/-!
# Settings from TOML — tables read as settings

Keywords may hold any value. As documents, tables have their entries in the order of
their keys, a moment is an object with its text as the only member, and numbers that are
no numbers or infinite are null. Entries with other names are passed over, but their
numbers must not be misfits, and no whole one may exceed one hundred and twenty-eight bits.
-/

namespace Stencil

namespace Toml

/-- The name of the only member of a moment as an object. -/
def momentName : String := "$__toml_private_datetime"

/-- Members in the order of their names. -/
def sortMembers (members : Members) : Members :=
  sortStable (fun a b => a.1 ≤ b.1) members

/-- Entries in the order of their keys. -/
def sortEntries (entries : Entries) : Entries :=
  sortStable (fun a b => a.1 ≤ b.1) entries

/-- A double as a document. -/
def floatDocument (x : Float) : Document :=
  if x.isFinite then .number (.float x) else .null

mutual

/-- A value as a document; none if it holds a number that does not fit. -/
def Value.document? : Value → Option Document
  | .string value => some (.string value)
  | .integer value _ => if h : IntegerFits value then some (.number (.integer value h)) else none
  | .misfit _ _ => none
  | .float value => some (floatDocument value)
  | .boolean value => some (.bool value)
  | .moment text => some (.object [(momentName, .string text)])
  | .array items => (itemDocuments? items).map Document.array
  | .table _ entries => (entryDocuments? entries).map fun members => .object (sortMembers members)
  | .tables elements => (tableDocuments? elements).map Document.array

/-- The items of a list as documents. -/
def itemDocuments? : List Value → Option (List Document)
  | [] => some []
  | item :: items => do
    let first ← item.document?
    let others ← itemDocuments? items
    return first :: others

/-- The entries of a table as members. -/
def entryDocuments? : List (String × Value) → Option Members
  | [] => some []
  | (key, value) :: entries => do
    let first ← value.document?
    let others ← entryDocuments? entries
    return (key, first) :: others

/-- The tables of a list as documents. -/
def tableDocuments? : List (List (String × Value)) → Option (List Document)
  | [] => some []
  | entries :: elements => do
    let first ← entryDocuments? entries
    let others ← tableDocuments? elements
    return .object (sortMembers first) :: others

end

mutual

/-- All numbers of a value stand for numbers, whole ones of at most one hundred and
    twenty-eight bits. -/
def Value.isBounded : Value → Bool
  | .integer value _ =>
    -0x80000000000000000000000000000000 ≤ value &&
      value < 0x100000000000000000000000000000000
  | .misfit _ _ => false
  | .array items => boundedItems items
  | .table _ entries => boundedEntries entries
  | .tables elements => boundedTables elements
  | _ => true

/-- The same for the items of a list. -/
def boundedItems : List Value → Bool
  | [] => true
  | item :: items => item.isBounded && boundedItems items

/-- The same for the entries of a table. -/
def boundedEntries : List (String × Value) → Bool
  | [] => true
  | (_, value) :: entries => value.isBounded && boundedEntries entries

/-- The same for the tables of a list. -/
def boundedTables : List (List (String × Value)) → Bool
  | [] => true
  | entries :: elements => boundedEntries entries && boundedTables elements

end

/-- A string value. -/
def Value.string? : Value → Option String
  | .string value => some value
  | _ => none

/-- A list of strings. -/
def Value.strings? : Value → Option (List String)
  | .array items => items.mapM Value.string?
  | _ => none

/-- A policy: its name, or a table whose only key has that name and holds nothing. -/
def Value.policy? : Value → Option DuplicatePolicy
  | .string name => DuplicatePolicy.ofName? name
  | .table _ [(name, .table _ [])] => DuplicatePolicy.ofName? name
  | .table _ [(name, .array [])] => DuplicatePolicy.ofName? name
  | _ => none

/-- Keywords: a table, or whatever else is an object as a document. -/
def Value.keywords? (value : Value) : Option Members :=
  match value.document? with
  | some (.object members) => some members
  | _ => none

end Toml

namespace Settings

/-- Reads the value of a setting into settings. -/
def Field.readToml? (field : Field) (value : Toml.Value) (s : Settings) : Option Settings :=
  match field with
  | .templatedFields => value.strings?.map fun v => { s with templatedFields := v }
  | .childListField => value.string?.map fun v => { s with childListField := some v }
  | .duplicates => value.policy?.map fun v => { s with duplicates := v }
  | .reservedKeys => value.strings?.map fun v => { s with reservedKeys := v }
  | .excluded => value.strings?.map fun v => { s with excluded := v }
  | .keywords => value.keywords?.map fun v => { s with keywords := v }
  | .keywordsFile => value.string?.map fun v => { s with keywordsFile := some v }

/-- An entry that holds something else than the setting with its key: the key, and what it
    holds. -/
structure Mismatch where
  key : String
  value : Toml.Value

/-- Why a text is not read as settings: it is no TOML, or it is, but not all of its entries
    fit. -/
inductive Refusal where
  | problem (problem : Toml.Problem)
  | mismatch (first : Mismatch)

/-- How a mismatch in a text is put into words. That is up to the reader of the text. -/
abbrev Wording := String → Mismatch → String

/-- Words that name the key of a mismatch and nothing else. -/
def Mismatch.inBrief : Wording := fun _ mismatch =>
  "TOML parse error: invalid value for `" ++ mismatch.key ++ "`"

/-- The message of a refusal, for the operator. -/
def Refusal.message (wording : Wording) (text : String) : Refusal → String
  | .problem found => found.message text.toList
  | .mismatch first => wording text first

/-- Reads the entries of a table as settings, one after another. Gives the first one that does
    not fit if there is one. -/
def ofEntries (s : Settings) : Toml.Entries → Except Mismatch Settings
  | [] => .ok s
  | (key, value) :: entries =>
    match Field.ofName? key with
    | some field =>
      match field.readToml? value s with
      | some s => ofEntries s entries
      | none => .error ⟨key, value⟩
    | none => if value.isBounded then ofEntries s entries else .error ⟨key, value⟩

/-- Reads a TOML text as settings. Its entries are taken in the order of their keys. -/
def ofToml (text : String) : Except Refusal Settings :=
  match Toml.read text with
  | .error problem => .error (.problem problem)
  | .ok entries => (ofEntries {} (Toml.sortEntries entries)).mapError .mismatch

end Settings

end Stencil
