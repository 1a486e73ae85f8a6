import Stencil.Document.Basic
import Stencil.Resource.Rules
import Stencil.Exclusions

/-!
# Settings — what is configured for one kind of resources

Settings start out empty: nothing templated, no child list, later definitions win. As a
document they have one member for each setting, in a fixed order, where a setting that
says nothing is left out.
-/

namespace Stencil

/-- The settings for one kind of resources. -/
structure Settings where
  templatedFields : List String := []
  childListField : Option String := none
  duplicates : DuplicatePolicy := .overwrite
  reservedKeys : List String := []
  excluded : List String := []
  keywords : Members := []
  keywordsFile : Option String := none
deriving DecidableEq

/-- The name of a policy. -/
def DuplicatePolicy.name : DuplicatePolicy → String
  | .overwrite => "overwrite"
  | .reject => "reject"

/-- The policy of a name. -/
def DuplicatePolicy.ofName? : String → Option DuplicatePolicy
  | "overwrite" => some .overwrite
  | "reject" => some .reject
  | _ => none

/-- A list of strings as a document. -/
def Document.strings (items : List String) : Document :=
  .array (items.map .string)

namespace Settings

/-- A member for a list of strings; none for the empty list. -/
def listMember (name : String) : List String → Members
  | [] => []
  | items => [(name, .strings items)]

/-- A member for a string; none if there is none. -/
def stringMember (name : String) : Option String → Members
  | none => []
  | some value => [(name, .string value)]

/-- A member for keywords; none if there are none. -/
def keywordsMember : Members → Members
  | [] => []
  | keywords => [("keywords", .object keywords)]

/-- Settings as a document. -/
def document (s : Settings) : Document :=
  .object
    ([("templated_fields", .strings s.templatedFields)] ++
      stringMember "child_list_field" s.childListField ++
      [("duplicate_names", .string s.duplicates.name)] ++
      listMember "reserved_keys" s.reservedKeys ++
      listMember "exclude_properties" s.excluded ++
      keywordsMember s.keywords ++
      stringMember "keywords_file" s.keywordsFile)

/-- The rules that settings amount to. -/
def rules (s : Settings) : Rules :=
  ⟨s.templatedFields, s.childListField, s.duplicates⟩

/-- What settings leave out of documents. -/
def exclusions (s : Settings) : Exclusions :=
  .names s.excluded

end Settings

end Stencil
