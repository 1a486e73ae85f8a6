import Stencil.Document.Rendering
import Stencil.Proofs.Document.RoundTrip
import Stencil.Proofs.Placeholder.Decomposition

/-!
# Templates — documents in which some values are left open

A template is a document with holes, each under the word that is to fill it. It has two
readings: its source is compact text in which the holes are placeholders, and given a value
for every word it is a document. That the two agree is what resolving a source is for.
-/

namespace Stencil

open Placeholder

/-- A document with holes. -/
inductive Template where
  | hole (word : String)
  | null
  | bool (value : Bool)
  | number (value : Number)
  | string (value : String)
  | array (items : List Template)
  | object (members : List (String × Template))

namespace Template

mutual

/-- A template as compact text. -/
def source : Template → List Char
  | .hole word => placeholder word.toList
  | .null => ['n', 'u', 'l', 'l']
  | .bool true => ['t', 'r', 'u', 'e']
  | .bool false => ['f', 'a', 'l', 's', 'e']
  | .number value => value.text
  | .string value => quoted value
  | .array items => '[' :: (sourceOfItems items ++ [']'])
  | .object members => '{' :: (sourceOfMembers members ++ ['}'])

/-- Items with commas between them. -/
def sourceOfItems : List Template → List Char
  | [] => []
  | item :: items => source item ++ (separator items ++ sourceOfItems items)

/-- Members with commas between them. -/
def sourceOfMembers : List (String × Template) → List Char
  | [] => []
  | (name, value) :: members =>
      quoted name ++ ':' :: (source value ++ (separator members ++ sourceOfMembers members))

end

mutual

/-- The document that a template becomes when each word has a value. -/
def fill (values : String → Document) : Template → Document
  | .hole word => values word
  | .null => .null
  | .bool value => .bool value
  | .number value => .number value
  | .string value => .string value
  | .array items => .array (fillItems values items)
  | .object members => .object (fillMembers values members)

/-- All items filled. -/
def fillItems (values : String → Document) : List Template → List Document
  | [] => []
  | item :: items => fill values item :: fillItems values items

/-- All members filled. -/
def fillMembers (values : String → Document) : List (String × Template) → Members
  | [] => []
  | (name, value) :: members => (name, fill values value) :: fillMembers values members

end

mutual

/-- The words of the holes, in order. -/
def holes : Template → List String
  | .hole word => [word]
  | .null => []
  | .bool _ => []
  | .number _ => []
  | .string _ => []
  | .array items => holesOfItems items
  | .object members => holesOfMembers members

/-- The words of the holes among items. -/
def holesOfItems : List Template → List String
  | [] => []
  | item :: items => holes item ++ holesOfItems items

/-- The words of the holes among members. -/
def holesOfMembers : List (String × Template) → List String
  | [] => []
  | (_, value) :: members => holes value ++ holesOfMembers members

end

mutual

/-- **Well-formed** templates: holes stand under words, and no literal text holds a
    placeholder of its own. -/
def WellFormed : Template → Prop
  | .hole word => IsWord word.toList
  | .null => True
  | .bool _ => True
  | .number _ => True
  | .string value => keywords value = []
  | .array items => WellFormedItems items
  | .object members => WellFormedMembers members

/-- All items are well-formed. -/
def WellFormedItems : List Template → Prop
  | [] => True
  | item :: items => WellFormed item ∧ WellFormedItems items

/-- All members are well-formed, their names included. -/
def WellFormedMembers : List (String × Template) → Prop
  | [] => True
  | (name, value) :: members =>
      keywords name = [] ∧ WellFormed value ∧ WellFormedMembers members

end

mutual

/-- **Exact** templates: all literal numbers are integers, and no name stands twice in an
    object. -/
def Exact : Template → Prop
  | .hole _ => True
  | .null => True
  | .bool _ => True
  | .number value => value.IsInteger
  | .string _ => True
  | .array items => ExactItems items
  | .object members => (members.map Prod.fst).Nodup ∧ ExactMembers members

/-- All items are exact. -/
def ExactItems : List Template → Prop
  | [] => True
  | item :: items => Exact item ∧ ExactItems items

/-- The values of all members are exact. -/
def ExactMembers : List (String × Template) → Prop
  | [] => True
  | (_, value) :: members => Exact value ∧ ExactMembers members

end

/-- Filling keeps the names of members. -/
theorem names_fillMembers (values : String → Document) (members : List (String × Template)) :
    (fillMembers values members).names = members.map Prod.fst := by
  induction members with
  | nil => rfl
  | cons member members ih =>
      obtain ⟨name, value⟩ := member
      rw [fillMembers, Members.names_cons, ih]
      rfl

mutual

/-- An exact template filled with exact values is an exact document. -/
theorem exact_fill {values : String → Document} :
    ∀ template : Template, template.Exact → (∀ word ∈ template.holes, (values word).Exact) →
      (template.fill values).Exact
  | .hole word, _, hvalues => hvalues word (List.mem_cons_self ..)
  | .null, _, _ => trivial
  | .bool _, _, _ => trivial
  | .number _, h, _ => h
  | .string _, _, _ => trivial
  | .array items, h, hvalues => exact_fillItems items h hvalues
  | .object members, h, hvalues => by
      obtain ⟨hnames, hmembers⟩ := h
      refine ⟨?_, exact_fillMembers members hmembers hvalues⟩
      rw [names_fillMembers]
      exact hnames

theorem exact_fillItems {values : String → Document} :
    ∀ items : List Template, ExactItems items →
      (∀ word ∈ holesOfItems items, (values word).Exact) →
      Document.ExactItems (fillItems values items)
  | [], _, _ => trivial
  | item :: items, h, hvalues => by
      obtain ⟨hitem, hitems⟩ := h
      exact ⟨exact_fill item hitem fun word hw => hvalues word (List.mem_append_left _ hw),
        exact_fillItems items hitems fun word hw => hvalues word (List.mem_append_right _ hw)⟩

theorem exact_fillMembers {values : String → Document} :
    ∀ members : List (String × Template), ExactMembers members →
      (∀ word ∈ holesOfMembers members, (values word).Exact) →
      Document.ExactMembers (fillMembers values members)
  | [], _, _ => trivial
  | (_, value) :: members, h, hvalues => by
      obtain ⟨hvalue, hmembers⟩ := h
      exact ⟨exact_fill value hvalue fun word hw => hvalues word (List.mem_append_left _ hw),
        exact_fillMembers members hmembers fun word hw =>
          hvalues word (List.mem_append_right _ hw)⟩

end

end Template

end Stencil
