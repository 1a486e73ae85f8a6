import Stencil.Proofs.Resource.Steps
import Stencil.Proofs.Template.Filling

/-!
# Copies — a template and a value that fills it compare as text

One copy of a field may be kept as the source of a template, while the other copy, fetched as a
value, is the template filled. Both become text when they are normalized: the source by putting
values in the place of its holes, the value by being written anew. That these texts are the same
(`normalizeField_source`) is what makes them comparable. A filled template that is a string is no
such value: as a field it would be taken for a source itself.
-/

namespace Stencil

open Placeholder

/-- **COPIES COMPARE EQUAL**: the source of a template, with every hole mapped, and the filled
    template, with any mappings, normalize to the same text, provided that the filled template is
    no string. So a templated field becomes the same whichever of the two it holds. -/
theorem normalizeField_source {template : Template} {mappings others : Mappings}
    {values : String → Document} (hwell : template.WellFormed)
    (hmapped : ∀ word ∈ template.holes, mappings.get? word = some (values word))
    (hkind : (template.fill values).kind ≠ .string) :
    normalizeField mappings (.string (String.ofList template.source))
        = normalizeField others (template.fill values) ∧
      ∀ (rules : Rules) (owner field : String),
        rules.isChildList field = false → rules.isTemplated field = true →
        (normalizeValue rules mappings owner field
            (.string (String.ofList template.source))).result
          = (normalizeValue rules others owner field (template.fill values)).result := by
  have hsame : normalizeField mappings (.string (String.ofList template.source))
      = normalizeField others (template.fill values) := by
    rw [normalizeField_of_not_string hkind]
    exact Template.resolve_source hwell hmapped
  refine ⟨hsame, ?_⟩
  intro rules owner field hchild htemplated
  rw [normalizeValue_of_not_childList hchild, normalizeValue_of_not_childList hchild, htemplated,
    if_pos rfl, if_pos rfl, hsame]

/-- A string does not compare equal: put in a hole it is quoted, as a field it stays as it is. -/
example :
    normalizeField [("k", .string "v")] (.string "@@k@@") = "\"v\"" ∧
      normalizeField [] (.string "v") = "v" := by
  decide +kernel

/-- A list whose holes stand between strings that begin and end with at-signs. -/
def fencedHoles : Template :=
  .array
    [.string "@@", .hole "k", .string "@@\"@", .object [("@@", .hole "on"), ("k@", .hole "k")],
      .null]

/-- Values of two kinds, one of which looks like a placeholder. -/
def fencedValues (word : String) : Document :=
  if word = "k" then .array [.string "@@on@@\n"] else .bool true

/-- A template with at-signs around its holes comes to the same text as its filled tree, although a
    value looks like a placeholder that is mapped. -/
theorem normalizeField_source_fencedHoles :
    fencedHoles.WellFormed ∧ (fencedHoles.fill fencedValues).kind ≠ .string ∧
      String.ofList fencedHoles.source
        = "[\"@@\",@@k@@,\"@@\\\"@\",\x7b\"@@\":@@on@@,\"k@\":@@k@@\x7d,null]" ∧
      normalizeField [("on", .bool true), ("k", fencedValues "k")]
          (.string (String.ofList fencedHoles.source))
        = normalizeField [("on", .null)] (fencedHoles.fill fencedValues) ∧
      normalizeField [("on", .null)] (fencedHoles.fill fencedValues)
        = "[\"@@\",[\"@@on@@\\n\"],\"@@\\\"@\",\x7b\"@@\":true,\"k@\":[\"@@on@@\\n\"]\x7d,null]" := by
  have hmark : keywords "@@" = [] := by decide +kernel
  have hquote : keywords "@@\"@" = [] := by decide +kernel
  have hname : keywords "k@" = [] := by decide +kernel
  have hk : IsWord "k".toList := by decide
  have hon : IsWord "on".toList := by decide
  have hwell : fencedHoles.WellFormed :=
    ⟨hmark, hk, hquote, ⟨hmark, hon, hname, hk, trivial⟩, trivial, trivial⟩
  have hkind : (fencedHoles.fill fencedValues).kind ≠ .string := by decide
  exact ⟨hwell, hkind, by decide +kernel,
    (normalizeField_source hwell (by decide) hkind).1, by decide +kernel⟩

end Stencil
