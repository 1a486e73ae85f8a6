import Stencil.Proofs.Document.Quotation
import Stencil.Proofs.Document.RoundTrip
import Stencil.Proofs.Placeholder.Stability
import Stencil.Proofs.Source

/-!
# Unnoticed keywords — where a keyword without a value can hide

A placeholder whose keyword has no value stays as it stands, and at-signs are no part of a
document except in its strings. So a source with such a placeholder is only read as a document if
every one of them has come to stand inside of a string (`document_noticesUndefined`): anywhere
else it is noticed. Inside of a string it is a text like any other and is not noticed at all
(`document_of_undefined`).
-/

namespace Stencil

open Placeholder Document

/-- A placeholder without a value stands in a text, behind `front` once that is resolved. -/
def Placeholder.StandsUndefined (mappings : Mappings) (text : String) (front word : List Char) :
    Prop :=
  ∃ before after, scan text.toList = before ++ .keyword word :: after ∧
    mappings.get? (String.ofList word) = none ∧
    front = before.flatMap (Piece.resolved mappings)

variable {mappings : Mappings}

/-- The keywords that a text lacks are those of its placeholders without a value. -/
theorem Placeholder.mem_unresolved_iff {text keyword : String} :
    keyword ∈ unresolved mappings text
      ↔ ∃ front word, StandsUndefined mappings text front word ∧
          keyword = String.ofList word := by
  rw [unresolved, List.mem_filter, keywords, List.mem_eraseDups, List.mem_filterMap,
    Members.has_eq_isSome_get?, Option.not_isSome, Option.isNone_iff_eq_none]
  constructor
  · rintro ⟨⟨piece, hpiece, hkeyword⟩, hundefined⟩
    cases piece with
    | plain c => cases hkeyword
    | keyword word =>
        obtain rfl := Option.some.inj hkeyword
        obtain ⟨before, after, hscan⟩ := List.append_of_mem hpiece
        exact ⟨_, word, ⟨before, after, hscan, hundefined, rfl⟩, rfl⟩
  · rintro ⟨front, word, ⟨before, after, hscan, hundefined, -⟩, rfl⟩
    refine ⟨⟨.keyword word, ?_, rfl⟩, hundefined⟩
    rw [hscan]
    exact List.mem_append_right _ (List.mem_cons_self ..)

/-- A placeholder without a value is still there when the text is resolved. -/
theorem Placeholder.StandsUndefined.exists_toList_resolve {text : String} {front word : List Char}
    (h : StandsUndefined mappings text front word) :
    ∃ behind, (resolve mappings text).toList = front ++ placeholder word ++ behind := by
  obtain ⟨before, after, hscan, hundefined, rfl⟩ := h
  refine ⟨after.flatMap (Piece.resolved mappings), ?_⟩
  rw [resolve_eq_substitute, substitute, String.toList_ofList, hscan, List.flatMap_append,
    List.flatMap_cons, resolved_keyword, replacement_of_undefined hundefined, List.append_assoc]

/-- **NOTICED OUTSIDE OF STRINGS**: if a source is read as a document, every placeholder without a
    value stands inside of a string of the resolved text. So the source lacks nothing, unless a
    placeholder without a value stands there. -/
theorem document_noticesUndefined {source : Source} {document : Document}
    (h : (source.document mappings).result = .ok document) :
    (∀ front word, StandsUndefined mappings source.text front word → InString front) ∧
      (unresolved mappings source.text = [] ↔
        ∀ front word, StandsUndefined mappings source.text front word → ¬ InString front) := by
  have hinside : ∀ front word, StandsUndefined mappings source.text front word →
      InString front := by
    intro front word hstands
    obtain ⟨behind, htext⟩ := hstands.exists_toList_resolve
    have hpasses := passes_read (Source.document_ok_iff.mp h)
    rw [htext, List.append_assoc] at hpasses
    exact Place.admits_at_iff.mp hpasses.admits_of_append
  refine ⟨hinside, ?_⟩
  constructor
  · intro hnil front word hstands
    have hmem : String.ofList word ∈ unresolved mappings source.text :=
      mem_unresolved_iff.mpr ⟨front, word, hstands, rfl⟩
    rw [hnil] at hmem
    exact absurd hmem List.not_mem_nil
  · intro hoff
    refine List.eq_nil_iff_forall_not_mem.mpr fun keyword hkeyword => ?_
    obtain ⟨front, word, hstands, -⟩ := mem_unresolved_iff.mp hkeyword
    exact hoff front word hstands (hinside front word hstands)

/-- A page with one keyword that has a value, and one in a string that has none. -/
def quotedSource : Source :=
  ⟨"page", "\x7b\"a\": @@n@@, \"b\": \"see \\\"@@u@@\"\x7d"⟩

/-- A keyword without a value goes unnoticed behind an escaped quote, since it is inside of a
    string. -/
theorem document_noticesUndefined_quotedSource :
    unresolved [("n", .string "x\"")] quotedSource.text = ["u"] ∧
      (quotedSource.document [("n", .string "x\"")]).result
        = .ok (.object [("a", .string "x\""), ("b", .string "see \"@@u@@")]) ∧
      StandsUndefined [("n", .string "x\"")] quotedSource.text
        "\x7b\"a\": \"x\\\"\", \"b\": \"see \\\"".toList ['u'] ∧
      InString "\x7b\"a\": \"x\\\"\", \"b\": \"see \\\"".toList := by
  have hok := Journaled.ok_of_toOption (show
    (quotedSource.document [("n", .string "x\"")]).result.toOption
      = some (.object [("a", .string "x\""), ("b", .string "see \"@@u@@")]) by decide +kernel)
  have hstands : StandsUndefined [("n", .string "x\"")] quotedSource.text
      "\x7b\"a\": \"x\\\"\", \"b\": \"see \\\"".toList ['u'] := by
    refine ⟨(scan quotedSource.text.toList).take 21, [.plain '"', .plain '\x7d'], ?_, ?_, ?_⟩
    · decide +kernel
    · decide
    · decide +kernel
  exact ⟨by decide +kernel, hok, hstands, (document_noticesUndefined hok).1 _ _ hstands⟩

/-- **Unnoticed inside of strings**: a written document is read back as it is, whatever keywords
    its strings refer to without a value. -/
theorem document_of_undefined {layout : Layout} {label : String} {document : Document}
    (hexact : document.Exact) (hnest : document.nesting ≤ nestingLimit)
    (hundefined : ∀ word ∈ keywords (document.text layout), mappings.get? word = none) :
    ((Source.mk label (document.text layout)).document mappings).result = .ok document := by
  rw [Source.document_ok_iff, resolve_eq_self_of_undefined hundefined]
  exact read_text layout hexact hnest

/-- **Not always noticed**: a source that is nothing but a string is read as a document, although
    the string refers to a keyword without a value. -/
theorem not_noticesUndefined :
    ¬ ∀ (mappings : Mappings) (source : Source) (document : Document),
        (source.document mappings).result = .ok document →
        unresolved mappings source.text = [] := by
  intro hall
  have hok : ((Source.mk "f" "\"@@a@@\"").document []).result = .ok (.string "@@a@@") :=
    Journaled.ok_of_toOption (by decide +kernel)
  exact absurd (hall [] _ _ hok) (by decide +kernel)

end Stencil
