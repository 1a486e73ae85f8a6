import Stencil.Proofs.Placeholder.Joining
import Stencil.Proofs.Placeholder.Suggestion
import Stencil.Proofs.Source

/-!
# Offered keywords — which of them can be used in place of a missing one

A source that cannot be read is reported with suggestions for each keyword that its resolved text
still refers to. What is suggested is mapped, but a mapped key may be any text, while a placeholder
holds words only. So an offered keyword can be used in a placeholder exactly if it is a word
(`offered_works_iff`): a placeholder around a word refers to that word alone
(`keywords_placeholder`), and no text at all refers to anything else (`isWord_of_mem_keywords`).
-/

namespace Stencil

open Placeholder

namespace Placeholder

/-- A keyword **works**: its placeholder refers to it alone, and resolves to its value. -/
structure Works (mappings : Mappings) (keyword : String) : Prop where
  referred : keywords ("@@" ++ keyword ++ "@@") = [keyword]
  resolved : ∃ value, mappings.get? keyword = some value ∧
    resolve mappings ("@@" ++ keyword ++ "@@") = substitutionText value

theorem toList_placeholder (keyword : String) :
    ("@@" ++ keyword ++ "@@").toList = placeholder keyword.toList := by
  rw [String.toList_append, String.toList_append]
  rfl

/-- Whatever a text refers to is a word. -/
theorem isWord_of_mem_keywords {text keyword : String} (h : keyword ∈ keywords text) :
    IsWord keyword.toList := by
  obtain ⟨htext, hleft⟩ := leftmost_ofPieces_scan text.toList
  exact Cut.isWord_of_mem_words hleft ((mem_keywords_of_leftmost htext hleft).mp h)

/-- A placeholder around a word refers to that word alone. -/
theorem keywords_placeholder {keyword : String} (h : IsWord keyword.toList) :
    keywords ("@@" ++ keyword ++ "@@") = [keyword] := by
  rw [keywords, toList_placeholder, scan_placeholder_alone h]
  show [String.ofList keyword.toList].eraseDups = [keyword]
  rw [String.ofList_toList]
  rfl

/-- A word that is defined becomes what is put in for its value. -/
theorem resolve_placeholder {mappings : Mappings} {keyword : String} {value : Document}
    (hword : IsWord keyword.toList) (hvalue : mappings.get? keyword = some value) :
    resolve mappings ("@@" ++ keyword ++ "@@") = substitutionText value := by
  rw [resolve_eq_ofList_resolved, toList_placeholder, resolved_placeholder hword, replacement,
    String.ofList_toList, hvalue, String.ofList_toList]

/-- **A mapped keyword works** exactly if it is a word. -/
theorem works_iff {mappings : Mappings} {keyword : String} (h : keyword ∈ mappings.names) :
    Works mappings keyword ↔ IsWord keyword.toList := by
  constructor
  · intro hworks
    have hmem : keyword ∈ keywords ("@@" ++ keyword ++ "@@") := by
      rw [hworks.referred]
      exact List.mem_cons_self ..
    exact isWord_of_mem_keywords hmem
  · intro hword
    have hmapped := Members.has_iff_mem_names.mpr h
    rw [Members.has_eq_isSome_get?] at hmapped
    obtain ⟨value, hvalue⟩ := Option.isSome_iff_exists.mp hmapped
    exact ⟨keywords_placeholder hword, value, hvalue, resolve_placeholder hword hvalue⟩

/-- Nothing is offered that is not defined. -/
theorem mem_names_of_mem_suggestions {mappings : Mappings} {unknown keyword : String}
    (h : keyword ∈ suggestions unknown mappings) : keyword ∈ mappings.names := by
  rw [suggestions_eq_take] at h
  exact (mem_closeKeywords_iff.mp (List.mem_of_mem_take h)).1

end Placeholder

/-- **OFFERED KEYWORDS**: a source that cannot be read is reported with suggestions for each keyword
    that its resolved text still refers to. All of them are mapped, and one of them works in a
    placeholder exactly if it is a word. -/
theorem offered_works_iff {mappings : Mappings} {source : Source} {fault : Fault}
    (h : (source.document mappings).result = .error fault) :
    ∃ (diagnostic : Document.Diagnostic) (missing : List String),
      fault = .unreadable source.label (diagnostic.message ++ missingNote mappings missing) ∧
      missing = unresolved mappings (resolve mappings source.text) ∧
      ∀ unknown ∈ missing, ∀ keyword ∈ suggestions unknown mappings,
        keyword ∈ mappings.names ∧ (Works mappings keyword ↔ IsWord keyword.toList) := by
  obtain ⟨diagnostic, -, rfl⟩ := Source.document_error_iff.mp h
  refine ⟨diagnostic, _, rfl, rfl, ?_⟩
  intro unknown _ keyword hoffered
  have hmapped := mem_names_of_mem_suggestions hoffered
  exact ⟨hmapped, works_iff hmapped⟩

/-- Mapped keys close to `port`, not all of which are words. -/
def unevenMappings : Mappings :=
  [("pört", .null), ("ports", .array [.number (.integer 80)]), ("po-t", .bool true)]

/-- Three keywords are offered, and only the one that is a word works. -/
theorem offered_works_iff_unevenMappings :
    (Source.document unevenMappings ⟨"page", "[@@port@@]"⟩).result
        = .error (.unreadable "page" ("expected value at line 1 column 2 (undefined keywords: " ++
            "port); did you mean pört or ports or po-t for 'port'?")) ∧
      Works unevenMappings "ports" ∧ ¬ Works unevenMappings "pört" ∧
      ¬ Works unevenMappings "po-t" := by
  have hfault : (Source.document unevenMappings ⟨"page", "[@@port@@]"⟩).result
      = .error (.unreadable "page" ("expected value at line 1 column 2 (undefined keywords: " ++
          "port); did you mean pört or ports or po-t for 'port'?")) := by decide +kernel
  obtain ⟨diagnostic, missing, -, rfl, hoffered⟩ := offered_works_iff hfault
  have hport := hoffered "port" (by decide +kernel)
  refine ⟨hfault, ?_, ?_, ?_⟩
  · exact (hport "ports" (by decide +kernel)).2.mpr (by decide)
  · exact mt (hport "pört" (by decide +kernel)).2.mp (by decide)
  · exact mt (hport "po-t" (by decide +kernel)).2.mp (by decide)

/-- **Not all that is offered works**: `a-` is offered for `a`, but is no word. -/
theorem not_offered_works :
    ¬ ∀ (mappings : Mappings) (source : Source) (fault : Fault),
        (source.document mappings).result = .error fault →
        ∀ unknown ∈ unresolved mappings (resolve mappings source.text),
          ∀ keyword ∈ suggestions unknown mappings, Works mappings keyword := by
  intro hall
  have hfault : (Source.document [("a-", .number (.integer 1))] ⟨"f", "@@a@@"⟩).result
      = .error (.unreadable "f" ("expected value at line 1 column 1 (undefined keywords: a)" ++
          "; did you mean a- for 'a'?")) := by decide +kernel
  have hworks := hall _ _ _ hfault "a" (by decide +kernel) "a-" (by decide +kernel)
  exact absurd hworks.referred (by decide +kernel)

end Stencil
