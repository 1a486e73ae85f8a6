import Stencil.Proofs.Document.Position
import Stencil.Proofs.Placeholder.Joining
import Stencil.Proofs.Source

/-!
# Lines — resolving a text changes none of its line breaks

A line feed is a separator, so a text is resolved line by line. Nothing that is put in breaks a
line either: the texts of values hold no control character, whatever strings and names they are
made of. So the lines of a resolved text are the lines of the text, each resolved by itself
(`splitOn_resolved`), and the line that a failure to read the resolved text is reported on is
the line of the source that has to be looked at (`resolve_keepsLines`).
-/

namespace Stencil

open Placeholder

/-- The lines of a text: what stands between its line feeds. -/
def lines (text : String) : List String :=
  (text.toList.splitOn '\n').map String.ofList

namespace Placeholder

-- ── What resolving puts in ──────────────────────────────────────────────────

/-- A scan holds no characters but those of the text. -/
theorem mem_of_mem_source {text : List Char} {piece : Piece} (h : piece ∈ scan text) {c : Char}
    (hc : c ∈ piece.source) : c ∈ text := by
  rw [← sources_scan text]
  exact List.mem_flatMap.mpr ⟨piece, h, hc⟩

/-- **Kept or inline**: a character of a resolved text stood in the text, or belongs to a value
    and is no control character. -/
theorem mem_or_isInline_of_mem_resolved {mappings : Mappings} {text : List Char} {c : Char}
    (h : c ∈ resolved mappings text) : c ∈ text ∨ Document.IsInline c := by
  obtain ⟨piece, hpiece, hc⟩ := List.mem_flatMap.mp h
  cases piece with
  | plain d => exact .inl (mem_of_mem_source hpiece hc)
  | keyword word =>
      rw [resolved_keyword, replacement] at hc
      split at hc
      · next value _ =>
          rw [toList_substitutionText] at hc
          exact .inr (value.isInline_of_mem_render c hc)
      · exact .inl (mem_of_mem_source hpiece hc)

/-- Resolving a line leaves it one line. -/
theorem lineFeed_not_mem_resolved {mappings : Mappings} {line : List Char} (h : '\n' ∉ line) :
    '\n' ∉ resolved mappings line := by
  intro hmem
  rcases mem_or_isInline_of_mem_resolved hmem with hline | hinline
  · exact h hline
  · exact absurd hinline (by decide)

-- ── Line by line ────────────────────────────────────────────────────────────

theorem isSeparator_lineFeed : IsSeparator '\n' := by decide

/-- **A text is resolved line by line.** -/
theorem splitOn_resolved (mappings : Mappings) (text : List Char) :
    (resolved mappings text).splitOn '\n' = (text.splitOn '\n').map (resolved mappings) := by
  by_cases h : '\n' ∈ text
  · obtain ⟨before, behind, rfl⟩ := List.append_of_mem h
    rw [resolved_append_separator mappings isSeparator_lineFeed, List.splitOn_append_cons_self,
      List.splitOn_append_cons_self, List.map_append, splitOn_resolved mappings before,
      splitOn_resolved mappings behind]
  · rw [List.splitOn_eq_singleton h, List.splitOn_eq_singleton (lineFeed_not_mem_resolved h)]
    rfl
termination_by text.length

/-- The lines of a resolved text are the resolved lines of the text. -/
theorem lines_resolve (mappings : Mappings) (text : String) :
    lines (resolve mappings text) = (lines text).map (resolve mappings) := by
  rw [lines, lines, resolve_eq_ofList_resolved, String.toList_ofList, splitOn_resolved,
    List.map_map, List.map_map]
  refine List.map_congr_left fun line _ => ?_
  show String.ofList (resolved mappings line) = resolve mappings (String.ofList line)
  rw [resolve_eq_ofList_resolved, String.toList_ofList]

/-- The texts on both sides of a separator are resolved by themselves. -/
theorem resolve_append_separator (mappings : Mappings) {c : Char} (hc : IsSeparator c)
    (text behind : String) :
    resolve mappings (text ++ String.singleton c ++ behind)
      = resolve mappings text ++ String.singleton c ++ resolve mappings behind := by
  have hwhole : (text ++ String.singleton c ++ behind).toList
      = text.toList ++ c :: behind.toList := by
    simp
  rw [resolve_eq_ofList_resolved, hwhole, resolved_append_separator mappings hc,
    resolve_eq_ofList_resolved, resolve_eq_ofList_resolved, String.ofList_append,
    String.ofList_cons, String.append_assoc]

end Placeholder

-- ── Where a source fails ────────────────────────────────────────────────────

/-- A text that cannot be read fails on one of its lines, and not beyond the end of that. -/
theorem Document.exists_line_of_read_error {text : String} {diagnostic : Diagnostic}
    (h : Document.read text = .error diagnostic) :
    1 ≤ diagnostic.position.line ∧
      ∃ line, (lines text)[diagnostic.position.line - 1]? = some line ∧
        diagnostic.position.column ≤ line.utf8ByteSize := by
  obtain ⟨failure, -, rfl⟩ := Journaled.mapError_eq_error_iff.mp h
  obtain ⟨hfirst, line, hline, hcolumn⟩ := exists_line_of_locate failure text.toList
  refine ⟨hfirst, String.ofList line, ?_, ?_⟩
  · rw [lines, List.getElem?_map, hline]
    rfl
  · rw [utf8ByteSize_ofList]
    exact hcolumn

/-- **LINES ARE KEPT**: the two sides of a separator are resolved each by itself, so the lines of
    a resolved text are the lines of the text, resolved. If the resolved text of a source cannot
    be read, the line that is named is one of the source: what stands there, resolved, is what
    could not be read on, and the column does not go beyond it. -/
theorem resolve_keepsLines (mappings : Mappings) :
    (∀ (c : Char), IsSeparator c → ∀ before behind : String,
      resolve mappings (before ++ String.singleton c ++ behind)
        = resolve mappings before ++ String.singleton c ++ resolve mappings behind) ∧
    (∀ text : String, lines (resolve mappings text) = (lines text).map (resolve mappings)) ∧
    ∀ (source : Source) (fault : Fault), (source.document mappings).result = .error fault →
      ∃ diagnostic line,
        fault = .unreadable source.label
          (unreadableReason mappings (resolve mappings source.text) diagnostic) ∧
        1 ≤ diagnostic.position.line ∧
        (lines source.text)[diagnostic.position.line - 1]? = some line ∧
        (lines (resolve mappings source.text))[diagnostic.position.line - 1]?
          = some (resolve mappings line) ∧
        diagnostic.position.column ≤ (resolve mappings line).utf8ByteSize := by
  refine ⟨fun c hc before behind => resolve_append_separator mappings hc before behind,
    lines_resolve mappings, ?_⟩
  intro source fault hfault
  obtain ⟨diagnostic, hread, rfl⟩ := Source.document_error_iff.mp hfault
  obtain ⟨hfirst, written, hwritten, hcolumn⟩ := Document.exists_line_of_read_error hread
  have hmapped := hwritten
  rw [lines_resolve, List.getElem?_map, Option.map_eq_some_iff] at hmapped
  obtain ⟨line, hline, rfl⟩ := hmapped
  exact ⟨diagnostic, line, rfl, hfirst, hline, hwritten, hcolumn⟩

/-- Values with line breaks in strings and in names. -/
def brokenMappings : Mappings :=
  [("a", .string "x\ny@@"), ("b", .object [("\r\n", .array [.string "\n\n", .null])])]

/-- A page whose third line refers to a keyword that is not mapped. -/
def brokenPage : Source where
  label := "page.json"
  text := "\x7b\"@@\":\n@@a@@, \"b@@\": [@@b@@,\n @@lost@@, \"@\"]\x7d"

/-- A page whose at-signs run up to a separator, with line ends among the values. The diagnostic
    still names a line of the page. -/
theorem resolve_keepsLines_brokenPage :
    IsSeparator '-' ∧
      resolve brokenMappings ("@@a@@@" ++ String.singleton '-' ++ "@@@b@@")
        = "\"x\\ny@@\"@" ++ String.singleton '-' ++ "@\x7b\"\\r\\n\":[\"\\n\\n\",null]\x7d" ∧
      lines (resolve brokenMappings brokenPage.text)
        = ["\x7b\"@@\":", "\"x\\ny@@\", \"b@@\": [\x7b\"\\r\\n\":[\"\\n\\n\",null]\x7d,",
          " @@lost@@, \"@\"]\x7d"] ∧
      (brokenPage.document brokenMappings).result = .error (.unreadable "page.json"
        "expected value at line 3 column 2 (undefined keywords: lost)") ∧
      ∃ diagnostic line,
        unreadableReason brokenMappings (resolve brokenMappings brokenPage.text) diagnostic
          = "expected value at line 3 column 2 (undefined keywords: lost)" ∧
        1 ≤ diagnostic.position.line ∧
        (lines brokenPage.text)[diagnostic.position.line - 1]? = some line ∧
        diagnostic.position.column ≤ (resolve brokenMappings line).utf8ByteSize := by
  have hdash : IsSeparator '-' := by decide
  have hfault : (brokenPage.document brokenMappings).result = .error (.unreadable "page.json"
      "expected value at line 3 column 2 (undefined keywords: lost)") := by decide +kernel
  obtain ⟨hlocal, hlines, hplace⟩ := resolve_keepsLines brokenMappings
  obtain ⟨diagnostic, line, heq, hfirst, hline, -, hcolumn⟩ := hplace brokenPage _ hfault
  refine ⟨hdash, (hlocal '-' hdash _ _).trans ?_, (hlines _).trans ?_, hfault, diagnostic, line,
    ?_, hfirst, hline, hcolumn⟩
  · decide +kernel
  · decide +kernel
  · exact (Fault.unreadable.inj heq).2.symm

end Stencil
