import Stencil.Placeholder.Resolution
import Stencil.Proofs.Document.Members
import Stencil.Proofs.Placeholder.Decomposition

/-!
# Resolution — one pass over the leftmost cut

Resolving a text, listing its keywords and listing those that are not mapped all read the
text anew. Here they are shown to read the same thing off it: the words of its one leftmost
cut. The shortcuts of `resolve` are no exceptions, since each of them is taken only when no
word of the cut is mapped (`substitute_of_undefined`).
-/

namespace Stencil.Placeholder

/-- What stands for a word in a resolved text: its value, or else its placeholder. -/
def replacement (mappings : Mappings) (word : List Char) : List Char :=
  match mappings.get? (String.ofList word) with
  | some value => (substitutionText value).toList
  | none => placeholder word

/-- An undefined word keeps its placeholder. -/
theorem replacement_of_undefined {mappings : Mappings} {word : List Char}
    (h : mappings.get? (String.ofList word) = none) :
    replacement mappings word = placeholder word := by
  rw [replacement, h]

theorem resolved_keyword (mappings : Mappings) (word : List Char) :
    Piece.resolved mappings (.keyword word) = replacement mappings word := rfl

-- ── Pieces of a cut ─────────────────────────────────────────────────────────

theorem flatMap_resolved_plain (mappings : Mappings) (segment : List Char) :
    (segment.map Piece.plain).flatMap (Piece.resolved mappings) = segment := by
  induction segment with
  | nil => rfl
  | cons c segment ih =>
      rw [List.map_cons, List.flatMap_cons, ih]
      rfl

theorem filterMap_keyword?_plain (segment : List Char) :
    (segment.map Piece.plain).filterMap Piece.keyword? = [] := by
  induction segment with
  | nil => rfl
  | cons c segment ih =>
      rw [List.map_cons, List.filterMap_cons_none rfl, ih]

/-- Resolving the pieces of a cut fills its gaps. -/
theorem Cut.flatMap_resolved_pieces (mappings : Mappings) (cut : Cut) :
    cut.pieces.flatMap (Piece.resolved mappings) = cut.filled (replacement mappings) := by
  induction cut with
  | last segment => exact flatMap_resolved_plain mappings segment
  | block segment word behind ih =>
      rw [pieces, List.flatMap_append, List.flatMap_cons, flatMap_resolved_plain, ih,
        resolved_keyword, ← List.append_assoc]
      rfl

/-- The keywords among the pieces of a cut are its words. -/
theorem Cut.filterMap_keyword?_pieces (cut : Cut) :
    cut.pieces.filterMap Piece.keyword? = cut.words := by
  induction cut with
  | last segment => exact filterMap_keyword?_plain segment
  | block segment word behind ih =>
      rw [pieces, List.filterMap_append, filterMap_keyword?_plain, List.nil_append]
      show String.ofList word :: behind.pieces.filterMap Piece.keyword?
        = String.ofList word :: behind.words
      rw [ih]

/-- What a cut is filled with depends on what is put for its words only. -/
theorem Cut.filled_congr {put other : List Char → List Char} {cut : Cut}
    (h : ∀ word, String.ofList word ∈ cut.words → put word = other word) :
    cut.filled put = cut.filled other := by
  induction cut with
  | last segment => rfl
  | block segment word behind ih =>
      have hword : put word = other word := h word (List.mem_cons_self ..)
      have hbehind := ih fun later hlater => h later (List.mem_cons_of_mem _ hlater)
      show segment ++ put word ++ behind.filled put = segment ++ other word ++ behind.filled other
      rw [hword, hbehind]

/-- A cut none of whose words is mapped is filled with its own placeholders. -/
theorem Cut.filled_of_undefined {mappings : Mappings} {cut : Cut}
    (h : ∀ word ∈ cut.words, mappings.get? word = none) :
    cut.filled (replacement mappings) = cut.text :=
  Cut.filled_congr fun word hword => replacement_of_undefined (h (String.ofList word) hword)

-- ── The functions on a leftmost cut ─────────────────────────────────────────

/-- The keywords of a text are the words of its leftmost cut, each of them once. -/
theorem keywords_of_leftmost {text : String} {cut : Cut} (htext : cut.text = text.toList)
    (h : cut.Leftmost) : keywords text = cut.words.eraseDups := by
  rw [keywords, ← htext, scan_text_of_leftmost h, cut.filterMap_keyword?_pieces]

/-- Substituting fills the leftmost cut. -/
theorem substitute_of_leftmost {text : String} {cut : Cut} (htext : cut.text = text.toList)
    (h : cut.Leftmost) (mappings : Mappings) :
    substitute mappings text = String.ofList (cut.filled (replacement mappings)) := by
  rw [substitute, ← htext, scan_text_of_leftmost h, cut.flatMap_resolved_pieces]

/-- The undefined keywords are the words of the leftmost cut without a value. -/
theorem unresolved_of_leftmost {text : String} {cut : Cut} (htext : cut.text = text.toList)
    (h : cut.Leftmost) (mappings : Mappings) :
    unresolved mappings text
      = cut.words.eraseDups.filter fun word => (mappings.get? word).isNone := by
  rw [unresolved, keywords_of_leftmost htext h]
  congr 1
  funext word
  rw [Members.has_eq_isSome_get?, Option.not_isSome]

-- ── The shortcuts ───────────────────────────────────────────────────────────

/-- A keyword is a word of the leftmost cut. -/
theorem mem_keywords_of_leftmost {text word : String} {cut : Cut}
    (htext : cut.text = text.toList) (h : cut.Leftmost) :
    word ∈ keywords text ↔ word ∈ cut.words := by
  rw [keywords_of_leftmost htext h, List.mem_eraseDups]

/-- A text with no mapped keyword is its own substitution. -/
theorem substitute_of_undefined {mappings : Mappings} {text : String}
    (h : ∀ word ∈ keywords text, mappings.get? word = none) :
    substitute mappings text = text := by
  obtain ⟨cut, ⟨htext, hleft⟩, -⟩ := existsUnique_leftmost text.toList
  have hwords : ∀ word ∈ cut.words, mappings.get? word = none := by
    intro word hword
    exact h word ((mem_keywords_of_leftmost htext hleft).mpr hword)
  rw [substitute_of_leftmost htext hleft, Cut.filled_of_undefined hwords, htext,
    String.ofList_toList]

theorem hasMark_cons_of_hasMark {c : Char} {rest : List Char} (h : hasMark rest = true) :
    hasMark (c :: rest) = true := by
  unfold hasMark
  split
  · rfl
  · next heq =>
      obtain ⟨-, rfl⟩ := List.cons.inj heq
      exact h
  · next heq => exact nomatch heq

/-- Whoever finds a keyword has seen a pair of at-signs. -/
theorem hasMark_of_keyword_mem_scan {text word : List Char}
    (h : Piece.keyword word ∈ scan text) : hasMark text = true := by
  fun_induction scan text with
  | case1 text found behind hopen ih =>
      rw [opening?_eq hopen]
      rfl
  | case2 hopen => exact absurd h List.not_mem_nil
  | case3 c rest hopen ih =>
      rcases List.mem_cons.mp h with heq | hrest
      · cases heq
      · exact hasMark_cons_of_hasMark (ih hrest)

/-- Without a pair of at-signs there are no keywords. -/
theorem keywords_eq_nil_of_not_hasMark {text : String} (h : hasMark text.toList = false) :
    keywords text = [] := by
  have hnone : (scan text.toList).filterMap Piece.keyword? = [] := by
    rw [List.filterMap_eq_nil_iff]
    intro piece hpiece
    cases piece with
    | plain c => rfl
    | keyword word =>
        have hmark := hasMark_of_keyword_mem_scan hpiece
        rw [h] at hmark
        exact nomatch hmark
  rw [keywords, hnone]
  rfl

/-- If nothing can be resolved, no keyword has a value. -/
theorem get?_eq_none_of_resolvable_isEmpty {mappings : Mappings} {text : String}
    (h : (resolvable mappings text).isEmpty = true) :
    ∀ word ∈ keywords text, mappings.get? word = none := by
  intro word hword
  rw [List.isEmpty_iff, resolvable, List.filter_eq_nil_iff] at h
  have hundefined := h word hword
  rw [Members.has_eq_isSome_get?] at hundefined
  exact Option.not_isSome_iff_eq_none.mp hundefined

/-- **The shortcuts agree with the pass**: resolving is substituting. -/
theorem resolve_eq_substitute (mappings : Mappings) (text : String) :
    resolve mappings text = substitute mappings text := by
  unfold resolve
  split
  · next hshort =>
      refine (substitute_of_undefined ?_).symm
      intro word hword
      rcases Bool.or_eq_true _ _ ▸ hshort with hempty | hmark
      · rw [List.isEmpty_iff.mp hempty]
        rfl
      · rw [keywords_eq_nil_of_not_hasMark (by simpa using hmark)] at hword
        exact nomatch hword
  · split
    · next hempty =>
        exact (substitute_of_undefined (get?_eq_none_of_resolvable_isEmpty hempty)).symm
    · rfl

/-- **The keywords of a text are all that resolving it looks up.** -/
theorem resolve_congr {mappings others : Mappings} {text : String}
    (h : ∀ keyword ∈ keywords text, mappings.get? keyword = others.get? keyword) :
    resolve mappings text = resolve others text := by
  obtain ⟨cut, ⟨htext, hleft⟩, -⟩ := existsUnique_leftmost text.toList
  have hput : ∀ word, String.ofList word ∈ cut.words →
      replacement mappings word = replacement others word := by
    intro word hword
    rw [replacement, replacement, h _ ((mem_keywords_of_leftmost htext hleft).mpr hword)]
  rw [resolve_eq_substitute, resolve_eq_substitute, substitute_of_leftmost htext hleft,
    substitute_of_leftmost htext hleft, Cut.filled_congr hput]

-- ── The whole ───────────────────────────────────────────────────────────────

/-- **ONE PASS OVER ONE CUT**: a text has exactly one leftmost cut, and resolving it, listing
    its keywords and listing those not mapped all answer by that cut. Where a shortcut is
    taken, filling the cut gives the text back as well. -/
theorem resolution_by_leftmost_cut (text : String) :
    (∃! cut : Cut, cut.text = text.toList ∧ cut.Leftmost) ∧
    ∀ cut : Cut, cut.text = text.toList ∧ cut.Leftmost →
      keywords text = cut.words.eraseDups ∧
      ∀ mappings : Mappings,
        resolve mappings text = String.ofList (cut.filled (replacement mappings)) ∧
        unresolved mappings text
          = cut.words.eraseDups.filter (fun word => (mappings.get? word).isNone) ∧
        (mappings = [] ∨ hasMark text.toList = false ∨
            (∀ word ∈ cut.words, mappings.get? word = none) →
          String.ofList (cut.filled (replacement mappings)) = text) := by
  refine ⟨existsUnique_leftmost text.toList, ?_⟩
  rintro cut ⟨htext, hleft⟩
  refine ⟨keywords_of_leftmost htext hleft, ?_⟩
  intro mappings
  refine ⟨?_, unresolved_of_leftmost htext hleft mappings, ?_⟩
  · rw [resolve_eq_substitute, substitute_of_leftmost htext hleft]
  · intro hshort
    rw [← substitute_of_leftmost htext hleft]
    refine substitute_of_undefined ?_
    intro word hword
    rcases hshort with rfl | hmark | hundefined
    · rfl
    · rw [keywords_eq_nil_of_not_hasMark hmark] at hword
      exact nomatch hword
    · exact hundefined word ((mem_keywords_of_leftmost htext hleft).mp hword)

end Stencil.Placeholder
