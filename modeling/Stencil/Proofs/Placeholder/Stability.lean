import Stencil.Proofs.Placeholder.Joining
import Stencil.Proofs.Repetitions

/-!
# Stability — what is left in a text once it is resolved

A resolved text refers to the keywords that were left in place and to those in the values put in
(`mem_keywords_resolve`), provided that no value joins with what stands around it. So it lacks
what the text lacked if the values lack nothing themselves (`unresolved_resolve`). Fenced values
never join (`not_valuesJoin_of_fenced`), and if they refer to nothing a second pass changes
nothing. If all keywords are mapped to values without at-signs, nothing is left, and here the
proviso is needed exactly (`keywords_resolve_eq_nil_iff`): a bare value between at-signs makes a
keyword of its own.
-/

namespace Stencil.Placeholder

-- ── Texts without keywords ──────────────────────────────────────────────────

/-- A text without defined keywords is resolved to itself. -/
theorem resolve_eq_self_of_undefined {mappings : Mappings} {text : String}
    (h : ∀ word ∈ keywords text, mappings.get? word = none) : resolve mappings text = text := by
  rw [resolve_eq_substitute, substitute_of_undefined h]

/-- A text of nothing but characters has no keywords. -/
theorem keywords_eq_nil_of_isPlain {text : String} (h : IsPlain text.toList) :
    keywords text = [] := by
  rw [keywords, h, filterMap_keyword?_plain]
  rfl

/-- **Nothing to resolve**: a text refers to no keyword exactly if no mappings change it. -/
theorem keywords_eq_nil_iff {text : String} :
    keywords text = [] ↔ ∀ mappings, resolve mappings text = text := by
  constructor
  · intro h mappings
    refine resolve_eq_self_of_undefined ?_
    rw [h]
    intro word hword
    exact nomatch hword
  · intro h
    obtain ⟨htext, hleft⟩ := leftmost_ofPieces_scan text.toList
    cases hcut : Cut.ofPieces (scan text.toList) with
    | last segment =>
        rw [hcut] at htext hleft
        rw [keywords_of_leftmost htext hleft]
        rfl
    | block segment word behind =>
        -- mapped to the null value, the first keyword leaves no at-sign in its place
        rw [hcut] at htext hleft
        have hsame := h [(String.ofList word, .null)]
        rw [resolve_eq_substitute, substitute_of_leftmost htext hleft] at hsame
        have hchars := String.toList_ofList.symm.trans (congrArg String.toList hsame)
        have hnull : replacement [(String.ofList word, .null)] word = ['n', 'u', 'l', 'l'] := by
          simp [replacement, Members.get?_cons, toList_substitutionText, Document.render]
        rw [← htext] at hchars
        change segment ++ replacement _ word ++ _ = segment ++ placeholder word ++ _ at hchars
        rw [hnull, List.append_assoc, List.append_assoc] at hchars
        have hfirst := (List.cons.inj (List.append_cancel_left hchars)).1
        exact absurd hfirst (by decide)

-- ── Where the keywords of a resolved text come from ─────────────────────────

/-- **Left or put in**: as long as nothing joins, a keyword of a resolved text was left in place
    or stands in a value. -/
theorem mem_keywords_resolve {mappings : Mappings} {text keyword : String}
    (hjoin : ¬ ValuesJoin mappings text) :
    keyword ∈ keywords (resolve mappings text)
      ↔ (keyword ∈ keywords text ∧ mappings.get? keyword = none) ∨
        ∃ word ∈ keywords text, ∃ value, mappings.get? word = some value ∧
          keyword ∈ keywords (substitutionText value) := by
  obtain ⟨htext, hleft⟩ := leftmost_ofPieces_scan text.toList
  rw [keywords_resolve htext hleft hjoin, List.mem_eraseDups, List.mem_flatMap]
  simp only [mem_keywords_of_leftmost htext hleft]
  constructor
  · rintro ⟨word, hword, hkeyword⟩
    cases hvalue : mappings.get? word with
    | none =>
        rw [remaining_of_undefined (Cut.isWord_of_mem_words hleft hword) hvalue,
          List.mem_singleton] at hkeyword
        subst hkeyword
        exact .inl ⟨hword, hvalue⟩
    | some value =>
        exact .inr ⟨word, hword, value, hvalue, (mem_remaining_of_defined hvalue).mp hkeyword⟩
  · rintro (⟨hword, hnone⟩ | ⟨word, hword, value, hvalue, hkeyword⟩)
    · refine ⟨keyword, hword, ?_⟩
      rw [remaining_of_undefined (Cut.isWord_of_mem_words hleft hword) hnone]
      exact List.mem_singleton_self _
    · exact ⟨word, hword, (mem_remaining_of_defined hvalue).mpr hkeyword⟩

/-- **What is missing stays missing**: if nothing joins and the values refer to no keyword that
    is not mapped, the resolved text lacks what the text lacks, in the same order. -/
theorem unresolved_resolve {mappings : Mappings} {text : String}
    (hvalues : ∀ word ∈ keywords text, ∀ value, mappings.get? word = some value →
      unresolved mappings (substitutionText value) = [])
    (hjoin : ¬ ValuesJoin mappings text) :
    unresolved mappings (resolve mappings text) = unresolved mappings text := by
  obtain ⟨htext, hleft⟩ := leftmost_ofPieces_scan text.toList
  let undefined : String → Bool := fun keyword => !mappings.has keyword
  have hremaining : ∀ word ∈ (Cut.ofPieces (scan text.toList)).words,
      (remaining mappings word).filter undefined = [word].filter undefined := by
    intro word hword
    cases hvalue : mappings.get? word with
    | none => rw [remaining_of_undefined (Cut.isWord_of_mem_words hleft hword) hvalue]
    | some value =>
        have hknown : undefined word = false := by
          simp [undefined, Members.has_eq_isSome_get?, hvalue]
        have hnone := List.filter_eq_nil_iff.mp
          (hvalues word ((mem_keywords_of_leftmost htext hleft).mpr hword) value hvalue)
        rw [List.filter_cons_of_neg (by simp [hknown]), List.filter_nil,
          List.filter_eq_nil_iff]
        intro other hother
        exact hnone other ((mem_remaining_of_defined hvalue).mp hother)
  show (keywords (resolve mappings text)).filter undefined = (keywords text).filter undefined
  rw [keywords_resolve htext hleft hjoin, keywords_of_leftmost htext hleft, filter_eraseDups,
    filter_eraseDups, List.filter_flatMap, List.flatMap_congr hremaining, ← List.filter_flatMap,
    List.flatMap_singleton']

-- ── Fenced values ───────────────────────────────────────────────────────────

/-- Fenced values never join. -/
theorem not_valuesJoin_of_fenced {mappings : Mappings} {text : String}
    (h : ∀ word ∈ keywords text, ∀ value, mappings.get? word = some value →
      value.kind ∈ fencedKinds) : ¬ ValuesJoin mappings text := by
  obtain ⟨htext, hleft⟩ := leftmost_ofPieces_scan text.toList
  refine Cut.not_joins_of_not_isWord fun word hword => ?_
  have hmapped := h word ((mem_keywords_of_leftmost htext hleft).mpr hword)
  rw [replacement, String.ofList_toList]
  cases hvalue : mappings.get? word with
  | none => exact not_isWord_placeholder _
  | some value =>
      rcases substitutionText_cases value with ⟨-, hfenced⟩ | ⟨hkind, -⟩
      · exact not_isWord_of_fenced hfenced
      · exact absurd (hmapped value hvalue) hkind

/-- **STABLE RESOLUTION**: if every mapped keyword of a text stands for a string, a list or an
    object that refers to no keyword, the resolved text refers to what was not mapped, in the
    same order, and resolving it again changes nothing. -/
theorem resolve_stable {mappings : Mappings} {text : String}
    (h : ∀ word ∈ keywords text, ∀ value, mappings.get? word = some value →
      value.kind ∈ fencedKinds ∧ keywords (substitutionText value) = []) :
    keywords (resolve mappings text) = unresolved mappings text ∧
      resolve mappings (resolve mappings text) = resolve mappings text := by
  have hjoin := not_valuesJoin_of_fenced fun word hword value hvalue =>
    (h word hword value hvalue).1
  have hundefined : ∀ keyword ∈ keywords (resolve mappings text),
      mappings.get? keyword = none := by
    intro keyword hkeyword
    rcases (mem_keywords_resolve hjoin).mp hkeyword with
      ⟨-, hnone⟩ | ⟨word, hword, value, hvalue, hmem⟩
    · exact hnone
    · rw [(h word hword value hvalue).2] at hmem
      exact nomatch hmem
  refine ⟨?_, resolve_eq_self_of_undefined hundefined⟩
  rw [← unresolved_resolve (fun word hword value hvalue => ?_) hjoin, unresolved]
  · refine (List.filter_eq_self.mpr fun keyword hkeyword => ?_).symm
    rw [Members.has_eq_isSome_get?, hundefined keyword hkeyword]
    rfl
  · rw [unresolved, (h word hword value hvalue).2]
    rfl

/-- Fenced values with at-signs in them, and a keyword that is not mapped between them. -/
def fencedMappings : Mappings :=
  [("a", .string "x@@"), ("list", .array [.string "@", .null]),
    ("pair", .object [("k@@", .string "@@\n@@")])]

/-- A text that refers to them, with runs of at-signs around its placeholders. -/
def fencedText : String :=
  "@@@@a@@b@@@@c@@@@list@@@@ @@pair@@@"

/-- Runs of at-signs around two fenced values. What is undefined is all that is left, and resolving
    again changes nothing. -/
theorem resolve_stable_fencedText :
    (∀ word ∈ keywords fencedText, ∀ value, fencedMappings.get? word = some value →
        value.kind ∈ fencedKinds ∧ keywords (substitutionText value) = []) ∧
      resolve fencedMappings fencedText
        = "@@\"x@@\"b@@@@c@@[\"@\",null]@@ \x7b\"k@@\":\"@@\\n@@\"\x7d@" ∧
      keywords (resolve fencedMappings fencedText) = ["c"] ∧
      resolve fencedMappings (resolve fencedMappings fencedText)
        = resolve fencedMappings fencedText := by
  have hfenced : ∀ word ∈ keywords fencedText, ∀ value,
      fencedMappings.get? word = some value →
      value.kind ∈ fencedKinds ∧ keywords (substitutionText value) = [] := by
    have hwords : keywords fencedText = ["a", "c", "list", "pair"] := by decide +kernel
    rw [hwords]
    intro word hword value hvalue
    simp only [List.mem_cons, List.not_mem_nil, or_false] at hword
    rcases hword with rfl | rfl | rfl | rfl
    · obtain rfl := Option.some.inj hvalue
      decide +kernel
    · exact nomatch hvalue
    · obtain rfl := Option.some.inj hvalue
      decide +kernel
    · obtain rfl := Option.some.inj hvalue
      decide +kernel
  obtain ⟨hkeywords, hagain⟩ := resolve_stable hfenced
  exact ⟨hfenced, by decide +kernel, hkeywords.trans (by decide +kernel), hagain⟩

-- ── Complete resolution ─────────────────────────────────────────────────────

/-- **Nothing left**: where every keyword is mapped to a value written without at-signs, a
    keyword can only come about by joining. -/
theorem keywords_resolve_eq_nil_iff {mappings : Mappings} {text : String}
    (h : ∀ word ∈ keywords text, ∃ value, mappings.get? word = some value ∧
      '@' ∉ (substitutionText value).toList) :
    keywords (resolve mappings text) = [] ↔ ¬ ValuesJoin mappings text := by
  constructor
  · intro hnone hjoin
    obtain ⟨htext, hleft⟩ := leftmost_ofPieces_scan text.toList
    have hplain := isPlain_of_keywords_eq_nil hnone
    rw [resolve_eq_substitute, substitute_of_leftmost htext hleft,
      String.toList_ofList] at hplain
    exact Cut.not_isPlain_of_joins hjoin hplain
  · intro hjoin
    refine List.eq_nil_iff_forall_not_mem.mpr fun keyword hkeyword => ?_
    rcases (mem_keywords_resolve hjoin).mp hkeyword with
      ⟨hword, hnone⟩ | ⟨word, hword, value, hvalue, hmem⟩
    · obtain ⟨value, hvalue, -⟩ := h keyword hword
      rw [hnone] at hvalue
      exact nomatch hvalue
    · obtain ⟨found, hfound, hno⟩ := h word hword
      obtain rfl := Option.some.inj (hfound.symm.trans hvalue)
      rw [keywords_eq_nil_of_isPlain (isPlain_of_no_at hno)] at hmem
      exact nomatch hmem

/-- **COMPLETE RESOLUTION**: if every keyword of a text is mapped to a value written without
    at-signs, the resolved text refers to nothing and no mappings change it any more, exactly if
    no value joins with what stands around it. -/
theorem resolve_complete_iff {mappings : Mappings} {text : String}
    (h : ∀ word ∈ keywords text, ∃ value, mappings.get? word = some value ∧
      '@' ∉ (substitutionText value).toList) :
    (keywords (resolve mappings text) = [] ↔ ¬ ValuesJoin mappings text) ∧
      ((∀ others, resolve others (resolve mappings text) = resolve mappings text)
        ↔ ¬ ValuesJoin mappings text) := by
  have hempty := keywords_resolve_eq_nil_iff h
  exact ⟨hempty, keywords_eq_nil_iff.symm.trans hempty⟩

/-- Values of all kinds that are written without at-signs. -/
def bareMappings : Mappings :=
  [("n", .number (.integer 7)), ("yes", .bool true), ("none", .null),
    ("low", .number (.integer (-3))), ("s", .string "x y")]

/-- A text that refers to them, with at-signs or word characters on one side of each. -/
def bareText : String :=
  "@@n@@_@@ @@@@low@@1@@yes@@@@none@@@@@@@@s@@"

/-- Bare values between at-signs that come close to joining, and leave no keyword. -/
theorem resolve_complete_iff_bareText :
    (∀ word ∈ keywords bareText, ∃ value, bareMappings.get? word = some value ∧
        '@' ∉ (substitutionText value).toList) ∧
      ¬ ValuesJoin bareMappings bareText ∧
      resolve bareMappings bareText = "7_@@ @@-31truenull@@@@\"x y\"" ∧
      keywords (resolve bareMappings bareText) = [] ∧
      ∀ others,
        resolve others (resolve bareMappings bareText) = resolve bareMappings bareText := by
  have hbare : ∀ word ∈ keywords bareText, ∃ value,
      bareMappings.get? word = some value ∧ '@' ∉ (substitutionText value).toList := by
    have hwords : keywords bareText = ["n", "low", "yes", "none", "s"] := by decide +kernel
    rw [hwords]
    intro word hword
    simp only [List.mem_cons, List.not_mem_nil, or_false] at hword
    rcases hword with rfl | rfl | rfl | rfl | rfl
    · exact ⟨_, rfl, by decide +kernel⟩
    · exact ⟨_, rfl, by decide +kernel⟩
    · exact ⟨_, rfl, by decide +kernel⟩
    · exact ⟨_, rfl, by decide +kernel⟩
    · exact ⟨_, rfl, by decide +kernel⟩
  have hapart : ¬ ValuesJoin bareMappings bareText := by decide +kernel
  obtain ⟨hempty, hstable⟩ := resolve_complete_iff hbare
  exact ⟨hbare, hapart, by decide +kernel, hempty.mpr hapart, hstable.mpr hapart⟩

/-- **Not every complete resolution is final**: a number between at-signs makes a keyword. -/
theorem not_resolve_complete :
    ¬ ∀ (mappings : Mappings) (text : String),
        (∀ word ∈ keywords text, ∃ value, mappings.get? word = some value ∧
          '@' ∉ (substitutionText value).toList) →
        keywords (resolve mappings text) = [] ∧
          ∀ others, resolve others (resolve mappings text) = resolve mappings text := by
  intro hall
  have hmapped : ∀ word ∈ keywords "@@@@n@@u@@", ∃ value,
      Members.get? [("n", .number (.integer 1))] word = some value ∧
        '@' ∉ (substitutionText value).toList := by
    rw [show keywords "@@@@n@@u@@" = ["n"] by decide +kernel]
    intro word hword
    obtain rfl := List.mem_singleton.mp hword
    exact ⟨_, rfl, by decide +kernel⟩
  have hnone := (hall [("n", .number (.integer 1))] "@@@@n@@u@@" hmapped).1
  exact absurd hnone (by decide +kernel)

end Stencil.Placeholder
