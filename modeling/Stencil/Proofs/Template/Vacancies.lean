import Stencil.Proofs.Placeholder.Joining
import Stencil.Proofs.Template.Filling

/-!
# Vacancies — holes that nothing fills

A hole is vacant if its word is not mapped: its placeholder stays in the resolved source. The
words that a resolved source mentions are those of its vacant holes, in order
(`mentioned_resolved_source`), as long as the values that fill the others mention none.

Which hole is the first vacant one is a relation with one line for each way down the template
(`FirstVacancy`). It keeps what stands in the source in front of that hole and behind it, and both
sides are resolved each by itself (`FirstVacancy.resolved_source`).
-/

namespace Stencil

open Placeholder

-- ── Mentions ────────────────────────────────────────────────────────────────

namespace Placeholder

/-- The words that a text refers to, at every place where it does. -/
def mentioned (text : List Char) : List String :=
  (scan text).filterMap Piece.keyword?

/-- A text without keywords mentions none. -/
theorem mentioned_of_isPlain {text : List Char} (h : IsPlain text) : mentioned text = [] := by
  rw [mentioned, h, filterMap_keyword?_plain]

theorem mentioned_of_resolved_plain {mappings : Mappings} {text : List Char} (h : IsPlain text) :
    mentioned (resolved mappings text) = [] := by
  rw [resolved_of_isPlain mappings h, mentioned_of_isPlain h]

/-- A placeholder mentions its word. -/
theorem mentioned_placeholder {word : String} (h : IsWord word.toList) :
    mentioned (placeholder word.toList) = [word] := by
  rw [mentioned, scan_placeholder_alone h]
  show [String.ofList word.toList] = [word]
  rw [String.ofList_toList]

theorem mentioned_cons_of_ne_at {c : Char} (hc : c ≠ '@') (rest : List Char) :
    mentioned (c :: rest) = mentioned rest := by
  rw [mentioned, scan_cons_of_ne_at hc, List.filterMap_cons_none rfl]
  rfl

/-- The sides of a separator mention their keywords by themselves. -/
theorem mentioned_append_separator {c : Char} (hc : IsSeparator c) (text behind : List Char) :
    mentioned (text ++ c :: behind) = mentioned text ++ mentioned behind := by
  rw [mentioned, scan_append_separator hc, List.filterMap_append, List.filterMap_cons_none rfl]
  rfl

theorem mentioned_nil : mentioned [] = [] := by
  rw [mentioned, scan_nil]
  rfl

end Placeholder

namespace Template

/-- The same of what follows behind a comma, if anything does. -/
theorem mentioned_append_following {α : Type} (following : List α) {text behind : List Char}
    (h : following = [] → behind = []) :
    mentioned (text ++ (separator following ++ behind)) = mentioned text ++ mentioned behind := by
  cases following with
  | nil =>
      rw [h rfl, mentioned_nil]
      simp [separator]
  | cons next following =>
      rw [separator, List.singleton_append, mentioned_append_separator isSeparator_comma]

-- ── What holes are filled with ──────────────────────────────────────────────

/-- What a word is mapped to; the null value if it is not. -/
def valueOf (mappings : Mappings) (word : String) : Document :=
  (mappings.get? word).getD .null

/-- The values of these words are exact and refer to no keyword. -/
def PlainValues (mappings : Mappings) (words : List String) : Prop :=
  ∀ word ∈ words, ∀ value, mappings.get? word = some value →
    value.Exact ∧ keywords (substitutionText value) = []

/-- All of these words are mapped. -/
def AllMapped (mappings : Mappings) (words : List String) : Prop :=
  ∀ word ∈ words, mappings.has word = true

variable {mappings : Mappings}

theorem PlainValues.left {words others : List String}
    (h : PlainValues mappings (words ++ others)) : PlainValues mappings words :=
  fun word hword => h word (List.mem_append_left _ hword)

theorem PlainValues.right {words others : List String}
    (h : PlainValues mappings (words ++ others)) : PlainValues mappings others :=
  fun word hword => h word (List.mem_append_right _ hword)

theorem get?_of_has {word : String} (h : mappings.has word = true) :
    mappings.get? word = some (valueOf mappings word) := by
  rw [Members.has_eq_isSome_get?, Option.isSome_iff_exists] at h
  obtain ⟨value, hvalue⟩ := h
  rw [valueOf, hvalue]
  rfl

theorem get?_of_not_has {word : String} (h : mappings.has word = false) :
    mappings.get? word = none := by
  rw [Members.has_eq_isSome_get?] at h
  exact Option.isNone_iff_eq_none.mp (by rw [← Option.not_isSome, h]; rfl)

theorem AllMapped.get? {words : List String} (h : AllMapped mappings words) :
    ∀ word ∈ words, mappings.get? word = some (valueOf mappings word) :=
  fun word hword => get?_of_has (h word hword)

theorem AllMapped.exact {words : List String} (h : AllMapped mappings words)
    (hvalues : PlainValues mappings words) : ∀ word ∈ words, (valueOf mappings word).Exact :=
  fun word hword => (hvalues word hword _ (h.get? word hword)).1

/-- A vacant hole keeps its placeholder. -/
theorem resolved_vacant {word : String} (hword : IsWord word.toList)
    (h : mappings.has word = false) :
    resolved mappings (placeholder word.toList) = placeholder word.toList := by
  have hnone : mappings.get? (String.ofList word.toList) = none := by
    rw [String.ofList_toList]
    exact get?_of_not_has h
  rw [resolved_placeholder hword, replacement_of_undefined hnone]

mutual

/-- **What a resolved source mentions** are the words of its vacant holes, in order. -/
theorem mentioned_resolved_source :
    ∀ template : Template, template.WellFormed → PlainValues mappings template.holes →
      mentioned (resolved mappings template.source)
        = template.holes.filter fun word => !mappings.has word
  | .hole word, h, hvalues => by
      rw [source, holes]
      cases hmapped : mappings.has word with
      | true =>
          have hvalue := get?_of_has hmapped
          have hplain := (hvalues word (List.mem_cons_self ..) _ hvalue).2
          have hnone := mentioned_of_isPlain (isPlain_of_keywords_eq_nil hplain)
          rw [toList_substitutionText] at hnone
          rw [resolved_hole h hvalue, hnone]
          simp [hmapped]
      | false =>
          rw [resolved_vacant h hmapped, mentioned_placeholder h]
          simp [hmapped]
  | .null, _, _ => mentioned_of_resolved_plain (isPlain_of_no_at (by decide))
  | .bool true, _, _ => mentioned_of_resolved_plain (isPlain_of_no_at (by decide))
  | .bool false, _, _ => mentioned_of_resolved_plain (isPlain_of_no_at (by decide))
  | .number value, _, _ => mentioned_of_resolved_plain (isPlain_of_no_at value.at_not_mem_text)
  | .string value, h, _ => mentioned_of_resolved_plain (isPlain_quoted h)
  | .array items, h, hvalues => by
      rw [resolved_source_array, mentioned_cons_of_ne_at (by decide),
        mentioned_append_separator isSeparator_bracket,
        mentioned_resolved_sourceOfItems items h hvalues, mentioned_nil, List.append_nil]
      rfl
  | .object members, h, hvalues => by
      rw [resolved_source_object, mentioned_cons_of_ne_at (by decide),
        mentioned_append_separator isSeparator_brace,
        mentioned_resolved_sourceOfMembers members h hvalues, mentioned_nil, List.append_nil]
      rfl

theorem mentioned_resolved_sourceOfItems :
    ∀ items : List Template, WellFormedItems items →
      PlainValues mappings (holesOfItems items) →
      mentioned (resolved mappings (sourceOfItems items))
        = (holesOfItems items).filter fun word => !mappings.has word
  | [], _, _ => mentioned_of_resolved_plain (isPlain_of_no_at List.not_mem_nil)
  | item :: items, h, hvalues => by
      obtain ⟨hitem, hitems⟩ := h
      rw [resolved_sourceOfItems_cons,
        mentioned_append_following items (by rintro rfl; exact resolved_nil mappings),
        mentioned_resolved_source item hitem hvalues.left,
        mentioned_resolved_sourceOfItems items hitems hvalues.right, holesOfItems,
        List.filter_append]

theorem mentioned_resolved_sourceOfMembers :
    ∀ members : List (String × Template), WellFormedMembers members →
      PlainValues mappings (holesOfMembers members) →
      mentioned (resolved mappings (sourceOfMembers members))
        = (holesOfMembers members).filter fun word => !mappings.has word
  | [], _, _ => mentioned_of_resolved_plain (isPlain_of_no_at List.not_mem_nil)
  | (name, value) :: members, h, hvalues => by
      obtain ⟨hname, hvalue, hmembers⟩ := h
      rw [resolved_sourceOfMembers_cons, mentioned_append_separator isSeparator_colon,
        mentioned_of_resolved_plain (isPlain_quoted hname), List.nil_append,
        mentioned_append_following members (by rintro rfl; exact resolved_nil mappings),
        mentioned_resolved_source value hvalue hvalues.left,
        mentioned_resolved_sourceOfMembers members hmembers hvalues.right, holesOfMembers,
        List.filter_append]

end

-- ── The first vacant hole ───────────────────────────────────────────────────

mutual

/-- **The first vacancy** of a template: a hole whose word is not mapped, behind holes that are
    all filled, with the source in front of it and behind it. -/
inductive FirstVacancy (mappings : Mappings) :
    Template → List Char → String → List Char → Prop where
  | hole {word : String} (h : mappings.has word = false) :
      FirstVacancy mappings (.hole word) [] word []
  | array {items : List Template} {before behind : List Char} {word : String}
      (h : FirstVacancyOfItems mappings items before word behind) :
      FirstVacancy mappings (.array items) ('[' :: before) word (behind ++ [']'])
  | object {members : List (String × Template)} {before behind : List Char} {word : String}
      (h : FirstVacancyOfMembers mappings members before word behind) :
      FirstVacancy mappings (.object members) ('{' :: before) word (behind ++ ['}'])

/-- The first vacancy among items. -/
inductive FirstVacancyOfItems (mappings : Mappings) :
    List Template → List Char → String → List Char → Prop where
  | here {item : Template} {items : List Template} {before behind : List Char} {word : String}
      (h : FirstVacancy mappings item before word behind) :
      FirstVacancyOfItems mappings (item :: items) before word
        (behind ++ (separator items ++ sourceOfItems items))
  | there {item : Template} {items : List Template} {before behind : List Char} {word : String}
      (hitem : AllMapped mappings item.holes)
      (h : FirstVacancyOfItems mappings items before word behind) :
      FirstVacancyOfItems mappings (item :: items) (item.source ++ ',' :: before) word behind

/-- The first vacancy among members. -/
inductive FirstVacancyOfMembers (mappings : Mappings) :
    List (String × Template) → List Char → String → List Char → Prop where
  | here {name : String} {value : Template} {members : List (String × Template)}
      {before behind : List Char} {word : String}
      (h : FirstVacancy mappings value before word behind) :
      FirstVacancyOfMembers mappings ((name, value) :: members) (quoted name ++ ':' :: before) word
        (behind ++ (separator members ++ sourceOfMembers members))
  | there {name : String} {value : Template} {members : List (String × Template)}
      {before behind : List Char} {word : String}
      (hvalue : AllMapped mappings value.holes)
      (h : FirstVacancyOfMembers mappings members before word behind) :
      FirstVacancyOfMembers mappings ((name, value) :: members)
        (quoted name ++ ':' :: (value.source ++ ',' :: before)) word behind

end

theorem FirstVacancyOfItems.ne_nil {items : List Template} {before behind : List Char}
    {word : String} (h : FirstVacancyOfItems mappings items before word behind) : items ≠ [] := by
  rintro rfl
  exact nomatch h

theorem FirstVacancyOfMembers.ne_nil {members : List (String × Template)}
    {before behind : List Char} {word : String}
    (h : FirstVacancyOfMembers mappings members before word behind) : members ≠ [] := by
  rintro rfl
  exact nomatch h

/-- If the first words are mapped, one of the others is not. -/
theorem not_allMapped_append {words others : List String} (h : AllMapped mappings words)
    (hvacant : ¬ AllMapped mappings (words ++ others)) : ¬ AllMapped mappings others := by
  intro hothers
  refine hvacant fun word hword => ?_
  rcases List.mem_append.mp hword with hmem | hmem
  · exact h word hmem
  · exact hothers word hmem

mutual

/-- **There is a first vacancy** if not all holes are filled. -/
theorem exists_firstVacancy :
    ∀ template : Template, ¬ AllMapped mappings template.holes →
      ∃ before word behind, FirstVacancy mappings template before word behind
  | .hole word, h => by
      have hvacant : mappings.has word = false := by
        by_contra hmapped
        refine h fun other hother => ?_
        obtain rfl := List.mem_singleton.mp hother
        exact Bool.not_eq_false _ ▸ hmapped
      exact ⟨[], word, [], .hole hvacant⟩
  | .null, h => absurd (fun _ hword => nomatch hword) h
  | .bool _, h => absurd (fun _ hword => nomatch hword) h
  | .number _, h => absurd (fun _ hword => nomatch hword) h
  | .string _, h => absurd (fun _ hword => nomatch hword) h
  | .array items, h => by
      obtain ⟨before, word, behind, hfirst⟩ := exists_firstVacancyOfItems items h
      exact ⟨_, _, _, .array hfirst⟩
  | .object members, h => by
      obtain ⟨before, word, behind, hfirst⟩ := exists_firstVacancyOfMembers members h
      exact ⟨_, _, _, .object hfirst⟩

theorem exists_firstVacancyOfItems :
    ∀ items : List Template, ¬ AllMapped mappings (holesOfItems items) →
      ∃ before word behind, FirstVacancyOfItems mappings items before word behind
  | [], h => absurd (fun _ hword => nomatch hword) h
  | item :: items, h => by
      by_cases hitem : AllMapped mappings item.holes
      · obtain ⟨before, word, behind, hfirst⟩ :=
          exists_firstVacancyOfItems items (not_allMapped_append hitem h)
        exact ⟨_, _, _, .there hitem hfirst⟩
      · obtain ⟨before, word, behind, hfirst⟩ := exists_firstVacancy item hitem
        exact ⟨_, _, _, .here hfirst⟩

theorem exists_firstVacancyOfMembers :
    ∀ members : List (String × Template), ¬ AllMapped mappings (holesOfMembers members) →
      ∃ before word behind, FirstVacancyOfMembers mappings members before word behind
  | [], h => absurd (fun _ hword => nomatch hword) h
  | (name, value) :: members, h => by
      by_cases hvalue : AllMapped mappings value.holes
      · obtain ⟨before, word, behind, hfirst⟩ :=
          exists_firstVacancyOfMembers members (not_allMapped_append hvalue h)
        exact ⟨_, _, _, .there hvalue hfirst⟩
      · obtain ⟨before, word, behind, hfirst⟩ := exists_firstVacancy value hvalue
        exact ⟨_, _, _, .here hfirst⟩

end

/-- Among mapped words no vacant one is found. -/
theorem find?_eq_none_of_allMapped {words : List String} (h : AllMapped mappings words) :
    words.find? (fun word => !mappings.has word) = none := by
  rw [List.find?_eq_none]
  intro word hword
  rw [h word hword]
  exact Bool.false_ne_true

mutual

/-- Its word is the first of the holes that is not mapped. -/
theorem FirstVacancy.find?_holes {template : Template} {before behind : List Char}
    {word : String} :
    FirstVacancy mappings template before word behind →
      template.holes.find? (fun word => !mappings.has word) = some word
  | .hole h => List.find?_cons_of_pos (by rw [h]; rfl)
  | .array h => h.find?_holes
  | .object h => h.find?_holes

theorem FirstVacancyOfItems.find?_holes {items : List Template} {before behind : List Char}
    {word : String} :
    FirstVacancyOfItems mappings items before word behind →
      (holesOfItems items).find? (fun word => !mappings.has word) = some word
  | .here h => by rw [holesOfItems, List.find?_append, h.find?_holes]; rfl
  | .there hitem h => by
      rw [holesOfItems, List.find?_append, find?_eq_none_of_allMapped hitem, Option.none_or,
        h.find?_holes]

theorem FirstVacancyOfMembers.find?_holes {members : List (String × Template)}
    {before behind : List Char} {word : String} :
    FirstVacancyOfMembers mappings members before word behind →
      (holesOfMembers members).find? (fun word => !mappings.has word) = some word
  | .here h => by rw [holesOfMembers, List.find?_append, h.find?_holes]; rfl
  | .there hvalue h => by
      rw [holesOfMembers, List.find?_append, find?_eq_none_of_allMapped hvalue, Option.none_or,
        h.find?_holes]

end

mutual

/-- The hole of a vacancy is a word. -/
theorem FirstVacancy.isWord {template : Template} {before behind : List Char} {word : String} :
    FirstVacancy mappings template before word behind → template.WellFormed → IsWord word.toList
  | .hole _, hwell => hwell
  | .array h, hwell => h.isWord hwell
  | .object h, hwell => h.isWord hwell

theorem FirstVacancyOfItems.isWord {items : List Template} {before behind : List Char}
    {word : String} :
    FirstVacancyOfItems mappings items before word behind → WellFormedItems items →
      IsWord word.toList
  | .here h, hwell => h.isWord hwell.1
  | .there _ h, hwell => h.isWord hwell.2

theorem FirstVacancyOfMembers.isWord {members : List (String × Template)}
    {before behind : List Char} {word : String} :
    FirstVacancyOfMembers mappings members before word behind → WellFormedMembers members →
      IsWord word.toList
  | .here h, hwell => h.isWord hwell.2.1
  | .there _ h, hwell => h.isWord hwell.2.2

end

mutual

/-- **A source falls apart at its first vacancy**, whatever it is resolved with: what stands in
    front, the placeholder and what stands behind are resolved each by itself. -/
theorem FirstVacancy.resolved_source (others : Mappings) {template : Template}
    {before behind : List Char} {word : String} :
    FirstVacancy mappings template before word behind →
      resolved others template.source
        = resolved others before ++ (resolved others (placeholder word.toList)
          ++ resolved others behind)
  | .hole _ => by rw [source, resolved_nil, List.nil_append, List.append_nil]
  | .array h => by
      rw [resolved_source_array, h.resolved_source others, resolved_cons_of_ne_at others (by decide),
        resolved_append_separator others isSeparator_bracket, resolved_nil]
      simp
  | .object h => by
      rw [resolved_source_object, h.resolved_source others,
        resolved_cons_of_ne_at others (by decide),
        resolved_append_separator others isSeparator_brace, resolved_nil]
      simp

theorem FirstVacancyOfItems.resolved_source (others : Mappings) {items : List Template}
    {before behind : List Char} {word : String} :
    FirstVacancyOfItems mappings items before word behind →
      resolved others (sourceOfItems items)
        = resolved others before ++ (resolved others (placeholder word.toList)
          ++ resolved others behind)
  | .here h => by
      rw [resolved_sourceOfItems_cons, h.resolved_source others,
        resolved_append_following others _ sourceOfItems_of_nil]
      simp
  | .there _ h => by
      obtain ⟨next, items, rfl⟩ := List.exists_cons_of_ne_nil h.ne_nil
      rw [resolved_sourceOfItems_cons, h.resolved_source others,
        resolved_append_separator others isSeparator_comma]
      simp [separator]

theorem FirstVacancyOfMembers.resolved_source (others : Mappings)
    {members : List (String × Template)} {before behind : List Char} {word : String} :
    FirstVacancyOfMembers mappings members before word behind →
      resolved others (sourceOfMembers members)
        = resolved others before ++ (resolved others (placeholder word.toList)
          ++ resolved others behind)
  | .here h => by
      rw [resolved_sourceOfMembers_cons, h.resolved_source others,
        resolved_append_following others _ sourceOfMembers_of_nil,
        resolved_append_separator others isSeparator_colon]
      simp
  | .there _ h => by
      obtain ⟨next, members, rfl⟩ := List.exists_cons_of_ne_nil h.ne_nil
      rw [resolved_sourceOfMembers_cons, h.resolved_source others,
        resolved_append_separator others isSeparator_colon,
        resolved_append_separator others isSeparator_comma]
      simp [separator]

end

theorem resolved_of_no_mappings (text : List Char) : resolved [] text = text := by
  have hsame := resolve_nil (String.ofList text)
  rw [resolve_eq_ofList_resolved, String.toList_ofList] at hsame
  exact String.ofList_injective hsame

/-- A source is what stands before the vacancy, its placeholder, and what stands behind it. -/
theorem FirstVacancy.source_eq {template : Template} {before behind : List Char} {word : String}
    (h : FirstVacancy mappings template before word behind) :
    template.source = before ++ (placeholder word.toList ++ behind) := by
  have hresolved := h.resolved_source []
  simpa only [resolved_of_no_mappings] using hresolved

theorem FirstVacancy.not_has {template : Template} {before behind : List Char} {word : String}
    (h : FirstVacancy mappings template before word behind) : mappings.has word = false := by
  have hfound := List.find?_some (p := fun word => !mappings.has word) h.find?_holes
  exact Bool.not_eq_true' _ ▸ hfound

/-- The word of a first vacancy is not mapped, so its placeholder stays. -/
theorem FirstVacancy.resolved_source_vacant {template : Template} {before behind : List Char}
    {word : String} (h : FirstVacancy mappings template before word behind)
    (hwell : template.WellFormed) :
    resolved mappings template.source
      = resolved mappings before ++ (placeholder word.toList ++ resolved mappings behind) := by
  rw [h.resolved_source mappings, resolved_vacant (h.isWord hwell) h.not_has]

end Template

end Stencil
