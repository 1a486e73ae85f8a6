import Stencil.Proofs.Placeholder.Resolution

/-!
# Locality — no placeholder reaches across a separator

A placeholder is made of word characters and at-signs. Any other character is a separator:
a text falls into two at it, and scanning or resolving the whole is scanning or resolving the
two sides (`scan_append_separator`, `resolved_append_separator`). A text whose scan finds no
keyword is resolved to itself, and writing it with the escapes of a quoted string adds no
placeholder to it (`isPlain_escaped`): an escape begins with a separator and holds no at-sign.
-/

namespace Stencil.Placeholder

/-- A character that no placeholder holds. -/
def IsSeparator (c : Char) : Prop :=
  isWordChar c = false ∧ c ≠ '@'

instance (c : Char) : Decidable (IsSeparator c) :=
  inferInstanceAs (Decidable (_ ∧ _))

/-- The characters of a text once it is resolved. -/
def resolved (mappings : Mappings) (text : List Char) : List Char :=
  (scan text).flatMap (Piece.resolved mappings)

/-- The text refers to no keyword. -/
def IsPlain (text : List Char) : Prop :=
  scan text = text.map .plain

theorem resolve_eq_ofList_resolved (mappings : Mappings) (text : String) :
    resolve mappings text = String.ofList (resolved mappings text.toList) :=
  resolve_eq_substitute mappings text

-- ── Separators ──────────────────────────────────────────────────────────────

/-- No separator stands in a placeholder. -/
theorem not_isSeparator_of_mem_placeholder {c : Char} {word : List Char} (hword : IsWord word)
    (h : c ∈ placeholder word) : ¬ IsSeparator c := by
  rintro ⟨hnot, hat⟩
  simp only [placeholder, List.mem_cons, List.mem_append, List.not_mem_nil, or_false] at h
  rcases h with (h | h | h) | h | h
  · exact hat h
  · exact hat h
  · rw [hword.2 c h] at hnot
    exact Bool.noConfusion hnot
  · exact hat h
  · exact hat h

/-- A placeholder that opens a text ends before the first separator. -/
theorem opens_of_opens_append {text behind : List Char} {c : Char} (hc : IsSeparator c)
    (h : Opens (text ++ c :: behind)) : Opens text := by
  obtain ⟨word, after, hword, heq⟩ := h
  rcases List.append_eq_append_iff.mp heq with ⟨between, hholder, hrest⟩ | ⟨between, htext, -⟩
  · -- the placeholder is longer than the text, so it would have to hold the separator
    cases between with
    | nil => exact ⟨word, [], hword, by rw [hholder]; simp⟩
    | cons d between =>
        obtain ⟨rfl, -⟩ := List.cons.inj hrest
        have hmem : c ∈ placeholder word := by
          rw [hholder]
          exact List.mem_append_right _ (List.mem_cons_self ..)
        exact absurd hc (not_isSeparator_of_mem_placeholder hword hmem)
  · exact ⟨word, between, hword, htext⟩

/-- Only an at-sign opens a placeholder. -/
theorem not_opens_cons {c : Char} {rest : List Char} (hc : c ≠ '@') : ¬ Opens (c :: rest) := by
  rintro ⟨word, behind, -, heq⟩
  exact hc (List.cons.inj heq).1

/-- Any other character than an at-sign stands for itself. -/
theorem scan_cons_of_ne_at {c : Char} {rest : List Char} (hc : c ≠ '@') :
    scan (c :: rest) = .plain c :: scan rest :=
  scan_cons_of_not_opens (not_opens_cons hc)

/-- **A separator splits the scan.** -/
theorem scan_append_separator {c : Char} (hc : IsSeparator c) (text behind : List Char) :
    scan (text ++ c :: behind) = scan text ++ .plain c :: scan behind := by
  fun_induction scan text with
  | case1 text word after hopen ih =>
      obtain ⟨hword, rfl⟩ := opening?_eq_some_iff.mp hopen
      rw [List.append_assoc, scan_placeholder hword, ih]
      rfl
  | case2 hopen => exact scan_cons_of_ne_at hc.2
  | case3 d rest hopen ih =>
      have hnot : ¬ Opens (d :: (rest ++ c :: behind)) := by
        intro h
        have hwhole : Opens ((d :: rest) ++ c :: behind) := h
        exact opening?_eq_none_iff.mp hopen (opens_of_opens_append hc hwhole)
      rw [List.cons_append, scan_cons_of_not_opens hnot, ih]
      rfl

/-- **Resolution is local**: the two sides of a separator are resolved each by itself. -/
theorem resolved_append_separator (mappings : Mappings) {c : Char} (hc : IsSeparator c)
    (text behind : List Char) :
    resolved mappings (text ++ c :: behind)
      = resolved mappings text ++ c :: resolved mappings behind := by
  rw [resolved, scan_append_separator hc, List.flatMap_append, List.flatMap_cons]
  rfl

/-- Any other character than an at-sign is kept. -/
theorem resolved_cons_of_ne_at (mappings : Mappings) {c : Char} (hc : c ≠ '@')
    (rest : List Char) : resolved mappings (c :: rest) = c :: resolved mappings rest := by
  rw [resolved, scan_cons_of_ne_at hc, List.flatMap_cons]
  rfl

theorem resolved_nil (mappings : Mappings) : resolved mappings [] = [] := by
  rw [resolved, scan_nil]
  rfl

/-- A placeholder alone becomes what its word is mapped to. -/
theorem resolved_placeholder {mappings : Mappings} {word : List Char} (hword : IsWord word) :
    resolved mappings (placeholder word) = replacement mappings word := by
  rw [resolved, scan_placeholder_alone hword, List.flatMap_cons, List.flatMap_nil,
    List.append_nil, resolved_keyword]

-- ── Plain texts ─────────────────────────────────────────────────────────────

/-- A text without keywords is resolved to itself. -/
theorem resolved_of_isPlain (mappings : Mappings) {text : List Char} (h : IsPlain text) :
    resolved mappings text = text := by
  rw [resolved, h, flatMap_resolved_plain]

/-- Text without at-signs is scanned by itself. -/
theorem scan_append_of_no_at {text : List Char} (h : '@' ∉ text) (behind : List Char) :
    scan (text ++ behind) = text.map .plain ++ scan behind := by
  induction text with
  | nil => rfl
  | cons c text ih =>
      rw [List.mem_cons, not_or] at h
      rw [List.cons_append, scan_cons_of_ne_at (Ne.symm h.1), ih h.2]
      rfl

/-- Text without at-signs has no keywords. -/
theorem isPlain_of_no_at {text : List Char} (h : '@' ∉ text) : IsPlain text := by
  have hscan := scan_append_of_no_at h []
  rw [List.append_nil, scan_nil, List.append_nil] at hscan
  exact hscan

/-- Without keywords every piece of the scan is a character. -/
theorem isPlain_of_keywords_eq_nil {text : String} (h : keywords text = []) :
    IsPlain text.toList := by
  obtain ⟨cut, ⟨htext, hleft⟩, -⟩ := existsUnique_leftmost text.toList
  rw [keywords_of_leftmost htext hleft] at h
  rw [IsPlain, ← htext, scan_text_of_leftmost hleft]
  cases cut with
  | last segment => rfl
  | block segment word behind =>
      have hmem : String.ofList word ∈ (Cut.block segment word behind).words.eraseDups :=
        List.mem_eraseDups.mpr (List.mem_cons_self ..)
      rw [h] at hmem
      exact nomatch hmem

/-- A text without keywords opens with no placeholder. -/
theorem not_opens_of_isPlain {c : Char} {rest : List Char} (h : IsPlain (c :: rest)) :
    ¬ Opens (c :: rest) := by
  rintro ⟨word, behind, hword, heq⟩
  rw [IsPlain, heq, scan_placeholder hword] at h
  exact nomatch h

theorem isPlain_of_cons {c : Char} {rest : List Char} (h : IsPlain (c :: rest)) :
    IsPlain rest := by
  have hscan := h
  rw [IsPlain, scan_cons_of_not_opens (not_opens_of_isPlain h)] at hscan
  exact (List.cons.inj hscan).2

-- ── Escapes ─────────────────────────────────────────────────────────────────

theorem hexDigit_ne_at : ∀ n < 16, hexDigit n ≠ '@' := by decide

/-- A character stands for itself in a quoted string, or its escape holds no at-sign. -/
theorem escapeChar_cases (c : Char) :
    escapeChar c = [c] ∧ c ≠ '\\' ∨
      ∃ rest, escapeChar c = '\\' :: rest ∧ '@' ∉ rest := by
  unfold escapeChar
  split
  · exact Or.inr ⟨['"'], rfl, by decide⟩
  · exact Or.inr ⟨['\\'], rfl, by decide⟩
  · exact Or.inr ⟨['b'], rfl, by decide⟩
  · exact Or.inr ⟨['f'], rfl, by decide⟩
  · exact Or.inr ⟨['n'], rfl, by decide⟩
  · exact Or.inr ⟨['r'], rfl, by decide⟩
  · exact Or.inr ⟨['t'], rfl, by decide⟩
  · next hquote hbackslash _ _ _ _ _ =>
      split
      · next hcontrol =>
          refine Or.inr ⟨_, rfl, ?_⟩
          have hhigh := hexDigit_ne_at (c.toNat / 16) (by omega)
          have hlow := hexDigit_ne_at (c.toNat % 16) (by omega)
          simp only [List.mem_cons, List.not_mem_nil, or_false, not_or]
          exact ⟨by decide, by decide, by decide, Ne.symm hhigh, Ne.symm hlow⟩
      · exact Or.inl ⟨rfl, hbackslash⟩

/-- What stands in an escaped text before any backslash stood in the text itself. -/
theorem eq_append_of_escaped_eq_append {text front behind : List Char}
    (hfront : ∀ c ∈ front, c ≠ '\\') (h : text.flatMap escapeChar = front ++ behind) :
    ∃ rest, text = front ++ rest := by
  induction front generalizing text with
  | nil => exact ⟨text, rfl⟩
  | cons c front ih =>
      cases text with
      | nil => exact nomatch h
      | cons d text =>
          rw [List.flatMap_cons] at h
          rcases escapeChar_cases d with ⟨hself, -⟩ | ⟨rest, hescape, -⟩
          · rw [hself] at h
            obtain ⟨rfl, htail⟩ := List.cons.inj h
            obtain ⟨rest, rfl⟩ :=
              ih (fun e he => hfront e (List.mem_cons_of_mem _ he)) htail
            exact ⟨rest, rfl⟩
          · rw [hescape] at h
            have hc : c = '\\' := (List.cons.inj h).1.symm
            exact absurd hc (hfront c (List.mem_cons_self ..))

/-- No backslash stands in a placeholder. -/
theorem not_backslash_of_mem_placeholder {word : List Char} (hword : IsWord word) :
    ∀ c ∈ placeholder word, c ≠ '\\' := by
  rintro c hc rfl
  exact not_isSeparator_of_mem_placeholder hword hc (by decide)

/-- An escaped text opens with a placeholder only if the text does. -/
theorem opens_of_opens_escaped {text : List Char} (h : Opens (text.flatMap escapeChar)) :
    Opens text := by
  obtain ⟨word, behind, hword, heq⟩ := h
  obtain ⟨rest, htext⟩ :=
    eq_append_of_escaped_eq_append (not_backslash_of_mem_placeholder hword) heq
  exact ⟨word, rest, hword, htext⟩

/-- **Escapes add no placeholder.** -/
theorem isPlain_escaped {text : List Char} (h : IsPlain text) :
    IsPlain (text.flatMap escapeChar) := by
  induction text with
  | nil => exact scan_nil
  | cons c text ih =>
      have htail : IsPlain (text.flatMap escapeChar) := ih (isPlain_of_cons h)
      have hopens : ¬ Opens ((c :: text).flatMap escapeChar) := fun hopen =>
        not_opens_of_isPlain h (opens_of_opens_escaped hopen)
      rw [List.flatMap_cons] at hopens ⊢
      rcases escapeChar_cases c with ⟨hself, -⟩ | ⟨rest, hescape, hrest⟩
      · rw [hself, List.singleton_append] at hopens ⊢
        rw [IsPlain, scan_cons_of_not_opens hopens, htail]
        rfl
      · have hno : '@' ∉ escapeChar c := by
          rw [hescape, List.mem_cons, not_or]
          exact ⟨by decide, hrest⟩
        rw [IsPlain, scan_append_of_no_at hno, htail, List.map_append]

/-- Quotes keep a text without keywords from its surroundings. -/
theorem isPlain_quoted {text : String} (h : keywords text = []) : IsPlain (quoted text) := by
  have hplain := isPlain_escaped (isPlain_of_keywords_eq_nil h)
  have hquote : IsSeparator '"' := by decide
  show scan ('"' :: (text.toList.flatMap escapeChar ++ '"' :: []))
    = ('"' :: (text.toList.flatMap escapeChar ++ '"' :: [])).map .plain
  rw [scan_cons_of_ne_at hquote.2, scan_append_separator hquote, hplain, scan_nil, List.map_cons,
    List.map_append, List.map_cons, List.map_nil]

/-- A quoted text without keywords is resolved to itself. -/
theorem resolved_quoted (mappings : Mappings) {text : String} (h : keywords text = []) :
    resolved mappings (quoted text) = quoted text :=
  resolved_of_isPlain mappings (isPlain_quoted h)

end Stencil.Placeholder
