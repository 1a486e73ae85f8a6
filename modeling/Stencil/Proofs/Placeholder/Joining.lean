import Stencil.Proofs.Document.Compact
import Stencil.Proofs.Placeholder.Locality

/-!
# Joining — where a value that is put in runs into the text around it

Resolving a text does not look into what it puts in. Whoever scans the resolved text reads the
values together with what stands around them, and may find a placeholder that neither the text
nor any value holds. This takes much: two at-signs that open nothing in the text, right behind
them a value that is a word itself, and behind it word characters up to two at-signs more
(`Cut.Joins`). Strings, lists and objects are fenced by quotes or brackets and never do it; only
bare values such as `1` or `true` can.

The route: three characters in front of a placeholder already decide whether something opens
there, whatever the placeholder is replaced by (`opens_append_marks`), so only at-signs right in
front of it are left to look at (`not_opens_append_replacement`). Where no value joins, the scan
of the resolved text is that of the segments, of the values and of the placeholders left in
place, one after the other (`scan_filled`). Where one does, the resolved text holds a
placeholder (`not_isPlain_of_joins`).
-/

namespace Stencil.Placeholder

-- ── What is put in ──────────────────────────────────────────────────────────

/-- A text between two separators. -/
def Fenced (text : List Char) : Prop :=
  ∃ c inner d, IsSeparator c ∧ IsSeparator d ∧ text = c :: (inner ++ [d])

/-- The kinds of values that are written between quotes or brackets. -/
def fencedKinds : List Document.Kind :=
  [.string, .array, .object]

/-- A value is put in as its compact text. -/
theorem toList_substitutionText (value : Document) :
    (substitutionText value).toList = value.render .compact 0 :=
  String.toList_ofList

/-- **Values are fenced or bare**: strings, lists and objects stand between separators, all
    other values are written without at-signs. -/
theorem substitutionText_cases (value : Document) :
    (value.kind ∈ fencedKinds ∧ Fenced (substitutionText value).toList) ∨
      (value.kind ∉ fencedKinds ∧ '@' ∉ (substitutionText value).toList ∧
        (substitutionText value).toList ≠ []) := by
  rw [toList_substitutionText]
  cases value with
  | null => exact .inr ⟨by decide, by decide, List.cons_ne_nil _ _⟩
  | bool value =>
      cases value with
      | true => exact .inr ⟨by decide, by decide, List.cons_ne_nil _ _⟩
      | false => exact .inr ⟨by decide, by decide, List.cons_ne_nil _ _⟩
  | number value =>
      exact .inr ⟨by simp [fencedKinds, Document.kind], value.at_not_mem_text, value.text_ne_nil⟩
  | string text =>
      exact .inl ⟨by simp [fencedKinds, Document.kind],
        '"', text.toList.flatMap escapeChar, '"', by decide, by decide, rfl⟩
  | array items =>
      exact .inl ⟨by simp [fencedKinds, Document.kind], '[', _, ']', by decide, by decide,
        Document.render_compact_array items⟩
  | object members =>
      exact .inl ⟨by simp [fencedKinds, Document.kind], '\x7b', _, '\x7d', by decide, by decide,
        Document.render_compact_object members⟩

/-- What stands for a word in a resolved text: its placeholder, a fenced text or a bare one. -/
theorem replacement_cases (mappings : Mappings) (word : List Char) :
    replacement mappings word = placeholder word ∨ Fenced (replacement mappings word) ∨
      ('@' ∉ replacement mappings word ∧ replacement mappings word ≠ []) := by
  unfold replacement
  split
  · next value _ =>
      rcases substitutionText_cases value with ⟨-, hfenced⟩ | ⟨-, hbare⟩
      · exact .inr (.inl hfenced)
      · exact .inr (.inr hbare)
  · exact .inl rfl

/-- A fenced text is no word. -/
theorem not_isWord_of_fenced {text : List Char} (h : Fenced text) : ¬ IsWord text := by
  obtain ⟨c, inner, d, hc, -, rfl⟩ := h
  rintro ⟨-, hall⟩
  have hword := hall c (List.mem_cons_self ..)
  rw [hc.1] at hword
  exact Bool.noConfusion hword

theorem not_isWord_placeholder (word : List Char) : ¬ IsWord (placeholder word) := by
  rintro ⟨-, hall⟩
  have hat := hall '@' (List.mem_cons_self ..)
  rw [not_isWordChar_at] at hat
  exact Bool.noConfusion hat

/-- **Whatever is put in is scanned by itself**, if the scan comes to stand right before it. -/
theorem scan_replacement_append (mappings : Mappings) {word : List Char} (hword : IsWord word)
    (rest : List Char) :
    scan (replacement mappings word ++ rest)
      = scan (replacement mappings word) ++ scan rest := by
  rcases replacement_cases mappings word with hholder | hfenced | ⟨hbare, -⟩
  · rw [hholder, scan_placeholder hword, scan_placeholder_alone hword]
    rfl
  · obtain ⟨c, inner, d, hc, hd, heq⟩ := hfenced
    have hshape : (c :: (inner ++ [d])) ++ rest = c :: (inner ++ d :: rest) := by simp
    rw [heq, hshape, scan_cons_of_ne_at hc.2, scan_cons_of_ne_at hc.2,
      scan_append_separator hd, scan_append_separator hd, scan_nil]
    simp
  · rw [scan_append_of_no_at hbare, isPlain_of_no_at hbare]

-- ── What ends a placeholder ─────────────────────────────────────────────────

/-- Word characters up to two at-signs stand at the front of the text: what a placeholder needs
    to end, once it has its first word character. -/
def Closes (text : List Char) : Prop :=
  ['@', '@'] <+: text.dropWhile isWordChar

instance (text : List Char) : Decidable (Closes text) :=
  inferInstanceAs (Decidable (_ <+: _))

theorem closes_marks (behind : List Char) : Closes ('@' :: '@' :: behind) :=
  ⟨behind, rfl⟩

/-- Word characters are passed on the way to the end. -/
theorem closes_append_of_word {word : List Char} (h : ∀ c ∈ word, isWordChar c = true)
    (rest : List Char) : Closes (word ++ rest) ↔ Closes rest := by
  rw [Closes, Closes, List.dropWhile_append_of_pos h]

theorem closes_cons_of_word {c : Char} (h : isWordChar c = true) (rest : List Char) :
    Closes (c :: rest) ↔ Closes rest := by
  rw [Closes, Closes, List.dropWhile_cons_of_pos h]

/-- Any other character is the first of the two at-signs. -/
theorem closes_cons_of_not_word {c : Char} (h : isWordChar c = false) {rest : List Char} :
    Closes (c :: rest) ↔ c = '@' ∧ ∃ behind, rest = '@' :: behind := by
  rw [Closes, List.dropWhile_cons_of_neg (by simp [h])]
  constructor
  · rintro ⟨behind, heq⟩
    obtain ⟨rfl, hrest⟩ := List.cons.inj heq
    exact ⟨rfl, behind, hrest.symm⟩
  · rintro ⟨rfl, behind, rfl⟩
    exact closes_marks behind

/-- What can end a placeholder is cut by two at-signs at the latest. -/
theorem closes_append_marks {text other : List Char} (h : Closes (text ++ other))
    (behind : List Char) : Closes (text ++ '@' :: '@' :: behind) := by
  induction text with
  | nil => exact closes_marks behind
  | cons c text ih =>
      rw [List.cons_append] at h ⊢
      cases hc : isWordChar c with
      | true =>
          rw [closes_cons_of_word hc] at h ⊢
          exact ih h
      | false =>
          obtain ⟨rfl, after, hafter⟩ := (closes_cons_of_not_word hc).mp h
          refine (closes_cons_of_not_word hc).mpr ⟨rfl, ?_⟩
          cases text with
          | nil => exact ⟨_, rfl⟩
          | cons d text =>
              obtain ⟨rfl, -⟩ := List.cons.inj hafter
              exact ⟨_, rfl⟩

/-- Without at-signs a text can only be passed on the way to the end of a placeholder. -/
theorem closes_append_of_no_at {text rest : List Char} (hno : '@' ∉ text)
    (h : Closes (text ++ rest)) : (∀ c ∈ text, isWordChar c = true) ∧ Closes rest := by
  induction text with
  | nil => exact ⟨fun c hc => absurd hc List.not_mem_nil, h⟩
  | cons c text ih =>
      rw [List.mem_cons, not_or] at hno
      rw [List.cons_append] at h
      cases hc : isWordChar c with
      | true =>
          obtain ⟨hall, hrest⟩ := ih hno.2 ((closes_cons_of_word hc _).mp h)
          exact ⟨List.forall_mem_cons.mpr ⟨hc, hall⟩, hrest⟩
      | false => exact absurd ((closes_cons_of_not_word hc).mp h).1.symm hno.1

/-- **An opening in three parts**: two at-signs, a first word character, and an end. -/
theorem opens_iff {text : List Char} :
    Opens text
      ↔ ∃ c rest, text = '@' :: '@' :: c :: rest ∧ isWordChar c = true ∧ Closes rest := by
  constructor
  · rintro ⟨word, behind, ⟨hne, hall⟩, rfl⟩
    obtain ⟨c, word, rfl⟩ := List.exists_cons_of_ne_nil hne
    obtain ⟨hc, hword⟩ := List.forall_mem_cons.mp hall
    refine ⟨c, word ++ '@' :: '@' :: behind, placeholder_append _ _, hc, ?_⟩
    exact (closes_append_of_word hword _).mpr (closes_marks behind)
  · rintro ⟨c, rest, rfl, hc, behind, hrest⟩
    refine ⟨c :: rest.takeWhile isWordChar, behind, ⟨List.cons_ne_nil _ _, ?_⟩, ?_⟩
    · exact List.forall_mem_cons.mpr ⟨hc, fun d hd => List.mem_takeWhile_imp hd⟩
    · rw [placeholder_append]
      show _ = '@' :: '@' :: c :: (rest.takeWhile isWordChar ++ (['@', '@'] ++ behind))
      rw [hrest, List.takeWhile_append_dropWhile]

-- ── Openings right before what is put in ────────────────────────────────────

/-- From the third character on it does not matter what stands in place of a placeholder. -/
theorem opens_append_marks {a b c : Char} {text other : List Char}
    (h : Opens (a :: b :: c :: (text ++ other))) (behind : List Char) :
    Opens (a :: b :: c :: (text ++ '@' :: '@' :: behind)) := by
  obtain ⟨d, rest, heq, hd, hrest⟩ := opens_iff.mp h
  obtain ⟨rfl, rfl, rfl, rfl⟩ : a = '@' ∧ b = '@' ∧ c = d ∧ text ++ other = rest := by
    simpa using heq
  exact opens_iff.mpr ⟨c, _, rfl, hd, closes_append_marks hrest behind⟩

/-- One character in front of what is put in is not enough to open anything. -/
theorem not_opens_cons_replacement (mappings : Mappings) (a : Char) (word rest : List Char) :
    ¬ Opens (a :: (replacement mappings word ++ rest)) := by
  intro h
  obtain ⟨c, after, heq, hc, -⟩ := opens_iff.mp h
  have hsecond : replacement mappings word ++ rest = '@' :: c :: after := (List.cons.inj heq).2
  rcases replacement_cases mappings word with hholder | hfenced | ⟨hbare, hne⟩
  · rw [hholder] at hsecond
    obtain rfl : '@' = c := (List.cons.inj (List.cons.inj hsecond).2).1
    rw [not_isWordChar_at] at hc
    exact Bool.noConfusion hc
  · obtain ⟨d, inner, e, hd, -, hshape⟩ := hfenced
    rw [hshape] at hsecond
    exact hd.2 (List.cons.inj hsecond).1
  · obtain ⟨d, more, hshape⟩ := List.exists_cons_of_ne_nil hne
    rw [hshape] at hsecond hbare
    obtain rfl : d = '@' := (List.cons.inj hsecond).1
    exact hbare (List.mem_cons_self ..)

/-- **Two characters in front of what is put in**: they open a placeholder only as at-signs, and
    only if what is put in is a word and what follows lets it end. -/
theorem opens_cons_cons_replacement {mappings : Mappings} {a b : Char} {word rest : List Char}
    (h : Opens (a :: b :: (replacement mappings word ++ rest))) :
    a = '@' ∧ b = '@' ∧ IsWord (replacement mappings word) ∧ Closes rest := by
  obtain ⟨c, after, heq, hc, hafter⟩ := opens_iff.mp h
  obtain ⟨rfl, rfl, hthird⟩ :
      a = '@' ∧ b = '@' ∧ replacement mappings word ++ rest = c :: after := by
    simpa using heq
  rcases replacement_cases mappings word with hholder | hfenced | ⟨hbare, hne⟩
  · rw [hholder] at hthird
    obtain rfl : '@' = c := (List.cons.inj hthird).1
    rw [not_isWordChar_at] at hc
    exact Bool.noConfusion hc
  · obtain ⟨d, inner, e, hd, -, hshape⟩ := hfenced
    rw [hshape] at hthird
    obtain rfl : d = c := (List.cons.inj hthird).1
    rw [hd.1] at hc
    exact Bool.noConfusion hc
  · obtain ⟨d, more, hshape⟩ := List.exists_cons_of_ne_nil hne
    rw [hshape] at hthird hbare
    obtain ⟨rfl, rfl⟩ := List.cons.inj hthird
    rw [List.mem_cons, not_or] at hbare
    obtain ⟨hmore, hrest⟩ := closes_append_of_no_at hbare.2 hafter
    rw [hshape]
    exact ⟨rfl, rfl, ⟨List.cons_ne_nil _ _, List.forall_mem_cons.mpr ⟨hc, hmore⟩⟩, hrest⟩

/-- **Replacing a placeholder opens nothing** in front of it, unless two at-signs stand there and
    what is put in joins with them and with what follows. -/
theorem not_opens_append_replacement {mappings : Mappings} {tail word rest behind : List Char}
    (hne : tail ≠ []) (hbefore : ¬ Opens (tail ++ (placeholder word ++ behind)))
    (hjoin : ¬ (tail = ['@', '@'] ∧ IsWord (replacement mappings word) ∧ Closes rest)) :
    ¬ Opens (tail ++ (replacement mappings word ++ rest)) := by
  intro h
  match tail with
  | [] => exact hne rfl
  | [a] => exact not_opens_cons_replacement mappings a word rest h
  | [a, b] =>
      obtain ⟨rfl, rfl, hword, hrest⟩ := opens_cons_cons_replacement h
      exact hjoin ⟨rfl, hword, hrest⟩
  | a :: b :: c :: text =>
      rw [placeholder_append] at hbefore
      exact hbefore (opens_append_marks h (word ++ '@' :: '@' :: behind))

-- ── Joining values ──────────────────────────────────────────────────────────

/-- Filling a cut joins a value with what stands around it: somewhere a segment ends in two
    at-signs, what is put in behind it is a word, and what follows lets a placeholder end. -/
def Cut.Joins (mappings : Mappings) : Cut → Prop
  | last _ => False
  | block segment word behind =>
      (['@', '@'] <:+ segment ∧ IsWord (replacement mappings word) ∧
        Closes (behind.filled (replacement mappings))) ∨
      behind.Joins mappings

instance Cut.decidableJoins (mappings : Mappings) : (cut : Cut) → Decidable (cut.Joins mappings)
  | last _ => inferInstanceAs (Decidable False)
  | block _ _ behind =>
      have := decidableJoins mappings behind
      inferInstanceAs (Decidable (_ ∨ _))

/-- Resolving a text joins a value with what stands around it. -/
def ValuesJoin (mappings : Mappings) (text : String) : Prop :=
  (Cut.ofPieces (scan text.toList)).Joins mappings

instance (mappings : Mappings) (text : String) : Decidable (ValuesJoin mappings text) :=
  Cut.decidableJoins mappings _

/-- Only what is a word itself can join. -/
theorem Cut.not_joins_of_not_isWord {mappings : Mappings} {cut : Cut}
    (h : ∀ word ∈ cut.words, ¬ IsWord (replacement mappings word.toList)) :
    ¬ cut.Joins mappings := by
  induction cut with
  | last segment => exact id
  | block segment word behind ih =>
      have hword := h _ (List.mem_cons_self ..)
      rw [String.toList_ofList] at hword
      rintro (⟨-, hjoin, -⟩ | hbehind)
      · exact hword hjoin
      · exact ih (fun other hother => h other (List.mem_cons_of_mem _ hother)) hbehind

-- ── The scan of a resolved text ─────────────────────────────────────────────

/-- The pieces of a filled cut, as long as nothing joins: the characters of its segments, and
    what a scan finds in whatever stands for its words. -/
def Cut.filledPieces (mappings : Mappings) : Cut → List Piece
  | last segment => segment.map .plain
  | block segment word behind =>
      segment.map .plain ++ (scan (replacement mappings word) ++ behind.filledPieces mappings)

/-- **The scan of a filled cut**: where nothing joins, no placeholder reaches across the ends of
    what was put in. -/
theorem Cut.scan_filled {mappings : Mappings} {cut : Cut} (hleft : cut.Leftmost)
    (hjoin : ¬ cut.Joins mappings) :
    scan (cut.filled (replacement mappings)) = cut.filledPieces mappings := by
  induction cut with
  | last segment => exact scan_text_of_leftmost hleft
  | block segment word behind ih =>
      obtain ⟨hword, hsegment, hbehind⟩ := hleft
      have hhere := fun h => hjoin (.inl h)
      have hclosed : ∀ i < segment.length, ¬ Opens ((segment ++ (replacement mappings word ++
          behind.filled (replacement mappings))).drop i) := by
        intro i hi
        have hbefore := hsegment i hi
        rw [List.append_assoc, List.drop_append_of_le_length (Nat.le_of_lt hi)] at hbefore
        rw [List.drop_append_of_le_length (Nat.le_of_lt hi)]
        refine not_opens_append_replacement ?_ hbefore ?_
        · intro hnil
          exact absurd (List.drop_eq_nil_iff.mp hnil) (Nat.not_le_of_lt hi)
        · rintro ⟨hmarks, hword, hcloses⟩
          exact hhere ⟨hmarks ▸ List.drop_suffix i segment, hword, hcloses⟩
      show scan (segment ++ replacement mappings word ++ behind.filled (replacement mappings))
        = segment.map .plain ++
            (scan (replacement mappings word) ++ behind.filledPieces mappings)
      rw [List.append_assoc, scan_append_of_not_opens _ _ hclosed,
        scan_replacement_append mappings hword, ih hbehind fun h => hjoin (.inr h)]

/-- The end of a text without keywords has none. -/
theorem isPlain_of_append {text behind : List Char} (h : IsPlain (text ++ behind)) :
    IsPlain behind := by
  induction text with
  | nil => exact h
  | cons c text ih => exact ih (isPlain_of_cons h)

/-- **What joins is a placeholder**: the filled cut is not plain. -/
theorem Cut.not_isPlain_of_joins {mappings : Mappings} {cut : Cut} (h : cut.Joins mappings) :
    ¬ IsPlain (cut.filled (replacement mappings)) := by
  induction cut with
  | last segment => exact absurd h id
  | block segment word behind ih =>
      intro hplain
      change IsPlain (segment ++ replacement mappings word ++ behind.filled _) at hplain
      rcases h with ⟨⟨before, hsegment⟩, ⟨hne, hall⟩, hcloses⟩ | hbehind
      · obtain ⟨c, more, hword⟩ := List.exists_cons_of_ne_nil hne
        rw [hword] at hall
        obtain ⟨hc, hmore⟩ := List.forall_mem_cons.mp hall
        rw [← hsegment, hword, List.append_assoc, List.append_assoc] at hplain
        refine not_opens_of_isPlain (isPlain_of_append hplain) (opens_iff.mpr ⟨c, _, rfl, hc, ?_⟩)
        exact (closes_append_of_word hmore _).mpr hcloses
      · exact ih hbehind (isPlain_of_append hplain)

-- ── The keywords of a resolved text ─────────────────────────────────────────

/-- The keywords in what stands for a word, in order and with repetitions. -/
def remaining (mappings : Mappings) (word : String) : List String :=
  (scan (replacement mappings word.toList)).filterMap Piece.keyword?

/-- The keywords that are left are those that remain of each word of the cut. -/
theorem Cut.filterMap_keyword?_filledPieces (mappings : Mappings) (cut : Cut) :
    (cut.filledPieces mappings).filterMap Piece.keyword?
      = cut.words.flatMap (remaining mappings) := by
  induction cut with
  | last segment => exact filterMap_keyword?_plain segment
  | block segment word behind ih =>
      rw [filledPieces, List.filterMap_append, filterMap_keyword?_plain, List.nil_append,
        List.filterMap_append, ih, words, List.flatMap_cons, remaining, String.toList_ofList]

/-- What a cut takes for words are words. -/
theorem Cut.isWord_of_mem_words {cut : Cut} (h : cut.Leftmost) {word : String}
    (hword : word ∈ cut.words) : IsWord word.toList := by
  induction cut with
  | last segment => exact nomatch hword
  | block segment first behind ih =>
      obtain ⟨hfirst, -, hbehind⟩ := h
      rcases List.mem_cons.mp hword with rfl | hmem
      · rw [String.toList_ofList]
        exact hfirst
      · exact ih hbehind hmem

/-- A word that is not mapped stays. -/
theorem remaining_of_undefined {mappings : Mappings} {word : String} (hword : IsWord word.toList)
    (h : mappings.get? word = none) : remaining mappings word = [word] := by
  rw [remaining, replacement_of_undefined (by rw [String.ofList_toList]; exact h),
    scan_placeholder_alone hword]
  show [String.ofList word.toList] = [word]
  rw [String.ofList_toList]

/-- In place of a word that is mapped stand the keywords of its value. -/
theorem mem_remaining_of_defined {mappings : Mappings} {word other : String} {value : Document}
    (h : mappings.get? word = some value) :
    other ∈ remaining mappings word ↔ other ∈ keywords (substitutionText value) := by
  have hvalue : replacement mappings word.toList = (substitutionText value).toList := by
    rw [replacement, String.ofList_toList, h]
  rw [remaining, hvalue, keywords, List.mem_eraseDups]

/-- **The keywords of a resolved text**, where nothing joins: those that stay and those of the
    values, in the places of the words they stand for. -/
theorem keywords_resolve {mappings : Mappings} {text : String} {cut : Cut}
    (htext : cut.text = text.toList) (hleft : cut.Leftmost) (hjoin : ¬ cut.Joins mappings) :
    keywords (resolve mappings text)
      = (cut.words.flatMap (remaining mappings)).eraseDups := by
  rw [resolve_eq_substitute, substitute_of_leftmost htext hleft, keywords, String.toList_ofList,
    Cut.scan_filled hleft hjoin, Cut.filterMap_keyword?_filledPieces]

end Stencil.Placeholder
