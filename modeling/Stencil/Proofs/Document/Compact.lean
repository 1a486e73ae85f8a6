import Stencil.Proofs.Document.Scalars

/-!
# Compact — the text of a document on one line

Without blanks the text of a document does not depend on how deep it stands, so a container is
its brackets around the texts of its parts, with commas between them. Of all these texts only
quoted strings can hold an at-sign: numbers are digits, signs, points and exponents, and at
least one of these. And no control character stands in any of them (`isInline_of_mem_render`),
since strings and names are written with escapes: the text is one line, whatever the document
holds.
-/

namespace Stencil

-- ── What numbers are written with ───────────────────────────────────────────

namespace Decimal

/-- The characters besides digits that numbers are written with. -/
def numberMarks : List Char :=
  ['-', '+', '.', 'e']

/-- A character that numbers are written with. -/
def IsNumeral (c : Char) : Prop :=
  isDigit c = true ∨ c ∈ numberMarks

theorem isNumeral_of_mem_decimal {n : Nat} {c : Char} (h : c ∈ decimal n) : IsNumeral c :=
  .inl (isDigit_of_mem_decimal h)

theorem isNumeral_of_mem_replicate {n : Nat} {c : Char} (h : c ∈ List.replicate n '0') :
    IsNumeral c := by
  obtain rfl := List.eq_of_mem_replicate h
  exact .inl rfl

theorem isNumeral_of_mem_positional {digits : List Char} (hdigits : ∀ c ∈ digits, IsNumeral c)
    (point : Int) : ∀ c ∈ positional digits point, IsNumeral c := by
  have hpoint : IsNumeral '.' := .inr (by decide)
  have hzero : IsNumeral '0' := .inl rfl
  unfold positional
  split
  · simp only [List.forall_mem_append, List.forall_mem_cons, List.not_mem_nil, IsEmpty.forall_iff,
      implies_true, and_true]
    exact ⟨⟨⟨hzero, hpoint⟩, fun c hc => isNumeral_of_mem_replicate hc⟩, hdigits⟩
  · split
    · simp only [List.forall_mem_append, List.forall_mem_cons, List.not_mem_nil,
        IsEmpty.forall_iff, implies_true, and_true]
      exact ⟨⟨hdigits, fun c hc => isNumeral_of_mem_replicate hc⟩, hpoint, hzero⟩
    · simp only [List.forall_mem_append, List.forall_mem_cons]
      exact ⟨fun c hc => hdigits c (List.mem_of_mem_take hc), hpoint,
        fun c hc => hdigits c (List.mem_of_mem_drop hc)⟩

theorem isNumeral_of_mem_exponential {digits : List Char} (hdigits : ∀ c ∈ digits, IsNumeral c)
    (exponent : Int) : ∀ c ∈ exponential digits exponent, IsNumeral c := by
  have hsign : IsNumeral (if exponent < 0 then '-' else '+') := by
    split <;> exact .inr (by decide)
  unfold exponential
  simp only [List.forall_mem_append, List.forall_mem_cons]
  refine ⟨?_, .inr (by decide), hsign, fun c hc => isNumeral_of_mem_decimal hc⟩
  split
  · exact fun c hc => nomatch hc
  · exact hdigits
  · simp only [List.forall_mem_cons] at hdigits ⊢
    exact ⟨hdigits.1, .inr (by decide), hdigits.2⟩

/-- A float is written with characters of numbers only. -/
theorem isNumeral_of_mem_floatText (style : FloatStyle) (x : Float) :
    ∀ c ∈ floatText style x, IsNumeral c := by
  have hpositional := fun n => isNumeral_of_mem_positional fun c (hc : c ∈ decimal n) =>
    isNumeral_of_mem_decimal hc
  have hexponential := fun n => isNumeral_of_mem_exponential fun c (hc : c ∈ decimal n) =>
    isNumeral_of_mem_decimal hc
  have hzero : ∀ c ∈ ['0', '.', '0'], IsNumeral c := by
    simp [IsNumeral, numberMarks, isDigit]
  unfold floatText
  simp only
  split
  · rw [List.forall_mem_cons]
    refine ⟨.inr (by decide), ?_⟩
    split
    · exact hzero
    · split
      · exact hpositional _ _
      · exact hexponential _ _
  · split
    · exact hzero
    · split
      · exact hpositional _ _
      · exact hexponential _ _

end Decimal

/-- **Numbers are written with numerals.** -/
theorem Number.isNumeral_of_mem_text (value : Number) : ∀ c ∈ value.text, Decimal.IsNumeral c := by
  cases value with
  | integer value fits =>
      show ∀ c ∈ integerText value, Decimal.IsNumeral c
      unfold integerText
      split
      · rw [List.forall_mem_cons]
        exact ⟨.inr (by decide), fun c hc => Decimal.isNumeral_of_mem_decimal hc⟩
      · exact fun c hc => Decimal.isNumeral_of_mem_decimal hc
  | float value => exact Decimal.isNumeral_of_mem_floatText _ value

/-- No number is written with an at-sign. -/
theorem Number.at_not_mem_text (value : Number) : '@' ∉ value.text := by
  intro h
  rcases value.isNumeral_of_mem_text '@' h with hdigit | hmark
  · exact Bool.noConfusion hdigit
  · exact absurd hmark (by decide)

-- ── Numbers are never written as nothing ────────────────────────────────────

namespace Decimal

theorem positional_ne_nil (digits : List Char) (point : Int) : positional digits point ≠ [] := by
  unfold positional
  split
  · simp
  · split
    · simp
    · simp

theorem exponential_ne_nil (digits : List Char) (exponent : Int) :
    exponential digits exponent ≠ [] := by
  simp [exponential]

theorem floatText_ne_nil (style : FloatStyle) (x : Float) : floatText style x ≠ [] := by
  unfold floatText
  simp only
  split
  · exact List.cons_ne_nil _ _
  · split
    · exact List.cons_ne_nil _ _
    · split
      · exact positional_ne_nil _ _
      · exact exponential_ne_nil _ _

end Decimal

/-- A number is written with at least one character. -/
theorem Number.text_ne_nil (value : Number) : value.text ≠ [] := by
  cases value with
  | integer value fits =>
      obtain ⟨c, rest, hdigits, -⟩ := Decimal.exists_decimal_eq_cons value.natAbs
      show integerText value ≠ []
      unfold integerText
      split
      · exact List.cons_ne_nil _ _
      · rw [hdigits]
        exact List.cons_ne_nil _ _
  | float value => exact Decimal.floatText_ne_nil _ value

-- ── The compact layout ──────────────────────────────────────────────────────

namespace Document

mutual

/-- On one line depth shows nowhere. -/
theorem render_compact (depth : Nat) :
    ∀ document : Document, document.render .compact depth = document.render .compact 0
  | .null => rfl
  | .bool true => rfl
  | .bool false => rfl
  | .number _ => rfl
  | .string _ => rfl
  | .array items => by
      rw [render, render, renderItems_compact, renderItems_compact (0 + 1)]
      cases items <;> rfl
  | .object members => by
      rw [render, render, renderMembers_compact, renderMembers_compact (0 + 1)]
      cases members <;> rfl

theorem renderItems_compact (depth : Nat) :
    ∀ items : List Document, renderItems .compact depth items = renderItems .compact 0 items
  | [] => rfl
  | item :: items => by
      rw [renderItems, renderItems, render_compact depth item, renderItems_compact depth items]
      rfl

theorem renderMembers_compact (depth : Nat) :
    ∀ members : List (String × Document),
      renderMembers .compact depth members = renderMembers .compact 0 members
  | [] => rfl
  | (name, value) :: members => by
      rw [renderMembers, renderMembers, render_compact depth value,
        renderMembers_compact depth members]
      rfl

end

/-- An array on one line is its items between brackets. -/
theorem render_compact_array (items : List Document) :
    (array items).render .compact 0 = '[' :: (renderItems .compact 0 items ++ [']']) := by
  rw [render, renderItems_compact]
  cases items with
  | nil => rfl
  | cons item items => simp [Layout.closing, Layout.gap]

/-- An object on one line is its members between braces. -/
theorem render_compact_object (members : List (String × Document)) :
    (object members).render .compact 0 = '{' :: (renderMembers .compact 0 members ++ ['}']) := by
  rw [render, renderMembers_compact]
  cases members with
  | nil => rfl
  | cons member members => simp [Layout.closing, Layout.gap]

/-- The first item, a comma if there are more, and the others. -/
theorem renderItems_compact_cons (item : Document) (items : List Document) :
    renderItems .compact 0 (item :: items)
      = item.render .compact 0 ++ (separator items ++ renderItems .compact 0 items) := by
  simp [renderItems, Layout.gap]

theorem renderMembers_compact_cons (name : String) (value : Document)
    (members : List (String × Document)) :
    renderMembers .compact 0 ((name, value) :: members)
      = quoted name ++ ':' :: (value.render .compact 0 ++
          (separator members ++ renderMembers .compact 0 members)) := by
  simp [renderMembers, Layout.gap, Layout.colon]

-- ── One line ────────────────────────────────────────────────────────────────

/-- No control character, so none that ends a line. -/
def IsInline (c : Char) : Prop :=
  32 ≤ c.toNat

instance (c : Char) : Decidable (IsInline c) :=
  inferInstanceAs (Decidable (_ ≤ _))

theorem isInline_of_all {text : List Char} (h : text.all (fun c => decide (IsInline c)) = true) :
    ∀ c ∈ text, IsInline c :=
  fun c hc => of_decide_eq_true (List.all_eq_true.mp h c hc)

/-- Numbers do not end a line. -/
theorem isInline_of_isNumeral {c : Char} (h : Decimal.IsNumeral c) : IsInline c := by
  rcases h with hdigit | hmark
  · rw [Decimal.isDigit, Bool.and_eq_true] at hdigit
    have hzero : '0'.toNat ≤ c.toNat := UInt32.le_iff_toNat_le.mp (of_decide_eq_true hdigit.1)
    exact Nat.le_trans (by decide) hzero
  · have hmarks : ∀ d ∈ Decimal.numberMarks, IsInline d := isInline_of_all (by decide)
    exact hmarks c hmark

theorem le_toNat_hexDigit : ∀ n < 16, 32 ≤ (hexDigit n).toNat := by decide

/-- Control characters are escaped, and escapes hold none. -/
theorem isInline_of_mem_escapeChar (c : Char) : ∀ d ∈ escapeChar c, IsInline d := by
  unfold escapeChar
  split
  · exact isInline_of_all (by decide)
  · exact isInline_of_all (by decide)
  · exact isInline_of_all (by decide)
  · exact isInline_of_all (by decide)
  · exact isInline_of_all (by decide)
  · exact isInline_of_all (by decide)
  · exact isInline_of_all (by decide)
  · split
    · next hcontrol =>
        have hhigh := le_toNat_hexDigit (c.toNat / 16) (by omega)
        have hlow := le_toNat_hexDigit (c.toNat % 16) (by omega)
        simp only [List.forall_mem_cons, List.not_mem_nil, IsEmpty.forall_iff, implies_true,
          and_true]
        exact ⟨by decide, by decide, by decide, by decide, hhigh, hlow⟩
    · next hplain =>
        intro d hd
        obtain rfl := List.mem_singleton.mp hd
        exact Nat.le_of_not_lt hplain

/-- Quoted strings are one line: line ends in them are escaped. -/
theorem isInline_of_mem_quoted (text : String) : ∀ c ∈ quoted text, IsInline c := by
  have hquote : IsInline '"' := by decide
  have hinside : ∀ c ∈ text.toList.flatMap escapeChar, IsInline c := by
    intro c hc
    obtain ⟨d, -, hmem⟩ := List.mem_flatMap.mp hc
    exact isInline_of_mem_escapeChar d c hmem
  unfold quoted
  rw [List.forall_mem_append, List.forall_mem_cons, List.forall_mem_singleton]
  exact ⟨⟨hquote, hinside⟩, hquote⟩

theorem isInline_of_mem_separator {α : Type} (following : List α) :
    ∀ c ∈ separator following, IsInline c := by
  cases following with
  | nil => exact fun c hc => nomatch hc
  | cons next following =>
      rw [separator, List.forall_mem_singleton]
      decide

mutual

/-- **Compact text holds no control character.** -/
theorem isInline_of_mem_render :
    ∀ document : Document, ∀ c ∈ document.render .compact 0, IsInline c
  | .null => isInline_of_all (by decide)
  | .bool true => isInline_of_all (by decide)
  | .bool false => isInline_of_all (by decide)
  | .number value => fun c hc => isInline_of_isNumeral (value.isNumeral_of_mem_text c hc)
  | .string value => isInline_of_mem_quoted value
  | .array items => by
      have hopen : IsInline '[' := by decide
      have hclose : IsInline ']' := by decide
      rw [render_compact_array, List.forall_mem_cons, List.forall_mem_append,
        List.forall_mem_singleton]
      exact ⟨hopen, isInline_of_mem_renderItems items, hclose⟩
  | .object members => by
      have hopen : IsInline '{' := by decide
      have hclose : IsInline '}' := by decide
      rw [render_compact_object, List.forall_mem_cons, List.forall_mem_append,
        List.forall_mem_singleton]
      exact ⟨hopen, isInline_of_mem_renderMembers members, hclose⟩

theorem isInline_of_mem_renderItems :
    ∀ items : List Document, ∀ c ∈ renderItems .compact 0 items, IsInline c
  | [] => fun c hc => nomatch hc
  | item :: items => by
      rw [renderItems_compact_cons, List.forall_mem_append, List.forall_mem_append]
      exact ⟨isInline_of_mem_render item, isInline_of_mem_separator items,
        isInline_of_mem_renderItems items⟩

theorem isInline_of_mem_renderMembers :
    ∀ members : List (String × Document), ∀ c ∈ renderMembers .compact 0 members, IsInline c
  | [] => fun c hc => nomatch hc
  | (name, value) :: members => by
      have hcolon : IsInline ':' := by decide
      rw [renderMembers_compact_cons, List.forall_mem_append, List.forall_mem_cons,
        List.forall_mem_append, List.forall_mem_append]
      exact ⟨isInline_of_mem_quoted name, hcolon, isInline_of_mem_render value,
        isInline_of_mem_separator members, isInline_of_mem_renderMembers members⟩

end

end Document

end Stencil
