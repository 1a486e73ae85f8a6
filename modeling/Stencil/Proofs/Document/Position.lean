import Stencil.Document.Reader
import Stencil.Proofs.Journaled

/-!
# Positions — where in a text a failure is

A failure knows how many bytes it has left behind it, and its line and column are worked out from
the whole text. Each byte that is passed advances the column, and a line feed leads to the next
line. So the line of a failure is one that the text has, and its column does not go beyond it
(`exists_line_of_locate`); and on the first line the column counts the bytes in front of the
failure (`locate_onFirst`).
-/

namespace Stencil.Document

-- ── Bytes ───────────────────────────────────────────────────────────────────

theorem foldl_utf8Size (text : List Char) (n : Nat) :
    text.foldl (fun n c => n + c.utf8Size) n = n + byteCount text := by
  induction text generalizing n with
  | nil => rfl
  | cons c text ih =>
      rw [byteCount, List.foldl_cons, List.foldl_cons, ih, ih]
      omega

theorem byteCount_nil : byteCount [] = 0 := rfl

theorem byteCount_cons (c : Char) (text : List Char) :
    byteCount (c :: text) = c.utf8Size + byteCount text := by
  rw [byteCount, List.foldl_cons, foldl_utf8Size, Nat.zero_add]

theorem byteCount_append (text behind : List Char) :
    byteCount (text ++ behind) = byteCount text + byteCount behind := by
  rw [byteCount, List.foldl_append, foldl_utf8Size]
  rfl

/-- The bytes of a text are those of its string. -/
theorem utf8ByteSize_ofList (text : List Char) :
    (String.ofList text).utf8ByteSize = byteCount text := by
  induction text with
  | nil => rfl
  | cons c text ih =>
      rw [String.ofList_cons, String.utf8ByteSize_append, String.utf8ByteSize_singleton, ih,
        byteCount_cons]

-- ── Places ──────────────────────────────────────────────────────────────────

/-- **On one line** every byte that is passed advances the column. -/
theorem advance_append {front : List Char} (h : '\n' ∉ front) (start : Position)
    (rest : List Char) (bytes : Nat) :
    start.advance (front ++ rest) (byteCount front + bytes)
      = Position.advance ⟨start.line, start.column + byteCount front⟩ rest bytes := by
  induction front generalizing start with
  | nil => rw [List.nil_append, byteCount_nil, Nat.zero_add, Nat.add_zero]
  | cons c front ih =>
      rw [List.mem_cons, not_or] at h
      have hpassed : ¬ byteCount (c :: front) + bytes < c.utf8Size := by
        rw [byteCount_cons]
        omega
      have hleft : byteCount (c :: front) + bytes - c.utf8Size = byteCount front + bytes := by
        rw [byteCount_cons]
        omega
      rw [List.cons_append, Position.advance, if_neg hpassed, if_neg (Ne.symm h.1), hleft, ih h.2,
        byteCount_cons, Nat.add_assoc]

theorem advance_zero (start : Position) (text : List Char) : start.advance text 0 = start := by
  cases text with
  | nil => rfl
  | cons c text => rw [Position.advance, if_pos c.utf8Size_pos, Nat.add_zero]

/-- **A failure on the first line** counts the bytes in front of it, and one for itself. -/
theorem locate_onFirst {front : List Char} {c : Char} (hfront : '\n' ∉ front) (hc : c ≠ '\n')
    (cause : Cause) (rest : List Char) :
    (Failure.onFirst cause (c :: rest)).locate (front ++ c :: rest)
      = ⟨cause, ⟨1, byteCount front + 1⟩⟩ := by
  have hsize := c.utf8Size_pos
  have hpassed : byteCount (front ++ c :: rest) - (byteCount (c :: rest) - 1)
      = byteCount front + 1 := by
    rw [byteCount_append, byteCount_cons]
    omega
  have hplace : Position.advance ⟨1, byteCount front⟩ (c :: rest) 1
      = ⟨1, byteCount front + 1⟩ := by
    rw [Position.advance, if_neg hc]
    split
    · rfl
    · next hwhole =>
        have hone : c.utf8Size = 1 := by omega
        rw [hone, advance_zero]
  rw [Failure.locate, Failure.onFirst, hpassed, advance_append hfront, Nat.zero_add, hplace]

/-- A line feed at the front leaves an empty line before it. -/
theorem splitOn_lineFeed (rest : List Char) :
    ('\n' :: rest).splitOn '\n' = [] :: rest.splitOn '\n' := by
  rw [List.splitOn, List.splitOnP_cons_eq_if_modifyHead]
  rfl

/-- A character that ends no line belongs to the first one. -/
theorem splitOn_cons_of_ne {c : Char} (h : c ≠ '\n') (rest : List Char) :
    ∃ line lines, rest.splitOn '\n' = line :: lines ∧
      (c :: rest).splitOn '\n' = (c :: line) :: lines := by
  obtain ⟨line, lines, heq⟩ := List.exists_cons_of_ne_nil (List.splitOnP_ne_nil (· == '\n') rest)
  refine ⟨line, lines, heq, ?_⟩
  rw [List.splitOn, List.splitOnP_cons_eq_if_modifyHead, if_neg (by simpa using h), heq]
  rfl

/-- **A place is on a line of the text**, at most at its end. On the first line its column goes
    on from where the text starts. -/
theorem exists_line_of_advance (start : Position) (text : List Char) (bytes : Nat) :
    ∃ k line, (text.splitOn '\n')[k]? = some line ∧
      (start.advance text bytes).line = start.line + k ∧
      (start.advance text bytes).column
        ≤ (if k = 0 then start.column else 0) + byteCount line := by
  induction text generalizing start bytes with
  | nil => exact ⟨0, [], rfl, rfl, Nat.le_refl _⟩
  | cons c rest ih =>
      by_cases hline : c = '\n'
      · subst hline
        rw [splitOn_lineFeed, Position.advance]
        split
        · next hinside =>
            have hnone : bytes = 0 := by
              have hsize : '\n'.utf8Size = 1 := by decide
              omega
            exact ⟨0, [], rfl, rfl, by simp [hnone]⟩
        · obtain ⟨k, line, hk, hplace, hcolumn⟩ := ih ⟨start.line + 1, 0⟩ (bytes - '\n'.utf8Size)
          refine ⟨k + 1, line, hk, ?_, ?_⟩
          · rw [if_pos rfl, hplace, Nat.add_right_comm, Nat.add_assoc]
          · rw [ite_self] at hcolumn
            rw [if_neg (Nat.succ_ne_zero k)]
            exact hcolumn
      · obtain ⟨first, lines, hrest, hwhole⟩ := splitOn_cons_of_ne hline rest
        rw [hwhole, Position.advance]
        split
        · next hinside =>
            refine ⟨0, c :: first, rfl, rfl, ?_⟩
            rw [if_pos rfl, byteCount_cons]
            show start.column + bytes ≤ _
            omega
        · obtain ⟨k, line, hk, hplace, hcolumn⟩ :=
            ih ⟨start.line, start.column + c.utf8Size⟩ (bytes - c.utf8Size)
          rw [hrest] at hk
          cases k with
          | zero =>
              obtain rfl := Option.some.inj hk
              refine ⟨0, c :: first, rfl, hplace, ?_⟩
              rw [if_pos rfl] at hcolumn ⊢
              rw [byteCount_cons, ← Nat.add_assoc]
              exact hcolumn
          | succ k => exact ⟨k + 1, line, hk, hplace, hcolumn⟩

/-- **The line of a failure** is one of the text, and its column does not go beyond that. -/
theorem exists_line_of_locate (failure : Failure) (text : List Char) :
    1 ≤ (failure.locate text).position.line ∧
      ∃ line, (text.splitOn '\n')[(failure.locate text).position.line - 1]? = some line ∧
        (failure.locate text).position.column ≤ byteCount line := by
  obtain ⟨k, line, hk, hplace, hcolumn⟩ :=
    exists_line_of_advance ⟨1, 0⟩ text (byteCount text - failure.left)
  rw [ite_self, Nat.zero_add] at hcolumn
  have hline : (failure.locate text).position.line = 1 + k := hplace
  refine ⟨by omega, line, ?_, hcolumn⟩
  rw [hline, Nat.add_sub_cancel_left]
  exact hk

end Stencil.Document
