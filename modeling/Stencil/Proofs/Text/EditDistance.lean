import Mathlib.Order.Bounds.Defs
import Stencil.Text.EditDistance

/-!
# Edit distance — the least number of edits between two words

An edit inserts, deletes or replaces one character anywhere in a word. The least number of edits
that lead from one word to another obeys a recursion on their first characters (`leastEdits`):
edits along it lead there (`edits_leastEdits`), and one edit changes its value by at most one
(`leastEdits_le_of_edit`), so no fewer do. The table of distances is the same recursion from the
other end of the words: a cell is the value at two beginnings, read backwards
(`editDistance_eq`). As edits may be read backwards too, the table ends in the least number of
edits (`isLeast_editDistance`).
-/

namespace Stencil.Text

-- ── Edits ───────────────────────────────────────────────────────────────────

/-- **One edit** of a word. -/
inductive Edit : List Char → List Char → Prop where
  | insert (front rest : List Char) (c : Char) : Edit (front ++ rest) (front ++ c :: rest)
  | delete (front rest : List Char) (c : Char) : Edit (front ++ c :: rest) (front ++ rest)
  | replace (front rest : List Char) (c d : Char) : Edit (front ++ c :: rest) (front ++ d :: rest)

/-- So many edits, one after another. -/
inductive Edits : Nat → List Char → List Char → Prop where
  | none (word : List Char) : Edits 0 word word
  | step {n : Nat} {first second third : List Char} (edit : Edit first second)
      (edits : Edits n second third) : Edits (n + 1) first third

variable {first second : List Char}

theorem Edit.cons (h : Edit first second) (c : Char) : Edit (c :: first) (c :: second) := by
  cases h with
  | insert front rest d => exact .insert (c :: front) rest d
  | delete front rest d => exact .delete (c :: front) rest d
  | replace front rest d e => exact .replace (c :: front) rest d e

theorem Edits.cons {n : Nat} (h : Edits n first second) (c : Char) :
    Edits n (c :: first) (c :: second) := by
  induction h with
  | none word => exact .none _
  | step edit _ ih => exact .step (edit.cons c) ih

/-- An edit is one of the words read backwards. -/
theorem Edit.reverse (h : Edit first second) : Edit first.reverse second.reverse := by
  cases h with
  | insert front rest c =>
      rw [List.reverse_append, List.reverse_append, List.reverse_cons, List.append_assoc]
      exact .insert rest.reverse front.reverse c
  | delete front rest c =>
      rw [List.reverse_append, List.reverse_append, List.reverse_cons, List.append_assoc]
      exact .delete rest.reverse front.reverse c
  | replace front rest c d =>
      rw [List.reverse_append, List.reverse_append, List.reverse_cons, List.reverse_cons,
        List.append_assoc, List.append_assoc]
      exact .replace rest.reverse front.reverse c d

theorem Edits.reverse {n : Nat} (h : Edits n first second) :
    Edits n first.reverse second.reverse := by
  induction h with
  | none word => exact .none _
  | step edit _ ih => exact .step edit.reverse ih

theorem edits_reverse_iff {n : Nat} :
    Edits n first.reverse second.reverse ↔ Edits n first second := by
  constructor
  · intro h
    have hback := h.reverse
    rw [List.reverse_reverse, List.reverse_reverse] at hback
    exact hback
  · exact Edits.reverse

-- ── The recursion ───────────────────────────────────────────────────────────

/-- The least number of edits, by the first characters: the one of the second word is inserted,
    that of the first one is deleted, or they are matched. -/
def leastEdits : List Char → List Char → Nat
  | [], second => second.length
  | c :: first, [] => first.length + 1
  | c :: first, d :: second =>
    min (min (leastEdits (c :: first) second + 1) (leastEdits first (d :: second) + 1))
      (leastEdits first second + if c = d then 0 else 1)
termination_by first second => first.length + second.length

theorem leastEdits_nil_left (second : List Char) : leastEdits [] second = second.length := by
  rw [leastEdits]

theorem leastEdits_nil_right (first : List Char) : leastEdits first [] = first.length := by
  cases first with
  | nil => rw [leastEdits]
  | cons c first => rw [leastEdits, List.length_cons]

theorem leastEdits_cons_cons (c d : Char) (first second : List Char) :
    leastEdits (c :: first) (d :: second)
      = min (min (leastEdits (c :: first) second + 1) (leastEdits first (d :: second) + 1))
          (leastEdits first second + if c = d then 0 else 1) := by
  rw [leastEdits]

/-- One of the three ways is taken. -/
theorem leastEdits_cons_cons_cases (c d : Char) (first second : List Char) :
    leastEdits (c :: first) (d :: second) = leastEdits (c :: first) second + 1 ∨
      leastEdits (c :: first) (d :: second) = leastEdits first (d :: second) + 1 ∨
      leastEdits (c :: first) (d :: second)
        = leastEdits first second + if c = d then 0 else 1 := by
  rw [leastEdits_cons_cons]
  omega

theorem edits_from_nil (second : List Char) : Edits second.length [] second := by
  induction second with
  | nil => exact .none []
  | cons d second ih => exact .step (.insert [] [] d) (ih.cons d)

theorem edits_to_nil (first : List Char) : Edits first.length first [] := by
  induction first with
  | nil => exact .none []
  | cons c first ih => exact .step (.delete [] first c) ih

/-- **Edits along the recursion** lead from the first word to the second. -/
theorem edits_leastEdits (first second : List Char) :
    Edits (leastEdits first second) first second := by
  induction first, second using leastEdits.induct with
  | case1 second =>
      rw [leastEdits_nil_left]
      exact edits_from_nil second
  | case2 c first =>
      rw [leastEdits_nil_right]
      exact edits_to_nil (c :: first)
  | case3 c first d second hinsert hdelete hmatch =>
      have hinserted : Edits (leastEdits (c :: first) second + 1) (c :: first) (d :: second) :=
        .step (.insert [] (c :: first) d) (hinsert.cons d)
      have hdeleted : Edits (leastEdits first (d :: second) + 1) (c :: first) (d :: second) :=
        .step (.delete [] first c) hdelete
      have hmatched : Edits (leastEdits first second + if c = d then 0 else 1)
          (c :: first) (d :: second) := by
        by_cases hcd : c = d
        · subst hcd
          rw [if_pos rfl]
          exact hmatch.cons c
        · rw [if_neg hcd]
          exact .step (.replace [] first c d) (hmatch.cons d)
      rcases leastEdits_cons_cons_cases c d first second with h | h | h
      · rw [h]
        exact hinserted
      · rw [h]
        exact hdeleted
      · rw [h]
        exact hmatched

-- ── One edit changes the value by at most one ───────────────────────────────

/-- A word takes no edits to become itself. -/
theorem leastEdits_self (word : List Char) : leastEdits word word = 0 := by
  induction word with
  | nil => exact leastEdits_nil_left []
  | cons c word ih =>
      rw [leastEdits_cons_cons, ih, if_pos rfl]
      omega

/-- One more character on the right takes one more edit at most. -/
theorem leastEdits_cons_right_le (first : List Char) (d : Char) (second : List Char) :
    leastEdits first (d :: second) ≤ leastEdits first second + 1 := by
  cases first with
  | nil =>
      rw [leastEdits_nil_left, leastEdits_nil_left]
      exact Nat.le_refl _
  | cons c first =>
      rw [leastEdits_cons_cons]
      omega

theorem leastEdits_cons_left_le (c : Char) (first second : List Char) :
    leastEdits (c :: first) second ≤ leastEdits first second + 1 := by
  cases second with
  | nil =>
      rw [leastEdits_nil_right, leastEdits_nil_right]
      exact Nat.le_refl _
  | cons d second =>
      rw [leastEdits_cons_cons]
      omega

theorem leastEdits_le_cons_left (c : Char) (first second : List Char) :
    leastEdits first second ≤ leastEdits (c :: first) second + 1 := by
  induction second with
  | nil =>
      rw [leastEdits_nil_right, leastEdits_nil_right, List.length_cons]
      omega
  | cons d second ih =>
      have hcons := leastEdits_cons_right_le first d second
      rw [leastEdits_cons_cons]
      split <;> omega

theorem leastEdits_replace_le (c d : Char) (first second : List Char) :
    leastEdits (c :: first) second ≤ leastEdits (d :: first) second + 1 := by
  induction second with
  | nil =>
      rw [leastEdits_nil_right, leastEdits_nil_right]
      exact Nat.le_succ _
  | cons e second ih =>
      rw [leastEdits_cons_cons, leastEdits_cons_cons]
      split <;> split <;> omega

/-- What holds of two words in this respect holds of them behind one more character. -/
theorem leastEdits_cons_le {first first' : List Char}
    (h : ∀ second, leastEdits first second ≤ leastEdits first' second + 1) (c : Char)
    (second : List Char) : leastEdits (c :: first) second ≤ leastEdits (c :: first') second + 1 := by
  induction second with
  | nil =>
      have hnil := h []
      rw [leastEdits_nil_right, leastEdits_nil_right] at hnil
      rw [leastEdits_nil_right, leastEdits_nil_right, List.length_cons, List.length_cons]
      omega
  | cons d second ih =>
      have hdelete := h (d :: second)
      have hmatch := h second
      rw [leastEdits_cons_cons, leastEdits_cons_cons]
      omega

/-- Words that are one edit apart still are behind the same front. -/
theorem leastEdits_append_le {first first' : List Char}
    (h : ∀ second, leastEdits first second ≤ leastEdits first' second + 1) (front : List Char) :
    ∀ second, leastEdits (front ++ first) second ≤ leastEdits (front ++ first') second + 1 := by
  induction front with
  | nil => exact h
  | cons c front ih => exact leastEdits_cons_le ih c

/-- **One edit** brings a word no more than one edit closer to another. -/
theorem leastEdits_le_of_edit {first first' : List Char} (h : Edit first first') :
    ∀ second, leastEdits first second ≤ leastEdits first' second + 1 := by
  cases h with
  | insert front rest c => exact leastEdits_append_le (leastEdits_le_cons_left c rest) front
  | delete front rest c => exact leastEdits_append_le (leastEdits_cons_left_le c rest) front
  | replace front rest c d => exact leastEdits_append_le (leastEdits_replace_le c d rest) front

/-- **No fewer edits** lead from the first word to the second. -/
theorem leastEdits_le_of_edits {n : Nat} (h : Edits n first second) :
    leastEdits first second ≤ n := by
  induction h with
  | none word => exact Nat.le_of_eq (leastEdits_self word)
  | step edit _ ih => exact Nat.le_trans (leastEdits_le_of_edit edit _) (Nat.succ_le_succ ih)

-- ── The table ───────────────────────────────────────────────────────────────

/-- The cells to the right of one cell: the beginnings of both words that belong to it are given
    backwards, and the rest of the second word as it is. -/
def cellsFrom (first second : List Char) : List Char → List Nat
  | [] => []
  | d :: word => leastEdits first (d :: second) :: cellsFrom first (d :: second) word

/-- The row of a beginning of the first word, which is given backwards. -/
def rowOf (first word : List Char) : List Nat :=
  leastEdits first [] :: cellsFrom first [] word

/-- A row of the table is made from the one above it. -/
theorem editCells_cellsFrom (c : Char) (first second word : List Char) :
    editCells c (leastEdits (c :: first) second) (leastEdits first second) word
        (cellsFrom first second word)
      = cellsFrom (c :: first) second word := by
  induction word generalizing second with
  | nil => rfl
  | cons d word ih =>
      rw [cellsFrom, editCells, ← leastEdits_cons_cons, ih]
      rfl

/-- **The next row** belongs to one more character of the first word. -/
theorem editRow_rowOf (first word : List Char) (c : Char) :
    editRow word (rowOf first word) c = rowOf (c :: first) word := by
  have hfirst : leastEdits first [] + 1 = leastEdits (c :: first) [] := by
    rw [leastEdits_nil_right, leastEdits_nil_right, List.length_cons]
  show (leastEdits first [] + 1) :: editCells c (leastEdits first [] + 1) (leastEdits first []) word
    (cellsFrom first [] word) = _
  rw [hfirst, editCells_cellsFrom]
  rfl

/-- The row above the first character counts up. -/
theorem cellsFrom_nil (second word : List Char) :
    cellsFrom [] second word = List.range' (second.length + 1) word.length := by
  induction word generalizing second with
  | nil => rfl
  | cons d word ih =>
      rw [cellsFrom, ih, leastEdits_nil_left, List.length_cons, List.length_cons, List.range'_succ]

/-- The first row belongs to no character of the first word. -/
theorem range_eq_rowOf (word : List Char) : List.range (word.length + 1) = rowOf [] word := by
  rw [rowOf, cellsFrom_nil, leastEdits_nil_left, List.range_eq_range', List.range'_succ]
  rfl

/-- **All rows**, one after another. -/
theorem foldl_editRow (first before word : List Char) :
    first.foldl (editRow word) (rowOf before word) = rowOf (first.reverse ++ before) word := by
  induction first generalizing before with
  | nil => rfl
  | cons c first ih =>
      rw [List.foldl_cons, editRow_rowOf, ih, List.reverse_cons, List.append_assoc,
        List.singleton_append]

/-- The last cell of a row belongs to the whole second word. -/
theorem getLastD_cellsFrom (first second word : List Char) :
    (cellsFrom first second word).getLastD (leastEdits first second)
      = leastEdits first (word.reverse ++ second) := by
  induction word generalizing second with
  | nil => rfl
  | cons d word ih =>
      rw [cellsFrom, List.getLastD_cons, ih, List.reverse_cons, List.append_assoc,
        List.singleton_append]

/-- The last cell of the table: the recursion on both words, read backwards. -/
theorem editDistance_eq (first second : List Char) :
    editDistance first second = leastEdits first.reverse second.reverse := by
  rw [editDistance, range_eq_rowOf, foldl_editRow, rowOf, List.getLastD_cons, getLastD_cellsFrom,
    List.append_nil, List.append_nil]

/-- **The edit distance is the least number of edits** that lead from one word to the other. -/
theorem isLeast_editDistance (first second : List Char) :
    IsLeast {n | Edits n first second} (editDistance first second) := by
  rw [editDistance_eq]
  constructor
  · exact edits_reverse_iff.mp (edits_leastEdits first.reverse second.reverse)
  · intro n hedits
    exact leastEdits_le_of_edits (Edits.reverse hedits)

end Stencil.Text
