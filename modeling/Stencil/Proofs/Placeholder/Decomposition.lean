import Mathlib.Data.List.TakeWhile
import Mathlib.Logic.ExistsUnique
import Stencil.Placeholder.Basic

/-!
# Decomposition — a text falls apart at its placeholders in exactly one way

A scanner that goes from left to right commits to a placeholder as soon as one opens. What
it finds can be said without a scanner: a text is cut into segments with a placeholder
between any two of them, and in what is left behind a placeholder none starts earlier than
the next one of the cut. Runs of at-signs make many other cuts possible; only one is leftmost.

The route: `opening?_eq_some_iff` says what it means that a placeholder opens a text,
`scan_append_of_not_opens` carries the scan across a segment, and both together read a leftmost
cut off the pieces of the scan and back (`scan_text_of_leftmost`, `leftmost_ofPieces_scan`).
-/

namespace Stencil.Placeholder

/-- A word: at least one word character, and nothing else. -/
def IsWord (word : List Char) : Prop :=
  word ≠ [] ∧ ∀ c ∈ word, isWordChar c = true

instance (word : List Char) : Decidable (IsWord word) :=
  decidable_of_iff (word ≠ [] ∧ word.all isWordChar = true)
    (and_congr_right' List.all_eq_true)

/-- A word as a placeholder. -/
def placeholder (word : List Char) : List Char :=
  '@' :: '@' :: word ++ ['@', '@']

/-- A placeholder stands at the front of the text. -/
def Opens (text : List Char) : Prop :=
  ∃ word behind, IsWord word ∧ text = placeholder word ++ behind

/-- A text cut at some of its placeholders: the segments, and the words between them. -/
inductive Cut where
  | last (segment : List Char)
  | block (segment word : List Char) (behind : Cut)

namespace Cut

/-- The segments with something put in for each word. -/
def filled (put : List Char → List Char) : Cut → List Char
  | last segment => segment
  | block segment word behind => segment ++ put word ++ behind.filled put

/-- The text that is cut. -/
def text (cut : Cut) : List Char :=
  cut.filled placeholder

/-- The words of the placeholders, in order. -/
def words : Cut → List String
  | last _ => []
  | block _ word behind => String.ofList word :: behind.words

/-- A cut is **leftmost** if no placeholder starts within a segment, whatever it runs into. -/
def Leftmost : Cut → Prop
  | last segment => ∀ i < segment.length, ¬ Opens (segment.drop i)
  | block segment word behind =>
      IsWord word ∧
      (∀ i < segment.length,
        ¬ Opens ((segment ++ placeholder word ++ behind.text).drop i)) ∧
      behind.Leftmost

/-- The pieces of a cut: the characters of its segments, and its placeholders. -/
def pieces : Cut → List Piece
  | last segment => segment.map .plain
  | block segment word behind => segment.map .plain ++ .keyword word :: behind.pieces

/-- A cut with one more character in front of its first segment. -/
def push (c : Char) : Cut → Cut
  | last segment => last (c :: segment)
  | block segment word behind => block (c :: segment) word behind

/-- The cut between pieces that do not stand for themselves. -/
def ofPieces : List Piece → Cut
  | [] => last []
  | .plain c :: rest => (ofPieces rest).push c
  | .keyword word :: rest => block [] word (ofPieces rest)

end Cut

-- ── Openings ────────────────────────────────────────────────────────────────

theorem not_isWordChar_at : isWordChar '@' = false := by decide

/-- A placeholder and what stands behind it, character by character. -/
theorem placeholder_append (word behind : List Char) :
    placeholder word ++ behind = '@' :: '@' :: (word ++ '@' :: '@' :: behind) := by
  simp [placeholder]

/-- The word of an opening is taken whole, since an at-sign is no word character. -/
theorem opening?_placeholder {word : List Char} (h : IsWord word) (behind : List Char) :
    opening? (placeholder word ++ behind) = some (word, behind) := by
  obtain ⟨hne, hall⟩ := h
  have htake : (word ++ '@' :: '@' :: behind).takeWhile isWordChar = word := by
    rw [List.takeWhile_append_of_pos hall, List.takeWhile_cons, not_isWordChar_at]
    simp
  have hdrop : (word ++ '@' :: '@' :: behind).dropWhile isWordChar = '@' :: '@' :: behind := by
    rw [List.dropWhile_append_of_pos hall, List.dropWhile_cons, not_isWordChar_at]
    simp
  rw [placeholder_append, opening?, htake, hdrop]
  obtain ⟨c, tail, rfl⟩ := List.exists_cons_of_ne_nil hne
  rfl

/-- What an opening finds is a word. -/
theorem isWord_of_opening? {text word behind : List Char}
    (h : opening? text = some (word, behind)) : IsWord word := by
  unfold opening? at h
  split at h
  · next rest =>
      split at h
      · next c tail after hword _ =>
          obtain ⟨rfl, -⟩ : c :: tail = word ∧ after = behind := by simpa using h
          refine ⟨List.cons_ne_nil c tail, ?_⟩
          intro d hd
          rw [← hword] at hd
          exact List.mem_takeWhile_imp hd
      · exact nomatch h
  · exact nomatch h

/-- **An opening is a placeholder at the front**, and it has only one reading. -/
theorem opening?_eq_some_iff {text word behind : List Char} :
    opening? text = some (word, behind) ↔ IsWord word ∧ text = placeholder word ++ behind := by
  constructor
  · intro h
    refine ⟨isWord_of_opening? h, ?_⟩
    rw [opening?_eq h]
    simp [placeholder]
  · rintro ⟨hword, rfl⟩
    exact opening?_placeholder hword behind

/-- Where no opening is found, the text does not open with a placeholder. -/
theorem opening?_eq_none_iff {text : List Char} : opening? text = none ↔ ¬ Opens text := by
  constructor
  · rintro h ⟨word, behind, hword, rfl⟩
    rw [opening?_placeholder hword] at h
    exact nomatch h
  · intro h
    cases hopen : opening? text with
    | none => rfl
    | some found =>
        obtain ⟨word, behind⟩ := found
        obtain ⟨hword, htext⟩ := opening?_eq_some_iff.mp hopen
        exact absurd ⟨word, behind, hword, htext⟩ h

-- ── Steps of the scan ───────────────────────────────────────────────────────

theorem scan_nil : scan [] = [] := by
  rw [scan]
  rfl

/-- A placeholder at the front is one piece. -/
theorem scan_placeholder {word : List Char} (h : IsWord word) (behind : List Char) :
    scan (placeholder word ++ behind) = .keyword word :: scan behind := by
  have hopen := opening?_placeholder h behind
  rw [scan]
  split
  · next found after hfound =>
      rw [hopen] at hfound
      obtain ⟨rfl, rfl⟩ : word = found ∧ behind = after := by simpa using hfound
      rfl
  · next hnone =>
      rw [hopen] at hnone
      cases hnone

/-- A placeholder alone is one keyword. -/
theorem scan_placeholder_alone {word : List Char} (h : IsWord word) :
    scan (placeholder word) = [.keyword word] := by
  have hscan := scan_placeholder h []
  rwa [List.append_nil, scan_nil] at hscan

/-- A character at which no placeholder opens is a piece of its own. -/
theorem scan_cons_of_not_opens {c : Char} {rest : List Char} (h : ¬ Opens (c :: rest)) :
    scan (c :: rest) = .plain c :: scan rest := by
  have hopen := opening?_eq_none_iff.mpr h
  rw [scan]
  split
  · next hsome =>
      rw [hopen] at hsome
      cases hsome
  · rfl

/-- The scan passes a segment in which no placeholder starts character by character. -/
theorem scan_append_of_not_opens (segment text : List Char)
    (h : ∀ i < segment.length, ¬ Opens ((segment ++ text).drop i)) :
    scan (segment ++ text) = segment.map .plain ++ scan text := by
  induction segment with
  | nil => rfl
  | cons c segment ih =>
      have hfirst : ¬ Opens (c :: (segment ++ text)) := h 0 (Nat.zero_lt_succ _)
      have hrest : ∀ i < segment.length, ¬ Opens ((segment ++ text).drop i) := by
        intro i hi
        exact h (i + 1) (Nat.succ_lt_succ hi)
      rw [List.cons_append, scan_cons_of_not_opens hfirst, ih hrest]
      rfl

-- ── Leftmost cuts and pieces ────────────────────────────────────────────────

/-- **The scan of a leftmost cut is that cut.** -/
theorem scan_text_of_leftmost {cut : Cut} (h : cut.Leftmost) : scan cut.text = cut.pieces := by
  induction cut with
  | last segment =>
      have hsegment : ∀ i < segment.length, ¬ Opens ((segment ++ []).drop i) := by
        rw [List.append_nil]
        exact h
      have hscan := scan_append_of_not_opens segment [] hsegment
      rw [List.append_nil, scan_nil, List.append_nil] at hscan
      exact hscan
  | block segment word behind ih =>
      obtain ⟨hword, hsegment, hbehind⟩ := h
      rw [List.append_assoc] at hsegment
      show scan (segment ++ placeholder word ++ behind.text)
        = segment.map .plain ++ .keyword word :: behind.pieces
      rw [List.append_assoc, scan_append_of_not_opens _ _ hsegment,
        scan_placeholder hword, ih hbehind]

/-- A segment in front of a cut joins its first segment. -/
theorem Cut.ofPieces_map_plain (segment : List Char) (pieces : List Piece) :
    ofPieces (segment.map .plain ++ pieces) = segment.foldr push (ofPieces pieces) := by
  induction segment with
  | nil => rfl
  | cons c segment ih =>
      show (ofPieces (segment.map .plain ++ pieces)).push c
        = (segment.foldr push (ofPieces pieces)).push c
      rw [ih]

/-- Characters pushed onto the end of a text stand in its last segment. -/
theorem Cut.foldr_push_last (segment : List Char) :
    segment.foldr push (last []) = last segment := by
  induction segment with
  | nil => rfl
  | cons c segment ih => rw [List.foldr_cons, ih, push]

/-- Characters pushed onto a placeholder stand in the segment before it. -/
theorem Cut.foldr_push_block (segment word : List Char) (behind : Cut) :
    segment.foldr push (block [] word behind) = block segment word behind := by
  induction segment with
  | nil => rfl
  | cons c segment ih => rw [List.foldr_cons, ih, push]

/-- A cut is determined by its pieces. -/
theorem Cut.ofPieces_pieces (cut : Cut) : ofPieces cut.pieces = cut := by
  induction cut with
  | last segment =>
      rw [pieces, ← List.append_nil (segment.map Piece.plain), ofPieces_map_plain]
      exact foldr_push_last segment
  | block segment word behind ih =>
      rw [pieces, ofPieces_map_plain, ofPieces, ih]
      exact foldr_push_block segment word behind

/-- A character that is pushed stays in front of what is filled. -/
theorem Cut.filled_push (put : List Char → List Char) (c : Char) (cut : Cut) :
    (cut.push c).filled put = c :: cut.filled put := by
  cases cut with
  | last segment => rfl
  | block segment word behind => rfl

theorem Cut.text_push (c : Char) (cut : Cut) : (cut.push c).text = c :: cut.text :=
  filled_push placeholder c cut

/-- A character at which no placeholder opens may join the first segment. -/
theorem Cut.leftmost_push {c : Char} {cut : Cut} (hc : ¬ Opens (c :: cut.text))
    (h : cut.Leftmost) : (cut.push c).Leftmost := by
  cases cut with
  | last segment =>
      intro i hi
      cases i with
      | zero => exact hc
      | succ i => exact h i (Nat.lt_of_succ_lt_succ hi)
  | block segment word behind =>
      obtain ⟨hword, hsegment, hbehind⟩ := h
      refine ⟨hword, ?_, hbehind⟩
      intro i hi
      cases i with
      | zero => exact hc
      | succ i => exact hsegment i (Nat.lt_of_succ_lt_succ hi)

/-- **What the scan finds is a leftmost cut of the text.** -/
theorem leftmost_ofPieces_scan (text : List Char) :
    (Cut.ofPieces (scan text)).text = text ∧ (Cut.ofPieces (scan text)).Leftmost := by
  fun_induction scan text with
  | case1 text word behind hopen ih =>
      obtain ⟨hword, rfl⟩ := opening?_eq_some_iff.mp hopen
      obtain ⟨htext, hleft⟩ := ih
      refine ⟨?_, hword, ?_, hleft⟩
      · show [] ++ placeholder word ++ (Cut.ofPieces (scan behind)).text = _
        rw [htext, List.nil_append]
      · intro i hi
        exact absurd hi (Nat.not_lt_zero i)
  | case2 hopen =>
      refine ⟨rfl, ?_⟩
      intro i hi
      exact absurd hi (Nat.not_lt_zero i)
  | case3 c rest hopen ih =>
      obtain ⟨htext, hleft⟩ := ih
      have hc := opening?_eq_none_iff.mp hopen
      constructor
      · rw [Cut.ofPieces, Cut.text_push, htext]
      · rw [Cut.ofPieces]
        exact Cut.leftmost_push (by rw [htext]; exact hc) hleft

/-- The leftmost cut of a text is the one that the scan finds. -/
theorem eq_ofPieces_scan {text : List Char} {cut : Cut} (htext : cut.text = text)
    (h : cut.Leftmost) : cut = Cut.ofPieces (scan text) := by
  rw [← htext, scan_text_of_leftmost h, Cut.ofPieces_pieces]

/-- **One leftmost cut**: every text has exactly one. -/
theorem existsUnique_leftmost (text : List Char) :
    ∃! cut : Cut, cut.text = text ∧ cut.Leftmost := by
  refine ⟨Cut.ofPieces (scan text), leftmost_ofPieces_scan text, ?_⟩
  rintro cut ⟨htext, hleft⟩
  exact eq_ofPieces_scan htext hleft

end Stencil.Placeholder
