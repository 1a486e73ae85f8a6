/-!
# Placeholders — the keywords a text refers to

A placeholder is a word of ASCII letters, digits and underscores between two pairs of
at-signs. A text is scanned once, from left to right: a placeholder that opens at the
current character is one piece and the scan goes on behind it, any other character is a
piece of its own. So placeholders never overlap, and the sources of the pieces put
together are the text again (`sources_scan`).
-/

namespace Stencil.Placeholder

/-- The characters a keyword consists of. -/
def isWordChar (c : Char) : Bool :=
  ('A' ≤ c && c ≤ 'Z') || ('a' ≤ c && c ≤ 'z') || ('0' ≤ c && c ≤ '9') || c == '_'

/-- A part of a text: a character that stands for itself, or a placeholder. -/
inductive Piece where
  | plain (c : Char)
  | keyword (word : List Char)
deriving Repr, DecidableEq

/-- The characters of a text that a piece was read from. -/
def Piece.source : Piece → List Char
  | .plain c => [c]
  | .keyword word => '@' :: '@' :: word ++ ['@', '@']

/-- The keyword that a piece refers to. -/
def Piece.keyword? : Piece → Option String
  | .plain _ => none
  | .keyword word => some (String.ofList word)

/-- The word of a placeholder that opens the text, and what follows the placeholder. -/
def opening? : List Char → Option (List Char × List Char)
  | '@' :: '@' :: rest =>
    match rest.takeWhile isWordChar, rest.dropWhile isWordChar with
    | c :: word, '@' :: '@' :: behind => some (c :: word, behind)
    | _, _ => none
  | _ => none

/-- An opening is a placeholder and what stands behind it. -/
theorem opening?_eq {text word behind : List Char} (h : opening? text = some (word, behind)) :
    text = '@' :: '@' :: word ++ '@' :: '@' :: behind := by
  unfold opening? at h
  split at h
  · next rest =>
    have whole := List.takeWhile_append_dropWhile (p := isWordChar) (l := rest)
    split at h
    · next c tail after hword hbehind =>
      cases h
      rw [hword, hbehind] at whole
      simp [← whole]
    · cases h
  · cases h

/-- The pieces of a text, in order. -/
def scan (text : List Char) : List Piece :=
  match _h : opening? text with
  | some (word, behind) => .keyword word :: scan behind
  | none =>
    match text with
    | [] => []
    | c :: rest => .plain c :: scan rest
termination_by text.length
decreasing_by
  · have := congrArg List.length (opening?_eq ‹_›)
    simp only [List.length_cons, List.length_append] at this
    omega
  · simp

/-- Nothing is lost and nothing is added by scanning a text. -/
theorem sources_scan (text : List Char) : (scan text).flatMap Piece.source = text := by
  fun_induction scan text with
  | case1 text word behind h ih =>
    rw [List.flatMap_cons, ih, opening?_eq h]
    simp [Piece.source]
  | case2 h => rfl
  | case3 c rest h ih =>
    rw [List.flatMap_cons, ih]
    rfl

/-- The keywords a text refers to, each once, in the order of their first occurrence. -/
def keywords (text : String) : List String :=
  ((scan text.toList).filterMap Piece.keyword?).eraseDups

end Stencil.Placeholder
