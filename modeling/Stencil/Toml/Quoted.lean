import Stencil.Document.Scalar
import Stencil.Toml.Token

/-!
# Quoted strings — the four kinds and what they stand for

Basic strings have escapes, literal strings have none; both may span lines inside tripled
quotes, where a line end right behind the opening quotes is dropped. Line ends inside a
string are kept as they are. A backslash at the end of a line drops the blanks and line
ends that follow it.
-/

namespace Stencil.Toml

/-- The character with a code point, if there is one. -/
def scalar? (n : Nat) : Option Char :=
  if h : n.isValidChar then some ⟨n.toUInt32, by
    have small : n < 0x100000000 := by
      rcases h with h | h <;> omega
    have same : n.toUInt32.toNat = n := Nat.mod_eq_of_lt small
    rw [UInt32.isValidChar, same]
    exact h⟩
  else none

/-- The code point written with the first hexadecimal digits of a text. -/
def hexCode? (digits : Nat) (text : List Char) : Option Char := do
  let code := text.take digits
  if code.length < digits then none
  else
    let values ← code.mapM Document.hexValue?
    scalar? (values.foldl (fun n d => 16 * n + d) 0)

/-- What an escape behind a backslash stands for, and how many characters it takes. -/
def escape? : List Char → Option (Char × Nat)
  | 'b' :: _ => some ('\x08', 1)
  | 't' :: _ => some ('\t', 1)
  | 'n' :: _ => some ('\n', 1)
  | 'f' :: _ => some ('\x0c', 1)
  | 'r' :: _ => some ('\r', 1)
  | 'e' :: _ => some ('\x1b', 1)
  | '"' :: _ => some ('"', 1)
  | '\\' :: _ => some ('\\', 1)
  | 'x' :: rest => (hexCode? 2 rest).map (·, 3)
  | 'u' :: rest => (hexCode? 4 rest).map (·, 5)
  | 'U' :: rest => (hexCode? 8 rest).map (·, 9)
  | _ => none

/-- A text without the blanks and line ends at its head. -/
def skipGap : List Char → List Char
  | [] => []
  | '\n' :: rest => skipGap rest
  | '\r' :: '\n' :: rest => skipGap rest
  | c :: rest => if isSpace c then skipGap rest else c :: rest

theorem skipGap_length (text : List Char) : (skipGap text).length ≤ text.length := by
  fun_induction skipGap text with
  | case1 => exact Nat.le_refl _
  | case2 rest ih => simp only [List.length_cons]; omega
  | case3 rest ih => simp only [List.length_cons]; omega
  | case4 c rest _ _ _ ih => simp only [List.length_cons]; omega
  | case5 => exact Nat.le_refl _

/-- What follows a backslash that ends its line, where strings may span lines. -/
def StringForm.goesOn? (form : StringForm) (text : List Char) : Option (List Char) :=
  if form.multiline then
    match text.dropWhile isSpace with
    | '\n' :: _ => some (skipGap text)
    | '\r' :: '\n' :: _ => some (skipGap text)
    | _ => none
  else none

theorem StringForm.goesOn?_length {form : StringForm} {text rest : List Char}
    (h : form.goesOn? text = some rest) : rest.length ≤ text.length := by
  unfold StringForm.goesOn? at h
  split at h
  · split at h
    · cases h; exact skipGap_length text
    · cases h; exact skipGap_length text
    · cases h
  · cases h

/-- Reads the inside of a string. `behind` characters follow it in the text, and `taken`
    holds the characters read so far, the latest first. -/
def StringForm.decode (form : StringForm) (behind : Nat) (taken : List Char)
    (text : List Char) : Except Problem String :=
  match text with
  | [] => .ok (String.ofList taken.reverse)
  | c :: rest =>
    if c = '\\' ∧ form.escapes = true then
      match _h : form.goesOn? rest with
      | some further => form.decode behind taken further
      | none =>
        match escape? rest with
        | some (meant, length) => form.decode behind (meant :: taken) (rest.drop length)
        | none => .error ((Mark.mk (rest.length + 1 + behind) 1).problem .invalidEscape)
    else if form.multiline = true ∧ (c = '\n' ∨ c = '\r' ∧ rest.head? = some '\n') then
      form.decode behind (c :: taken) rest
    else if isControl c then
      .error ((Mark.mk (rest.length + 1 + behind) 1).problem .controlCharacter)
    else form.decode behind (c :: taken) rest
termination_by text.length
decreasing_by
  · have := form.goesOn?_length _h
    simp only [List.length_cons]; omega
  · simp only [List.length_drop, List.length_cons]; omega
  · exact Nat.lt_succ_self _
  · exact Nat.lt_succ_self _

/-- The quotes at either end of a string. -/
def StringForm.delimiter (form : StringForm) : List Char :=
  List.replicate (if form.multiline then 3 else 1) form.quote

/-- The problem with a string that has no end. -/
def StringForm.unclosed (form : StringForm) : Cause :=
  if form.escapes then .unclosedBasic else .unclosedLiteral

/-- Drops a line end at the head of a text. -/
def dropLineEnd : List Char → List Char
  | '\n' :: rest => rest
  | '\r' :: '\n' :: rest => rest
  | rest => rest

/-- The string that a quoted token stands for. -/
def Token.string (token : Token) (form : StringForm) : Except Problem String :=
  let body := token.text.drop form.delimiter.length
  if form.delimiter.isSuffixOf body then
    let inside := body.take (body.length - form.delimiter.length)
    form.decode (token.left - token.text.length + form.delimiter.length) []
      (if form.multiline then dropLineEnd inside else inside)
  else .error (token.behind.problem form.unclosed)

end Stencil.Toml
