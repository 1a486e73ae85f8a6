import Stencil.Toml.Problem

/-!
# Tokens — the pieces a settings text is made of

A text is cut into tokens from left to right: brackets and signs, blanks, line ends,
comments, quoted strings, and words, which are whatever else there is. Nothing is refused
at this stage, and nothing is lost (`flatMap_text_tokens`). A string without an end goes
up to the end of its line, or of the text if it may span lines.
-/

namespace Stencil.Toml

/-- How a kind of strings is written. -/
structure StringForm where
  quote : Char
  escapes : Bool
  multiline : Bool
deriving Repr, DecidableEq

/-- What a token is. -/
inductive TokenKind where
  | openBracket
  | closeBracket
  | openBrace
  | closeBrace
  | comma
  | equals
  | dot
  | spaces
  | lineEnd
  | comment
  | quoted (form : StringForm)
  | word
deriving Repr, DecidableEq

/-- A piece of a text; `left` counts the characters from its first one to the end of the
    text. -/
structure Token where
  kind : TokenKind
  text : List Char
  left : Nat
deriving Repr, DecidableEq

/-- The characters of a token. -/
def Token.mark (token : Token) : Mark :=
  ⟨token.left, token.text.length⟩

/-- The place right before a token. -/
def Token.before (token : Token) : Mark :=
  ⟨token.left, 0⟩

/-- The place right behind a token. -/
def Token.behind (token : Token) : Mark :=
  ⟨token.left - token.text.length, 0⟩

/-- A space or a tab. -/
def isSpace (c : Char) : Bool :=
  c == ' ' || c == '\t'

/-- A character that may not stand in a text by itself. -/
def isControl (c : Char) : Bool :=
  (c.toNat < 32 && c != '\t') || c.toNat = 127

/-- The characters that end a word. -/
def endsWord (c : Char) : Bool :=
  ['.', '=', ',', '[', ']', '{', '}', '#', ' ', '\t', '\r', '\n'].contains c

/-- The length of a comment behind its mark. -/
def commentLength : List Char → Nat
  | [] => 0
  | '\n' :: _ => 0
  | '\r' :: '\n' :: _ => 0
  | _ :: rest => commentLength rest + 1

/-- The length of a string on one line behind its opening quote. -/
def lineStringLength (form : StringForm) : List Char → Nat
  | [] => 0
  | [c] => if c = '\n' then 0 else 1
  | c :: d :: rest =>
    if c = '\n' then 0
    else if c = form.quote then 1
    else if form.escapes = true ∧ c = '\\' ∧ (d = '\\' ∨ d = form.quote) then
      lineStringLength form rest + 2
    else lineStringLength form (d :: rest) + 1

/-- The length of a string that may span lines behind its opening quotes. Up to two quotes
    right before the three closing ones belong to it. -/
def textStringLength (form : StringForm) : List Char → Nat
  | [] => 0
  | [_] => 1
  | c :: d :: rest =>
    if c = form.quote ∧ d = form.quote ∧ rest.head? = some form.quote then
      3 + min 2 ((rest.drop 1).takeWhile (· == form.quote)).length
    else if form.escapes = true ∧ c = '\\' ∧ (d = '\\' ∨ d = form.quote) then
      textStringLength form rest + 2
    else textStringLength form (d :: rest) + 1

/-- The kind of a string that a quote opens, and its length behind the quote. -/
def stringExtent (quote : Char) (escapes : Bool) (rest : List Char) : TokenKind × Nat :=
  if [quote, quote].isPrefixOf rest then
    (.quoted ⟨quote, escapes, true⟩, textStringLength ⟨quote, escapes, true⟩ (rest.drop 2) + 2)
  else (.quoted ⟨quote, escapes, false⟩, lineStringLength ⟨quote, escapes, false⟩ rest)

/-- The kind of the token that a character opens, and how many of the characters behind
    it belong to the token. -/
def extent (c : Char) (rest : List Char) : TokenKind × Nat :=
  match c with
  | '[' => (.openBracket, 0)
  | ']' => (.closeBracket, 0)
  | '{' => (.openBrace, 0)
  | '}' => (.closeBrace, 0)
  | ',' => (.comma, 0)
  | '=' => (.equals, 0)
  | '.' => (.dot, 0)
  | '\n' => (.lineEnd, 0)
  | '\r' => (.lineEnd, if rest.head? = some '\n' then 1 else 0)
  | '#' => (.comment, commentLength rest)
  | '"' => stringExtent '"' true rest
  | '\x27' => stringExtent '\x27' false rest
  | c =>
    if isSpace c then (.spaces, (rest.takeWhile isSpace).length)
    else (.word, (rest.takeWhile (!endsWord ·)).length)

/-- The tokens of a text that has `left` characters. -/
def tokensFrom (left : Nat) (text : List Char) : List Token :=
  match text with
  | [] => []
  | c :: rest =>
    let (kind, more) := extent c rest
    ⟨kind, c :: rest.take more, left⟩ :: tokensFrom (left - (more + 1)) (rest.drop more)
termination_by text.length
decreasing_by simp only [List.length_drop, List.length_cons]; omega

/-- The tokens of a text. -/
def tokens (text : List Char) : List Token :=
  tokensFrom text.length text

/-- The tokens of a text make up the whole text. -/
theorem flatMap_text_tokensFrom (left : Nat) (text : List Char) :
    (tokensFrom left text).flatMap Token.text = text := by
  fun_induction tokensFrom left text with
  | case1 => rfl
  | case2 left c rest kind more h ih =>
    rw [List.flatMap_cons, ih]
    simp only [List.cons_append, List.take_append_drop]

/-- Nothing is lost and nothing is added by cutting a text into tokens. -/
theorem flatMap_text_tokens (text : List Char) : (tokens text).flatMap Token.text = text :=
  flatMap_text_tokensFrom text.length text

end Stencil.Toml
