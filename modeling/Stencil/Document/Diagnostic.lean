/-!
# Diagnostics — why a text is no document, and where

A failure carries its cause and the number of bytes that stand behind the point of
failure. That number needs no running position: whoever fails knows what is left. The
line and the column are worked out once, at the end, from the whole text.

Lines count from one and end at a line feed. The column is the number of bytes of the
line up to and including the offending one, so right behind a line feed it is zero.
-/

namespace Stencil.Document

/-- The reasons why a text is no document. -/
inductive Cause where
  | endInValue
  | endInList
  | endInObject
  | endInString
  | expectedValue
  | expectedWord
  | expectedColon
  | expectedListEnd
  | expectedObjectEnd
  | trailingComma
  | trailingText
  | nameNotString
  | invalidNumber
  | outOfRange
  | invalidEscape
  | loneSurrogate
  | unpairedSurrogate
  | controlCharacter
  | tooDeep
deriving Repr, DecidableEq

/-- The wording of a cause. -/
def Cause.message : Cause → String
  | .endInValue => "EOF while parsing a value"
  | .endInList => "EOF while parsing a list"
  | .endInObject => "EOF while parsing an object"
  | .endInString => "EOF while parsing a string"
  | .expectedValue => "expected value"
  | .expectedWord => "expected ident"
  | .expectedColon => "expected `:`"
  | .expectedListEnd => "expected `,` or `]`"
  | .expectedObjectEnd => "expected `,` or `\x7d`"
  | .trailingComma => "trailing comma"
  | .trailingText => "trailing characters"
  | .nameNotString => "key must be a string"
  | .invalidNumber => "invalid number"
  | .outOfRange => "number out of range"
  | .invalidEscape => "invalid escape"
  | .loneSurrogate => "lone leading surrogate in hex escape"
  | .unpairedSurrogate => "unexpected end of hex escape"
  | .controlCharacter =>
    "control character (\\u0000-\\u001F) found while parsing a string"
  | .tooDeep => "recursion limit exceeded"

/-- The number of bytes a text takes in UTF-8. -/
def byteCount (text : List Char) : Nat :=
  text.foldl (fun n c => n + c.utf8Size) 0

/-- A cause, and how many bytes of the text stand behind the point of failure. -/
structure Failure where
  cause : Cause
  left : Nat
deriving Repr, DecidableEq

/-- The text ended too early. -/
def Failure.atEnd (cause : Cause) : Failure :=
  { cause, left := 0 }

/-- What is wrong is the first byte of what is left. -/
def Failure.onFirst (cause : Cause) (text : List Char) : Failure :=
  { cause, left := byteCount text - 1 }

/-- What is wrong ends right before what is left. -/
def Failure.upTo (cause : Cause) (rest : List Char) : Failure :=
  { cause, left := byteCount rest }

/-- A place in a text. -/
structure Position where
  line : Nat
  column : Nat
deriving Repr, DecidableEq

/-- The place reached by taking `bytes` bytes from a text, starting at a given place. -/
def Position.advance (start : Position) : List Char → Nat → Position
  | [], _ => start
  | c :: rest, bytes =>
    if bytes < c.utf8Size then { start with column := start.column + bytes }
    else if c = '\n' then Position.advance ⟨start.line + 1, 0⟩ rest (bytes - c.utf8Size)
    else Position.advance ⟨start.line, start.column + c.utf8Size⟩ rest (bytes - c.utf8Size)

/-- A cause with its place. -/
structure Diagnostic where
  cause : Cause
  position : Position
deriving Repr, DecidableEq

/-- Finds the place of a failure in the text that was read. -/
def Failure.locate (failure : Failure) (text : List Char) : Diagnostic :=
  { cause := failure.cause
    position := Position.advance ⟨1, 0⟩ text (byteCount text - failure.left) }

/-- The wording of a diagnostic. -/
def Diagnostic.message (d : Diagnostic) : String :=
  d.cause.message ++ " at line " ++ toString d.position.line ++
    " column " ++ toString d.position.column

end Stencil.Document
