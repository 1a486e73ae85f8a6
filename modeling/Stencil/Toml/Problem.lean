/-!
# Problems — why a settings text is no TOML, and where

A problem has a cause and a mark: the characters at fault, counted from the end of the
text. Its message shows the line in question with the mark below it. A problem without a
mark is its cause alone.
-/

namespace Stencil.Toml

/-- The reasons why a text is no TOML, or not the TOML that was wanted. -/
inductive Cause where
  | missingKey
  | emptyKey
  | invalidKey
  | duplicateKey
  | notExtendable (kind : String)
  | tooManyNames
  | missingEquals
  | extraEquals
  | missingOpening (bracket : Char)
  | unquotedValue
  | overflow
  | unclosedBasic
  | unclosedLiteral
  | invalidEscape
  | controlCharacter
  | unclosedArray
  | missingComma
  | extraComma
  | unclosedInline
  | missingInlineComma
  | extraInlineComma
  | unclosedHeader
  | unclosedListHeader
  | trailingText
  | loneReturn
  | tooDeep
  | unsignedTooLarge
  | wrongWidth (value : Int)
  | integerOverflow
deriving Repr, DecidableEq

/-- The wording of a cause. -/
def Cause.message : Cause → String
  | .missingKey => "invalid key, expected key"
  | .emptyKey => "unquoted keys cannot be empty, expected letters, numbers, `-`, `_`"
  | .invalidKey => "invalid unquoted key, expected letters, numbers, `-`, `_`"
  | .duplicateKey => "duplicate key"
  | .notExtendable kind => "cannot extend value of type " ++ kind ++ " with a dotted key"
  | .tooManyNames => "recursion limit"
  | .missingEquals => "key with no value, expected `=`"
  | .extraEquals => "extra `=`"
  | .missingOpening bracket =>
    "missing opening, expected `" ++ String.singleton bracket ++ "`"
  | .unquotedValue => "string values must be quoted, expected literal string"
  | .overflow => "floating-point number overflowed"
  | .unclosedBasic => "invalid basic string, expected `\"`"
  | .unclosedLiteral => "invalid literal string, expected `'`"
  | .invalidEscape => "invalid escape sequence"
  | .controlCharacter => "invalid control character"
  | .unclosedArray => "unclosed array, expected `]`"
  | .missingComma => "missing comma between array elements, expected `,`"
  | .extraComma => "extra comma in array, expected value"
  | .unclosedInline => "unclosed inline table, expected `\x7d`"
  | .missingInlineComma => "missing comma between key-value pairs, expected `,`"
  | .extraInlineComma => "extra comma in inline table, expected key"
  | .unclosedHeader => "unclosed table, expected `]`"
  | .unclosedListHeader => "unclosed array table, expected `]]`"
  | .trailingText => "unexpected key or value, expected newline, `#`"
  | .loneReturn => "carriage return must be followed by newline, expected newline"
  | .tooDeep => "cannot recurse further; max recursion depth met"
  | .unsignedTooLarge => "u64 value was too large"
  | .wrongWidth value =>
    "invalid type: integer `" ++ toString value ++ "` as " ++
      (if value < 0 then "i128" else "u128") ++ ", expected any valid TOML value"
  | .integerOverflow => "integer number overflowed"

/-- Some characters of a text: how many stand from the first of them to the end of the
    text, and how many there are. -/
structure Mark where
  left : Nat
  width : Nat
deriving Repr, DecidableEq

/-- The end of a text. -/
def Mark.atEnd : Mark :=
  ⟨0, 0⟩

/-- A cause, and the characters at fault if it has a place. -/
structure Problem where
  cause : Cause
  mark : Option Mark
deriving Repr, DecidableEq

/-- A problem with some characters. -/
def Mark.problem (mark : Mark) (cause : Cause) : Problem :=
  ⟨cause, some mark⟩

/-- The lines of a text. -/
def lines (text : List Char) : List (List Char) :=
  match text with
  | [] => [[]]
  | c :: rest =>
    if c = '\n' then [] :: lines rest
    else
      match lines rest with
      | line :: later => (c :: line) :: later
      | [] => [[c]]

/-- The place of a mark: the number of its line and of the characters before it in that
    line, both from zero. The end of a text belongs to the line of its last character,
    even if that is a line feed. -/
def Mark.place (mark : Mark) (text : List Char) : Nat × Nat :=
  let before := text.take (text.length - mark.left)
  let atEnd := mark.left = 0 ∧ before ≠ []
  let settled := if atEnd then before.dropLast else before
  let beforeLines := lines settled
  (beforeLines.length - 1, (beforeLines.getLastD []).length + if atEnd then 1 else 0)

/-- The line that a mark is in, with the mark below it. -/
def Mark.picture (mark : Mark) (text : List Char) : String :=
  let (line, column) := mark.place text
  let number := toString (line + 1)
  let gutter := String.ofList (List.replicate number.length ' ')
  let content := (lines text)[line]?.getD []
  let marks := min mark.width (content.length - column)
  let pointer := String.ofList (List.replicate column ' ' ++ List.replicate (max 1 marks) '^')
  "TOML parse error at line " ++ number ++ ", column " ++ toString (column + 1) ++ "\n" ++
    gutter ++ " |\n" ++
    number ++ " | " ++ String.ofList content ++ "\n" ++
    gutter ++ " | " ++ pointer ++ "\n"

/-- The message of a problem with a text. -/
def Problem.message (problem : Problem) (text : List Char) : String :=
  (problem.mark.map (·.picture text)).getD "" ++ problem.cause.message ++ "\n"

end Stencil.Toml
