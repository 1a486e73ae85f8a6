import Stencil.Document.Basic
import Stencil.Decimal.Float

/-!
# Rendering — documents as JSON text

One writer serves two layouts. The compact layout puts no space anywhere; the indented
layout puts each item and each member on a line of its own, two spaces deeper than
what encloses it, and one space after the colon. In both, an empty list is `[]` and an
empty object two braces, and members keep their order.
-/

namespace Stencil

-- ── Strings ─────────────────────────────────────────────────────────────────

/-- A lowercase hexadecimal digit. -/
def hexDigit (n : Nat) : Char :=
  if n < 10 then Char.ofNat (48 + n) else Char.ofNat (87 + n % 16)

/-- A character as it stands inside a quoted string: the quote, the backslash and the
    control characters are escaped, everything else stands for itself. -/
def escapeChar (c : Char) : List Char :=
  match c with
  | '"' => ['\\', '"']
  | '\\' => ['\\', '\\']
  | '\x08' => ['\\', 'b']
  | '\x0c' => ['\\', 'f']
  | '\n' => ['\\', 'n']
  | '\r' => ['\\', 'r']
  | '\t' => ['\\', 't']
  | c =>
    if c.toNat < 32 then
      ['\\', 'u', '0', '0', hexDigit (c.toNat / 16), hexDigit (c.toNat % 16)]
    else [c]

/-- A quoted string. -/
def quoted (text : String) : List Char :=
  '"' :: text.toList.flatMap escapeChar ++ ['"']

-- ── Numbers ─────────────────────────────────────────────────────────────────

/-- An integer in base ten. -/
def integerText (value : Int) : List Char :=
  if value < 0 then '-' :: Decimal.decimal value.natAbs else Decimal.decimal value.natAbs

/-- A number: an integer in base ten, a double with its shortest digits. -/
def Number.text : Number → List Char
  | .integer value _ => integerText value
  | .float value => Decimal.floatText Decimal.documentStyle value

-- ── Documents ───────────────────────────────────────────────────────────────

/-- Where blanks go between the parts of a document. -/
inductive Layout where
  | compact
  | indented
deriving Repr, DecidableEq

/-- What stands before an item at the given depth. -/
def Layout.gap : Layout → Nat → List Char
  | .compact, _ => []
  | .indented, depth => '\n' :: List.replicate (2 * depth) ' '

/-- What stands before the bracket that closes a container: a gap, unless it is empty. -/
def Layout.closing {α : Type} (layout : Layout) (depth : Nat) : List α → List Char
  | [] => []
  | _ :: _ => layout.gap depth

/-- What stands between a name and its value. -/
def Layout.colon : Layout → List Char
  | .compact => [':']
  | .indented => [':', ' ']

/-- What follows an item: a comma, unless it is the last one. -/
def separator {α : Type} : List α → List Char
  | [] => []
  | _ :: _ => [',']

namespace Document

mutual

/-- The text of a document inside `depth` enclosing ones. -/
def render (layout : Layout) (depth : Nat) : Document → List Char
  | .null => ['n', 'u', 'l', 'l']
  | .bool true => ['t', 'r', 'u', 'e']
  | .bool false => ['f', 'a', 'l', 's', 'e']
  | .number value => value.text
  | .string value => quoted value
  | .array items =>
    '[' :: renderItems layout (depth + 1) items ++ layout.closing depth items ++ [']']
  | .object members =>
    '{' :: renderMembers layout (depth + 1) members ++ layout.closing depth members ++ ['}']

/-- The items of a list, each behind its gap, with commas between them. -/
def renderItems (layout : Layout) (depth : Nat) : List Document → List Char
  | [] => []
  | item :: items =>
    layout.gap depth ++ render layout depth item ++ separator items
      ++ renderItems layout depth items

/-- The members of an object, each behind its gap, with commas between them. -/
def renderMembers (layout : Layout) (depth : Nat) : List (String × Document) → List Char
  | [] => []
  | (name, value) :: members =>
    layout.gap depth ++ quoted name ++ layout.colon ++ render layout depth value
      ++ separator members ++ renderMembers layout depth members

end

/-- The document in a given layout. -/
def text (layout : Layout) (document : Document) : String :=
  String.ofList (document.render layout 0)

/-- The document on one line without blanks. -/
def compact (document : Document) : String :=
  document.text .compact

/-- The document on several lines, two spaces a level. -/
def indented (document : Document) : String :=
  document.text .indented

end Document

end Stencil
