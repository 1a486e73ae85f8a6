import Stencil.Toml.Moment
import Stencil.Toml.Quoted
import Stencil.Toml.Table

/-!
# TOML scalars — numbers, moments, words and strings

Underscores may stand between the digits of a number. Whole numbers are written in base
ten with an optional sign, or in base sixteen, eight or two behind a mark. A number with a
fraction or an exponent is the nearest double; one that is infinite is a misfit.
-/

namespace Stencil.Toml

/-- The digits of a run in which single underscores may stand between two digits;
    `between` says that a digit has just been read. -/
def ungroup? (isDigit : Char → Bool) (between : Bool) : List Char → Option (List Char)
  | [] => if between then some [] else none
  | c :: rest =>
    if c = '_' then if between then ungroup? isDigit false rest else none
    else if isDigit c then (ungroup? isDigit true rest).map (c :: ·)
    else none

/-- Splits off a sign; true stands for minus. -/
def signed : List Char → Bool × List Char
  | '+' :: rest => (false, rest)
  | '-' :: rest => (true, rest)
  | rest => (false, rest)

/-- Digits with no zero in front, except for zero itself. -/
def plainDigits? (text : List Char) : Option (List Char) :=
  match ungroup? Decimal.isDigit false text with
  | some ('0' :: _ :: _) => none
  | digits => digits

/-- The value of digits in a base. -/
def baseValue? (base : Nat) (text : List Char) : Option Nat := do
  let isDigit (c : Char) : Bool := match Document.hexValue? c with
    | some value => value < base
    | none => false
  let digits ← ungroup? isDigit false text
  return digits.foldl (fun n c => base * n + (Document.hexValue? c).getD 0) 0

/-- A whole number. -/
def integer? : List Char → Option Int
  | '0' :: 'x' :: digits => (baseValue? 16 digits).map Int.ofNat
  | '0' :: 'o' :: digits => (baseValue? 8 digits).map Int.ofNat
  | '0' :: 'b' :: digits => (baseValue? 2 digits).map Int.ofNat
  | text =>
    let (negative, body) := signed text
    (plainDigits? body).map fun digits =>
      let n : Int := Decimal.decimalValue digits
      if negative then -n else n

/-- The double nearest to `digits · 10^exponent`; infinite if it is out of range. -/
def nearest (digits : List Char) (exponent : Int) : Float :=
  let significant := digits.dropWhile (· == '0')
  let lead := exponent + significant.length
  if significant.isEmpty ∨ lead < -400 then 0.0
  else if 400 < lead then 1.0 / 0.0
  else Float.ofScientific (Decimal.decimalValue significant) (exponent < 0) exponent.natAbs

/-- The number behind an exponent mark. -/
def exponent? (text : List Char) : Option Int :=
  let (negative, body) := signed text
  (ungroup? Decimal.isDigit false body).map fun digits =>
    let n : Int := Decimal.decimalValue digits
    if negative then -n else n

/-- Splits a text at the first character that fits. -/
def cutAt (p : Char → Bool) (text : List Char) : List Char × Option (List Char) :=
  match text.dropWhile (!p ·) with
  | [] => (text, none)
  | _ :: behind => (text.takeWhile (!p ·), some behind)

/-- A number with a fraction or an exponent. -/
def float? (text : List Char) : Option Float := do
  let (negative, body) := signed text
  let (mantissa, mark) := cutAt (fun c => c == 'e' || c == 'E') body
  let (whole, point) := cutAt (· == '.') mantissa
  let digits ← plainDigits? whole
  let behind ← match point with
    | none => some []
    | some text => ungroup? Decimal.isDigit false text
  let exponent ← match mark with
    | none => some 0
    | some text => exponent? text
  let x := nearest (digits ++ behind) (exponent - behind.length)
  return if negative then -x else x

/-- The words that stand for numbers which are no numbers, or infinite. -/
def special? (text : List Char) : Option Float :=
  let (negative, body) := signed text
  match body with
  | ['i', 'n', 'f'] => some (if negative then -(1.0 / 0.0) else 1.0 / 0.0)
  | ['n', 'a', 'n'] => some (0.0 / 0.0)
  | _ => none

/-- What may follow the digits at the head of a grouped word: single underscores, each
    between two hexadecimal digits, and anything else that is no point or exponent mark.
    `before` is the character before the text. -/
def isGrouped (before : Char) : List Char → Bool
  | [] => before != '_'
  | c :: rest =>
    if c = '_' then (Document.hexValue? before).isSome && isGrouped c rest
    else
      (before != '_' || (Document.hexValue? c).isSome) &&
        !(['.', 'e', 'E', ' '].contains c) && isGrouped c rest

/-- A word that is taken for a whole number without being one: digits, an underscore and
    whatever else may be grouped, or the mark of a base with nothing behind it. -/
def isMisfit (word : List Char) : Bool :=
  match word with
  | ['0', 'x'] | ['0', 'o'] | ['0', 'b'] => true
  | word =>
    match (signed word).2.dropWhile Decimal.isDigit, (signed word).2 with
    | '_' :: rest, digit :: _ =>
      Decimal.isDigit digit && digit != '0' && isGrouped digit ('_' :: rest)
    | _, _ => false

/-- The value of an unquoted word with its mark. -/
def wordValue (mark : Mark) (word : List Char) : Except Cause Value :=
  match word with
  | ['t', 'r', 'u', 'e'] => .ok (.boolean true)
  | ['f', 'a', 'l', 's', 'e'] => .ok (.boolean false)
  | word =>
    match special? word, integer? word, moment? word, float? word with
    | some x, _, _, _ => .ok (.float x)
    | none, some n, _, _ => .ok (.integer n mark)
    | none, none, some text, _ => .ok (.moment (String.ofList text))
    | none, none, none, some x => .ok (if x.isInf then .misfit .overflow mark else .float x)
    | none, none, none, none =>
      if isMisfit word then .ok (.misfit .integerOverflow mark) else .error .unquotedValue

/-- The value that a token stands for. A quoted one is a string, any other one a word. -/
def Token.value (token : Token) : Except Problem Value :=
  match token.kind with
  | .quoted form => (token.string form).map Value.string
  | _ => (wordValue token.mark token.text).mapError token.mark.problem

end Stencil.Toml
