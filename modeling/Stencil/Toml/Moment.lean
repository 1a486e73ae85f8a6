import Stencil.Decimal.Digits

/-!
# Moments — dates and times of day

A moment is a date, a time of day, or both, then possibly with an offset from universal
time. It is kept as its normal text: a capital `T` before the time, seconds always
present, a fraction of up to nine digits without zeros at its end.
-/

namespace Stencil.Toml

/-- Two digits as a number within bounds. -/
def twoDigits? (least greatest : Nat) (a b : Char) : Option Nat :=
  if Decimal.isDigit a && Decimal.isDigit b then
    let n := Decimal.decimalValue [a, b]
    if least ≤ n && n ≤ greatest then some n else none
  else none

/-- The number of days in a month. -/
def daysIn (year month : Nat) : Nat :=
  if month = 2 then
    if year % 4 = 0 ∧ (year % 100 ≠ 0 ∨ year % 400 = 0) then 29 else 28
  else if month = 4 ∨ month = 6 ∨ month = 9 ∨ month = 11 then 30
  else 31

/-- A date at the head of a text, and what follows it. -/
def date? : List Char → Option (List Char × List Char)
  | y1 :: y2 :: y3 :: y4 :: '-' :: m1 :: m2 :: '-' :: d1 :: d2 :: rest =>
    if [y1, y2, y3, y4].all Decimal.isDigit then do
      let month ← twoDigits? 1 12 m1 m2
      let _ ← twoDigits? 1 (daysIn (Decimal.decimalValue [y1, y2, y3, y4]) month) d1 d2
      return ([y1, y2, y3, y4, '-', m1, m2, '-', d1, d2], rest)
    else none
  | _ => none

/-- A run of digits behind a point as the fraction of a second. -/
def fraction (digits : List Char) : List Char :=
  let kept := ((digits.take 9).reverse.dropWhile (· == '0')).reverse
  if kept.isEmpty then [] else '.' :: kept

/-- A time of day at the head of a text, and what follows it. -/
def time? : List Char → Option (List Char × List Char)
  | h1 :: h2 :: ':' :: m1 :: m2 :: rest => do
    let _ ← twoDigits? 0 23 h1 h2
    let _ ← twoDigits? 0 59 m1 m2
    let clock := [h1, h2, ':', m1, m2, ':']
    match rest with
    | ':' :: s1 :: s2 :: '.' :: c :: behind =>
      let _ ← twoDigits? 0 60 s1 s2
      if Decimal.isDigit c then
        let digits := c :: behind.takeWhile Decimal.isDigit
        return (clock ++ [s1, s2] ++ fraction digits, behind.dropWhile Decimal.isDigit)
      else none
    | ':' :: s1 :: s2 :: behind =>
      let _ ← twoDigits? 0 60 s1 s2
      return (clock ++ [s1, s2], behind)
    | behind => return (clock ++ ['0', '0'], behind)
  | _ => none

/-- An offset that makes up a whole text. -/
def offset? : List Char → Option (List Char)
  | [] => some []
  | ['Z'] => some ['Z']
  | ['z'] => some ['Z']
  | [sign, h1, h2, ':', m1, m2] => do
    if sign ≠ '+' ∧ sign ≠ '-' then none
    else
      let hours ← twoDigits? 0 23 h1 h2
      let minutes ← twoDigits? 0 59 m1 m2
      let shown := if hours = 0 ∧ minutes = 0 then '+' else sign
      return [shown, h1, h2, ':', m1, m2]
  | _ => none

/-- The normal text of a moment. -/
def moment? (text : List Char) : Option (List Char) :=
  match date? text with
  | some (date, []) => some date
  | some (date, mark :: rest) =>
    if mark = 'T' ∨ mark = 't' ∨ mark = ' ' then do
      let (time, behind) ← time? rest
      let offset ← offset? behind
      return date ++ 'T' :: time ++ offset
    else none
  | none =>
    match time? text with
    | some (time, []) => some time
    | _ => none

end Stencil.Toml
