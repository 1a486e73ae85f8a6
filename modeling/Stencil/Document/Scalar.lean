import Stencil.Text.Scanned
import Stencil.Document.Basic
import Stencil.Document.Diagnostic
import Stencil.Decimal.Lossy

/-!
# Scalars — words, numbers and strings at the head of a text

Each scanner takes what it reads off the front of a text and gives it with the rest,
which is shorter. Numbers keep to the grammar of JSON: no leading zeros, at least one
digit behind a point or an exponent mark. A string ends at its closing quote and holds
no raw control character; a pair of surrogate escapes stands for one character.
-/

namespace Stencil.Document

-- ── Words ───────────────────────────────────────────────────────────────────

/-- The rest of a text behind the letters of a word. -/
def expectWord : List Char → List Char → Except Failure (List Char)
  | [], rest => .ok rest
  | _ :: _, [] => .error (.atEnd .endInValue)
  | letter :: word, c :: rest =>
    if c = letter then expectWord word rest
    else .error (.onFirst .expectedWord (c :: rest))

theorem expectWord_length {word text rest : List Char} (h : expectWord word text = .ok rest) :
    rest.length ≤ text.length := by
  induction word generalizing text with
  | nil => simp [expectWord] at h; simp [h]
  | cons letter word ih =>
    match text with
    | [] => simp [expectWord] at h
    | c :: tail =>
      rw [expectWord] at h
      split at h
      · have := ih h
        simp only [List.length_cons]
        omega
      · cases h

-- ── Numbers ─────────────────────────────────────────────────────────────────

/-- What is read of a number before its exponent: its sign, its significand, and the
    power of ten the significand has to be multiplied by. -/
structure Mantissa where
  negative : Bool
  significand : Nat
  exponent : Int

/-- The double of a mantissa; `rest` is what follows the number. -/
def Mantissa.double (m : Mantissa) (rest : List Char) : Except Failure Number :=
  match Decimal.lossy? m.negative m.significand m.exponent with
  | some x => .ok (.float x)
  | none => .error (.upTo .outOfRange rest)

/-- The greatest exponent that is taken at its value. -/
def greatestExponent : Nat := 0x7FFFFFFF

/-- What is left behind the digit with which an exponent grows beyond the greatest
    one, if there is such a digit. -/
def exponentOverflow? (value : Nat) : List Char → Option (List Char)
  | [] => none
  | c :: rest =>
    if Decimal.isDigit c then
      let next := 10 * value + Decimal.digitValue c
      if greatestExponent < next then some rest else exponentOverflow? next rest
    else none

/-- The sign of an exponent, and the text behind it. -/
def exponentSign : List Char → Bool × List Char
  | '+' :: rest => (false, rest)
  | '-' :: rest => (true, rest)
  | rest => (false, rest)

/-- Reads the text behind an exponent mark. An exponent beyond the greatest one makes
    a number zero, or puts it out of range if it is positive and the significand is not
    zero. -/
def readExponent (m : Mantissa) (text : List Char) : Except Failure (Number × List Char) :=
  let (negativeExponent, digits) := exponentSign text
  match digits with
  | [] => .error (.atEnd .endInValue)
  | c :: _ =>
    if !Decimal.isDigit c then .error (.onFirst .invalidNumber digits)
    else
      let rest := digits.dropWhile Decimal.isDigit
      match exponentOverflow? 0 digits with
      | some behind =>
        if m.significand ≠ 0 ∧ negativeExponent = false then
          .error (.upTo .outOfRange behind)
        else .ok (.float (if m.negative then -0.0 else 0.0), rest)
      | none =>
        let written : Int := Decimal.decimalValue (digits.takeWhile Decimal.isDigit)
        let shift := if negativeExponent then -written else written
        ({ m with exponent := m.exponent + shift }.double rest).map (·, rest)

/-- Reads the text behind a decimal point. Digits of the fraction are taken into the
    significand while it fits; the others are dropped. -/
def readFraction (m : Mantissa) (text : List Char) : Except Failure (Number × List Char) :=
  let digits := text.takeWhile Decimal.isDigit
  let rest := text.dropWhile Decimal.isDigit
  if digits.isEmpty then
    match rest with
    | [] => .error (.atEnd .endInValue)
    | _ :: _ => .error (.onFirst .invalidNumber rest)
  else
    let (significand, taken) := Decimal.absorb m.significand digits
    let m := { m with significand, exponent := m.exponent - taken }
    match rest with
    | 'e' :: behind => readExponent m behind
    | 'E' :: behind => readExponent m behind
    | _ => (m.double rest).map (·, rest)

/-- Reads what follows the whole part of a number. -/
def readTail (m : Mantissa) : List Char → Except Failure (Number × List Char)
  | '.' :: behind => readFraction m behind
  | 'e' :: behind => readExponent m behind
  | 'E' :: behind => readExponent m behind
  | rest =>
    if m.exponent = 0 then .ok (Number.ofMagnitude m.negative m.significand, rest)
    else (m.double rest).map (·, rest)

/-- Reads a number without its sign. -/
def readUnsigned (negative : Bool) : List Char → Except Failure (Number × List Char)
  | [] => .error (.atEnd .endInValue)
  | '0' :: rest =>
    match rest with
    | [] => readTail ⟨negative, 0, 0⟩ []
    | c :: _ =>
      if Decimal.isDigit c then .error (.onFirst .invalidNumber rest)
      else readTail ⟨negative, 0, 0⟩ rest
  | c :: rest =>
    if Decimal.isDigit c then
      let digits := c :: rest.takeWhile Decimal.isDigit
      let (significand, taken) := Decimal.absorb 0 digits
      readTail ⟨negative, significand, (digits.length : Int) - taken⟩
        (rest.dropWhile Decimal.isDigit)
    else .error (.onFirst .invalidNumber (c :: rest))

/-- Reads a number with an optional minus sign. -/
def readNumber : List Char → Except Failure (Number × List Char)
  | '-' :: rest => readUnsigned true rest
  | text => readUnsigned false text

-- ── Numbers leave a shorter text ────────────────────────────────────────────

theorem map_rest_eq {α : Type} {result : Except Failure α} {rest : List Char}
    {out : α × List Char} (h : result.map (·, rest) = .ok out) : out.2 = rest := by
  cases result with
  | error _ => cases h
  | ok _ => cases h; rfl

theorem readExponent_length {m : Mantissa} {text : List Char} {out : Number × List Char}
    (h : readExponent m text = .ok out) : out.2.length ≤ text.length := by
  have sign : (exponentSign text).2.length ≤ text.length := by
    unfold exponentSign
    split <;> simp
  have tail := length_dropWhile_le (p := Decimal.isDigit) (exponentSign text).2
  simp only [readExponent] at h
  split at h
  · cases h
  · split at h
    · cases h
    · split at h
      · split at h
        · cases h
        · cases h
          simp_all only
          omega
      · rw [map_rest_eq h]
        simp_all only
        omega

theorem readFraction_length {m : Mantissa} {text : List Char} {out : Number × List Char}
    (h : readFraction m text = .ok out) : out.2.length ≤ text.length := by
  have tail := length_dropWhile_le (p := Decimal.isDigit) text
  simp only [readFraction] at h
  split at h
  · split at h <;> cases h
  · split at h
    · next behind heq =>
      have := readExponent_length h
      simp only [heq, List.length_cons] at tail
      omega
    · next behind heq =>
      have := readExponent_length h
      simp only [heq, List.length_cons] at tail
      omega
    · rw [map_rest_eq h]
      exact tail

theorem readTail_length {m : Mantissa} {text : List Char} {out : Number × List Char}
    (h : readTail m text = .ok out) : out.2.length ≤ text.length := by
  unfold readTail at h
  split at h
  · have := readFraction_length h
    simp only [List.length_cons]
    omega
  · have := readExponent_length h
    simp only [List.length_cons]
    omega
  · have := readExponent_length h
    simp only [List.length_cons]
    omega
  · split at h
    · cases h; exact Nat.le_refl _
    · exact Nat.le_of_eq (congrArg List.length (map_rest_eq h))

theorem readUnsigned_length {negative : Bool} {text : List Char} {out : Number × List Char}
    (h : readUnsigned negative text = .ok out) : out.2.length < text.length := by
  unfold readUnsigned at h
  split at h
  · cases h
  · split at h
    · have := readTail_length h
      simp only [List.length_cons, List.length_nil] at this ⊢
      omega
    · split at h
      · cases h
      · have := readTail_length h
        simp only [List.length_cons] at this ⊢
        omega
  · next c rest _ =>
    split at h
    · have := readTail_length h
      have tail := length_dropWhile_le (p := Decimal.isDigit) rest
      simp only [List.length_cons]
      omega
    · cases h

theorem readNumber_length {text : List Char} {out : Number × List Char}
    (h : readNumber text = .ok out) : out.2.length < text.length := by
  unfold readNumber at h
  split at h
  · have := readUnsigned_length h
    simp only [List.length_cons]
    omega
  · exact readUnsigned_length h

-- ── Strings ─────────────────────────────────────────────────────────────────

/-- The value of a hexadecimal digit in either case. -/
def hexValue? (c : Char) : Option Nat :=
  if '0' ≤ c && c ≤ '9' then some (c.toNat - 48)
  else if 'a' ≤ c && c ≤ 'f' then some (c.toNat - 87)
  else if 'A' ≤ c && c ≤ 'F' then some (c.toNat - 55)
  else none

/-- Reads the four digits of an escape. Four bytes are taken whatever they are, so a
    text that holds fewer ends too early. -/
def readHex (text : List Char) : Except Failure (Scanned Nat text) :=
  match text with
  | a :: b :: c :: d :: rest =>
    match hexValue? a, hexValue? b, hexValue? c, hexValue? d with
    | some a, some b, some c, some d =>
      .ok ⟨((a * 16 + b) * 16 + c) * 16 + d, rest, by simp only [List.length_cons]; omega⟩
    | _, _, _, _ => .error ⟨.invalidEscape, byteCount text - 4⟩
  | _ =>
    if byteCount text < 4 then .error (.atEnd .endInString)
    else .error ⟨.invalidEscape, byteCount text - 4⟩

/-- The code unit opens a pair of surrogates. -/
def leadsPair (unit : Nat) : Bool :=
  0xD800 ≤ unit && unit < 0xDC00

/-- The code unit closes a pair of surrogates. -/
def closesPair (unit : Nat) : Bool :=
  0xDC00 ≤ unit && unit < 0xE000

/-- The character that a pair of surrogates stands for. -/
def pairedChar (lead trail : Nat) : Char :=
  Char.ofNat (0x10000 + (lead - 0xD800) * 0x400 + (trail - 0xDC00))

/-- Reads the escape that has to follow the leading half of a pair. -/
def readTrail (lead : Nat) (text : List Char) : Except Failure (Scanned Char text) :=
  match text with
  | [] => .error (.atEnd .endInString)
  | '\\' :: [] => .error (.atEnd .endInString)
  | '\\' :: 'u' :: rest =>
    match readHex rest with
    | .error e => .error e
    | .ok ⟨unit, behind, shorter⟩ =>
      if closesPair unit then
        .ok ⟨pairedChar lead unit, behind, by simp only [List.length_cons]; omega⟩
      else .error (.upTo .loneSurrogate behind)
  | '\\' :: rest => .error (.onFirst .unpairedSurrogate rest)
  | text => .error (.onFirst .unpairedSurrogate text)

/-- Reads the digits of a character escape, and the second escape of a pair. -/
def readCode (text : List Char) : Except Failure (Scanned Char text) :=
  match readHex text with
  | .error e => .error e
  | .ok ⟨unit, rest, shorter⟩ =>
    if closesPair unit then .error (.upTo .loneSurrogate rest)
    else if leadsPair unit then
      match readTrail unit rest with
      | .error e => .error e
      | .ok ⟨c, behind, shorter'⟩ => .ok ⟨c, behind, Nat.lt_trans shorter' shorter⟩
    else .ok ⟨Char.ofNat unit, rest, shorter⟩

/-- The character that a letter behind a backslash stands for. -/
def simpleEscape? : Char → Option Char
  | '"' => some '"'
  | '\\' => some '\\'
  | '/' => some '/'
  | 'b' => some '\x08'
  | 'f' => some '\x0c'
  | 'n' => some '\n'
  | 'r' => some '\r'
  | 't' => some '\t'
  | _ => none

/-- Reads what follows a backslash. -/
def readEscape (text : List Char) : Except Failure (Scanned Char text) :=
  match text with
  | [] => .error (.atEnd .endInString)
  | 'u' :: rest =>
    match readCode rest with
    | .error e => .error e
    | .ok ⟨c, behind, shorter⟩ => .ok ⟨c, behind, by simp only [List.length_cons]; omega⟩
  | c :: rest =>
    match simpleEscape? c with
    | some meant => .ok ⟨meant, rest, length_lt_cons _ rest⟩
    | none => .error (.onFirst .invalidEscape (c :: rest))

/-- Reads the inside of a string and its closing quote; `taken` holds the characters
    read so far, the latest first. -/
def readQuoted (taken : List Char) (text : List Char) : Except Failure (Scanned String text) :=
  match text with
  | [] => .error (.atEnd .endInString)
  | '"' :: rest => .ok ⟨String.ofList taken.reverse, rest, length_lt_cons _ rest⟩
  | '\\' :: rest =>
    match readEscape rest with
    | .error e => .error e
    | .ok ⟨c, behind, shorter⟩ =>
      match readQuoted (c :: taken) behind with
      | .error e => .error e
      | .ok ⟨s, final, shorter'⟩ => .ok ⟨s, final, by simp only [List.length_cons]; omega⟩
  | c :: rest =>
    if c.toNat < 32 then .error (.onFirst .controlCharacter (c :: rest))
    else
      match readQuoted (c :: taken) rest with
      | .error e => .error e
      | .ok ⟨s, final, shorter'⟩ => .ok ⟨s, final, by simp only [List.length_cons]; omega⟩
termination_by text.length
decreasing_by all_goals simp only [List.length_cons]; omega

end Stencil.Document
