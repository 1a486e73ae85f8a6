import Mathlib.Data.List.TakeWhile
import Stencil.Document.Rendering
import Stencil.Document.Scalar

/-!
# Scalars — what is written as a scalar is read back

Whoever reads a scalar stops where it ends. A string says so itself; a number goes on as long
as it can, so what follows it must not look like more of it (`EndsNumber`). Under that proviso
`readNumber_integerText` reads every integer of a document back, and `readQuoted_escaped` every
string, one escaped character at a time.
-/

namespace Stencil

open Decimal

-- ── Digits ──────────────────────────────────────────────────────────────────

namespace Decimal

theorem decimal_zero : decimal 0 = ['0'] := by
  rw [decimal]
  rfl

/-- A number has a first digit. -/
theorem exists_decimal_eq_cons (n : Nat) :
    ∃ c rest, decimal n = c :: rest ∧ isDigit c = true := by
  cases h : decimal n with
  | nil =>
      rw [decimal] at h
      split at h
      · exact absurd h (List.cons_ne_nil _ _)
      · exact absurd h (by simp)
  | cons c rest =>
      refine ⟨c, rest, rfl, isDigit_of_mem_decimal (n := n) ?_⟩
      rw [h]
      exact List.mem_cons_self ..

theorem digitChar_ne_zero : ∀ n < 10, 0 < n → digitChar n ≠ '0' := by decide

/-- The digits of a positive number do not begin with a zero. -/
theorem exists_decimal_eq_cons_ne_zero {n : Nat} (h : 0 < n) :
    ∃ c rest, decimal n = c :: rest ∧ c ≠ '0' := by
  induction n using Nat.strongRecOn with
  | ind n ih =>
      rw [decimal]
      by_cases hsmall : n < 10
      · rw [if_pos hsmall]
        exact ⟨digitChar n, [], rfl, digitChar_ne_zero n hsmall h⟩
      · rw [if_neg hsmall]
        obtain ⟨c, rest, heq, hc⟩ := ih (n / 10) (by omega) (by omega)
        refine ⟨c, rest ++ [digitChar n], ?_, hc⟩
        rw [heq, List.cons_append]

/-- Further digits make no number smaller. -/
theorem le_foldl_digits (digits : List Char) (n : Nat) :
    n ≤ digits.foldl (fun n c => 10 * n + digitValue c) n := by
  induction digits generalizing n with
  | nil => exact Nat.le_refl n
  | cons c digits ih =>
      have hstep := ih (10 * n + digitValue c)
      rw [List.foldl_cons]
      omega

/-- While the whole number fits a word, a significand takes every digit of it. -/
theorem absorb_eq {digits : List Char} {n : Nat}
    (h : digits.foldl (fun n c => 10 * n + digitValue c) n < 0x10000000000000000) :
    absorb n digits
      = (digits.foldl (fun n c => 10 * n + digitValue c) n, digits.length) := by
  induction digits generalizing n with
  | nil => rfl
  | cons c digits ih =>
      rw [List.foldl_cons] at h
      have hnext : 10 * n + digitValue c < 0x10000000000000000 :=
        Nat.lt_of_le_of_lt (le_foldl_digits digits _) h
      simp only [absorb]
      rw [if_pos hnext, ih h]
      rfl

/-- A number below the limit is taken with all of its digits. -/
theorem absorb_decimal {n : Nat} (h : n < 0x10000000000000000) :
    absorb 0 (decimal n) = (n, (decimal n).length) := by
  have hvalue := decimalValue_decimal n
  rw [decimalValue] at hvalue
  rw [absorb_eq (by rw [hvalue]; exact h), hvalue]

end Decimal

namespace Document

-- ── Integers ────────────────────────────────────────────────────────────────

/-- What follows a number does not look like more of it. -/
def EndsNumber : List Char → Prop
  | [] => True
  | c :: _ => isDigit c = false ∧ c ≠ '.' ∧ c ≠ 'e' ∧ c ≠ 'E'

/-- A number without fraction and exponent ends where its digits do. -/
theorem readTail_of_endsNumber {rest : List Char} (h : EndsNumber rest) (negative : Bool)
    (magnitude : Nat) :
    readTail ⟨negative, magnitude, 0⟩ rest = .ok (.ofMagnitude negative magnitude, rest) := by
  unfold readTail
  split
  · exact absurd rfl h.2.1
  · exact absurd rfl h.2.2.1
  · exact absurd rfl h.2.2.2
  · exact if_pos rfl

/-- The digits of a number are separated from what ends it. -/
theorem takeWhile_digits {digits rest : List Char} (hdigits : ∀ c ∈ digits, isDigit c = true)
    (hrest : EndsNumber rest) :
    (digits ++ rest).takeWhile isDigit = digits ∧ (digits ++ rest).dropWhile isDigit = rest := by
  rw [List.takeWhile_append_of_pos hdigits, List.dropWhile_append_of_pos hdigits]
  cases rest with
  | nil => simp
  | cons c rest =>
      rw [List.takeWhile_cons, List.dropWhile_cons, hrest.1]
      simp

/-- A single zero is read as zero. -/
theorem readUnsigned_zero {rest : List Char} (hrest : EndsNumber rest) (negative : Bool) :
    readUnsigned negative ('0' :: rest) = .ok (.ofMagnitude negative 0, rest) := by
  have htail := readTail_of_endsNumber hrest negative 0
  cases rest with
  | nil => exact htail
  | cons c rest =>
      show (if isDigit c then _ else readTail ⟨negative, 0, 0⟩ (c :: rest)) = _
      rw [hrest.1, if_neg Bool.false_ne_true, htail]

/-- A number that does not begin with a zero is read with all of its digits. -/
theorem readUnsigned_of_ne_zero {c : Char} {rest : List Char} (hzero : c ≠ '0')
    (hdigit : isDigit c = true) (negative : Bool) :
    readUnsigned negative (c :: rest)
      = readTail ⟨negative, (absorb 0 (c :: rest.takeWhile isDigit)).1,
          ((c :: rest.takeWhile isDigit).length : Int)
            - (absorb 0 (c :: rest.takeWhile isDigit)).2⟩ (rest.dropWhile isDigit) := by
  unfold readUnsigned
  split
  · next heq => exact nomatch heq
  · next heq => exact absurd (List.cons.inj heq).1 hzero
  · next heq =>
      obtain ⟨rfl, rfl⟩ := List.cons.inj heq
      rw [if_pos hdigit]

/-- A magnitude of one word is read exactly. -/
theorem readUnsigned_decimal {magnitude : Nat} (h : magnitude < 0x10000000000000000)
    {rest : List Char} (hrest : EndsNumber rest) (negative : Bool) :
    readUnsigned negative (decimal magnitude ++ rest)
      = .ok (.ofMagnitude negative magnitude, rest) := by
  rcases Nat.eq_zero_or_pos magnitude with rfl | hpos
  · rw [decimal_zero]
    exact readUnsigned_zero hrest negative
  · have habsorb := absorb_decimal h
    have hall : ∀ d ∈ decimal magnitude, isDigit d = true :=
      fun d hd => isDigit_of_mem_decimal hd
    obtain ⟨c, digits, heq, hzero⟩ := exists_decimal_eq_cons_ne_zero hpos
    rw [heq] at hall habsorb ⊢
    have hdigits : ∀ d ∈ digits, isDigit d = true :=
      fun d hd => hall d (List.mem_cons_of_mem _ hd)
    obtain ⟨htake, hdrop⟩ := takeWhile_digits hdigits hrest
    rw [List.cons_append, readUnsigned_of_ne_zero hzero (hall c (List.mem_cons_self ..)),
      htake, hdrop, habsorb]
    show readTail ⟨negative, magnitude, ((c :: digits).length : Int) - (c :: digits).length⟩ rest
      = _
    rw [Int.sub_self]
    exact readTail_of_endsNumber hrest negative magnitude

/-- An integer is put together from its sign and its magnitude. -/
theorem ofMagnitude_natAbs {value : Int} (fits : IntegerFits value) :
    Number.ofMagnitude (decide (value < 0)) value.natAbs = .integer value fits := by
  have hvalue : (if decide (value < 0) = true then -(value.natAbs : Int) else value.natAbs)
      = value := by
    by_cases hneg : value < 0
    · rw [if_pos (decide_eq_true hneg)]
      omega
    · rw [if_neg (by simpa using hneg)]
      omega
  have hzero : ¬ (decide (value < 0) = true ∧ value.natAbs = 0) := by
    rintro ⟨hneg, habs⟩
    have := of_decide_eq_true hneg
    omega
  unfold Number.ofMagnitude
  simp only [hvalue]
  rw [dif_pos ⟨fits, hzero⟩]

/-- **Integers are read back**, whatever their sign. -/
theorem readNumber_integerText {value : Int} (fits : IntegerFits value) {rest : List Char}
    (hrest : EndsNumber rest) :
    readNumber (integerText value ++ rest) = .ok (.integer value fits, rest) := by
  have hmagnitude : value.natAbs < 0x10000000000000000 := by
    obtain ⟨hlow, hhigh⟩ := fits
    omega
  rw [← ofMagnitude_natAbs fits]
  unfold integerText
  by_cases hneg : value < 0
  · rw [if_pos hneg, decide_eq_true hneg]
    exact readUnsigned_decimal hmagnitude hrest true
  · rw [if_neg hneg, decide_eq_false hneg]
    obtain ⟨c, digits, hdigits, hc⟩ := exists_decimal_eq_cons value.natAbs
    have hminus : c ≠ '-' := by
      rintro rfl
      exact Bool.noConfusion hc
    have hread := readUnsigned_decimal hmagnitude hrest false
    rw [hdigits] at hread ⊢
    rw [← hread]
    unfold readNumber
    split
    · next heq => exact absurd (List.cons.inj heq).1 hminus
    · rfl

-- ── Strings ─────────────────────────────────────────────────────────────────

/-- A scanner takes a value off the front of a text and leaves the rest. -/
def Takes {α : Type} {text : List Char} (result : Except Failure (Scanned α text)) (value : α)
    (rest : List Char) : Prop :=
  ∃ shorter, result = .ok ⟨value, rest, shorter⟩

/-- A hexadecimal digit written and read again. -/
theorem hexValue?_hexDigit : ∀ n < 16, hexValue? (hexDigit n) = some n := by decide

/-- The two digits of a control character behind the zeros of its escape. -/
theorem readHex_control {n : Nat} (h : n < 32) (rest : List Char) :
    Takes (readHex ('0' :: '0' :: hexDigit (n / 16) :: hexDigit (n % 16) :: rest)) n rest := by
  have hhigh := hexValue?_hexDigit (n / 16) (by omega)
  have hlow := hexValue?_hexDigit (n % 16) (by omega)
  have hzero : hexValue? '0' = some 0 := by decide
  have hvalue : ((0 * 16 + 0) * 16 + n / 16) * 16 + n % 16 = n := by omega
  unfold readHex
  simp only [hzero, hhigh, hlow, hvalue]
  exact ⟨_, rfl⟩

theorem readCode_control {c : Char} (h : c.toNat < 32) (rest : List Char) :
    Takes (readCode
      ('0' :: '0' :: hexDigit (c.toNat / 16) :: hexDigit (c.toNat % 16) :: rest)) c rest := by
  obtain ⟨shorter, hhex⟩ := readHex_control h rest
  have hcloses : closesPair c.toNat = false := by
    simp only [closesPair, Bool.and_eq_false_iff, decide_eq_false_iff_not]
    omega
  have hleads : leadsPair c.toNat = false := by
    simp only [leadsPair, Bool.and_eq_false_iff, decide_eq_false_iff_not]
    omega
  unfold readCode
  rw [hhex]
  simp only [hcloses, hleads, Bool.false_eq_true, if_false, Char.ofNat_toNat]
  exact ⟨_, rfl⟩

/-- The escape of a control character is read back. -/
theorem readEscape_control {c : Char} (h : c.toNat < 32) (rest : List Char) :
    Takes (readEscape
      ('u' :: '0' :: '0' :: hexDigit (c.toNat / 16) :: hexDigit (c.toNat % 16) :: rest))
      c rest := by
  obtain ⟨shorter, hcode⟩ := readCode_control h rest
  rw [readEscape]
  simp only [hcode]
  exact ⟨_, rfl⟩

/-- A character is written as itself, or as a backslash and an escape that means it. -/
theorem escapeChar_meaning (c : Char) :
    (escapeChar c = [c] ∧ c ≠ '"' ∧ c ≠ '\\' ∧ ¬ c.toNat < 32) ∨
      ∃ letters, escapeChar c = '\\' :: letters ∧
        ∀ rest, Takes (readEscape (letters ++ rest)) c rest := by
  unfold escapeChar
  split
  · exact Or.inr ⟨['"'], rfl, fun rest => ⟨_, rfl⟩⟩
  · exact Or.inr ⟨['\\'], rfl, fun rest => ⟨_, rfl⟩⟩
  · exact Or.inr ⟨['b'], rfl, fun rest => ⟨_, rfl⟩⟩
  · exact Or.inr ⟨['f'], rfl, fun rest => ⟨_, rfl⟩⟩
  · exact Or.inr ⟨['n'], rfl, fun rest => ⟨_, rfl⟩⟩
  · exact Or.inr ⟨['r'], rfl, fun rest => ⟨_, rfl⟩⟩
  · exact Or.inr ⟨['t'], rfl, fun rest => ⟨_, rfl⟩⟩
  · next hquote hbackslash _ _ _ _ _ =>
      split
      · next hcontrol => exact Or.inr ⟨_, rfl, readEscape_control hcontrol⟩
      · next hplain => exact Or.inl ⟨rfl, hquote, hbackslash, hplain⟩

/-- A quote ends the string. -/
theorem readQuoted_quote (taken rest : List Char) :
    Takes (readQuoted taken ('"' :: rest)) (String.ofList taken.reverse) rest := by
  rw [readQuoted]
  exact ⟨_, rfl⟩

/-- A character that needs no escape is taken as it is. -/
theorem readQuoted_plain {c : Char} (hquote : c ≠ '"') (hbackslash : c ≠ '\\')
    (hplain : ¬ c.toNat < 32) {taken text rest : List Char} {value : String}
    (h : Takes (readQuoted (c :: taken) text) value rest) :
    Takes (readQuoted taken (c :: text)) value rest := by
  obtain ⟨shorter, hread⟩ := h
  rw [readQuoted]
  · rw [if_neg hplain]
    simp only [hread]
    exact ⟨_, rfl⟩
  · exact hquote
  · exact hbackslash

/-- An escape is taken as the character that it means. -/
theorem readQuoted_escape {c : Char} {taken text behind rest : List Char} {value : String}
    (hescape : Takes (readEscape text) c behind)
    (h : Takes (readQuoted (c :: taken) behind) value rest) :
    Takes (readQuoted taken ('\\' :: text)) value rest := by
  obtain ⟨shorter, hescape⟩ := hescape
  obtain ⟨shorter', hread⟩ := h
  rw [readQuoted]
  simp only [hescape, hread]
  exact ⟨_, rfl⟩

/-- **Strings are read back**, character by character. -/
theorem readQuoted_escaped (text taken rest : List Char) :
    Takes (readQuoted taken (text.flatMap escapeChar ++ '"' :: rest))
      (String.ofList (taken.reverse ++ text)) rest := by
  induction text generalizing taken with
  | nil =>
      rw [List.append_nil]
      exact readQuoted_quote taken rest
  | cons c text ih =>
      have htaken : taken.reverse ++ c :: text = (c :: taken).reverse ++ text := by simp
      have hstep := ih (c :: taken)
      rw [← htaken] at hstep
      rw [List.flatMap_cons, List.append_assoc]
      rcases escapeChar_meaning c with ⟨hself, hquote, hbackslash, hplain⟩ | ⟨letters, hesc, hmeans⟩
      · rw [hself]
        exact readQuoted_plain hquote hbackslash hplain hstep
      · rw [hesc]
        exact readQuoted_escape (hmeans _) hstep

end Document

end Stencil
