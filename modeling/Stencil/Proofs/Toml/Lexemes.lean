import Stencil.Proofs.Document.Scalars
import Stencil.Toml.Scalar
import Stencil.Toml.Key

/-!
# Lexemes — strings and words that are written, and the tokens they are cut into

A basic string is written between quotes, with an escape for the quote, the backslash and every
control character. Its token ends at the closing quote (`extent_basicString`) and stands for the
string (`string_basicString`). A word ends where a mark follows (`extent_word`), and the word of an
integer stands for that integer (`wordValue_integerText`).
-/

namespace Stencil.Toml

-- ── Strings ─────────────────────────────────────────────────────────────────

/-- The form of a string on one line between quotes. -/
def basic : StringForm :=
  ⟨'"', true, false⟩

/-- A character that needs an escape between quotes. -/
def needsEscape (c : Char) : Bool :=
  c == '"' || c == '\\' || isControl c

/-- A character as it stands between quotes. -/
def basicChar (c : Char) : List Char :=
  if needsEscape c then ['\\', 'u', '0', '0', hexDigit (c.toNat / 16), hexDigit (c.toNat % 16)]
  else [c]

/-- The inside of a basic string. -/
def basicText (text : List Char) : List Char :=
  text.flatMap basicChar

/-- A basic string. -/
def basicString (text : String) : List Char :=
  '"' :: (basicText text.toList ++ ['"'])

/-- Only characters of one byte are escaped. -/
theorem toNat_lt_of_needsEscape {c : Char} (h : needsEscape c = true) : c.toNat < 128 := by
  simp only [needsEscape, isControl, Bool.or_eq_true, Bool.and_eq_true, beq_iff_eq,
    decide_eq_true_eq] at h
  rcases h with (rfl | rfl) | ⟨h, -⟩ | h
  · decide
  · decide
  · omega
  · omega

/-- A hexadecimal digit is an ordinary character of a string. -/
theorem plain_hexDigit : ∀ n < 16, hexDigit n ≠ '"' ∧ hexDigit n ≠ '\\' ∧ hexDigit n ≠ '\n' := by
  decide

theorem basicText_cons (c : Char) (text : List Char) :
    basicText (c :: text) = basicChar c ++ basicText text :=
  List.flatMap_cons

/-- One more character of a string that goes on. -/
theorem lineStringLength_plain {c : Char} (hquote : c ≠ '"') (hbackslash : c ≠ '\\')
    (hend : c ≠ '\n') (d : Char) (rest : List Char) :
    lineStringLength basic (c :: d :: rest) = lineStringLength basic (d :: rest) + 1 := by
  have hquote' : c ≠ basic.quote := hquote
  rw [lineStringLength, if_neg hend, if_neg hquote', if_neg (fun h => hbackslash h.2.1)]

theorem lineStringLength_quote (rest : List Char) :
    lineStringLength basic ('"' :: rest) = 1 := by
  cases rest with
  | nil => rfl
  | cons d rest => rfl

/-- One more character, as it is written. No escape looks like the end of the string. -/
theorem lineStringLength_basicChar (c d : Char) (rest : List Char) :
    lineStringLength basic (basicChar c ++ d :: rest)
      = (basicChar c).length + lineStringLength basic (d :: rest) := by
  unfold basicChar
  by_cases hescape : needsEscape c = true
  · have hcode := toNat_lt_of_needsEscape hescape
    obtain ⟨hquote, hbackslash, hend⟩ := plain_hexDigit (c.toNat / 16) (by omega)
    obtain ⟨hquote', hbackslash', hend'⟩ := plain_hexDigit (c.toNat % 16) (by omega)
    have hbegin : ∀ rest, lineStringLength basic ('\\' :: 'u' :: rest)
        = lineStringLength basic ('u' :: rest) + 1 := by
      intro rest
      rw [lineStringLength]
      rfl
    rw [if_pos hescape]
    simp only [List.cons_append, List.nil_append, List.length_cons, List.length_nil]
    rw [hbegin, lineStringLength_plain (by decide) (by decide) (by decide),
      lineStringLength_plain (by decide) (by decide) (by decide),
      lineStringLength_plain (by decide) (by decide) (by decide),
      lineStringLength_plain hquote hbackslash hend,
      lineStringLength_plain hquote' hbackslash' hend']
    omega
  · rw [if_neg hescape]
    simp only [needsEscape, Bool.or_eq_true, beq_iff_eq, not_or] at hescape
    obtain ⟨⟨hquote, hbackslash⟩, hcontrol⟩ := hescape
    have hend : c ≠ '\n' := by
      rintro rfl
      exact hcontrol (by decide)
    rw [List.singleton_append, lineStringLength_plain hquote hbackslash hend, Nat.add_comm]
    rfl

/-- **A basic string ends** at its closing quote. -/
theorem lineStringLength_basicText (text rest : List Char) :
    lineStringLength basic (basicText text ++ '"' :: rest) = (basicText text).length + 1 := by
  induction text with
  | nil => exact lineStringLength_quote rest
  | cons c text ih =>
      obtain ⟨d, behind, hbehind⟩ : ∃ d behind, basicText text ++ '"' :: rest = d :: behind :=
        List.exists_cons_of_ne_nil (by simp)
      rw [basicText_cons, List.append_assoc, hbehind, lineStringLength_basicChar, ← hbehind, ih,
        List.length_append]
      omega

theorem exists_basicChar_eq_cons (c : Char) :
    ∃ d rest, basicChar c = d :: rest ∧ d ≠ '"' := by
  unfold basicChar
  by_cases hescape : needsEscape c = true
  · rw [if_pos hescape]
    exact ⟨_, _, rfl, by decide⟩
  · rw [if_neg hescape]
    refine ⟨c, [], rfl, ?_⟩
    rintro rfl
    exact hescape (by decide)

/-- **The token of a basic string**, whatever other than a quote comes behind it. -/
theorem extent_basicString (text : List Char) {c : Char} (hc : c ≠ '"') (rest : List Char) :
    extent '"' (basicText text ++ ['"'] ++ c :: rest)
      = (.quoted basic, (basicText text ++ ['"']).length) := by
  rw [List.append_assoc, List.singleton_append, List.length_append]
  have hsingle : ['"', '"'].isPrefixOf (basicText text ++ '"' :: c :: rest) = false := by
    cases text with
    | nil =>
        show ('"' == '"' && ('"' == c && true)) = false
        rw [Bool.and_true, beq_self_eq_true, Bool.true_and]
        exact beq_eq_false_iff_ne.mpr (Ne.symm hc)
    | cons first text =>
        obtain ⟨d, more, heq, hd⟩ := exists_basicChar_eq_cons first
        rw [basicText_cons, heq]
        show ('"' == d && _) = false
        rw [beq_eq_false_iff_ne.mpr (Ne.symm hd), Bool.false_and]
  show stringExtent '"' true _ = _
  rw [stringExtent, hsingle, if_neg Bool.false_ne_true]
  exact congrArg (Prod.mk _) (lineStringLength_basicText text (c :: rest))

-- ── What strings stand for ──────────────────────────────────────────────────

/-- A character is read back from its number. -/
theorem scalar?_toNat (c : Char) : scalar? c.toNat = some c := by
  have hvalid : c.toNat.isValidChar := c.valid
  rw [scalar?, dif_pos hvalid]
  exact congrArg some (Char.ext (UInt32.ofNat_toNat))

/-- A character is read back from its four digits. -/
theorem hexCode?_basicChar {c : Char} (h : c.toNat < 128) (rest : List Char) :
    hexCode? 4 ('0' :: '0' :: hexDigit (c.toNat / 16) :: hexDigit (c.toNat % 16) :: rest)
      = some c := by
  have hhigh := Document.hexValue?_hexDigit (c.toNat / 16) (by omega)
  have hlow := Document.hexValue?_hexDigit (c.toNat % 16) (by omega)
  have hzero : Document.hexValue? '0' = some 0 := by decide
  have hvalue : 16 * (16 * (16 * (16 * 0 + 0) + 0) + c.toNat / 16) + c.toNat % 16 = c.toNat := by
    omega
  simp only [hexCode?, List.take_succ_cons, List.take_zero, List.mapM_cons, List.mapM_nil, hzero,
    hhigh, hlow, Option.bind_eq_bind, Option.bind_some, Option.pure_def, List.foldl_cons,
    List.foldl_nil, hvalue]
  exact scalar?_toNat c

/-- One character is read back. -/
theorem decode_basicChar (behind : Nat) (taken : List Char) (c : Char) (rest : List Char) :
    basic.decode behind taken (basicChar c ++ rest) = basic.decode behind (c :: taken) rest := by
  unfold basicChar
  by_cases hescape : needsEscape c = true
  · have hcode := hexCode?_basicChar (toNat_lt_of_needsEscape hescape) rest
    rw [if_pos hescape]
    simp only [List.cons_append, List.nil_append]
    rw [StringForm.decode, if_pos ⟨rfl, rfl⟩]
    simp only [escape?, hcode, Option.map_some]
    rfl
  · rw [if_neg hescape]
    simp only [needsEscape, Bool.or_eq_true, beq_iff_eq, not_or] at hescape
    obtain ⟨⟨-, hbackslash⟩, hcontrol⟩ := hescape
    rw [List.singleton_append, StringForm.decode, if_neg (fun h => hbackslash h.1),
      if_neg (fun h => Bool.false_ne_true h.1), if_neg hcontrol]

/-- A basic string is decoded to the text that it was written for. -/
theorem decode_basicText (behind : Nat) (taken text : List Char) :
    basic.decode behind taken (basicText text) = .ok (String.ofList (taken.reverse ++ text)) := by
  induction text generalizing taken with
  | nil =>
      rw [List.append_nil]
      show basic.decode behind taken [] = _
      rw [StringForm.decode]
  | cons c text ih =>
      rw [basicText_cons, decode_basicChar, ih, List.reverse_cons, List.append_assoc]
      rfl

/-- **Basic strings are read back.** -/
theorem string_basicString (text : String) (left : Nat) :
    Token.string ⟨.quoted basic, basicString text, left⟩ basic = .ok text := by
  have hsuffix : basic.delimiter.isSuffixOf (basicText text.toList ++ ['"']) = true := by
    rw [List.isSuffixOf_iff_suffix]
    exact List.suffix_append _ _
  have hinside : (basicText text.toList ++ ['"']).take
      ((basicText text.toList ++ ['"']).length - basic.delimiter.length)
        = basicText text.toList := by
    rw [List.length_append]
    exact List.take_left' (Nat.add_sub_cancel ..).symm
  have hbody : (basicString text).drop basic.delimiter.length = basicText text.toList ++ ['"'] :=
    rfl
  unfold Token.string
  simp only [hbody, hsuffix, hinside, if_true]
  exact (decode_basicText _ [] text.toList).trans (congrArg Except.ok (String.ofList_toList))

-- ── Words ───────────────────────────────────────────────────────────────────

/-- A text begins with a mark that ends every word, and is not itself a blank. -/
def EndsWord : List Char → Prop
  | [] => False
  | c :: _ => c = ',' ∨ c = ']' ∨ c = '}' ∨ c = '\n'

/-- A character that may stand anywhere in a word. -/
def isWordChar (c : Char) : Bool :=
  !(endsWord c || c == '"' || c == '\x27')

/-- A word runs up to the first character that ends words. -/
theorem extent_of_isWordChar {c : Char} (h : isWordChar c = true) (rest : List Char) :
    extent c rest = (.word, (rest.takeWhile (!endsWord ·)).length) := by
  have hspace : isSpace c = false := by
    by_contra hspace
    simp only [isSpace, Bool.not_eq_false, Bool.or_eq_true, beq_iff_eq] at hspace
    rcases hspace with rfl | rfl
    · exact absurd h (by decide)
    · exact absurd h (by decide)
  unfold extent
  split
  case h_13 => rw [hspace, if_neg Bool.false_ne_true]
  all_goals exact absurd h (by decide)

/-- **The token of a word** goes up to the mark behind it. -/
theorem extent_word {c : Char} {word rest : List Char}
    (h : ∀ d ∈ c :: word, isWordChar d = true) (hrest : EndsWord rest) :
    extent c (word ++ rest) = (.word, word.length) := by
  obtain ⟨hc, hword⟩ := List.forall_mem_cons.mp h
  have hinside : ∀ d ∈ word, (!endsWord d) = true := by
    intro d hd
    have hchar := hword d hd
    simp only [isWordChar, Bool.not_or, Bool.and_eq_true] at hchar
    exact hchar.1.1
  have hbehind : rest.takeWhile (!endsWord ·) = [] := by
    cases rest with
    | nil => rfl
    | cons d rest => rcases hrest with rfl | rfl | rfl | rfl <;> rfl
  rw [extent_of_isWordChar hc, List.takeWhile_append_of_pos hinside, hbehind, List.append_nil]

theorem isWordChar_of_isDigit {c : Char} (h : Decimal.isDigit c = true) :
    isWordChar c = true := by
  have hmarks : (['.', '=', ',', '[', ']', '{', '}', '#', ' ', '\t', '\r', '\n', '"', '\x27'].all
      fun mark => !Decimal.isDigit mark) = true := rfl
  by_contra hmark
  rw [isWordChar, Bool.not_eq_true, Bool.not_eq_false'] at hmark
  have hother := List.all_eq_true.mp hmarks c (by simpa [endsWord, or_assoc] using hmark)
  rw [h] at hother
  exact Bool.false_ne_true hother

theorem isWordChar_of_mem_integerText {value : Int} {c : Char} (h : c ∈ integerText value) :
    isWordChar c = true := by
  unfold integerText at h
  split at h
  · rcases List.mem_cons.mp h with rfl | h
    · rfl
    · exact isWordChar_of_isDigit (Decimal.isDigit_of_mem_decimal h)
  · exact isWordChar_of_isDigit (Decimal.isDigit_of_mem_decimal h)

-- ── What integers stand for ─────────────────────────────────────────────────

/-- A digit is taken, and an underscore may follow it. -/
theorem ungroup?_cons {c : Char} (h : Decimal.isDigit c = true) (between : Bool)
    (rest : List Char) :
    ungroup? Decimal.isDigit between (c :: rest)
      = (ungroup? Decimal.isDigit true rest).map (c :: ·) := by
  have hgroup : c ≠ '_' := by
    rintro rfl
    exact Bool.noConfusion h
  rw [ungroup?, if_neg hgroup, if_pos h]

/-- Digits without underscores are taken as they are. -/
theorem ungroup?_digits {digits : List Char} (h : ∀ c ∈ digits, Decimal.isDigit c = true) :
    ungroup? Decimal.isDigit true digits = some digits := by
  induction digits with
  | nil => rfl
  | cons c digits ih =>
      obtain ⟨hc, hdigits⟩ := List.forall_mem_cons.mp h
      rw [ungroup?_cons hc, ih hdigits]
      rfl

/-- The digits of a number are plain ones: no zero stands in front of others. -/
theorem plainDigits?_decimal (n : Nat) :
    plainDigits? (Decimal.decimal n) = some (Decimal.decimal n) := by
  have hungroup : ungroup? Decimal.isDigit false (Decimal.decimal n)
      = some (Decimal.decimal n) := by
    have hdigits := ungroup?_digits fun c hc => Decimal.isDigit_of_mem_decimal (n := n) hc
    obtain ⟨c, digits, heq, hc⟩ := Decimal.exists_decimal_eq_cons n
    rw [heq, ungroup?_cons hc] at hdigits ⊢
    exact hdigits
  unfold plainDigits?
  rw [hungroup]
  split
  · next heq =>
      rcases Nat.eq_zero_or_pos n with rfl | hpos
      · rw [Decimal.decimal_zero] at heq
        exact nomatch heq
      · obtain ⟨c, digits, heq', hc⟩ := Decimal.exists_decimal_eq_cons_ne_zero hpos
        rw [heq'] at heq
        exact absurd (List.cons.inj (Option.some.inj heq)).1 hc
  · rfl

/-- An integer is written with its sign and the digits of its magnitude. -/
theorem signed_integerText (value : Int) :
    signed (integerText value) = (decide (value < 0), Decimal.decimal value.natAbs) := by
  unfold integerText
  by_cases hneg : value < 0
  · rw [if_pos hneg, decide_eq_true hneg]
    rfl
  · obtain ⟨c, digits, heq, hc⟩ := Decimal.exists_decimal_eq_cons value.natAbs
    rw [if_neg hneg, decide_eq_false hneg, heq]
    unfold signed
    split
    · next h =>
        obtain ⟨rfl, -⟩ := List.cons.inj h
        exact nomatch hc
    · next h =>
        obtain ⟨rfl, -⟩ := List.cons.inj h
        exact nomatch hc
    · rfl

/-- No integer is taken for infinity or for what is no number. -/
theorem special?_integerText (value : Int) : special? (integerText value) = none := by
  obtain ⟨c, digits, heq, hc⟩ := Decimal.exists_decimal_eq_cons value.natAbs
  unfold special?
  rw [signed_integerText, heq]
  dsimp only
  split
  · next h =>
      obtain ⟨rfl, -⟩ := List.cons.inj h
      exact nomatch hc
  · next h =>
      obtain ⟨rfl, -⟩ := List.cons.inj h
      exact nomatch hc
  · rfl

/-- The text of an integer has no letter in the place of a mark of a base. -/
theorem integer?_integerText (value : Int) : integer? (integerText value) = some value := by
  have hbase : ∀ (mark : Char) (rest : List Char), Decimal.isDigit mark = false →
      integerText value ≠ '0' :: mark :: rest := by
    intro mark rest hmark heq
    have hsigned := signed_integerText value
    rw [heq] at hsigned
    have hmem : mark ∈ Decimal.decimal value.natAbs := by
      rw [← (Prod.mk.inj hsigned).2]
      simp
    rw [Decimal.isDigit_of_mem_decimal hmem] at hmark
    exact nomatch hmark
  unfold integer?
  split
  · next h => exact absurd h (hbase _ _ rfl)
  · next h => exact absurd h (hbase _ _ rfl)
  · next h => exact absurd h (hbase _ _ rfl)
  · rw [signed_integerText]
    dsimp only
    rw [plainDigits?_decimal, Option.map_some, Decimal.decimalValue_decimal]
    by_cases hneg : value < 0
    · rw [if_pos (decide_eq_true hneg)]
      exact congrArg some (by omega)
    · rw [if_neg (by simpa using hneg)]
      exact congrArg some (by omega)

/-- **The word of an integer** stands for it. -/
theorem wordValue_integerText (mark : Mark) (value : Int) :
    wordValue mark (integerText value) = .ok (.integer value mark) := by
  have hsigned := signed_integerText value
  obtain ⟨c, digits, heq, hc⟩ := Decimal.exists_decimal_eq_cons value.natAbs
  unfold wordValue
  split
  · next h =>
      rw [h, heq] at hsigned
      obtain ⟨rfl, -⟩ := List.cons.inj (Prod.mk.inj hsigned).2
      exact nomatch hc
  · next h =>
      rw [h, heq] at hsigned
      obtain ⟨rfl, -⟩ := List.cons.inj (Prod.mk.inj hsigned).2
      exact nomatch hc
  · rw [special?_integerText, integer?_integerText]

end Stencil.Toml
