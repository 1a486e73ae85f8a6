import Stencil.Document.Reader
import Stencil.Proofs.Journaled

/-!
# Quotation — what stands inside of strings, and what may stand outside

Quotes and backslashes divide a text into places: outside of strings, inside of one, and behind a
backslash in one. Nothing but them decides which is which, so a place is known from the text in
front of it (`Place.next`, one character at a time). A document is only read from a text that has
at every place what is admitted there (`passes_read`): outside of strings blanks, digits, and the
characters that numbers, words and brackets are written with.

The route: every scanner is shown to pass over what it takes, from the place it starts at to the
place it stops at; then every step of the reader passes from outside to outside, and so does the
whole run.
-/

namespace Stencil.Document

/-- Where something stands in a text. -/
inductive Place where
  /-- Outside of strings. -/
  | outside
  /-- Inside of a string. -/
  | inside
  /-- Inside of a string, right behind a backslash that begins an escape. -/
  | escaped
deriving Repr, DecidableEq

/-- The characters besides blanks and digits that stand outside of strings: quotes, brackets,
    separators, and what words and numbers are written with. -/
def bareMarks : List Char :=
  ['"', '[', ']', '{', '}', ',', ':', '+', '-', '.', 'E',
    'a', 'e', 'f', 'l', 'n', 'r', 's', 't', 'u']

/-- The letters of escapes. -/
def escapeLetters : List Char :=
  ['"', '\\', '/', 'b', 'f', 'n', 'r', 't', 'u']

namespace Place

/-- The place behind a character. -/
def next : Place → Char → Place
  | .outside, c => if c = '"' then .inside else .outside
  | .inside, c => if c = '"' then .outside else if c = '\\' then .escaped else .inside
  | .escaped, _ => .inside

/-- A character may stand at a place. -/
def admits : Place → Char → Bool
  | .outside, c => isBlank c || Decimal.isDigit c || bareMarks.contains c
  | .inside, c => 32 ≤ c.toNat
  | .escaped, c => escapeLetters.contains c

/-- A character may stand outside of strings and opens none. -/
def isBare (c : Char) : Bool :=
  Place.outside.admits c && c != '"'

/-- A bare character is one that may stand outside of strings and begins none. -/
theorem isBare_iff {c : Char} : isBare c = true ↔ Place.outside.admits c = true ∧ c ≠ '"' := by
  rw [isBare, Bool.and_eq_true, bne_iff_ne]

/-- At-signs are at home in strings only. -/
theorem admits_at_iff {place : Place} : place.admits '@' = true ↔ place = .inside := by
  cases place <;> decide

end Place

/-- **Passing over a text** from one place in it to another one, with nothing on the way that is
    not admitted where it stands. -/
inductive Passes : Place → List Char → Place → List Char → Prop where
  | stay {place : Place} {text : List Char} : Passes place text place text
  | advance {place last : Place} {c : Char} {text rest : List Char}
      (admitted : place.admits c = true) (further : Passes (place.next c) text last rest) :
      Passes place (c :: text) last rest

/-- The text up to a place that is inside of a string. -/
def InString (front : List Char) : Prop :=
  front.foldl Place.next .outside = .inside

instance (front : List Char) : Decidable (InString front) :=
  inferInstanceAs (Decidable (_ = _))

namespace Passes

theorem trans {place between last : Place} {text middle rest : List Char}
    (h : Passes place text between middle) (hrest : Passes between middle last rest) :
    Passes place text last rest := by
  induction h with
  | stay => exact hrest
  | advance admitted _ ih => exact .advance admitted (ih hrest)

/-- **What stands in a text that was passed over** is admitted there. -/
theorem admits_of_append {c : Char} {front rest : List Char} {place last : Place}
    (h : Passes place (front ++ c :: rest) last []) :
    (front.foldl Place.next place).admits c = true := by
  induction front generalizing place with
  | nil =>
      cases h with
      | advance admitted _ => exact admitted
  | cons d front ih =>
      cases h with
      | advance _ further => exact ih further

/-- A character that opens no string keeps outside. -/
theorem bare {c : Char} (h : Place.isBare c = true) (text : List Char) :
    Passes .outside (c :: text) .outside text := by
  obtain ⟨hadmits, hquote⟩ := Place.isBare_iff.mp h
  refine .advance hadmits ?_
  rw [Place.next, if_neg hquote]
  exact .stay

/-- A character that is no quote and no backslash keeps inside. -/
theorem quoted {c : Char} (h : 32 ≤ c.toNat) (hquote : c ≠ '"') (hbackslash : c ≠ '\\')
    (text : List Char) : Passes .inside (c :: text) .inside text := by
  refine .advance (decide_eq_true h) ?_
  rw [Place.next, if_neg hquote, if_neg hbackslash]
  exact .stay

end Passes

-- ── Words and numbers ───────────────────────────────────────────────────────

theorem passes_expectWord {letters text rest : List Char}
    (hletters : letters.all Place.isBare = true) (h : expectWord letters text = .ok rest) :
    Passes .outside text .outside rest := by
  induction letters generalizing text with
  | nil =>
      obtain rfl := Except.ok.inj h
      exact .stay
  | cons letter letters ih =>
      cases text with
      | nil => cases h
      | cons c text =>
          rw [expectWord] at h
          split at h
          · next heq =>
              subst heq
              rw [List.all_cons, Bool.and_eq_true] at hletters
              exact (Passes.bare hletters.1 text).trans (ih hletters.2 h)
          · cases h

theorem passes_digit {c : Char} (h : Decimal.isDigit c = true) (text : List Char) :
    Passes .outside (c :: text) .outside text := by
  refine .bare (Place.isBare_iff.mpr ⟨?_, ?_⟩) text
  · rw [Place.admits, h, Bool.or_true, Bool.true_or]
  · rintro rfl
    exact Bool.noConfusion h

theorem passes_digits (text : List Char) :
    Passes .outside text .outside (text.dropWhile Decimal.isDigit) := by
  induction text with
  | nil => exact .stay
  | cons c text ih =>
      rw [List.dropWhile_cons]
      split
      · next hdigit => exact (passes_digit hdigit text).trans ih
      · exact .stay

theorem passes_exponentSign (text : List Char) :
    Passes .outside text .outside (exponentSign text).2 := by
  unfold exponentSign
  split
  · exact .bare rfl _
  · exact .bare rfl _
  · exact .stay

theorem passes_readExponent {m : Mantissa} {text : List Char} {out : Number × List Char}
    (h : readExponent m text = .ok out) : Passes .outside text .outside out.2 := by
  have hdigits := (passes_exponentSign text).trans (passes_digits (exponentSign text).2)
  simp only [readExponent] at h
  split at h
  · cases h
  · split at h
    · cases h
    · split at h
      · split at h
        · cases h
        · obtain rfl := Except.ok.inj h
          exact hdigits
      · rw [map_rest_eq h]
        exact hdigits

theorem passes_readFraction {m : Mantissa} {text : List Char} {out : Number × List Char}
    (h : readFraction m text = .ok out) : Passes .outside text .outside out.2 := by
  have hdigits := passes_digits text
  simp only [readFraction] at h
  split at h
  · split at h <;> cases h
  · split at h
    · next behind heq =>
        rw [heq] at hdigits
        exact (hdigits.trans (.bare rfl behind)).trans (passes_readExponent h)
    · next behind heq =>
        rw [heq] at hdigits
        exact (hdigits.trans (.bare rfl behind)).trans (passes_readExponent h)
    · rw [map_rest_eq h]
      exact hdigits

theorem passes_readTail {m : Mantissa} {text : List Char} {out : Number × List Char}
    (h : readTail m text = .ok out) : Passes .outside text .outside out.2 := by
  unfold readTail at h
  split at h
  · next behind => exact (Passes.bare rfl behind).trans (passes_readFraction h)
  · next behind => exact (Passes.bare rfl behind).trans (passes_readExponent h)
  · next behind => exact (Passes.bare rfl behind).trans (passes_readExponent h)
  · split at h
    · obtain rfl := Except.ok.inj h
      exact .stay
    · rw [map_rest_eq h]
      exact .stay

/-- A number behind its sign is passed outside of strings. -/
theorem passes_readUnsigned {negative : Bool} {text : List Char} {out : Number × List Char}
    (h : readUnsigned negative text = .ok out) : Passes .outside text .outside out.2 := by
  unfold readUnsigned at h
  split at h
  · cases h
  · next rest =>
      have hzero : Passes .outside ('0' :: rest) .outside rest := passes_digit rfl rest
      split at h
      · exact hzero.trans (passes_readTail h)
      · split at h
        · cases h
        · exact hzero.trans (passes_readTail h)
  · next c rest _ =>
      split at h
      · next hdigit =>
          have hdigits := (passes_digit hdigit rest).trans (passes_digits rest)
          exact hdigits.trans (passes_readTail h)
      · cases h

/-- **A number** is passed over outside of strings. -/
theorem passes_readNumber {text : List Char} {out : Number × List Char}
    (h : readNumber text = .ok out) : Passes .outside text .outside out.2 := by
  unfold readNumber at h
  split at h
  · next rest => exact (Passes.bare rfl rest).trans (passes_readUnsigned h)
  · exact passes_readUnsigned h

-- ── Strings ─────────────────────────────────────────────────────────────────

/-- No hexadecimal digit comes before zero. -/
theorem le_toNat_of_hexValue? {c : Char} {n : Nat} (h : hexValue? c = some n) :
    48 ≤ c.toNat := by
  have hle : ∀ {low : Char} {upper : Bool}, (decide (low ≤ c) && upper) = true →
      low.toNat ≤ c.toNat := by
    intro low upper h
    exact UInt32.le_iff_toNat_le.mp (of_decide_eq_true (Bool.and_eq_true .. ▸ h).1)
  unfold hexValue? at h
  split at h
  · next hdigit => exact hle hdigit
  · split at h
    · next hletter => exact Nat.le_trans (by decide) (hle hletter)
    · split at h
      · next hletter => exact Nat.le_trans (by decide) (hle hletter)
      · cases h

theorem passes_hexDigit {c : Char} {n : Nat} (h : hexValue? c = some n) (text : List Char) :
    Passes .inside (c :: text) .inside text := by
  have hlow := le_toNat_of_hexValue? h
  refine .quoted (by omega) ?_ ?_ text
  · rintro rfl
    cases h
  · rintro rfl
    cases h

theorem passes_readHex {text : List Char} {found : Scanned Nat text}
    (h : readHex text = .ok found) : Passes .inside text .inside found.rest := by
  unfold readHex at h
  split at h
  · next a b c d rest =>
      split at h
      · next ha hb hc hd =>
          obtain rfl := Except.ok.inj h
          have hfirst := (passes_hexDigit ha (b :: c :: d :: rest)).trans (passes_hexDigit hb _)
          exact (hfirst.trans (passes_hexDigit hc _)).trans (passes_hexDigit hd rest)
      · cases h
  · split at h <;> cases h

/-- The second escape of a pair starts with its own backslash. -/
theorem passes_readTrail {lead : Nat} {text : List Char} {found : Scanned Char text}
    (h : readTrail lead text = .ok found) : Passes .inside text .inside found.rest := by
  unfold readTrail at h
  split at h
  · cases h
  · cases h
  · next rest =>
      split at h
      · cases h
      · next hhex =>
          split at h
          · obtain rfl := Except.ok.inj h
            exact .advance rfl (.advance rfl (passes_readHex hhex))
          · cases h
  · cases h
  · cases h

/-- The code of an escape is passed inside of a string. -/
theorem passes_readCode {text : List Char} {found : Scanned Char text}
    (h : readCode text = .ok found) : Passes .inside text .inside found.rest := by
  unfold readCode at h
  split at h
  · cases h
  · next hhex =>
      have hunit := passes_readHex hhex
      split at h
      · cases h
      · split at h
        · split at h
          · cases h
          · next htrail =>
              obtain rfl := Except.ok.inj h
              exact hunit.trans (passes_readTrail htrail)
        · obtain rfl := Except.ok.inj h
          exact hunit

/-- An escape of one character may stand behind a backslash. -/
theorem admits_of_simpleEscape? {c meant : Char} (h : simpleEscape? c = some meant) :
    Place.escaped.admits c = true := by
  unfold simpleEscape? at h
  split at h <;> first | rfl | cases h

/-- **An escape** is passed over from behind its backslash. -/
theorem passes_readEscape {text : List Char} {found : Scanned Char text}
    (h : readEscape text = .ok found) : Passes .escaped text .inside found.rest := by
  unfold readEscape at h
  split at h
  · cases h
  · split at h
    · cases h
    · next hcode =>
        obtain rfl := Except.ok.inj h
        exact .advance rfl (passes_readCode hcode)
  · split at h
    · next hsimple =>
        obtain rfl := Except.ok.inj h
        exact .advance (admits_of_simpleEscape? hsimple) .stay
    · cases h

/-- **A string** is passed over from inside of it to behind its closing quote. -/
theorem passes_readQuoted {taken text : List Char} {found : Scanned String text}
    (h : readQuoted taken text = .ok found) : Passes .inside text .outside found.rest := by
  fun_induction readQuoted taken text with
  | case2 taken rest =>
      obtain rfl := Except.ok.inj h
      exact .advance rfl .stay
  | case5 taken rest c behind shorter hescape value final shorter' hread ih =>
      obtain rfl := Except.ok.inj h
      exact .advance rfl ((passes_readEscape hescape).trans (ih hread))
  | case8 taken c rest hquote hbackslash hplain value final shorter hread ih =>
      obtain rfl := Except.ok.inj h
      exact (Passes.quoted (Nat.le_of_not_lt hplain) hquote hbackslash rest).trans (ih hread)
  | _ => cases h

-- ── Steps of the reader ─────────────────────────────────────────────────────

/-- A step that takes a single bracket or separator. -/
theorem passes_mark {c mark : Char} {state : State} {rest : List Char} {found : Next (c :: rest)}
    (hmark : Place.isBare mark = true) (heq : c = mark)
    (h : (.ok ⟨state, rest, length_lt_cons c rest⟩ : Except Failure (Next (c :: rest)))
      = .ok found) :
    Passes .outside (c :: rest) .outside found.rest := by
  subst heq
  obtain rfl := Except.ok.inj h
  exact .bare hmark rest

theorem passes_word {frames : List Frame} {letters : List Char} {meant : Document} {c : Char}
    {rest : List Char} {found : Next (c :: rest)}
    (hletters : (c :: letters).all Place.isBare = true)
    (h : word frames letters meant c rest = .ok found) :
    Passes .outside (c :: rest) .outside found.rest := by
  have hword : expectWord letters rest = .ok found.rest := by
    unfold word at h
    split at h
    · cases h
    · next hexpect =>
        obtain rfl := Except.ok.inj h
        exact hexpect
  rw [List.all_cons, Bool.and_eq_true] at hletters
  exact (Passes.bare hletters.1 rest).trans (passes_expectWord hletters.2 hword)

/-- **Starting a value** passes over its first bracket, or over all of it. -/
theorem passes_start {frames : List Frame} {c : Char} {rest : List Char}
    {found : Next (c :: rest)} (h : start frames c rest = .ok found) :
    Passes .outside (c :: rest) .outside found.rest := by
  unfold start at h
  split at h
  · exact passes_word rfl h
  · exact passes_word rfl h
  · exact passes_word rfl h
  · split at h
    · cases h
    · next hread =>
        obtain rfl := Except.ok.inj h
        exact .advance rfl (passes_readQuoted hread)
  · split at h
    · exact passes_mark rfl rfl h
    · cases h
  · split at h
    · exact passes_mark rfl rfl h
    · cases h
  · split at h
    · split at h
      · cases h
      · next hread =>
          obtain rfl := Except.ok.inj h
          exact passes_readNumber hread
    · cases h

/-- The name of a member is passed over with its opening quote. -/
theorem passes_name {before : Members} {frames : List Frame} {rest : List Char}
    {found : Next ('"' :: rest)} (h : (name before frames rest).map (·.widen) = .ok found) :
    Passes .outside ('"' :: rest) .outside found.rest := by
  unfold name at h
  split at h
  · cases h
  · next hread =>
      obtain rfl := Except.ok.inj h
      exact .advance rfl (passes_readQuoted hread)

/-- **One step** passes from outside of strings to outside of strings. -/
theorem passes_step {state : State} {c : Char} {rest : List Char} {found : Next (c :: rest)}
    (h : step state c rest = .ok found) : Passes .outside (c :: rest) .outside found.rest := by
  unfold step at h
  split at h
  · exact passes_start h
  · split at h
    · next heq => exact passes_mark rfl heq h
    · exact passes_start h
  · split at h
    · cases h
    · exact passes_start h
  · split at h
    · next heq => exact passes_mark rfl heq h
    · split at h
      · next heq =>
          subst heq
          exact passes_name h
      · cases h
  · split at h
    · cases h
    · split at h
      · next heq =>
          subst heq
          exact passes_name h
      · cases h
  · split at h
    · next heq => exact passes_mark rfl heq h
    · cases h
  · cases h
  · split at h
    · next heq => exact passes_mark rfl heq h
    · split at h
      · next heq => exact passes_mark rfl heq h
      · cases h
  · split at h
    · next heq => exact passes_mark rfl heq h
    · split at h
      · next heq => exact passes_mark rfl heq h
      · cases h

-- ── The run ─────────────────────────────────────────────────────────────────

theorem passes_blank {c : Char} (h : isBlank c = true) (text : List Char) :
    Passes .outside (c :: text) .outside text := by
  refine .bare (Place.isBare_iff.mpr ⟨?_, ?_⟩) text
  · rw [Place.admits, h, Bool.true_or, Bool.true_or]
  · rintro rfl
    exact Bool.noConfusion h

/-- A whole text is passed from outside of strings to outside of strings. -/
theorem passes_run {state : State} {text : List Char} {document : Document}
    (h : run state text = .ok document) : Passes .outside text .outside [] := by
  fun_induction run state text with
  | case1 state => exact .stay
  | case2 state c rest hblank ih => exact (passes_blank hblank rest).trans (ih h)
  | case3 state c rest hblank fault hstep => cases h
  | case4 state c rest hblank next behind shorter hstep ih =>
      exact (passes_step hstep).trans (ih h)

/-- **A text that a document is read from** is passed over as a whole: its strings are closed,
    and at every place stands what is admitted there. -/
theorem passes_read {text : String} {document : Document} (h : read text = .ok document) :
    Passes .outside text.toList .outside [] :=
  passes_run (Journaled.mapError_eq_ok_iff.mp h)

end Stencil.Document
