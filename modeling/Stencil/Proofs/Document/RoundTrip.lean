import Stencil.Document.Reader
import Stencil.Proofs.Document.Members
import Stencil.Proofs.Document.Scalars

/-!
# Round trip — reading undoes writing

A document survives being written and read if its numbers are integers, no object of it names
two members alike, and it does not nest too deeply (`read_text`). Layout makes no difference:
blanks between two steps of the reader are passed over.

The reader is a machine, so the route is a simulation. From the state that expects a value,
the text of a document takes the machine to the state that has just read it, whatever is open
around it and whatever follows (`run_render`); containers carry what was read of them so far.
-/

namespace Stencil

/-- The number is an integer. -/
def Number.IsInteger : Number → Prop
  | .integer _ _ => True
  | .float _ => False

namespace Document

-- ── Nesting and exactness ───────────────────────────────────────────────────

mutual

/-- The greatest number of containers that are open at once within a document. -/
def nesting : Document → Nat
  | .null => 0
  | .bool _ => 0
  | .number _ => 0
  | .string _ => 0
  | .array items => nestingOfItems items + 1
  | .object members => nestingOfMembers members + 1

/-- The greatest nesting among items. -/
def nestingOfItems : List Document → Nat
  | [] => 0
  | item :: items => max (nesting item) (nestingOfItems items)

/-- The greatest nesting among members. -/
def nestingOfMembers : List (String × Document) → Nat
  | [] => 0
  | (_, value) :: members => max (nesting value) (nestingOfMembers members)

end

mutual

/-- **Exact** documents: all numbers are integers, and no name stands twice in an object. -/
def Exact : Document → Prop
  | .null => True
  | .bool _ => True
  | .number value => value.IsInteger
  | .string _ => True
  | .array items => ExactItems items
  | .object members => (Members.names members).Nodup ∧ ExactMembers members

/-- All items are exact. -/
def ExactItems : List Document → Prop
  | [] => True
  | item :: items => Exact item ∧ ExactItems items

/-- The values of all members are exact. -/
def ExactMembers : List (String × Document) → Prop
  | [] => True
  | (_, value) :: members => Exact value ∧ ExactMembers members

end

-- ── Steps of the machine ────────────────────────────────────────────────────

/-- A blank between tokens changes nothing. -/
theorem run_blank {c : Char} (h : isBlank c = true) (state : State) (rest : List Char) :
    run state (c :: rest) = run state rest := by
  rw [run, if_pos h]

/-- A step that takes something off the text goes on with what it leaves. -/
theorem run_of_takes {c : Char} {state next : State} {rest behind : List Char}
    (hblank : isBlank c = false) (h : Takes (step state c rest) next behind) :
    run state (c :: rest) = run next behind := by
  obtain ⟨shorter, hstep⟩ := h
  rw [run, hblank, if_neg Bool.false_ne_true, hstep]

/-- States that take the same step run alike. -/
theorem run_of_step_eq {c : Char} {state other : State} {rest : List Char}
    (hblank : isBlank c = false) (h : step state c rest = step other c rest) :
    run state (c :: rest) = run other (c :: rest) := by
  rw [run, run, hblank, if_neg Bool.false_ne_true, if_neg Bool.false_ne_true, h]

/-- An indentation changes nothing. -/
theorem run_replicate_blank (n : Nat) (state : State) (rest : List Char) :
    run state (List.replicate n ' ' ++ rest) = run state rest := by
  induction n with
  | zero => rfl
  | succ n ih =>
      rw [List.replicate_succ, List.cons_append, run_blank rfl, ih]

/-- Gaps are passed over in every state. -/
theorem run_gap (layout : Layout) (depth : Nat) (state : State) (rest : List Char) :
    run state (layout.gap depth ++ rest) = run state rest := by
  cases layout with
  | compact => rfl
  | indented =>
      show run state ('\n' :: (List.replicate (2 * depth) ' ' ++ rest)) = run state rest
      rw [run_blank rfl, run_replicate_blank]

/-- The colon of either layout leads from a name to its value. -/
theorem run_colon (layout : Layout) (before : Members) (name : String) (frames : List Frame)
    (rest : List Char) :
    run (.colon before name frames) (layout.colon ++ rest)
      = run (.value (.object before name :: frames)) rest := by
  have hcolon : ∀ rest, run (.colon before name frames) (':' :: rest)
      = run (.value (.object before name :: frames)) rest :=
    fun rest => run_of_takes rfl ⟨_, rfl⟩
  cases layout with
  | compact => exact hcolon rest
  | indented =>
      show run (.colon before name frames) (':' :: ' ' :: rest) = _
      rw [hcolon, run_blank rfl]

-- ── Starting a value ────────────────────────────────────────────────────────

theorem expectWord_append (letters rest : List Char) :
    expectWord letters (letters ++ rest) = .ok rest := by
  induction letters with
  | nil => rfl
  | cons c letters ih =>
      rw [List.cons_append, expectWord, if_pos rfl, ih]

theorem takes_word (frames : List Frame) (letters : List Char) (meant : Document) (c : Char)
    (rest : List Char) :
    Takes (word frames letters meant c (letters ++ rest)) (.after meant frames) rest := by
  have hword := expectWord_append letters rest
  unfold word
  split
  · next h =>
      rw [hword] at h
      exact nomatch h
  · next behind h =>
      rw [hword] at h
      obtain rfl : rest = behind := Except.ok.inj h
      exact ⟨_, rfl⟩

/-- A quoted string is taken as its text. -/
theorem takes_start_string (frames : List Frame) (text : String) (rest : List Char) :
    Takes (start frames '"' (text.toList.flatMap escapeChar ++ '"' :: rest))
      (.after (.string text) frames) rest := by
  obtain ⟨shorter, hread⟩ := readQuoted_escaped text.toList [] rest
  rw [start]
  simp only [hread, List.reverse_nil, List.nil_append, String.ofList_toList]
  exact ⟨_, rfl⟩

/-- A number is taken as its value. -/
theorem takes_start_number {c : Char} (h : c = '-' ∨ Decimal.isDigit c = true)
    {text rest : List Char} {value : Number} (hread : readNumber (c :: text) = .ok (value, rest))
    (frames : List Frame) : Takes (start frames c text) (.after (.number value) frames) rest := by
  have hother : ∀ d, d ≠ '-' → Decimal.isDigit d = false → c ≠ d := by
    rintro d hminus hdigit rfl
    rcases h with h | h
    · exact hminus h
    · rw [hdigit] at h
      exact Bool.noConfusion h
  rw [start]
  · rw [if_pos h]
    split
    · next heq =>
        rw [hread] at heq
        exact nomatch heq
    · next out heq =>
        rw [hread] at heq
        obtain rfl : (value, rest) = out := Except.ok.inj heq
        exact ⟨_, rfl⟩
  · exact hother 'n' (by decide) (by decide)
  · exact hother 't' (by decide) (by decide)
  · exact hother 'f' (by decide) (by decide)
  · exact hother '"' (by decide) (by decide)
  · exact hother '[' (by decide) (by decide)
  · exact hother '{' (by decide) (by decide)

/-- A bracket opens a list where there is room. -/
theorem run_openList {frames : List Frame} (h : frames.length < nestingLimit)
    (rest : List Char) : run (.value frames) ('[' :: rest) = run (.firstItem frames) rest := by
  refine run_of_takes rfl ?_
  rw [step, start, if_pos h]
  exact ⟨_, rfl⟩

theorem run_openObject {frames : List Frame} (h : frames.length < nestingLimit)
    (rest : List Char) : run (.value frames) ('{' :: rest) = run (.firstName frames) rest := by
  refine run_of_takes rfl ?_
  rw [step, start, if_pos h]
  exact ⟨_, rfl⟩

/-- An integer begins with its sign or with a digit. -/
theorem exists_integerText_eq_cons (value : Int) :
    ∃ c rest, integerText value = c :: rest ∧ (c = '-' ∨ Decimal.isDigit c = true) := by
  unfold integerText
  by_cases hneg : value < 0
  · rw [if_pos hneg]
    exact ⟨'-', _, rfl, Or.inl rfl⟩
  · rw [if_neg hneg]
    obtain ⟨c, rest, heq, hc⟩ := Decimal.exists_decimal_eq_cons value.natAbs
    exact ⟨c, rest, heq, Or.inr hc⟩

theorem isBlank_of_number {c : Char} (h : c = '-' ∨ Decimal.isDigit c = true) :
    isBlank c = false := by
  rcases h with rfl | h
  · rfl
  · simp only [isBlank, Bool.or_eq_false_iff, beq_eq_false_iff_ne]
    refine ⟨⟨⟨?_, ?_⟩, ?_⟩, ?_⟩ <;>
      · rintro rfl
        exact Bool.noConfusion h

theorem ne_bracket_of_number {c : Char} (h : c = '-' ∨ Decimal.isDigit c = true) :
    c ≠ ']' := by
  rintro rfl
  rcases h with h | h
  · exact absurd h (by decide)
  · exact Bool.noConfusion h

/-- The text of an exact document begins with a character that is due where an item is. -/
theorem exists_render_eq_cons (layout : Layout) (depth : Nat) {document : Document}
    (h : document.Exact) :
    ∃ c rest, document.render layout depth = c :: rest ∧ isBlank c = false ∧ c ≠ ']' := by
  cases document with
  | null => exact ⟨'n', _, rfl, rfl, by decide⟩
  | bool value =>
      cases value with
      | true => exact ⟨'t', _, rfl, rfl, by decide⟩
      | false => exact ⟨'f', _, rfl, rfl, by decide⟩
  | number value =>
      cases value with
      | integer value fits =>
          obtain ⟨c, rest, heq, hc⟩ := exists_integerText_eq_cons value
          exact ⟨c, rest, heq, isBlank_of_number hc, ne_bracket_of_number hc⟩
      | float value => exact nomatch h
  | string value => exact ⟨'"', _, rfl, rfl, by decide⟩
  | array items => exact ⟨'[', _, rfl, rfl, by decide⟩
  | object members => exact ⟨'{', _, rfl, rfl, by decide⟩

/-- Behind an opening bracket an item is read as any value. -/
theorem run_firstItem (layout : Layout) (depth : Nat) {item : Document} (h : item.Exact)
    (frames : List Frame) (rest : List Char) :
    run (.firstItem frames) (item.render layout depth ++ rest)
      = run (.value (.list [] :: frames)) (item.render layout depth ++ rest) := by
  obtain ⟨c, tail, heq, hblank, hbracket⟩ := exists_render_eq_cons layout depth h
  rw [heq, List.cons_append]
  refine run_of_step_eq hblank ?_
  rw [step, step, if_neg hbracket]

/-- Behind a comma an item is read as any value. -/
theorem run_nextItem (layout : Layout) (depth : Nat) {item : Document} (h : item.Exact)
    (before : List Document) (frames : List Frame) (rest : List Char) :
    run (.nextItem before frames) (item.render layout depth ++ rest)
      = run (.value (.list before :: frames)) (item.render layout depth ++ rest) := by
  obtain ⟨c, tail, heq, hblank, hbracket⟩ := exists_render_eq_cons layout depth h
  rw [heq, List.cons_append]
  refine run_of_step_eq hblank ?_
  rw [step, step, if_neg hbracket]

/-- A quoted name is taken, and its colon is due. -/
theorem takes_name (before : Members) (frames : List Frame) (text : String) (rest : List Char) :
    Takes (name before frames (text.toList.flatMap escapeChar ++ '"' :: rest))
      (.colon before text frames) rest := by
  obtain ⟨shorter, hread⟩ := readQuoted_escaped text.toList [] rest
  unfold name
  simp only [hread, List.reverse_nil, List.nil_append, String.ofList_toList]
  exact ⟨_, rfl⟩

theorem quoted_append (text : String) (rest : List Char) :
    quoted text ++ rest = '"' :: (text.toList.flatMap escapeChar ++ '"' :: rest) := by
  simp [quoted]

theorem run_firstName (frames : List Frame) (text : String) (rest : List Char) :
    run (.firstName frames) (quoted text ++ rest) = run (.colon [] text frames) rest := by
  obtain ⟨shorter, hname⟩ := takes_name [] frames text rest
  rw [quoted_append]
  refine run_of_takes rfl ?_
  rw [step, if_neg (by decide), if_pos rfl, hname]
  exact ⟨_, rfl⟩

theorem run_nextName (before : Members) (frames : List Frame) (text : String)
    (rest : List Char) :
    run (.nextName before frames) (quoted text ++ rest)
      = run (.colon before text frames) rest := by
  obtain ⟨shorter, hname⟩ := takes_name before frames text rest
  rw [quoted_append]
  refine run_of_takes rfl ?_
  rw [step, if_neg (by decide), if_pos rfl, hname]
  exact ⟨_, rfl⟩

-- ── The simulation ──────────────────────────────────────────────────────────

/-- Neither layout puts anything that goes on with a number in front of what ends it. -/
theorem endsNumber_gap (layout : Layout) (depth : Nat) {c : Char} (rest : List Char)
    (h : EndsNumber (c :: rest)) : EndsNumber (layout.gap depth ++ c :: rest) := by
  cases layout with
  | compact => exact h
  | indented => exact ⟨rfl, by decide, by decide, by decide⟩

theorem endsNumber_comma (rest : List Char) : EndsNumber (',' :: rest) :=
  ⟨rfl, by decide, by decide, by decide⟩

/-- Whatever follows an item in a container, a number ends there. -/
theorem endsNumber_separator {α : Type} {items : List α} {written : List Char}
    (hwritten : items = [] → written = []) (layout : Layout) (outer : Nat) {c : Char}
    {rest : List Char} (h : EndsNumber (c :: rest)) :
    EndsNumber (separator items ++ (written ++ (layout.gap outer ++ c :: rest))) := by
  cases items with
  | nil =>
      rw [hwritten rfl]
      exact endsNumber_gap layout outer rest h
  | cons item items => exact endsNumber_comma _

theorem endsNumber_bracket (rest : List Char) : EndsNumber (']' :: rest) :=
  ⟨rfl, by decide, by decide, by decide⟩

theorem endsNumber_brace (rest : List Char) : EndsNumber ('}' :: rest) :=
  ⟨rfl, by decide, by decide, by decide⟩

mutual

/-- **THE SIMULATION**: where a value is due, the text of an exact document takes the machine
    to the state behind that document. -/
theorem run_render (layout : Layout) :
    ∀ (document : Document) (depth : Nat) (frames : List Frame) (rest : List Char),
      document.Exact → frames.length + document.nesting ≤ nestingLimit → EndsNumber rest →
      run (.value frames) (document.render layout depth ++ rest)
        = run (.after document frames) rest
  | .null, _, frames, rest, _, _, _ =>
      run_of_takes rfl (takes_word frames ['u', 'l', 'l'] .null 'n' rest)
  | .bool true, _, frames, rest, _, _, _ =>
      run_of_takes rfl (takes_word frames ['r', 'u', 'e'] (.bool true) 't' rest)
  | .bool false, _, frames, rest, _, _, _ =>
      run_of_takes rfl (takes_word frames ['a', 'l', 's', 'e'] (.bool false) 'f' rest)
  | .number (.integer value fits), _, frames, rest, _, _, hrest => by
      obtain ⟨c, tail, heq, hc⟩ := exists_integerText_eq_cons value
      have hread := readNumber_integerText fits hrest
      show run (.value frames) (integerText value ++ rest) = _
      rw [heq, List.cons_append] at hread ⊢
      exact run_of_takes (isBlank_of_number hc) (takes_start_number hc hread frames)
  | .number (.float _), _, _, _, h, _, _ => nomatch h
  | .string value, _, frames, rest, _, _, _ => by
      show run (.value frames) (quoted value ++ rest) = _
      rw [quoted_append]
      exact run_of_takes rfl (takes_start_string frames value rest)
  | .array [], depth, frames, rest, _, hnest, _ => by
      have hroom : frames.length < nestingLimit := by
        simp only [nesting] at hnest
        omega
      show run (.value frames) ('[' :: ']' :: rest) = _
      rw [run_openList hroom]
      exact run_of_takes rfl ⟨_, rfl⟩
  | .array (item :: items), depth, frames, rest, h, hnest, _ => by
      obtain ⟨hitem, hitems⟩ := h
      simp only [nesting, nestingOfItems] at hnest
      have hroom : frames.length < nestingLimit := by omega
      have hinner : (Frame.list [] :: frames).length + item.nesting ≤ nestingLimit := by
        rw [List.length_cons]
        omega
      rw [render, renderItems, Layout.closing]
      simp only [List.append_assoc, List.cons_append, List.nil_append]
      rw [run_openList hroom, run_gap, run_firstItem layout _ hitem,
        run_render layout item _ _ _ hitem hinner
          (endsNumber_separator (by rintro rfl; rfl) layout depth (endsNumber_bracket rest)),
        run_followingItems layout items (depth + 1) depth item [] frames rest hitems (by omega)]
      rfl
  | .object [], depth, frames, rest, _, hnest, _ => by
      have hroom : frames.length < nestingLimit := by
        simp only [nesting] at hnest
        omega
      show run (.value frames) ('{' :: '}' :: rest) = _
      rw [run_openObject hroom]
      exact run_of_takes rfl ⟨_, rfl⟩
  | .object ((name, value) :: members), depth, frames, rest, h, hnest, _ => by
      obtain ⟨hnames, hvalue, hmembers⟩ := h
      simp only [nesting, nestingOfMembers] at hnest
      have hroom : frames.length < nestingLimit := by omega
      have hinner : (Frame.object [] name :: frames).length + value.nesting ≤ nestingLimit := by
        rw [List.length_cons]
        omega
      rw [render, renderMembers, Layout.closing]
      simp only [List.append_assoc, List.cons_append, List.nil_append]
      rw [run_openObject hroom, run_gap, run_firstName, run_colon,
        run_render layout value _ _ _ hvalue hinner
          (endsNumber_separator (by rintro rfl; rfl) layout depth (endsNumber_brace rest)),
        run_followingMembers layout members (depth + 1) depth name value [] frames rest hnames
          hmembers (by omega)]
      rfl

/-- From behind an item of a list to behind the list. -/
theorem run_followingItems (layout : Layout) :
    ∀ (items : List Document) (depth outer : Nat) (item : Document) (before : List Document)
      (frames : List Frame) (rest : List Char),
      ExactItems items → frames.length + nestingOfItems items + 1 ≤ nestingLimit →
      run (.after item (.list before :: frames))
          (separator items ++ (renderItems layout depth items ++
            (layout.gap outer ++ ']' :: rest)))
        = run (.after (.array (before.reverse ++ item :: items)) frames) rest
  | [], _, outer, item, before, frames, rest, _, _ => by
      show run _ (layout.gap outer ++ ']' :: rest) = _
      rw [run_gap, run_of_takes rfl ⟨_, rfl⟩, List.reverse_cons]
  | next :: items, depth, outer, item, before, frames, rest, h, hnest => by
      obtain ⟨hnext, hitems⟩ := h
      simp only [nestingOfItems] at hnest
      have hinner : (Frame.list (item :: before) :: frames).length + next.nesting
          ≤ nestingLimit := by
        rw [List.length_cons]
        omega
      rw [separator, List.singleton_append, run_of_takes rfl ⟨_, rfl⟩, renderItems]
      simp only [List.append_assoc]
      rw [run_gap, run_nextItem layout _ hnext,
        run_render layout next _ _ _ hnext hinner
          (endsNumber_separator (by rintro rfl; rfl) layout outer (endsNumber_bracket rest)),
        run_followingItems layout items depth outer next (item :: before) frames rest hitems
          (by omega), List.reverse_cons, List.append_assoc]
      rfl

/-- From behind the value of a member to behind its object. -/
theorem run_followingMembers (layout : Layout) :
    ∀ (members : List (String × Document)) (depth outer : Nat) (name : String)
      (value : Document) (before : Members) (frames : List Frame) (rest : List Char),
      (Members.names (before ++ (name, value) :: members)).Nodup → ExactMembers members →
      frames.length + nestingOfMembers members + 1 ≤ nestingLimit →
      run (.after value (.object before name :: frames))
          (separator members ++ (renderMembers layout depth members ++
            (layout.gap outer ++ '}' :: rest)))
        = run (.after (.object (before ++ (name, value) :: members)) frames) rest
  | [], _, outer, name, value, before, frames, rest, hnames, _, _ => by
      have hinsert := Members.insert_of_not_mem value (Members.not_mem_names_of_nodup hnames)
      show run _ (layout.gap outer ++ '}' :: rest) = _
      rw [run_gap, run_of_takes rfl ⟨_, rfl⟩, hinsert]
  | (next, following) :: members, depth, outer, name, value, before, frames, rest, hnames, h,
      hnest => by
      obtain ⟨hfollowing, hmembers⟩ := h
      simp only [nestingOfMembers] at hnest
      have hinsert := Members.insert_of_not_mem value (Members.not_mem_names_of_nodup hnames)
      have hinner : (Frame.object (before ++ [(name, value)]) next :: frames).length
          + following.nesting ≤ nestingLimit := by
        rw [List.length_cons]
        omega
      rw [List.append_cons] at hnames
      rw [separator, List.singleton_append, run_of_takes rfl ⟨_, rfl⟩, renderMembers, hinsert]
      simp only [List.append_assoc]
      rw [run_gap, run_nextName, run_colon,
        run_render layout following _ _ _ hfollowing hinner
          (endsNumber_separator (by rintro rfl; rfl) layout outer (endsNumber_brace rest)),
        run_followingMembers layout members depth outer next following _ frames rest hnames
          hmembers (by omega), List.append_assoc]
      rfl

end

/-- **READING UNDOES WRITING**, in either layout. -/
theorem read_text (layout : Layout) {document : Document} (h : document.Exact)
    (hnest : document.nesting ≤ nestingLimit) : read (document.text layout) = .ok document := by
  have hlength : ([] : List Frame).length + document.nesting ≤ nestingLimit := by
    rw [List.length_nil, Nat.zero_add]
    exact hnest
  have hrun := run_render layout document 0 [] [] h hlength trivial
  rw [List.append_nil] at hrun
  rw [read, text, String.toList_ofList, hrun, run]
  rfl

end Document

end Stencil
