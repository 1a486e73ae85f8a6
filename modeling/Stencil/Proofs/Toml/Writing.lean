import Stencil.Proofs.Document.RoundTrip
import Stencil.Proofs.Toml.Lexemes
import Stencil.Proofs.Toml.Meaning

/-!
# Writing — documents as inline values of a settings text

Documents of strings, booleans, whole numbers of sixty-four bits, lists and objects can be written
as values of a settings text (`Document.Portable`). The outline of such a value is followed token by
token: where a value is due, its text takes the machine to the state behind the value, which reads
as something that stands for the document (`run_inlineText`). So a settings text with a single
keyword can be read, whatever its value is and in whatever order the members stand, as long as the
value is not too deep (`read_keywordText`).
-/

namespace Stencil

namespace Document

mutual

/-- What can be written in settings as well as in JSON: no number but those of signed words, no
    null, and no name twice. -/
def Portable : Document → Prop
  | .null => False
  | .bool _ => True
  | .number (.integer value _) => -0x8000000000000000 ≤ value ∧ value < 0x8000000000000000
  | .number (.float _) => False
  | .string _ => True
  | .array items => PortableItems items
  | .object members => (Members.names members).Nodup ∧ PortableMembers members

/-- The same of all items of a list. -/
def PortableItems : List Document → Prop
  | [] => True
  | item :: items => Portable item ∧ PortableItems items

/-- The same of the values of all members. -/
def PortableMembers : List (String × Document) → Prop
  | [] => True
  | (_, value) :: members => Portable value ∧ PortableMembers members

end

mutual

/-- What can be written in settings can be read back from JSON. -/
theorem Portable.exact : ∀ {document : Document}, document.Portable → document.Exact
  | .null, _ => trivial
  | .bool _, _ => trivial
  | .number (.integer _ _), _ => trivial
  | .number (.float _), h => h.elim
  | .string _, _ => trivial
  | .array _, h => exactItems_of_portable h
  | .object _, h => ⟨h.1, exactMembers_of_portable h.2⟩

theorem exactItems_of_portable : ∀ {items : List Document}, PortableItems items →
    ExactItems items
  | [], _ => trivial
  | _ :: _, h => ⟨Portable.exact h.1, exactItems_of_portable h.2⟩

theorem exactMembers_of_portable : ∀ {members : List (String × Document)},
    PortableMembers members → ExactMembers members
  | [], _ => trivial
  | _ :: _, h => ⟨Portable.exact h.1, exactMembers_of_portable h.2⟩

end

end Document

namespace Toml

mutual

/-- A document as an inline value. Nothing is written for what has no form in settings. -/
def inlineText : Document → List Char
  | .null => []
  | .bool true => ['t', 'r', 'u', 'e']
  | .bool false => ['f', 'a', 'l', 's', 'e']
  | .number value => value.text
  | .string text => basicString text
  | .array items => '[' :: (itemsText items ++ [']'])
  | .object members => '{' :: (membersText members ++ ['}'])

/-- The items of a list, with commas between them. -/
def itemsText : List Document → List Char
  | [] => []
  | item :: items => inlineText item ++ (separator items ++ itemsText items)

/-- The members of an object, with commas between them. -/
def membersText : List (String × Document) → List Char
  | [] => []
  | (name, value) :: members =>
    basicString name ++ '=' :: (inlineText value ++ (separator members ++ membersText members))

end

-- ── Running the machine ─────────────────────────────────────────────────────

/-- Takes in the tokens of a text, and the end of the text. -/
def Sketch.run (s : Sketch) (text : List Char) : Except Problem Sketch :=
  (tokens text ++ [Token.ending]).foldlM Sketch.take s

/-- The state behind a value that is complete. -/
def Sketch.behind (lines : List WrittenLine) (written : Written) (around : Opened) : Sketch :=
  Sketch.record { lines } (complete written around)

theorem tokens_cons {c : Char} {inside rest : List Char} {kind : TokenKind}
    (h : extent c (inside ++ rest) = (kind, inside.length)) :
    tokens (c :: (inside ++ rest))
      = ⟨kind, c :: inside, (inside ++ rest).length + 1⟩ :: tokens rest := by
  have hleft : (c :: (inside ++ rest)).length - (inside.length + 1) = rest.length := by
    simp only [List.length_cons, List.length_append]
    omega
  rw [tokens, tokensFrom, h]
  dsimp only
  rw [List.take_left, List.drop_left, hleft]
  rfl

/-- **One token** takes the machine one step. -/
theorem run_of_step {state : State} {lines : List WrittenLine} {c : Char}
    {inside rest : List Char} {kind : TokenKind} {outcome : Outcome}
    (hextent : extent c (inside ++ rest) = (kind, inside.length))
    (hflaw : Token.flaw? ⟨kind, c :: inside, (inside ++ rest).length + 1⟩ = none)
    (hsettle : state.settle ⟨kind, c :: inside, (inside ++ rest).length + 1⟩ = { next := state })
    (hstep : state.step ⟨kind, c :: inside, (inside ++ rest).length + 1⟩ = .ok outcome) :
    Sketch.run ⟨state, lines⟩ (c :: (inside ++ rest))
      = Sketch.run (Sketch.record ⟨state, lines⟩ outcome) rest := by
  rw [Sketch.run, tokens_cons hextent, List.cons_append, List.foldlM_cons, Sketch.take, hsettle,
    hflaw]
  dsimp only
  rw [show (Sketch.record ⟨state, lines⟩ { next := state }).state = state from rfl, hstep]
  rfl

/-- The same of a token with a single character. -/
theorem run_of_mark {state : State} {lines : List WrittenLine} {c : Char} {rest : List Char}
    {kind : TokenKind} {outcome : Outcome} (hextent : extent c rest = (kind, 0))
    (hflaw : Token.flaw? ⟨kind, [c], rest.length + 1⟩ = none)
    (hsettle : state.settle ⟨kind, [c], rest.length + 1⟩ = { next := state })
    (hstep : state.step ⟨kind, [c], rest.length + 1⟩ = .ok outcome) :
    Sketch.run ⟨state, lines⟩ (c :: rest)
      = Sketch.run (Sketch.record ⟨state, lines⟩ outcome) rest :=
  @run_of_step state lines c [] rest kind outcome hextent hflaw hsettle hstep

/-- The same if nothing is complete yet. -/
theorem run_of_goOn {state next : State} {lines : List WrittenLine} {c : Char}
    {rest : List Char} {kind : TokenKind} (hextent : extent c rest = (kind, 0))
    (hflaw : Token.flaw? ⟨kind, [c], rest.length + 1⟩ = none)
    (hsettle : state.settle ⟨kind, [c], rest.length + 1⟩ = { next := state })
    (hstep : state.step ⟨kind, [c], rest.length + 1⟩ = goOn next) :
    Sketch.run ⟨state, lines⟩ (c :: rest) = Sketch.run ⟨next, lines⟩ rest :=
  run_of_mark hextent hflaw hsettle hstep

-- ── Where values begin ──────────────────────────────────────────────────────

/-- The kinds of tokens with which values begin. -/
def TokenKind.opensValue : TokenKind → Bool
  | .openBracket => true
  | .openBrace => true
  | .quoted _ => true
  | .word => true
  | _ => false

/-- A value is due, inside of what is open around it. -/
structure State.Begins (state : State) (around : Opened) : Prop where
  settle : ∀ token, state.settle token = { next := state }
  step : ∀ token : Token, token.kind.opensValue = true →
    state.step token = startValue around token

/-- A value is due if the tokens with which values begin all start one. -/
theorem begins_of_step {state : State} {around : Opened}
    (settle : ∀ token, state.settle token = { next := state })
    (list : ∀ text left, state.step ⟨.openBracket, text, left⟩
      = startValue around ⟨.openBracket, text, left⟩)
    (inline : ∀ text left, state.step ⟨.openBrace, text, left⟩
      = startValue around ⟨.openBrace, text, left⟩)
    (quoted : ∀ form text left, state.step ⟨.quoted form, text, left⟩
      = startValue around ⟨.quoted form, text, left⟩)
    (word : ∀ text left, state.step ⟨.word, text, left⟩ = startValue around ⟨.word, text, left⟩) :
    state.Begins around := by
  refine ⟨settle, ?_⟩
  rintro ⟨kind, text, left⟩ hopen
  cases kind with
  | openBracket => exact list text left
  | openBrace => exact inline text left
  | quoted form => exact quoted form text left
  | word => exact word text left
  | _ => exact nomatch hopen

/-- In a list a value is due. -/
theorem begins_item (before : List Written) (around : Opened) :
    (State.item before around).Begins ⟨around.names, .list before :: around.frames⟩ :=
  begins_of_step (fun _ => rfl) (fun _ _ => rfl) (fun _ _ => rfl) (fun _ _ _ => rfl)
    fun _ _ => rfl

theorem begins_lineValue (names : List Token) : (State.value ⟨names, []⟩).Begins ⟨names, []⟩ :=
  begins_of_step (fun _ => rfl) (fun _ _ => rfl) (fun _ _ => rfl) (fun _ _ _ => rfl)
    fun _ _ => rfl

theorem begins_memberValue (before : List (List Token × Written)) (names : List Token)
    (around : Opened) :
    (State.value ⟨around.names, .inline before names :: around.frames⟩).Begins
      ⟨around.names, .inline before names :: around.frames⟩ :=
  begins_of_step (fun _ => rfl) (fun _ _ => rfl) (fun _ _ => rfl) (fun _ _ _ => rfl)
    fun _ _ => rfl

/-- Behind a value, no word goes on. -/
theorem settle_behind (lines : List WrittenLine) (written : Written) (around : Opened)
    (token : Token) :
    (Sketch.behind lines written around).state.settle token
      = { next := (Sketch.behind lines written around).state } := by
  obtain ⟨names, frames⟩ := around
  cases frames with
  | nil => rfl
  | cons frame frames =>
      cases frame with
      | list before => rfl
      | inline before names => rfl

/-- The kinds of tokens that end a word. -/
def TokenKind.closesWord : TokenKind → Bool
  | .comma => true
  | .closeBracket => true
  | .closeBrace => true
  | .lineEnd => true
  | _ => false

/-- What ends a word is a mark of a single character. -/
theorem exists_mark_of_endsWord {text : List Char} (h : EndsWord text) :
    ∃ c rest kind, text = c :: rest ∧ extent c rest = (kind, 0) ∧ kind.closesWord = true := by
  cases text with
  | nil => exact h.elim
  | cons c rest =>
      rcases h with rfl | rfl | rfl | rfl
      · exact ⟨_, rest, .comma, rfl, rfl, rfl⟩
      · exact ⟨_, rest, .closeBracket, rfl, rfl, rfl⟩
      · exact ⟨_, rest, .closeBrace, rfl, rfl, rfl⟩
      · exact ⟨_, rest, .lineEnd, rfl, rfl, rfl⟩

theorem exists_cons_of_endsWord {text : List Char} (h : EndsWord text) :
    ∃ c rest, text = c :: rest ∧ c ≠ '"' := by
  cases text with
  | nil => exact h.elim
  | cons c rest =>
      refine ⟨c, rest, rfl, ?_⟩
      rcases h with rfl | rfl | rfl | rfl <;> decide

/-- A word is complete as soon as a token comes that ends it. -/
theorem take_of_closesWord (first : Token) (around : Opened) (lines : List WrittenLine)
    {token : Token} (h : token.kind.closesWord = true) :
    Sketch.take ⟨.moreWord first [] around, lines⟩ token
      = Sketch.take (Sketch.behind lines (.scalar (first.word [])) around) token := by
  have hsettle : (State.moreWord first [] around).settle token
      = complete (.scalar (first.word [])) around := by
    obtain ⟨kind, text, left⟩ := token
    cases kind with
    | comma => rfl
    | closeBracket => rfl
    | closeBrace => rfl
    | lineEnd => rfl
    | _ => exact nomatch h
  rw [Sketch.take, Sketch.take, hsettle, settle_behind]
  rfl

/-- The same of all that follows. -/
theorem run_of_endsWord (first : Token) (around : Opened) (lines : List WrittenLine)
    {text : List Char} (h : EndsWord text) :
    Sketch.run ⟨.moreWord first [] around, lines⟩ text
      = Sketch.run (Sketch.behind lines (.scalar (first.word [])) around) text := by
  obtain ⟨c, rest, kind, rfl, hextent, hkind⟩ := exists_mark_of_endsWord h
  have htokens := @tokens_cons c [] rest kind hextent
  rw [List.nil_append] at htokens
  rw [Sketch.run, Sketch.run, htokens, List.cons_append, List.foldlM_cons, List.foldlM_cons,
    take_of_closesWord first around lines hkind]

section Begins

variable {state : State} {around : Opened} (h : state.Begins around) (lines : List WrittenLine)

include h

/-- A list opens if there is room for it. -/
theorem State.Begins.run_list (hroom : around.frames.length < nestingLimit) (rest : List Char) :
    Sketch.run ⟨state, lines⟩ ('[' :: rest) = Sketch.run ⟨.item [] around, lines⟩ rest := by
  have hstep : state.step ⟨.openBracket, ['['], rest.length + 1⟩ = goOn (.item [] around) :=
    (h.step _ rfl).trans (if_pos hroom)
  exact run_of_goOn rfl rfl (h.settle _) hstep

/-- The same of an inline table. -/
theorem State.Begins.run_inline (hroom : around.frames.length < nestingLimit)
    (rest : List Char) :
    Sketch.run ⟨state, lines⟩ ('{' :: rest) = Sketch.run ⟨.member [] around, lines⟩ rest := by
  have hstep : state.step ⟨.openBrace, ['{'], rest.length + 1⟩ = goOn (.member [] around) :=
    (h.step _ rfl).trans (if_pos hroom)
  exact run_of_goOn rfl rfl (h.settle _) hstep

/-- A string is a value by itself. -/
theorem State.Begins.run_string (text : String) {c : Char} (hc : c ≠ '"') (rest : List Char) :
    ∃ left, Sketch.run ⟨state, lines⟩ (basicString text ++ c :: rest)
      = Sketch.run (Sketch.behind lines (.scalar ⟨.quoted basic, basicString text, left⟩) around)
          (c :: rest) := by
  have hextent := extent_basicString text.toList hc rest
  exact ⟨_, run_of_step hextent rfl (h.settle _) (h.step _ rfl)⟩

/-- A word is complete once a token follows that it does not go on with. -/
theorem State.Begins.run_word {c : Char} {word rest : List Char}
    (hword : ∀ d ∈ c :: word, isWordChar d = true) (hrest : EndsWord rest) :
    ∃ left, Sketch.run ⟨state, lines⟩ (c :: (word ++ rest))
      = Sketch.run (Sketch.behind lines (.scalar ⟨.word, c :: word, left⟩) around) rest := by
  have hextent := extent_word hword hrest
  refine ⟨(word ++ rest).length + 1, ?_⟩
  rw [run_of_step hextent rfl (h.settle _) (h.step _ rfl)]
  refine (run_of_endsWord _ around lines hrest).trans ?_
  rw [Token.word, List.reverse_nil, List.flatMap_nil, List.append_nil]

end Begins

-- ── What is read of a value ─────────────────────────────────────────────────

/-- A written value reads as something that stands for a document. -/
def Written.StandsFor (written : Written) (document : Document) : Prop :=
  ∃ value, written.read = .ok value ∧ value.Means document

/-- The token of a name that is quoted. -/
def nameToken (name : String) (left : Nat) : Token :=
  ⟨.quoted basic, basicString name, left⟩

/-- A key of a single quoted name. -/
theorem readKey_basicString (name : String) (left : Nat) :
    readKey [nameToken name left]
      = .ok ⟨[], name, ⟨left, (basicString name).length⟩⟩ := by
  have hname : (nameToken name left).name = .ok name :=
    string_basicString name left
  rw [readKey, readNames, hname]
  rfl

/-- A new key comes last. -/
theorem add_of_not_mem {entries : Entries} {key : String} (value : Value)
    (h : key ∉ entries.keys) : entries.add key value = .ok (entries ++ [(key, value)]) := by
  induction entries with
  | nil => rfl
  | cons entry entries ih =>
      obtain ⟨name, old⟩ := entry
      obtain ⟨hname, hrest⟩ := not_or.mp (mt List.mem_cons.mpr h)
      have hadd := ih hrest
      rw [Entries.add] at hadd ⊢
      rw [Entries.alter, if_neg (Ne.symm hname), hadd]
      rfl

/-- Written entries read as entries that stand for members, behind others with other keys. -/
def EntriesStandFor (written : List (List Token × Written)) (members : Members) : Prop :=
  ∃ found, EntriesMean found members ∧ ∀ entries : Entries,
    (entries.keys ++ members.names).Nodup → readEntries entries written = .ok (entries ++ found)

theorem entriesStandFor_cons {name : String} {left : Nat} {written : Written} {value : Document}
    {further : List (List Token × Written)} {members : Members}
    (hfirst : written.StandsFor value) (hfurther : EntriesStandFor further members) :
    EntriesStandFor (([nameToken name left], written) :: further)
      ((name, value) :: members) := by
  obtain ⟨first, hread, hmeans⟩ := hfirst
  obtain ⟨found, hfound, hreads⟩ := hfurther
  refine ⟨(name, first) :: found, .cons hmeans hfound, ?_⟩
  intro entries hnodup
  have hname : name ∉ entries.keys := by
    intro hmem
    exact (List.nodup_append.mp hnodup).2.2 name hmem name (List.mem_cons_self ..) rfl
  have hextended : Entries.keys (entries ++ [(name, first)]) = entries.keys ++ [name] :=
    List.map_append
  have hrest := hreads (entries ++ [(name, first)]) (by
    rw [hextended, List.append_assoc]
    exact hnodup)
  rw [readEntries, readKey_basicString, hread]
  show (Entries.addDotted name first [] entries).mapError _ >>= _ = _
  rw [Entries.addDotted, add_of_not_mem first hname]
  show readEntries (entries ++ [(name, first)]) further = _
  rw [hrest, List.append_assoc]
  rfl

-- ── The simulation ──────────────────────────────────────────────────────────

/-- A quoted name, up to the value behind it. -/
theorem run_name {state : State} {purpose : Purpose} (next : Token → State)
    (lines : List WrittenLine) (name : String) (rest : List Char)
    (hsettle : ∀ token, state.settle token = { next := state })
    (hname : ∀ left, state.step (nameToken name left)
      = goOn (.named purpose [nameToken name left]))
    (hequals : ∀ token text left, behindNames purpose [token] ⟨.equals, text, left⟩
      = goOn (next token)) :
    ∃ left, Sketch.run ⟨state, lines⟩ (basicString name ++ '=' :: rest)
      = Sketch.run ⟨next (nameToken name left), lines⟩ rest := by
  have hmark : '=' ≠ '"' := by decide
  have hextent := extent_basicString name.toList hmark rest
  refine ⟨(basicText name.toList ++ ['"'] ++ '=' :: rest).length + 1, ?_⟩
  refine (run_of_step hextent rfl (hsettle _) (hname _)).trans ?_
  exact run_of_goOn rfl rfl rfl (hequals _ _ _)

/-- The name of a member of an inline table. -/
theorem run_memberName (before : List (List Token × Written)) (around : Opened)
    (lines : List WrittenLine) (name : String) (rest : List Char) :
    ∃ left, Sketch.run ⟨.member before around, lines⟩ (basicString name ++ '=' :: rest)
      = Sketch.run ⟨.value ⟨around.names, .inline before [nameToken name left] :: around.frames⟩,
          lines⟩ rest :=
  run_name (fun token => .value ⟨around.names, .inline before [token] :: around.frames⟩) lines
    name rest (fun _ => rfl) (fun _ => rfl) fun _ _ _ => rfl

/-- Behind an item, a list goes on as if it began with the items that are left. -/
theorem run_itemSeparator (items : List Document) (before : List Written) (around : Opened)
    (lines : List WrittenLine) (rest : List Char) :
    Sketch.run ⟨.afterItem before around, lines⟩
        (separator items ++ (itemsText items ++ ']' :: rest))
      = Sketch.run ⟨.item before around, lines⟩ (itemsText items ++ ']' :: rest) := by
  cases items with
  | nil =>
      have hbehind : Sketch.run ⟨.item before around, lines⟩ (']' :: rest)
          = Sketch.run (Sketch.behind lines (.list before.reverse) around) rest :=
        run_of_mark rfl rfl rfl rfl
      exact (run_of_mark rfl rfl rfl rfl).trans hbehind.symm
  | cons item items => exact run_of_goOn rfl rfl rfl rfl

/-- The same of the members of an inline table. -/
theorem run_memberSeparator (members : Members) (before : List (List Token × Written))
    (around : Opened) (lines : List WrittenLine) (rest : List Char) :
    Sketch.run ⟨.afterMember before around, lines⟩
        (separator members ++ (membersText members ++ '}' :: rest))
      = Sketch.run ⟨.member before around, lines⟩ (membersText members ++ '}' :: rest) := by
  cases members with
  | nil =>
      have hbehind : Sketch.run ⟨.member before around, lines⟩ ('}' :: rest)
          = Sketch.run (Sketch.behind lines (.inline before.reverse) around) rest :=
        run_of_mark rfl rfl rfl rfl
      exact (run_of_mark rfl rfl rfl rfl).trans hbehind.symm
  | cons member members => exact run_of_goOn rfl rfl rfl rfl

/-- Whatever follows an item in a container, a word ends there. -/
theorem endsWord_separator {α : Type} {items : List α} {written rest : List Char}
    (hwritten : items = [] → written = []) (hrest : EndsWord rest) :
    EndsWord (separator items ++ (written ++ rest)) := by
  cases items with
  | nil =>
      rw [hwritten rfl]
      exact hrest
  | cons item items => exact .inl rfl

mutual

/-- **THE SIMULATION**: where a value is due, the text of a document takes the machine to the state
    behind a value that stands for the document. -/
theorem run_inlineText : ∀ (document : Document) (state : State) (around : Opened)
    (lines : List WrittenLine) (rest : List Char), document.Portable →
      around.frames.length + document.nesting ≤ nestingLimit → state.Begins around →
      EndsWord rest →
      ∃ written : Written, written.StandsFor document ∧
        Sketch.run ⟨state, lines⟩ (inlineText document ++ rest)
          = Sketch.run (Sketch.behind lines written around) rest
  | .null, _, _, _, _, h, _, _, _ => h.elim
  | .bool true, state, around, lines, rest, _, _, hbegins, hrest => by
      have hword : ∀ c ∈ ['t', 'r', 'u', 'e'], isWordChar c = true := List.all_eq_true.mp rfl
      obtain ⟨left, hrun⟩ := hbegins.run_word lines hword hrest
      exact ⟨_, ⟨_, rfl, .boolean true⟩, hrun⟩
  | .bool false, state, around, lines, rest, _, _, hbegins, hrest => by
      have hword : ∀ c ∈ ['f', 'a', 'l', 's', 'e'], isWordChar c = true :=
        List.all_eq_true.mp rfl
      obtain ⟨left, hrun⟩ := hbegins.run_word lines hword hrest
      exact ⟨_, ⟨_, rfl, .boolean false⟩, hrun⟩
  | .number (.integer value fits), state, around, lines, rest, _, _, hbegins, hrest => by
      obtain ⟨c, word, heq, -⟩ := Document.exists_integerText_eq_cons value
      have hword : ∀ d ∈ c :: word, isWordChar d = true := by
        rw [← heq]
        exact fun d => isWordChar_of_mem_integerText
      obtain ⟨left, hrun⟩ := hbegins.run_word lines hword hrest
      rw [← heq] at hrun
      have hread : (Written.scalar ⟨.word, integerText value, left⟩).read
          = .ok (.integer value ⟨left, (integerText value).length⟩) := by
        show (wordValue _ (integerText value)).mapError _ = _
        rw [wordValue_integerText]
        rfl
      refine ⟨_, ⟨_, hread, .integer _ fits⟩, ?_⟩
      rw [← hrun, ← List.cons_append, ← heq]
      rfl
  | .number (.float _), _, _, _, _, h, _, _, _ => h.elim
  | .string text, state, around, lines, rest, _, _, hbegins, hrest => by
      obtain ⟨c, rest, rfl, hc⟩ := exists_cons_of_endsWord hrest
      obtain ⟨left, hrun⟩ := hbegins.run_string lines text hc rest
      have hread : (Written.scalar ⟨.quoted basic, basicString text, left⟩).read
          = .ok (.string text) := by
        show (Token.string ⟨.quoted basic, basicString text, left⟩ basic).map _ = _
        rw [string_basicString]
        rfl
      exact ⟨_, ⟨_, hread, .string text⟩, hrun⟩
  | .array items, state, around, lines, rest, h, hroom, hbegins, _ => by
      rw [Document.nesting] at hroom
      obtain ⟨written, values, hread, hmean, hrun⟩ :=
        run_itemsText items [] around lines rest h (by omega)
      refine ⟨.list written, ⟨.array values, ?_, .array hmean⟩, ?_⟩
      · rw [Written.read, hread]
        rfl
      · rw [inlineText, List.cons_append, List.append_assoc, hbegins.run_list lines (by omega)]
        exact hrun
  | .object members, state, around, lines, rest, h, hroom, hbegins, _ => by
      rw [Document.nesting] at hroom
      obtain ⟨written, ⟨found, hfound, hread⟩, hrun⟩ :=
        run_membersText members [] around lines rest h.2 (by omega)
      refine ⟨.inline written, ⟨.table .inline found, ?_, .table hfound⟩, ?_⟩
      · rw [Written.read, hread [] h.1]
        rfl
      · rw [inlineText, List.cons_append, List.append_assoc, hbegins.run_inline lines (by omega)]
        exact hrun

/-- From where an item is due to behind the list. -/
theorem run_itemsText : ∀ (items : List Document) (before : List Written) (around : Opened)
    (lines : List WrittenLine) (rest : List Char), Document.PortableItems items →
      around.frames.length + Document.nestingOfItems items + 1 ≤ nestingLimit →
      ∃ (written : List Written) (values : List Value), readItems written = .ok values ∧
        ItemsMean values items ∧
        Sketch.run ⟨.item before around, lines⟩ (itemsText items ++ ']' :: rest)
          = Sketch.run (Sketch.behind lines (.list (before.reverse ++ written)) around) rest
  | [], before, around, lines, rest, _, _ => by
      refine ⟨[], [], rfl, .nil, ?_⟩
      rw [List.append_nil]
      exact run_of_mark rfl rfl rfl rfl
  | item :: items, before, around, lines, rest, h, hroom => by
      obtain ⟨hitem, hitems⟩ := h
      rw [Document.nestingOfItems] at hroom
      have hinner : (Frame.list before :: around.frames).length + item.nesting ≤ nestingLimit := by
        rw [List.length_cons]
        omega
      have hends : EndsWord (separator items ++ (itemsText items ++ ']' :: rest)) :=
        endsWord_separator (by rintro rfl; rfl) (.inr (.inl rfl))
      obtain ⟨first, ⟨value, hvalue, hmeans⟩, hrun⟩ :=
        run_inlineText item (.item before around) ⟨around.names, .list before :: around.frames⟩
          lines _ hitem hinner (begins_item before around) hends
      obtain ⟨written, values, hread, hothers, hrest⟩ :=
        run_itemsText items (first :: before) around lines rest hitems (by omega)
      refine ⟨first :: written, value :: values, ?_, .cons hmeans hothers, ?_⟩
      · rw [readItems, hvalue, hread]
        rfl
      · rw [List.reverse_cons, List.append_assoc] at hrest
        rw [itemsText, List.append_assoc, List.append_assoc, hrun]
        exact (run_itemSeparator items (first :: before) around lines rest).trans hrest

/-- From where a name is due to behind the inline table. -/
theorem run_membersText : ∀ (members : List (String × Document))
    (before : List (List Token × Written)) (around : Opened) (lines : List WrittenLine)
    (rest : List Char), Document.PortableMembers members →
      around.frames.length + Document.nestingOfMembers members + 1 ≤ nestingLimit →
      ∃ written : List (List Token × Written), EntriesStandFor written members ∧
        Sketch.run ⟨.member before around, lines⟩ (membersText members ++ '}' :: rest)
          = Sketch.run (Sketch.behind lines (.inline (before.reverse ++ written)) around) rest
  | [], before, around, lines, rest, _, _ => by
      refine ⟨[], ⟨[], .nil, fun entries _ => ?_⟩, ?_⟩
      · rw [readEntries, List.append_nil]
      · rw [List.append_nil]
        exact run_of_mark rfl rfl rfl rfl
  | (name, value) :: members, before, around, lines, rest, h, hroom => by
      obtain ⟨hvalue, hmembers⟩ := h
      rw [Document.nestingOfMembers] at hroom
      have hends : EndsWord (separator members ++ (membersText members ++ '}' :: rest)) :=
        endsWord_separator (by rintro rfl; rfl) (.inr (.inr (.inl rfl)))
      obtain ⟨left, hname⟩ := run_memberName before around lines name
        (inlineText value ++ (separator members ++ (membersText members ++ '}' :: rest)))
      have hinner : (Frame.inline before [nameToken name left] :: around.frames).length
          + value.nesting ≤ nestingLimit := by
        rw [List.length_cons]
        omega
      obtain ⟨first, hfirst, hrun⟩ :=
        run_inlineText value _
          ⟨around.names, .inline before [nameToken name left] :: around.frames⟩ lines _ hvalue
          hinner (begins_memberValue before [nameToken name left] around) hends
      obtain ⟨written, hwritten, hrest⟩ :=
        run_membersText members (([nameToken name left], first) :: before) around lines rest
          hmembers (by omega)
      refine ⟨([nameToken name left], first) :: written,
        entriesStandFor_cons hfirst hwritten, ?_⟩
      rw [List.reverse_cons, List.append_assoc] at hrest
      rw [membersText]
      simp only [List.append_assoc, List.cons_append]
      rw [hname, hrun]
      exact (run_memberSeparator members (([nameToken name left], first) :: before) around lines
        rest).trans hrest

end

-- ── Settings with one keyword ───────────────────────────────────────────────

/-- The characters of a settings text that has a single keyword. -/
def keywordLines (keyword : String) (value : Document) : List Char :=
  '[' :: 'k' :: (['e', 'y', 'w', 'o', 'r', 'd', 's'] ++ ']' :: '\n' ::
    (basicString keyword ++ '=' :: (inlineText value ++ ['\n'])))

/-- A settings text that has a single keyword. -/
def keywordText (keyword : String) (value : Document) : String :=
  String.ofList (keywordLines keyword value)

/-- The token of the header. -/
def headerToken (left : Nat) : Token :=
  ⟨.word, ['k', 'e', 'y', 'w', 'o', 'r', 'd', 's'], left⟩

/-- The header, up to the line behind it. -/
theorem run_header (rest : List Char) :
    ∃ left, Sketch.run {} ('[' :: 'k' :: (['e', 'y', 'w', 'o', 'r', 'd', 's'] ++
        ']' :: '\n' :: rest))
      = Sketch.run ⟨.line, [.header [headerToken left]]⟩ rest := by
  have hword : ∀ c ∈ ['k', 'e', 'y', 'w', 'o', 'r', 'd', 's'], isWordChar c = true :=
    List.all_eq_true.mp rfl
  have hends : EndsWord (']' :: '\n' :: rest) := .inr (.inl rfl)
  have hextent := extent_word hword hends
  refine ⟨(['e', 'y', 'w', 'o', 'r', 'd', 's'] ++ ']' :: '\n' :: rest).length + 1, ?_⟩
  have hopen : ∀ text, Sketch.run {} ('[' :: text) = Sketch.run ⟨.opening, []⟩ text := fun text =>
    run_of_goOn rfl rfl rfl rfl
  rw [hopen]
  refine (run_of_step hextent rfl rfl rfl).trans ?_
  show Sketch.run ⟨.named .header [headerToken _], []⟩ (']' :: '\n' :: rest) = _
  refine (run_of_mark rfl rfl rfl rfl).trans ?_
  show Sketch.run ⟨.lineEnd, [.header [headerToken _]]⟩ ('\n' :: rest) = _
  exact run_of_goOn rfl rfl rfl rfl

/-- The name of the keyword, up to its value. -/
theorem run_keyword (lines : List WrittenLine) (name : String) (rest : List Char) :
    ∃ left, Sketch.run ⟨.line, lines⟩ (basicString name ++ '=' :: rest)
      = Sketch.run ⟨.value ⟨[nameToken name left], []⟩, lines⟩ rest :=
  run_name (fun token => .value ⟨[token], []⟩) lines name rest (fun _ => rfl) (fun _ => rfl)
    fun _ _ _ => rfl

/-- The two lines of a definition are outlined as a header and an entry. -/
theorem outline_keywordLines (keyword : String) {value : Document} (h : value.Portable)
    (hroom : value.nesting ≤ nestingLimit) :
    ∃ (left place : Nat) (written : Written), written.StandsFor value ∧
      outline (keywordLines keyword value)
        = .ok [.header [headerToken left], .entry [nameToken keyword place] written] := by
  obtain ⟨left, hheader⟩ :=
    run_header (basicString keyword ++ '=' :: (inlineText value ++ ['\n']))
  obtain ⟨place, hname⟩ :=
    run_keyword [.header [headerToken left]] keyword (inlineText value ++ ['\n'])
  have hinner : ([] : List Frame).length + value.nesting ≤ nestingLimit := by
    rw [List.length_nil, Nat.zero_add]
    exact hroom
  have hends : EndsWord ['\n'] := .inr (.inr (.inr rfl))
  obtain ⟨written, hstands, hvalue⟩ :=
    run_inlineText value _ ⟨[nameToken keyword place], []⟩ [.header [headerToken left]] ['\n'] h
      hinner (begins_lineValue [nameToken keyword place]) hends
  refine ⟨left, place, written, hstands, ?_⟩
  have hline : ∀ lines, Sketch.run ⟨.lineEnd, lines⟩ ['\n'] = Sketch.run ⟨.line, lines⟩ [] :=
    fun lines => run_of_goOn rfl rfl rfl rfl
  show Sketch.run {} (keywordLines keyword value) >>= _ = _
  rw [keywordLines, hheader, hname, hvalue]
  show Sketch.run ⟨.lineEnd, [.entry [nameToken keyword place] written,
    .header [headerToken left]]⟩ ['\n'] >>= _ = _
  rw [hline, Sketch.run, tokens, tokensFrom]
  rfl

/-- **SETTINGS WITH ONE KEYWORD** can be read, whatever its value is. -/
theorem read_keywordText (keyword : String) {value : Document} (h : value.Portable)
    (hroom : value.nesting ≤ nestingLimit) :
    ∃ found, read (keywordText keyword value)
        = .ok [("keywords", .table .defined [(keyword, found)])] ∧ found.Means value := by
  obtain ⟨left, place, written, ⟨found, hfound, hmeans⟩, houtline⟩ :=
    outline_keywordLines keyword h hroom
  refine ⟨found, ?_, hmeans⟩
  have hheader : Progress.read {} (.header [headerToken left])
      = .ok ⟨[("keywords", .table .defined [])], .table ["keywords"]⟩ := rfl
  have hentry : Progress.read ⟨[("keywords", .table .defined [])], .table ["keywords"]⟩
      (.entry [nameToken keyword place] written)
        = .ok ⟨[("keywords", .table .defined [(keyword, found)])], .table ["keywords"]⟩ := by
    rw [Progress.read, readKey_basicString, hfound]
    rfl
  have htext : (keywordText keyword value).toList = keywordLines keyword value :=
    String.toList_ofList
  have hmark : ∀ rest, keywordLines keyword value ≠ '\ufeff' :: rest := by
    intro rest heq
    exact absurd (List.cons.inj heq).1 (by decide)
  unfold read
  rw [htext]
  split
  · next heq => exact absurd heq (hmark _)
  · dsimp only
    rw [houtline]
    show List.foldlM Progress.read {} [WrittenLine.header [headerToken left],
      .entry [nameToken keyword place] written] >>= _ = _
    rw [List.foldlM_cons, hheader]
    show (Progress.read _ _ >>= _) >>= _ = _
    rw [hentry]
    rfl

end Toml

end Stencil
