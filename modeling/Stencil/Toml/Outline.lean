import Stencil.Toml.Token

/-!
# Outlines — what a settings text says before its words are read

An outline has the lines of a text with their names and values as they are written. It is
made by a machine that takes one token a step: its state says what is due and what is
open around it. All that can be wrong here is where brackets, signs and line ends stand
and what comments hold. What names and words stand for is looked at afterwards, so
whatever is wrong with that comes second.

A line is a header, a key with its value, or nothing, each with an optional comment behind
it. Lists and inline tables may span lines, hold comments, and end in a comma. Where a name
or a value is missing, an empty word stands in for it, which is found to be no name and no
value later on; the rest of a line whose names lack one is passed over.
-/

namespace Stencil.Toml

-- ── Lines ───────────────────────────────────────────────────────────────────

/-- A value as it is written. -/
inductive Written where
  | scalar (token : Token)
  | list (items : List Written)
  | inline (entries : List (List Token × Written))

/-- A line that says something, as it is written. -/
inductive WrittenLine where
  | header (names : List Token)
  | listHeader (names : List Token)
  | entry (names : List Token) (value : Written)

/-- The empty word that stands for a name or a value missing before a token. -/
def Token.missing (token : Token) : Token :=
  ⟨.word, [], token.left⟩

/-- The end of a text, which counts as a line end. -/
def Token.ending : Token :=
  ⟨.lineEnd, [], 0⟩

/-- Blanks, line ends and comments, which may stand between the parts of lists and inline
    tables. -/
def Token.isGap (token : Token) : Bool :=
  match token.kind with
  | .spaces | .lineEnd | .comment => true
  | _ => false

/-- The word that a token begins and others go on with, the latest of them first. -/
def Token.word (first : Token) (more : List Token) : Token :=
  ⟨.word, first.text ++ more.reverse.flatMap Token.text, first.left⟩

-- ── States ──────────────────────────────────────────────────────────────────

/-- A list or an inline table that is open: what it holds so far, the latest first, and the
    names whose value is being read. -/
inductive Frame where
  | list (before : List Written)
  | inline (before : List (List Token × Written)) (names : List Token)

/-- A value that is being read: the names at the head of its line, and what is open inside
    the line, the innermost first. -/
structure Opened where
  names : List Token
  frames : List Frame

/-- What names are read for. -/
inductive Purpose where
  | header
  | listHeader
  | entry
  | inline (before : List (List Token × Written)) (around : Opened)

/-- What is due. Names read so far stand with the latest first. -/
inductive State where
  /-- A line. -/
  | line
  /-- The second bracket of a header, or its first name. -/
  | opening
  /-- A name. -/
  | name (purpose : Purpose) (before : List Token)
  /-- A dot, or whatever ends names. -/
  | named (purpose : Purpose) (names : List Token)
  /-- The second closing bracket of a header. -/
  | closing (names : List Token)
  /-- The equals sign of an entry of an inline table, behind a line end or a comment. -/
  | sign (before : List (List Token × Written)) (names : List Token) (around : Opened)
  /-- A value. -/
  | value (around : Opened)
  /-- More of a word, which has a first token and others, the latest first. -/
  | moreWord (first : Token) (more : List Token) (around : Opened)
  /-- Another word, to which blanks join the word before. -/
  | nextWord (first : Token) (more : List Token) (blanks : Token) (around : Opened)
  /-- An item of a list, or its closing bracket. -/
  | item (before : List Written) (around : Opened)
  /-- A comma behind an item, or the closing bracket. -/
  | afterItem (items : List Written) (around : Opened)
  /-- An entry of an inline table, or its closing brace. -/
  | member (before : List (List Token × Written)) (around : Opened)
  /-- A comma behind an entry, or the closing brace. -/
  | afterMember (entries : List (List Token × Written)) (around : Opened)
  /-- The end of a line. -/
  | lineEnd
  /-- The end of a line, whatever comes before it. -/
  | passed

/-- What a step comes to: what is due next, and a line if one is complete. -/
structure Outcome where
  next : State
  said : Option WrittenLine := none

/-- Nothing is complete yet. -/
def goOn (next : State) : Except Problem Outcome :=
  .ok { next }

-- ── Values ──────────────────────────────────────────────────────────────────

/-- The number of lists and inline tables that may be open at once. -/
def nestingLimit : Nat := 80

/-- A value is complete. -/
def complete (value : Written) (around : Opened) : Outcome :=
  match around.frames with
  | [] => { next := .lineEnd, said := some (.entry around.names value) }
  | .list before :: frames => { next := .afterItem (value :: before) ⟨around.names, frames⟩ }
  | .inline before names :: frames =>
    { next := .afterMember ((names, value) :: before) ⟨around.names, frames⟩ }

/-- An inline table is complete. -/
def completeInline (entries : List (List Token × Written)) (around : Opened) : Outcome :=
  complete (.inline entries.reverse) around

/-- A list or an inline table opens, unless too many are open already. -/
def openNested (token : Token) (around : Opened) (next : State) : Except Problem Outcome :=
  if around.frames.length < nestingLimit then goOn next
  else .error (token.mark.problem .tooDeep)

/-- The first token of a value; a sign that opens none is refused. -/
def startValue (around : Opened) (token : Token) : Except Problem Outcome :=
  match token.kind with
  | .quoted _ => .ok (complete (.scalar token) around)
  | .openBracket => openNested token around (.item [] around)
  | .openBrace => openNested token around (.member [] around)
  | .closeBracket => .error (token.mark.problem (.missingOpening '['))
  | .closeBrace => .error (token.mark.problem (.missingOpening '{'))
  | .equals => .error (token.mark.problem .extraEquals)
  | _ => goOn (.moreWord token [] around)

/-- The value of a line. -/
def lineValue (around : Opened) (token : Token) : Except Problem Outcome :=
  match token.kind with
  | .spaces => goOn (.value around)
  | .lineEnd => .ok { complete (.scalar token.missing) around with next := .line }
  | .comment => .ok (complete (.scalar token.missing) around)
  | .comma => .error (token.mark.problem .trailingText)
  | _ => startValue around token

/-- The value of an entry of an inline table. -/
def memberValue (before : List (List Token × Written)) (names : List Token)
    (frames : List Frame) (around : Opened) (token : Token) : Except Problem Outcome :=
  if token.isGap then goOn (.value around)
  else
    match token.kind with
    | .comma => .error (token.mark.problem .extraInlineComma)
    | .closeBrace =>
      .ok (completeInline ((names, .scalar token.missing) :: before) ⟨around.names, frames⟩)
    | _ => startValue around token

/-- Ends a word that does not go on with a token. Dots and other words go on with it, also
    words behind blanks. -/
def State.settle (state : State) (token : Token) : Outcome :=
  match state with
  | .moreWord first more around =>
    match token.kind with
    | .dot | .word | .spaces => { next := state }
    | _ => complete (.scalar (first.word more)) around
  | .nextWord first more _ around =>
    if token.kind = .word then { next := state }
    else complete (.scalar (first.word more)) around
  | _ => { next := state }

-- ── Names ───────────────────────────────────────────────────────────────────

/-- The empty word. -/
def Token.isMissing (token : Token) : Bool :=
  token.text.isEmpty

/-- Some names lack one: the last is missing, or one between dots. The latest stands
    first. -/
def lackName : List Token → Bool
  | [] => false
  | last :: before => last.isMissing || before.dropLast.any Token.isMissing

/-- Passes over the rest of a line from a token on. -/
def passOver (line : WrittenLine) (token : Token) : Except Problem Outcome :=
  .ok { next := if token.kind = .lineEnd then .line else .passed, said := some line }

/-- What may stand behind the names of a header, of an entry, or of an entry of an inline
    table. Where something else does, the line is passed over if its names lack one. -/
def behindNames (purpose : Purpose) (names : List Token) (token : Token) :
    Except Problem Outcome :=
  match token.kind, purpose with
  | .spaces, _ => goOn (.named purpose names)
  | .dot, _ => goOn (.name purpose names)
  | .closeBracket, .header => .ok { next := .lineEnd, said := some (.header names.reverse) }
  | _, .header =>
    if lackName names then passOver (.header names.reverse) token
    else .error (token.before.problem .unclosedHeader)
  | .closeBracket, .listHeader => goOn (.closing names)
  | _, .listHeader =>
    if lackName names then passOver (.listHeader names.reverse) token
    else .error (token.before.problem .unclosedListHeader)
  | .equals, .entry => goOn (.value ⟨names.reverse, []⟩)
  | _, .entry =>
    if lackName names then passOver (.entry names.reverse (.scalar token.missing)) token
    else .error (token.before.problem .missingEquals)
  | .lineEnd, .inline before around | .comment, .inline before around =>
    goOn (.sign before names.reverse around)
  | .equals, .inline before around =>
    goOn (.value ⟨around.names, .inline before names.reverse :: around.frames⟩)
  | .closeBrace, .inline before around =>
    .ok (completeInline ((names.reverse, .scalar token.missing) :: before) around)
  | _, .inline _ _ => .error (token.before.problem .missingEquals)

/-- A name. -/
def someName (purpose : Purpose) (before : List Token) (token : Token) :
    Except Problem Outcome :=
  match token.kind with
  | .spaces => goOn (.name purpose before)
  | .quoted _ | .word => goOn (.named purpose (token :: before))
  | .dot => goOn (.name purpose (token.missing :: before))
  | _ => behindNames purpose (token.missing :: before) token

-- ── Steps ───────────────────────────────────────────────────────────────────

/-- A step with one token. -/
def State.step (state : State) (token : Token) : Except Problem Outcome :=
  match state with
  | .line =>
    match token.kind with
    | .spaces | .lineEnd | .comment => goOn .line
    | .openBracket => goOn .opening
    | .closeBracket => .error (token.mark.problem (.missingOpening '['))
    | .comma | .openBrace | .closeBrace => .error (token.mark.problem .missingKey)
    | _ => someName .entry [] token
  | .opening =>
    if token.kind = .openBracket then goOn (.name .listHeader [])
    else someName .header [] token
  | .name purpose before => someName purpose before token
  | .named purpose names => behindNames purpose names token
  | .closing names =>
    if token.kind = .closeBracket then
      .ok { next := .lineEnd, said := some (.listHeader names.reverse) }
    else .error (token.before.problem .unclosedListHeader)
  | .sign before names around =>
    if token.isGap then goOn state
    else
      match token.kind with
      | .equals => goOn (.value ⟨around.names, .inline before names :: around.frames⟩)
      | .closeBrace => .ok (completeInline ((names, .scalar token.missing) :: before) around)
      | _ => .error (token.before.problem .missingEquals)
  | .value around =>
    match around.frames with
    | .inline before names :: frames => memberValue before names frames around token
    | _ => lineValue around token
  | .moreWord first more around =>
    if token.kind = .spaces then goOn (.nextWord first more token around)
    else goOn (.moreWord first (token :: more) around)
  | .nextWord first more blanks around =>
    goOn (.moreWord first (token :: blanks :: more) around)
  | .item before around =>
    if token.isGap then goOn state
    else
      match token.kind with
      | .closeBracket => .ok (complete (.list before.reverse) around)
      | .comma => .error (token.mark.problem .extraComma)
      | _ => startValue ⟨around.names, .list before :: around.frames⟩ token
  | .afterItem items around =>
    if token.isGap then goOn state
    else
      match token.kind with
      | .comma => goOn (.item items around)
      | .closeBracket => .ok (complete (.list items.reverse) around)
      | _ => .error (token.before.problem .missingComma)
  | .member before around =>
    if token.isGap then goOn state
    else
      match token.kind with
      | .closeBrace => .ok (completeInline before around)
      | .comma => .error (token.mark.problem .extraInlineComma)
      | .closeBracket => .error (token.mark.problem (.missingOpening '['))
      | .openBracket | .openBrace => .error (token.mark.problem .missingKey)
      | _ => someName (.inline before around) [] token
  | .afterMember entries around =>
    if token.isGap then goOn state
    else
      match token.kind with
      | .comma => goOn (.member entries around)
      | .closeBrace => .ok (completeInline entries around)
      | _ => .error (token.before.problem .missingInlineComma)
  | .lineEnd =>
    match token.kind with
    | .spaces | .comment => goOn .lineEnd
    | .lineEnd => goOn .line
    | _ => .error (token.mark.problem .trailingText)
  | .passed => goOn (if token.kind = .lineEnd then .line else .passed)

/-- What is still open where a text ends, if anything is. -/
def State.unclosed? : State → Option Cause
  | .line => none
  | .item _ _ | .afterItem _ _ => some .unclosedArray
  | _ => some .unclosedInline

/-- The problem of a line end without a line feed, and of a comment with a control
    character. -/
def Token.flaw? (token : Token) : Option Problem :=
  match token.kind with
  | .lineEnd => if token.text = ['\r'] then some (token.mark.problem .loneReturn) else none
  | .comment =>
    match token.text.dropWhile (!isControl ·) with
    | [] => none
    | found =>
      some ((Mark.mk (token.left - token.text.length + found.length) 1).problem
        .controlCharacter)
  | _ => none

-- ── Texts ───────────────────────────────────────────────────────────────────

/-- The machine on its way: what is due, and the lines so far, the latest first. -/
structure Sketch where
  state : State := .line
  lines : List WrittenLine := []

/-- Takes an outcome in. -/
def Sketch.record (s : Sketch) (outcome : Outcome) : Sketch :=
  ⟨outcome.next, outcome.said.toList ++ s.lines⟩

/-- Takes a token in. -/
def Sketch.take (s : Sketch) (token : Token) : Except Problem Sketch :=
  let settled := s.record (s.state.settle token)
  match token.flaw? with
  | some problem => .error problem
  | none => (settled.state.step token).map settled.record

/-- The outline of a text. -/
def outline (text : List Char) : Except Problem (List WrittenLine) := do
  let sketch ← (tokens text ++ [Token.ending]).foldlM Sketch.take {}
  match sketch.state.unclosed? with
  | some cause => .error (Mark.atEnd.problem cause)
  | none => return sketch.lines.reverse

end Stencil.Toml
