import Stencil.Document.Scalar

/-!
# Reader — JSON text to documents, one step at a time

The reader is a machine. Its state says what is due at this point of the text and
which containers are open around it; a step takes at least one character off the text.
The machine ends when the text does, with a document if nothing is open any more.

Blanks (space, tab, line feed, carriage return) may stand between any two steps. A name
that is given twice in an object keeps its first place and its last value. At most
`nestingLimit` containers may be open at once.
-/

namespace Stencil.Document

/-- The blanks between the parts of a document. -/
def isBlank (c : Char) : Bool :=
  c == ' ' || c == '\n' || c == '\t' || c == '\r'

/-- An open container: the items read so far, the latest first, or the members read so
    far with the name whose value is being read. -/
inductive Frame where
  | list (before : List Document)
  | object (before : Members) (name : String)

/-- The number of containers that may be open at once. -/
def nestingLimit : Nat := 127

/-- What is due. The frames are the containers around it, the innermost first. -/
inductive State where
  /-- A value. -/
  | value (frames : List Frame)
  /-- The first item of a list, or its closing bracket. -/
  | firstItem (frames : List Frame)
  /-- A further item, behind a comma. -/
  | nextItem (before : List Document) (frames : List Frame)
  /-- The first name of an object, or its closing bracket. -/
  | firstName (frames : List Frame)
  /-- A further name, behind a comma. -/
  | nextName (before : Members) (frames : List Frame)
  /-- The colon behind a name. -/
  | colon (before : Members) (name : String) (frames : List Frame)
  /-- What may follow a value that has just been read. -/
  | after (document : Document) (frames : List Frame)

/-- A state with a text that is shorter than a given one. -/
abbrev Next (text : List Char) := Scanned State text

/-- Reads the letters of a word behind its first one. -/
def word (frames : List Frame) (letters : List Char) (meant : Document) (c : Char)
    (rest : List Char) : Except Failure (Next (c :: rest)) :=
  match h : expectWord letters rest with
  | .error e => .error e
  | .ok behind =>
    .ok ⟨.after meant frames, behind, by
      have := expectWord_length h
      simp only [List.length_cons]; omega⟩

/-- Starts a value with its first character. -/
def start (frames : List Frame) (c : Char) (rest : List Char) :
    Except Failure (Next (c :: rest)) :=
  match c with
  | 'n' => word frames ['u', 'l', 'l'] .null _ rest
  | 't' => word frames ['r', 'u', 'e'] (.bool true) _ rest
  | 'f' => word frames ['a', 'l', 's', 'e'] (.bool false) _ rest
  | '"' =>
    match readQuoted [] rest with
    | .error e => .error e
    | .ok ⟨s, behind, shorter⟩ =>
      .ok ⟨.after (.string s) frames, behind, by simp only [List.length_cons]; omega⟩
  | '[' =>
    if frames.length < nestingLimit then .ok ⟨.firstItem frames, rest, length_lt_cons _ rest⟩
    else .error (.onFirst .tooDeep (c :: rest))
  | '{' =>
    if frames.length < nestingLimit then .ok ⟨.firstName frames, rest, length_lt_cons _ rest⟩
    else .error (.onFirst .tooDeep (c :: rest))
  | c =>
    if c = '-' ∨ Decimal.isDigit c = true then
      match h : readNumber (c :: rest) with
      | .error e => .error e
      | .ok out => .ok ⟨.after (.number out.1) frames, out.2, readNumber_length h⟩
    else .error (.onFirst .expectedValue (c :: rest))

/-- Reads the name of a member behind its opening quote. -/
def name (before : Members) (frames : List Frame) (text : List Char) :
    Except Failure (Next text) :=
  match readQuoted [] text with
  | .error e => .error e
  | .ok ⟨s, behind, shorter⟩ => .ok ⟨.colon before s frames, behind, shorter⟩

/-- One step on a character that is no blank. -/
def step (state : State) (c : Char) (rest : List Char) : Except Failure (Next (c :: rest)) :=
  match state with
  | .value frames => start frames c rest
  | .firstItem frames =>
    if c = ']' then .ok ⟨.after (.array []) frames, rest, length_lt_cons _ rest⟩
    else start (.list [] :: frames) c rest
  | .nextItem before frames =>
    if c = ']' then .error (.onFirst .trailingComma (c :: rest))
    else start (.list before :: frames) c rest
  | .firstName frames =>
    if c = '}' then .ok ⟨.after (.object []) frames, rest, length_lt_cons _ rest⟩
    else if c = '"' then (name [] frames rest).map (·.widen)
    else .error (.onFirst .nameNotString (c :: rest))
  | .nextName before frames =>
    if c = '}' then .error (.onFirst .trailingComma (c :: rest))
    else if c = '"' then (name before frames rest).map (·.widen)
    else .error (.onFirst .nameNotString (c :: rest))
  | .colon before key frames =>
    if c = ':' then .ok ⟨.value (.object before key :: frames), rest, length_lt_cons _ rest⟩
    else .error (.onFirst .expectedColon (c :: rest))
  | .after _ [] => .error (.onFirst .trailingText (c :: rest))
  | .after document (.list before :: frames) =>
    if c = ',' then .ok ⟨.nextItem (document :: before) frames, rest, length_lt_cons _ rest⟩
    else if c = ']' then
      .ok ⟨.after (.array (document :: before).reverse) frames, rest, length_lt_cons _ rest⟩
    else .error (.onFirst .expectedListEnd (c :: rest))
  | .after document (.object before key :: frames) =>
    if c = ',' then .ok ⟨.nextName (before.insert key document) frames, rest, length_lt_cons _ rest⟩
    else if c = '}' then
      .ok ⟨.after (.object (before.insert key document)) frames, rest, length_lt_cons _ rest⟩
    else .error (.onFirst .expectedObjectEnd (c :: rest))

/-- What the end of the text means. -/
def finish : State → Except Failure Document
  | .value _ => .error (.atEnd .endInValue)
  | .firstItem _ => .error (.atEnd .endInList)
  | .nextItem _ _ => .error (.atEnd .endInValue)
  | .firstName _ => .error (.atEnd .endInObject)
  | .nextName _ _ => .error (.atEnd .endInValue)
  | .colon _ _ _ => .error (.atEnd .endInObject)
  | .after document [] => .ok document
  | .after _ (.list _ :: _) => .error (.atEnd .endInList)
  | .after _ (.object _ _ :: _) => .error (.atEnd .endInObject)

/-- Runs the machine to the end of the text. -/
def run (state : State) (text : List Char) : Except Failure Document :=
  match text with
  | [] => finish state
  | c :: rest =>
    if isBlank c then run state rest
    else
      match step state c rest with
      | .error e => .error e
      | .ok ⟨next, behind, _⟩ => run next behind
termination_by text.length
decreasing_by
  · simp only [List.length_cons]; omega
  · assumption

/-- Reads a text that is one document and nothing else. -/
def read (text : String) : Except Diagnostic Document :=
  (run (.value []) text.toList).mapError (·.locate text.toList)

end Stencil.Document
