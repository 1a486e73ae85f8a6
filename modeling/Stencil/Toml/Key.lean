import Stencil.Toml.Quoted

/-!
# Keys — dotted names and their limit

A name is bare or quoted on a single line. Names with dots between them make a key, which
leads through tables to the entry of its last name.
-/

namespace Stencil.Toml

/-- A character of an unquoted name. -/
def isBareKey (c : Char) : Bool :=
  ('A' ≤ c && c ≤ 'Z') || ('a' ≤ c && c ≤ 'z') || ('0' ≤ c && c ≤ '9') || c == '_' || c == '-'

/-- The name that a token stands for. -/
def Token.name (token : Token) : Except Problem String :=
  match token.kind with
  | .quoted form =>
    if form.multiline then .error (token.mark.problem .invalidKey) else token.string form
  | _ =>
    if token.text.isEmpty then .error (token.before.problem .emptyKey)
    else if token.text.all isBareKey then .ok (String.ofList token.text)
    else .error (token.mark.problem .invalidKey)

/-- A key: the names before the last one, and the last one with its mark. -/
structure Key where
  path : List String
  last : String
  mark : Mark

/-- All names of a key. -/
def Key.names (key : Key) : List String :=
  key.path ++ [key.last]

/-- The greatest number of names in a key. -/
def nameLimit : Nat := 80

/-- Reads the names of a key. -/
def readNames : List Token → Except Problem Key
  | [] => .error ⟨.emptyKey, none⟩
  | [token] => token.name.map fun name => ⟨[], name, token.mark⟩
  | token :: tokens => do
    let first ← token.name
    let key ← readNames tokens
    return { key with path := first :: key.path }

/-- Reads a key. Its names are looked at before their number is. -/
def readKey (names : List Token) : Except Problem Key := do
  let key ← readNames names
  if nameLimit < names.length then .error ⟨.tooManyNames, none⟩ else .ok key

end Stencil.Toml
