import Stencil.Toml.Problem

/-!
# Tables — values under dotted keys and headers

A table remembers how it came about, because that decides what may still be added to it.
A table that a header only passes through may be given a header of its own later; one
that dotted keys made may be extended by dotted keys alone; an inline table is complete.
A list of tables is extended in its last table.
-/

namespace Stencil.Toml

/-- How a table came about. -/
inductive TableKind where
  /-- A header passed through it. -/
  | implied
  /-- Dotted keys passed through it. -/
  | dotted
  /-- It has a header. -/
  | defined
  /-- It is a value. -/
  | inline
deriving Repr, DecidableEq

/-- The values of TOML. A whole number keeps its mark, because how large it may be is up
    to whoever uses it. What is written like a number but stands for none is a misfit; it
    is refused only when it is used. -/
inductive Value where
  | string (value : String)
  | integer (value : Int) (mark : Mark)
  | misfit (cause : Cause) (mark : Mark)
  | float (value : Float)
  | boolean (value : Bool)
  | moment (text : String)
  | array (items : List Value)
  | table (kind : TableKind) (entries : List (String × Value))
  | tables (elements : List (List (String × Value)))

/-- The entries of a table, in the order of their definition. -/
abbrev Entries := List (String × Value)

/-- What a value is called when it cannot be extended. -/
def Value.typeName : Value → String
  | .string _ => "string"
  | .integer _ _ => "integer"
  | .misfit .overflow _ => "float"
  | .misfit _ _ => "integer"
  | .float _ => "float"
  | .boolean _ => "boolean"
  | .moment _ => "datetime"
  | .array _ => "array"
  | .table .inline _ => "inline table"
  | .table _ _ => "table"
  | .tables _ => "array of tables"

namespace Entries

/-- Changes the value under a key, or adds one; `f` is given the value there is. -/
def alter {ε : Type} (f : Option Value → Except ε Value) (key : String) :
    Entries → Except ε Entries
  | [] => (f none).map fun value => [(key, value)]
  | (k, old) :: entries =>
    if k = key then (f (some old)).map fun value => (k, value) :: entries
    else (alter f key entries).map fun altered => (k, old) :: altered

/-- Puts a new value under a key that must be free. -/
def add (key : String) (value : Value) : Entries → Except Cause Entries :=
  alter (fun
    | none => .ok value
    | some _ => .error .duplicateKey) key

/-- Puts a new value under a dotted key: the names before the last one lead through
    tables that dotted keys made, or make such tables. -/
def addDotted (key : String) (value : Value) : List String → Entries → Except Cause Entries
  | [], entries => entries.add key value
  | name :: path, entries =>
    entries.alter (fun
      | none => (addDotted key value path []).map (.table .dotted)
      | some (.table .dotted inner) => (addDotted key value path inner).map (.table .dotted)
      | some (.table .implied inner) =>
        if path.isEmpty then .error .duplicateKey
        else (addDotted key value path inner).map (.table .implied)
      | some (.tables elements) =>
        if path.isEmpty then .error .duplicateKey
        else (addDotted key value path (elements.getLastD [])).map fun last =>
          .tables (elements.dropLast ++ [last])
      | some (.table .defined _) => .error .duplicateKey
      | some other => .error (.notExtendable other.typeName)) name

/-- Changes the entries that a header leads to. -/
def descend (f : Entries → Except Cause Entries) : List String → Entries → Except Cause Entries
  | [], entries => f entries
  | name :: path, entries =>
    entries.alter (fun
      | none => (descend f path []).map (.table .implied)
      | some (.table .inline inner) =>
        .error (.notExtendable (Value.table .inline inner).typeName)
      | some (.table kind inner) => (descend f path inner).map (.table kind)
      | some (.tables elements) =>
        (descend f path (elements.getLastD [])).map fun last =>
          .tables (elements.dropLast ++ [last])
      | some other => .error (.notExtendable other.typeName)) name

/-- Gives a table its header. -/
def define (path : List String) (key : String) (entries : Entries) : Except Cause Entries :=
  entries.descend (alter (fun
    | none => .ok (.table .defined [])
    | some (.table .implied inner) => .ok (.table .defined inner)
    | some _ => .error .duplicateKey) key) path

/-- Adds a table to a list of tables. -/
def append (path : List String) (key : String) (entries element : Entries) :
    Except Cause Entries :=
  entries.descend (alter (fun
    | none => .ok (.tables [element])
    | some (.tables elements) => .ok (.tables (elements ++ [element]))
    | some _ => .error .duplicateKey) key) path

end Entries

end Stencil.Toml
