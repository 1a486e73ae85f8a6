import Stencil.Toml.Key
import Stencil.Toml.Table

/-!
# Sections — tables that are filled line by line

A header begins a section, and the entries behind it belong to its table. A table with a
header is in its place as soon as the header is read. A table of a list is filled first
and joins its list when its section ends, so whatever is wrong with its place is found
only then.
-/

namespace Stencil.Toml

/-- Where entries go: into the table at the end of a path, or into a new table of a list. -/
inductive Target where
  | table (path : List String)
  | element (list : Key) (entries : Entries)

/-- What has been read: the whole table, and where entries go. -/
structure Progress where
  root : Entries := []
  target : Target := .table []

namespace Progress

/-- Ends the section. -/
def endSection (p : Progress) : Except Problem Progress :=
  match p.target with
  | .table _ => .ok p
  | .element list entries =>
    ((p.root.append list.path list.last entries).mapError list.mark.problem).map
      fun root => { root }

/-- Begins the section of a table. -/
def beginTable (p : Progress) (key : Key) : Except Problem Progress :=
  ((p.root.define key.path key.last).mapError key.mark.problem).map
    fun root => ⟨root, .table key.names⟩

/-- Begins the section of a new table of a list. -/
def beginElement (p : Progress) (key : Key) : Progress :=
  { p with target := .element key [] }

/-- Adds an entry to the section. -/
def enter (p : Progress) (key : Key) (value : Value) : Except Problem Progress :=
  match p.target with
  | .table path =>
    ((p.root.descend (Entries.addDotted key.last value key.path) path).mapError
      key.mark.problem).map fun root => ⟨root, .table path⟩
  | .element list entries =>
    ((entries.addDotted key.last value key.path).mapError key.mark.problem).map
      fun entries => ⟨p.root, .element list entries⟩

end Progress

end Stencil.Toml
