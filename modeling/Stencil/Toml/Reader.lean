import Stencil.Toml.Outline
import Stencil.Toml.Scalar
import Stencil.Toml.Section

/-!
# TOML reader — settings texts as tables

A text is read in two passes. Its outline comes first; only a text with an outline has its
names and values read, line by line, and its tables filled.
-/

namespace Stencil.Toml

mutual

/-- Reads a value. -/
def Written.read : Written → Except Problem Value
  | .scalar token => token.value
  | .list items => (readItems items).map Value.array
  | .inline entries => (readEntries [] entries).map (Value.table .inline)

/-- Reads the items of a list. -/
def readItems : List Written → Except Problem (List Value)
  | [] => .ok []
  | item :: items => do
    let first ← item.read
    let others ← readItems items
    return first :: others

/-- Reads the entries of an inline table behind those before them. -/
def readEntries (before : Entries) : List (List Token × Written) → Except Problem Entries
  | [] => .ok before
  | (names, written) :: entries => do
    let key ← readKey names
    let value ← written.read
    let extended ← (before.addDotted key.last value key.path).mapError key.mark.problem
    readEntries extended entries

end

/-- Reads a line. The section before a header ends before the header is looked at. -/
def Progress.read (p : Progress) : WrittenLine → Except Problem Progress
  | .header names => do
    let ended ← p.endSection
    ended.beginTable (← readKey names)
  | .listHeader names => do
    let ended ← p.endSection
    return ended.beginElement (← readKey names)
  | .entry names written => do
    let key ← readKey names
    p.enter key (← written.read)

/-- Reads a settings text, which may begin with a byte order mark. -/
def read (text : String) : Except Problem Entries := do
  let characters := match text.toList with
    | '\ufeff' :: rest => rest
    | characters => characters
  let lines ← outline characters
  let final ← lines.foldlM Progress.read {}
  return (← final.endSection).root

end Stencil.Toml
