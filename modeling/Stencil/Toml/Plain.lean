import Stencil.Toml.Reader
import Stencil.Sorting

/-!
# Plain tables — settings texts whose whole numbers fit a word

Where any table will do, all that is asked of it is that its whole numbers fit a signed
word of sixty-four bits. Tables are gone through in the order of their keys.
-/

namespace Stencil.Toml

/-- What is wrong with a whole number that does not fit a signed word. -/
def widthCause? (value : Int) : Option Cause :=
  if -0x8000000000000000 ≤ value ∧ value < 0x8000000000000000 then none
  else if 0 ≤ value ∧ value < 0x10000000000000000 then some .unsignedTooLarge
  else if -0x80000000000000000000000000000000 ≤ value ∧
      value < 0x100000000000000000000000000000000 then some (.wrongWidth value)
  else some .integerOverflow

/-- The first of some problems in the order of the keys they stand under. -/
def firstByKey (problems : List (String × Problem)) : Option Problem :=
  (sortStable (fun a b => a.1 ≤ b.1) problems).head?.map Prod.snd

mutual

/-- The first number of a value that does not fit. -/
def Value.misfit? : Value → Option Problem
  | .integer value mark => (widthCause? value).map mark.problem
  | .misfit cause mark => some (mark.problem cause)
  | .array items => misfitItem? items
  | .table _ entries => firstByKey (misfitEntries entries)
  | .tables elements => misfitTable? elements
  | _ => none

/-- The same for the items of a list. -/
def misfitItem? : List Value → Option Problem
  | [] => none
  | item :: items => item.misfit?.or (misfitItem? items)

/-- The same for each of the entries of a table, under its key. -/
def misfitEntries : List (String × Value) → List (String × Problem)
  | [] => []
  | (key, value) :: entries =>
    (value.misfit?.map fun problem => (key, problem)).toList ++ misfitEntries entries

/-- The same for the tables of a list. -/
def misfitTable? : List (List (String × Value)) → Option Problem
  | [] => none
  | entries :: elements => (firstByKey (misfitEntries entries)).or (misfitTable? elements)

end

/-- Reads a text as a plain table. -/
def readPlain (text : String) : Except Problem Entries := do
  let entries ← read text
  match firstByKey (misfitEntries entries) with
  | some problem => .error problem
  | none => return entries

end Stencil.Toml
