/-!
# Edit distance — insertions, deletions and replacements between two words

The table of distances between all beginnings of two words is filled row by row; a row
holds the distances of one beginning of the first word to every beginning of the second.
-/

namespace Stencil.Text

/-- The cells of the next row to the right of `left`, for the character `c` of the first
    word. `diagonal` is the cell above `left`; the list holds the cells right of it. -/
def editCells (c : Char) (left diagonal : Nat) : List Char → List Nat → List Nat
  | d :: word, above :: row =>
    let cell := min (min (left + 1) (above + 1)) (diagonal + if c = d then 0 else 1)
    cell :: editCells c cell above word row
  | _, _ => []

/-- The row below a given one. -/
def editRow (word : List Char) (row : List Nat) (c : Char) : List Nat :=
  match row with
  | [] => []
  | first :: row => (first + 1) :: editCells c (first + 1) first word row

/-- The least number of characters to insert, delete or replace to get from one word to
    another. -/
def editDistance (first second : List Char) : Nat :=
  let top := List.range (second.length + 1)
  (first.foldl (editRow second) top).getLastD 0

end Stencil.Text
