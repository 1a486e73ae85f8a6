import Stencil.Placeholder.Resolution
import Stencil.Sorting
import Stencil.Text.EditDistance

/-!
# Suggestions — mapped keywords close to an unknown one

At most three keywords are suggested, the closest first and equally close ones in the
order of their definition. A keyword is close if its edit distance is at most half the
number of bytes of the unknown one, and at least one edit is always allowed.
-/

namespace Stencil.Placeholder

/-- The greatest edit distance at which a keyword is still suggested. -/
def suggestionLimit (unknown : String) : Nat :=
  max 1 (unknown.utf8ByteSize * 50 / 100)

/-- How far a keyword is from another one. -/
def distance (unknown keyword : String) : Nat :=
  Text.editDistance unknown.toList keyword.toList

/-- The mapped keywords by their distance from an unknown one; equally distant ones
    keep their order. -/
def byDistance (unknown : String) (mappings : Mappings) : List (String × Nat) :=
  sortStable (fun a b => a.2 ≤ b.2)
    (mappings.names.map fun keyword => (keyword, distance unknown keyword))

/-- The keywords to suggest for an unknown one. -/
def suggestions (unknown : String) (mappings : Mappings) : List String :=
  (((byDistance unknown mappings).filter fun candidate =>
    candidate.2 ≤ suggestionLimit unknown).take 3).map Prod.fst

end Stencil.Placeholder
