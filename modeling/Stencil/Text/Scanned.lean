/-!
# Scanned text — what a scanner takes off the front of a text

A scanner gives what it read together with the rest of the text, which is shorter; so
whoever goes on with the rest comes to an end.
-/

namespace Stencil

/-- What a scanner took off the front of a text, and what it left. -/
structure Scanned (α : Type) (text : List Char) where
  value : α
  rest : List Char
  shorter : rest.length < text.length

namespace Scanned

variable {α β : Type} {text : List Char}

/-- The same find with its value changed. -/
def map (f : α → β) (found : Scanned α text) : Scanned β text :=
  ⟨f found.value, found.rest, found.shorter⟩

/-- The same find in a text with one more character in front. -/
def widen {c : Char} (found : Scanned α text) : Scanned α (c :: text) :=
  ⟨found.value, found.rest, by
    have := found.shorter
    simp only [List.length_cons]; omega⟩

end Scanned

theorem length_lt_cons (c : Char) (rest : List Char) : rest.length < (c :: rest).length :=
  Nat.lt_succ_self rest.length

theorem length_dropWhile_le {p : Char → Bool} (text : List Char) :
    (text.dropWhile p).length ≤ text.length :=
  (List.dropWhile_sublist p).length_le

end Stencil
