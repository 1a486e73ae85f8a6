import Mathlib.Order.Lattice
import Stencil.Sorting

/-!
# Sorting by a key

Elements are mostly sorted by a key of theirs, and keys are totally ordered. Sorting by a key and
keeping the order of what has the same key makes one order of the two: the smaller key comes first,
and of two equal ones the element that stood in front (`stable_byKey`). Where elements are told
apart by their places, those of a list without repetitions already stand in their order.
-/

namespace Stencil

/-- **Sorted by a key**: the smaller key comes first, and what has the same key keeps its order. -/
theorem stable_byKey {α β : Type} [LinearOrder β] {le : α → α → Bool} (key : α → β)
    (hle : ∀ a b, le a b = true ↔ key a ≤ key b) {R : α → α → Prop} {xs : List α}
    (h : xs.Pairwise R) :
    (sortStable le xs).Pairwise fun a b => key a < key b ∨ key a = key b ∧ R a b := by
  have htotal : ∀ a b, le a b || le b a := by
    intro a b
    rw [Bool.or_eq_true, hle, hle]
    exact le_total (key a) (key b)
  have htrans : ∀ a b c, le a b → le b c → le a c := by
    intro a b c hab hbc
    rw [hle] at hab hbc ⊢
    exact le_trans hab hbc
  refine (stable_sortStable htotal htrans h).imp ?_
  intro a b hab
  obtain ⟨hfirst, hkept⟩ := hab
  by_cases hback : le b a
  · exact .inr ⟨le_antisymm ((hle a b).mp hfirst) ((hle b a).mp hback), hkept hback⟩
  · exact .inl (lt_of_not_ge fun hba => hback ((hle b a).mpr hba))

/-- Names that are not repeated stand in the order of their places. -/
theorem pairwise_idxOf {names : List String} (h : names.Nodup) :
    names.Pairwise fun name other => names.idxOf name < names.idxOf other := by
  rw [List.pairwise_iff_getElem]
  intro i j hi hj hij
  rw [h.idxOf_getElem, h.idxOf_getElem]
  exact hij

end Stencil
