/-!
# Sorting — stable, by insertion

Elements are inserted one after another, the last one first, each before the first
element that may follow it. So elements that may follow each other keep their order. The
result holds the same elements, and if the comparison is total and transitive every
element may be followed by all elements after it (`stable_sortStable`).
-/

namespace Stencil

variable {α : Type}

/-- Inserts an element before the first one that may follow it. -/
def insertBefore (le : α → α → Bool) (x : α) : List α → List α
  | [] => [x]
  | y :: ys => if le x y then x :: y :: ys else y :: insertBefore le x ys

/-- The elements in order, equal ones in their order before. -/
def sortStable (le : α → α → Bool) (xs : List α) : List α :=
  xs.foldr (insertBefore le) []

@[simp]
theorem sortStable_nil (le : α → α → Bool) : sortStable le [] = [] := rfl

@[simp]
theorem sortStable_cons (le : α → α → Bool) (x : α) (xs : List α) :
    sortStable le (x :: xs) = insertBefore le x (sortStable le xs) := rfl

theorem insertBefore_perm (le : α → α → Bool) (x : α) (xs : List α) :
    (insertBefore le x xs).Perm (x :: xs) := by
  fun_induction insertBefore le x xs with
  | case1 => rfl
  | case2 => rfl
  | case3 y ys h ih => exact (ih.cons y).trans (List.Perm.swap x y ys)

theorem sortStable_perm (le : α → α → Bool) (xs : List α) : (sortStable le xs).Perm xs := by
  induction xs with
  | nil => rfl
  | cons x xs ih => exact (insertBefore_perm le x _).trans (ih.cons x)

/-- Putting an element in front of those that are not before it keeps the list sorted and equal
    elements in their order. -/
theorem stable_insertBefore {le : α → α → Bool} (total : ∀ a b, le a b || le b a)
    (trans : ∀ a b c, le a b → le b c → le a c) {R : α → α → Prop} {x : α} {xs : List α}
    (hx : ∀ y ∈ xs, R x y) (h : xs.Pairwise fun a b => le a b ∧ (le b a → R a b)) :
    (insertBefore le x xs).Pairwise fun a b => le a b ∧ (le b a → R a b) := by
  induction xs with
  | nil => exact List.pairwise_singleton _ x
  | cons y ys ih =>
    obtain ⟨hy, hys⟩ := List.pairwise_cons.1 h
    by_cases hxy : le x y
    · rw [insertBefore, if_pos hxy]
      refine List.pairwise_cons.2 ⟨fun z hz => ⟨?_, fun _ => hx z hz⟩, h⟩
      rcases List.mem_cons.1 hz with rfl | hz
      · exact hxy
      · exact trans x y z hxy (hy z hz).1
    · rw [insertBefore, if_neg hxy]
      have hrest := ih (fun z hz => hx z (List.mem_cons_of_mem y hz)) hys
      refine List.pairwise_cons.2 ⟨fun z hz => ?_, hrest⟩
      rcases List.mem_cons.1 ((insertBefore_perm le x ys).mem_iff.1 hz) with rfl | hz
      · exact ⟨by simpa [hxy] using total z y, fun hzy => absurd hzy hxy⟩
      · exact hy z hz

/-- **Sorting is stable**: it puts every element before those that may follow it, and those that
    may follow each other stay in the order in which they were. -/
theorem stable_sortStable {le : α → α → Bool} (total : ∀ a b, le a b || le b a)
    (trans : ∀ a b c, le a b → le b c → le a c) {R : α → α → Prop} {xs : List α}
    (h : xs.Pairwise R) :
    (sortStable le xs).Pairwise fun a b => le a b ∧ (le b a → R a b) := by
  induction xs with
  | nil => exact List.Pairwise.nil
  | cons x xs ih =>
    obtain ⟨hx, hxs⟩ := List.pairwise_cons.1 h
    rw [sortStable_cons]
    refine stable_insertBefore total trans (fun y hy => ?_) (ih hxs)
    exact hx y ((sortStable_perm le xs).mem_iff.1 hy)

end Stencil
