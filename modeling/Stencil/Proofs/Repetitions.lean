import Mathlib.Data.List.Induction
import Mathlib.Data.List.Nodup

/-!
# Repetitions — the names of a list, each once

Names and keywords are listed once each, in the order of their first occurrence. Such a list is
best looked at from its end: one more name is new and comes last, or is known and changes nothing
(`eraseDups_concat`). The other laws follow by induction from there.
-/

namespace Stencil

/-- **One more name** at the end is taken if it is new. -/
theorem eraseDups_concat (names : List String) (name : String) :
    (names ++ [name]).eraseDups
      = if name ∈ names then names.eraseDups else names.eraseDups ++ [name] := by
  rw [List.eraseDups_append]
  by_cases h : name ∈ names
  · rw [if_pos h]
    simp [List.removeAll, h]
  · rw [if_neg h, List.cons_removeAll, if_pos (by simpa using h), List.nil_removeAll,
      List.eraseDups_cons]
    rfl

theorem nodup_eraseDups (names : List String) : names.eraseDups.Nodup := by
  induction names using List.reverseRecOn with
  | nil => exact List.nodup_nil
  | append_singleton names name ih =>
      rw [eraseDups_concat]
      by_cases h : name ∈ names
      · rw [if_pos h]
        exact ih
      · rw [if_neg h, ← List.concat_eq_append, List.nodup_concat]
        exact ⟨fun hmem => h (List.mem_eraseDups.mp hmem), ih⟩

theorem length_eraseDups_le (names : List String) : names.eraseDups.length ≤ names.length := by
  induction names using List.reverseRecOn with
  | nil => exact Nat.le_refl 0
  | append_singleton names name ih =>
      rw [eraseDups_concat, List.length_append, List.length_singleton]
      by_cases h : name ∈ names
      · rw [if_pos h]
        omega
      · rw [if_neg h, List.length_append, List.length_singleton]
        omega

/-- Where nothing is repeated, removing repetitions changes nothing. -/
theorem eraseDups_of_nodup {names : List String} (h : names.Nodup) :
    names.eraseDups = names := by
  induction names using List.reverseRecOn with
  | nil => rfl
  | append_singleton names name ih =>
      rw [← List.concat_eq_append, List.nodup_concat] at h
      rw [eraseDups_concat, if_neg h.1, ih h.2]

/-- Names in another order are the same ones without repetitions. -/
theorem perm_eraseDups {names others : List String} (h : names.Perm others) :
    names.eraseDups.Perm others.eraseDups := by
  refine (List.perm_ext_iff_of_nodup (nodup_eraseDups names) (nodup_eraseDups others)).mpr ?_
  intro name
  rw [List.mem_eraseDups, List.mem_eraseDups, h.mem_iff]

/-- A repetition of an earlier name can be left out before all others are. -/
theorem eraseDups_append_cons_of_mem {before following : List String} {name : String}
    (h : name ∈ before) :
    (before ++ name :: following).eraseDups = (before ++ following).eraseDups := by
  have hknown : before.contains name = true := List.contains_iff_mem.mpr h
  rw [List.eraseDups_append, List.eraseDups_append, List.cons_removeAll, hknown, if_neg (by simp)]

/-- Lists that agree without repetitions agree so with whatever follows them. -/
theorem eraseDups_append_congr {before others : List String}
    (h : before.eraseDups = others.eraseDups) (following : List String) :
    (before ++ following).eraseDups = (others ++ following).eraseDups := by
  have hknown : ∀ name, before.contains name = others.contains name := by
    intro name
    rw [Bool.eq_iff_iff, List.contains_iff_mem, List.contains_iff_mem, ← List.mem_eraseDups, h,
      List.mem_eraseDups]
  have hremoved : following.removeAll before = following.removeAll others :=
    List.filter_congr fun name _ => congrArg not (hknown name)
  rw [List.eraseDups_append, List.eraseDups_append, h, hremoved]

/-- Removing repetitions and leaving names out can be done in either order. -/
theorem filter_eraseDups (p : String → Bool) (names : List String) :
    names.eraseDups.filter p = (names.filter p).eraseDups := by
  induction names using List.reverseRecOn with
  | nil => rfl
  | append_singleton names name ih =>
      rw [eraseDups_concat, List.filter_append]
      by_cases hp : p name = true
      · have hmem : name ∈ names.filter p ↔ name ∈ names := by
          rw [List.mem_filter, and_iff_left hp]
        rw [List.filter_cons_of_pos hp, List.filter_nil, eraseDups_concat]
        by_cases h : name ∈ names
        · rw [if_pos h, if_pos (hmem.mpr h), ih]
        · rw [if_neg h, if_neg fun hfilter => h (hmem.mp hfilter), List.filter_append, ih,
            List.filter_cons_of_pos hp, List.filter_nil]
      · rw [List.filter_cons_of_neg hp, List.filter_nil, List.append_nil, ← ih]
        by_cases h : name ∈ names
        · rw [if_pos h]
        · rw [if_neg h, List.filter_append, List.filter_cons_of_neg hp, List.filter_nil,
            List.append_nil]

end Stencil
