import Stencil.Proofs.Document.Members
import Stencil.Proofs.Repetitions

/-!
# Merging — objects put into one, the later ones over the earlier ones

A merge inserts one member after another, so several merges in a row insert the members of all
objects in a row (`foldl_merge`), and the names come out in the order of their first occurrence. A
value is looked up from the other end: the last object that has the name decides. That needs
objects in which no name is repeated, because a lookup takes the first member of a name and an
insertion the last one.
-/

namespace Stencil.Members

theorem merge_cons (earlier : Members) (name : String) (value : Document) (later : Members) :
    earlier.merge ((name, value) :: later) = (earlier.insert name value).merge later := rfl

/-- **Names after a merge**: those of the earlier object come first, then those that are new. -/
theorem names_merge {earlier : Members} (h : earlier.names.Nodup) (later : Members) :
    (earlier.merge later).names = (earlier.names ++ later.names).eraseDups := by
  induction later generalizing earlier with
  | nil =>
      rw [show names [] = [] from rfl, List.append_nil]
      exact (eraseDups_of_nodup h).symm
  | cons member later ih =>
      obtain ⟨name, value⟩ := member
      rw [merge_cons, ih (nodup_names_insert h name value), names_insert, names_cons]
      by_cases hmem : name ∈ earlier.names
      · rw [if_pos hmem, eraseDups_append_cons_of_mem hmem]
      · rw [if_neg hmem, List.append_assoc, List.singleton_append]

/-- **Values after a merge**: the later object decides about the names that it has. -/
theorem get?_merge {later : Members} (h : later.names.Nodup) (earlier : Members)
    (name : String) :
    (earlier.merge later).get? name = (later.get? name).or (earlier.get? name) := by
  induction later generalizing earlier with
  | nil => rfl
  | cons member later ih =>
      obtain ⟨key, value⟩ := member
      rw [names_cons, List.nodup_cons] at h
      rw [merge_cons, ih h.2, get?_cons]
      by_cases hkey : name = key
      · subst hkey
        rw [if_pos rfl, get?_eq_none_iff.mpr h.1, get?_insert_self]
        rfl
      · rw [if_neg hkey, get?_insert_of_ne hkey]

-- ── Several merges ──────────────────────────────────────────────────────────

/-- Merging several objects is merging all their members in a row. -/
theorem foldl_merge (sources : List Members) (earlier : Members) :
    sources.foldl merge earlier = earlier.merge sources.flatten := by
  induction sources generalizing earlier with
  | nil => rfl
  | cons source sources ih =>
      rw [List.foldl_cons, ih, List.flatten_cons]
      exact (List.foldl_append ..).symm

/-- **Names after several merges**: each once, in the order of their first occurrence across the
    objects. -/
theorem names_foldl_merge (sources : List Members) :
    (sources.foldl merge []).names = (sources.flatMap names).eraseDups := by
  have hnone : (names []).Nodup := List.nodup_nil
  have hflatten : names sources.flatten = sources.flatMap names := by
    rw [names, List.map_flatten]
    rfl
  rw [foldl_merge, names_merge hnone, hflatten]
  rfl

/-- **Values after several merges**: the last object that has a name decides about it. -/
theorem get?_foldl_merge {sources : List Members} (h : ∀ source ∈ sources, source.names.Nodup)
    (earlier : Members) (name : String) :
    (sources.foldl merge earlier).get? name
      = (sources.reverse.findSome? fun source => source.get? name).or (earlier.get? name) := by
  induction sources generalizing earlier with
  | nil => rfl
  | cons source sources ih =>
      rw [List.forall_mem_cons] at h
      rw [List.foldl_cons, ih h.2, get?_merge h.1, List.reverse_cons, List.findSome?_append,
        List.findSome?_singleton, Option.or_assoc]

end Stencil.Members
