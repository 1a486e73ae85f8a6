import Stencil.Proofs.Repetitions
import Stencil.Proofs.Resource.Steps

/-!
# Naming — the names of a list and the names of what it becomes

Whatever the rules say about duplicates, a list that can be unified becomes an object with
the distinct names of its entries, in the order in which they first occur: an insertion under
a known name keeps the place of that name. The invariant of the run (`names_unifyFrom`) speaks
of the names collected so far followed by those still to come.
-/

namespace Stencil

/-- The name of an entry of a list: only an object can have one. -/
def entryName? : Document → Option String
  | .object fields => resourceName? fields
  | _ => none

/-- The names of the entries of a list, in order and with repetitions. -/
def resourceNames (resources : List Document) : List String :=
  resources.filterMap entryName?

theorem resourceNames_cons {fields : Members} {name : String} {following : List Document}
    (h : fields.get? nameField = some (.string name)) :
    resourceNames (.object fields :: following) = name :: resourceNames following :=
  List.filterMap_cons_some (resourceName?_eq_some_iff.mpr h)

-- ── The run ─────────────────────────────────────────────────────────────────

variable {rules : Rules} {mappings : Mappings}

/-- **Names along a run**: those collected so far come first, then those of the entries to
    come that are new. -/
theorem names_unifyFrom {resources : List Document} {index : Nat} {before unified : Members}
    (hbefore : before.names.Nodup)
    (h : (unifyFrom rules mappings index before resources).result = .ok unified) :
    unified.names = (before.names ++ resourceNames resources).eraseDups := by
  induction resources generalizing index before with
  | nil =>
      obtain rfl := unifyFrom_nil_ok_iff.mp h
      rw [show resourceNames [] = [] from rfl, List.append_nil]
      exact (eraseDups_of_nodup hbefore).symm
  | cons entry following ih =>
      obtain ⟨fields, name, normalized, rfl, hname, -, -, hrest⟩ := unifyFrom_cons_ok_iff.mp h
      have hnames := ih (Members.nodup_names_insert hbefore name (.object normalized)) hrest
      rw [hnames, Members.names_insert, resourceNames_cons hname]
      by_cases hmem : name ∈ before.names
      · rw [if_pos hmem, eraseDups_append_cons_of_mem hmem]
      · rw [if_neg hmem, List.append_assoc, List.singleton_append]

/-- **Names of a unified list**: the distinct names of its entries, in the order of their
    first occurrence, under every policy for duplicates. -/
theorem names_unify {resources : List Document} {unified : Members}
    (h : (unify rules mappings resources).result = .ok unified) :
    unified.names = (resourceNames resources).eraseDups := by
  have hnone : (Members.names []).Nodup := List.nodup_nil
  exact names_unifyFrom hnone (unify_ok_iff.mp h)

end Stencil
