import Stencil.Proofs.Document.Members
import Stencil.Exclusions

/-!
# Exclusions — what is left of a document

Where nothing is excluded, leaving out changes nothing, so the shortcut for that case agrees
with the walk (`reduce_eq_strip`) and every other fact need only be shown of the walk.
-/

namespace Stencil.Exclusions

mutual

/-- Without excluded names a document stays as it is. -/
theorem strip_of_none {x : Exclusions} (h : x.toList = []) :
    ∀ document, strip x document = document
  | .null => rfl
  | .bool _ => rfl
  | .number _ => rfl
  | .string _ => rfl
  | .array items => by
      rw [strip, stripItems_of_none h items]
  | .object members => by
      rw [strip, stripMembers_of_none h members]

theorem stripItems_of_none {x : Exclusions} (h : x.toList = []) :
    ∀ items, stripItems x items = items
  | [] => rfl
  | item :: items => by
      rw [stripItems, strip_of_none h item, stripItems_of_none h items]

theorem stripMembers_of_none {x : Exclusions} (h : x.toList = []) :
    ∀ members, stripMembers x members = members
  | [] => rfl
  | (name, value) :: members => by
      have hkept : x.excludes name = false := by
        rw [excludes, h]
        rfl
      rw [stripMembers, hkept, if_neg Bool.false_ne_true, strip_of_none h value,
        stripMembers_of_none h members]

end

/-- **The shortcut agrees**: reducing is walking, also where nothing is excluded. -/
theorem reduce_eq_strip (x : Exclusions) (document : Document) :
    x.reduce document = strip x document := by
  unfold reduce
  by_cases h : x.toList.isEmpty = true
  · rw [if_pos h, strip_of_none (List.isEmpty_iff.mp h)]
  · rw [if_neg h]

/-- The excluded names are those that are listed. -/
theorem excludes_iff {x : Exclusions} {name : String} :
    x.excludes name = true ↔ name ∈ x.toList := by
  simp [excludes]

/-- The names that are left are those that are not excluded, in their order. -/
theorem names_stripMembers (x : Exclusions) (members : Members) :
    Members.names (stripMembers x members)
      = members.names.filter fun name => !x.excludes name := by
  induction members with
  | nil => rfl
  | cons member members ih =>
      obtain ⟨name, value⟩ := member
      rw [stripMembers, Members.names_cons]
      cases hname : x.excludes name with
      | true =>
          rw [if_pos rfl, ih, List.filter_cons_of_neg (by simp [hname])]
      | false =>
          rw [if_neg Bool.false_ne_true, Members.names_cons, ih,
            List.filter_cons_of_pos (by simp [hname])]

/-- **Names of what is left**: those that are not excluded, in their order. -/
theorem exists_reduce_object (x : Exclusions) (members : Members) :
    ∃ kept : Members, x.reduce (.object members) = .object kept ∧
      kept.names = members.names.filter fun name => !x.excludes name := by
  refine ⟨stripMembers x members, ?_, names_stripMembers x members⟩
  rw [reduce_eq_strip, strip]

-- ── Steps of the walk ───────────────────────────────────────────────────────

theorem stripMembers_cons_of_excluded {x : Exclusions} {name : String} (h : x.excludes name = true)
    (value : Document) (members : Members) :
    stripMembers x ((name, value) :: members) = stripMembers x members := by
  rw [stripMembers, if_pos h]

/-- A member with another name is kept, and its value stripped. -/
theorem stripMembers_cons_of_kept {x : Exclusions} {name : String} (h : x.excludes name = false)
    (value : Document) (members : Members) :
    stripMembers x ((name, value) :: members)
      = (name, strip x value) :: stripMembers x members := by
  rw [stripMembers, h, if_neg Bool.false_ne_true]

/-- The walk keeps the kind of a document. -/
theorem kind_strip (x : Exclusions) (document : Document) :
    (strip x document).kind = document.kind := by
  cases document <;> rfl

mutual

/-- **Leaving out twice**: what one walk and then another leave out, a single walk that leaves
    out the names of both does. -/
theorem strip_strip {x y z : Exclusions}
    (h : ∀ name, z.excludes name = (x.excludes name || y.excludes name)) :
    ∀ document, strip x (strip y document) = strip z document
  | .null => rfl
  | .bool _ => rfl
  | .number _ => rfl
  | .string _ => rfl
  | .array items => by
      rw [strip, strip, strip, stripItems_stripItems h items]
  | .object members => by
      rw [strip, strip, strip, stripMembers_stripMembers h members]

theorem stripItems_stripItems {x y z : Exclusions}
    (h : ∀ name, z.excludes name = (x.excludes name || y.excludes name)) :
    ∀ items, stripItems x (stripItems y items) = stripItems z items
  | [] => rfl
  | item :: items => by
      rw [stripItems, stripItems, stripItems, strip_strip h item, stripItems_stripItems h items]

theorem stripMembers_stripMembers {x y z : Exclusions}
    (h : ∀ name, z.excludes name = (x.excludes name || y.excludes name)) :
    ∀ members, stripMembers x (stripMembers y members) = stripMembers z members
  | [] => rfl
  | (name, value) :: members => by
      have hmembers := stripMembers_stripMembers h members
      cases hy : y.excludes name with
      | true =>
          have hz : z.excludes name = true := by rw [h, hy, Bool.or_true]
          rw [stripMembers_cons_of_excluded hy, stripMembers_cons_of_excluded hz, hmembers]
      | false =>
          rw [stripMembers_cons_of_kept hy]
          cases hx : x.excludes name with
          | true =>
              have hz : z.excludes name = true := by rw [h, hx, Bool.true_or]
              rw [stripMembers_cons_of_excluded hx, stripMembers_cons_of_excluded hz, hmembers]
          | false =>
              have hz : z.excludes name = false := by rw [h, hx, hy, Bool.or_false]
              rw [stripMembers_cons_of_kept hx, stripMembers_cons_of_kept hz, hmembers,
                strip_strip h value]

end

/-- The walk depends on nothing but which names are excluded. -/
theorem strip_congr {x y : Exclusions} (h : ∀ name, x.excludes name = y.excludes name)
    (document : Document) : strip x document = strip y document := by
  have hunion : ∀ name, y.excludes name = (x.excludes name || excludes .nothing name) := by
    intro name
    rw [← h]
    exact (Bool.or_false _).symm
  have hnone : strip .nothing document = document := strip_of_none rfl document
  rw [← strip_strip hunion, hnone]

theorem excludes_congr {x y : Exclusions} (h : ∀ name, name ∈ x.toList ↔ name ∈ y.toList)
    (name : String) : x.excludes name = y.excludes name := by
  rw [Bool.eq_iff_iff, excludes_iff, excludes_iff]
  exact h name

/-- **A reduction** depends on nothing but which names are excluded. -/
theorem reduce_congr {x y : Exclusions} (h : ∀ name, name ∈ x.toList ↔ name ∈ y.toList)
    (document : Document) : x.reduce document = y.reduce document := by
  rw [reduce_eq_strip, reduce_eq_strip]
  exact strip_congr (excludes_congr h) document

/-- Leaving the same names out again changes nothing. -/
theorem strip_idem (x : Exclusions) (document : Document) :
    strip x (strip x document) = strip x document :=
  strip_strip (fun name => (Bool.or_self (x.excludes name)).symm) document

/-- **The walk follows an insertion**: what is put under a name that is kept is walked there, and
    what is put under an excluded name is not seen. -/
theorem stripMembers_insert (x : Exclusions) (members : Members) (name : String)
    (value : Document) :
    stripMembers x (members.insert name value)
      = if x.excludes name then stripMembers x members
        else Members.insert (stripMembers x members) name (strip x value) := by
  induction members with
  | nil =>
      cases hname : x.excludes name with
      | true => rw [if_pos rfl, Members.insert, stripMembers_cons_of_excluded hname]
      | false =>
          rw [if_neg Bool.false_ne_true, Members.insert, stripMembers_cons_of_kept hname]
          rfl
  | cons member members ih =>
      obtain ⟨key, old⟩ := member
      rw [Members.insert]
      by_cases hkey : key = name
      · subst hkey
        rw [if_pos rfl]
        cases hname : x.excludes key with
        | true =>
            rw [if_pos rfl, stripMembers_cons_of_excluded hname,
              stripMembers_cons_of_excluded hname]
        | false =>
            rw [if_neg Bool.false_ne_true, stripMembers_cons_of_kept hname,
              stripMembers_cons_of_kept hname, Members.insert, if_pos rfl]
      · rw [if_neg hkey]
        cases hother : x.excludes key with
        | true =>
            rw [stripMembers_cons_of_excluded hother, stripMembers_cons_of_excluded hother, ih]
        | false =>
            rw [stripMembers_cons_of_kept hother, stripMembers_cons_of_kept hother, ih]
            cases hname : x.excludes name with
            | true => rw [if_pos rfl, if_pos rfl]
            | false =>
                rw [if_neg Bool.false_ne_true, if_neg Bool.false_ne_true, Members.insert,
                  if_neg hkey]

end Stencil.Exclusions
