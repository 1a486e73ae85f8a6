import Mathlib.Data.List.Forall2
import Stencil.Proofs.Document.Members
import Stencil.Proofs.Journaled
import Stencil.Resource.Unification

/-!
# Steps — what one step of a successful unification does

Unifying a list goes entry by entry, an entry field by field, and a field that holds children
starts the same over with a list of its own. This module says once what each of these steps
can have done when all went well: a field becomes its child map, its canonical text or a copy
(`normalizeValue_ok_iff`), the fields of a resource are normalized side by side
(`normalizeFields_ok_iff`), and an entry puts what became of it under its name
(`unifyFrom_cons_ok_iff`). Everything else about results follows from these without opening
the recursion again, by induction over the lists that stand in lists (`resources_induction`).
-/

namespace Stencil

/-- What the value of a field can become: children are unified by themselves, other templated
    fields become text, and the rest is copied. -/
inductive Normalizes (rules : Rules) (mappings : Mappings) (field : String) :
    Document → Document → Prop where
  | children {items : List Document} {nested : Members} :
      rules.isChildList field = true → (unify rules mappings items).result = .ok nested →
      Normalizes rules mappings field (.array items) (.object nested)
  | templated {value : Document} :
      rules.isChildList field = false → rules.isTemplated field = true →
      Normalizes rules mappings field value (.string (normalizeField mappings value))
  | copied {value : Document} :
      rules.isChildList field = false → rules.isTemplated field = false →
      Normalizes rules mappings field value value

/-- Fields become fields of the same names in the same order, each for itself. -/
def NormalizesFields (rules : Rules) (mappings : Mappings) : Members → Members → Prop :=
  List.Forall₂ fun old new => new.1 = old.1 ∧ Normalizes rules mappings old.1 old.2 new.2

variable {rules : Rules} {mappings : Mappings}

theorem Document.kind_eq_array_iff {document : Document} :
    document.kind = .array ↔ ∃ items, document = .array items := by
  constructor
  · intro h
    cases document with
    | array items => exact ⟨items, rfl⟩
    | _ => exact nomatch h
  · rintro ⟨items, rfl⟩
    rfl

theorem Document.kind_eq_object_iff {document : Document} :
    document.kind = .object ↔ ∃ members : Members, document = .object members := by
  constructor
  · intro h
    cases document with
    | object members => exact ⟨members, rfl⟩
    | _ => exact nomatch h
  · rintro ⟨members, rfl⟩
    rfl

/-- A resource is named by a string in its name field. -/
theorem resourceName?_eq_some_iff {fields : Members} {name : String} :
    resourceName? fields = some name ↔ fields.get? nameField = some (.string name) := by
  unfold resourceName?
  split
  · next found heq => simp [heq]
  · next hother =>
      constructor
      · intro h
        exact nomatch h
      · intro h
        exact absurd h (hother name)

/-- What is no string is written in its compact form, whatever the mappings are. -/
theorem normalizeField_of_not_string {value : Document} (h : value.kind ≠ .string)
    (mappings : Mappings) : normalizeField mappings value = value.compact := by
  cases value with
  | string text => exact absurd rfl h
  | _ => rfl

theorem unify_ok_iff {resources : List Document} {unified : Members} :
    (unify rules mappings resources).result = .ok unified
      ↔ (unifyFrom rules mappings 0 [] resources).result = .ok unified :=
  Journaled.ok_mapFault_iff

-- ── Fields ──────────────────────────────────────────────────────────────────

/-- A field that is no child list succeeds in one of two ways. -/
theorem normalizes_of_not_childList {field : String} {value normalized : Document}
    (hchild : rules.isChildList field = false) :
    Normalizes rules mappings field value normalized
      ↔ (if rules.isTemplated field then .string (normalizeField mappings value) else value)
          = normalized := by
  constructor
  · intro h
    cases h with
    | children hlist _ =>
        rw [hchild] at hlist
        exact Bool.noConfusion hlist
    | templated _ htemplated => rw [if_pos htemplated]
    | copied _ htemplated =>
        rw [htemplated, if_neg Bool.false_ne_true]
  · rintro rfl
    cases htemplated : rules.isTemplated field with
    | true => exact .templated hchild htemplated
    | false => exact .copied hchild htemplated

/-- A field for children succeeds with what the list in it has become. -/
theorem normalizes_of_childList {field : String} {value normalized : Document}
    (hchild : rules.isChildList field = true) :
    Normalizes rules mappings field value normalized
      ↔ ∃ items nested, value = .array items ∧ normalized = .object nested ∧
          (unify rules mappings items).result = .ok nested := by
  constructor
  · intro h
    cases h with
    | children _ hnested => exact ⟨_, _, rfl, rfl, hnested⟩
    | templated hnot _ =>
        rw [hchild] at hnot
        exact Bool.noConfusion hnot
    | copied hnot _ =>
        rw [hchild] at hnot
        exact Bool.noConfusion hnot
  · rintro ⟨items, nested, rfl, rfl, hnested⟩
    exact .children hchild hnested

/-- **One field**: it succeeds with exactly what it can become. -/
theorem normalizeValue_ok_iff {owner field : String} {value normalized : Document} :
    (normalizeValue rules mappings owner field value).result = .ok normalized
      ↔ Normalizes rules mappings field value normalized := by
  cases hchild : rules.isChildList field with
  | false =>
      rw [normalizes_of_not_childList hchild]
      unfold normalizeValue
      split
      · rw [hchild, if_neg Bool.false_ne_true]
        split <;> exact Journaled.ok_pure_iff
      · rw [hchild, if_neg Bool.false_ne_true]
        split
        · rw [Journaled.ok_bind_iff]
          constructor
          · rintro ⟨-, -, h⟩
            exact Journaled.ok_pure_iff.mp h
          · intro h
            exact ⟨(), rfl, Journaled.ok_pure_iff.mpr h⟩
        · exact Journaled.ok_pure_iff
  | true =>
      rw [normalizes_of_childList hchild]
      unfold normalizeValue
      split
      · next items =>
          rw [hchild, if_pos rfl, Journaled.ok_bind_iff]
          constructor
          · rintro ⟨nested, hnested, h⟩
            obtain rfl := Journaled.ok_pure_iff.mp h
            exact ⟨items, nested, rfl, rfl,
              unify_ok_iff.mpr (Journaled.ok_mapFault_iff.mp hnested)⟩
          · rintro ⟨_, nested, heq, rfl, hnested⟩
            obtain rfl := Document.array.inj heq
            exact ⟨nested, Journaled.ok_mapFault_iff.mpr (unify_ok_iff.mp hnested), rfl⟩
      · next value hvalue =>
          rw [hchild, if_pos rfl]
          constructor
          · intro h
            exact nomatch h
          · rintro ⟨items, nested, rfl, -⟩
            exact absurd rfl (hvalue items)

/-- A field that is no child list always succeeds. -/
theorem normalizeValue_of_not_childList {field : String}
    (hchild : rules.isChildList field = false) (owner : String) (value : Document) :
    (normalizeValue rules mappings owner field value).result
      = .ok (if rules.isTemplated field then .string (normalizeField mappings value)
          else value) :=
  normalizeValue_ok_iff.mpr ((normalizes_of_not_childList hchild).mpr rfl)

/-- **The fields of a resource** are normalized side by side. -/
theorem normalizeFields_ok_iff {owner : String} {fields normalized : Members} :
    (normalizeFields rules mappings owner fields).result = .ok normalized
      ↔ NormalizesFields rules mappings fields normalized := by
  induction fields generalizing normalized with
  | nil =>
      rw [normalizeFields]
      constructor
      · intro h
        obtain rfl := Except.ok.inj h
        exact .nil
      · intro h
        cases h
        rfl
  | cons member fields ih =>
      obtain ⟨field, value⟩ := member
      rw [normalizeFields, Journaled.ok_bind_iff]
      constructor
      · rintro ⟨new, hvalue, hrest⟩
        obtain ⟨others, hothers, heq⟩ := Journaled.ok_bind_iff.mp hrest
        obtain rfl := Journaled.ok_pure_iff.mp heq
        exact .cons ⟨rfl, normalizeValue_ok_iff.mp hvalue⟩ (ih.mp hothers)
      · intro h
        cases h with
        | cons hhead htail =>
            rename_i new others
            obtain ⟨hname, hvalue⟩ := hhead
            obtain ⟨name, new⟩ := new
            obtain rfl : name = field := hname
            exact ⟨new, normalizeValue_ok_iff.mpr hvalue,
              Journaled.ok_bind_iff.mpr ⟨others, ih.mpr htail, rfl⟩⟩

-- ── Entries ─────────────────────────────────────────────────────────────────

/-- A name is accepted if it is new or may be repeated. -/
theorem checkName_ok_iff {unified : Members} {name : String} :
    (checkName rules unified name).result = .ok ()
      ↔ rules.duplicates = .reject → name ∉ unified.names := by
  rw [← Members.has_iff_mem_names]
  unfold checkName
  cases unified.has name with
  | false =>
      constructor
      · intro _ _
        exact Bool.false_ne_true
      · intro _
        rfl
  | true =>
      rw [if_pos rfl]
      cases rules.duplicates with
      | reject =>
          constructor
          · intro h
            exact nomatch h
          · intro h
            exact absurd rfl (h rfl)
      | overwrite =>
          constructor
          · intro _ h
            exact nomatch h
          · intro _
            rfl

/-- At the end of the list everything has been put in. -/
theorem unifyFrom_nil_ok_iff {index : Nat} {before unified : Members} :
    (unifyFrom rules mappings index before []).result = .ok unified ↔ before = unified := by
  rw [unifyFrom, Journaled.ok_bind_iff]
  constructor
  · rintro ⟨-, -, h⟩
    exact Journaled.ok_pure_iff.mp h
  · intro h
    exact ⟨(), rfl, Journaled.ok_pure_iff.mpr h⟩

/-- **One entry**: it is an object with a name, its fields are normalized, its name may be
    used, and it goes on with what became of it under its name. -/
theorem unifyFrom_cons_ok_iff {index : Nat} {before unified : Members} {entry : Document}
    {following : List Document} :
    (unifyFrom rules mappings index before (entry :: following)).result = .ok unified
      ↔ ∃ (fields : Members) (name : String) (normalized : Members),
          entry = .object fields ∧ fields.get? nameField = some (.string name) ∧
          NormalizesFields rules mappings fields normalized ∧
          (rules.duplicates = .reject → name ∉ before.names) ∧
          (unifyFrom rules mappings (index + 1) (before.insert name (.object normalized))
            following).result = .ok unified := by
  constructor
  · intro h
    unfold unifyFrom at h
    split at h
    · next heq => exact nomatch heq
    · next fields rest heq =>
        obtain ⟨rfl, rfl⟩ := List.cons.inj heq
        split at h
        · exact nomatch h
        · next name hname =>
            obtain ⟨normalized, hfields, h⟩ := Journaled.ok_bind_iff.mp h
            obtain ⟨⟨⟩, hcheck, h⟩ := Journaled.ok_bind_iff.mp h
            exact ⟨fields, name, normalized, rfl, resourceName?_eq_some_iff.mp hname,
              normalizeFields_ok_iff.mp hfields, checkName_ok_iff.mp hcheck, h⟩
    · exact nomatch h
  · rintro ⟨fields, name, normalized, rfl, hname, hfields, hcheck, h⟩
    rw [unifyFrom, resourceName?_eq_some_iff.mpr hname]
    refine Journaled.ok_bind_iff.mpr ⟨normalized, normalizeFields_ok_iff.mpr hfields, ?_⟩
    exact Journaled.ok_bind_iff.mpr ⟨(), checkName_ok_iff.mpr hcheck, h⟩

-- ── Lists in lists ──────────────────────────────────────────────────────────

/-- The children of a resource are smaller than the resource. -/
theorem sizeOf_lt_of_mem_fields {field : String} {items : List Document} {fields : Members}
    (h : (field, .array items) ∈ fields) : sizeOf items < sizeOf (Document.object fields) := by
  have hfields : sizeOf (field, Document.array items) < sizeOf fields := List.sizeOf_lt_of_mem h
  simp only [Prod.mk.sizeOf_spec, Document.array.sizeOf_spec] at hfields
  simp only [Document.object.sizeOf_spec]
  omega

/-- **Induction from the lists below**: what holds of a list may be used of every list in a field
    of an entry. -/
@[elab_as_elim]
theorem children_induction {motive : List Document → Prop}
    (list : ∀ resources,
      (∀ fields field items, .object fields ∈ resources → (field, .array items) ∈ fields →
        motive items) → motive resources)
    (resources : List Document) : motive resources := by
  induction hsize : sizeOf resources using Nat.strongRecOn generalizing resources with
  | ind size ih =>
      subst hsize
      refine list resources ?_
      intro fields field items hentry hmem
      have hfields : sizeOf items < sizeOf (Document.object fields) := sizeOf_lt_of_mem_fields hmem
      have hresources : sizeOf (Document.object fields) < sizeOf resources :=
        List.sizeOf_lt_of_mem hentry
      exact ih _ (Nat.lt_trans hfields hresources) items rfl

/-- **Induction over lists of resources**: what holds of a list may be used of the entries
    that follow one and of every list in one of its fields. -/
@[elab_as_elim]
theorem resources_induction {motive : List Document → Prop} (nil : motive [])
    (cons : ∀ entry following, motive following →
      (∀ fields field items, entry = .object fields → (field, .array items) ∈ fields →
        motive items) → motive (entry :: following))
    (resources : List Document) : motive resources := by
  induction resources using children_induction with
  | list resources ihchildren =>
      induction resources with
      | nil => exact nil
      | cons entry following ih =>
          refine cons entry following (ih ?_) ?_
          · intro fields field items hentry
            exact ihchildren fields field items (List.mem_cons_of_mem _ hentry)
          · rintro fields field items rfl
            exact ihchildren fields field items (List.mem_cons_self ..)

end Stencil
