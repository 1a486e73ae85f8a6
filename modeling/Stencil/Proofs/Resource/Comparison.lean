import Stencil.Proofs.Exclusions
import Stencil.Proofs.Resource.Offences

/-!
# Comparison — what of a list of resources shows once names are left out

Two lists are compared by unifying both and leaving the excluded names out of what they become.
It would be the same to leave the names out of the lists first, were it not for templated fields:
a structured value there becomes text, and text is not looked into. So `stripResources` leaves
names out everywhere but in these values, and that is all that a comparison can tell
(`alike_unify`), provided that neither the name of a resource nor its children are excluded.
Lists that are the same after this are the same with the names left out everywhere
(`reduce_eq_of_stripResources_eq`), but not the other way round.

The route: each step on the stripped list is matched with the step on the list itself. Both fail,
or both succeed with results of which the same is left, and sequences of matching steps match.
The run on a list goes on alike from unified objects that differ, as long as their names agree
and the same is left of them (`alike_unifyFrom`).
-/

namespace Stencil

namespace Exclusions

mutual

/-- The resources of a list without what is excluded. A structured value of a templated field
    becomes text as a whole, so nothing is left out of it. -/
def stripResources (x : Exclusions) (rules : Rules) : List Document → List Document
  | [] => []
  | .object fields :: following =>
    .object (stripFields x rules fields) :: stripResources x rules following
  | entry :: following => strip x entry :: stripResources x rules following

/-- The fields of a resource that are not excluded, each by its own kind. -/
def stripFields (x : Exclusions) (rules : Rules) :
    List (String × Document) → List (String × Document)
  | [] => []
  | (field, value) :: fields =>
    if x.excludes field then stripFields x rules fields
    else (field, stripField x rules field value) :: stripFields x rules fields

/-- The value of a field without what is excluded. -/
def stripField (x : Exclusions) (rules : Rules) (field : String) : Document → Document
  | .array items =>
    if rules.isChildList field then .array (stripResources x rules items)
    else if rules.isTemplated field then .array items
    else strip x (.array items)
  | value =>
    if rules.isChildList field then strip x value
    else if rules.isTemplated field then value
    else strip x value

end

-- ── Fields of a stripped resource ───────────────────────────────────────────

variable {x : Exclusions} {rules : Rules}

/-- A field that is no list of children is stripped, unless it is templated. -/
theorem stripField_of_not_childList {field : String} (h : rules.isChildList field = false)
    (value : Document) :
    stripField x rules field value
      = if rules.isTemplated field then value else strip x value := by
  cases value <;> simp only [stripField, h, if_neg Bool.false_ne_true]

/-- In a list of children every resource is stripped. -/
theorem stripField_of_childList {field : String} (h : rules.isChildList field = true)
    (items : List Document) :
    stripField x rules field (.array items) = .array (stripResources x rules items) := by
  rw [stripField, if_pos h]

theorem kind_stripField (field : String) (value : Document) :
    (stripField x rules field value).kind = value.kind := by
  cases value with
  | array items =>
      rw [stripField]
      split
      · rfl
      · split
        · rfl
        · exact kind_strip x _
  | _ =>
      simp only [stripField]
      split
      · exact kind_strip x _
      · split
        · rfl
        · exact kind_strip x _

/-- A text is left as it is in every field. -/
theorem stripField_eq_string_iff {field text : String} {value : Document} :
    stripField x rules field value = .string text ↔ value = .string text := by
  have hkind : (stripField x rules field value).kind = value.kind := kind_stripField field value
  cases value with
  | string other =>
      have hself : stripField x rules field (.string other) = .string other := by
        rw [stripField]
        · split
          · rfl
          · split <;> rfl
        · intro items heq
          exact nomatch heq
      rw [hself]
  | _ =>
      constructor
      · intro h
        rw [h] at hkind
        exact nomatch hkind
      · intro h
        exact nomatch h

/-- What stands under a name that is kept. -/
theorem get?_stripFields {fields : Members} {field : String} (h : x.excludes field = false) :
    Members.get? (stripFields x rules fields) field
      = (fields.get? field).map (stripField x rules field) := by
  induction fields with
  | nil => rfl
  | cons member fields ih =>
      obtain ⟨other, value⟩ := member
      rw [stripFields, Members.get?_cons]
      by_cases hfield : field = other
      · subst hfield
        rw [h, if_neg Bool.false_ne_true, Members.get?_cons, if_pos rfl, if_pos rfl]
        rfl
      · rw [if_neg hfield, ← ih]
        split
        · rfl
        · rw [Members.get?_cons, if_neg hfield]

/-- A resource keeps its name. -/
theorem get?_nameField_stripFields (hname : x.excludes nameField = false) {fields : Members}
    {name : String} :
    Members.get? (stripFields x rules fields) nameField = some (.string name)
      ↔ fields.get? nameField = some (.string name) := by
  rw [get?_stripFields hname, Option.map_eq_some_iff]
  simp only [stripField_eq_string_iff, exists_eq_right]

-- ── Leaving out by resources and leaving out plainly ────────────────────────

/-- An entry that is no resource is walked plainly. -/
theorem stripResources_cons_of_not_object {entry : Document} (h : entry.kind ≠ .object)
    (following : List Document) :
    stripResources x rules (entry :: following)
      = strip x entry :: stripResources x rules following := by
  cases entry with
  | object fields => exact absurd rfl h
  | _ => rfl

/-- An entry that is no object holds nothing that stripping resources would have kept. -/
theorem stripItems_cons_of_not_object {entry : Document} {following : List Document}
    (h : entry.kind ≠ .object)
    (hfollowing : stripItems x (stripResources x rules following) = stripItems x following) :
    stripItems x (stripResources x rules (entry :: following))
      = stripItems x (entry :: following) := by
  rw [stripResources_cons_of_not_object h, stripItems, stripItems, strip_idem, hfollowing]

mutual

/-- **Leaving out more**: what stripping the resources spares, stripping the list leaves out. -/
theorem stripItems_stripResources (x : Exclusions) (rules : Rules) :
    ∀ resources, stripItems x (stripResources x rules resources) = stripItems x resources
  | [] => rfl
  | .object fields :: following => by
      have hfields := stripMembers_stripFields x rules fields
      rw [stripResources, stripItems, stripItems, strip, strip, hfields,
        stripItems_stripResources x rules following]
  | .null :: following => stripItems_cons_of_not_object nofun
      (stripItems_stripResources x rules following)
  | .bool _ :: following => stripItems_cons_of_not_object nofun
      (stripItems_stripResources x rules following)
  | .number _ :: following => stripItems_cons_of_not_object nofun
      (stripItems_stripResources x rules following)
  | .string _ :: following => stripItems_cons_of_not_object nofun
      (stripItems_stripResources x rules following)
  | .array _ :: following => stripItems_cons_of_not_object nofun
      (stripItems_stripResources x rules following)

theorem stripMembers_stripFields (x : Exclusions) (rules : Rules) :
    ∀ fields, stripMembers x (stripFields x rules fields) = stripMembers x fields
  | [] => rfl
  | (field, value) :: fields => by
      have hrest := stripMembers_stripFields x rules fields
      rw [stripFields]
      cases hfield : x.excludes field with
      | true => rw [if_pos rfl, stripMembers_cons_of_excluded hfield, hrest]
      | false =>
          rw [if_neg Bool.false_ne_true, stripMembers_cons_of_kept hfield,
            stripMembers_cons_of_kept hfield, hrest, strip_stripField x rules field value]

/-- Stripping a value removes whatever stripping the field has left. -/
theorem strip_stripField (x : Exclusions) (rules : Rules) (field : String) :
    ∀ value, strip x (stripField x rules field value) = strip x value
  | .array items => by
      rw [stripField]
      split
      · rw [strip, strip, stripItems_stripResources x rules items]
      · split
        · rfl
        · exact strip_idem x _
  | .object members => by
      simp only [stripField]
      split
      · exact strip_idem x _
      · split
        · rfl
        · exact strip_idem x _
  | .null => by simp only [stripField, ite_self, strip]
  | .bool _ => by simp only [stripField, strip, ite_self]
  | .number _ => by simp only [stripField, strip, ite_self]
  | .string _ => by simp only [stripField, strip, ite_self]

end

/-- Lists of which the same is left, structured values of templated fields included whole, are
    the same once these values are looked into as well. -/
theorem reduce_eq_of_stripResources_eq {resources resources' : List Document}
    (h : stripResources x rules resources = stripResources x rules resources') :
    x.reduce (.array resources) = x.reduce (.array resources') := by
  rw [reduce_eq_strip, reduce_eq_strip, strip, strip, ← stripItems_stripResources x rules, h,
    stripItems_stripResources]

end Exclusions

-- ── Steps side by side ──────────────────────────────────────────────────────

open Exclusions Journaled

variable {x : Exclusions} {rules : Rules} {mappings : Mappings}

/-- **One field**: a field for children fails on both sides, or leaves what the lists in it leave.
    Any other field succeeds on both sides. -/
theorem alike_normalizeValue {owner field : String} {value : Document}
    (ih : ∀ items, value = .array items →
      Alike (stripMembers x) (unifyFrom rules mappings 0 [] items)
        (unifyFrom rules mappings 0 [] (stripResources x rules items))) :
    Alike (strip x) (normalizeValue rules mappings owner field value)
      (normalizeValue rules mappings owner field (stripField x rules field value)) := by
  cases hchild : rules.isChildList field with
  | false =>
      refine alike_of_ok (normalizeValue_of_not_childList hchild owner value)
        (normalizeValue_of_not_childList hchild owner _) ?_
      rw [stripField_of_not_childList hchild]
      cases rules.isTemplated field with
      | true => rfl
      | false => exact (strip_idem x value).symm
  | true =>
      by_cases hkind : value.kind = .array
      · obtain ⟨items, rfl⟩ := Document.kind_eq_array_iff.mp hkind
        rw [stripField_of_childList hchild, normalizeValue, normalizeValue, if_pos hchild,
          if_pos hchild]
        refine (alike_mapFault (ih items rfl)).bind fun nested nested' hnested => ?_
        refine alike_of_ok rfl rfl ?_
        rw [strip, strip, hnested]
      · have hkind' : (stripField x rules field value).kind ≠ .array := by
          rw [kind_stripField]
          exact hkind
        exact alike_of_error (normalizeValue_error_iff.mpr ⟨hchild, .inl ⟨hkind, rfl⟩⟩)
          (normalizeValue_error_iff.mpr ⟨hchild, .inl ⟨hkind', rfl⟩⟩)

/-- Fields of which each looks alike look alike, and those left out do not show. -/
theorem alike_normalizeFields {owner : String} {fields : Members}
    (hkept : ∀ field, rules.isChildList field = true → x.excludes field = false)
    (ih : ∀ field items, (field, .array items) ∈ fields →
      Alike (stripMembers x) (unifyFrom rules mappings 0 [] items)
        (unifyFrom rules mappings 0 [] (stripResources x rules items))) :
    Alike (stripMembers x) (normalizeFields rules mappings owner fields)
      (normalizeFields rules mappings owner (stripFields x rules fields)) := by
  induction fields with
  | nil => rfl
  | cons member fields ihFields =>
      obtain ⟨field, value⟩ := member
      have hfields := ihFields fun other items hmem => ih other items (.tail _ hmem)
      rw [stripFields]
      cases hfield : x.excludes field with
      | true =>
          -- the field stands on one side only; it holds no children, so it cannot fail
          have hchild : rules.isChildList field = false := by
            cases hchild : rules.isChildList field with
            | false => rfl
            | true =>
                rw [hkept field hchild] at hfield
                exact Bool.noConfusion hfield
          rw [if_pos rfl, normalizeFields]
          refine alike_bind_of_ok (normalizeValue_of_not_childList hchild owner value)
            (hfields.bind_pure fun others => ?_)
          exact stripMembers_cons_of_excluded hfield _ others
      | false =>
          have hvalue : Alike (strip x) (normalizeValue rules mappings owner field value)
              (normalizeValue rules mappings owner field (stripField x rules field value)) := by
            refine alike_normalizeValue ?_
            rintro items rfl
            exact ih field items (.head _)
          rw [if_neg Bool.false_ne_true, normalizeFields, normalizeFields]
          refine hvalue.bind fun new new' hnew => hfields.bind fun others others' hothers => ?_
          refine alike_of_ok rfl rfl ?_
          rw [stripMembers_cons_of_kept hfield, stripMembers_cons_of_kept hfield, hnew, hothers]

/-- Whether a name may be used depends on the names in use only. -/
theorem checkName_congr {before before' : Members} (h : before.names = before'.names)
    (name : String) : checkName rules before name = checkName rules before' name := by
  have hhas : before.has name = before'.has name := by
    rw [Bool.eq_iff_iff, Members.has_iff_mem_names, Members.has_iff_mem_names, h]
  unfold checkName
  rw [hhas]

-- ── Lists side by side ──────────────────────────────────────────────────────

/-- The run on a list and the run on what is left of it go on alike from objects with the same
    names of which the same is left. The names are all of them, the excluded ones included: it
    is by these that the run finds out about duplicates. -/
theorem alike_unifyFrom (hname : x.excludes nameField = false)
    (hkept : ∀ field, rules.isChildList field = true → x.excludes field = false)
    {resources : List Document} :
    ∀ {index : Nat} {before before' : Members}, before.names = before'.names →
      stripMembers x before = stripMembers x before' →
      Alike (stripMembers x) (unifyFrom rules mappings index before resources)
        (unifyFrom rules mappings index before' (stripResources x rules resources)) := by
  induction resources using resources_induction with
  | nil =>
      intro index before before' _ hleft
      exact alike_of_ok (unifyFrom_nil_ok_iff.mpr rfl) (unifyFrom_nil_ok_iff.mpr rfl) hleft
  | cons entry following ihFollowing ihItems =>
      intro index before before' hnames hleft
      by_cases hkind : entry.kind = .object
      · obtain ⟨fields, rfl⟩ := Document.kind_eq_object_iff.mp hkind
        rw [stripResources]
        cases hresource : resourceName? fields with
        | none =>
            have hnameless : ∀ name, fields.get? nameField ≠ some (.string name) := by
              intro name h
              rw [resourceName?_eq_some_iff.mpr h] at hresource
              exact nomatch hresource
            exact alike_of_error (unifyFrom_of_nameless hnameless)
              (unifyFrom_of_nameless fun name h =>
                hnameless name ((get?_nameField_stripFields hname).mp h))
        | some name =>
            have hresource' : resourceName? (stripFields x rules fields) = some name :=
              resourceName?_eq_some_iff.mpr ((get?_nameField_stripFields hname).mpr
                (resourceName?_eq_some_iff.mp hresource))
            have hfields : Alike (stripMembers x) (normalizeFields rules mappings name fields)
                (normalizeFields rules mappings name (stripFields x rules fields)) :=
              alike_normalizeFields hkept fun field items hmem =>
                ihItems fields field items rfl hmem rfl rfl
            have hcheck :
                Alike id (checkName rules before name) (checkName rules before' name) := by
              rw [checkName_congr hnames]
              rfl
            rw [unifyFrom, unifyFrom, hresource, hresource']
            refine hfields.bind fun normalized normalized' hnormalized => ?_
            refine hcheck.bind fun _ _ _ => ihFollowing ?_ ?_
            · rw [Members.names_insert, Members.names_insert, hnames]
            · rw [stripMembers_insert, stripMembers_insert, hleft, strip, strip, hnormalized]
      · have hkind' : (strip x entry).kind ≠ .object := by
          rw [kind_strip]
          exact hkind
        rw [stripResources_cons_of_not_object hkind]
        exact alike_of_error (unifyFrom_of_not_object hkind) (unifyFrom_of_not_object hkind')

/-- **Lists of which the same is left** cannot be told apart by what is left of the unified
    objects: both are refused, or what is left of both is the same. -/
theorem alike_unify (hname : x.excludes nameField = false)
    (hkept : ∀ field, rules.isChildList field = true → x.excludes field = false)
    {resources resources' : List Document}
    (h : stripResources x rules resources = stripResources x rules resources') :
    Alike (stripMembers x) (unify rules mappings resources) (unify rules mappings resources') := by
  have hleft : ∀ list, Alike (stripMembers x) (unifyFrom rules mappings 0 [] list)
      (unifyFrom rules mappings 0 [] (stripResources x rules list)) :=
    fun list => alike_unifyFrom hname hkept rfl rfl
  have hone := hleft resources
  rw [h] at hone
  exact alike_mapFault (Eq.trans hone (hleft resources').symm)

end Stencil
