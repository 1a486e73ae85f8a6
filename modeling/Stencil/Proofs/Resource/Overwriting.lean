import Stencil.Proofs.Resource.Naming

/-!
# Overwriting — the last definition of a name wins

Where rules let a later resource take the place of an earlier one, nothing but the shape of a
list can make its unification fail (`exists_unifyFrom_iff`), and what stands under a name is
what became of the last entry that has it (`get?_unifyFrom`). Entries that are overwritten
leave their place in the order of names and nothing else, yet their shape counts as that of
every other entry does.
-/

namespace Stencil

/-- A list of resources has the shape it needs, at every depth: each entry is an object with a
    name, and in a field for children stands a list that has this shape itself. -/
inductive WellFormedList (rules : Rules) : List Document → Prop where
  | nil : WellFormedList rules []
  | cons {fields : Members} {name : String} {following : List Document}
      (named : fields.get? nameField = some (.string name))
      (listed : ∀ field value, (field, value) ∈ fields → rules.isChildList field = true →
        value.kind = .array)
      (children : ∀ field items, (field, .array items) ∈ fields →
        rules.isChildList field = true → WellFormedList rules items)
      (further : WellFormedList rules following) :
      WellFormedList rules (.object fields :: following)

/-- The last entry of a list that has a certain name is the object with these fields. -/
def LastNamed (resources : List Document) (name : String) (fields : Members) : Prop :=
  ∃ before after, resources = before ++ .object fields :: after ∧
    fields.get? nameField = some (.string name) ∧ name ∉ resourceNames after

variable {rules : Rules} {mappings : Mappings}

-- ── Which lists can be unified ──────────────────────────────────────────────

/-- Only a field for children can fail. -/
theorem exists_normalizes_iff {field : String} {value : Document} :
    (∃ normalized, Normalizes rules mappings field value normalized)
      ↔ (rules.isChildList field = true → ∃ items nested, value = .array items ∧
          (unify rules mappings items).result = .ok nested) := by
  constructor
  · rintro ⟨normalized, h⟩ hchild
    obtain ⟨items, nested, rfl, -, hnested⟩ := (normalizes_of_childList hchild).mp h
    exact ⟨items, nested, rfl, hnested⟩
  · intro h
    cases hchild : rules.isChildList field with
    | true =>
        obtain ⟨items, nested, rfl, hnested⟩ := h hchild
        exact ⟨_, .children hchild hnested⟩
    | false => exact ⟨_, (normalizes_of_not_childList hchild).mpr rfl⟩

/-- Fields can be normalized if each of them can. -/
theorem exists_normalizesFields_iff {fields : Members} :
    (∃ normalized, NormalizesFields rules mappings fields normalized)
      ↔ ∀ field value, (field, value) ∈ fields →
          ∃ normalized, Normalizes rules mappings field value normalized := by
  induction fields with
  | nil =>
      constructor
      · intro _ field value hmem
        exact nomatch hmem
      · intro _
        exact ⟨[], .nil⟩
  | cons member fields ih =>
      obtain ⟨first, content⟩ := member
      constructor
      · rintro ⟨normalized, h⟩ field value hmem
        cases h with
        | cons hhead htail =>
            rcases List.mem_cons.mp hmem with heq | hmem
            · obtain ⟨rfl, rfl⟩ := Prod.mk.inj heq
              exact ⟨_, hhead.2⟩
            · exact ih.mp ⟨_, htail⟩ field value hmem
      · intro h
        obtain ⟨new, hnew⟩ := h first content (List.mem_cons_self ..)
        obtain ⟨others, hothers⟩ :=
          ih.mpr fun field value hmem => h field value (List.mem_cons_of_mem _ hmem)
        exact ⟨(first, new) :: others, .cons ⟨rfl, hnew⟩ hothers⟩

/-- **Success is shape**: where duplicates overwrite, a list can be unified exactly if it is
    well formed at every depth. -/
theorem exists_unifyFrom_iff (hpolicy : rules.duplicates = .overwrite)
    {resources : List Document} :
    ∀ {index : Nat} {before : Members},
      (∃ unified, (unifyFrom rules mappings index before resources).result = .ok unified)
        ↔ WellFormedList rules resources := by
  induction resources using resources_induction with
  | nil =>
      intro index before
      constructor
      · intro _
        exact .nil
      · intro _
        exact ⟨before, unifyFrom_nil_ok_iff.mpr rfl⟩
  | cons entry following ih ihchildren =>
      intro index before
      constructor
      · rintro ⟨unified, h⟩
        obtain ⟨fields, name, normalized, rfl, hname, hfields, -, hrest⟩ :=
          unifyFrom_cons_ok_iff.mp h
        have hnested := fun field value hmem =>
          exists_normalizes_iff.mp (exists_normalizesFields_iff.mp ⟨_, hfields⟩ field value hmem)
        refine .cons hname ?_ ?_ (ih.mp ⟨unified, hrest⟩)
        · intro field value hmem hchild
          obtain ⟨items, nested, rfl, -⟩ := hnested field value hmem hchild
          rfl
        · intro field items hmem hchild
          obtain ⟨_, nested, heq, hok⟩ := hnested field (.array items) hmem hchild
          obtain rfl := Document.array.inj heq
          exact (ihchildren fields field items rfl hmem).mp ⟨nested, unify_ok_iff.mp hok⟩
      · intro h
        cases h with
        | cons named listed children further =>
            rename_i fields name
            have hfields : ∃ normalized, NormalizesFields rules mappings fields normalized := by
              refine exists_normalizesFields_iff.mpr fun field value hmem => ?_
              refine exists_normalizes_iff.mpr fun hchild => ?_
              have hkind := listed field value hmem hchild
              obtain ⟨items, rfl⟩ : ∃ items, value = .array items := by
                cases value with
                | array items => exact ⟨items, rfl⟩
                | _ => exact nomatch hkind
              obtain ⟨nested, hok⟩ :=
                (ihchildren fields field items rfl hmem).mpr (children field items hmem hchild)
              exact ⟨items, nested, rfl, unify_ok_iff.mpr hok⟩
            obtain ⟨normalized, hfields⟩ := hfields
            have hfree : rules.duplicates = .reject → name ∉ before.names := by
              rw [hpolicy]
              intro hreject
              exact nomatch hreject
            obtain ⟨unified, hrest⟩ := ih.mpr further
            exact ⟨unified, unifyFrom_cons_ok_iff.mpr
              ⟨fields, name, normalized, rfl, named, hfields, hfree, hrest⟩⟩

-- ── What stands under a name ────────────────────────────────────────────────

/-- The last one with a name is the last one behind any entry in front. -/
theorem LastNamed.cons {following : List Document} {name : String} {fields : Members}
    (h : LastNamed following name fields) (entry : Document) :
    LastNamed (entry :: following) name fields := by
  obtain ⟨before, after, rfl, hname, hlast⟩ := h
  exact ⟨entry :: before, after, rfl, hname, hlast⟩

/-- What stands behind the last entry of a name does not hold another one. -/
theorem fields_eq_of_last {between after after' : List Document} {name : String}
    {fields fields' : Members} (heq : .object fields :: after = between ++ .object fields' :: after')
    (hname : fields'.get? nameField = some (.string name)) (hlast : name ∉ resourceNames after) :
    fields = fields' := by
  cases between with
  | nil => exact Document.object.inj (List.cons.inj heq).1
  | cons entry between =>
      obtain ⟨-, rfl⟩ := List.cons.inj heq
      refine absurd ?_ hlast
      exact List.mem_filterMap.mpr ⟨.object fields', by simp, resourceName?_eq_some_iff.mpr hname⟩

/-- A name has one last entry. -/
theorem LastNamed.unique {resources : List Document} {name : String} {fields fields' : Members}
    (h : LastNamed resources name fields) (h' : LastNamed resources name fields') :
    fields = fields' := by
  obtain ⟨before, after, rfl, hname, hlast⟩ := h
  obtain ⟨before', after', heq, hname', hlast'⟩ := h'
  rcases List.append_eq_append_iff.mp heq with ⟨between, -, hrest⟩ | ⟨between, -, hrest⟩
  · exact fields_eq_of_last hrest hname' hlast
  · exact (fields_eq_of_last hrest hname hlast').symm

/-- **The last definition wins**: under a name stands what the last entry of this name has
    become or, if no entry has it, what stood there before. -/
theorem get?_unifyFrom {resources : List Document} {index : Nat} {before unified : Members}
    {name : String} {value : Document}
    (h : (unifyFrom rules mappings index before resources).result = .ok unified)
    (hvalue : unified.get? name = some value) :
    (name ∉ resourceNames resources ∧ before.get? name = some value) ∨
      ∃ fields normalized, LastNamed resources name fields ∧
        NormalizesFields rules mappings fields normalized ∧ value = .object normalized := by
  induction resources generalizing index before with
  | nil =>
      obtain rfl := unifyFrom_nil_ok_iff.mp h
      exact .inl ⟨List.not_mem_nil, hvalue⟩
  | cons entry following ih =>
      obtain ⟨fields, first, normalized, rfl, hname, hfields, -, hrest⟩ :=
        unifyFrom_cons_ok_iff.mp h
      rcases ih hrest with ⟨hnot, hbefore⟩ | ⟨others, new, hlast, hnew, heq⟩
      · by_cases hfirst : name = first
        · subst hfirst
          rw [Members.get?_insert_self] at hbefore
          exact .inr ⟨fields, normalized, ⟨[], following, rfl, hname, hnot⟩, hfields,
            (Option.some.inj hbefore).symm⟩
        · rw [Members.get?_insert_of_ne hfirst] at hbefore
          refine .inl ⟨?_, hbefore⟩
          rw [resourceNames_cons hname, List.mem_cons, not_or]
          exact ⟨hfirst, hnot⟩
      · exact .inr ⟨others, new, hlast.cons _, hnew, heq⟩

/-- **Overwriting.**  A list is unified exactly if it is well formed at every depth. The
    result has the distinct names of the list, in the order of their first occurrence, and
    under each of them the fields of the last entry of this name and nothing else, in the
    order they have there, each normalized for itself. -/
theorem unify_overwriting (rules : Rules) (mappings : Mappings) (resources : List Document)
    (hpolicy : rules.duplicates = .overwrite) :
    ((∃ unified, (unify rules mappings resources).result = .ok unified)
        ↔ WellFormedList rules resources) ∧
      ∀ unified, (unify rules mappings resources).result = .ok unified →
        unified.names = (resourceNames resources).eraseDups ∧
          ∀ name ∈ unified.names, ∃ fields normalized,
            LastNamed resources name fields ∧
              unified.get? name = some (.object normalized) ∧
              NormalizesFields rules mappings fields normalized := by
  constructor
  · simp only [unify_ok_iff]
    exact exists_unifyFrom_iff hpolicy
  · intro unified h
    refine ⟨names_unify h, fun name hname => ?_⟩
    obtain ⟨value, hvalue⟩ : ∃ value, unified.get? name = some value := by
      refine Option.ne_none_iff_exists'.mp fun hnone => ?_
      exact Members.get?_eq_none_iff.mp hnone hname
    rcases get?_unifyFrom (unify_ok_iff.mp h) hvalue with ⟨-, hnone⟩ | hlast
    · exact nomatch hnone
    · obtain ⟨fields, normalized, hlast, hfields, rfl⟩ := hlast
      exact ⟨fields, normalized, hlast, hvalue, hfields⟩

/-- Rules for resources with scopes, which are children although they are templated too. -/
def scopedRules : Rules :=
  { templatedFields := ["settings", "scopes"], childListField := some "scopes"
    duplicates := .overwrite }

/-- Two definitions of one name with another name between them, and the same among the
    children of the second. -/
def repeatedResources : List Document :=
  [.object [("name", .string "api"), ("owner", .string "ops"), ("settings", .string "@@tier@@")],
    .object [("name", .string "db"), ("settings", .array [.bool true, .null])],
    .object
      [("scopes", .array
          [.object [("name", .string "read"), ("owner", .null)],
            .object [("name", .string "read"), ("settings", .string "@@tier@@/@@none@@")]]),
        ("name", .string "api")]]

/-- Names repeated at both depths: the last definition counts, in the place of the first one. -/
theorem unify_overwriting_repeatedResources :
    scopedRules.duplicates = .overwrite ∧ WellFormedList scopedRules repeatedResources ∧
      ∃ unified,
        (unify scopedRules [("tier", .string "gold")] repeatedResources).result = .ok unified ∧
        unified.names = ["api", "db"] ∧
        unified.get? "api" = some (.object
          [("scopes", .object
              [("read", .object
                [("name", .string "read"), ("settings", .string "\"gold\"/@@none@@")])]),
            ("name", .string "api")]) ∧
        ∃ fields normalized, LastNamed repeatedResources "api" fields ∧
          unified.get? "api" = some (.object normalized) ∧
          NormalizesFields scopedRules [("tier", .string "gold")] fields normalized := by
  obtain ⟨hshape, hlast⟩ :=
    unify_overwriting scopedRules [("tier", .string "gold")] repeatedResources rfl
  have hok : (unify scopedRules [("tier", .string "gold")] repeatedResources).result = .ok
      [("api", .object
          [("scopes", .object
              [("read", .object
                [("name", .string "read"), ("settings", .string "\"gold\"/@@none@@")])]),
            ("name", .string "api")]),
        ("db", .object [("name", .string "db"), ("settings", .string "[true,null]")])] := by
    decide +kernel
  obtain ⟨-, hvalues⟩ := hlast _ hok
  exact ⟨rfl, hshape.mp ⟨_, hok⟩, _, hok, rfl, rfl, hvalues "api" (List.mem_cons_self ..)⟩

end Stencil
