import Stencil.Proofs.Resource.Steps

/-!
# Own names — what the entries of a unified list call themselves

An entry of a unified list stands under the name that it had in the list, and has a name among
its fields too. The two come about differently: the first is read off the raw entry, the second
goes through the rules like any other field. So the second is what the rules make of the first
(`shownName`), and it is so at every depth, since children are unified by the same rules
(`everyEntry_unifyFrom`). The two agree wherever names are not templated; rules that do template
them rewrite a name that holds a mapped placeholder, and leave the key as it was.
-/

namespace Stencil

/-- Every entry of a unified list, and of each child map in it at any depth, is an object whose
    fields have a property together with the key it stands under. -/
inductive EveryEntry (rules : Rules) (P : String → Members → Prop) : Members → Prop where
  | nil : EveryEntry rules P []
  | cons {key : String} {fields following : Members}
      (holds : P key fields)
      (mapped : ∀ field value, (field, value) ∈ fields → rules.isChildList field = true →
        value.kind = .object)
      (children : ∀ field nested, (field, .object nested) ∈ fields →
        rules.isChildList field = true → EveryEntry rules P nested)
      (further : EveryEntry rules P following) :
      EveryEntry rules P ((key, .object fields) :: following)

/-- The name that an entry gives for itself when it stands under a key. -/
def shownName (rules : Rules) (mappings : Mappings) (key : String) : String :=
  if rules.isTemplated nameField then Placeholder.resolve mappings key else key

variable {rules : Rules} {mappings : Mappings}

-- ── Entries one by one ──────────────────────────────────────────────────────

/-- What holds of every entry may be weakened. -/
theorem EveryEntry.imp {P Q : String → Members → Prop} (himp : ∀ key fields, P key fields →
    Q key fields) {unified : Members} (h : EveryEntry rules P unified) :
    EveryEntry rules Q unified := by
  induction h with
  | nil => exact .nil
  | cons holds mapped _ _ ihchildren ihfurther =>
      exact .cons (himp _ _ holds) mapped ihchildren ihfurther

theorem EveryEntry.and {P Q : String → Members → Prop} {unified : Members}
    (hp : EveryEntry rules P unified) (hq : EveryEntry rules Q unified) :
    EveryEntry rules (fun key fields => P key fields ∧ Q key fields) unified := by
  induction hp with
  | nil => exact .nil
  | cons holds mapped _ _ ihchildren ihfurther =>
      cases hq with
      | cons others _ children further =>
          exact .cons ⟨holds, others⟩ mapped
            (fun field nested hmem hchild =>
              ihchildren field nested hmem hchild (children field nested hmem hchild))
            (ihfurther further)

/-- An entry that is put in place of another, or behind all others, leaves the others alone. -/
theorem EveryEntry.insert {P : String → Members → Prop} {unified fields : Members} {key : String}
    (hentry : EveryEntry rules P [(key, .object fields)]) (h : EveryEntry rules P unified) :
    EveryEntry rules P (unified.insert key (.object fields)) := by
  induction unified with
  | nil => exact hentry
  | cons member following ih =>
      cases h with
      | @cons other old _ holds mapped children further =>
          rw [Members.insert]
          by_cases hkey : other = key
          · rw [if_pos hkey, hkey]
            cases hentry with
            | cons holds mapped children _ => exact .cons holds mapped children further
          · rw [if_neg hkey]
            exact .cons holds mapped children (ih further)

-- ── Fields before and after ─────────────────────────────────────────────────

/-- What stands in a normalized field has become of what stood there. -/
theorem exists_of_mem_normalizesFields {fields normalized : Members} {field : String}
    {value : Document} (h : NormalizesFields rules mappings fields normalized)
    (hmem : (field, value) ∈ normalized) :
    ∃ old, (field, old) ∈ fields ∧ Normalizes rules mappings field old value := by
  induction h with
  | nil => exact nomatch hmem
  | @cons old new fields normalized hhead _ ih =>
      rcases List.mem_cons.mp hmem with heq | hmem
      · obtain ⟨name, content⟩ := old
        subst heq
        obtain ⟨rfl, hvalue⟩ := hhead
        exact ⟨content, List.mem_cons_self .., hvalue⟩
      · obtain ⟨content, hold, hvalue⟩ := ih hmem
        exact ⟨content, List.mem_cons_of_mem _ hold, hvalue⟩

/-- What is found under the name of a field has become of what was found under it. -/
theorem get?_of_normalizesFields {fields normalized : Members} {field : String}
    {value : Document} (h : NormalizesFields rules mappings fields normalized)
    (hvalue : fields.get? field = some value) :
    ∃ new, normalized.get? field = some new ∧ Normalizes rules mappings field value new := by
  induction h with
  | nil => exact nomatch hvalue
  | @cons old new fields normalized hhead _ ih =>
      obtain ⟨first, content⟩ := old
      obtain ⟨other, result⟩ := new
      obtain ⟨rfl, hnormalizes⟩ := hhead
      rw [Members.get?_cons] at hvalue ⊢
      by_cases hfield : field = other
      · rw [if_pos hfield] at hvalue ⊢
        obtain rfl := Option.some.inj hvalue
        subst hfield
        exact ⟨result, rfl, hnormalizes⟩
      · rw [if_neg hfield] at hvalue ⊢
        exact ih hvalue

/-- **The name among the fields** is what the rules make of the name of the entry. -/
theorem get?_nameField_of_normalizesFields {fields normalized : Members} {name : String}
    (h : NormalizesFields rules mappings fields normalized)
    (hname : fields.get? nameField = some (.string name)) :
    normalized.get? nameField = some (.string (shownName rules mappings name)) := by
  obtain ⟨new, hnew, hnormalizes⟩ := get?_of_normalizesFields h hname
  rw [hnew, shownName]
  cases hnormalizes with
  | templated _ htemplated =>
      rw [if_pos htemplated]
      rfl
  | copied _ htemplated => rw [htemplated, if_neg Bool.false_ne_true]

-- ── The run ─────────────────────────────────────────────────────────────────

/-- An entry shows the name it stands under, as the rules write it. -/
def ShowsKey (rules : Rules) (mappings : Mappings) (key : String) (fields : Members) : Prop :=
  fields.get? nameField = some (.string (shownName rules mappings key))

/-- **Own names along a run**: an entry that joins the others shows its name, and so do its
    children, which are unified by the same rules. -/
theorem everyEntry_unifyFrom {resources : List Document} :
    ∀ {index : Nat} {before unified : Members},
      EveryEntry rules (ShowsKey rules mappings) before →
      (unifyFrom rules mappings index before resources).result = .ok unified →
      EveryEntry rules (ShowsKey rules mappings) unified := by
  induction resources using resources_induction with
  | nil =>
      intro index before unified hbefore h
      obtain rfl := unifyFrom_nil_ok_iff.mp h
      exact hbefore
  | cons entry following ih ihchildren =>
      intro index before unified hbefore h
      obtain ⟨fields, name, normalized, rfl, hname, hfields, -, hrest⟩ :=
        unifyFrom_cons_ok_iff.mp h
      refine ih (EveryEntry.insert (.cons ?_ ?_ ?_ .nil) hbefore) hrest
      · exact get?_nameField_of_normalizesFields hfields hname
      · intro field value hmem hchild
        obtain ⟨old, -, hvalue⟩ := exists_of_mem_normalizesFields hfields hmem
        obtain ⟨items, nested, -, rfl, -⟩ := (normalizes_of_childList hchild).mp hvalue
        rfl
      · intro field nested hmem hchild
        obtain ⟨old, hold, hvalue⟩ := exists_of_mem_normalizesFields hfields hmem
        obtain ⟨items, _, rfl, heq, hnested⟩ := (normalizes_of_childList hchild).mp hvalue
        obtain rfl := Document.object.inj heq
        exact ihchildren fields field items rfl hold .nil (unify_ok_iff.mp hnested)

/-- **OWN NAMES**: every entry of a unified list, at every depth, is an object that shows the
    name it stands under, resolved if the rules template names. It shows that name unchanged
    exactly where resolving does not change it, and so always if names are not templated. -/
theorem unify_ownNames {resources : List Document} {unified : Members}
    (h : (unify rules mappings resources).result = .ok unified) :
    EveryEntry rules (ShowsKey rules mappings) unified ∧
      (EveryEntry rules (fun key fields => fields.get? nameField = some (.string key)) unified
        ↔ EveryEntry rules (fun key _ => shownName rules mappings key = key) unified) ∧
      (rules.isTemplated nameField = false →
        EveryEntry rules (fun key fields => fields.get? nameField = some (.string key))
          unified) := by
  have hshows : EveryEntry rules (ShowsKey rules mappings) unified :=
    everyEntry_unifyFrom .nil (unify_ok_iff.mp h)
  refine ⟨hshows, ⟨fun hnames => ?_, fun hkeys => ?_⟩, fun htemplated => ?_⟩
  · refine (hshows.and hnames).imp fun key fields hboth => ?_
    obtain ⟨hshown, hname⟩ := hboth
    exact Document.string.inj (Option.some.inj (hshown.symm.trans hname))
  · refine (hshows.and hkeys).imp fun key fields hboth => ?_
    obtain ⟨hshown, hkey⟩ := hboth
    rw [ShowsKey, hkey] at hshown
    exact hshown
  · refine hshows.imp fun key fields hshown => ?_
    rw [ShowsKey, shownName, htemplated, if_neg Bool.false_ne_true] at hshown
    exact hshown

/-- Rules for databases with scripts, and one whose names look like placeholders. -/
def scriptRules : Rules :=
  { templatedFields := ["code"], childListField := some "scripts", duplicates := .reject }

def namedDatabases : List Document :=
  [.object [("name", .string "@@hello@@"),
    ("scripts", .array
      [.object [("code", .string "@@hello@@"), ("name", .string "to @@hello@@")]])]]

/-- Names that look like placeholders stay what their keys are, while the templated text beside them
    is resolved. -/
theorem unify_ownNames_namedDatabases :
    scriptRules.isTemplated nameField = false ∧
      ∃ unified,
        (unify scriptRules [("hello", .string "goodbye")] namedDatabases).result = .ok unified ∧
        unified = [("@@hello@@", .object [("name", .string "@@hello@@"),
          ("scripts", .object [("to @@hello@@", .object
            [("code", .string "\"goodbye\""), ("name", .string "to @@hello@@")])])])] ∧
        EveryEntry scriptRules (ShowsKey scriptRules [("hello", .string "goodbye")]) unified ∧
        EveryEntry scriptRules (fun key fields => fields.get? nameField = some (.string key))
          unified := by
  have hok : (unify scriptRules [("hello", .string "goodbye")] namedDatabases).result = .ok
      [("@@hello@@", .object [("name", .string "@@hello@@"),
        ("scripts", .object [("to @@hello@@", .object
          [("code", .string "\"goodbye\""), ("name", .string "to @@hello@@")])])])] := by
    decide +kernel
  obtain ⟨hshows, -, hkeys⟩ := unify_ownNames hok
  exact ⟨by decide, _, hok, rfl, hshows, hkeys (by decide)⟩

/-- **Not every name is kept**: rules that template names rewrite them, and leave the key. -/
theorem not_unify_ownNames :
    ¬ ∀ (rules : Rules) (mappings : Mappings) (resources : List Document) (unified : Members),
        (unify rules mappings resources).result = .ok unified →
        EveryEntry rules (fun key fields => fields.get? nameField = some (.string key))
          unified := by
  intro hall
  have hok : (unify ⟨["name"], none, .overwrite⟩ [("hello", .string "goodbye")]
      [.object [("name", .string "@@hello@@")]]).result
        = .ok [("@@hello@@", .object [("name", .string "\"goodbye\"")])] := by decide +kernel
  cases hall _ _ _ _ hok with
  | cons holds _ _ _ => exact absurd holds (by decide)

end Stencil
