import Stencil.Proofs.Resource.Soundness

/-!
# Offences — a unification fails with the first thing wrong with its list

A list is gone through from left to right, and each entry from the outside to the inside: is it
an object, has it a name, stands a list where children are due, is that list in order itself,
and, if the rules ask for it, is the name new. `FirstOffence` says where this comes upon
something wrong for the first time, with everything before it sound. A unification fails exactly
if there is such an offence, and with the fault that the offence is (`unify_firstOffence`).

The fault is the same as at the top (`Flaw.AtTop`, word for word) but for the resources around it.
Two rules add these on the way out, one for messages and one for paths (`Fault.within`); all
together they put the names in front, the outermost first (`Offence.fault_eq_foldr`).

The route: what a failing step can have done is said once for a field, for the fields of a
resource and for an entry (`unifyFrom_named_error_iff`); a run over a sound list goes on as if it
started behind it (`unifyFrom_append`).
-/

namespace Stencil

/-- **The first offence** of a list: the entries in front of the offending one are sound, and of
    its fields those that are checked before. -/
inductive FirstOffence (rules : Rules) : List Document → Offence → Prop where
  | notObject {before after : List Document} {entry : Document}
      (sound : Sound rules before) (found : entry.kind ≠ .object) :
      FirstOffence rules (before ++ entry :: after) ⟨[], .notObject before.length entry.kind⟩
  | unnamed {before after : List Document} {fields : Members}
      (sound : Sound rules before)
      (nameless : ∀ name, fields.get? nameField ≠ some (.string name)) :
      FirstOffence rules (before ++ .object fields :: after) ⟨[], .unnamed before.length⟩
  | childrenNotList {before after : List Document} {checked others : Members}
      {owner field : String} {value : Document}
      (sound : Sound rules before)
      (named : (checked ++ (field, value) :: others).get? nameField = some (.string owner))
      (fieldsSound : SoundFields rules checked)
      (listed : rules.isChildList field = true) (found : value.kind ≠ .array) :
      FirstOffence rules (before ++ .object (checked ++ (field, value) :: others) :: after)
        ⟨[], .childrenNotList field owner value.kind⟩
  | child {before after items : List Document} {checked others : Members}
      {owner field : String} {offence : Offence}
      (sound : Sound rules before)
      (named : (checked ++ (field, .array items) :: others).get? nameField
        = some (.string owner))
      (fieldsSound : SoundFields rules checked)
      (listed : rules.isChildList field = true) (below : FirstOffence rules items offence) :
      FirstOffence rules (before ++ .object (checked ++ (field, .array items) :: others) :: after)
        ⟨owner :: offence.enclosing, offence.flaw⟩
  | repeated {before after : List Document} {fields : Members} {name : String}
      (strict : rules.duplicates = .reject) (sound : Sound rules before)
      (named : fields.get? nameField = some (.string name))
      (fieldsSound : SoundFields rules fields) (known : name ∈ resourceNames before) :
      FirstOffence rules (before ++ .object fields :: after) ⟨[], .repeated name⟩

/-- A fault seen from outside one more resource: a message says what it is in, and a repeated
    name gets one more step in front of its path. -/
def Fault.within (parent : String) : Fault → Fault
  | .resource message => .resource (s!"in resource '{parent}': " ++ message)
  | .duplicateName name none => .duplicateName name (some parent)
  | .duplicateName name (some path) => .duplicateName name (some (parent ++ "/" ++ path))
  | fault => fault

variable {rules : Rules} {mappings : Mappings}

-- ── Faults from the inside to the outside ───────────────────────────────────

/-- The outermost resource is noted first. -/
theorem enclosingNote_cons (parent : String) (enclosing : List String) :
    enclosingNote (parent :: enclosing)
      = s!"in resource '{parent}': " ++ enclosingNote enclosing := by
  simp [enclosingNote, String.join_cons]

theorem enclosingPath_cons (parent : String) (enclosing : List String) :
    enclosingPath (parent :: enclosing)
      = some (match enclosingPath enclosing with
          | none => parent
          | some path => parent ++ "/" ++ path) := by
  cases enclosing with
  | nil => simp [enclosingPath]
  | cons next enclosing => simp [enclosingPath]

/-- One more resource around an offence is one more around its fault. -/
theorem Offence.fault_within (parent : String) (offence : Offence) :
    (offence.within parent).fault = offence.fault.within parent := by
  obtain ⟨enclosing, flaw⟩ := offence
  cases flaw with
  | repeated name =>
      show Fault.duplicateName name (enclosingPath (parent :: enclosing))
        = (Fault.duplicateName name (enclosingPath enclosing)).within parent
      rw [enclosingPath_cons]
      cases enclosingPath enclosing with
      | none => rfl
      | some path => rfl
  | _ =>
      simp only [Offence.within, Offence.fault, Fault.within, enclosingNote_cons,
        String.append_assoc]

/-- **The fault of an offence** is that of its flaw at the top, taken out through the resources
    around it one after the other. -/
theorem Offence.fault_eq_foldr (offence : Offence) :
    offence.fault = offence.enclosing.foldr Fault.within offence.flaw.offence.fault := by
  obtain ⟨enclosing, flaw⟩ := offence
  induction enclosing with
  | nil => rfl
  | cons parent enclosing ih =>
      have hstep := Offence.fault_within parent ⟨enclosing, flaw⟩
      rw [ih] at hstep
      exact hstep

-- ── Steps that fail ─────────────────────────────────────────────────────────

/-- Only a field for children fails: if no list stands there, or with what is wrong with it. -/
theorem normalizeValue_error_iff {owner field : String} {value : Document} {offence : Offence} :
    (normalizeValue rules mappings owner field value).result = .error offence
      ↔ rules.isChildList field = true ∧
        ((value.kind ≠ .array ∧ offence = ⟨[], .childrenNotList field owner value.kind⟩) ∨
          ∃ items inner, value = .array items ∧
            (unifyFrom rules mappings 0 [] items).result = .error inner ∧
            offence = inner.within owner) := by
  cases hchild : rules.isChildList field with
  | false =>
      constructor
      · intro h
        rw [normalizeValue_of_not_childList hchild] at h
        exact nomatch h
      · intro h
        exact Bool.noConfusion h.1
  | true =>
      unfold normalizeValue
      split
      · next items =>
          rw [hchild, if_pos rfl, Journaled.error_bind_iff]
          constructor
          · rintro (h | ⟨nested, -, h⟩)
            · obtain ⟨inner, hinner, rfl⟩ := Journaled.error_mapFault_iff.mp h
              exact ⟨rfl, .inr ⟨items, inner, rfl, hinner, rfl⟩⟩
            · exact nomatch h
          · rintro ⟨-, ⟨hkind, -⟩ | ⟨_, inner, heq, hinner, rfl⟩⟩
            · exact absurd rfl hkind
            · obtain rfl := Document.array.inj heq
              exact .inl (Journaled.error_mapFault_iff.mpr ⟨inner, hinner, rfl⟩)
      · next hvalue =>
          rw [hchild, if_pos rfl]
          have hkind : value.kind ≠ .array := by
            intro hkind
            obtain ⟨items, heq⟩ := Document.kind_eq_array_iff.mp hkind
            exact hvalue items heq
          constructor
          · intro h
            exact ⟨rfl, .inl ⟨hkind, (Except.error.inj h).symm⟩⟩
          · rintro ⟨-, ⟨-, rfl⟩ | ⟨items, inner, rfl, -⟩⟩
            · rfl
            · exact absurd rfl (hvalue items)

/-- The fields of a resource fail with the first of them that does. -/
theorem normalizeFields_error_iff {owner : String} {fields : Members} {offence : Offence} :
    (normalizeFields rules mappings owner fields).result = .error offence
      ↔ ∃ checked normalized field value others, fields = checked ++ (field, value) :: others ∧
          NormalizesFields rules mappings checked normalized ∧
          (normalizeValue rules mappings owner field value).result = .error offence := by
  induction fields with
  | nil =>
      rw [normalizeFields]
      constructor
      · intro h
        cases h
      · rintro ⟨checked, normalized, field, value, others, h, -⟩
        exact absurd h.symm (by simp)
  | cons member fields ih =>
      obtain ⟨first, content⟩ := member
      rw [normalizeFields, Journaled.error_bind_iff]
      constructor
      · rintro (h | ⟨new, hnew, h⟩)
        · exact ⟨[], [], first, content, fields, rfl, .nil, h⟩
        · rcases Journaled.error_bind_iff.mp h with h | ⟨others, -, h⟩
          · obtain ⟨checked, normalized, field, value, others, rfl, hchecked, herror⟩ := ih.mp h
            have hnew := normalizeValue_ok_iff.mp hnew
            exact ⟨(first, content) :: checked, (first, new) :: normalized, field, value, others,
              rfl, .cons ⟨rfl, hnew⟩ hchecked, herror⟩
          · cases h
      · rintro ⟨checked, normalized, field, value, others, heq, hchecked, herror⟩
        cases hchecked with
        | nil =>
            obtain ⟨heq, -⟩ := List.cons.inj heq
            obtain ⟨rfl, rfl⟩ := Prod.mk.inj heq
            exact .inl herror
        | @cons _ new checked normalized hhead htail =>
            obtain ⟨rfl, rfl⟩ := List.cons.inj heq
            have hrest := ih.mpr ⟨checked, normalized, field, value, others, rfl, htail, herror⟩
            exact .inr ⟨new.2, normalizeValue_ok_iff.mpr hhead.2,
              Journaled.error_bind_iff.mpr (.inl hrest)⟩

/-- A name is refused only if names may not be repeated and it is there already. -/
theorem checkName_error_iff {unified : Members} {name : String} {offence : Offence} :
    (checkName rules unified name).result = .error offence
      ↔ rules.duplicates = .reject ∧ name ∈ unified.names ∧ offence = ⟨[], .repeated name⟩ := by
  rw [← Members.has_iff_mem_names]
  unfold checkName
  cases unified.has name with
  | false =>
      constructor
      · intro h
        exact nomatch h
      · intro h
        exact Bool.noConfusion h.2.1
  | true =>
      rw [if_pos rfl]
      cases rules.duplicates with
      | reject =>
          constructor
          · intro h
            exact ⟨rfl, rfl, (Except.error.inj h).symm⟩
          · rintro ⟨-, -, rfl⟩
            rfl
      | overwrite =>
          constructor
          · intro h
            exact nomatch h
          · intro h
            exact nomatch h.1

/-- An entry that is no object is an offence. -/
theorem unifyFrom_of_not_object {index : Nat} {before : Members} {entry : Document}
    {following : List Document} (h : entry.kind ≠ .object) :
    (unifyFrom rules mappings index before (entry :: following)).result
      = .error ⟨[], .notObject index entry.kind⟩ := by
  cases entry with
  | object fields => exact absurd rfl h
  | _ =>
      rw [unifyFrom]
      · rfl
      · intro fields heq
        cases heq

/-- An object without a name is an offence. -/
theorem unifyFrom_of_nameless {index : Nat} {before fields : Members}
    {following : List Document} (h : ∀ name, fields.get? nameField ≠ some (.string name)) :
    (unifyFrom rules mappings index before (.object fields :: following)).result
      = .error ⟨[], .unnamed index⟩ := by
  have hname : resourceName? fields = none := by
    cases hname : resourceName? fields with
    | none => rfl
    | some name => exact absurd (resourceName?_eq_some_iff.mp hname) (h name)
  rw [unifyFrom, hname]
  rfl

/-- **A named entry** fails with the first of its fields that fails, or else with its name, or
    else where the entries behind it do. -/
theorem unifyFrom_named_error_iff {index : Nat} {before fields : Members} {name : String}
    {following : List Document} {offence : Offence}
    (hname : fields.get? nameField = some (.string name)) :
    (unifyFrom rules mappings index before (.object fields :: following)).result = .error offence
      ↔ (normalizeFields rules mappings name fields).result = .error offence ∨
        ∃ normalized, NormalizesFields rules mappings fields normalized ∧
          ((checkName rules before name).result = .error offence ∨
            (checkName rules before name).result = .ok () ∧
              (unifyFrom rules mappings (index + 1) (before.insert name (.object normalized))
                following).result = .error offence) := by
  rw [unifyFrom, resourceName?_eq_some_iff.mpr hname]
  dsimp only
  rw [Journaled.error_bind_iff]
  refine or_congr Iff.rfl (exists_congr fun normalized => ?_)
  rw [normalizeFields_ok_iff, Journaled.error_bind_iff]
  refine and_congr Iff.rfl (or_congr Iff.rfl ?_)
  constructor
  · rintro ⟨⟨⟩, hcheck, h⟩
    exact ⟨hcheck, h⟩
  · intro h
    exact ⟨(), h⟩

-- ── The run ─────────────────────────────────────────────────────────────────

/-- Behind an entry that succeeds the run goes on with what became of it under its name. -/
theorem unifyFrom_cons_of_ok {index : Nat} {before fields normalized : Members} {name : String}
    {following : List Document} (hname : fields.get? nameField = some (.string name))
    (hfields : NormalizesFields rules mappings fields normalized)
    (hfree : rules.duplicates = .reject → name ∉ before.names) :
    (unifyFrom rules mappings index before (.object fields :: following)).result
      = (unifyFrom rules mappings (index + 1) (before.insert name (.object normalized))
          following).result := by
  have hnormalized : (normalizeFields rules mappings name fields).result = .ok normalized :=
    normalizeFields_ok_iff.mpr hfields
  have hchecked := checkName_ok_iff.mpr hfree
  rw [unifyFrom, resourceName?_eq_some_iff.mpr hname]
  dsimp only
  rw [Journaled.result_bind, hnormalized]
  show (checkName rules before name >>= _).result = _
  rw [Journaled.result_bind, hchecked]
  rfl

/-- Behind a list that can be unified the run goes on with the object that it became. -/
theorem unifyFrom_append {front following : List Document} {index : Nat}
    {before reached : Members}
    (h : (unifyFrom rules mappings index before front).result = .ok reached) :
    (unifyFrom rules mappings index before (front ++ following)).result
      = (unifyFrom rules mappings (index + front.length) reached following).result := by
  induction front generalizing index before with
  | nil =>
      obtain rfl := unifyFrom_nil_ok_iff.mp h
      rfl
  | cons entry front ih =>
      obtain ⟨fields, name, normalized, rfl, hname, hfields, hfree, hrest⟩ :=
        unifyFrom_cons_ok_iff.mp h
      rw [List.cons_append, unifyFrom_cons_of_ok hname hfields hfree, ih hrest, List.length_cons]
      congr 2
      omega

/-- An entry that succeeds joins those that went well in front of it. -/
theorem unifyFrom_concat_of_ok {front : List Document} {index : Nat}
    {before reached fields normalized : Members} {name : String}
    (hfront : (unifyFrom rules mappings index before front).result = .ok reached)
    (hname : fields.get? nameField = some (.string name))
    (hfields : NormalizesFields rules mappings fields normalized)
    (hfree : rules.duplicates = .reject → name ∉ reached.names) :
    (unifyFrom rules mappings index before (front ++ [.object fields])).result
      = .ok (reached.insert name (.object normalized)) := by
  rw [unifyFrom_append hfront, unifyFrom_cons_of_ok hname hfields hfree]
  exact unifyFrom_nil_ok_iff.mpr rfl

/-- The names that were reached are those of the resources in front. -/
theorem mem_names_of_unifyFrom {front : List Document} {reached : Members} {name : String}
    (h : (unifyFrom rules mappings 0 [] front).result = .ok reached) :
    name ∈ reached.names ↔ name ∈ resourceNames front := by
  rw [names_unify (unify_ok_iff.mpr h), List.mem_eraseDups]

/-- **A run that fails has met the first offence**: behind entries that went well, it fails with
    the first thing wrong in what follows them. -/
theorem firstOffence_of_error {resources : List Document} :
    ∀ {front : List Document} {reached : Members} {offence : Offence},
      (unifyFrom rules mappings 0 [] front).result = .ok reached →
      (unifyFrom rules mappings front.length reached resources).result = .error offence →
      FirstOffence rules (front ++ resources) offence := by
  induction resources using resources_induction with
  | nil =>
      intro front reached offence _ h
      have hok : (unifyFrom rules mappings front.length reached []).result = .ok reached :=
        unifyFrom_nil_ok_iff.mpr rfl
      rw [h] at hok
      exact nomatch hok
  | cons entry following ih ihchildren =>
      intro front reached offence hfront h
      have hsound : Sound rules front := exists_unify_iff.mp ⟨reached, unify_ok_iff.mpr hfront⟩
      by_cases hkind : entry.kind = .object
      · obtain ⟨fields, rfl⟩ := Document.kind_eq_object_iff.mp hkind
        by_cases hnamed : ∃ name, fields.get? nameField = some (.string name)
        · obtain ⟨name, hname⟩ := hnamed
          rcases (unifyFrom_named_error_iff hname).mp h with h | ⟨normalized, hfields, h⟩
          · -- a field fails, behind fields that went well
            obtain ⟨checked, _, field, value, others, rfl, hchecked, h⟩ :=
              normalizeFields_error_iff.mp h
            have hfieldsSound := exists_normalizesFields_iff_sound.mp ⟨_, hchecked⟩
            obtain ⟨hlisted, ⟨hvalue, rfl⟩ | ⟨items, inner, rfl, hinner, rfl⟩⟩ :=
              normalizeValue_error_iff.mp h
            · exact .childrenNotList hsound hname hfieldsSound hlisted hvalue
            · have hmem : (field, .array items) ∈ checked ++ (field, .array items) :: others :=
                List.mem_append_right _ (List.mem_cons_self ..)
              have hnil : (unifyFrom rules mappings 0 [] []).result = .ok [] :=
                unifyFrom_nil_ok_iff.mpr rfl
              have hbelow : FirstOffence rules items inner :=
                ihchildren _ field items rfl hmem hnil hinner
              exact .child hsound hname hfieldsSound hlisted hbelow
          · rcases h with h | ⟨hcheck, h⟩
            · obtain ⟨hstrict, hknown, rfl⟩ := checkName_error_iff.mp h
              exact .repeated hstrict hsound hname
                (exists_normalizesFields_iff_sound.mp ⟨_, hfields⟩)
                ((mem_names_of_unifyFrom hfront).mp hknown)
            · -- the entry went well, so it joins those in front
              have hentry :=
                unifyFrom_concat_of_ok hfront hname hfields (checkName_ok_iff.mp hcheck)
              have hlength : front.length + 1 = (front ++ [Document.object fields]).length := by
                rw [List.length_append, List.length_singleton]
              rw [hlength] at h
              rw [List.append_cons]
              exact ih hentry h
        · have hnameless := not_exists.mp hnamed
          rw [unifyFrom_of_nameless hnameless] at h
          obtain rfl := Except.error.inj h
          exact .unnamed hsound hnameless
      · rw [unifyFrom_of_not_object hkind] at h
        obtain rfl := Except.error.inj h
        exact .notObject hsound hkind

/-- **The first offence makes a run fail**, and nothing else decides what it fails with. -/
theorem error_of_firstOffence {resources : List Document} {offence : Offence}
    (h : FirstOffence rules resources offence) :
    (unifyFrom rules mappings 0 [] resources).result = .error offence := by
  have hfront : ∀ {before : List Document}, Sound rules before →
      ∃ reached, (unifyFrom rules mappings 0 [] before).result = .ok reached := by
    intro before hsound
    have hunify : ∃ reached, (unify rules mappings before).result = .ok reached :=
      exists_unify_iff.mpr hsound
    obtain ⟨reached, hreached⟩ := hunify
    exact ⟨reached, unify_ok_iff.mp hreached⟩
  have hnormalized : ∀ {fields : Members}, SoundFields rules fields →
      ∃ normalized, NormalizesFields rules mappings fields normalized :=
    exists_normalizesFields_iff_sound.mpr
  induction h with
  | @notObject before after entry sound found =>
      obtain ⟨reached, hreached⟩ := hfront sound
      rw [unifyFrom_append hreached, unifyFrom_of_not_object found, Nat.zero_add]
  | @unnamed before after fields sound nameless =>
      obtain ⟨reached, hreached⟩ := hfront sound
      rw [unifyFrom_append hreached, unifyFrom_of_nameless nameless, Nat.zero_add]
  | @childrenNotList before after checked others owner field value sound named fieldsSound listed
      found =>
      obtain ⟨reached, hreached⟩ := hfront sound
      obtain ⟨normalized, hchecked⟩ := hnormalized fieldsSound
      rw [unifyFrom_append hreached]
      refine (unifyFrom_named_error_iff named).mpr (.inl ?_)
      exact normalizeFields_error_iff.mpr ⟨checked, normalized, field, value, others, rfl,
        hchecked, normalizeValue_error_iff.mpr ⟨listed, .inl ⟨found, rfl⟩⟩⟩
  | @child before after items checked others owner field offence sound named fieldsSound listed
      below ih =>
      obtain ⟨reached, hreached⟩ := hfront sound
      obtain ⟨normalized, hchecked⟩ := hnormalized fieldsSound
      rw [unifyFrom_append hreached]
      refine (unifyFrom_named_error_iff named).mpr (.inl ?_)
      exact normalizeFields_error_iff.mpr ⟨checked, normalized, field, .array items, others, rfl,
        hchecked, normalizeValue_error_iff.mpr ⟨listed, .inr ⟨items, offence, rfl, ih, rfl⟩⟩⟩
  | @repeated before after fields name strict sound named fieldsSound known =>
      obtain ⟨reached, hreached⟩ := hfront sound
      obtain ⟨normalized, hfields⟩ := hnormalized fieldsSound
      rw [unifyFrom_append hreached]
      refine (unifyFrom_named_error_iff named).mpr (.inr ⟨normalized, hfields, .inl ?_⟩)
      exact checkName_error_iff.mpr ⟨strict, (mem_names_of_unifyFrom hreached).mpr known, rfl⟩

/-- A list has at most one first offence. -/
theorem FirstOffence.unique {resources : List Document} {offence other : Offence}
    (h : FirstOffence rules resources offence) (hother : FirstOffence rules resources other) :
    offence = other := by
  have herror : (unifyFrom rules [] 0 [] resources).result = .error offence :=
    error_of_firstOffence h
  rw [error_of_firstOffence hother] at herror
  exact (Except.error.inj herror).symm

/-- Resources are refused for their first offence. -/
theorem unify_error_iff {resources : List Document} {fault : Fault} :
    (unify rules mappings resources).result = .error fault
      ↔ ∃ offence, FirstOffence rules resources offence ∧ fault = offence.fault := by
  constructor
  · intro h
    obtain ⟨offence, herror, rfl⟩ := Journaled.error_mapFault_iff.mp h
    have hnil : (unifyFrom rules mappings 0 [] []).result = .ok [] := unifyFrom_nil_ok_iff.mpr rfl
    exact ⟨offence, firstOffence_of_error hnil herror, rfl⟩
  · rintro ⟨offence, hfirst, rfl⟩
    exact Journaled.error_mapFault_iff.mpr ⟨offence, error_of_firstOffence hfirst, rfl⟩

/-- The fault of a flaw under the resources around it: a repeated name with their path, or the
    message it has at the top with their note in front. -/
theorem Offence.fault_cases (enclosing : List String) (flaw : Flaw) :
    (∃ name, flaw = .repeated name ∧
        Offence.fault ⟨enclosing, flaw⟩ = .duplicateName name (enclosingPath enclosing)) ∨
      ∃ message, flaw.offence.fault = .resource message ∧
        Offence.fault ⟨enclosing, flaw⟩ = .resource (enclosingNote enclosing ++ message) := by
  have hnil : ∀ message, enclosingNote [] ++ message = message :=
    fun _ => String.empty_append
  cases flaw with
  | repeated name => exact .inl ⟨name, rfl, rfl⟩
  | notObject index found => exact .inr ⟨_, congrArg Fault.resource (hnil _), rfl⟩
  | unnamed index => exact .inr ⟨_, congrArg Fault.resource (hnil _), rfl⟩
  | childrenNotList field owner found => exact .inr ⟨_, congrArg Fault.resource (hnil _), rfl⟩

/-- The path to an offence: the names of the resources around it, joined by slashes. -/
theorem enclosingPath_eq (enclosing : List String) :
    enclosingPath enclosing
      = if enclosing = [] then none else some ("/".intercalate enclosing) := by
  cases enclosing with
  | nil => rfl
  | cons parent enclosing => exact (if_neg (List.cons_ne_nil parent enclosing)).symm

-- ── The words of a fault ────────────────────────────────────────────────────

/-- What messages call the kinds of documents. -/
def kindNames : List (Document.Kind × String) :=
  [(.null, "null"), (.boolean, "a boolean"), (.number, "a number"), (.string, "a string"),
    (.array, "a list"), (.object, "an object")]

/-- The kinds are listed with the words that a message has for them. -/
theorem mem_kindNames_iff {kind : Document.Kind} {name : String} :
    (kind, name) ∈ kindNames ↔ name = kind.phrase := by
  cases kind <;> simp [kindNames, Document.Kind.phrase]

/-- The fault that a flaw is in a list at the top, word for word: it names the index of an entry,
    or the field that holds no list and the resource that has it, and what was found. -/
inductive Flaw.AtTop : Flaw → Fault → Prop where
  | notObject (index : Nat) {found : Document.Kind} {name : String}
      (called : (found, name) ∈ kindNames) :
      AtTop (.notObject index found) (.resource
        ("resource at index " ++ toString index ++ " must be an object, found " ++ name))
  | unnamed (index : Nat) :
      AtTop (.unnamed index) (.resource
        ("resource at index " ++ toString index ++ " has no string 'name' field"))
  | childrenNotList (field owner : String) {found : Document.Kind} {name : String}
      (called : (found, name) ∈ kindNames) :
      AtTop (.childrenNotList field owner found) (.resource
        ("field '" ++ field ++ "' of resource '" ++ owner ++ "' must be a list, found " ++ name))
  | repeated (name : String) : AtTop (.repeated name) (.duplicateName name none)

/-- Every flaw is one fault at the top. -/
theorem Flaw.atTop_iff {flaw : Flaw} {fault : Fault} :
    flaw.AtTop fault ↔ fault = flaw.offence.fault := by
  have hnil : ∀ message, Fault.resource (enclosingNote [] ++ message) = .resource message :=
    fun _ => congrArg Fault.resource String.empty_append
  have hunnamed : ∀ index, (unnamed index).offence.fault
      = .resource ("resource at index " ++ toString index ++ " has no string 'name' field") := by
    intro index
    have hwords : " has no string '" ++ (nameField ++ "' field") = " has no string 'name' field" := by
      decide
    show Fault.resource (enclosingNote [] ++ (_ ++ " has no string '" ++ nameField ++ "' field")) = _
    rw [hnil, String.append_assoc, String.append_assoc, hwords]
    rfl
  constructor
  · intro h
    cases h with
    | notObject index called =>
        obtain rfl := mem_kindNames_iff.mp called
        exact (hnil _).symm
    | unnamed index => exact (hunnamed index).symm
    | childrenNotList field owner called =>
        obtain rfl := mem_kindNames_iff.mp called
        exact (hnil _).symm
    | repeated name => rfl
  · rintro rfl
    cases flaw with
    | notObject index found =>
        have htop := AtTop.notObject index (mem_kindNames_iff.mpr (rfl : found.phrase = _))
        rwa [← hnil] at htop
    | unnamed index =>
        rw [hunnamed]
        exact .unnamed index
    | childrenNotList field owner found =>
        have htop :=
          AtTop.childrenNotList field owner (mem_kindNames_iff.mpr (rfl : found.phrase = _))
        rwa [← hnil] at htop
    | repeated name => exact .repeated name

/-- **THE FIRST OFFENCE**: a unification fails exactly if its list has a first offence, with what
    its flaw is at the top, word for word, taken out through the resources around it from the
    innermost to the outermost. So a message has a note for each of these in front, and a repeated
    name has all of them as one path. -/
theorem unify_firstOffence {resources : List Document} {fault : Fault} :
    (unify rules mappings resources).result = .error fault
      ↔ ∃ enclosing flaw base, FirstOffence rules resources ⟨enclosing, flaw⟩ ∧
          flaw.AtTop base ∧ fault = enclosing.foldr Fault.within base ∧
          ((∃ name, base = .duplicateName name none ∧
              fault = .duplicateName name
                (if enclosing = [] then none else some ("/".intercalate enclosing))) ∨
            ∃ message, base = .resource message ∧
              fault = .resource
                (String.join (enclosing.map fun parent => "in resource '" ++ parent ++ "': ")
                  ++ message)) := by
  rw [unify_error_iff]
  constructor
  · rintro ⟨⟨enclosing, flaw⟩, hfirst, rfl⟩
    refine ⟨enclosing, flaw, _, hfirst, Flaw.atTop_iff.mpr rfl, Offence.fault_eq_foldr _, ?_⟩
    rcases Offence.fault_cases enclosing flaw with ⟨name, rfl, hfault⟩ | ⟨message, hbase, hfault⟩
    · rw [enclosingPath_eq] at hfault
      exact .inl ⟨name, rfl, hfault⟩
    · exact .inr ⟨message, hbase, hfault⟩
  · rintro ⟨enclosing, flaw, base, hfirst, hbase, hfault, -⟩
    obtain rfl := Flaw.atTop_iff.mp hbase
    exact ⟨_, hfirst, hfault.trans (Offence.fault_eq_foldr ⟨enclosing, flaw⟩).symm⟩

/-- A form, and an entry that is no object. -/
def brokenForms : List Document :=
  [.object [("name", .string "form")], .bool true]

/-- Two scripts, the second with the forms in it. -/
def brokenScripts : List Document :=
  [.object [("name", .string "boot")],
    .object [("name", .string "login"), ("scripts", .array brokenForms)]]

/-- Two databases of one name, the second with the scripts in it. -/
def brokenDatabases : List Document :=
  [.object [("name", .string "db")],
    .object [("name", .string "db"), ("scripts", .array brokenScripts)]]

/-- Scripts of resources are their children, and no name may stand twice. -/
def strictScripts : Rules :=
  ⟨[], some "scripts", .reject⟩

/-- What is wrong with children comes before the repetition of their parent's name, and is counted
    in their own list. -/
theorem unify_firstOffence_brokenDatabases :
    (unify strictScripts [] brokenDatabases).result
      = .error (.resource ("in resource 'db': in resource 'login': " ++
          "resource at index 1 must be an object, found a boolean")) := by
  have hsound : ∀ {resources unified}, (unify strictScripts [] resources).result = .ok unified →
      Sound strictScripts resources := fun h => exists_unify_iff.mp ⟨_, h⟩
  have hnamed : ∀ name, SoundFields strictScripts [("name", .string name)] := by
    intro name field value hmem hchild
    obtain ⟨rfl, -⟩ := Prod.mk.inj (List.mem_singleton.mp hmem)
    exact absurd hchild (by decide)
  have hform : (unify strictScripts [] [.object [("name", .string "form")]]).result
      = .ok [("form", .object [("name", .string "form")])] := by decide +kernel
  have hboot : (unify strictScripts [] [.object [("name", .string "boot")]]).result
      = .ok [("boot", .object [("name", .string "boot")])] := by decide +kernel
  have hdb : (unify strictScripts [] [.object [("name", .string "db")]]).result
      = .ok [("db", .object [("name", .string "db")])] := by decide +kernel
  -- from the inside to the outside
  have hforms : FirstOffence strictScripts brokenForms ⟨[], .notObject 1 .boolean⟩ :=
    .notObject (hsound hform) (by decide)
  have hscripts : FirstOffence strictScripts brokenScripts ⟨["login"], .notObject 1 .boolean⟩ :=
    .child (hsound hboot) rfl (hnamed "login") (by decide) hforms
  have hdatabases : FirstOffence strictScripts brokenDatabases
      ⟨["db", "login"], .notObject 1 .boolean⟩ :=
    .child (hsound hdb) rfl (hnamed "db") (by decide) hscripts
  have hfound : (Document.Kind.boolean, "a boolean") ∈ kindNames := by decide
  exact unify_firstOffence.mpr ⟨_, _, _, hdatabases, .notObject 1 hfound, by decide +kernel,
    .inr ⟨_, rfl, by decide +kernel⟩⟩

end Stencil
