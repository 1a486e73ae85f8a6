import Stencil.Proofs.Resource.Offences

/-!
# Policies — what the two policies for duplicates have in common

The policies look at the same lists in the same order, and part only where a name is repeated.
So whatever the rejecting policy lets pass the overwriting one unifies alike, a malformed entry
met under the rejecting policy is met under the other one too (`FirstOffence.overwrite`), and a
repeated name is the only fault that the rejecting policy adds (`unify_policies`). It may hide a
malformed entry that stands behind the repetition, and may be hidden by one in front of it.
-/

namespace Stencil

variable {rules : Rules} {mappings : Mappings}

/-- A list that repeats no name has nothing against it if names may be repeated. -/
theorem Sound.overwrite {resources : List Document}
    (h : Sound (rules.under .reject) resources) : Sound (rules.under .overwrite) resources where
  shape := h.shape.under .overwrite
  distinct := by
    intro hreject
    exact nomatch hreject

/-- Fields that repeat no name have nothing against them if names may be repeated. -/
theorem SoundFields.overwrite {fields : Members}
    (h : SoundFields (rules.under .reject) fields) :
    SoundFields (rules.under .overwrite) fields := by
  intro field value hmem hchild
  obtain ⟨items, heq, hsound⟩ := h field value hmem hchild
  exact ⟨items, heq, hsound.overwrite⟩

/-- **A malformed entry comes first under both policies**: what is sound in front of it under the
    rejecting policy is sound under the overwriting one. -/
theorem FirstOffence.overwrite {resources : List Document} {offence : Offence}
    (h : FirstOffence (rules.under .reject) resources offence)
    (hflaw : ∀ name, offence.flaw ≠ .repeated name) :
    FirstOffence (rules.under .overwrite) resources offence := by
  induction h with
  | notObject sound found => exact .notObject sound.overwrite found
  | unnamed sound nameless => exact .unnamed sound.overwrite nameless
  | childrenNotList sound named fieldsSound listed found =>
      exact .childrenNotList sound.overwrite named fieldsSound.overwrite listed found
  | child sound named fieldsSound listed _ ih =>
      exact .child sound.overwrite named fieldsSound.overwrite listed (ih hflaw)
  | repeated _ _ _ _ _ => exact absurd rfl (hflaw _)

/-- A fault of the rejecting policy is a repeated name, or a fault of the overwriting policy. -/
theorem reject_error_cases {resources : List Document} {fault : Fault}
    (h : (unify (rules.under .reject) mappings resources).result = .error fault) :
    (∃ name parent, fault = .duplicateName name parent) ∨
      ((∃ message, fault = .resource message) ∧
        (unify (rules.under .overwrite) mappings resources).result = .error fault) := by
  obtain ⟨⟨enclosing, flaw⟩, hfirst, rfl⟩ := unify_error_iff.mp h
  rcases Offence.fault_cases enclosing flaw with ⟨name, -, hfault⟩ | ⟨message, hbase, hfault⟩
  · exact .inl ⟨name, _, hfault⟩
  · have hflaw : ∀ name, flaw ≠ .repeated name := by
      rintro name rfl
      exact nomatch hbase
    exact .inr ⟨⟨_, hfault⟩, unify_error_iff.mpr ⟨_, hfirst.overwrite hflaw, rfl⟩⟩

/-- Repetitions are rejected where there are any, and nothing else changes. -/
theorem reject_ok_iff {resources : List Document} {unified : Members} :
    (unify (rules.under .reject) mappings resources).result = .ok unified
      ↔ (unify (rules.under .overwrite) mappings resources).result = .ok unified ∧
        DistinctNames rules resources := by
  rw [unify_ok_iff, unify_ok_iff, unifyFrom_reject_iff]
  constructor
  · rintro ⟨hok, hdistinct, -⟩
    exact ⟨hok, hdistinct⟩
  · rintro ⟨hok, hdistinct⟩
    exact ⟨hok, hdistinct, fun name _ => List.not_mem_nil⟩

/-- **THE TWO POLICIES**: rejecting succeeds exactly if overwriting does, with the same result,
    and no name is repeated at any depth. A malformed entry that makes rejecting fail makes
    overwriting fail alike; where overwriting fails, rejecting fails alike or with a repeated
    name; and where only rejecting fails, it fails with a repeated name. -/
theorem unify_policies (rules : Rules) (mappings : Mappings) (resources : List Document) :
    (∀ unified,
      (unify (rules.under .reject) mappings resources).result = .ok unified
        ↔ (unify (rules.under .overwrite) mappings resources).result = .ok unified ∧
          DistinctNames rules resources) ∧
    (∀ message,
      (unify (rules.under .reject) mappings resources).result = .error (.resource message) →
      (unify (rules.under .overwrite) mappings resources).result = .error (.resource message)) ∧
    (∀ fault,
      (unify (rules.under .overwrite) mappings resources).result = .error fault →
      (unify (rules.under .reject) mappings resources).result = .error fault ∨
        ∃ name parent, (unify (rules.under .reject) mappings resources).result
          = .error (.duplicateName name parent)) ∧
    (∀ unified fault,
      (unify (rules.under .overwrite) mappings resources).result = .ok unified →
      (unify (rules.under .reject) mappings resources).result = .error fault →
      ∃ name parent, fault = .duplicateName name parent) := by
  refine ⟨fun _ => reject_ok_iff, ?_, ?_, ?_⟩
  · intro message h
    rcases reject_error_cases h with ⟨name, parent, heq⟩ | ⟨-, hoverwrite⟩
    · exact nomatch heq
    · exact hoverwrite
  · intro fault h
    cases hreject : (unify (rules.under .reject) mappings resources).result with
    | ok unified =>
        have hok := (reject_ok_iff.mp hreject).1
        rw [h] at hok
        exact nomatch hok
    | error other =>
        rcases reject_error_cases hreject with ⟨name, parent, rfl⟩ | ⟨-, hoverwrite⟩
        · exact .inr ⟨name, parent, rfl⟩
        · rw [h] at hoverwrite
          obtain rfl := Except.error.inj hoverwrite
          exact .inl rfl
  · intro unified fault hok hreject
    rcases reject_error_cases hreject with hrepeated | ⟨-, hoverwrite⟩
    · exact hrepeated
    · rw [hok] at hoverwrite
      exact nomatch hoverwrite

/-- A repeated name hides the malformed entry behind it from the rejecting policy. -/
example :
    let resources : List Document :=
      [.object [("name", .string "db")], .object [("name", .string "db")], .object []]
    (unify ⟨[], none, .reject⟩ [] resources).result = .error (.duplicateName "db" none) ∧
      (unify ⟨[], none, .overwrite⟩ [] resources).result
        = .error (.resource "resource at index 2 has no string 'name' field") := by
  decide +kernel

end Stencil
