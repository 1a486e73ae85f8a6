import Stencil.Proofs.Resource.Overwriting

/-!
# Soundness — the lists that give no offence

Two policies for duplicates differ in nothing but duplicates: a list that is unified where
they are rejected is unified alike where they overwrite, and repeats no name at any depth
(`unifyFrom_reject_iff`). With what success means under the overwriting policy, this says of
every list under all rules when it can be unified: it has the shape it needs, and repeats no
name if the rules forbid that (`exists_unify_iff`). The run along a list carries one thing more,
the names collected so far, with which those to come may not clash.
-/

namespace Stencil

/-- No list repeats a name: neither a list itself nor, at any depth, a list of children in it. -/
inductive DistinctNames (rules : Rules) : List Document → Prop where
  | intro {resources : List Document}
      (distinct : (resourceNames resources).Nodup)
      (children : ∀ fields field items, .object fields ∈ resources →
        (field, .array items) ∈ fields → rules.isChildList field = true →
        DistinctNames rules items) :
      DistinctNames rules resources

/-- The same rules with a policy for duplicates. -/
def Rules.under (rules : Rules) (policy : DuplicatePolicy) : Rules :=
  { rules with duplicates := policy }

/-- **Sound** lists give no offence: they have the shape they need at every depth and, where
    duplicates are rejected, repeat no name. -/
structure Sound (rules : Rules) (resources : List Document) : Prop where
  shape : WellFormedList rules resources
  distinct : rules.duplicates = .reject → DistinctNames rules resources

/-- Fields give no offence: in those for children stand lists that give none. -/
def SoundFields (rules : Rules) (fields : Members) : Prop :=
  ∀ field value, (field, value) ∈ fields → rules.isChildList field = true →
    ∃ items, value = .array items ∧ Sound rules items

variable {rules : Rules} {mappings : Mappings}

-- ── Names that do not repeat ────────────────────────────────────────────────

/-- An entry in front has a name of its own, and no list of its children repeats a name. -/
theorem distinctNames_cons_iff {fields : Members} {name : String} {following : List Document}
    (hname : fields.get? nameField = some (.string name)) :
    DistinctNames rules (.object fields :: following)
      ↔ name ∉ resourceNames following ∧ DistinctNames rules following ∧
        ∀ field items, (field, .array items) ∈ fields → rules.isChildList field = true →
          DistinctNames rules items := by
  constructor
  · rintro ⟨hdistinct, hchildren⟩
    rw [resourceNames_cons hname, List.nodup_cons] at hdistinct
    refine ⟨hdistinct.1, ⟨hdistinct.2, ?_⟩, ?_⟩
    · intro others field items hmem
      exact hchildren others field items (List.mem_cons_of_mem _ hmem)
    · intro field items
      exact hchildren fields field items (List.mem_cons_self ..)
  · rintro ⟨hnew, ⟨hdistinct, hchildren⟩, hown⟩
    refine ⟨?_, ?_⟩
    · rw [resourceNames_cons hname, List.nodup_cons]
      exact ⟨hnew, hdistinct⟩
    · intro others field items hmem
      rcases List.mem_cons.mp hmem with heq | hmem
      · obtain rfl := Document.object.inj heq
        exact hown field items
      · exact hchildren others field items hmem

-- ── One policy and the other ────────────────────────────────────────────────

/-- A field becomes under one policy what it becomes under the other, if that is so of the list
    of children in it. -/
theorem normalizes_reject_iff {field : String} {value normalized : Document}
    (hchildren : ∀ items nested, value = .array items →
      ((unify (rules.under .reject) mappings items).result = .ok nested
        ↔ (unify (rules.under .overwrite) mappings items).result = .ok nested ∧
          DistinctNames rules items)) :
    Normalizes (rules.under .reject) mappings field value normalized
      ↔ Normalizes (rules.under .overwrite) mappings field value normalized ∧
        ∀ items, value = .array items → rules.isChildList field = true →
          DistinctNames rules items := by
  constructor
  · intro h
    cases h with
    | @children items nested hchild hok =>
        obtain ⟨hok, hdistinct⟩ := (hchildren items nested rfl).mp hok
        refine ⟨.children hchild hok, ?_⟩
        intro others heq _
        obtain rfl := Document.array.inj heq
        exact hdistinct
    | templated hnot htemplated =>
        refine ⟨.templated hnot htemplated, ?_⟩
        intro _ _ hchild
        exact Bool.noConfusion (hnot.symm.trans hchild)
    | copied hnot htemplated =>
        refine ⟨.copied hnot htemplated, ?_⟩
        intro _ _ hchild
        exact Bool.noConfusion (hnot.symm.trans hchild)
  · rintro ⟨h, hdistinct⟩
    cases h with
    | @children items nested hchild hok =>
        exact .children hchild ((hchildren items nested rfl).mpr ⟨hok, hdistinct items rfl hchild⟩)
    | templated hnot htemplated => exact .templated hnot htemplated
    | copied hnot htemplated => exact .copied hnot htemplated

/-- The same of all fields of a resource. -/
theorem normalizesFields_reject_iff {fields normalized : Members}
    (hchildren : ∀ field items nested, (field, .array items) ∈ fields →
      ((unify (rules.under .reject) mappings items).result = .ok nested
        ↔ (unify (rules.under .overwrite) mappings items).result = .ok nested ∧
          DistinctNames rules items)) :
    NormalizesFields (rules.under .reject) mappings fields normalized
      ↔ NormalizesFields (rules.under .overwrite) mappings fields normalized ∧
        ∀ field items, (field, .array items) ∈ fields → rules.isChildList field = true →
          DistinctNames rules items := by
  induction fields generalizing normalized with
  | nil =>
      constructor
      · intro h
        cases h
        exact ⟨.nil, fun _ _ hmem => nomatch hmem⟩
      · rintro ⟨h, -⟩
        cases h
        exact .nil
  | cons member fields ih =>
      obtain ⟨field, value⟩ := member
      have hfirst {new : Document} :
          Normalizes (rules.under .reject) mappings field value new
            ↔ Normalizes (rules.under .overwrite) mappings field value new ∧
              ∀ items, value = .array items → rules.isChildList field = true →
                DistinctNames rules items :=
        normalizes_reject_iff fun items nested heq =>
          hchildren field items nested (heq ▸ List.mem_cons_self ..)
      have hothers {others : Members} :
          NormalizesFields (rules.under .reject) mappings fields others
            ↔ NormalizesFields (rules.under .overwrite) mappings fields others ∧
              ∀ field items, (field, .array items) ∈ fields → rules.isChildList field = true →
                DistinctNames rules items :=
        ih fun field items nested hmem =>
          hchildren field items nested (List.mem_cons_of_mem _ hmem)
      constructor
      · intro h
        cases h with
        | cons hhead htail =>
            obtain ⟨hvalue, hown⟩ := hfirst.mp hhead.2
            obtain ⟨htail, hlists⟩ := hothers.mp htail
            refine ⟨.cons ⟨hhead.1, hvalue⟩ htail, ?_⟩
            intro other items hmem hchild
            rcases List.mem_cons.mp hmem with heq | hmem
            · obtain ⟨rfl, rfl⟩ := Prod.mk.inj heq
              exact hown items rfl hchild
            · exact hlists other items hmem hchild
      · rintro ⟨h, hlists⟩
        cases h with
        | cons hhead htail =>
            refine .cons ⟨hhead.1, hfirst.mpr ⟨hhead.2, ?_⟩⟩ (hothers.mpr ⟨htail, ?_⟩)
            · rintro items rfl hchild
              exact hlists field items (List.mem_cons_self ..) hchild
            · intro other items hmem hchild
              exact hlists other items (List.mem_cons_of_mem _ hmem) hchild

/-- **Rejecting is overwriting without repetitions**: a run succeeds under the rejecting policy
    exactly if it succeeds under the overwriting one with the same result, no name is repeated at
    any depth, and none of the names was there before. -/
theorem unifyFrom_reject_iff {resources : List Document} :
    ∀ {index : Nat} {before unified : Members},
      (unifyFrom (rules.under .reject) mappings index before resources).result = .ok unified
        ↔ (unifyFrom (rules.under .overwrite) mappings index before resources).result
              = .ok unified ∧
            DistinctNames rules resources ∧
            ∀ name ∈ resourceNames resources, name ∉ before.names := by
  induction resources using resources_induction with
  | nil =>
      intro index before unified
      rw [unifyFrom_nil_ok_iff, unifyFrom_nil_ok_iff]
      constructor
      · intro h
        refine ⟨h, ⟨List.nodup_nil, ?_⟩, ?_⟩
        · intro fields field items hmem
          exact nomatch hmem
        · intro name hmem
          exact nomatch hmem
      · intro h
        exact h.1
  | cons entry following ih ihchildren =>
      intro index before unified
      have hfields : ∀ {fields normalized : Members}, entry = .object fields →
          (NormalizesFields (rules.under .reject) mappings fields normalized
            ↔ NormalizesFields (rules.under .overwrite) mappings fields normalized ∧
              ∀ field items, (field, .array items) ∈ fields →
                rules.isChildList field = true → DistinctNames rules items) := by
        intro fields normalized hentry
        refine normalizesFields_reject_iff fun field items nested hmem => ?_
        rw [unify_ok_iff, unify_ok_iff, ihchildren fields field items hentry hmem]
        constructor
        · rintro ⟨hok, hdistinct, -⟩
          exact ⟨hok, hdistinct⟩
        · rintro ⟨hok, hdistinct⟩
          exact ⟨hok, hdistinct, fun name _ => List.not_mem_nil⟩
      rw [unifyFrom_cons_ok_iff, unifyFrom_cons_ok_iff]
      constructor
      · rintro ⟨fields, name, normalized, rfl, hname, hnormalizes, hfree, hrest⟩
        obtain ⟨hnormalizes, hlists⟩ := (hfields rfl).mp hnormalizes
        obtain ⟨hrest, hdistinct, hnew⟩ := ih.mp hrest
        have hfree := hfree rfl
        have hapart : ∀ other ∈ resourceNames following, other ≠ name ∧ other ∉ before.names := by
          intro other hother
          have hnot := hnew other hother
          rw [Members.names_insert, if_neg hfree, List.mem_append, List.mem_singleton,
            not_or] at hnot
          exact hnot.symm
        refine ⟨⟨fields, name, normalized, rfl, hname, hnormalizes, (fun h => nomatch h), hrest⟩,
          (distinctNames_cons_iff hname).mpr ⟨?_, hdistinct, hlists⟩, ?_⟩
        · intro hmem
          exact (hapart name hmem).1 rfl
        · rw [resourceNames_cons hname, List.forall_mem_cons]
          exact ⟨hfree, fun other hother => (hapart other hother).2⟩
      · rintro ⟨⟨fields, name, normalized, rfl, hname, hnormalizes, -, hrest⟩, hdistinct, hnew⟩
        obtain ⟨hown, hdistinct, hlists⟩ := (distinctNames_cons_iff hname).mp hdistinct
        rw [resourceNames_cons hname, List.forall_mem_cons] at hnew
        refine ⟨fields, name, normalized, rfl, hname, (hfields rfl).mpr ⟨hnormalizes, hlists⟩,
          fun _ => hnew.1, ih.mpr ⟨hrest, hdistinct, ?_⟩⟩
        intro other hother
        rw [Members.names_insert, if_neg hnew.1, List.mem_append, List.mem_singleton, not_or]
        refine ⟨hnew.2 other hother, ?_⟩
        rintro rfl
        exact hown hother

-- ── Success ─────────────────────────────────────────────────────────────────

/-- The shape of a list does not depend on the policy for duplicates. -/
theorem WellFormedList.under {resources : List Document} (policy : DuplicatePolicy)
    (h : WellFormedList rules resources) : WellFormedList (rules.under policy) resources := by
  induction h with
  | nil => exact .nil
  | cons named listed _ _ ihchildren ihfurther => exact .cons named listed ihchildren ihfurther

/-- **Success is soundness**: a run succeeds exactly if its list gives no offence and, where
    duplicates are rejected, uses no name that was there before. -/
theorem exists_unifyFrom_iff_sound {resources : List Document} {index : Nat} {before : Members} :
    (∃ unified, (unifyFrom rules mappings index before resources).result = .ok unified)
      ↔ Sound rules resources ∧
        (rules.duplicates = .reject → ∀ name ∈ resourceNames resources, name ∉ before.names) := by
  cases hpolicy : rules.duplicates with
  | overwrite =>
      rw [exists_unifyFrom_iff hpolicy]
      constructor
      · intro h
        refine ⟨⟨h, ?_⟩, ?_⟩
        · intro hreject
          exact nomatch hpolicy.symm.trans hreject
        · intro hreject
          exact nomatch hreject
      · intro h
        exact h.1.shape
  | reject =>
      have hrules : rules = rules.under .reject := by rw [Rules.under, ← hpolicy]
      have hshape : (∃ unified, (unifyFrom (rules.under .overwrite) mappings index before
          resources).result = .ok unified) ↔ WellFormedList (rules.under .overwrite) resources :=
        exists_unifyFrom_iff rfl
      constructor
      · rintro ⟨unified, h⟩
        rw [hrules] at h
        obtain ⟨hok, hdistinct, hnew⟩ := unifyFrom_reject_iff.mp h
        have hback := (hshape.mp ⟨unified, hok⟩).under .reject
        rw [show (rules.under .overwrite).under .reject = rules from hrules.symm] at hback
        exact ⟨⟨hback, fun _ => hdistinct⟩, fun _ => hnew⟩
      · rintro ⟨hsound, hnew⟩
        obtain ⟨unified, hok⟩ := hshape.mpr (hsound.shape.under .overwrite)
        refine ⟨unified, ?_⟩
        rw [hrules]
        exact unifyFrom_reject_iff.mpr ⟨hok, hsound.distinct hpolicy, hnew rfl⟩

/-- A list can be unified exactly if it is sound. -/
theorem exists_unify_iff {resources : List Document} :
    (∃ unified, (unify rules mappings resources).result = .ok unified)
      ↔ Sound rules resources := by
  simp only [unify_ok_iff]
  rw [exists_unifyFrom_iff_sound]
  constructor
  · intro h
    exact h.1
  · intro h
    exact ⟨h, fun _ name _ => List.not_mem_nil⟩

/-- Fields can be normalized exactly if they are sound. -/
theorem exists_normalizesFields_iff_sound {fields : Members} :
    (∃ normalized, NormalizesFields rules mappings fields normalized)
      ↔ SoundFields rules fields := by
  rw [exists_normalizesFields_iff]
  constructor
  · intro h field value hmem hchild
    obtain ⟨items, nested, rfl, hok⟩ := exists_normalizes_iff.mp (h field value hmem) hchild
    exact ⟨items, rfl, exists_unify_iff.mp ⟨nested, hok⟩⟩
  · intro h field value hmem
    refine exists_normalizes_iff.mpr fun hchild => ?_
    obtain ⟨items, rfl, hsound⟩ := h field value hmem hchild
    have hunify : ∃ nested, (unify rules mappings items).result = .ok nested :=
      exists_unify_iff.mpr hsound
    obtain ⟨nested, hok⟩ := hunify
    exact ⟨items, nested, rfl, hok⟩

end Stencil
