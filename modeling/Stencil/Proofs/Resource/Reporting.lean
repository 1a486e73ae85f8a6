import Stencil.Proofs.Resource.Overwriting

/-!
# Reporting — what a unification says about missing keywords

While a list is unified, a templated field that holds text is reported if its resolved text
refers to keywords that are not mapped. Such an event is followed down to the field it is about:
what one field reports (`mem_events_normalizeValue_iff`), what the fields of an entry report, and
what a run over a list reports (`exists_holdsText_of_mem_events`). A run that succeeds leaves no
such field out, at any depth (`mem_events_of_holdsText`).
-/

namespace Stencil

open Placeholder

/-- Somewhere in a list of resources, at any depth, a resource has a templated field that holds
    this text. -/
inductive HoldsText (rules : Rules) (owner field text : String) : List Document → Prop where
  | here {fields : Members} {following : List Document}
      (named : fields.get? nameField = some (.string owner))
      (held : (field, .string text) ∈ fields)
      (single : rules.isChildList field = false) (templated : rules.isTemplated field = true) :
      HoldsText rules owner field text (.object fields :: following)
  | child {fields : Members} {following items : List Document} {list : String}
      (held : (list, .array items) ∈ fields) (listed : rules.isChildList list = true)
      (below : HoldsText rules owner field text items) :
      HoldsText rules owner field text (.object fields :: following)
  | further {entry : Document} {following : List Document}
      (behind : HoldsText rules owner field text following) :
      HoldsText rules owner field text (entry :: following)

theorem not_holdsText_nil {rules : Rules} {owner field text : String} :
    ¬ HoldsText rules owner field text [] := nofun

/-- A text is in the fields of the first entry, in its children, or behind it. -/
theorem holdsText_cons_iff {rules : Rules} {owner field text : String} {fields : Members}
    {following : List Document} :
    HoldsText rules owner field text (.object fields :: following)
      ↔ (fields.get? nameField = some (.string owner) ∧ (field, .string text) ∈ fields ∧
          rules.isChildList field = false ∧ rules.isTemplated field = true) ∨
        (∃ list items, (list, .array items) ∈ fields ∧ rules.isChildList list = true ∧
          HoldsText rules owner field text items) ∨
        HoldsText rules owner field text following := by
  constructor
  · intro h
    cases h with
    | here named held single templated => exact .inl ⟨named, held, single, templated⟩
    | child held listed below => exact .inr (.inl ⟨_, _, held, listed, below⟩)
    | further behind => exact .inr (.inr behind)
  · rintro (⟨named, held, single, templated⟩ | ⟨list, items, held, listed, below⟩ | behind)
    · exact .here named held single templated
    · exact .child held listed below
    · exact .further behind

/-- The keywords that a text still refers to without effect once it is resolved, if any. -/
def Lacks (mappings : Mappings) (text : String) (missing : List String) : Prop :=
  missing = unresolved mappings (resolve mappings text) ∧ missing ≠ []

variable {rules : Rules} {mappings : Mappings} {owner field : String} {missing : List String}

-- ── One field ───────────────────────────────────────────────────────────────

theorem not_mem_resolutionEvents (text : String) :
    .undefinedInField field owner missing ∉ resolutionEvents mappings text := by
  unfold resolutionEvents
  split
  · exact List.not_mem_nil
  · simp only
    split
    · simp
    · simp

/-- A text is reported with what it lacks, under its field and its owner. -/
theorem mem_fieldEvents_iff {holder place : String} {value : Document} :
    .undefinedInField field owner missing ∈ fieldEvents mappings holder place value
      ↔ (holder = owner ∧ place = field) ∧
        ∃ text, value = .string text ∧ Lacks mappings text missing := by
  cases value with
  | string text =>
      simp only [fieldEvents, List.mem_append, not_mem_resolutionEvents, false_or]
      constructor
      · intro h
        split at h
        · exact absurd h List.not_mem_nil
        · next hne =>
            rw [List.mem_singleton] at h
            obtain ⟨rfl, rfl, rfl⟩ := Event.undefinedInField.inj h
            refine ⟨⟨rfl, rfl⟩, text, rfl, rfl, ?_⟩
            intro hnil
            exact hne (List.isEmpty_iff.mpr hnil)
      · rintro ⟨⟨rfl, rfl⟩, other, heq, rfl, hne⟩
        obtain rfl := Document.string.inj heq
        rw [if_neg (fun hempty => hne (List.isEmpty_iff.mp hempty))]
        exact List.mem_singleton_self _
  | _ =>
      constructor
      · intro h
        exact absurd h List.not_mem_nil
      · rintro ⟨-, text, heq, -⟩
        exact nomatch heq

/-- **What one field reports**: a templated text what it lacks, a child list whatever its own
    unification reports, and any other field nothing. -/
theorem mem_events_normalizeValue_iff {holder place : String} {value : Document} :
    .undefinedInField field owner missing ∈
        (normalizeValue rules mappings holder place value).events
      ↔ (rules.isChildList place = false ∧ rules.isTemplated place = true ∧
          (holder = owner ∧ place = field) ∧
          ∃ text, value = .string text ∧ Lacks mappings text missing) ∨
        (rules.isChildList place = true ∧ ∃ items, value = .array items ∧
          .undefinedInField field owner missing ∈
            (unifyFrom rules mappings 0 [] items).events) := by
  unfold normalizeValue
  split
  · next items =>
      cases hchild : rules.isChildList place with
      | true =>
          rw [if_pos rfl, Journaled.mem_events_bind_iff]
          constructor
          · rintro (h | ⟨nested, -, h⟩)
            · exact .inr ⟨rfl, items, rfl, h⟩
            · exact absurd h List.not_mem_nil
          · rintro (⟨h, -⟩ | ⟨-, _, heq, h⟩)
            · exact Bool.noConfusion h
            · obtain rfl := Document.array.inj heq
              exact .inl h
      | false =>
          rw [if_neg Bool.false_ne_true]
          constructor
          · intro h
            split at h
            · exact absurd h List.not_mem_nil
            · exact absurd h List.not_mem_nil
          · rintro (⟨-, -, -, text, heq, -⟩ | ⟨h, -⟩)
            · exact nomatch heq
            · exact Bool.noConfusion h
  · next hvalue =>
      cases hchild : rules.isChildList place with
      | true =>
          rw [if_pos rfl]
          constructor
          · intro h
            exact absurd h List.not_mem_nil
          · rintro (⟨h, -⟩ | ⟨-, items, heq, -⟩)
            · exact Bool.noConfusion h
            · exact absurd heq (hvalue items)
      | false =>
          rw [if_neg Bool.false_ne_true]
          cases htemplated : rules.isTemplated place with
          | true =>
              rw [if_pos rfl, Journaled.mem_events_bind_iff]
              constructor
              · rintro (h | ⟨-, -, h⟩)
                · exact .inl ⟨rfl, rfl, mem_fieldEvents_iff.mp h⟩
                · exact absurd h List.not_mem_nil
              · rintro (⟨-, -, h⟩ | ⟨h, -⟩)
                · exact .inl (mem_fieldEvents_iff.mpr h)
                · exact Bool.noConfusion h
          | false =>
              rw [if_neg Bool.false_ne_true]
              constructor
              · intro h
                exact absurd h List.not_mem_nil
              · rintro (⟨-, h, -⟩ | ⟨h, -⟩)
                · exact Bool.noConfusion h
                · exact Bool.noConfusion h

-- ── The fields of an entry ──────────────────────────────────────────────────

/-- What the fields of an entry report, one of them reports. -/
theorem exists_of_mem_events_normalizeFields {holder : String} {fields : Members} {event : Event}
    (h : event ∈ (normalizeFields rules mappings holder fields).events) :
    ∃ place value, (place, value) ∈ fields ∧
      event ∈ (normalizeValue rules mappings holder place value).events := by
  induction fields with
  | nil =>
      rw [normalizeFields] at h
      exact absurd h List.not_mem_nil
  | cons member fields ih =>
      obtain ⟨place, value⟩ := member
      rw [normalizeFields, Journaled.mem_events_bind_iff] at h
      rcases h with h | ⟨normalized, -, h⟩
      · exact ⟨place, value, List.mem_cons_self .., h⟩
      · rcases Journaled.mem_events_bind_iff.mp h with h | ⟨others, -, h⟩
        · obtain ⟨other, content, hmem, hevent⟩ := ih h
          exact ⟨other, content, List.mem_cons_of_mem _ hmem, hevent⟩
        · exact absurd h List.not_mem_nil

/-- Where all fields are normalized, each of them reports. -/
theorem mem_events_normalizeFields {holder place : String} {fields normalized : Members}
    {value : Document} {event : Event} (hfields : NormalizesFields rules mappings fields normalized)
    (hmem : (place, value) ∈ fields)
    (h : event ∈ (normalizeValue rules mappings holder place value).events) :
    event ∈ (normalizeFields rules mappings holder fields).events := by
  induction hfields with
  | nil => exact absurd hmem List.not_mem_nil
  | @cons old new fields normalized hhead _ ih =>
      obtain ⟨first, content⟩ := old
      rw [normalizeFields, Journaled.mem_events_bind_iff]
      rcases List.mem_cons.mp hmem with heq | hmem
      · obtain ⟨rfl, rfl⟩ := Prod.mk.inj heq
        exact .inl h
      · refine .inr ⟨new.2, normalizeValue_ok_iff.mpr hhead.2, ?_⟩
        exact Journaled.mem_events_bind_iff.mpr (.inl (ih hmem))

-- ── The run ─────────────────────────────────────────────────────────────────

theorem not_mem_events_checkName (unified : Members) (name : String) :
    .undefinedInField field owner missing ∉ (checkName rules unified name).events := by
  unfold checkName
  split
  · split
    · exact List.not_mem_nil
    · simp [Journaled.report]
  · exact List.not_mem_nil

/-- **Nothing is made up**: whatever a run reports as missing is what some templated text of the
    list lacks, whether the run succeeds or not. -/
theorem exists_holdsText_of_mem_events {resources : List Document} :
    ∀ {index : Nat} {before : Members},
      .undefinedInField field owner missing ∈
        (unifyFrom rules mappings index before resources).events →
      ∃ text, HoldsText rules owner field text resources ∧ Lacks mappings text missing := by
  induction resources using resources_induction with
  | nil =>
      intro index before h
      rw [unifyFrom, Journaled.mem_events_bind_iff] at h
      rcases h with h | ⟨-, -, h⟩
      · simp [Journaled.report] at h
      · exact absurd h List.not_mem_nil
  | cons entry following ih ihchildren =>
      intro index before h
      unfold unifyFrom at h
      split at h
      · next heq => exact absurd heq (List.cons_ne_nil _ _)
      · next fields rest heq =>
          obtain ⟨rfl, rfl⟩ := List.cons.inj heq
          split at h
          · exact absurd h List.not_mem_nil
          · next name hname =>
              rcases Journaled.mem_events_bind_iff.mp h with h | ⟨normalized, -, h⟩
              · obtain ⟨place, value, hmem, hevent⟩ := exists_of_mem_events_normalizeFields h
                rcases mem_events_normalizeValue_iff.mp hevent with
                  ⟨hsingle, htemplated, ⟨rfl, rfl⟩, text, rfl, hlacks⟩ | ⟨hlist, items, rfl, hbelow⟩
                · exact ⟨text, .here (resourceName?_eq_some_iff.mp hname) hmem hsingle htemplated,
                    hlacks⟩
                · obtain ⟨text, hholds, hlacks⟩ := ihchildren fields place items rfl hmem hbelow
                  exact ⟨text, .child hmem hlist hholds, hlacks⟩
              · rcases Journaled.mem_events_bind_iff.mp h with h | ⟨-, -, h⟩
                · exact absurd h (not_mem_events_checkName before name)
                · obtain ⟨text, hholds, hlacks⟩ := ih h
                  exact ⟨text, .further hholds, hlacks⟩
      · exact absurd h List.not_mem_nil

/-- **Nothing is left out**: a run that succeeds reports what each templated text of the list
    lacks. -/
theorem mem_events_of_holdsText {resources : List Document} {text : String}
    (hlacks : Lacks mappings text missing) :
    ∀ {index : Nat} {before unified : Members},
      (unifyFrom rules mappings index before resources).result = .ok unified →
      HoldsText rules owner field text resources →
      .undefinedInField field owner missing ∈
        (unifyFrom rules mappings index before resources).events := by
  induction resources using resources_induction with
  | nil =>
      intro index before unified _ hholds
      exact nomatch hholds
  | cons entry following ih ihchildren =>
      intro index before unified hok hholds
      obtain ⟨fields, name, normalized, rfl, hname, hfields, hcheck, hrest⟩ :=
        unifyFrom_cons_ok_iff.mp hok
      have hentry : ∀ {place value}, (place, value) ∈ fields →
          .undefinedInField field owner missing ∈
            (normalizeValue rules mappings name place value).events →
          .undefinedInField field owner missing ∈
            (unifyFrom rules mappings index before (.object fields :: following)).events := by
        intro place value hmem hevent
        rw [unifyFrom, resourceName?_eq_some_iff.mpr hname]
        exact Journaled.mem_events_bind_iff.mpr
          (.inl (mem_events_normalizeFields hfields hmem hevent))
      cases hholds with
      | here named held single templated =>
          obtain rfl := Document.string.inj (Option.some.inj (hname.symm.trans named))
          exact hentry held (mem_events_normalizeValue_iff.mpr
            (.inl ⟨single, templated, ⟨rfl, rfl⟩, text, rfl, hlacks⟩))
      | @child _ _ items list held listed below =>
          obtain ⟨nested, hnested⟩ :=
            exists_normalizesFields_iff.mp ⟨_, hfields⟩ list (.array items) held
          obtain ⟨_, unified, heq, -, hunified⟩ := (normalizes_of_childList listed).mp hnested
          obtain rfl := Document.array.inj heq
          refine hentry held (mem_events_normalizeValue_iff.mpr (.inr ⟨listed, items, rfl, ?_⟩))
          exact ihchildren fields list items rfl held (unify_ok_iff.mp hunified) below
      | further behind =>
          rw [unifyFrom, resourceName?_eq_some_iff.mpr hname]
          refine Journaled.mem_events_bind_iff.mpr
            (.inr ⟨normalized, normalizeFields_ok_iff.mpr hfields, ?_⟩)
          exact Journaled.mem_events_bind_iff.mpr
            (.inr ⟨(), checkName_ok_iff.mpr hcheck, ih hrest behind⟩)

end Stencil
