import Stencil.Proofs.Resource.Reporting

/-!
# Templated texts — what is reported about them, one after the other

The templated texts of a list can be read off the list, in the order in which a unification meets
them (`templatedTexts`). Each is reported with what it lacks, once and under its own field and
owner, and nothing else is reported as missing; a unification that fails has reported some of them
from the front (`reports_unify`). The events of a sequence begin like those of its parts, and are
those of its parts if it succeeds (`Reports.bind`), which carries this along the recursion.
-/

namespace Stencil

open Placeholder

/-- A templated field that holds text, with the resource that has it. -/
structure TemplatedText where
  owner : String
  field : String
  text : String
deriving Repr, DecidableEq

/-- What is reported about a templated text if some keywords are missing in it. -/
def TemplatedText.report (templated : TemplatedText) (missing : List String) : List Event :=
  if missing = [] then []
  else [.undefinedInField templated.field templated.owner missing]

mutual

/-- **The templated texts** of a list of resources and of the lists of children in it, at every
    depth, in the order in which they stand. -/
def templatedTexts (rules : Rules) : List Document → List TemplatedText
  | [] => []
  | entry :: following => textsOfEntry rules entry ++ templatedTexts rules following

/-- The templated texts of an entry. One without a name has none. -/
def textsOfEntry (rules : Rules) : Document → List TemplatedText
  | .object fields =>
      match resourceName? fields with
      | some owner => textsOfFields rules owner fields
      | none => []
  | _ => []

/-- The templated texts among some fields. -/
def textsOfFields (rules : Rules) (owner : String) : List (String × Document) → List TemplatedText
  | [] => []
  | (field, value) :: fields =>
      textsOfField rules owner field value ++ textsOfFields rules owner fields

/-- The templated texts in a field: itself, or those of the children in it. -/
def textsOfField (rules : Rules) (owner field : String) : Document → List TemplatedText
  | .array items => if rules.isChildList field then templatedTexts rules items else []
  | .string text =>
      if rules.isChildList field then []
      else if rules.isTemplated field then [⟨owner, field, text⟩] else []
  | _ => []

end

/-- An event that says which keywords are missing in a field. -/
def Event.isFieldReport : Event → Bool
  | .undefinedInField _ _ _ => true
  | _ => false

namespace Journaled

variable {ε ε' α β : Type}

/-- What a computation says about keywords that are missing in fields, in order. -/
def fieldReports (x : Journaled ε α) : List Event :=
  x.events.filter Event.isFieldReport

/-- A computation reports what is expected of it, or begins to do so and fails. -/
structure Reports (x : Journaled ε α) (expected : List Event) : Prop where
  begins : x.fieldReports <+: expected
  whole : ∀ value, x.result = .ok value → x.fieldReports = expected

theorem Reports.ok (value : α) : Reports (Journaled.ok value : Journaled ε α) [] :=
  ⟨List.nil_prefix, fun _ _ => rfl⟩

/-- A failure begins to report whatever is expected. -/
theorem Reports.fail (fault : ε) (expected : List Event) :
    Reports (Journaled.fail fault : Journaled ε α) expected :=
  ⟨List.nil_prefix, fun _ h => nomatch h⟩

/-- Of some events, those on fields are counted. -/
theorem Reports.report (events : List Event) :
    Reports (Journaled.report events : Journaled ε Unit) (events.filter Event.isFieldReport) :=
  ⟨List.prefix_rfl, fun _ _ => rfl⟩

theorem Reports.mapFault {x : Journaled ε α} {expected : List Event} (h : Reports x expected)
    (f : ε → ε') : Reports (x.mapFault f) expected :=
  ⟨h.begins, fun value hvalue => h.whole value (ok_mapFault_iff.mp hvalue)⟩

/-- **The reports of a sequence** are those of its parts. -/
theorem Reports.bind {first : Journaled ε α} {second : α → Journaled ε β} {a b : List Event}
    (hfirst : Reports first a) (hsecond : ∀ value, Reports (second value) b) :
    Reports (first >>= second) (a ++ b) := by
  cases hresult : first.result with
  | error fault =>
      have hreports : (first >>= second).fieldReports = first.fieldReports :=
        congrArg _ (events_bind_of_error hresult)
      refine ⟨hreports ▸ hfirst.begins.trans (List.prefix_append a b), ?_⟩
      intro value hvalue
      rw [result_bind, hresult] at hvalue
      exact nomatch hvalue
  | ok between =>
      have hreports : (first >>= second).fieldReports = a ++ (second between).fieldReports := by
        rw [fieldReports, events_bind_of_ok hresult, List.filter_append,
          ← hfirst.whole between hresult]
        rfl
      constructor
      · rw [hreports]
        exact (List.prefix_append_right_inj a).mpr (hsecond between).begins
      · intro value hvalue
        rw [result_bind, hresult] at hvalue
        rw [hreports, (hsecond between).whole value hvalue]

/-- What is made of a value changes no report. -/
theorem Reports.bind_ok {x : Journaled ε α} {expected : List Event} (h : Reports x expected)
    (f : α → β) : Reports (x >>= fun value => Journaled.ok (f value)) expected := by
  rw [← List.append_nil expected]
  exact h.bind fun value => .ok (f value)

end Journaled

open Journaled

variable {rules : Rules} {mappings : Mappings}

/-- What is reported about some texts: what each of them lacks, one after the other. -/
def lackReports (mappings : Mappings) (texts : List TemplatedText) : List Event :=
  texts.flatMap fun templated =>
    templated.report (unresolved mappings (resolve mappings templated.text))

theorem lackReports_append (texts others : List TemplatedText) :
    lackReports mappings (texts ++ others)
      = lackReports mappings texts ++ lackReports mappings others :=
  List.flatMap_append

-- ── One field ───────────────────────────────────────────────────────────────

/-- A field reports what the text in it lacks. -/
theorem filter_fieldEvents (owner field text : String) :
    (fieldEvents mappings owner field (.string text)).filter Event.isFieldReport
      = lackReports mappings [⟨owner, field, text⟩] := by
  have hresolution : (resolutionEvents mappings text).filter Event.isFieldReport = [] := by
    rw [List.filter_eq_nil_iff]
    intro event hevent hreport
    cases event with
    | undefinedInField => exact absurd hevent (not_mem_resolutionEvents text)
    | _ => exact Bool.noConfusion hreport
  rw [fieldEvents, List.filter_append, hresolution, List.nil_append, lackReports,
    List.flatMap_singleton, TemplatedText.report]
  by_cases hnone : unresolved mappings (resolve mappings text) = []
  · rw [if_pos (List.isEmpty_iff.mpr hnone), if_pos hnone]
    rfl
  · rw [if_neg (fun h => hnone (List.isEmpty_iff.mp h)), if_neg hnone]
    rfl

/-- **One field** reports what its templated texts lack. -/
theorem reports_normalizeValue {owner field : String} {value : Document}
    (ih : ∀ items, value = .array items →
      Reports (unifyFrom rules mappings 0 [] items)
        (lackReports mappings (templatedTexts rules items))) :
    Reports (normalizeValue rules mappings owner field value)
      (lackReports mappings (textsOfField rules owner field value)) := by
  cases value with
  | array items =>
      rw [normalizeValue, textsOfField]
      cases rules.isChildList field with
      | true =>
          rw [if_pos rfl, if_pos rfl]
          exact ((ih items rfl).mapFault _).bind_ok _
      | false =>
          rw [if_neg Bool.false_ne_true, if_neg Bool.false_ne_true]
          split <;> exact .ok _
  | string text =>
      rw [normalizeValue, textsOfField]
      · cases rules.isChildList field with
        | true =>
            rw [if_pos rfl]
            exact .fail _ _
        | false =>
            rw [if_neg Bool.false_ne_true, if_neg Bool.false_ne_true]
            cases rules.isTemplated field with
            | true =>
                rw [if_pos rfl, if_pos rfl, ← filter_fieldEvents]
                exact (Reports.report _).bind_ok _
            | false => exact .ok _
      · intro items heq
        cases heq
  | _ =>
      rw [normalizeValue, textsOfField]
      · split
        · exact .fail _ _
        · split
          · exact (Reports.report _).bind_ok _
          · exact .ok _
      all_goals
        intro _ heq
        cases heq

/-- The fields of a resource report one after the other. -/
theorem reports_normalizeFields {owner : String} {fields : Members}
    (ih : ∀ field items, (field, .array items) ∈ fields →
      Reports (unifyFrom rules mappings 0 [] items)
        (lackReports mappings (templatedTexts rules items))) :
    Reports (normalizeFields rules mappings owner fields)
      (lackReports mappings (textsOfFields rules owner fields)) := by
  induction fields with
  | nil => exact .ok _
  | cons member fields ihfields =>
      obtain ⟨field, value⟩ := member
      have hvalue : Reports (normalizeValue rules mappings owner field value)
          (lackReports mappings (textsOfField rules owner field value)) := by
        refine reports_normalizeValue ?_
        rintro items rfl
        exact ih field items (List.mem_cons_self ..)
      have hfields := ihfields fun other items hmem => ih other items (List.mem_cons_of_mem _ hmem)
      rw [normalizeFields, textsOfFields, lackReports_append]
      exact hvalue.bind fun normalized => hfields.bind_ok _

-- ── The run ─────────────────────────────────────────────────────────────────

/-- Checking a name reports nothing on fields. -/
theorem reports_checkName (before : Members) (name : String) :
    Reports (checkName rules before name) [] := by
  rw [checkName]
  split
  · split
    · exact .fail _ _
    · exact .report _
  · exact .ok _

/-- **A run** reports what the templated texts of its list lack. -/
theorem reports_unifyFrom {resources : List Document} :
    ∀ {index : Nat} {before : Members},
      Reports (unifyFrom rules mappings index before resources)
        (lackReports mappings (templatedTexts rules resources)) := by
  induction resources using resources_induction with
  | nil =>
      intro index before
      rw [unifyFrom]
      exact (Reports.report _).bind_ok _
  | cons entry following ih ihchildren =>
      intro index before
      rw [templatedTexts, lackReports_append]
      cases entry with
      | object fields =>
          rw [unifyFrom, textsOfEntry]
          cases resourceName? fields with
          | none => exact .fail _ _
          | some name =>
              have hfields : Reports (normalizeFields rules mappings name fields)
                  (lackReports mappings (textsOfFields rules name fields)) :=
                reports_normalizeFields fun field items hmem => ihchildren fields field items rfl hmem
              refine hfields.bind fun normalized => ?_
              exact (reports_checkName before name).bind fun _ => ih
      | _ =>
          rw [unifyFrom]
          · exact .fail _ _
          · intro fields heq
            cases heq

/-- **Reports, text by text**: a list that is unified is reported with what each of its templated
    texts lacks, in the order of the texts; one that is not, with some of that from the front. -/
theorem reports_unify (rules : Rules) (mappings : Mappings) (resources : List Document) :
    Reports (unify rules mappings resources)
      (lackReports mappings (templatedTexts rules resources)) :=
  reports_unifyFrom.mapFault _

end Stencil
