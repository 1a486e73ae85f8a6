import Stencil.Proofs.Placeholder.Stability
import Stencil.Proofs.Resource.TemplatedTexts
import Stencil.Proofs.Source

/-!
# Missing keywords — what faults and events say about them

A source that cannot be read, and a templated field that holds text, are reported with the
keywords that are not mapped. Both reports look at the resolved text. They speak of the text as
it was written as long as what is put in can be told from it and refers to nothing missing
itself (`Transparent`): then the fault and the events of a source name what its text lacks, all
of it and in its order (`document_missing_as_written`), and so do the events of a list of
resources for its templated texts (`unify_missing_as_written`). Otherwise a value that looks like
a placeholder is reported as one.
-/

namespace Stencil

open Placeholder

/-- What is put into a text can be told from it and lacks nothing: its values refer to no keyword
    that is not mapped, and none of them joins with what stands around it. -/
structure Transparent (mappings : Mappings) (text : String) : Prop where
  values : ∀ word ∈ keywords text, ∀ value, mappings.get? word = some value →
    unresolved mappings (substitutionText value) = []
  apart : ¬ ValuesJoin mappings text

/-- Resolving a transparent text leaves the undefined keywords that were there. -/
theorem Transparent.unresolved_resolve {mappings : Mappings} {text : String}
    (h : Transparent mappings text) :
    unresolved mappings (resolve mappings text) = unresolved mappings text :=
  Placeholder.unresolved_resolve h.values h.apart

/-- A list is reported with what its templated texts lack, each under its field and its owner. -/
theorem mem_events_unify {rules : Rules} {mappings : Mappings} {resources : List Document}
    {owner field : String} {missing : List String} {unified : Members}
    (h : (unify rules mappings resources).result = .ok unified) :
    .undefinedInField field owner missing ∈ (unify rules mappings resources).events
      ↔ ∃ text, HoldsText rules owner field text resources ∧ Lacks mappings text missing := by
  constructor
  · exact exists_holdsText_of_mem_events
  · rintro ⟨text, hholds, hlacks⟩
    exact mem_events_of_holdsText hlacks (unify_ok_iff.mp h) hholds

variable {mappings : Mappings}

/-- **Of a source that cannot be read** the fault and the events name what its text lacks. -/
theorem document_missing_as_written {source : Source} {fault : Fault}
    (h : Transparent mappings source.text)
    (hfault : (source.document mappings).result = .error fault) :
    (∃ diagnostic, Document.read (resolve mappings source.text) = .error diagnostic ∧
        fault = .unreadable source.label (diagnostic.message ++
          missingNote mappings (unresolved mappings source.text))) ∧
      (source.document mappings).events = resolutionEvents mappings source.text ++
        Source.missingEvents source.label (unresolved mappings source.text) := by
  obtain ⟨diagnostic, hread, rfl⟩ := Source.document_error_iff.mp hfault
  have hevents := Source.events_document_of_error hread
  rw [h.unresolved_resolve] at hevents ⊢
  exact ⟨⟨diagnostic, hread, rfl⟩, hevents⟩

/-- **Of a list of resources** no event names anything but what a templated text lacks, and if it
    is unified there is one for every such text that lacks something. -/
theorem unify_missing_as_written {rules : Rules} {resources : List Document}
    (h : ∀ owner field text, HoldsText rules owner field text resources →
      Transparent mappings text)
    (owner field : String) (missing : List String) :
    (.undefinedInField field owner missing ∈ (unify rules mappings resources).events →
        ∃ text, HoldsText rules owner field text resources ∧
          missing = unresolved mappings text ∧ missing ≠ []) ∧
      ∀ unified text, (unify rules mappings resources).result = .ok unified →
        HoldsText rules owner field text resources →
        missing = unresolved mappings text → missing ≠ [] →
        .undefinedInField field owner missing ∈ (unify rules mappings resources).events := by
  constructor
  · intro hevent
    obtain ⟨text, hholds, hmissing, hne⟩ := exists_holdsText_of_mem_events hevent
    rw [(h owner field text hholds).unresolved_resolve] at hmissing
    exact ⟨text, hholds, hmissing, hne⟩
  · intro unified text hok hholds hmissing hne
    refine (mem_events_unify hok).mpr ⟨text, hholds, ?_, hne⟩
    rw [(h owner field text hholds).unresolved_resolve]
    exact hmissing

/-- **MISSING AS WRITTEN**: where what is put in is transparent, resolving a text changes nothing
    about what it lacks, a source that cannot be read is reported with what its text lacks, and a
    list of resources with what its templated texts lack. These are reported text by text, in the
    order in which they stand, and each that is transparent as it was written. -/
theorem missing_as_written (mappings : Mappings) :
    (∀ text, Transparent mappings text →
      unresolved mappings (resolve mappings text) = unresolved mappings text) ∧
    (∀ (source : Source) (fault : Fault), Transparent mappings source.text →
      (source.document mappings).result = .error fault →
      (∃ diagnostic, Document.read (resolve mappings source.text) = .error diagnostic ∧
        fault = .unreadable source.label (diagnostic.message ++
          missingNote mappings (unresolved mappings source.text))) ∧
      (source.document mappings).events = resolutionEvents mappings source.text ++
        Source.missingEvents source.label (unresolved mappings source.text)) ∧
    (∀ (rules : Rules) (resources : List Document),
      (∀ owner field text, HoldsText rules owner field text resources →
        Transparent mappings text) →
      ∀ owner field missing,
        (.undefinedInField field owner missing ∈ (unify rules mappings resources).events →
          ∃ text, HoldsText rules owner field text resources ∧
            missing = unresolved mappings text ∧ missing ≠ []) ∧
        ∀ unified text, (unify rules mappings resources).result = .ok unified →
          HoldsText rules owner field text resources →
          missing = unresolved mappings text → missing ≠ [] →
          .undefinedInField field owner missing ∈ (unify rules mappings resources).events) ∧
    ∀ (rules : Rules) (resources : List Document),
      (unify rules mappings resources).Reports
        ((templatedTexts rules resources).flatMap fun templated =>
          templated.report (unresolved mappings (resolve mappings templated.text))) ∧
      ∀ templated ∈ templatedTexts rules resources, Transparent mappings templated.text →
        templated.report (unresolved mappings (resolve mappings templated.text))
          = templated.report (unresolved mappings templated.text) :=
  ⟨fun _ h => h.unresolved_resolve,
    fun _ _ h hfault => document_missing_as_written h hfault,
    fun _ _ h owner field missing => unify_missing_as_written h owner field missing,
    fun rules resources => ⟨reports_unify rules mappings resources,
      fun templated _ h => congrArg templated.report h.unresolved_resolve⟩⟩

/-- A number, a string that looks like a placeholder for it, and a text with both of them between
    two keywords that are not mapped. -/
def lackingMappings : Mappings :=
  [("n", .number (.integer 1)), ("s", .string "@@n@@")]

def lackingText : String :=
  "@@v@@@@n@@ @@s@@@@u@@"

/-- A page with a body and with parts that have one each. -/
def pageRules : Rules :=
  { templatedFields := ["body"], childListField := some "parts", duplicates := .reject }

def lackingPages : List Document :=
  [.object [("name", .string "page"),
    ("parts", .array [.object [("body", .string lackingText), ("name", .string "intro")]])]]

/-- The values in the sample text bring no placeholders along. -/
theorem transparent_lackingText : Transparent lackingMappings lackingText where
  values := by
    have hwords : keywords lackingText = ["v", "n", "s", "u"] := by decide +kernel
    rw [hwords]
    intro word hword value hvalue
    simp only [List.mem_cons, List.not_mem_nil, or_false] at hword
    rcases hword with rfl | rfl | rfl | rfl
    · exact nomatch hvalue
    · obtain rfl := Option.some.inj hvalue
      decide +kernel
    · obtain rfl := Option.some.inj hvalue
      decide +kernel
    · exact nomatch hvalue
  apart := by decide +kernel

/-- The sample pages hold a single text. -/
theorem eq_of_holdsText_lackingPages {owner field text : String}
    (h : HoldsText pageRules owner field text lackingPages) : text = lackingText := by
  simp only [lackingPages, holdsText_cons_iff, not_holdsText_nil, List.mem_cons, List.not_mem_nil,
    Prod.mk.injEq, Document.string.injEq, Document.array.injEq, reduceCtorEq, and_false, or_false,
    false_or, false_and, and_true, exists_const, exists_eq_left, ↓existsAndEq] at h
  rcases h with ⟨-, ⟨rfl, -⟩, -, htemplated⟩ | ⟨-, -, held, -, htemplated⟩
  · exact absurd htemplated (by decide)
  · rcases held with ⟨-, rfl⟩ | ⟨rfl, -⟩
    · rfl
    · exact absurd htemplated (by decide)

/-- A source and a templated text that are the same lack the same keywords, and are reported with
    them word for word. -/
theorem missing_as_written_lackingText :
    Transparent lackingMappings lackingText ∧
      (∀ owner field text, HoldsText pageRules owner field text lackingPages →
        Transparent lackingMappings text) ∧
      HoldsText pageRules "intro" "body" lackingText lackingPages ∧
      unresolved lackingMappings (resolve lackingMappings lackingText) = ["v", "u"] ∧
      (Source.document lackingMappings ⟨"page", lackingText⟩).result
        = .error (.unreadable "page" ("expected value at line 1 column 1 " ++
            "(undefined keywords: v, u); did you mean n or s for 'v'?; " ++
            "did you mean n or s for 'u'?")) ∧
      (.undefinedInField "body" "intro" ["v", "u"] ∈
        (unify pageRules lackingMappings lackingPages).events) ∧
      (unify pageRules lackingMappings lackingPages).fieldReports
        = [.undefinedInField "body" "intro" ["v", "u"]] := by
  have hmissing : unresolved lackingMappings lackingText = ["v", "u"] := by decide +kernel
  have hpages : ∀ owner field text, HoldsText pageRules owner field text lackingPages →
      Transparent lackingMappings text := by
    intro owner field text h
    rw [eq_of_holdsText_lackingPages h]
    exact transparent_lackingText
  have hholds : HoldsText pageRules "intro" "body" lackingText lackingPages :=
    .child (List.mem_cons_of_mem _ (List.mem_cons_self ..)) rfl
      (.here rfl (List.mem_cons_self ..) rfl rfl)
  have hread : Document.read (resolve lackingMappings lackingText)
      = .error ⟨.expectedValue, ⟨1, 1⟩⟩ := by decide +kernel
  have hunified : (unify pageRules lackingMappings lackingPages).result = .ok
      [("page", .object [("name", .string "page"),
        ("parts", .object [("intro", .object
          [("body", .string "@@v@@1 \"@@n@@\"@@u@@"), ("name", .string "intro")])])])] := by
    decide +kernel
  have htexts : templatedTexts pageRules lackingPages = [⟨"intro", "body", lackingText⟩] := by
    decide +kernel
  obtain ⟨hresolve, hdocument, hunify, hreports⟩ := missing_as_written lackingMappings
  have hresolved := (hresolve lackingText transparent_lackingText).trans hmissing
  refine ⟨transparent_lackingText, hpages, hholds, hresolved, ?_, ?_, ?_⟩
  · have hfault := (@Source.document_error_iff lackingMappings ⟨"page", lackingText⟩ _).mpr
      ⟨_, hread, rfl⟩
    obtain ⟨⟨diagnostic, hdiagnostic, heq⟩, -⟩ :=
      hdocument ⟨"page", lackingText⟩ _ transparent_lackingText hfault
    obtain rfl := Except.error.inj (hread.symm.trans hdiagnostic)
    rw [heq, hmissing] at hfault
    exact hfault.trans (by decide +kernel)
  · exact (hunify pageRules lackingPages hpages "intro" "body" ["v", "u"]).2 _ lackingText
      hunified hholds hmissing.symm (List.cons_ne_nil _ _)
  · obtain ⟨hall, heach⟩ := hreports pageRules lackingPages
    have hreported := heach ⟨"intro", "body", lackingText⟩
      (htexts ▸ List.mem_singleton_self _) transparent_lackingText
    rw [hall.whole _ hunified, htexts, List.flatMap_singleton, hreported, hmissing]
    rfl

/-- **Not always as written**: a string that looks like a placeholder is reported as missing,
    although the source does not refer to it. -/
theorem not_missing_as_written :
    ¬ ∀ (mappings : Mappings) (source : Source) (diagnostic : Document.Diagnostic),
        Document.read (resolve mappings source.text) = .error diagnostic →
        (source.document mappings).result = .error (.unreadable source.label
          (diagnostic.message ++ missingNote mappings (unresolved mappings source.text))) := by
  intro hall
  have hread : Document.read
      (resolve [("page", .string "@@home@@")] "\x7b\"page\":@@page@@")
        = .error ⟨.endInObject, ⟨1, 18⟩⟩ := by decide +kernel
  have hfault := hall [("page", .string "@@home@@")] ⟨"page.json", "\x7b\"page\":@@page@@"⟩ _ hread
  exact absurd hfault (by decide +kernel)

end Stencil
