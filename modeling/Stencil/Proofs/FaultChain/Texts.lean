import Stencil.FaultChain

/-!
# Texts of a chain — what a report shows of them

A report shows a text if it stands in the wording of its fault or in its details. Where a chain
holds no fault, all its texts are told in one story; where its origin is no fault, all of them
stand around the fault that is reported; and where the origin is the only fault, its contexts
stand around it. So a report shows every text of its chain (`report_showsTexts`), with one
exception: a fault wrapped around a fault takes its place, and then the report does not depend on
the origin at all.
-/

namespace Stencil

/-- A text stands somewhere in another one. -/
def StandsIn (text whole : String) : Prop :=
  text.toList <:+: whole.toList

instance (text whole : String) : Decidable (StandsIn text whole) :=
  inferInstanceAs (Decidable (_ <:+: _))

namespace StandsIn

variable {text whole : String}

theorem refl (text : String) : StandsIn text text :=
  List.infix_rfl

/-- What stands in a text still does if something is put behind it. -/
theorem append_right (h : StandsIn text whole) (behind : String) :
    StandsIn text (whole ++ behind) := by
  rw [StandsIn, String.toList_append]
  exact List.infix_append_of_infix_left h

theorem append_left (h : StandsIn text whole) (front : String) :
    StandsIn text (front ++ whole) := by
  rw [StandsIn, String.toList_append]
  exact List.infix_append_of_infix_right h

/-- What is put between texts leaves them whole. -/
theorem intercalate {parts : List String} (h : text ∈ parts) (between : String) :
    StandsIn text (between.intercalate parts) := by
  induction parts with
  | nil => exact nomatch h
  | cons part parts ih =>
      by_cases hnil : parts = []
      · subst hnil
        obtain rfl := List.mem_singleton.mp h
        rw [String.intercalate_singleton]
        exact refl text
      · rw [String.intercalate_cons_of_ne_nil hnil, String.append_assoc]
        rcases List.mem_cons.mp h with rfl | hmem
        · exact (refl text).append_right _
        · exact ((ih hmem).append_left between).append_left part

end StandsIn

/-- A report shows a text: in the wording of its fault, or in its details. -/
def Report.Shows (report : Report) (text : String) : Prop :=
  StandsIn text report.fault.message ∨
    ∃ details, report.details = some details ∧ StandsIn text details

/-- What a report shows stands in it when it is written out. -/
theorem Report.Shows.standsIn_text {report : Report} {text : String} (h : report.Shows text) :
    StandsIn text report.text := by
  rw [Report.text]
  rcases h with hfault | ⟨details, hdetails, hshown⟩
  · exact (hfault.append_right _).append_right _
  · rw [hdetails, Report.paragraph]
    exact ((hshown.append_left _).append_left _).append_right _

namespace FaultChain

variable {chain : FaultChain} {text : String}

-- ── Stories ─────────────────────────────────────────────────────────────────

/-- Every cause stands in the numbered list of causes. -/
theorem standsIn_numbered {causes : List String} (h : text ∈ causes) (n : Nat) :
    StandsIn text (numbered n causes) := by
  induction causes generalizing n with
  | nil => exact nomatch h
  | cons cause causes ih =>
      rw [numbered]
      rcases List.mem_cons.mp h with rfl | hmem
      · exact ((StandsIn.refl text).append_left _).append_right _
      · exact (ih hmem (n + 1)).append_left _

/-- **A story tells all its texts.** -/
theorem standsIn_story {texts : List String} (h : text ∈ texts) :
    StandsIn text (story texts) := by
  match texts with
  | [] => exact nomatch h
  | [only] =>
      obtain rfl := List.mem_singleton.mp h
      exact StandsIn.refl text
  | first :: second :: causes =>
      rw [story]
      rcases List.mem_cons.mp h with rfl | hmem
      · exact ((StandsIn.refl text).append_right _).append_right _
      · exact (standsIn_numbered hmem 1).append_left _
      · exact nofun

-- ── Surroundings ────────────────────────────────────────────────────────────

theorem fault_withSurroundings (surroundings : List String) (report : Report) :
    (withSurroundings surroundings report).fault = report.fault := by
  unfold withSurroundings
  split
  · rfl
  · rfl

/-- **All surroundings are shown**, in front of the details that a fault has by itself. -/
theorem shows_withSurroundings {surroundings : List String} (h : text ∈ surroundings)
    (report : Report) : (withSurroundings surroundings report).Shows text := by
  have hjoined : StandsIn text (": ".intercalate surroundings) := StandsIn.intercalate h _
  have hsome : surroundings.isEmpty = false :=
    List.isEmpty_eq_false_iff.mpr (List.ne_nil_of_mem h)
  unfold withSurroundings
  rw [hsome, if_neg Bool.false_ne_true]
  refine .inr ⟨_, rfl, ?_⟩
  cases report.details with
  | none => exact hjoined
  | some existing => exact (hjoined.append_right _).append_right _

-- ── The fault that is reported ──────────────────────────────────────────────

/-- Some fault is found among contexts that hold one. -/
theorem exists_findSome?_of_mem {contexts : List Context} {outer : Fault}
    (h : .fault outer ∈ contexts) : ∃ found, contexts.findSome? Context.fault? = some found := by
  cases hfound : contexts.findSome? Context.fault? with
  | some found => exact ⟨found, rfl⟩
  | none => exact nomatch List.findSome?_eq_none_iff.mp hfound _ h

/-- Where a context is a fault, the outermost of these is reported, whatever the origin is. -/
theorem fault?_of_mem {outer : Fault} (h : .fault outer ∈ chain.contexts) :
    ∃ found, ∀ origin, FaultChain.fault? ⟨chain.contexts, origin⟩ = some found := by
  obtain ⟨found, hfound⟩ := exists_findSome?_of_mem h
  refine ⟨found, fun origin => ?_⟩
  rw [fault?, hfound]

/-- Where no context is a fault, an origin that is one is reported. -/
theorem fault?_of_origin {known : Fault} (horigin : chain.origin = .fault known)
    (h : ∀ outer, .fault outer ∉ chain.contexts) : chain.fault? = some known := by
  have hnone : chain.contexts.findSome? Context.fault? = none := by
    rw [List.findSome?_eq_none_iff]
    intro context hcontext
    cases context with
    | note words => rfl
    | fault outer => exact absurd hcontext (h outer)
  rw [fault?, hnone, horigin]

/-- A chain with a fault is reported as that fault, with what surrounds it. -/
theorem report_of_fault {fault : Fault} (h : chain.fault? = some fault) :
    chain.report = withSurroundings chain.around fault.report := by
  rw [report, h]

/-- Without a fault the story of a chain is told, whatever its origin is. -/
theorem shows_report_of_no_fault (h : chain.fault? = none) (htext : text ∈ chain.texts) :
    chain.report.Shows text := by
  have hstory := standsIn_story htext
  rw [report, h]
  dsimp only
  split
  · exact .inl hstory
  · exact .inl (hstory.append_left _)
  · exact .inl hstory

/-- The text of a context is among what surrounds the fault. -/
theorem mem_around_of_context {context : Context} (h : context ∈ chain.contexts) :
    context.text ∈ chain.around := by
  have hmem : context.text ∈ chain.contexts.map Context.text := List.mem_map_of_mem h
  unfold around
  split
  · exact hmem
  · exact List.mem_append_left _ hmem

/-- **Every context is shown**, whatever the chain holds besides. -/
theorem shows_report_of_context {context : Context} (h : context ∈ chain.contexts) :
    chain.report.Shows context.text := by
  cases hfault : chain.fault? with
  | some fault =>
      rw [report_of_fault hfault]
      exact shows_withSurroundings (mem_around_of_context h) _
  | none => exact shows_report_of_no_fault hfault (List.mem_append_left _ (List.mem_map_of_mem h))

/-- A fault is wrapped around an origin that is a fault itself. -/
def Shadowed (chain : FaultChain) : Prop :=
  (∃ inner, chain.origin = .fault inner) ∧ ∃ outer, .fault outer ∈ chain.contexts

/-- **The origin is shown** unless a fault is wrapped around it that takes its place. -/
theorem shows_report_of_origin (h : ¬ chain.Shadowed) :
    chain.report.Shows chain.origin.text := by
  have hlast : chain.origin.text ∈ chain.texts :=
    List.mem_append_right _ (List.mem_singleton_self _)
  cases hfault : chain.fault? with
  | none => exact shows_report_of_no_fault hfault hlast
  | some fault =>
      rw [report_of_fault hfault]
      by_cases horigin : ∃ inner, chain.origin = .fault inner
      · -- no context is a fault, so the origin is what is reported
        obtain ⟨inner, horigin⟩ := horigin
        have hnone : ∀ outer, .fault outer ∉ chain.contexts :=
          fun outer houter => h ⟨⟨inner, horigin⟩, outer, houter⟩
        rw [fault?_of_origin horigin hnone] at hfault
        obtain rfl := Option.some.inj hfault
        rw [horigin]
        refine .inl ?_
        rw [fault_withSurroundings]
        exact StandsIn.refl _
      · have haround : chain.around = chain.texts := by
          unfold around
          split
          · next inner heq => exact absurd ⟨inner, heq⟩ horigin
          · rfl
        rw [haround]
        exact shows_withSurroundings hlast _

/-- **EVERY TEXT IS SHOWN**: the report on a chain shows the texts of its origin and of all its
    contexts, unless a fault is wrapped around an origin that is a fault itself. Then it shows
    those of the contexts, and is the same whatever fault the origin is. -/
theorem report_showsTexts (chain : FaultChain) :
    (¬ chain.Shadowed →
        ∀ text ∈ chain.texts, chain.report.Shows text ∧ StandsIn text chain.report.text) ∧
      (chain.Shadowed →
        (∀ context ∈ chain.contexts, chain.report.Shows context.text) ∧
          ∀ inner, report ⟨chain.contexts, .fault inner⟩ = chain.report) := by
  constructor
  · intro hclear text htext
    have hshown : chain.report.Shows text := by
      rcases List.mem_append.mp htext with hcontext | horigin
      · obtain ⟨context, hmem, rfl⟩ := List.mem_map.mp hcontext
        exact shows_report_of_context hmem
      · obtain rfl := List.mem_singleton.mp horigin
        exact shows_report_of_origin hclear
    exact ⟨hshown, hshown.standsIn_text⟩
  · rintro ⟨⟨known, horigin⟩, outer, houter⟩
    refine ⟨fun context hcontext => shows_report_of_context hcontext, fun inner => ?_⟩
    obtain ⟨found, hfound⟩ := fault?_of_mem houter
    have hsame : chain = ⟨chain.contexts, .fault known⟩ := by rw [← horigin]
    rw [report_of_fault (hfound (.fault inner)), hsame, report_of_fault (hfound (.fault known))]
    rfl

/-- A settings text that is no TOML, under a fault and two notes, one of them empty. -/
def tomlChain : FaultChain :=
  ⟨[.note "deploying", .fault (.settings "no settings"), .note ""], .toml "TOML parse error"⟩

/-- A fault under a fault, with a note between them. -/
def shadowedChain : FaultChain :=
  ⟨[.fault (.other "wrapped"), .note "reading"], .fault (.rule "lost")⟩

/-- A chain around a text of settings shows all of its texts. One with a fault wrapped around a rule
    reports the same whatever the rule is. -/
theorem report_showsTexts_sampleChains :
    (¬ tomlChain.Shadowed ∧
      tomlChain.texts
        = ["deploying", "Configuration error: no settings", "", "TOML parse error"] ∧
      tomlChain.report.details
        = some "deploying: Configuration error: no settings: : TOML parse error" ∧
      ∀ text ∈ tomlChain.texts, tomlChain.report.Shows text) ∧
    (shadowedChain.Shadowed ∧
      shadowedChain.report = ⟨.other "wrapped", none, some "wrapped: reading"⟩ ∧
      ∀ inner, report ⟨shadowedChain.contexts, .fault inner⟩ = shadowedChain.report) := by
  have hclear : ¬ tomlChain.Shadowed := by
    rintro ⟨⟨inner, horigin⟩, -⟩
    exact nomatch horigin
  have hshadowed : shadowedChain.Shadowed :=
    ⟨⟨.rule "lost", rfl⟩, .other "wrapped", List.mem_cons_self ..⟩
  refine ⟨⟨hclear, by decide +kernel, by decide +kernel, ?_⟩, hshadowed, by decide +kernel, ?_⟩
  · exact fun text htext => ((report_showsTexts tomlChain).1 hclear text htext).1
  · exact ((report_showsTexts shadowedChain).2 hshadowed).2

/-- **Not always shown**: of two faults, one wrapped around the other, the inner one is lost. -/
theorem not_report_showsTexts :
    ¬ ∀ (chain : FaultChain), ∀ text ∈ chain.texts, chain.report.Shows text := by
  intro hall
  have hreport : shadowedChain.report
      = ⟨.other "wrapped", none, some "wrapped: reading"⟩ := by decide +kernel
  have hlost := hall shadowedChain "Validation failed: lost" (by decide +kernel)
  rw [hreport] at hlost
  rcases hlost with hfault | ⟨details, hdetails, hshown⟩
  · exact absurd hfault (by decide +kernel)
  · obtain rfl := Option.some.inj hdetails
    exact absurd hshown (by decide +kernel)

end FaultChain

end Stencil
