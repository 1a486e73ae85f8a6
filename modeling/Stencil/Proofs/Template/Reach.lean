import Stencil.Proofs.Document.Position
import Stencil.Proofs.Lines
import Stencil.Proofs.Repetitions
import Stencil.Proofs.Template.Vacancies

/-!
# Reach — how far the reader comes in a template that is not filled

A vacant hole leaves its placeholder where a value is due, and an at-sign starts none. Everything
in front of the first vacant hole is resolved to text that the reader takes as it would take it
in the filled template. So it comes exactly as far as that hole, whatever is open around it, and
fails there (`FirstVacancy.run`): the induction is on the way down to the hole, and a part in
front of it is passed by the simulation that reads the text of a document. Since sources are one
line, the place of the failure is a column, and the fault names the words of the vacant holes,
and no others (`document_firstVacancy`).
-/

namespace Stencil

open Placeholder

namespace Template

open Document (State Frame nestingLimit)

variable {mappings : Mappings}

-- ── Parts in front of the hole ──────────────────────────────────────────────

/-- A part without vacant holes is passed as the document that it becomes. -/
theorem run_source_of_allMapped {template : Template} (hwell : template.WellFormed)
    (hexact : template.Exact) (hvalues : PlainValues mappings template.holes)
    (hmapped : AllMapped mappings template.holes) {frames : List Frame} {rest : List Char}
    (hnest : frames.length + (template.fill (valueOf mappings)).nesting ≤ nestingLimit)
    (hrest : Document.EndsNumber rest) :
    Document.run (.value frames) (resolved mappings template.source ++ rest)
      = Document.run (.after (template.fill (valueOf mappings)) frames) rest := by
  have hfilled := exact_fill template hexact (hmapped.exact hvalues)
  rw [Template.resolved_source template hwell hmapped.get?]
  exact Document.run_render .compact _ 0 frames rest hfilled hnest hrest

/-- Filled or not, a resolved source begins with a character that is due where an item is. -/
theorem exists_resolved_source_eq_cons {template : Template} (hwell : template.WellFormed)
    (hexact : template.Exact) (hvalues : PlainValues mappings template.holes) :
    ∃ c rest, resolved mappings template.source = c :: rest ∧
      Document.isBlank c = false ∧ c ≠ ']' := by
  by_cases hmapped : AllMapped mappings template.holes
  · rw [Template.resolved_source template hwell hmapped.get?]
    exact Document.exists_render_eq_cons .compact 0
      (exact_fill template hexact (hmapped.exact hvalues))
  · obtain ⟨before, word, behind, hfirst⟩ := exists_firstVacancy template hmapped
    cases hfirst with
    | hole h => exact ⟨'@', _, resolved_vacant hwell h, rfl, by decide⟩
    | array h => exact ⟨'[', _, resolved_source_array mappings _, rfl, by decide⟩
    | object h => exact ⟨'{', _, resolved_source_object mappings _, rfl, by decide⟩

-- ── States around the hole ──────────────────────────────────────────────────

/-- An item is due, behind those that are done. -/
def ItemDue (state : State) (done : List Document) (frames : List Frame) : Prop :=
  ∀ c rest, Document.isBlank c = false → c ≠ ']' →
    Document.run state (c :: rest) = Document.run (.value (.list done :: frames)) (c :: rest)

/-- Behind the opening bracket an item is due. -/
theorem itemDue_firstItem (frames : List Frame) : ItemDue (.firstItem frames) [] frames := by
  intro c rest hblank hbracket
  refine Document.run_of_step_eq hblank ?_
  rw [Document.step, Document.step, if_neg hbracket]

theorem itemDue_nextItem (done : List Document) (frames : List Frame) :
    ItemDue (.nextItem done frames) done frames := by
  intro c rest hblank hbracket
  refine Document.run_of_step_eq hblank ?_
  rw [Document.step, Document.step, if_neg hbracket]

/-- Where an item is due, the source of one is read as a value. -/
theorem ItemDue.run_source {state : State} {done : List Document} {frames : List Frame}
    (h : ItemDue state done frames) {template : Template} (hwell : template.WellFormed)
    (hexact : template.Exact) (hvalues : PlainValues mappings template.holes)
    (rest : List Char) :
    Document.run state (resolved mappings template.source ++ rest)
      = Document.run (.value (.list done :: frames))
          (resolved mappings template.source ++ rest) := by
  obtain ⟨c, tail, heq, hblank, hbracket⟩ := exists_resolved_source_eq_cons hwell hexact hvalues
  rw [heq, List.cons_append]
  exact h c _ hblank hbracket

/-- A name is due, behind the members that are done. -/
def NameDue (state : State) (done : Members) (frames : List Frame) : Prop :=
  ∀ name rest, Document.run state (quoted name ++ rest)
    = Document.run (.colon done name frames) rest

/-- An at-sign starts no value. -/
theorem run_placeholder (word : List Char) (frames : List Frame) (rest : List Char) :
    Document.run (.value frames) (placeholder word ++ rest)
      = .error (.onFirst .expectedValue (placeholder word ++ rest)) := by
  rw [placeholder_append, Document.run]
  rfl

-- ── The run ─────────────────────────────────────────────────────────────────

mutual

/-- **THE READER COMES AS FAR AS THE FIRST VACANCY**, and fails on its placeholder. -/
theorem FirstVacancy.run {template : Template} {before behind : List Char} {word : String} :
    FirstVacancy mappings template before word behind →
      template.WellFormed → template.Exact → PlainValues mappings template.holes →
      ∀ (frames : List Frame) (rest : List Char),
        frames.length + (template.fill (valueOf mappings)).nesting ≤ nestingLimit →
        Document.run (.value frames) (resolved mappings template.source ++ rest)
          = .error (.onFirst .expectedValue
              (placeholder word.toList ++ (resolved mappings behind ++ rest)))
  | .hole h, hwell, _, _, frames, rest, _ => by
      rw [source, resolved_vacant hwell h, resolved_nil, List.nil_append]
      exact run_placeholder _ frames rest
  | .array h, hwell, hexact, hvalues, frames, rest, hnest => by
      simp only [fill, Document.nesting] at hnest
      have hroom : frames.length < nestingLimit := by omega
      rw [resolved_source_array, List.cons_append, List.append_assoc, Document.run_openList hroom,
        h.run hwell hexact hvalues _ [] frames _ (itemDue_firstItem frames) (by omega),
        resolved_append_separator mappings isSeparator_bracket, resolved_nil, List.append_assoc]
  | .object h, hwell, hexact, hvalues, frames, rest, hnest => by
      simp only [fill, Document.nesting] at hnest
      have hroom : frames.length < nestingLimit := by omega
      rw [resolved_source_object, List.cons_append, List.append_assoc,
        Document.run_openObject hroom,
        h.run hwell hexact.2 hvalues _ [] frames _ (Document.run_firstName frames) (by omega),
        resolved_append_separator mappings isSeparator_brace, resolved_nil, List.append_assoc]

theorem FirstVacancyOfItems.run {items : List Template} {before behind : List Char}
    {word : String} :
    FirstVacancyOfItems mappings items before word behind →
      WellFormedItems items → ExactItems items → PlainValues mappings (holesOfItems items) →
      ∀ (state : State) (done : List Document) (frames : List Frame) (rest : List Char),
        ItemDue state done frames →
        frames.length + Document.nestingOfItems (fillItems (valueOf mappings) items) + 1
          ≤ nestingLimit →
        Document.run state (resolved mappings (sourceOfItems items) ++ rest)
          = .error (.onFirst .expectedValue
              (placeholder word.toList ++ (resolved mappings behind ++ rest)))
  | .here h, hwell, hexact, hvalues, state, done, frames, rest, hdue, hnest => by
      simp only [fillItems, Document.nestingOfItems] at hnest
      rw [resolved_sourceOfItems_cons, List.append_assoc,
        hdue.run_source hwell.1 hexact.1 hvalues.left,
        h.run hwell.1 hexact.1 hvalues.left _ _ (by rw [List.length_cons]; omega),
        resolved_append_following mappings _ sourceOfItems_of_nil]
      simp only [List.append_assoc]
  | .there hitem h, hwell, hexact, hvalues, state, done, frames, rest, hdue, hnest => by
      obtain ⟨next, items, rfl⟩ := List.exists_cons_of_ne_nil h.ne_nil
      rw [fillItems, Document.nestingOfItems] at hnest
      rw [resolved_sourceOfItems_cons, List.append_assoc, separator, List.append_assoc,
        List.singleton_append, hdue.run_source hwell.1 hexact.1 hvalues.left,
        run_source_of_allMapped hwell.1 hexact.1 hvalues.left hitem
          (by rw [List.length_cons]; omega) (Document.endsNumber_comma _),
        Document.run_of_takes rfl ⟨_, rfl⟩,
        h.run hwell.2 hexact.2 hvalues.right _ _ frames rest (itemDue_nextItem _ frames) (by omega)]

theorem FirstVacancyOfMembers.run {members : List (String × Template)}
    {before behind : List Char} {word : String} :
    FirstVacancyOfMembers mappings members before word behind →
      WellFormedMembers members → ExactMembers members →
      PlainValues mappings (holesOfMembers members) →
      ∀ (state : State) (done : Members) (frames : List Frame) (rest : List Char),
        NameDue state done frames →
        frames.length + Document.nestingOfMembers (fillMembers (valueOf mappings) members) + 1
          ≤ nestingLimit →
        Document.run state (resolved mappings (sourceOfMembers members) ++ rest)
          = .error (.onFirst .expectedValue
              (placeholder word.toList ++ (resolved mappings behind ++ rest)))
  | .here h, hwell, hexact, hvalues, state, done, frames, rest, hdue, hnest => by
      obtain ⟨hname, hwell, -⟩ := hwell
      simp only [fillMembers, Document.nestingOfMembers] at hnest
      rw [resolved_sourceOfMembers_cons, resolved_quoted mappings hname, List.append_assoc, hdue,
        List.cons_append, List.append_assoc, Document.run_of_takes rfl ⟨_, rfl⟩,
        h.run hwell hexact.1 hvalues.left _ _ (by rw [List.length_cons]; omega),
        resolved_append_following mappings _ sourceOfMembers_of_nil]
      simp only [List.append_assoc]
  | .there hvalue h, hwell, hexact, hvalues, state, done, frames, rest, hdue, hnest => by
      obtain ⟨next, members, rfl⟩ := List.exists_cons_of_ne_nil h.ne_nil
      obtain ⟨hname, hwell, hmembers⟩ := hwell
      rw [fillMembers, Document.nestingOfMembers] at hnest
      rw [resolved_sourceOfMembers_cons, resolved_quoted mappings hname, List.append_assoc, hdue,
        List.cons_append, List.append_assoc, separator, List.append_assoc, List.singleton_append,
        Document.run_of_takes rfl ⟨_, rfl⟩,
        run_source_of_allMapped hwell hexact.1 hvalues.left hvalue
          (by rw [List.length_cons]; omega) (Document.endsNumber_comma _),
        Document.run_of_takes rfl ⟨_, rfl⟩,
        h.run hmembers hexact.2 hvalues.right _ _ frames rest (Document.run_nextName _ frames)
          (by omega)]

end

-- ── One line ────────────────────────────────────────────────────────────────

/-- Word characters do not end a line. -/
theorem isInline_of_isWordChar {c : Char} (h : isWordChar c = true) : Document.IsInline c := by
  have hfrom : ∀ d : Char, 32 ≤ d.toNat → d ≤ c → Document.IsInline c := by
    intro d hd hle
    exact Nat.le_trans hd (UInt32.le_iff_toNat_le.mp hle)
  simp only [isWordChar, Bool.or_eq_true, Bool.and_eq_true, decide_eq_true_eq, beq_iff_eq] at h
  rcases h with ((⟨hupper, -⟩ | ⟨hlower, -⟩) | ⟨hdigit, -⟩) | rfl
  · exact hfrom 'A' (by decide) hupper
  · exact hfrom 'a' (by decide) hlower
  · exact hfrom '0' (by decide) hdigit
  · decide

/-- Placeholders are one line. -/
theorem isInline_of_mem_placeholder {word : List Char} (h : IsWord word) :
    ∀ c ∈ placeholder word, Document.IsInline c := by
  have hat : Document.IsInline '@' := by decide
  simp only [placeholder, List.forall_mem_append, List.forall_mem_cons, List.not_mem_nil,
    IsEmpty.forall_iff, implies_true, and_true]
  exact ⟨⟨hat, hat, fun c hc => isInline_of_isWordChar (h.2 c hc)⟩, hat, hat⟩

mutual

/-- **Sources are one line.** -/
theorem isInline_of_mem_source :
    ∀ template : Template, template.WellFormed → ∀ c ∈ template.source, Document.IsInline c
  | .hole word, h => isInline_of_mem_placeholder h
  | .null, _ => Document.isInline_of_all (by decide)
  | .bool true, _ => Document.isInline_of_all (by decide)
  | .bool false, _ => Document.isInline_of_all (by decide)
  | .number value, _ => Document.isInline_of_mem_render (.number value)
  | .string value, _ => Document.isInline_of_mem_quoted value
  | .array items, h => by
      have hopen : Document.IsInline '[' := by decide
      have hclose : Document.IsInline ']' := by decide
      rw [source, List.forall_mem_cons, List.forall_mem_append, List.forall_mem_singleton]
      exact ⟨hopen, isInline_of_mem_sourceOfItems items h, hclose⟩
  | .object members, h => by
      have hopen : Document.IsInline '{' := by decide
      have hclose : Document.IsInline '}' := by decide
      rw [source, List.forall_mem_cons, List.forall_mem_append, List.forall_mem_singleton]
      exact ⟨hopen, isInline_of_mem_sourceOfMembers members h, hclose⟩

theorem isInline_of_mem_sourceOfItems :
    ∀ items : List Template, WellFormedItems items →
      ∀ c ∈ sourceOfItems items, Document.IsInline c
  | [], _ => fun c hc => nomatch hc
  | item :: items, h => by
      rw [sourceOfItems, List.forall_mem_append, List.forall_mem_append]
      exact ⟨isInline_of_mem_source item h.1, Document.isInline_of_mem_separator items,
        isInline_of_mem_sourceOfItems items h.2⟩

theorem isInline_of_mem_sourceOfMembers :
    ∀ members : List (String × Template), WellFormedMembers members →
      ∀ c ∈ sourceOfMembers members, Document.IsInline c
  | [], _ => fun c hc => nomatch hc
  | (name, value) :: members, h => by
      have hcolon : Document.IsInline ':' := by decide
      obtain ⟨-, hvalue, hmembers⟩ := h
      rw [sourceOfMembers, List.forall_mem_append, List.forall_mem_cons, List.forall_mem_append,
        List.forall_mem_append]
      exact ⟨Document.isInline_of_mem_quoted name, hcolon, isInline_of_mem_source value hvalue,
        Document.isInline_of_mem_separator members,
        isInline_of_mem_sourceOfMembers members hmembers⟩

end

-- ── What the fault says ─────────────────────────────────────────────────────

/-- The words of the vacant holes, each once, in the order of their first occurrence. -/
def vacantWords (mappings : Mappings) (template : Template) : List String :=
  (template.holes.filter fun word => !mappings.has word).eraseDups

/-- The undefined keywords of a resolved source are the words of its vacancies. -/
theorem unresolved_resolve_source {template : Template} (hwell : template.WellFormed)
    (hvalues : PlainValues mappings template.holes) :
    unresolved mappings (resolve mappings (String.ofList template.source))
      = vacantWords mappings template := by
  have hkeywords : keywords (resolve mappings (String.ofList template.source))
      = vacantWords mappings template := by
    rw [resolve_eq_ofList_resolved, String.toList_ofList]
    show (mentioned (String.ofList _).toList).eraseDups = _
    rw [String.toList_ofList, mentioned_resolved_source template hwell hvalues, vacantWords]
  rw [unresolved, hkeywords, vacantWords, filter_eraseDups, List.filter_filter]
  simp only [Bool.and_self]

/-- **The source fails** on the placeholder of the first vacant hole. -/
theorem read_resolve_source {template : Template} {before behind : List Char} {word : String}
    (h : FirstVacancy mappings template before word behind) (hwell : template.WellFormed)
    (hexact : template.Exact) (hvalues : PlainValues mappings template.holes)
    (hnest : (template.fill (valueOf mappings)).nesting ≤ nestingLimit) :
    Document.read (resolve mappings (String.ofList template.source))
      = .error ⟨.expectedValue,
          ⟨1, (resolve mappings (String.ofList before)).utf8ByteSize + 1⟩⟩ := by
  have hrun := h.run hwell hexact hvalues [] [] (by rwa [List.length_nil, Nat.zero_add])
  rw [List.append_nil, List.append_nil] at hrun
  have hbefore : '\n' ∉ before := by
    intro hmem
    have hsource : '\n' ∈ template.source := by
      rw [h.source_eq]
      exact List.mem_append_left _ hmem
    exact absurd (isInline_of_mem_source template hwell _ hsource) (by decide)
  have hfront := (lineFeed_not_mem_resolved hbefore : '\n' ∉ resolved mappings before)
  have hplace := Document.locate_onFirst hfront (show '@' ≠ '\n' by decide) .expectedValue
    ('@' :: (word.toList ++ '@' :: '@' :: resolved mappings behind))
  rw [Document.read, resolve_eq_ofList_resolved, resolve_eq_ofList_resolved, String.toList_ofList,
    String.toList_ofList, hrun, h.resolved_source_vacant hwell, placeholder_append,
    Document.utf8ByteSize_ofList, String.toList_ofList]
  exact congrArg Except.error hplace

/-- The message about a missing value in the only line. -/
theorem message_expectedValue (column : Nat) :
    Document.Diagnostic.message ⟨.expectedValue, ⟨1, column⟩⟩
      = "expected value at line 1 column " ++ toString column := by
  have hfront : "expected value" ++ " at line " ++ toString 1 ++ " column "
      = "expected value at line 1 column " := by decide
  rw [← hfront]
  rfl

/-- The note on undefined keywords lists them and offers others. -/
theorem missingNote_of_mem {words : List String} {word : String} (h : word ∈ words) :
    missingNote mappings words = " (undefined keywords: " ++ ", ".intercalate words ++ ")" ++
      String.join (words.map (didYouMean mappings)) := by
  cases words with
  | nil => exact nomatch h
  | cons first words => rfl

end Template

/-- **A MISSING WORD IS REPORTED WHERE IT STANDS**: if not all holes of a template are filled, its
    source fails right where the first vacant one stands in the resolved text, and the fault
    names the words of all vacant holes, in order, and no others. -/
theorem document_firstVacancy (label : String) (template : Template) (mappings : Mappings)
    (hwell : template.WellFormed) (hexact : template.Exact)
    (hvacant : ∃ word ∈ template.holes, mappings.has word = false)
    (hvalues : ∀ word ∈ template.holes, ∀ value, mappings.get? word = some value →
      value.Exact ∧ keywords (substitutionText value) = [])
    (hnest : (template.fill (Template.valueOf mappings)).nesting ≤ Document.nestingLimit) :
    ∃ before word behind,
      template.FirstVacancy mappings before word behind ∧
      template.holes.find? (fun word => !mappings.has word) = some word ∧
      template.source = before ++ (placeholder word.toList ++ behind) ∧
      resolve mappings (String.ofList template.source)
        = resolve mappings (String.ofList before) ++ (String.ofList (placeholder word.toList)
          ++ resolve mappings (String.ofList behind)) ∧
      ((Source.mk label (String.ofList template.source)).document mappings).result
        = .error (.unreadable label ("expected value at line 1 column "
            ++ toString ((resolve mappings (String.ofList before)).utf8ByteSize + 1)
            ++ (" (undefined keywords: "
              ++ ", ".intercalate (template.vacantWords mappings) ++ ")"
              ++ String.join ((template.vacantWords mappings).map (didYouMean mappings))))) := by
  have hopen : ¬ Template.AllMapped mappings template.holes := by
    obtain ⟨word, hword, hunmapped⟩ := hvacant
    intro hmapped
    rw [hmapped word hword] at hunmapped
    exact nomatch hunmapped
  obtain ⟨before, word, behind, hfirst⟩ := Template.exists_firstVacancy template hopen
  have hfind := hfirst.find?_holes
  have hmissing : word ∈ template.vacantWords mappings := by
    rw [Template.vacantWords, List.mem_eraseDups, List.mem_filter, hfirst.not_has]
    exact ⟨List.mem_of_find?_eq_some hfind, rfl⟩
  refine ⟨before, word, behind, hfirst, hfind, hfirst.source_eq, ?_, ?_⟩
  · rw [resolve_eq_ofList_resolved, resolve_eq_ofList_resolved, resolve_eq_ofList_resolved,
      String.toList_ofList, String.toList_ofList, String.toList_ofList,
      hfirst.resolved_source_vacant hwell, String.ofList_append, String.ofList_append]
  · refine Source.document_error_iff.mpr ⟨_,
      Template.read_resolve_source hfirst hwell hexact hvalues hnest, ?_⟩
    rw [Template.unresolved_resolve_source hwell hvalues, Template.missingNote_of_mem hmissing,
      Template.message_expectedValue]

/-- A page with three vacant holes, two of them under one word, behind and around filled ones. -/
def vacantPage : Template :=
  .object
    [("mark@@", .array [.string "@@", .hole "title", .number (.integer (-40))]),
      ("@@", .object [("x", .array [.hole "gone", .hole "n"]), ("y", .hole "lost")]),
      ("again", .hole "gone")]

/-- A number, and a string with escapes and at-signs whose bytes are more than its characters. -/
def vacantMappings : Mappings :=
  [("n", .number (.integer 12)), ("title", .string "é\"\n@@")]

/-- A page with two vacancies, one of them twice, behind a value whose bytes outnumber its
    characters. -/
theorem document_firstVacancy_vacantPage :
    vacantPage.WellFormed ∧ vacantPage.Exact ∧
      (∃ word ∈ vacantPage.holes, vacantMappings.has word = false) ∧
      (vacantPage.fill (Template.valueOf vacantMappings)).nesting ≤ Document.nestingLimit ∧
      resolve vacantMappings (String.ofList vacantPage.source)
        = "\x7b\"mark@@\":[\"@@\",\"é\\\"\\n@@\",-40],\"@@\":\x7b\"x\":[@@gone@@,12],"
          ++ "\"y\":@@lost@@\x7d,\"again\":@@gone@@\x7d" ∧
      ((Source.mk "page.json" (String.ofList vacantPage.source)).document vacantMappings).result
        = .error (.unreadable "page.json"
          "expected value at line 1 column 44 (undefined keywords: gone, lost)") ∧
      ∃ before behind,
        vacantPage.FirstVacancy vacantMappings before "gone" behind ∧
        vacantPage.source = before ++ (placeholder "gone".toList ++ behind) ∧
        ((Source.mk "page.json" (String.ofList vacantPage.source)).document vacantMappings).result
          = .error (.unreadable "page.json" ("expected value at line 1 column "
            ++ toString ((resolve vacantMappings (String.ofList before)).utf8ByteSize + 1)
            ++ " (undefined keywords: gone, lost)")) := by
  have hmark : keywords "mark@@" = [] := by decide +kernel
  have hat : keywords "@@" = [] := by decide +kernel
  have hx : keywords "x" = [] := by decide +kernel
  have hy : keywords "y" = [] := by decide +kernel
  have hagain : keywords "again" = [] := by decide +kernel
  have htitle : IsWord "title".toList := by decide
  have hgone : IsWord "gone".toList := by decide
  have hn : IsWord "n".toList := by decide
  have hlost : IsWord "lost".toList := by decide
  have hwell : vacantPage.WellFormed :=
    ⟨hmark, ⟨hat, htitle, trivial, trivial⟩,
      hat, ⟨hx, ⟨hgone, hn, trivial⟩, hy, hlost, trivial⟩, hagain, hgone, trivial⟩
  have hexact : vacantPage.Exact :=
    ⟨by decide, ⟨trivial, trivial, trivial, trivial⟩,
      ⟨by decide, ⟨trivial, trivial, trivial⟩, trivial, trivial⟩, trivial, trivial⟩
  have hvacant : ∃ word ∈ vacantPage.holes, vacantMappings.has word = false :=
    ⟨"gone", by decide, by decide⟩
  have hvalues : ∀ word ∈ vacantPage.holes, ∀ value, vacantMappings.get? word = some value →
      value.Exact ∧ keywords (substitutionText value) = [] := by
    rw [show vacantPage.holes = ["title", "gone", "n", "lost", "gone"] by decide]
    intro word hword value hvalue
    simp only [List.mem_cons, List.not_mem_nil, or_false] at hword
    rcases hword with rfl | rfl | rfl | rfl | rfl
    · obtain rfl := Option.some.inj hvalue
      exact ⟨trivial, by decide +kernel⟩
    · exact nomatch hvalue
    · obtain rfl := Option.some.inj hvalue
      exact ⟨trivial, by decide +kernel⟩
    · exact nomatch hvalue
    · exact nomatch hvalue
  have hnest : (vacantPage.fill (Template.valueOf vacantMappings)).nesting
      ≤ Document.nestingLimit := by decide
  obtain ⟨before, word, behind, hfirst, hfind, hsource, -, hfault⟩ :=
    document_firstVacancy "page.json" vacantPage vacantMappings hwell hexact hvacant hvalues hnest
  obtain rfl : "gone" = word := Option.some.inj hfind
  have hnote : " (undefined keywords: "
      ++ ", ".intercalate (vacantPage.vacantWords vacantMappings) ++ ")"
      ++ String.join ((vacantPage.vacantWords vacantMappings).map (didYouMean vacantMappings))
      = " (undefined keywords: gone, lost)" := by decide +kernel
  rw [hnote] at hfault
  exact ⟨hwell, hexact, hvacant, hnest, by decide +kernel, by decide +kernel, before, behind,
    hfirst, hsource, hfault⟩

end Stencil
