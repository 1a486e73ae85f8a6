import Stencil.Proofs.Document.Content
import Stencil.Proofs.Settings.Order
import Stencil.Proofs.Settings.RoundTrip

/-!
# Meaning — the document that a value of a table stands for

Strings, booleans, whole numbers, lists and tables stand for documents of the same kinds, tables for
objects with their members in the order in which the entries are defined (`Value.Means`). Turning a
value into a document keeps the content and puts the members of all objects in the order of their
names (`Value.Means.exists_ordered`). With values that mean the same written down in a settings text
and in a JSON text, the settings have exactly that document (`exists_ordered_of_ofEntries`).
-/

namespace Stencil

namespace Toml

mutual

/-- **What a value stands for**: members stand in the order in which the entries are defined. -/
inductive Value.Means : Value → Document → Prop where
  | string (text : String) : Value.Means (.string text) (.string text)
  | boolean (value : Bool) : Value.Means (.boolean value) (.bool value)
  | integer {value : Int} (mark : Mark) (fits : IntegerFits value) :
      Value.Means (.integer value mark) (.number (.integer value fits))
  | array {items : List Value} {documents : List Document} (inside : ItemsMean items documents) :
      Value.Means (.array items) (.array documents)
  | table {kind : TableKind} {entries : List (String × Value)} {members : Members}
      (inside : EntriesMean entries members) : Value.Means (.table kind entries) (.object members)
  | tables {elements : List (List (String × Value))} {documents : List Document}
      (inside : TablesMean elements documents) : Value.Means (.tables elements) (.array documents)

/-- The same of the items of a list. -/
inductive ItemsMean : List Value → List Document → Prop where
  | nil : ItemsMean [] []
  | cons {item : Value} {document : Document} {items : List Value} {documents : List Document}
      (first : Value.Means item document) (further : ItemsMean items documents) :
      ItemsMean (item :: items) (document :: documents)

/-- The same of the entries of a table. -/
inductive EntriesMean : List (String × Value) → Members → Prop where
  | nil : EntriesMean [] []
  | cons {key : String} {value : Value} {document : Document} {entries : List (String × Value)}
      {members : Members} (first : Value.Means value document)
      (further : EntriesMean entries members) :
      EntriesMean ((key, value) :: entries) ((key, document) :: members)

/-- The same of the tables of a list. -/
inductive TablesMean : List (List (String × Value)) → List Document → Prop where
  | nil : TablesMean [] []
  | cons {entries : List (String × Value)} {members : Members}
      {elements : List (List (String × Value))} {documents : List Document}
      (first : EntriesMean entries members) (further : TablesMean elements documents) :
      TablesMean (entries :: elements) (.object members :: documents)

end

-- ── Exactness ───────────────────────────────────────────────────────────────

theorem EntriesMean.names_eq {entries : Entries} {members : Members}
    (h : EntriesMean entries members) : members.names = entries.keys := by
  induction entries generalizing members with
  | nil =>
      cases h
      rfl
  | cons entry entries ih =>
      cases h with
      | cons first further => exact congrArg (_ :: ·) (ih further)

theorem Value.distinct_array_iff {items : List Value} :
    (Value.array items).Distinct ↔ ∀ item ∈ items, item.Distinct := by
  constructor
  · intro h
    cases h with
    | single h => exact nomatch h
    | array values => exact values
  · exact .array

mutual

/-- What values stand for is exact if no key stands twice. -/
theorem Value.Means.exact : ∀ {value : Value} {document : Document}, value.Means document →
    value.Distinct → document.Exact
  | _, _, .string _, _ => trivial
  | _, _, .boolean _, _ => trivial
  | _, _, .integer _ _, _ => trivial
  | _, _, .array inside, h => inside.exact (Value.distinct_array_iff.mp h)
  | _, _, .table inside, h => inside.exact (Value.distinct_table_iff.mp h)
  | _, _, .tables inside, h => inside.exact (Value.distinct_tables_iff.mp h)

theorem ItemsMean.exact : ∀ {items : List Value} {documents : List Document},
    ItemsMean items documents → (∀ item ∈ items, item.Distinct) → Document.ExactItems documents
  | _, _, .nil, _ => trivial
  | _, _, .cons first further, h => by
      obtain ⟨hfirst, hfurther⟩ := List.forall_mem_cons.mp h
      exact ⟨first.exact hfirst, further.exact hfurther⟩

theorem EntriesMean.exact : ∀ {entries : List (String × Value)} {members : Members},
    EntriesMean entries members → Entries.Distinct entries → (Document.object members).Exact
  | entries, members, inside, h => by
      refine ⟨?_, inside.exactMembers h.values⟩
      rw [inside.names_eq]
      exact h.keys

theorem EntriesMean.exactMembers : ∀ {entries : List (String × Value)} {members : Members},
    EntriesMean entries members → (∀ entry ∈ entries, entry.2.Distinct) →
      Document.ExactMembers members
  | _, _, .nil, _ => trivial
  | _, _, .cons first further, h => by
      obtain ⟨hfirst, hfurther⟩ := List.forall_mem_cons.mp h
      exact ⟨first.exact hfirst, further.exactMembers hfurther⟩

theorem TablesMean.exact : ∀ {elements : List (List (String × Value))}
    {documents : List Document}, TablesMean elements documents →
      (∀ entries ∈ elements, Entries.Distinct entries) → Document.ExactItems documents
  | _, _, .nil, _ => trivial
  | _, _, .cons first further, h => by
      obtain ⟨hfirst, hfurther⟩ := List.forall_mem_cons.mp h
      exact ⟨first.exact hfirst, further.exact hfurther⟩

end

-- ── Documents in order ──────────────────────────────────────────────────────

/-- Sorted members are in order as an object if their values are. -/
theorem ordered_sortMembers {members changed : Members} (hnames : members.names.Nodup)
    (hcontent : Document.SameMembers members changed)
    (hascends : Document.AscendsMembers changed) :
    (Document.object members).Ordered (.object (sortMembers changed)) := by
  have hperm : (sortMembers changed).Perm changed := sortStable_perm _ _
  rw [hcontent.names_eq] at hnames
  refine ⟨.object hcontent hperm.symm, ascending_sortMembers hnames, ?_⟩
  rw [Document.ascendsMembers_iff] at hascends ⊢
  exact fun member hmem => hascends member (hperm.mem_iff.mp hmem)

mutual

/-- **A value becomes the document that it stands for**, put in order. -/
theorem Value.Means.exists_ordered : ∀ {value : Value} {document : Document},
    value.Means document → value.Distinct →
      ∃ found, value.document? = some found ∧ document.Ordered found
  | _, _, .string _, _ => ⟨_, rfl, .scalar trivial, trivial⟩
  | _, _, .boolean _, _ => ⟨_, rfl, .scalar trivial, trivial⟩
  | _, _, .integer _ fits, _ => ⟨_, dif_pos fits, .scalar trivial, trivial⟩
  | .array items, _, .array inside, h => by
      obtain ⟨found, hfound, hcontent, hascends⟩ :=
        inside.exists_ordered (Value.distinct_array_iff.mp h)
      refine ⟨.array found, ?_, .array hcontent, hascends⟩
      rw [Value.document?, hfound]
      rfl
  | .table kind entries, _, .table inside, h => by
      obtain ⟨found, hfound, hordered⟩ := inside.exists_ordered (Value.distinct_table_iff.mp h)
      refine ⟨_, ?_, hordered⟩
      rw [Value.document?, hfound]
      rfl
  | .tables elements, _, .tables inside, h => by
      obtain ⟨found, hfound, hcontent, hascends⟩ :=
        inside.exists_ordered (Value.distinct_tables_iff.mp h)
      refine ⟨.array found, ?_, .array hcontent, hascends⟩
      rw [Value.document?, hfound]
      rfl

theorem ItemsMean.exists_ordered : ∀ {items : List Value} {documents : List Document},
    ItemsMean items documents → (∀ item ∈ items, item.Distinct) →
      ∃ found, itemDocuments? items = some found ∧ Document.SameItems documents found ∧
        Document.AscendsItems found
  | _, _, .nil, _ => ⟨[], rfl, .nil, trivial⟩
  | item :: items, _, .cons first further, h => by
      obtain ⟨hfirst, hfurther⟩ := List.forall_mem_cons.mp h
      obtain ⟨document, hdocument, hordered⟩ := first.exists_ordered hfirst
      obtain ⟨others, hothers, hcontent, hascends⟩ := further.exists_ordered hfurther
      refine ⟨document :: others, ?_, .cons hordered.content hcontent,
        hordered.ascends, hascends⟩
      rw [itemDocuments?, hdocument, hothers]
      rfl

theorem EntriesMean.exists_ordered : ∀ {entries : List (String × Value)} {members : Members},
    EntriesMean entries members → Entries.Distinct entries →
      ∃ found, entryDocuments? entries = some found ∧
        (Document.object members).Ordered (.object (sortMembers found))
  | entries, members, inside, h => by
      obtain ⟨found, hfound, hcontent, hascends⟩ := inside.exists_sameMembers h.values
      refine ⟨found, hfound, ordered_sortMembers ?_ hcontent hascends⟩
      rw [inside.names_eq]
      exact h.keys

theorem EntriesMean.exists_sameMembers : ∀ {entries : List (String × Value)}
    {members : Members}, EntriesMean entries members → (∀ entry ∈ entries, entry.2.Distinct) →
      ∃ found, entryDocuments? entries = some found ∧ Document.SameMembers members found ∧
        Document.AscendsMembers found
  | _, _, .nil, _ => ⟨[], rfl, .nil, trivial⟩
  | (key, value) :: entries, _, .cons first further, h => by
      obtain ⟨hfirst, hfurther⟩ := List.forall_mem_cons.mp h
      obtain ⟨document, hdocument, hordered⟩ := first.exists_ordered hfirst
      obtain ⟨others, hothers, hcontent, hascends⟩ := further.exists_sameMembers hfurther
      refine ⟨(key, document) :: others, ?_, .cons hordered.content hcontent,
        hordered.ascends, hascends⟩
      rw [entryDocuments?, hdocument, hothers]
      rfl

theorem TablesMean.exists_ordered : ∀ {elements : List (List (String × Value))}
    {documents : List Document}, TablesMean elements documents →
      (∀ entries ∈ elements, Entries.Distinct entries) →
        ∃ found, tableDocuments? elements = some found ∧ Document.SameItems documents found ∧
          Document.AscendsItems found
  | _, _, .nil, _ => ⟨[], rfl, .nil, trivial⟩
  | entries :: elements, _, .cons first further, h => by
      obtain ⟨hfirst, hfurther⟩ := List.forall_mem_cons.mp h
      obtain ⟨found, hfound, hordered⟩ := first.exists_ordered hfirst
      obtain ⟨others, hothers, hcontent, hascends⟩ := further.exists_ordered hfurther
      refine ⟨.object (sortMembers found) :: others, ?_, .cons hordered.content hcontent,
        hordered.ascends, hascends⟩
      rw [tableDocuments?, hfound, hothers]
      rfl

end

/-- An entry that stands for a document is among the members. -/
theorem mem_of_entryDocuments? {entries : Entries} {members : Members}
    (h : entryDocuments? entries = some members) {key : String} {value : Value}
    {document : Document} (hmem : (key, value) ∈ entries)
    (hdocument : value.document? = some document) : (key, document) ∈ members := by
  induction entries generalizing members with
  | nil => exact nomatch hmem
  | cons entry entries ih =>
      obtain ⟨name, other⟩ := entry
      rw [entryDocuments?] at h
      obtain ⟨first, hfirst, h⟩ := Option.bind_eq_some_iff.mp h
      obtain ⟨others, hothers, h⟩ := Option.bind_eq_some_iff.mp h
      obtain rfl := Option.some.inj h
      rcases List.mem_cons.mp hmem with heq | hmem
      · obtain ⟨rfl, rfl⟩ := Prod.mk.inj heq
        rw [hdocument] at hfirst
        obtain rfl := Option.some.inj hfirst
        exact List.mem_cons_self ..
      · exact List.mem_cons_of_mem _ (ih hothers hmem)

/-- An entry of a table of keywords is one of the keywords. -/
theorem mem_of_keywords? {kind : TableKind} {entries : Entries} {members : Members}
    (h : (Value.table kind entries).keywords? = some members) {key : String} {value : Value}
    {document : Document} (hmem : (key, value) ∈ entries)
    (hdocument : value.document? = some document) : (key, document) ∈ members := by
  unfold Value.keywords? at h
  split at h
  · next found hfound =>
      obtain rfl := Option.some.inj h
      rw [Value.document?] at hfound
      obtain ⟨unsorted, hunsorted, heq⟩ := Option.map_eq_some_iff.mp hfound
      obtain rfl := Document.object.inj heq
      refine (sortStable_perm _ unsorted).mem_iff.mpr ?_
      exact mem_of_entryDocuments? hunsorted hmem hdocument
  · exact nomatch h

end Toml

-- ── The keywords of settings ────────────────────────────────────────────────

namespace Settings

/-- No other field changes the keywords. -/
theorem keywords_readToml? {field : Field} {value : Toml.Value} {before after : Settings}
    (hfield : field ≠ .keywords) (h : field.readToml? value before = some after) :
    after.keywords = before.keywords := by
  cases field with
  | keywords => exact absurd rfl hfield
  | _ =>
      obtain ⟨found, -, rfl⟩ := Option.map_eq_some_iff.mp h
      rfl

theorem Field.name_of_ofName? {name : String} {field : Field}
    (h : Field.ofName? name = some field) : field.name = name := by
  have hname := List.find?_some h
  exact eq_of_beq hname

/-- Entries without keywords leave the keywords as they are. -/
theorem keywords_ofEntries_of_not_mem {entries : Toml.Entries} {before after : Settings}
    (hnone : "keywords" ∉ entries.keys) (h : ofEntries before entries = .ok after) :
    after.keywords = before.keywords := by
  induction entries generalizing before with
  | nil =>
      obtain rfl := Except.ok.inj h
      rfl
  | cons entry entries ih =>
      obtain ⟨key, value⟩ := entry
      obtain ⟨hkey, hrest⟩ := not_or.mp (mt List.mem_cons.mpr hnone)
      obtain ⟨between, hfurther, ⟨field, hfield, hread⟩ | ⟨-, rfl⟩⟩ := ofEntries_cons_ok h
      · have hother : field ≠ .keywords := by
          rintro rfl
          exact hkey (Field.name_of_ofName? hfield)
        rw [ih hrest hfurther, keywords_readToml? hother hread]
      · exact ih hrest hfurther

/-- **The keywords of settings** are those of the entry with their name. -/
theorem keywords_ofEntries {entries : Toml.Entries} {value : Toml.Value}
    {before after : Settings} (hkeys : entries.keys.Nodup) (hmem : ("keywords", value) ∈ entries)
    (h : ofEntries before entries = .ok after) : value.keywords? = some after.keywords := by
  induction entries generalizing before with
  | nil => exact nomatch hmem
  | cons entry entries ih =>
      obtain ⟨key, other⟩ := entry
      obtain ⟨hkey, hrest⟩ := List.nodup_cons.mp hkeys
      obtain ⟨between, hfurther, hentry⟩ := ofEntries_cons_ok h
      rcases List.mem_cons.mp hmem with heq | hmem
      · obtain ⟨rfl, rfl⟩ := Prod.mk.inj heq
        have hname : Field.ofName? "keywords" = some .keywords := Field.ofName?_name .keywords
        rcases hentry with ⟨field, hfield, hread⟩ | ⟨hnone, -⟩
        · obtain rfl := Option.some.inj (hname.symm.trans hfield)
          obtain ⟨members, hmembers, rfl⟩ := Option.map_eq_some_iff.mp hread
          rw [hmembers, keywords_ofEntries_of_not_mem hkey hfurther]
        · exact nomatch hname.symm.trans hnone
      · exact ih hrest hmem hfurther

/-- **A keyword in a settings text** has the document that its value stands for, put in order. -/
theorem exists_ordered_ofToml {text keyword : String} {settings : Settings}
    {entries own : Toml.Entries} {kind : Toml.TableKind} {written : Toml.Value}
    {value : Document} (hread : Toml.read text = .ok entries)
    (htable : ("keywords", .table kind own) ∈ entries) (hown : (keyword, written) ∈ own)
    (hmeans : written.Means value) (h : ofToml text = .ok settings) :
    value.Exact ∧ ∃ found, (keyword, found) ∈ settings.keywords ∧ value.Ordered found := by
  have hdistinct := Toml.distinct_read hread
  have htables := Toml.Value.distinct_table_iff.mp (hdistinct.values _ htable)
  have hwritten := htables.values _ hown
  obtain ⟨found, hfound, hordered⟩ := hmeans.exists_ordered hwritten
  rw [ofToml, hread] at h
  have hkeywords := keywords_ofEntries (Toml.ascending_sortEntries hdistinct.keys).nodup
    (Toml.mem_sortEntries.mpr htable) (Journaled.mapError_eq_ok_iff.mp h)
  exact ⟨hmeans.exact hwritten, found, Toml.mem_of_keywords? hkeywords hown hfound, hordered⟩

end Settings

end Stencil
