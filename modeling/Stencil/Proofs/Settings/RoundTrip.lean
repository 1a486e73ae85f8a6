import Stencil.Proofs.Printing
import Stencil.Settings.Shape

/-!
# Settings round trip — written settings read back

Settings are written with a member for each of them, in a fixed order, and those that say nothing
are left out. Reading starts from settings that say nothing and takes the members one by one, so
what was left out is found as it was (`reads_listMember` and its kin: a part is read back whether
or not it was written). The document of settings is exact if their keywords are, so that
its text reads back as well (`settings_survive`).
-/

namespace Stencil

namespace Document

theorem asStrings_strings (items : List String) : (strings items).asStrings = .ok items := by
  show (items.map Document.string).mapM (asString .string) = .ok items
  induction items with
  | nil => rfl
  | cons item items ih =>
      rw [List.map_cons, List.mapM_cons, ih]
      rfl

/-- A policy written and read again. -/
theorem asPolicy_name (policy : DuplicatePolicy) :
    (Document.string policy.name).asPolicy = .ok policy := by
  cases policy <;> rfl

/-- Lists of strings are exact. -/
theorem exact_strings (items : List String) : (strings items).Exact := by
  show ExactItems (items.map Document.string)
  induction items with
  | nil => trivial
  | cons item items ih => exact ⟨trivial, ih⟩

theorem exactMembers_append {before after : Members} (hbefore : ExactMembers before)
    (hafter : ExactMembers after) : ExactMembers (before ++ after) := by
  induction before with
  | nil => exact hafter
  | cons member before ih =>
      obtain ⟨name, value⟩ := member
      exact ⟨hbefore.1, ih hbefore.2⟩

end Document

namespace Settings

/-- A field is found by its own name. -/
theorem Field.ofName?_name (field : Field) : Field.ofName? field.name = some field := by
  cases field <;> decide

-- ── Reading part by part ────────────────────────────────────────────────────

/-- A part of the members turns some settings into others, whatever members follow it. -/
def Reads (part : Members) (before after : Settings) : Prop :=
  ∀ members : Members, ofMembers before (part ++ members) = ofMembers after members

/-- Members are read one part after another. -/
theorem Reads.append {first second : Members} {before between after : Settings}
    (hfirst : Reads first before between) (hsecond : Reads second between after) :
    Reads (first ++ second) before after := by
  intro members
  rw [List.append_assoc, hfirst, hsecond]

/-- A member with the name of a setting is read as this setting. -/
theorem reads_member {field : Field} {value : Document} {before after : Settings}
    (h : field.read value before = .ok after) : Reads [(field.name, value)] before after := by
  intro members
  rw [List.singleton_append, ofMembers, field.ofName?_name]
  simp only [h]

/-- A list is read back whether it was written or, being empty, left out. -/
theorem reads_listMember {field : Field} {items : List String} {before after : Settings}
    (hread : field.read (.strings items) before = .ok after)
    (hnone : items = [] → before = after) :
    Reads (listMember field.name items) before after := by
  cases items with
  | nil =>
      obtain rfl := hnone rfl
      exact fun _ => rfl
  | cons item items => exact reads_member hread

/-- The same of a string that may be missing. -/
theorem reads_stringMember {field : Field} {content : Option String} {before after : Settings}
    (hread : ∀ text, content = some text → field.read (.string text) before = .ok after)
    (hnone : content = none → before = after) :
    Reads (stringMember field.name content) before after := by
  cases content with
  | none =>
      obtain rfl := hnone rfl
      exact fun _ => rfl
  | some text => exact reads_member (hread text rfl)

/-- The same of keywords. -/
theorem reads_keywordsMember {keywords : Members} {before after : Settings}
    (hread : Field.keywords.read (.object keywords) before = .ok after)
    (hnone : keywords = [] → before = after) :
    Reads (keywordsMember keywords) before after := by
  cases keywords with
  | nil =>
      obtain rfl := hnone rfl
      exact fun _ => rfl
  | cons member keywords => exact reads_member hread

/-- **Documents of settings** are read as these settings: each part is read into settings that say
    nothing about it yet. -/
theorem ofDocument_document (settings : Settings) :
    ofDocument settings.document = .ok settings := by
  obtain ⟨templated, child, duplicates, reserved, excluded, keywords, file⟩ := settings
  have htemplated : Reads [(Field.templatedFields.name, .strings templated)] {}
      { templatedFields := templated } :=
    reads_member (by rw [Field.read, Document.asStrings_strings]; rfl)
  have hchild : Reads (stringMember Field.childListField.name child)
      { templatedFields := templated }
      { templatedFields := templated, childListField := child } :=
    reads_stringMember (by rintro text rfl; rfl) (by rintro rfl; rfl)
  have hduplicates : Reads [(Field.duplicates.name, .string duplicates.name)]
      { templatedFields := templated, childListField := child }
      { templatedFields := templated, childListField := child, duplicates } :=
    reads_member (by rw [Field.read, Document.asPolicy_name]; rfl)
  have hreserved : Reads (listMember Field.reservedKeys.name reserved)
      { templatedFields := templated, childListField := child, duplicates }
      { templatedFields := templated, childListField := child, duplicates,
        reservedKeys := reserved } :=
    reads_listMember (by rw [Field.read, Document.asStrings_strings]; rfl) (by rintro rfl; rfl)
  have hexcluded : Reads (listMember Field.excluded.name excluded)
      { templatedFields := templated, childListField := child, duplicates,
        reservedKeys := reserved }
      { templatedFields := templated, childListField := child, duplicates,
        reservedKeys := reserved, excluded } :=
    reads_listMember (by rw [Field.read, Document.asStrings_strings]; rfl) (by rintro rfl; rfl)
  have hkeywords : Reads (keywordsMember keywords)
      { templatedFields := templated, childListField := child, duplicates,
        reservedKeys := reserved, excluded }
      { templatedFields := templated, childListField := child, duplicates,
        reservedKeys := reserved, excluded, keywords } :=
    reads_keywordsMember rfl (by rintro rfl; rfl)
  have hfile : Reads (stringMember Field.keywordsFile.name file)
      { templatedFields := templated, childListField := child, duplicates,
        reservedKeys := reserved, excluded, keywords }
      ⟨templated, child, duplicates, reserved, excluded, keywords, file⟩ :=
    reads_stringMember (by rintro text rfl; rfl) (by rintro rfl; rfl)
  have hall := ((((((htemplated.append hchild).append hduplicates).append hreserved).append
    hexcluded).append hkeywords).append hfile) []
  rw [List.append_nil] at hall
  exact hall

-- ── The text of settings ────────────────────────────────────────────────────

/-- The members of written settings, some of which may be left out, have the names of all
    settings in their order. -/
theorem names_document_sublist (settings : Settings) :
    ∃ members : Members, settings.document = .object members ∧
      members.names.Sublist (Field.all.map Field.name) := by
  have hlist : ∀ (name : String) (items : List String),
      (Members.names (listMember name items)).Sublist [name] := by
    intro name items
    cases items with
    | nil => exact List.nil_sublist _
    | cons item items => exact List.Sublist.refl _
  have hstring : ∀ (name : String) (content : Option String),
      (Members.names (stringMember name content)).Sublist [name] := by
    intro name content
    cases content with
    | none => exact List.nil_sublist _
    | some text => exact List.Sublist.refl _
  have hkeywords : ∀ keywords : Members,
      (Members.names (keywordsMember keywords)).Sublist ["keywords"] := by
    intro keywords
    cases keywords with
    | nil => exact List.nil_sublist _
    | cons member keywords => exact List.Sublist.refl _
  refine ⟨_, rfl, ?_⟩
  simp only [Members.names, List.map_append]
  exact ((((((List.Sublist.refl ["templated_fields"]).append (hstring _ _)).append
    (List.Sublist.refl ["duplicate_names"])).append (hlist _ _)).append (hlist _ _)).append
    (hkeywords _)).append (hstring _ _)

/-- Settings are exact as a document if their keywords are. -/
theorem exact_document {settings : Settings} (h : (Document.object settings.keywords).Exact) :
    settings.document.Exact := by
  obtain ⟨members, heq, hnames⟩ := names_document_sublist settings
  have hnodup : members.names.Nodup := List.Nodup.sublist hnames (by decide)
  obtain rfl := Document.object.inj heq
  have hlist : ∀ (name : String) (items : List String),
      Document.ExactMembers (listMember name items) := by
    intro name items
    cases items with
    | nil => trivial
    | cons item items => exact ⟨Document.exact_strings _, trivial⟩
  have hstring : ∀ (name : String) (content : Option String),
      Document.ExactMembers (stringMember name content) := by
    intro name content
    cases content with
    | none => trivial
    | some text => exact ⟨trivial, trivial⟩
  have hkeywords : Document.ExactMembers (keywordsMember settings.keywords) := by
    cases hmembers : settings.keywords with
    | nil => trivial
    | cons member keywords =>
        rw [hmembers] at h
        exact ⟨h, trivial⟩
  have htemplated :
      Document.ExactMembers [("templated_fields", .strings settings.templatedFields)] :=
    ⟨Document.exact_strings _, trivial⟩
  have hduplicates :
      Document.ExactMembers [("duplicate_names", .string settings.duplicates.name)] :=
    ⟨trivial, trivial⟩
  refine ⟨hnodup, ?_⟩
  open Document in
  exact exactMembers_append (exactMembers_append (exactMembers_append (exactMembers_append
    (exactMembers_append (exactMembers_append htemplated (hstring _ _)) hduplicates) (hlist _ _))
    (hlist _ _)) hkeywords) (hstring _ _)

end Settings

/-- A source is read as something more definite if its document is. -/
theorem Source.shaped_of_document {α : Type} {shape : Document → Except ShapeFault α}
    {mappings : Mappings} {source : Source} {document : Document} {value : α}
    (hdocument : (source.document mappings).result = .ok document)
    (hshape : shape document = .ok value) :
    (source.shaped shape mappings).result = .ok value := by
  unfold Source.shaped
  refine Journaled.ok_bind_iff.mpr ⟨document, hdocument, ?_⟩
  exact Journaled.mapError_eq_ok_iff.mpr hshape

/-- **SETTINGS SURVIVE**: settings that are written as JSON text, in either layout, are read back
    as the same settings, which are written alike again. Their keywords have to be exact, and the
    text must not nest too deeply. -/
theorem settings_survive (label : String) (layout : Layout) {settings : Settings}
    (h : (Document.object settings.keywords).Exact)
    (hnest : settings.document.nesting ≤ Document.nestingLimit) :
    ((Source.mk label (settings.document.text layout)).shaped Settings.ofDocument []).result
        = .ok settings ∧
      ∀ found, ((Source.mk label (settings.document.text layout)).shaped Settings.ofDocument
          []).result = .ok found →
        ∀ layout, found.document.text layout = settings.document.text layout := by
  have hread : ((Source.mk label (settings.document.text layout)).document []).result
      = .ok settings.document :=
    Source.document_text label layout (Settings.exact_document h) hnest
  have hok := Source.shaped_of_document hread (Settings.ofDocument_document settings)
  refine ⟨hok, ?_⟩
  intro found hfound layout
  obtain rfl := Except.ok.inj (hok.symm.trans hfound)
  rfl

/-- Settings with a name that is repeated, an empty one, and keywords that nest; some say
    nothing. -/
def recordedSettings : Settings :=
  { templatedFields := ["page", "page", ""], duplicates := .reject, excluded := ["id", "@@id@@"]
    keywords :=
      [("tier", .array [.object [], .null, .number (.integer (-0x7FFFFFFFFFFFFFFF))]),
        ("\"@@tier@@\"", .object [("limit", .number (.integer 0xFFFFFFFFFFFFFFFE))])]
    keywordsFile := some "" }

/-- Settings with repetitions, numbers near both limits, an empty path, and a keyword that looks
    like a quoted placeholder. -/
theorem settings_survive_recordedSettings :
    (Document.object recordedSettings.keywords).Exact ∧ recordedSettings.document.nesting = 4 ∧
      recordedSettings.document.text .compact
        = "\x7b\"templated_fields\":[\"page\",\"page\",\"\"],\"duplicate_names\":\"reject\"," ++
          "\"exclude_properties\":[\"id\",\"@@id@@\"],\"keywords\":\x7b\"tier\":[\x7b\x7d,null," ++
          "-9223372036854775807],\"\\\"@@tier@@\\\"\":" ++
          "\x7b\"limit\":18446744073709551614\x7d\x7d," ++
          "\"keywords_file\":\"\"\x7d" ∧
      ((Source.mk "settings.json" (recordedSettings.document.text .compact)).shaped
        Settings.ofDocument []).result = .ok recordedSettings := by
  have hexact : (Document.object recordedSettings.keywords).Exact :=
    ⟨by decide, ⟨⟨List.nodup_nil, trivial⟩, trivial, trivial, trivial⟩,
      ⟨by decide, trivial, trivial⟩, trivial⟩
  obtain ⟨hok, -⟩ := settings_survive "settings.json" .compact hexact (by decide)
  exact ⟨hexact, by decide, by decide +kernel, hok⟩

end Stencil
