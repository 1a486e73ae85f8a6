import Stencil.Proofs.Document.Depth
import Stencil.Proofs.Placeholder.Resolution
import Stencil.Proofs.Setup.Precedence
import Stencil.Proofs.Toml.Writing
import Stencil.Digest

/-!
# Definitions — one keyword, defined in settings or in an object

A keyword can be defined in the settings and in JSON objects: in files or in a text. What an object
says is taken as it stands. What the settings say is put in order: at every depth, members stand in
the order of their names, not in the order in which they are written. So the two definitions come
to the same exactly if the value is in order as it is written, and then whatever is resolved comes
to the same as well (`definitions_agree_iff`).
-/

namespace Stencil

/-- A settings text defines a keyword in its table of keywords. -/
def DefinesInTable (text keyword : String) (value : Document) : Prop :=
  ∃ entries kind own written, Toml.read text = .ok entries ∧
    ("keywords", Toml.Value.table kind own) ∈ entries ∧ (keyword, written) ∈ own ∧
    written.Means value

namespace Setup

/-- A keyword is **defined in the settings**, and in no later source. -/
inductive FromSettings (files : Files) (setup : Setup) (keyword : String) (value : Document) :
    Prop where
  | table {sources : Sources} {path text : String} (holds : setup.Holds files sources)
      (place : setup.settingsFile = some path) (readable : files path = .ok text)
      (defines : DefinesInTable text keyword value) (filed : keyword ∉ sources.filed.names)
      (given : keyword ∉ sources.given.names) : FromSettings files setup keyword value

/-- A keyword is **defined in an object**, and in no later source: in the file that the settings
    name, in the further file, or in the text. -/
inductive FromObject (files : Files) (setup : Setup) (keyword : String) (value : Document) :
    Prop where
  | named {sources : Sources} (holds : setup.Holds files sources)
      (member : (keyword, value) ∈ sources.named)
      (own : keyword ∉ sources.settings.keywords.names) (filed : keyword ∉ sources.filed.names)
      (given : keyword ∉ sources.given.names) : FromObject files setup keyword value
  | filed {sources : Sources} (holds : setup.Holds files sources)
      (member : (keyword, value) ∈ sources.filed) (given : keyword ∉ sources.given.names) :
      FromObject files setup keyword value
  | given {sources : Sources} (holds : setup.Holds files sources)
      (member : (keyword, value) ∈ sources.given) : FromObject files setup keyword value

variable {files : Files} {setup : Setup} {sources : Sources} {keyword : String}
  {value : Document}

/-- **The latest source** that has a keyword decides about its value: what no later source has is
    loaded as it stands. -/
theorem Holds.load_of_latest (h : setup.Holds files sources) (earlier later : List Members)
    {source : Members} (hsources : sources.keywords = earlier ++ source :: later)
    (hmem : (keyword, value) ∈ source) (hlater : ∀ other ∈ later, keyword ∉ other.names) :
    ∃ workspace, (setup.load files).result = .ok workspace ∧
      workspace.mappings.get? keyword = some value := by
  refine ⟨_, load_ok_iff.mpr ⟨sources, h, rfl⟩, ?_⟩
  have hsource : source ∈ sources.keywords := by
    rw [hsources]
    exact List.mem_append_right _ (List.mem_cons_self ..)
  have hget : source.get? keyword = some value :=
    Members.get?_of_mem (h.nodup source hsource) hmem
  have hnone : later.reverse.findSome? (fun other => other.get? keyword) = none := by
    rw [List.findSome?_eq_none_iff]
    intro other hother
    exact Members.get?_eq_none_iff.mpr (hlater other (List.mem_reverse.mp hother))
  show Members.get? (sources.keywords.foldl Members.merge []) keyword = some value
  rw [(precedes_foldl_merge h.nodup).value, hsources, List.reverse_append, List.reverse_cons,
    List.append_assoc, List.findSome?_append, hnone, List.singleton_append, List.findSome?_cons,
    hget]
  rfl

/-- **What the settings define** is loaded in order. -/
theorem FromSettings.load (h : setup.FromSettings files keyword value) :
    value.Exact ∧ ∃ workspace found, (setup.load files).result = .ok workspace ∧
      workspace.mappings.get? keyword = some found ∧ value.Ordered found := by
  cases h with
  | @table sources path text hholds hpath htext hdefines hfiled hgiven =>
      obtain ⟨entries, kind, own, written, hread, htable, hown, hmeans⟩ := hdefines
      have hsettings := hholds.settings
      rw [hpath] at hsettings
      obtain ⟨other, parsed, hother, hparsed, heq⟩ :
          HoldsSettings files path sources.settings := by
        cases hsettings with
        | given h => exact h
      obtain rfl := Except.ok.inj (htext.symm.trans hother)
      obtain ⟨hexact, found, hmem, hordered⟩ :=
        Settings.exists_ordered_ofToml hread htable hown hmeans hparsed
      have hkeywords : (keyword, found) ∈ sources.settings.keywords := by
        rw [heq]
        exact hmem
      obtain ⟨workspace, hload, hvalue⟩ := hholds.load_of_latest [sources.named]
        [sources.filed, sources.given] rfl hkeywords (by simpa using ⟨hfiled, hgiven⟩)
      exact ⟨hexact, workspace, found, hload, hvalue, hordered⟩

/-- No member of an object is deeper than the reader of objects allows. -/
theorem Holds.nesting_le (h : setup.Holds files sources) {source : Members}
    (hsource : source = sources.named ∨ source = sources.filed ∨ source = sources.given)
    (hmem : (keyword, value) ∈ source) : value.nesting ≤ Document.nestingLimit := by
  let shallow (members : Members) : Prop :=
    (keyword, value) ∈ members → value.nesting ≤ Document.nestingLimit
  have hnone : shallow [] := fun hmem => nomatch hmem
  have hobject : ∀ text members, HoldsObject text members → shallow members :=
    fun _ _ => Document.nesting_read_member
  have hfile : ∀ path members, HoldsKeywords files path members → shallow members := by
    rintro path members ⟨text, -, hread⟩
    exact hobject text members hread
  rcases hsource with rfl | rfl | rfl
  · exact h.named.satisfies shallow hnone hfile hmem
  · exact h.filed.satisfies shallow hnone hfile hmem
  · exact h.given.satisfies shallow hnone hobject hmem

/-- **What an object defines** is loaded as it stands. -/
theorem FromObject.load (h : setup.FromObject files keyword value) :
    value.nesting ≤ Document.nestingLimit ∧ ∃ workspace,
      (setup.load files).result = .ok workspace ∧
        workspace.mappings.get? keyword = some value := by
  cases h with
  | @named sources hholds hmem hown hfiled hgiven =>
      refine ⟨hholds.nesting_le (.inl rfl) hmem, ?_⟩
      exact hholds.load_of_latest [] _ rfl hmem (by simpa using ⟨hown, hfiled, hgiven⟩)
  | @filed sources hholds hmem hgiven =>
      refine ⟨hholds.nesting_le (.inr (.inl rfl)) hmem, ?_⟩
      exact hholds.load_of_latest [_, _] _ rfl hmem (by simpa using hgiven)
  | @given sources hholds hmem =>
      refine ⟨hholds.nesting_le (.inr (.inr rfl)) hmem, ?_⟩
      exact hholds.load_of_latest [_, _, _] [] rfl hmem (by simp)

-- ── Sources for every value ─────────────────────────────────────────────────

/-- A settings text and a JSON text with nothing but a definition of a keyword. -/
def definingFiles (keyword : String) (value : Document) : Files := fun path =>
  if path = "settings.toml" then .ok (Toml.keywordText keyword value)
  else if path = "keywords.json" then .ok (Document.object [(keyword, value)]).compact
  else .error .notFound

/-- Settings with one keyword are settings that say nothing else. -/
theorem ofToml_keywordText (keyword : String) (h : value.Portable)
    (hroom : value.nesting ≤ Toml.nestingLimit) :
    DefinesInTable (Toml.keywordText keyword value) keyword value ∧
      ∃ found, Settings.ofToml (Toml.keywordText keyword value)
        = .ok { keywords := [(keyword, found)] } := by
  obtain ⟨written, hread, hmeans⟩ := Toml.read_keywordText keyword h hroom
  have htable := (Toml.distinct_read hread).values _ (List.mem_singleton_self _)
  have hwritten := (Toml.Value.distinct_table_iff.mp htable).values _ (List.mem_singleton_self _)
  obtain ⟨found, hfound, -⟩ := hmeans.exists_ordered hwritten
  refine ⟨⟨_, _, _, written, hread, List.mem_singleton_self _, List.mem_singleton_self _,
    hmeans⟩, found, ?_⟩
  have hkeywords : (Toml.Value.table .defined [(keyword, written)]).keywords?
      = some [(keyword, found)] := by
    rw [Toml.Value.keywords?, Toml.Value.document?, Toml.entryDocuments?, hfound]
    rfl
  have hfield : Settings.Field.keywords.readToml?
      (.table .defined [(keyword, written)]) {} = some { keywords := [(keyword, found)] } := by
    rw [Settings.Field.readToml?, hkeywords]
    rfl
  have hname : Settings.Field.ofName? "keywords" = some .keywords :=
    Settings.Field.ofName?_name .keywords
  rw [Settings.ofToml, hread]
  show Except.mapError _ (Settings.ofEntries {} [("keywords", _)]) = _
  rw [Settings.ofEntries]
  simp only [hname, hfield]
  rfl

/-- A portable value can be defined in the settings. -/
theorem fromSettings_definingFiles (keyword : String) (h : value.Portable)
    (hroom : value.nesting ≤ Toml.nestingLimit) :
    Setup.FromSettings (definingFiles keyword value) ⟨some "settings.toml", none, none⟩
      keyword value := by
  obtain ⟨hdefines, found, hparsed⟩ := ofToml_keywordText keyword h hroom
  have hsettings : HoldsSettings (definingFiles keyword value) "settings.toml"
      { keywords := [(keyword, found)] } := ⟨_, _, rfl, hparsed, rfl⟩
  have hholds : Setup.Holds (definingFiles keyword value) ⟨some "settings.toml", none, none⟩
      ⟨{ keywords := [(keyword, found)] }, [], [], []⟩ :=
    ⟨.given hsettings, .missing, .missing, .missing⟩
  exact .table hholds rfl rfl hdefines List.not_mem_nil List.not_mem_nil

theorem holdsObject_definingFiles (keyword : String) (h : value.Portable)
    (hroom : value.nesting ≤ Toml.nestingLimit) :
    HoldsObject (Document.object [(keyword, value)]).compact [(keyword, value)] := by
  have hexact : (Document.object [(keyword, value)]).Exact :=
    ⟨List.nodup_singleton keyword, h.exact, trivial⟩
  have hnest : (Document.object [(keyword, value)]).nesting ≤ Document.nestingLimit := by
    simp only [Document.nesting, Document.nestingOfMembers, Document.nestingLimit,
      Toml.nestingLimit] at hroom ⊢
    omega
  exact Document.read_text .compact hexact hnest

/-- A portable value can be defined in a file of its own. -/
theorem fromObject_definingFiles (keyword : String) (h : value.Portable)
    (hroom : value.nesting ≤ Toml.nestingLimit) :
    Setup.FromObject (definingFiles keyword value) ⟨none, some "keywords.json", none⟩
      keyword value := by
  have hholds : Setup.Holds (definingFiles keyword value) ⟨none, some "keywords.json", none⟩
      ⟨{}, [], [(keyword, value)], []⟩ :=
    ⟨.missing, .missing, .given ⟨_, rfl, holdsObject_definingFiles keyword h hroom⟩, .missing⟩
  exact .filed hholds (List.mem_singleton_self _) List.not_mem_nil

/-- A portable value can be defined on the command line. -/
theorem fromObject_inline (keyword : String) (h : value.Portable)
    (hroom : value.nesting ≤ Toml.nestingLimit) :
    Setup.FromObject files ⟨none, none, some (Document.object [(keyword, value)]).compact⟩
      keyword value := by
  have hholds : Setup.Holds files
      ⟨none, none, some (Document.object [(keyword, value)]).compact⟩
      ⟨{}, [], [], [(keyword, value)]⟩ :=
    ⟨.missing, .missing, .missing, .given (holdsObject_definingFiles keyword h hroom)⟩
  exact .given hholds (List.mem_singleton_self _)

end Setup

-- ── One keyword, two definitions ────────────────────────────────────────────

open Setup

/-- **ONE MEANING, IN ORDER**: a keyword that is defined in the settings and one that is defined in
    an object as the same value are both loaded, the one in the order of the names of its members at
    every depth, the other as it is written. They are the same value, and are put into texts
    alike, exactly if the members are in this order as they are written; then all texts resolve
    alike. Every value can be defined in all of these places, unless it is too deep for
    settings. -/
theorem definitions_agree_iff (keyword : String) {value : Document} (h : value.Portable) :
    (∀ {files others : Files} {settings object : Setup},
      settings.FromSettings files keyword value → object.FromObject others keyword value →
      ∃ first second found, (settings.load files).result = .ok first ∧
        (object.load others).result = .ok second ∧
        first.mappings.get? keyword = some found ∧
        second.mappings.get? keyword = some value ∧ value.Ordered found ∧
        (found = value ↔ value.Ascends) ∧
        (substitutionText found = substitutionText value ↔ value.Ascends) ∧
        (value.Ascends → ∀ text,
          (∀ other ∈ Placeholder.keywords text, other ≠ keyword →
            first.mappings.get? other = second.mappings.get? other) →
          Placeholder.resolve first.mappings text = Placeholder.resolve second.mappings text ∧
            digest (Placeholder.resolve first.mappings text)
              = digest (Placeholder.resolve second.mappings text))) ∧
      (value.nesting ≤ Toml.nestingLimit →
        FromSettings (definingFiles keyword value) ⟨some "settings.toml", none, none⟩
            keyword value ∧
          FromObject (definingFiles keyword value) ⟨none, some "keywords.json", none⟩
            keyword value ∧
          FromObject (definingFiles keyword value)
            ⟨none, none, some (Document.object [(keyword, value)]).compact⟩ keyword value) := by
  constructor
  · intro files others settings object hsettings hobject
    obtain ⟨hexact, first, found, hfirst, hfound, hordered⟩ := hsettings.load
    obtain ⟨hnest, second, hsecond, hvalue⟩ := hobject.load
    refine ⟨first, second, found, hfirst, hsecond, hfound, hvalue, hordered, hordered.eq_iff,
      hordered.compact_eq_iff hexact hnest, ?_⟩
    intro hascends text hothers
    have hresolve :
        Placeholder.resolve first.mappings text = Placeholder.resolve second.mappings text := by
      refine Placeholder.resolve_congr ?_
      intro other hmem
      by_cases heq : other = keyword
      · rw [heq, hfound, hvalue, hordered.eq_iff.mpr hascends]
      · exact hothers other hmem heq
    exact ⟨hresolve, congrArg digest hresolve⟩
  · intro hroom
    exact ⟨fromSettings_definingFiles keyword h hroom, fromObject_definingFiles keyword h hroom,
      fromObject_inline keyword h hroom⟩

/-- A value that nests, with its members in order at every depth. -/
def rankedValue : Document :=
  .object
    [("", .array [.bool false, .object [("B", .string "@@k@@"), ("a", .object [])], .array []]),
      ("low", .number (.integer (-0x20000000000001))), ("ä\"", .string "\n\x7f")]

/-- A value whose names ascend at every depth means the same in the settings and in a file of
    keywords. -/
theorem definitions_agree_iff_rankedValue :
    rankedValue.Portable ∧ rankedValue.Ascends ∧
      Toml.keywordText "k" rankedValue
        = "[keywords]\n\"k\"=\x7b\"\"=[false,\x7b\"B\"=\"@@k@@\",\"a\"=\x7b\x7d\x7d,[]]," ++
          "\"low\"=-9007199254740993,\"ä\\u0022\"=\"\\u000a\\u007f\"\x7d\n" ∧
      ∃ first second,
        (Setup.load (definingFiles "k" rankedValue) ⟨some "settings.toml", none, none⟩).result
          = .ok first ∧
        (Setup.load (definingFiles "k" rankedValue) ⟨none, some "keywords.json", none⟩).result
          = .ok second ∧
        first.mappings.get? "k" = some rankedValue ∧
        second.mappings.get? "k" = some rankedValue ∧
        Placeholder.resolve first.mappings "[@@k@@, @@k@@]"
          = Placeholder.resolve second.mappings "[@@k@@, @@k@@]" := by
  have hportable : rankedValue.Portable :=
    ⟨by decide, ⟨trivial, ⟨by decide, trivial, ⟨List.nodup_nil, trivial⟩, trivial⟩, trivial,
      trivial⟩, ⟨by decide, by decide⟩, trivial, trivial⟩
  have hinner : Ascending ["B", "a"] := by
    unfold Ascending
    decide +kernel
  have houter : Ascending ["", "low", "ä\""] := by
    unfold Ascending
    decide +kernel
  have hascends : rankedValue.Ascends :=
    ⟨houter, ⟨trivial, ⟨hinner, trivial, ⟨List.Pairwise.nil, trivial⟩, trivial⟩, trivial,
      trivial⟩, trivial, trivial, trivial⟩
  obtain ⟨hagree, htexts⟩ := definitions_agree_iff "k" hportable
  obtain ⟨hsettings, hobject, -⟩ := htexts (by decide)
  obtain ⟨first, second, found, hfirst, hsecond, hfound, hvalue, -, heq, -, hresolve⟩ :=
    hagree hsettings hobject
  rw [heq.mpr hascends] at hfound
  refine ⟨hportable, hascends, by decide +kernel, first, second, hfirst, hsecond, hfound,
    hvalue, (hresolve hascends _ ?_).1⟩
  have hkeywords : Placeholder.keywords "[@@k@@, @@k@@]" = ["k"] := by decide +kernel
  rw [hkeywords]
  intro other hmem hne
  exact absurd (List.mem_singleton.mp hmem) hne

/-- A value whose members are written against their order. -/
def reversedValue : Document :=
  .object [("b", .bool true), ("a", .bool false)]

/-- **The order of definition is lost in settings**, and only there. -/
theorem not_definitions_agree :
    Toml.keywordText "k" reversedValue = "[keywords]\n\"k\"=\x7b\"b\"=true,\"a\"=false\x7d\n" ∧
      ¬ ∀ (keyword : String) (value : Document) (files others : Files)
          (settings object : Setup), value.Portable →
          settings.FromSettings files keyword value → object.FromObject others keyword value →
          ∀ first second, (settings.load files).result = .ok first →
            (object.load others).result = .ok second →
            first.mappings.get? keyword = second.mappings.get? keyword := by
  refine ⟨by decide +kernel, ?_⟩
  intro hall
  have hportable : reversedValue.Portable := ⟨by decide, trivial, trivial, trivial⟩
  have hfirst := Journaled.ok_of_toOption (show
    (Setup.load (definingFiles "k" reversedValue) ⟨some "settings.toml", none, none⟩).result.toOption
      = some ⟨{ keywords := [("k", .object
            [("a", .bool false), ("b", .bool true)])] },
          [("k", .object [("a", .bool false), ("b", .bool true)])]⟩
      by decide +kernel)
  have hsecond := Journaled.ok_of_toOption (show
    (Setup.load (definingFiles "k" reversedValue) ⟨none, some "keywords.json", none⟩).result.toOption
      = some ⟨{}, [("k", reversedValue)]⟩ by decide +kernel)
  have hsame := hall "k" reversedValue _ _ _ _ hportable
    (fromSettings_definingFiles "k" hportable (by decide))
    (fromObject_definingFiles "k" hportable (by decide)) _ _ hfirst hsecond
  exact absurd hsame (by decide)

end Stencil
