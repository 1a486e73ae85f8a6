import Stencil.Proofs.Setup.Sources
import Stencil.Proofs.Document.Merging
import Stencil.Proofs.Settings.Order

/-!
# Precedence — which source of keywords decides, and in which order keywords stand

The sources of a setup are merged one after another. Every source lists its keywords once each,
because neither reader repeats a name: JSON objects keep the first place of a name, tables refuse a
key that is there. So the last source that has a keyword decides about its value as a whole, while
the first one decides about its place (`precedes_foldl_merge`). With what loading a setup comes to
that settles the precedence of its sources (`load_precedence`).
-/

namespace Stencil

/-- Merged keywords as their sources demand, the weakest source first: a keyword has the value of
    the last source that has it, and stands where the first one puts it. -/
structure Precedes (sources : List Members) (mappings : Mappings) : Prop where
  value : ∀ keyword, mappings.get? keyword
    = sources.reverse.findSome? fun source => source.get? keyword
  defined : ∀ keyword, keyword ∈ mappings.names ↔ ∃ source ∈ sources, keyword ∈ source.names
  order : mappings.names = (sources.flatMap Members.names).eraseDups

/-- **Merging** sources that repeat no keyword gives what they demand. -/
theorem precedes_foldl_merge {sources : List Members}
    (h : ∀ source ∈ sources, source.names.Nodup) :
    Precedes sources (sources.foldl Members.merge []) := by
  refine ⟨?_, ?_, Members.names_foldl_merge sources⟩
  · intro keyword
    rw [Members.get?_foldl_merge h]
    exact Option.or_none
  · intro keyword
    rw [Members.names_foldl_merge, List.mem_eraseDups, List.mem_flatMap]

-- ── The order in which readers deliver ──────────────────────────────────────

/-- What a source that may be missing says is whatever all it can hold is. -/
theorem Says.satisfies {α β : Type} {holds : α → β → Prop} {otherwise : β} {source? : Option α}
    {value : β} (h : Says holds otherwise source? value) (property : β → Prop)
    (hotherwise : property otherwise)
    (hholds : ∀ source value, holds source value → property value) : property value := by
  cases h with
  | missing => exact hotherwise
  | given h => exact hholds _ _ h

/-- An object that was read repeats no keyword. -/
theorem nodup_of_holdsObject {text : String} {members : Members}
    (h : HoldsObject text members) : members.names.Nodup :=
  (Document.distinct_read h).1

/-- A file of keywords repeats none of them. -/
theorem nodup_of_holdsKeywords {files : Files} {path : String} {members : Members}
    (h : HoldsKeywords files path members) : members.names.Nodup := by
  obtain ⟨text, -, hobject⟩ := h
  exact nodup_of_holdsObject hobject

/-- The keywords of a settings file come in ascending order. -/
theorem ascending_of_holdsSettings {files : Files} {path : String} {settings : Settings}
    (h : HoldsSettings files path settings) : Ascending settings.keywords.names := by
  obtain ⟨text, parsed, -, hparsed, rfl⟩ := h
  have hascending := Settings.ascending_ofToml hparsed
  exact hascending

/-- Names stand as a text gives them to its members, each where it first stands. -/
def InTextOrder (text : String) (names : List String) : Prop :=
  names = (Document.outerNames text).eraseDups

/-- Each source has its keywords in the order in which its reader delivers them: objects in the
    order of their text, settings in the order of their bytes. -/
structure Setup.InReaderOrder (files : Files) (setup : Setup) (sources : Sources) : Prop where
  own : Ascending sources.settings.keywords.names
  named : ∀ path text, sources.settings.keywordsFile = some path → files path = .ok text →
    InTextOrder text sources.named.names
  filed : ∀ path text, setup.keywordsFile = some path → files path = .ok text →
    InTextOrder text sources.filed.names
  given : ∀ text, setup.inlineKeywords = some text → InTextOrder text sources.given.names

/-- The keywords of a file come in the order of its text. -/
theorem inTextOrder_of_says {files : Files} {path? : Option String} {members : Members}
    (h : Says (HoldsKeywords files) [] path? members) {path text : String}
    (hpath : path? = some path) (htext : files path = .ok text) :
    InTextOrder text members.names := by
  subst hpath
  cases h with
  | given h =>
      obtain ⟨found, hfound, hobject⟩ := h
      obtain rfl := Except.ok.inj (htext.symm.trans hfound)
      exact Document.names_read hobject

/-- The keywords of the settings come in ascending order, wherever they are from. -/
theorem Setup.Holds.ascending {files : Files} {setup : Setup} {sources : Sources}
    (h : setup.Holds files sources) : Ascending sources.settings.keywords.names :=
  h.settings.satisfies (fun settings => Ascending settings.keywords.names) List.Pairwise.nil
    fun _ _ => ascending_of_holdsSettings

theorem Setup.Holds.inReaderOrder {files : Files} {setup : Setup} {sources : Sources}
    (h : setup.Holds files sources) : setup.InReaderOrder files sources := by
  refine ⟨h.ascending, fun _ _ => inTextOrder_of_says h.named,
    fun _ _ => inTextOrder_of_says h.filed, ?_⟩
  intro text htext
  have hgiven := h.given
  rw [htext] at hgiven
  cases hgiven with
  | given hobject => exact Document.names_read hobject

theorem Setup.Holds.nodup {files : Files} {setup : Setup} {sources : Sources}
    (h : setup.Holds files sources) : ∀ source ∈ sources.keywords, source.names.Nodup := by
  have hnone : (Members.names []).Nodup := List.nodup_nil
  have hnamed := h.named.satisfies (fun members => members.names.Nodup) hnone
    fun _ _ => nodup_of_holdsKeywords
  have hfiled := h.filed.satisfies (fun members => members.names.Nodup) hnone
    fun _ _ => nodup_of_holdsKeywords
  have hgiven := h.given.satisfies (fun members => members.names.Nodup) hnone
    fun _ _ => nodup_of_holdsObject
  intro source hmem
  simp only [Sources.keywords, List.mem_cons, List.not_mem_nil, or_false] at hmem
  rcases hmem with rfl | rfl | rfl | rfl
  · exact hnamed
  · exact h.ascending.nodup
  · exact hfiled
  · exact hgiven

-- ── The precedence of sources ───────────────────────────────────────────────

/-- **KEYWORD PRECEDENCE**: a setup is loaded exactly if every source that is given can be read and
    is of the right shape, and otherwise fails with the fault of the first bad one, whatever the
    words are in which a mismatch in the settings is told. Loaded keywords are those of all sources:
    the last source that has a keyword decides about its value, and keywords stand in the order of
    their first definition, each source's own in the order in which its reader delivers them. -/
theorem load_precedence (wording : Settings.Wording) (files : Files) (setup : Setup) :
    ((∃ workspace, (setup.load files wording).result = .ok workspace)
        ↔ ∃ sources, setup.Holds files sources) ∧
      (∀ chain, (setup.load files wording).result = .error chain
        ↔ Setup.FirstBad wording files setup chain) ∧
      ∀ workspace, (setup.load files wording).result = .ok workspace →
        ∃ sources, setup.Holds files sources ∧ workspace.settings = sources.settings ∧
          Precedes sources.keywords workspace.mappings ∧ setup.InReaderOrder files sources := by
  refine ⟨⟨?_, ?_⟩, fun _ => Setup.load_error_iff, ?_⟩
  · rintro ⟨workspace, h⟩
    obtain ⟨sources, hholds, -⟩ := Setup.load_ok_iff.mp h
    exact ⟨sources, hholds⟩
  · rintro ⟨sources, hholds⟩
    exact ⟨_, Setup.load_ok_iff.mpr ⟨sources, hholds, rfl⟩⟩
  · intro workspace h
    obtain ⟨sources, hholds, rfl⟩ := Setup.load_ok_iff.mp h
    exact ⟨sources, hholds, rfl, precedes_foldl_merge hholds.nodup, hholds.inReaderOrder⟩

/-- Settings with keywords of their own that name a file with keywords, and a further file; and
    settings in which two entries hold numbers instead of what is due. -/
def layeredFiles : Files := fun path =>
  if path = "etc/settings.toml" then
    .ok "keywords_file = \"base.json\"\n[keywords]\nzone = 2\nname = \"own\"\n"
  else if path = "etc/base.json" then
    .ok "\x7b\"zone\":1,\"tier\":\x7b\"old\":true\x7d,\"zone\":7\x7d"
  else if path = "more.json" then .ok "\x7b\"tier\":\x7b\"new\":null\x7d\x7d"
  else if path = "counted.toml" then .ok "templated_fields = 1\nchild_list_field = 2\n"
  else .error .notFound

/-- All four sources of keywords. -/
def layeredSetup : Setup :=
  ⟨some "etc/settings.toml", some "more.json", some "\x7b\"last\":[],\"name\":\"mine\"\x7d"⟩

/-- The words of a reader that shows where a number stands for which text is due. -/
def pointingWording : Settings.Wording := fun text mismatch =>
  match mismatch.value with
  | .integer value mark =>
    mark.picture text.toList ++ s!"invalid type: integer `{value}`, expected a string\n"
  | _ => mismatch.key

/-- Four layers of keywords are merged in their order. Settings with two mismatches are refused for
    the one with the lesser key, although it is the second in the text. -/
theorem load_precedence_layeredSetup :
    (∃ sources workspace, layeredSetup.Holds layeredFiles sources ∧
      (layeredSetup.load layeredFiles pointingWording).result = .ok workspace ∧
      workspace.mappings = [("zone", .number (.integer 2)), ("tier", .object [("new", .null)]),
        ("name", .string "mine"), ("last", .array [])] ∧
      Precedes sources.keywords workspace.mappings ∧
      layeredSetup.InReaderOrder layeredFiles sources) ∧
    Setup.FirstBad pointingWording layeredFiles ⟨some "counted.toml", none, none⟩
      ⟨[.note "Failed to parse config file: counted.toml"],
        .toml ("TOML parse error at line 2, column 20\n" ++
          "  |\n" ++
          "2 | child_list_field = 2\n" ++
          "  |                    ^\n" ++
          "invalid type: integer `2`, expected a string\n")⟩ := by
  have hok := Journaled.ok_of_toOption (show
    (layeredSetup.load layeredFiles pointingWording).result.toOption
      = some ⟨{ keywords := [("name", .string "own"), ("zone", .number (.integer 2))]
                keywordsFile := some "etc/base.json" },
          [("zone", .number (.integer 2)), ("tier", .object [("new", .null)]),
            ("name", .string "mine"), ("last", .array [])]⟩ by decide +kernel)
  obtain ⟨sources, hholds, -, hprecedes, horder⟩ :=
    (load_precedence pointingWording layeredFiles layeredSetup).2.2 _ hok
  refine ⟨⟨sources, _, hholds, hok, rfl, hprecedes, horder⟩, ?_⟩
  have herror := (load_precedence pointingWording layeredFiles ⟨some "counted.toml", none, none⟩).2.1
  exact (herror _).mp (by decide +kernel)

end Stencil
