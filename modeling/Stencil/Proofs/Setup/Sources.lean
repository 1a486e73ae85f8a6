import Stencil.Setup
import Stencil.Proofs.Source
import Stencil.Proofs.Document.Reading
import Stencil.Proofs.Settings.Mismatch

/-!
# Keyword sources — what they hold, and how they can be bad

Settings come from a file, and keywords from the file that the settings name, from the settings,
from a further file and from a text. Each of them may be missing, and then says nothing. What a
source that is given holds is stated by what can be read of it; the ways in which it can be bad are
listed with the fault that each of them leads to. The two sides are exhaustive: a source is loaded
exactly if it holds something, and fails exactly if it is bad (the `_ok_iff` and `_error_iff`
lemmas, one pair for each kind of source). The source that a whole setup fails with is the first
bad one (`load_error_iff`). In which words the reader of settings refuses an entry of the wrong
shape is up to the reader: all of this holds for every wording.
-/

namespace Stencil

/-- A source that may be missing, and what it says: something settled beforehand if it is. -/
inductive Says {α β : Type} (holds : α → β → Prop) (otherwise : β) : Option α → β → Prop where
  | missing : Says holds otherwise none otherwise
  | given {source : α} {value : β} (h : holds source value) :
      Says holds otherwise (some source) value

-- ── What sources hold ───────────────────────────────────────────────────────

/-- A text is a JSON object with these members. -/
def HoldsObject (text : String) (members : Members) : Prop :=
  Document.read text = .ok (.object members)

/-- A file can be read and is a JSON object with these members. -/
def HoldsKeywords (files : Files) (path : String) (members : Members) : Prop :=
  ∃ text, files path = .ok text ∧ HoldsObject text members

/-- A file can be read and is a settings text. A keywords file that it names is relative to its
    directory. -/
def HoldsSettings (files : Files) (path : String) (settings : Settings) : Prop :=
  ∃ text parsed, files path = .ok text ∧ Settings.ofToml text = .ok parsed ∧
    settings = { parsed with
      keywordsFile := parsed.keywordsFile.map (Path.within (Path.directory path)) }

-- ── How sources can be bad ──────────────────────────────────────────────────

/-- How a settings file can be bad, and the fault then: it cannot be read, it is no TOML, or an
    entry of it does not fit, the first one in the order of keys. Such a mismatch is told in the
    words of the reader. -/
inductive BadSettings (wording : Settings.Wording) (files : Files) (path : String) :
    FaultChain → Prop where
  | unreadable {fault : FileFault} (h : files path = .error fault) :
      BadSettings wording files path
        ⟨[.note ("Failed to read config file: " ++ path)], fault.origin⟩
  | malformed {text : String} {problem : Toml.Problem} (htext : files path = .ok text)
      (h : Toml.read text = .error problem) :
      BadSettings wording files path
        ⟨[.note ("Failed to parse config file: " ++ path)], .toml (problem.message text.toList)⟩
  | misfit {text : String} {entries : Toml.Entries} {mismatch : Settings.Mismatch}
      (htext : files path = .ok text) (hread : Toml.read text = .ok entries)
      (h : Settings.FirstMismatch entries mismatch) :
      BadSettings wording files path
        ⟨[.note ("Failed to parse config file: " ++ path)], .toml (wording text mismatch)⟩

/-- How a keywords file can be bad, and the fault then. -/
inductive BadKeywords (files : Files) (path : String) : FaultChain → Prop where
  | unreadable {fault : FileFault} (h : files path = .error fault) :
      BadKeywords files path ⟨[.note ("Failed to read keywords file: " ++ path)], fault.origin⟩
  | malformed {text : String} {diagnostic : Document.Diagnostic} (htext : files path = .ok text)
      (h : Document.read text = .error diagnostic) :
      BadKeywords files path
        (.of (.fault (.unreadable path (unreadableReason [] text diagnostic))))
  | list {text : String} {items : List Document} (htext : files path = .ok text)
      (h : Document.read text = .ok (.array items)) :
      BadKeywords files path (.of (.fault (.settings
        ("Keywords file " ++ path ++ " must contain a JSON object, found " ++ "an array"))))
  | scalar {text : String} {document : Document} (htext : files path = .ok text)
      (h : Document.read text = .ok document) (simple : document.IsScalar) :
      BadKeywords files path (.of (.fault (.settings
        ("Keywords file " ++ path ++ " must contain a JSON object, found " ++ "a scalar"))))

/-- How a text of keywords can be bad, and the fault then. -/
inductive BadObject (text : String) : FaultChain → Prop where
  | malformed {diagnostic : Document.Diagnostic} (h : Document.read text = .error diagnostic) :
      BadObject text
        (.of (.fault (.unreadable "--keyword-mappings" (unreadableReason [] text diagnostic))))
  | list {items : List Document} (h : Document.read text = .ok (.array items)) :
      BadObject text (.of (.plain "--keyword-mappings must be a JSON object"))
  | scalar {document : Document} (h : Document.read text = .ok document)
      (simple : document.IsScalar) :
      BadObject text (.of (.plain "--keyword-mappings must be a JSON object"))

-- ── Loading one source ──────────────────────────────────────────────────────

variable {wording : Settings.Wording} {files : Files} {path text : String} {chain : FaultChain}

theorem Files.readNoting_ok_iff {purpose : String} :
    files.readNoting purpose path = .ok text ↔ files path = .ok text :=
  Journaled.mapError_eq_ok_iff

/-- A file that cannot be read is noted with its purpose and its path. -/
theorem Files.readNoting_error_iff {purpose : String} :
    files.readNoting purpose path = .error chain
      ↔ ∃ fault, files path = .error fault ∧ chain = ⟨[.note (purpose ++ path)], fault.origin⟩ :=
  Journaled.mapError_eq_error_iff

/-- Settings are loaded if the file holds them. -/
theorem Settings.fromFile_ok_iff {settings : Settings} :
    (fromFile files path wording).result = .ok settings ↔ HoldsSettings files path settings := by
  unfold fromFile
  constructor
  · intro h
    obtain ⟨text, htext, h⟩ := Journaled.ok_bind_iff.mp h
    obtain ⟨parsed, hparsed, h⟩ := Journaled.ok_bind_iff.mp h
    obtain ⟨-, -, h⟩ := Journaled.ok_bind_iff.mp h
    exact ⟨text, parsed, Files.readNoting_ok_iff.mp htext,
      Journaled.mapError_eq_ok_iff.mp hparsed, (Journaled.ok_pure_iff.mp h).symm⟩
  · rintro ⟨text, parsed, htext, hparsed, rfl⟩
    refine Journaled.ok_bind_iff.mpr ⟨text, Files.readNoting_ok_iff.mpr htext, ?_⟩
    refine Journaled.ok_bind_iff.mpr ⟨parsed, Journaled.mapError_eq_ok_iff.mpr hparsed, ?_⟩
    exact Journaled.ok_bind_iff.mpr ⟨(), rfl, rfl⟩

/-- Loading settings fails as bad settings do. -/
theorem Settings.fromFile_error_iff :
    (fromFile files path wording).result = .error chain ↔ BadSettings wording files path chain := by
  unfold fromFile
  constructor
  · intro h
    rcases Journaled.error_bind_iff.mp h with h | ⟨text, htext, h⟩
    · obtain ⟨fault, hfault, rfl⟩ := Files.readNoting_error_iff.mp h
      exact .unreadable hfault
    have htext := Files.readNoting_ok_iff.mp htext
    rcases Journaled.error_bind_iff.mp h with h | ⟨parsed, -, h⟩
    · obtain ⟨refusal, hrefusal, rfl⟩ := Journaled.mapError_eq_error_iff.mp h
      rcases ofToml_error_iff.mp hrefusal with
        ⟨problem, hproblem, rfl⟩ | ⟨entries, mismatch, hentries, hfirst, rfl⟩
      · exact .malformed htext hproblem
      · exact .misfit htext hentries hfirst
    · exact nomatch h
  · intro h
    -- a refusal is noted under its path, whichever of the two it is
    have hrefused : ∀ {text refusal}, files path = .ok text → ofToml text = .error refusal →
        (fromFile files path wording).result
          = .error ⟨[.note ("Failed to parse config file: " ++ path)],
              .toml (refusal.message wording text)⟩ := by
      intro text refusal htext hrefusal
      refine Journaled.error_bind_iff.mpr (.inr ⟨_, Files.readNoting_ok_iff.mpr htext, ?_⟩)
      exact Journaled.error_bind_iff.mpr
        (.inl (Journaled.mapError_eq_error_iff.mpr ⟨_, hrefusal, rfl⟩))
    cases h with
    | unreadable hfault =>
        exact Journaled.error_bind_iff.mpr
          (.inl (Files.readNoting_error_iff.mpr ⟨_, hfault, rfl⟩))
    | malformed htext hproblem =>
        exact hrefused htext (ofToml_error_iff.mpr (.inl ⟨_, hproblem, rfl⟩))
    | misfit htext hentries hfirst =>
        exact hrefused htext (ofToml_error_iff.mpr (.inr ⟨_, _, hentries, hfirst, rfl⟩))

/-- The document of a source without mappings is what its text reads as. -/
theorem unmapped_ok_iff {label : String} {document : Document} :
    (((Source.mk label text).document []).mapFault fun fault =>
        FaultChain.of (.fault fault)).result = .ok document
      ↔ Document.read text = .ok document := by
  rw [Journaled.ok_mapFault_iff, Source.document_ok_iff, Placeholder.resolve_nil]

/-- A text without mappings fails as the reader does. -/
theorem unmapped_error_iff {label : String} :
    (((Source.mk label text).document []).mapFault fun fault =>
        FaultChain.of (.fault fault)).result = .error chain
      ↔ ∃ diagnostic, Document.read text = .error diagnostic ∧
          chain = .of (.fault (.unreadable label (unreadableReason [] text diagnostic))) := by
  rw [Journaled.error_mapFault_iff]
  constructor
  · rintro ⟨fault, hfault, rfl⟩
    obtain ⟨diagnostic, hread, rfl⟩ := Source.document_error_iff.mp hfault
    exact ⟨diagnostic, hread, rfl⟩
  · rintro ⟨diagnostic, hread, rfl⟩
    exact ⟨_, Source.document_error_iff.mpr ⟨diagnostic, hread, rfl⟩, rfl⟩

/-- Keywords are loaded if the file holds them. -/
theorem keywordsFromFile_ok_iff {members : Members} :
    (keywordsFromFile files path).result = .ok members ↔ HoldsKeywords files path members := by
  unfold keywordsFromFile
  constructor
  · intro h
    obtain ⟨text, htext, h⟩ := Journaled.ok_bind_iff.mp h
    obtain ⟨document, hdocument, h⟩ := Journaled.ok_bind_iff.mp h
    cases document with
    | object found =>
        obtain rfl := Journaled.ok_pure_iff.mp h
        exact ⟨text, Files.readNoting_ok_iff.mp htext, unmapped_ok_iff.mp hdocument⟩
    | _ => exact nomatch h
  · rintro ⟨text, htext, hread⟩
    refine Journaled.ok_bind_iff.mpr ⟨text, Files.readNoting_ok_iff.mpr htext, ?_⟩
    exact Journaled.ok_bind_iff.mpr ⟨.object members, unmapped_ok_iff.mpr hread, rfl⟩

/-- Loading keywords fails as a bad file of keywords does. -/
theorem keywordsFromFile_error_iff :
    (keywordsFromFile files path).result = .error chain ↔ BadKeywords files path chain := by
  unfold keywordsFromFile
  constructor
  · intro h
    rcases Journaled.error_bind_iff.mp h with h | ⟨text, htext, h⟩
    · obtain ⟨fault, hfault, rfl⟩ := Files.readNoting_error_iff.mp h
      exact .unreadable hfault
    have htext := Files.readNoting_ok_iff.mp htext
    rcases Journaled.error_bind_iff.mp h with h | ⟨document, hdocument, h⟩
    · obtain ⟨diagnostic, hread, rfl⟩ := unmapped_error_iff.mp h
      exact .malformed htext hread
    have hread := unmapped_ok_iff.mp hdocument
    cases document with
    | object found => exact nomatch h
    | array items =>
        obtain rfl := Except.error.inj h
        exact .list htext hread
    | _ =>
        obtain rfl := Except.error.inj h
        exact .scalar htext hread trivial
  · intro h
    cases h with
    | unreadable hfault =>
        exact Journaled.error_bind_iff.mpr
          (.inl (Files.readNoting_error_iff.mpr ⟨_, hfault, rfl⟩))
    | malformed htext hread =>
        refine Journaled.error_bind_iff.mpr (.inr ⟨_, Files.readNoting_ok_iff.mpr htext, ?_⟩)
        exact Journaled.error_bind_iff.mpr (.inl (unmapped_error_iff.mpr ⟨_, hread, rfl⟩))
    | list htext hread =>
        refine Journaled.error_bind_iff.mpr (.inr ⟨_, Files.readNoting_ok_iff.mpr htext, ?_⟩)
        exact Journaled.error_bind_iff.mpr (.inr ⟨_, unmapped_ok_iff.mpr hread, rfl⟩)
    | @scalar text document htext hread hsimple =>
        refine Journaled.error_bind_iff.mpr (.inr ⟨_, Files.readNoting_ok_iff.mpr htext, ?_⟩)
        refine Journaled.error_bind_iff.mpr (.inr ⟨_, unmapped_ok_iff.mpr hread, ?_⟩)
        cases document with
        | array items => exact hsimple.elim
        | object members => exact hsimple.elim
        | _ => rfl

/-- Keywords are taken from a text that is an object. -/
theorem keywordsFromText_ok_iff {members : Members} :
    (keywordsFromText text).result = .ok members ↔ HoldsObject text members := by
  unfold keywordsFromText
  constructor
  · intro h
    obtain ⟨document, hdocument, h⟩ := Journaled.ok_bind_iff.mp h
    cases document with
    | object found =>
        obtain rfl := Journaled.ok_pure_iff.mp h
        exact unmapped_ok_iff.mp hdocument
    | _ => exact nomatch h
  · intro hread
    exact Journaled.ok_bind_iff.mpr ⟨.object members, unmapped_ok_iff.mpr hread, rfl⟩

/-- Taking keywords from a text fails as a bad object does. -/
theorem keywordsFromText_error_iff :
    (keywordsFromText text).result = .error chain ↔ BadObject text chain := by
  unfold keywordsFromText
  constructor
  · intro h
    rcases Journaled.error_bind_iff.mp h with h | ⟨document, hdocument, h⟩
    · obtain ⟨diagnostic, hread, rfl⟩ := unmapped_error_iff.mp h
      exact .malformed hread
    have hread := unmapped_ok_iff.mp hdocument
    cases document with
    | object found => exact nomatch h
    | array items =>
        obtain rfl := Except.error.inj h
        exact .list hread
    | _ =>
        obtain rfl := Except.error.inj h
        exact .scalar hread trivial
  · intro h
    cases h with
    | malformed hread =>
        exact Journaled.error_bind_iff.mpr (.inl (unmapped_error_iff.mpr ⟨_, hread, rfl⟩))
    | list hread =>
        exact Journaled.error_bind_iff.mpr (.inr ⟨_, unmapped_ok_iff.mpr hread, rfl⟩)
    | @scalar document hread hsimple =>
        refine Journaled.error_bind_iff.mpr (.inr ⟨_, unmapped_ok_iff.mpr hread, ?_⟩)
        cases document with
        | array items => exact hsimple.elim
        | object members => exact hsimple.elim
        | _ => rfl

-- ── Loading a source that may be missing ────────────────────────────────────

/-- Loads a source if there is one. -/
def optionally {α β : Type} (load : α → Journaled FaultChain β) (otherwise : β) :
    Option α → Journaled FaultChain β
  | some source => load source
  | none => .ok otherwise

section Optional

variable {α β : Type} {load : α → Journaled FaultChain β} {otherwise : β} {source? : Option α}

/-- What may be left out is either loaded or taken to be the default. -/
theorem optionally_ok_iff {holds : α → β → Prop} {value : β}
    (hload : ∀ source, (load source).result = .ok value ↔ holds source value) :
    (optionally load otherwise source?).result = .ok value
      ↔ Says holds otherwise source? value := by
  cases source? with
  | none =>
      constructor
      · intro h
        obtain rfl := Except.ok.inj h
        exact .missing
      · intro h
        cases h
        rfl
  | some source =>
      constructor
      · intro h
        exact .given ((hload source).mp h)
      · intro h
        cases h with
        | given h => exact (hload source).mpr h

/-- A source that is missing is not bad. -/
theorem optionally_error_iff {bad : α → FaultChain → Prop}
    (hload : ∀ source, (load source).result = .error chain ↔ bad source chain) :
    (optionally load otherwise source?).result = .error chain
      ↔ ∃ source, source? = some source ∧ bad source chain := by
  cases source? with
  | none =>
      constructor
      · intro h
        exact nomatch h
      · rintro ⟨source, h, -⟩
        exact nomatch h
  | some source =>
      constructor
      · intro h
        exact ⟨source, rfl, (hload source).mp h⟩
      · rintro ⟨other, h, hbad⟩
        obtain rfl := Option.some.inj h
        exact (hload source).mpr hbad

end Optional

/-- The settings of a setup: those of its file, or those that say nothing. -/
def Setup.settings (files : Files) (setup : Setup)
    (wording : Settings.Wording := Settings.Mismatch.inBrief) : Journaled FaultChain Settings :=
  optionally (fun path => Settings.fromFile files path wording) {} setup.settingsFile

/-- The settings are those of the file, or the default ones. -/
theorem Setup.settings_ok_iff {setup : Setup} {settings : Settings} :
    (setup.settings files wording).result = .ok settings
      ↔ Says (HoldsSettings files) {} setup.settingsFile settings :=
  optionally_ok_iff fun _ => Settings.fromFile_ok_iff

/-- Only settings from a file can be bad. -/
theorem Setup.settings_error_iff {setup : Setup} :
    (setup.settings files wording).result = .error chain
      ↔ ∃ path, setup.settingsFile = some path ∧ BadSettings wording files path chain :=
  optionally_error_iff fun _ => Settings.fromFile_error_iff

/-- Keywords that are read from a file, or none. -/
theorem keywords_ok_iff {path? : Option String} {members : Members} :
    (optionally (keywordsFromFile files) [] path?).result = .ok members
      ↔ Says (HoldsKeywords files) [] path? members :=
  optionally_ok_iff fun _ => keywordsFromFile_ok_iff

theorem keywords_error_iff {path? : Option String} :
    (optionally (keywordsFromFile files) [] path?).result = .error chain
      ↔ ∃ path, path? = some path ∧ BadKeywords files path chain :=
  optionally_error_iff fun _ => keywordsFromFile_error_iff

/-- Keywords that are read from a text, or none. -/
theorem object_ok_iff {text? : Option String} {members : Members} :
    (optionally keywordsFromText [] text?).result = .ok members
      ↔ Says HoldsObject [] text? members :=
  optionally_ok_iff fun _ => keywordsFromText_ok_iff

theorem object_error_iff {text? : Option String} :
    (optionally keywordsFromText [] text?).result = .error chain
      ↔ ∃ text, text? = some text ∧ BadObject text chain :=
  optionally_error_iff fun _ => keywordsFromText_error_iff

-- ── Loading a setup ─────────────────────────────────────────────────────────

/-- What the sources of a setup say: its settings, and the members of each source of keywords. -/
structure Sources where
  settings : Settings
  named : Members
  filed : Members
  given : Members

/-- The sources of keywords, the weakest first: the file that the settings name, the settings, the
    further file, and the text. -/
def Sources.keywords (sources : Sources) : List Members :=
  [sources.named, sources.settings.keywords, sources.filed, sources.given]

namespace Setup

/-- Every source of a setup that is given can be read and is of the right shape. -/
structure Holds (files : Files) (setup : Setup) (sources : Sources) : Prop where
  settings : Says (HoldsSettings files) {} setup.settingsFile sources.settings
  named : Says (HoldsKeywords files) [] sources.settings.keywordsFile sources.named
  filed : Says (HoldsKeywords files) [] setup.keywordsFile sources.filed
  given : Says HoldsObject [] setup.inlineKeywords sources.given

/-- The fault of the first source that is bad: those before it are not. -/
inductive FirstBad (wording : Settings.Wording) (files : Files) (setup : Setup) :
    FaultChain → Prop where
  | settings {path : String} {chain : FaultChain} (given : setup.settingsFile = some path)
      (bad : BadSettings wording files path chain) : FirstBad wording files setup chain
  | named {settings : Settings} {path : String} {chain : FaultChain}
      (hsettings : Says (HoldsSettings files) {} setup.settingsFile settings)
      (given : settings.keywordsFile = some path) (bad : BadKeywords files path chain) :
      FirstBad wording files setup chain
  | filed {settings : Settings} {named : Members} {path : String} {chain : FaultChain}
      (hsettings : Says (HoldsSettings files) {} setup.settingsFile settings)
      (hnamed : Says (HoldsKeywords files) [] settings.keywordsFile named)
      (given : setup.keywordsFile = some path) (bad : BadKeywords files path chain) :
      FirstBad wording files setup chain
  | given {settings : Settings} {named filed : Members} {text : String} {chain : FaultChain}
      (hsettings : Says (HoldsSettings files) {} setup.settingsFile settings)
      (hnamed : Says (HoldsKeywords files) [] settings.keywordsFile named)
      (hfiled : Says (HoldsKeywords files) [] setup.keywordsFile filed)
      (given : setup.inlineKeywords = some text) (bad : BadObject text chain) :
      FirstBad wording files setup chain

/-- The keywords of settings are loaded first, those of the file that they name, and merged with
    their own. -/
theorem mappings_eq (files : Files) (settings : Settings) :
    settings.mappings files
      = optionally (keywordsFromFile files) [] settings.keywordsFile >>= fun named =>
          pure (Members.merge (Members.merge [] named) settings.keywords) := by
  unfold Settings.mappings
  cases settings.keywordsFile <;> rfl

/-- A setup is loaded one source after another. -/
theorem load_eq (files : Files) (setup : Setup) (wording : Settings.Wording) :
    setup.load files wording
      = setup.settings files wording >>= fun settings =>
        settings.mappings files >>= fun own =>
        optionally (keywordsFromFile files) [] setup.keywordsFile >>= fun filed =>
        optionally keywordsFromText [] setup.inlineKeywords >>= fun given =>
        Journaled.report
            [.mappingsMerged (Members.merge (Members.merge own filed) given).length] >>= fun _ =>
        pure ⟨settings, Members.merge (Members.merge own filed) given⟩ := by
  obtain ⟨settingsFile, keywordsFile, inlineKeywords⟩ := setup
  cases settingsFile <;> cases keywordsFile <;> cases inlineKeywords <;> rfl

/-- **A setup is loaded** exactly if every source that is given holds something, and its keywords
    are then those of all sources, merged one after another. -/
theorem load_ok_iff {wording : Settings.Wording} {files : Files} {setup : Setup}
    {workspace : Workspace} :
    (setup.load files wording).result = .ok workspace
      ↔ ∃ sources, setup.Holds files sources ∧
          workspace = ⟨sources.settings, sources.keywords.foldl Members.merge []⟩ := by
  rw [load_eq]
  constructor
  · intro h
    obtain ⟨settings, hsettings, h⟩ := Journaled.ok_bind_iff.mp h
    obtain ⟨own, hown, h⟩ := Journaled.ok_bind_iff.mp h
    rw [mappings_eq] at hown
    obtain ⟨named, hnamed, hown⟩ := Journaled.ok_bind_iff.mp hown
    obtain ⟨filed, hfiled, h⟩ := Journaled.ok_bind_iff.mp h
    obtain ⟨given, hgiven, h⟩ := Journaled.ok_bind_iff.mp h
    obtain ⟨-, -, h⟩ := Journaled.ok_bind_iff.mp h
    obtain rfl := Journaled.ok_pure_iff.mp hown
    refine ⟨⟨settings, named, filed, given⟩, ?_, (Journaled.ok_pure_iff.mp h).symm⟩
    exact ⟨settings_ok_iff.mp hsettings, keywords_ok_iff.mp hnamed, keywords_ok_iff.mp hfiled,
      object_ok_iff.mp hgiven⟩
  · rintro ⟨⟨settings, named, filed, given⟩, ⟨hsettings, hnamed, hfiled, hgiven⟩, rfl⟩
    refine Journaled.ok_bind_iff.mpr ⟨settings, settings_ok_iff.mpr hsettings, ?_⟩
    rw [mappings_eq]
    refine Journaled.ok_bind_iff.mpr
      ⟨_, Journaled.ok_bind_iff.mpr ⟨named, keywords_ok_iff.mpr hnamed, rfl⟩, ?_⟩
    refine Journaled.ok_bind_iff.mpr ⟨filed, keywords_ok_iff.mpr hfiled, ?_⟩
    refine Journaled.ok_bind_iff.mpr ⟨given, object_ok_iff.mpr hgiven, ?_⟩
    exact Journaled.ok_bind_iff.mpr ⟨(), rfl, rfl⟩

/-- **A setup fails** with the fault of the first source that is bad. -/
theorem load_error_iff {wording : Settings.Wording} {files : Files} {setup : Setup}
    {chain : FaultChain} :
    (setup.load files wording).result = .error chain ↔ FirstBad wording files setup chain := by
  rw [load_eq]
  constructor
  · intro h
    rcases Journaled.error_bind_iff.mp h with h | ⟨settings, hsettings, h⟩
    · obtain ⟨path, hpath, hbad⟩ := settings_error_iff.mp h
      exact .settings hpath hbad
    have hsettings := settings_ok_iff.mp hsettings
    rw [mappings_eq] at h
    rcases Journaled.error_bind_iff.mp h with h | ⟨own, hown, h⟩
    · rcases Journaled.error_bind_iff.mp h with h | ⟨named, -, h⟩
      · obtain ⟨path, hpath, hbad⟩ := keywords_error_iff.mp h
        exact .named hsettings hpath hbad
      · exact nomatch h
    obtain ⟨named, hnamed, -⟩ := Journaled.ok_bind_iff.mp hown
    have hnamed := keywords_ok_iff.mp hnamed
    rcases Journaled.error_bind_iff.mp h with h | ⟨filed, hfiled, h⟩
    · obtain ⟨path, hpath, hbad⟩ := keywords_error_iff.mp h
      exact .filed hsettings hnamed hpath hbad
    have hfiled := keywords_ok_iff.mp hfiled
    rcases Journaled.error_bind_iff.mp h with h | ⟨given, -, h⟩
    · obtain ⟨text, htext, hbad⟩ := object_error_iff.mp h
      exact .given hsettings hnamed hfiled htext hbad
    · rcases Journaled.error_bind_iff.mp h with h | ⟨-, -, h⟩
      · exact nomatch h
      · exact nomatch h
  · intro h
    cases h with
    | settings hpath hbad =>
        exact Journaled.error_bind_iff.mpr (.inl (settings_error_iff.mpr ⟨_, hpath, hbad⟩))
    | named hsettings hpath hbad =>
        refine Journaled.error_bind_iff.mpr (.inr ⟨_, settings_ok_iff.mpr hsettings, ?_⟩)
        rw [mappings_eq]
        refine Journaled.error_bind_iff.mpr (.inl (Journaled.error_bind_iff.mpr (.inl ?_)))
        exact keywords_error_iff.mpr ⟨_, hpath, hbad⟩
    | filed hsettings hnamed hpath hbad =>
        refine Journaled.error_bind_iff.mpr (.inr ⟨_, settings_ok_iff.mpr hsettings, ?_⟩)
        rw [mappings_eq]
        refine Journaled.error_bind_iff.mpr (.inr
          ⟨_, Journaled.ok_bind_iff.mpr ⟨_, keywords_ok_iff.mpr hnamed, rfl⟩, ?_⟩)
        exact Journaled.error_bind_iff.mpr (.inl (keywords_error_iff.mpr ⟨_, hpath, hbad⟩))
    | given hsettings hnamed hfiled htext hbad =>
        refine Journaled.error_bind_iff.mpr (.inr ⟨_, settings_ok_iff.mpr hsettings, ?_⟩)
        rw [mappings_eq]
        refine Journaled.error_bind_iff.mpr (.inr
          ⟨_, Journaled.ok_bind_iff.mpr ⟨_, keywords_ok_iff.mpr hnamed, rfl⟩, ?_⟩)
        refine Journaled.error_bind_iff.mpr (.inr ⟨_, keywords_ok_iff.mpr hfiled, ?_⟩)
        exact Journaled.error_bind_iff.mpr (.inl (object_error_iff.mpr ⟨_, htext, hbad⟩))

end Setup

end Stencil
