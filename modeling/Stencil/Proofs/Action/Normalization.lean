import Stencil.Action
import Stencil.Proofs.Document.Compact
import Stencil.Proofs.Exclusions
import Stencil.Proofs.Resource.Naming
import Stencil.Proofs.Source

/-!
# Normalization — the names that a normalized file is printed with

Unifying the resources of a file loses none of their names. What the settings exclude is left
out of the unified object afterwards, at every depth, and at the uppermost depth the names of
its members are those of the resources: a resource whose name is excluded is left out as a
whole. All others are printed, in the order of their first occurrence. Both follow from what a
success of the action comes to (`normalizeFile_ok_iff`).
-/

namespace Stencil

/-- A file can be read and holds a list of resources. -/
def HoldsList (files : Files) (path : String) (resources : List Document) : Prop :=
  ∃ text, files path = .ok text ∧ Document.read text = .ok (.array resources)

/-- A text is an object as it is printed, with these names in this order. -/
def PrintsNames (compact : Bool) (text : String) (names : List String) : Prop :=
  ∃ members : Members, text = printed (!compact) (.object members) ∧ members.names = names

-- ── Steps of the action ─────────────────────────────────────────────────────

theorem readInput_ok_iff {files : Files} {path text : String} :
    (readInput files path).result = .ok text ↔ files path = .ok text :=
  Journaled.mapError_eq_ok_iff

/-- An input is read as a document once its keywords are resolved. -/
theorem readDocument_ok_iff {mappings : Mappings} {path text : String} {document : Document} :
    (readDocument mappings path text).result = .ok document
      ↔ Document.read (Placeholder.resolve mappings text) = .ok document :=
  Journaled.ok_mapFault_iff.trans Source.document_ok_iff

/-- **Normalizing a file**: it succeeds if the setup can be loaded and the file holds a list
    that can be unified, and prints what the settings leave of the unified object. -/
theorem normalizeFile_ok_iff {files : Files} {setup : Setup} {input text : String}
    {compact : Bool} :
    (normalizeFile files setup input compact).result = .ok text
      ↔ ∃ (workspace : Workspace) (resources : List Document) (unified : Members),
          (setup.load files).result = .ok workspace ∧ HoldsList files input resources ∧
          (unify workspace.settings.rules workspace.mappings resources).result = .ok unified ∧
          text = printed (!compact) (workspace.settings.exclusions.reduce (.object unified)) := by
  unfold normalizeFile
  rw [Journaled.ok_bind_iff]
  constructor
  · rintro ⟨workspace, hload, h⟩
    obtain ⟨source, hsource, h⟩ := Journaled.ok_bind_iff.mp h
    obtain ⟨document, hdocument, h⟩ := Journaled.ok_bind_iff.mp h
    rw [readDocument_ok_iff, Placeholder.resolve_nil] at hdocument
    split at h
    · next resources =>
        obtain ⟨unified, hunified, h⟩ := Journaled.ok_bind_iff.mp h
        obtain ⟨-, -, h⟩ := Journaled.ok_bind_iff.mp h
        exact ⟨workspace, resources, unified, hload,
          ⟨source, readInput_ok_iff.mp hsource, hdocument⟩,
          Journaled.ok_mapFault_iff.mp hunified, (Journaled.ok_pure_iff.mp h).symm⟩
    · cases h
  · rintro ⟨workspace, resources, unified, hload, ⟨source, hsource, hdocument⟩, hunified, rfl⟩
    refine ⟨workspace, hload, ?_⟩
    refine Journaled.ok_bind_iff.mpr ⟨source, readInput_ok_iff.mpr hsource, ?_⟩
    refine Journaled.ok_bind_iff.mpr ⟨.array resources, readDocument_ok_iff.mpr hdocument, ?_⟩
    refine Journaled.ok_bind_iff.mpr ⟨unified, Journaled.ok_mapFault_iff.mpr hunified, ?_⟩
    exact Journaled.ok_bind_iff.mpr ⟨(), rfl, rfl⟩

-- ── The names ───────────────────────────────────────────────────────────────

/-- Only an object without members is printed as a pair of braces. -/
theorem names_eq_nil_of_compact_eq_braces {members : Members}
    (h : printed false (.object members) = "\x7b\x7d") : members.names = [] := by
  have hchars : (Document.object members).render .compact 0 = ['\x7b', '\x7d'] :=
    String.toList_ofList.symm.trans (congrArg String.toList h)
  rw [Document.render_compact_object] at hchars
  cases members with
  | nil => rfl
  | cons member members =>
      obtain ⟨name, value⟩ := member
      rw [Document.renderMembers_compact_cons] at hchars
      have hquote : '"' = '\x7d' := (List.cons.inj (List.cons.inj hchars).2).1
      exact absurd hquote (by decide)

/-- **NAMES OF A NORMALIZED FILE**: the printed object has exactly the distinct names of the
    resources that are not excluded, in the order of their first occurrence. -/
theorem normalizeFile_printsNames {files : Files} {setup : Setup} {input text : String}
    {compact : Bool} (h : (normalizeFile files setup input compact).result = .ok text) :
    ∃ (workspace : Workspace) (resources : List Document),
      (setup.load files).result = .ok workspace ∧ HoldsList files input resources ∧
      PrintsNames compact text ((resourceNames resources).eraseDups.filter fun name =>
        !workspace.settings.excluded.contains name) := by
  obtain ⟨workspace, resources, unified, hload, hlist, hunified, rfl⟩ :=
    normalizeFile_ok_iff.mp h
  obtain ⟨kept, hkept, hnames⟩ := workspace.settings.exclusions.exists_reduce_object unified
  refine ⟨workspace, resources, hload, hlist, kept, congrArg (printed (!compact)) hkept, ?_⟩
  rw [hnames, names_unify hunified]
  rfl

/-- Settings that leave out identifiers, and lists in which a resource is called like them. -/
def clashingFiles : Files := fun path =>
  if path = "settings.toml" then .ok "exclude_properties = [\"id\"]\n"
  else if path = "single.json" then .ok "[\x7b\"name\":\"id\"\x7d]"
  else .ok ("[\x7b\"name\":\"db\"\x7d,\x7b\"name\":\"id\"\x7d," ++
    "\x7b\"id\":7,\"name\":\"api\"\x7d,\x7b\"name\":\"db\"\x7d]")

/-- These settings, and no keywords but theirs. -/
def clashingSetup : Setup :=
  ⟨some "settings.toml", none, none⟩

/-- A list that defines a name twice and another one that the settings exclude. -/
theorem normalizeFile_printsNames_clashingFiles :
    (normalizeFile clashingFiles clashingSetup "list.json" true).result
        = .ok "\x7b\"db\":\x7b\"name\":\"db\"\x7d,\"api\":\x7b\"name\":\"api\"\x7d\x7d" ∧
      ∃ (workspace : Workspace) (resources : List Document),
        (clashingSetup.load clashingFiles).result = .ok workspace ∧
        HoldsList clashingFiles "list.json" resources ∧
        PrintsNames true "\x7b\"db\":\x7b\"name\":\"db\"\x7d,\"api\":\x7b\"name\":\"api\"\x7d\x7d"
          ((resourceNames resources).eraseDups.filter fun name =>
            !workspace.settings.excluded.contains name) := by
  have hok := Journaled.ok_of_toOption (show
    (normalizeFile clashingFiles clashingSetup "list.json" true).result.toOption
      = some "\x7b\"db\":\x7b\"name\":\"db\"\x7d,\"api\":\x7b\"name\":\"api\"\x7d\x7d" by
    decide +kernel)
  exact ⟨hok, normalizeFile_printsNames hok⟩

/-- **Not every name is printed**: a resource whose name is excluded is left out, although
    everything goes well. -/
theorem not_printsNames_of_excluded_name :
    ¬ ∀ (files : Files) (setup : Setup) (input : String) (compact : Bool) (text : String)
        (resources : List Document),
        (normalizeFile files setup input compact).result = .ok text →
        HoldsList files input resources →
        PrintsNames compact text (resourceNames resources).eraseDups := by
  intro hall
  have hok := Journaled.ok_of_toOption (show
    (normalizeFile clashingFiles clashingSetup "single.json" true).result.toOption
      = some "\x7b\x7d" by decide +kernel)
  have hlist : HoldsList clashingFiles "single.json" [.object [("name", .string "id")]] :=
    ⟨"[\x7b\"name\":\"id\"\x7d]", rfl, by decide +kernel⟩
  obtain ⟨members, htext, hnames⟩ := hall _ _ _ _ _ _ hok hlist
  rw [names_eq_nil_of_compact_eq_braces htext.symm] at hnames
  exact nomatch hnames

end Stencil
