import Stencil.Proofs.Action.Normalization
import Stencil.Proofs.Resource.Comparison

/-!
# Comparison of files — what a normalized file hides

Normalizing a file prints nothing that the settings exclude. So two files of which the same is
left without it are printed alike, whatever stands under the excluded names and however often
(`normalizeFile_hidesExcluded`). What is left of a list has to be taken as the unified object
shows it, though: a structured value of a templated field has become text before anything is left
out, so what differs inside it is printed, excluded or not (`not_hidesExcluded_in_templated`).
-/

namespace Stencil

/-- Settings that leave out neither the names of resources nor their children. -/
structure Settings.KeepsResources (settings : Settings) : Prop where
  names : settings.exclusions.excludes nameField = false
  children : ∀ field, settings.rules.isChildList field = true →
    settings.exclusions.excludes field = false

/-- Two lists of which these settings leave the same. -/
def Settings.LeavesSame (settings : Settings) (resources resources' : List Document) : Prop :=
  settings.exclusions.stripResources settings.rules resources
    = settings.exclusions.stripResources settings.rules resources'

instance (settings : Settings) (resources resources' : List Document) :
    Decidable (settings.LeavesSame resources resources') :=
  inferInstanceAs (Decidable (_ = _))

/-- A resource of this name stands in a list, or in the children of one that does. -/
inductive NamesResource (rules : Rules) (name : String) : List Document → Prop where
  | here {fields : Members} {resources : List Document}
      (entry : .object fields ∈ resources) (named : fields.get? nameField = some (.string name)) :
      NamesResource rules name resources
  | child {fields : Members} {field : String} {items resources : List Document}
      (entry : .object fields ∈ resources) (listed : (field, .array items) ∈ fields)
      (children : rules.isChildList field = true) (inner : NamesResource rules name items) :
      NamesResource rules name resources

/-- A file holds one list. -/
theorem HoldsList.unique {files : Files} {path : String} {resources resources' : List Document}
    (h : HoldsList files path resources) (h' : HoldsList files path resources') :
    resources = resources' := by
  obtain ⟨text, htext, hread⟩ := h
  obtain ⟨text', htext', hread'⟩ := h'
  rw [htext] at htext'
  obtain rfl := Except.ok.inj htext'
  rw [hread] at hread'
  exact Document.array.inj (Except.ok.inj hread')

/-- What is printed for one file is printed for every file of which the same is left. -/
theorem normalizeFile_ok_of_ok {files files' : Files} {setup setup' : Setup}
    {input input' text : String} {compact : Bool} {resources resources' : List Document}
    (hload : (setup.load files).result = (setup'.load files').result)
    (hlist : HoldsList files input resources) (hlist' : HoldsList files' input' resources')
    (hleft : ∀ workspace : Workspace, (setup.load files).result = .ok workspace →
      workspace.settings.KeepsResources ∧ workspace.settings.LeavesSame resources resources')
    (h : (normalizeFile files setup input compact).result = .ok text) :
    (normalizeFile files' setup' input' compact).result = .ok text := by
  obtain ⟨workspace, found, unified, hworkspace, hfound, hunified, rfl⟩ :=
    normalizeFile_ok_iff.mp h
  obtain rfl := hfound.unique hlist
  obtain ⟨hkeeps, hstrip⟩ := hleft workspace hworkspace
  obtain ⟨unified', hunified', hsame⟩ :=
    (alike_unify hkeeps.names hkeeps.children hstrip).exists_ok hunified
  refine normalizeFile_ok_iff.mpr
    ⟨workspace, resources', unified', hload.symm.trans hworkspace, hlist', hunified', ?_⟩
  rw [Exclusions.reduce_eq_strip, Exclusions.reduce_eq_strip, Exclusions.strip, Exclusions.strip,
    hsame]

/-- **EXCLUDED NAMES ARE HIDDEN**: with settings that keep the names of resources and their
    children, two files of which the same is left without what is excluded are both refused, or
    printed alike. -/
theorem normalizeFile_hidesExcluded {files files' : Files} {setup setup' : Setup}
    {input input' : String} {compact : Bool} {resources resources' : List Document}
    (hload : (setup.load files).result = (setup'.load files').result)
    (hlist : HoldsList files input resources) (hlist' : HoldsList files' input' resources')
    (hleft : ∀ workspace : Workspace, (setup.load files).result = .ok workspace →
      workspace.settings.KeepsResources ∧ workspace.settings.LeavesSame resources resources') :
    (normalizeFile files setup input compact).result.toOption
      = (normalizeFile files' setup' input' compact).result.toOption := by
  have hleft' : ∀ workspace : Workspace, (setup'.load files').result = .ok workspace →
      workspace.settings.KeepsResources ∧ workspace.settings.LeavesSame resources' resources := by
    intro workspace hworkspace
    obtain ⟨hkeeps, hstrip⟩ := hleft workspace (hload.trans hworkspace)
    exact ⟨hkeeps, hstrip.symm⟩
  cases hone : (normalizeFile files setup input compact).result with
  | ok text => rw [normalizeFile_ok_of_ok hload hlist hlist' hleft hone]
  | error fault =>
      cases hother : (normalizeFile files' setup' input' compact).result with
      | error fault' => rfl
      | ok text =>
          rw [normalizeFile_ok_of_ok hload.symm hlist' hlist hleft' hother] at hone
          exact nomatch hone

/-- Settings that leave out identifiers, and lists of resources with and without them. -/
def identifiedFiles : Files := fun path =>
  if path = "settings.toml" then
    .ok ("templated_fields = [\"script\"]\nchild_list_field = \"parts\"\n" ++
      "exclude_properties = [\"id\"]\n")
  else if path = "local.json" then
    .ok ("[\x7b\"name\":\"app\",\"script\":[true],\"parts\":" ++
      "[\x7b\"name\":\"db\",\"size\":\x7b\"unit\":\"gb\"\x7d\x7d]\x7d]")
  else if path = "remote.json" then
    .ok ("[\x7b\"id\":\"a\",\"name\":\"app\",\"script\":[true],\"parts\":" ++
      "[\x7b\"name\":\"db\",\"size\":\x7b\"id\":null,\"unit\":\"gb\"\x7d,\"id\":[\"b\"]\x7d]\x7d]")
  else if path = "templated.json" then
    .ok "[\x7b\"name\":\"app\",\"script\":\x7b\"id\":true\x7d\x7d]"
  else .ok "[\x7b\"name\":\"app\",\"script\":\x7b\x7d\x7d]"

/-- These settings, and no keywords. -/
def identifiedSetup : Setup :=
  ⟨some "settings.toml", none, none⟩

/-- What these settings say. -/
def identifyingSettings : Settings :=
  { templatedFields := ["script"], childListField := some "parts", excluded := ["id"] }

/-- The sample settings are all that the sample setup loads. -/
theorem load_identifiedSetup :
    (identifiedSetup.load identifiedFiles).result = .ok ⟨identifyingSettings, []⟩ :=
  Journaled.ok_of_toOption (by decide +kernel)

theorem keepsResources_identifyingSettings : identifyingSettings.KeepsResources where
  names := by decide
  children := by
    intro field hfield
    obtain rfl : "parts" = field := Option.some.inj (eq_of_beq hfield)
    decide

/-- The list in the file with identifiers. -/
def remoteResources : List Document :=
  [.object [("id", .string "a"), ("name", .string "app"), ("script", .array [.bool true]),
    ("parts", .array [.object [("name", .string "db"),
      ("size", .object [("id", .null), ("unit", .string "gb")]),
      ("id", .array [.string "b"])]])]]

/-- The list in the file without them. -/
def localResources : List Document :=
  [.object [("name", .string "app"), ("script", .array [.bool true]),
    ("parts", .array [.object [("name", .string "db"),
      ("size", .object [("unit", .string "gb")])]])]]

/-- Lists with and without identifiers, which stand at three depths of one of them, are printed
    alike. -/
theorem normalizeFile_hidesExcluded_identifiedFiles :
    HoldsList identifiedFiles "local.json" localResources ∧
      HoldsList identifiedFiles "remote.json" remoteResources ∧
      identifyingSettings.KeepsResources ∧
      identifyingSettings.LeavesSame remoteResources localResources ∧
      (normalizeFile identifiedFiles identifiedSetup "remote.json" true).result.toOption
        = some ("\x7b\"app\":\x7b\"name\":\"app\",\"script\":\"[true]\",\"parts\":\x7b\"db\":" ++
            "\x7b\"name\":\"db\",\"size\":\x7b\"unit\":\"gb\"\x7d\x7d\x7d\x7d\x7d") := by
  have hlocal : HoldsList identifiedFiles "local.json" localResources :=
    ⟨_, rfl, by decide +kernel⟩
  have hremote : HoldsList identifiedFiles "remote.json" remoteResources :=
    ⟨_, rfl, by decide +kernel⟩
  have hsame : identifyingSettings.LeavesSame remoteResources localResources := by
    decide +kernel
  have hprinted : (normalizeFile identifiedFiles identifiedSetup "remote.json" true).result.toOption
      = (normalizeFile identifiedFiles identifiedSetup "local.json" true).result.toOption := by
    refine normalizeFile_hidesExcluded rfl hremote hlocal fun workspace hworkspace => ?_
    obtain rfl := Except.ok.inj (load_identifiedSetup.symm.trans hworkspace)
    exact ⟨keepsResources_identifyingSettings, hsame⟩
  refine ⟨hlocal, hremote, keepsResources_identifyingSettings, hsame, hprinted.trans ?_⟩
  decide +kernel

/-- **Not everything excluded is hidden**: lists that are the same once all that is excluded is
    left out are printed differently, if it stands in a structured value of a templated field. -/
theorem not_hidesExcluded_in_templated :
    ¬ ∀ (files : Files) (setup : Setup) (input input' : String) (compact : Bool)
        (workspace : Workspace) (resources resources' : List Document),
        (setup.load files).result = .ok workspace →
        HoldsList files input resources → HoldsList files input' resources' →
        workspace.settings.KeepsResources →
        (∀ name, NamesResource workspace.settings.rules name resources ∨
            NamesResource workspace.settings.rules name resources' →
          workspace.settings.exclusions.excludes name = false) →
        workspace.settings.exclusions.reduce (.array resources)
          = workspace.settings.exclusions.reduce (.array resources') →
        (normalizeFile files setup input compact).result.toOption
          = (normalizeFile files setup input' compact).result.toOption := by
  intro hall
  have htemplated : HoldsList identifiedFiles "templated.json"
      [.object [("name", .string "app"), ("script", .object [("id", .bool true)])]] :=
    ⟨_, rfl, by decide +kernel⟩
  have hblank : HoldsList identifiedFiles "blank.json"
      [.object [("name", .string "app"), ("script", .object [])]] :=
    ⟨_, rfl, by decide +kernel⟩
  have hnames : ∀ name value, NamesResource identifyingSettings.rules name
      [.object [("name", .string "app"), ("script", .object value)]] → name = "app" := by
    intro name value h
    cases h with
    | here entry named =>
        obtain rfl := Document.object.inj (List.mem_singleton.mp entry)
        exact (Document.string.inj (Option.some.inj named)).symm
    | child entry listed children inner =>
        obtain rfl := Document.object.inj (List.mem_singleton.mp entry)
        simp at listed
  have hprinted := hall _ _ _ _ true _ _ _ load_identifiedSetup htemplated hblank
    keepsResources_identifyingSettings
    (by
      rintro name (h | h)
      · obtain rfl := hnames name _ h
        decide
      · obtain rfl := hnames name _ h
        decide)
    (by decide +kernel)
  exact absurd hprinted (by decide +kernel)

end Stencil
