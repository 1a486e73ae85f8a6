import Stencil.Files.Snapshot
import Stencil.Proofs.Action.Normalization
import Stencil.Proofs.Setup.Sources

/-!
# Reduction — leaving names out while reading, or by settings

Names to be left out of a document can be given for this purpose, or can stand in the settings with
which the document is read. Either way the same names are left out, and nothing else about the two
runs differs: both load the same keywords, read the same document and fail with the same faults.
They get to their texts in different ways. For the compact layout a document is put together anew
on the one way, which changes nothing because no name is repeated in what has been read
(`rebuilt_of_distinct`).

The two runs are compared part by part (`Journaled.Agree`), from the settings on.
-/

namespace Stencil

-- ── Documents that are put together anew ────────────────────────────────────

namespace Document

mutual

/-- **Putting together anew** changes nothing if no name is repeated. -/
theorem rebuilt_of_distinct : ∀ document : Document, document.Distinct → document.rebuilt = document
  | .null, _ => rfl
  | .bool _, _ => rfl
  | .number _, _ => rfl
  | .string _, _ => rfl
  | .array items, h => by
      rw [rebuilt, rebuiltItems_of_distinct items h]
  | .object members, h => by
      rw [rebuilt, rebuiltMembers_of_distinct members [] h.1 h.2, List.nil_append]

theorem rebuiltItems_of_distinct : ∀ items : List Document, DistinctItems items →
    rebuiltItems items = items
  | [], _ => rfl
  | item :: items, h => by
      rw [rebuiltItems, rebuilt_of_distinct item h.1, rebuiltItems_of_distinct items h.2]

theorem rebuiltMembers_of_distinct : ∀ members before : Members,
    (Members.names (before ++ members)).Nodup → DistinctMembers members →
      rebuiltMembers before members = before ++ members
  | [], before, _, _ => (List.append_nil before).symm
  | (name, value) :: members, before, hnames, h => by
      have hnew := Members.insert_of_not_mem value (Members.not_mem_names_of_nodup hnames)
      have happend : before ++ (name, value) :: members
          = (before ++ [(name, value)]) ++ members := by
        rw [List.append_assoc, List.singleton_append]
      rw [happend] at hnames
      rw [rebuiltMembers, rebuilt_of_distinct value h.1, hnew,
        rebuiltMembers_of_distinct members _ hnames h.2, happend]

end

end Document

-- ── Settings that exclude further names ─────────────────────────────────────

/-- Settings that differ from others in that they exclude some further names, in whatever order
    and however often, and reserve no keys. -/
structure Settings.ExcludesFurther (names : List String) (settings further : Settings) : Prop where
  rest : further = { settings with reservedKeys := [], excluded := further.excluded }
  excluded : ∀ name, name ∈ further.excluded ↔ name ∈ settings.excluded ∨ name ∈ names

/-- Two setups for one input that differ in their settings only: those of the second one exclude
    some further names. Where the settings of one cannot be loaded, those of the other fail
    alike. The files that are read besides the settings hold the same. -/
structure Setup.ExcludesFurther (names : List String) (input : String) (files : Files)
    (setup : Setup) (files' : Files) (setup' : Setup) : Prop where
  settings : Journaled.Agree (Settings.ExcludesFurther names)
    (setup.settings files).result (setup'.settings files').result
  keywordsFile : setup'.keywordsFile = setup.keywordsFile
  inlineKeywords : setup'.inlineKeywords = setup.inlineKeywords
  files : ∀ path ∈ input :: (setup.keywordsFile.toList ++ setup.pathsInSettings files),
    files' path = files path

theorem Setup.pathsInSettings_of_ok {files : Files} {setup : Setup} {settings : Settings}
    (h : (setup.settings files).result = .ok settings) :
    setup.pathsInSettings files = settings.keywordsFile.toList := by
  obtain ⟨settingsFile, keywordsFile, inlineKeywords⟩ := setup
  cases settingsFile with
  | none =>
      obtain rfl := Except.ok.inj h
      rfl
  | some path =>
      have hfile : (Settings.fromFile files path).result = .ok settings := h
      rw [pathsInSettings]
      simp only [hfile]

-- ── Files that hold the same ────────────────────────────────────────────────

section Congruence

variable {files files' : Files} {path : String}

theorem keywordsFromFile_congr (h : files' path = files path) :
    keywordsFromFile files' path = keywordsFromFile files path := by
  rw [keywordsFromFile, keywordsFromFile, Files.readNoting, Files.readNoting, h]

theorem readInput_congr (h : files' path = files path) :
    readInput files' path = readInput files path := by
  rw [readInput, readInput, Files.readNoting, Files.readNoting, h]

theorem optionally_keywords_congr {path? : Option String}
    (h : ∀ path ∈ path?.toList, files' path = files path) :
    optionally (keywordsFromFile files') [] path?
      = optionally (keywordsFromFile files) [] path? := by
  cases path? with
  | none => rfl
  | some path => exact keywordsFromFile_congr (h path (List.mem_singleton_self path))

end Congruence

-- ── The two runs ────────────────────────────────────────────────────────────

section Runs

variable {names : List String} {input : String} {files files' : Files} {setup setup' : Setup}

/-- **The two setups are loaded alike**: with the same keywords, and settings of which the second
    ones exclude the further names. -/
theorem load_agree (h : setup.ExcludesFurther names input files files' setup') :
    Journaled.Agree
      (fun workspace workspace' => workspace.mappings = workspace'.mappings ∧
        workspace.settings.ExcludesFurther names workspace'.settings)
      (setup.load files).result (setup'.load files').result := by
  rw [Setup.load_eq, Setup.load_eq, h.keywordsFile, h.inlineKeywords]
  refine .bind h.settings.attach ?_
  rintro settings further ⟨hsettings, hfurther⟩
  have hpaths := Setup.pathsInSettings_of_ok hsettings
  have hnamed : further.mappings files' = settings.mappings files := by
    have hfile : further.keywordsFile = settings.keywordsFile := by rw [hfurther.rest]
    have hown : further.keywords = settings.keywords := by rw [hfurther.rest]
    rw [Setup.mappings_eq, Setup.mappings_eq, hfile, hown, optionally_keywords_congr]
    intro path hmem
    exact h.files path (List.mem_cons_of_mem _ (List.mem_append_right _ (hpaths ▸ hmem)))
  have hfiled : optionally (keywordsFromFile files') [] setup.keywordsFile
      = optionally (keywordsFromFile files) [] setup.keywordsFile := by
    refine optionally_keywords_congr ?_
    intro path hmem
    exact h.files path (List.mem_cons_of_mem _ (List.mem_append_left _ hmem))
  -- The settings apart, both setups are loaded by the same steps.
  rw [hnamed, hfiled]
  refine .bind (.refl _) ?_
  rintro own _ rfl
  refine .bind (.refl _) ?_
  rintro filed _ rfl
  refine .bind (.refl _) ?_
  rintro given _ rfl
  refine .bind (.refl _) ?_
  rintro - - -
  exact .succeeded ⟨rfl, hfurther⟩

/-- Both ways leave the same of a document that repeats no name. -/
theorem printed_reduce_eq {settings further : Settings}
    (h : settings.ExcludesFurther names further) {document : Document}
    (hdistinct : document.Distinct) (pretty : Bool) :
    (if pretty then printed true ((Exclusions.names (settings.excluded ++ names)).reduce document)
      else (Exclusions.names (settings.excluded ++ names)).text document.rebuilt)
      = printed pretty (further.exclusions.reduce document) := by
  have hnames : ∀ name, name ∈ (Exclusions.names (settings.excluded ++ names)).toList
      ↔ name ∈ further.exclusions.toList := by
    intro name
    show name ∈ settings.excluded ++ names ↔ name ∈ further.excluded
    rw [List.mem_append, h.excluded]
  have hreduce : (Exclusions.names (settings.excluded ++ names)).reduce document
      = further.exclusions.reduce document := Exclusions.reduce_congr hnames document
  cases pretty with
  | true => rw [if_pos rfl, hreduce]
  | false =>
      rw [if_neg Bool.false_ne_true, Exclusions.text, Document.rebuilt_of_distinct _ hdistinct,
        hreduce]
      rfl

/-- Where nothing is reserved, nothing is at fault. -/
theorem rejectReservedKeys_nil (kind : String) (document : Document) :
    rejectReservedKeys kind [] document = .ok () := by
  have hnone : document.keysAmong [] = [] := by
    cases document with
    | object members => exact List.filter_false _
    | _ => rfl
  rw [rejectReservedKeys, hnone]

/-- **LEAVING OUT EITHER WAY**: reducing a file by some names gives the same text, or the same
    fault, as parsing it under settings that exclude these names besides their own and reserve no
    keys. -/
theorem reduceFile_eq_parseFile (h : setup.ExcludesFurther names input files files' setup')
    (pretty : Bool) :
    (reduceFile files setup input names pretty).result
      = (parseFile files' setup' input (!pretty)).result := by
  refine Journaled.Agree.eq ?_
  rw [reduceFile, parseFile, readInput_congr (h.files input (List.mem_cons_self ..))]
  refine .bind (load_agree h) ?_
  rintro workspace workspace' ⟨hmappings, hfurther⟩
  refine .bind (.refl _) ?_
  rintro text _ rfl
  rw [← hmappings]
  refine .bind (Journaled.Agree.refl _).attach ?_
  rintro document _ ⟨hread, rfl⟩
  have hdistinct := Document.distinct_read (readDocument_ok_iff.mp hread)
  have hreserved : workspace'.settings.reservedKeys = [] := by rw [hfurther.rest]
  rw [hreserved, rejectReservedKeys_nil, Bool.not_not, ← printed_reduce_eq hfurther hdistinct]
  cases pretty with
  | true => exact .succeeded rfl
  | false => exact .succeeded rfl

end Runs

/-- A state with a placeholder, and two settings texts with the same keywords for it. The names to
    be left out are listed in one of them only in part, in the other one in full. -/
def stateFiles : Files := fun path =>
  if path = "brief.toml" then
    .ok ("reserved_keys = [\"id\"]\nexclude_properties = [\"id\"]\n" ++
      "[keywords]\ntier = \"web\"\n")
  else if path = "full.toml" then
    .ok ("exclude_properties = [\"note\", \"id\", \"note\"]\n" ++
      "[keywords]\ntier = \"web\"\n")
  else if path = "state.json" then
    .ok ("\x7b\"id\":1,@@tier@@:[\x7b\"note\":0,\"size\":8\x7d],\"size\":2," ++
      "\"size\":3\x7d")
  else .error .notFound

/-- One property excluded twice on the command line, or among those of the settings and in another
    order; the reserved keys are in one of the settings only. -/
theorem reduceFile_eq_parseFile_stateFiles :
    Setup.ExcludesFurther ["note", "note"] "state.json" stateFiles ⟨some "brief.toml", none, none⟩
        stateFiles ⟨some "full.toml", none, none⟩ ∧
      (reduceFile stateFiles ⟨some "brief.toml", none, none⟩ "state.json" ["note", "note"]
          false).result = .ok "\x7b\"web\":[\x7b\"size\":8\x7d],\"size\":3\x7d" ∧
      (reduceFile stateFiles ⟨some "brief.toml", none, none⟩ "state.json" ["note", "note"]
          false).result
        = (parseFile stateFiles ⟨some "full.toml", none, none⟩ "state.json" true).result := by
  have hbrief := Journaled.ok_of_toOption (show
    (Setup.settings stateFiles ⟨some "brief.toml", none, none⟩).result.toOption
      = some { reservedKeys := ["id"], excluded := ["id"], keywords := [("tier", .string "web")] }
    by decide +kernel)
  have hfull := Journaled.ok_of_toOption (show
    (Setup.settings stateFiles ⟨some "full.toml", none, none⟩).result.toOption
      = some { excluded := ["note", "id", "note"], keywords := [("tier", .string "web")] }
    by decide +kernel)
  have hfurther : Setup.ExcludesFurther ["note", "note"] "state.json" stateFiles
      ⟨some "brief.toml", none, none⟩ stateFiles ⟨some "full.toml", none, none⟩ := by
    refine ⟨?_, rfl, rfl, fun _ _ => rfl⟩
    rw [hbrief, hfull]
    refine .succeeded ⟨rfl, ?_⟩
    intro name
    simp only [List.mem_cons, List.not_mem_nil, or_false]
    tauto
  have hok := Journaled.ok_of_toOption (show
    (reduceFile stateFiles ⟨some "brief.toml", none, none⟩ "state.json" ["note", "note"]
      false).result.toOption = some "\x7b\"web\":[\x7b\"size\":8\x7d],\"size\":3\x7d"
    by decide +kernel)
  exact ⟨hfurther, hok, reduceFile_eq_parseFile hfurther false⟩

end Stencil
