import Stencil.Proofs.FaultChain.Texts

/-!
# Diagnosis — what notes around a chain do not change

A report diagnoses a chain by the kind of its fault and by its suggestion. Both depend only on the
fault that the chain holds, or on its origin where it holds none, and a note is neither
(`diagnosis_wrap_note`); so notes wrapped around a chain, however many, never change its diagnosis
(`diagnosis_under`). What they change is told in full: under a fault they stand in front of its
remark as details, and otherwise the outermost text has all others as its causes, numbered from
one, the origin last. The advice and the remarks are stated here word for word, apart from the
report that gives them.
-/

namespace Stencil

/-- The kinds of faults. -/
inductive Fault.Kind where
  | argument
  | unreadable
  | rule
  | resource
  | duplicateName
  | settings
  | other
deriving Repr, DecidableEq

/-- The kind of a fault. -/
def Fault.kind : Fault → Fault.Kind
  | .argument _ => .argument
  | .unreadable _ _ => .unreadable
  | .rule _ => .rule
  | .resource _ => .resource
  | .duplicateName _ _ => .duplicateName
  | .settings _ => .settings
  | .other _ => .other

/-- What is wrong and what can be done about it. -/
structure Diagnosis where
  kind : Fault.Kind
  suggestion : Option String
deriving Repr, DecidableEq

/-- The diagnosis of a report. -/
def Report.diagnosis (report : Report) : Diagnosis :=
  ⟨report.fault.kind, report.suggestion⟩

-- ── What is advised ─────────────────────────────────────────────────────────

/-- The advice on a file that is not there. -/
def missingFileAdvice : String :=
  "Check that the file exists and the path is correct"

/-- The advice on a settings text that cannot be read. -/
def settingsTextAdvice : String :=
  "Check the TOML syntax of the configuration file. Verify quotes and brackets"

/-- The advice on a source that is no document. -/
def sourceAdvice (label : String) : String :=
  "Check the JSON syntax in " ++ label ++ ". " ++
    "Every @@keyword@@ it uses must be defined in the keyword mappings"

/-- The advice on a payload that is no text. -/
def payloadAdvice : String :=
  "Pass the payload as text; serialize structured data before checksumming"

/-- The advice on a name that is used twice. -/
def renamingAdvice (name : String) : String :=
  "Rename one of the resources called '" ++ name ++ "' " ++
    "or set duplicate_names = \"overwrite\""

/-- The advice on settings that break a rule. -/
def separationAdvice : String :=
  "Move the listed settings into their own resource definitions"

/-- The advice on a malformed resource. -/
def resourceAdvice : String :=
  "Each resource must be a JSON object with a string 'name'; " ++
    "the child list field must hold an array"

/-- The advice on settings or keywords that cannot be used. -/
def settingsAdvice : String :=
  "Check the configuration file and the keywords file it references"

/-- What there is to know about a source that is no document. -/
def unresolvedRemark : String :=
  "Unresolved keywords are left in place and usually make the file invalid JSON"

/-- What there is to know about a name that is used twice. -/
def repetitionRemark : String :=
  "Resource names must be unique within one list when duplicates are rejected"

/-- What a fault is diagnosed as. -/
def Fault.diagnosis : Fault → Diagnosis
  | .argument _ => ⟨.argument, some payloadAdvice⟩
  | .unreadable label _ => ⟨.unreadable, some (sourceAdvice label)⟩
  | .rule _ => ⟨.rule, some separationAdvice⟩
  | .resource _ => ⟨.resource, some resourceAdvice⟩
  | .duplicateName name _ => ⟨.duplicateName, some (renamingAdvice name)⟩
  | .settings _ => ⟨.settings, some settingsAdvice⟩
  | .other _ => ⟨.other, none⟩

/-- What there is to know about a fault besides, if there is anything. -/
def Fault.background : Fault → Option String
  | .unreadable _ _ => some unresolvedRemark
  | .duplicateName _ _ => some repetitionRemark
  | _ => none

/-- What an origin is diagnosed as if no fault is wrapped around it. -/
def Origin.diagnosis : Origin → Diagnosis
  | .fault known => known.diagnosis
  | .file .notFound _ => ⟨.other, some missingFileAdvice⟩
  | .file _ _ => ⟨.other, none⟩
  | .toml _ => ⟨.settings, some settingsTextAdvice⟩
  | .plain _ => ⟨.other, none⟩

/-- The diagnosis of a fault is its kind and the advice that the report gives on it. -/
theorem Fault.diagnosis_eq (fault : Fault) : fault.diagnosis = ⟨fault.kind, fault.suggestion⟩ := by
  cases fault <;> rfl

/-- The background of a fault is the remark that the report makes on it. -/
theorem Fault.background_eq (fault : Fault) : fault.background = fault.remark := by
  cases fault <;> rfl

namespace FaultChain

variable {chain : FaultChain}

-- ── The diagnosis of a chain ────────────────────────────────────────────────

/-- What surrounds a fault changes no advice. -/
theorem suggestion_withSurroundings (surroundings : List String) (report : Report) :
    (withSurroundings surroundings report).suggestion = report.suggestion := by
  rw [withSurroundings]
  by_cases h : surroundings.isEmpty = true
  · rw [if_pos h]
  · rw [if_neg h]

/-- A fault in a chain decides about the diagnosis. -/
theorem diagnosis_report_of_fault {fault : Fault} (h : chain.fault? = some fault) :
    chain.report.diagnosis = fault.diagnosis := by
  rw [report_of_fault h, Report.diagnosis, fault_withSurroundings, suggestion_withSurroundings,
    fault.diagnosis_eq]
  rfl

/-- Without a fault the origin decides about it. -/
theorem diagnosis_report_of_no_fault (h : chain.fault? = none) :
    chain.report.diagnosis = chain.origin.diagnosis := by
  obtain ⟨contexts, origin⟩ := chain
  rw [report, h]
  cases origin with
  | fault known =>
      -- a chain that begins with a fault holds one
      rw [fault?] at h
      cases hfound : contexts.findSome? Context.fault? with
      | some found => simp [hfound] at h
      | none => simp [hfound] at h
  | file problem reason => cases problem <;> rfl
  | toml reason => rfl
  | plain words => rfl

/-- A note in front hides no fault. -/
theorem fault?_wrap_note (words : String) (chain : FaultChain) :
    (chain.wrap (.note words)).fault? = chain.fault? := rfl

/-- **One more note** does not change the diagnosis. -/
theorem diagnosis_wrap_note (words : String) (chain : FaultChain) :
    (chain.wrap (.note words)).report.diagnosis = chain.report.diagnosis := by
  have hsame := fault?_wrap_note words chain
  cases hfault : chain.fault? with
  | some fault =>
      rw [hfault] at hsame
      rw [diagnosis_report_of_fault hfault, diagnosis_report_of_fault hsame]
  | none =>
      rw [hfault] at hsame
      rw [diagnosis_report_of_no_fault hfault, diagnosis_report_of_no_fault hsame]
      rfl

/-- Wraps notes around a chain, the last one first. -/
def under (notes : List String) (chain : FaultChain) : FaultChain :=
  notes.foldr (fun words wrapped => wrapped.wrap (.note words)) chain

/-- **Notes** do not change the diagnosis, however many there are. -/
theorem diagnosis_under (notes : List String) (chain : FaultChain) :
    (chain.under notes).report.diagnosis = chain.report.diagnosis := by
  induction notes with
  | nil => rfl
  | cons words notes ih =>
      show ((chain.under notes).wrap (.note words)).report.diagnosis = _
      rw [diagnosis_wrap_note, ih]

-- ── What notes are told as ──────────────────────────────────────────────────

theorem under_eq (notes : List String) (chain : FaultChain) :
    chain.under notes = ⟨notes.map .note ++ chain.contexts, chain.origin⟩ := by
  induction notes with
  | nil => rfl
  | cons words notes ih =>
      show (chain.under notes).wrap (.note words) = _
      rw [ih]
      rfl

/-- Notes in front hide no fault. -/
theorem fault?_under (notes : List String) (chain : FaultChain) :
    (chain.under notes).fault? = chain.fault? := by
  induction notes with
  | nil => rfl
  | cons words notes ih => exact (fault?_wrap_note words _).trans ih

theorem map_text_note (notes : List String) :
    (notes.map Context.note).map Context.text = notes := by
  rw [List.map_map]
  exact List.map_id notes

theorem texts_under_of (notes : List String) (origin : Origin) :
    ((of origin).under notes).texts = notes ++ [origin.text] := by
  rw [under_eq, texts, of, List.append_nil, map_text_note]

/-- Notes in one line and a remark in the next, whichever of the two there are. -/
def detailLines (notes : List String) (remark : Option String) : List String :=
  (if notes = [] then [] else [": ".intercalate notes]) ++ remark.toList

/-- Lines one under the other, if there are any. -/
def paragraph? (lines : List String) : Option String :=
  if lines = [] then none else some ("\n".intercalate lines)

/-- **Around a fault** notes stand in front of its remark. -/
theorem withSurroundings_report (notes : List String) (fault : Fault) :
    withSurroundings notes fault.report
      = ⟨fault, fault.diagnosis.suggestion, paragraph? (detailLines notes fault.background)⟩ := by
  rw [withSurroundings, Fault.report, fault.diagnosis_eq, fault.background_eq]
  by_cases hnotes : notes = []
  · subst hnotes
    show Report.mk fault fault.suggestion fault.remark = _
    rw [detailLines, if_pos rfl]
    cases fault.remark with
    | none => rfl
    | some remark => simp [paragraph?]
  · have hsome : ¬ notes.isEmpty = true := fun h => hnotes (List.isEmpty_iff.mp h)
    rw [if_neg hsome, detailLines, if_neg hnotes]
    cases fault.remark with
    | none => simp [paragraph?]
    | some remark =>
        show _ = Report.mk fault _ (some ("\n".intercalate [": ".intercalate notes, remark]))
        rw [String.intercalate_cons_of_ne_nil (List.cons_ne_nil _ _),
          String.intercalate_singleton]

/-- A text with its causes on lines of their own, numbered from one. -/
def caused (text : String) (causes : List String) : String :=
  text ++ "\n\nCaused by:" ++
    String.join (causes.mapIdx fun index cause => s!"\n  {index + 1}: {cause}")

/-- A text under notes: the outermost of them has all others as its causes, the text last. -/
def storyUnder (notes : List String) (text : String) : String :=
  match notes with
  | [] => text
  | outer :: inner => caused outer (inner ++ [text])

/-- Causes are numbered in their order. -/
theorem numbered_eq_join (n : Nat) (causes : List String) :
    numbered n causes
      = String.join (causes.mapIdx fun index cause => s!"\n  {index + n}: {cause}") := by
  induction causes generalizing n with
  | nil => rfl
  | cons cause causes ih =>
      have hshift : (fun (index : Nat) (cause : String) => s!"\n  {index + (n + 1)}: {cause}")
          = fun index cause => s!"\n  {index + 1 + n}: {cause}" := by
        funext index cause
        rw [Nat.add_comm n 1, Nat.add_assoc]
      rw [numbered, ih, hshift, List.mapIdx_cons, String.join_cons, Nat.zero_add]

/-- **The story of a chain** that holds notes only. -/
theorem story_under (notes : List String) (text : String) :
    story (notes ++ [text]) = storyUnder notes text := by
  cases notes with
  | nil => rfl
  | cons outer inner =>
      have hsome : inner ++ [text] ≠ [] := by simp
      obtain ⟨first, causes, hcauses⟩ := List.exists_cons_of_ne_nil hsome
      rw [List.cons_append, storyUnder, hcauses, caused, ← numbered_eq_join]
      rfl

-- ── Reports under notes ─────────────────────────────────────────────────────

/-- A known fault under notes keeps its kind, its advice and its remark. -/
theorem report_under_fault (notes : List String) (known : Fault) :
    ((of (.fault known)).under notes).report
      = ⟨known, known.diagnosis.suggestion, paragraph? (detailLines notes known.background)⟩ := by
  have hfault : ((of (.fault known)).under notes).fault? = some known := fault?_under notes _
  have haround : ((of (.fault known)).under notes).around = notes := by
    rw [under_eq, around, of, List.append_nil, map_text_note]
  rw [report_of_fault hfault, haround, withSurroundings_report]

/-- A file that could not be read, under notes. -/
theorem report_under_file (notes : List String) (problem : FileProblem) (reason : String) :
    ((of (.file problem reason)).under notes).report
      = ⟨.other (storyUnder notes reason), (Origin.file problem reason).diagnosis.suggestion,
          none⟩ := by
  rw [report, fault?_under, texts_under_of, story_under, under_eq]
  cases problem <;> rfl

/-- A text of settings that could not be read, under notes. -/
theorem report_under_toml (notes : List String) (reason : String) :
    ((of (.toml reason)).under notes).report
      = ⟨.settings (storyUnder notes reason), some settingsTextAdvice, none⟩ := by
  rw [report, fault?_under, texts_under_of, story_under, under_eq]
  rfl

theorem report_under_plain (notes : List String) (words : String) :
    ((of (.plain words)).under notes).report
      = ⟨.other (storyUnder notes words), none, none⟩ := by
  rw [report, fault?_under, texts_under_of, story_under, under_eq]
  rfl

/-- **NOTES NEVER CHANGE THE DIAGNOSIS**: whatever chain notes are wrapped around, the report on it
    keeps its kind of fault and its suggestion, which for a bare origin are those of that origin.
    A fault is reported unchanged, with the notes and then its background as details; any other
    origin is told in a story, the outermost text first and the others as its causes. -/
theorem report_underNotes (notes : List String) :
    (∀ chain : FaultChain, (chain.under notes).report.diagnosis = chain.report.diagnosis) ∧
      (∀ origin, (of origin).report.diagnosis = origin.diagnosis) ∧
      (∀ known : Fault, ((of (.fault known)).under notes).report
        = ⟨known, known.diagnosis.suggestion,
            paragraph? (detailLines notes known.background)⟩) ∧
      (∀ problem reason, ((of (.file problem reason)).under notes).report
        = ⟨.other (storyUnder notes reason), (Origin.file problem reason).diagnosis.suggestion,
            none⟩) ∧
      (∀ reason, ((of (.toml reason)).under notes).report
        = ⟨.settings (storyUnder notes reason), some settingsTextAdvice, none⟩) ∧
      ∀ words, ((of (.plain words)).under notes).report
        = ⟨.other (storyUnder notes words), none, none⟩ := by
  refine ⟨diagnosis_under notes, ?_, report_under_fault notes, report_under_file notes,
    report_under_toml notes, report_under_plain notes⟩
  intro origin
  cases origin with
  | fault known => exact diagnosis_report_of_fault rfl
  | file problem reason => exact diagnosis_report_of_no_fault rfl
  | toml reason => exact diagnosis_report_of_no_fault rfl
  | plain words => exact diagnosis_report_of_no_fault rfl

/-- A repeated name and a missing file under the same two notes, word for word. -/
theorem report_underNotes_deploying :
    ((of (.fault (.duplicateName "login" (some "db")))).under ["deploying", "reading a"]).report
        = ⟨.duplicateName "login" (some "db"),
            some ("Rename one of the resources called 'login' " ++
              "or set duplicate_names = \"overwrite\""),
            some ("deploying: reading a\n" ++
              "Resource names must be unique within one list when duplicates are rejected")⟩ ∧
      ((of (.file .notFound "no such file")).under ["deploying", "reading a"]).report
        = ⟨.other "deploying\n\nCaused by:\n  1: reading a\n  2: no such file",
            some "Check that the file exists and the path is correct", none⟩ := by
  obtain ⟨-, -, hfault, hfile, -⟩ := report_underNotes ["deploying", "reading a"]
  exact ⟨(hfault _).trans (by decide +kernel), (hfile _ _).trans (by decide +kernel)⟩

end FaultChain

end Stencil
