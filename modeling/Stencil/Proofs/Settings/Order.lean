import Stencil.Settings.Toml
import Stencil.Proofs.Document.Members
import Stencil.Proofs.Sorting
import Stencil.Proofs.Toml.Distinct
import Stencil.Proofs.Text.ByteOrder

/-!
# The order of keywords in settings

Keywords that a settings text holds are a table, and a table becomes an object with its members in
the order of their names: that of their characters, which is that of their bytes (`bytes_lt`). No
key of a table stands twice (`Toml.distinct_read`), so the order is a strict one
(`ascending_ofToml`). A moment in their place is an object with a single member.
-/

namespace Stencil

/-- Names in the order of their bytes, none of them twice. -/
def Ascending (names : List String) : Prop :=
  names.Pairwise fun before after => bytes before < bytes after

/-- Names that ascend are not repeated. -/
theorem Ascending.nodup {names : List String} (h : Ascending names) : names.Nodup := by
  refine List.Pairwise.imp ?_ h
  rintro before _ hlt rfl
  exact List.lt_irrefl _ hlt

namespace Toml

/-- Entries become members under their own keys. -/
theorem names_entryDocuments? {entries : Entries} {members : Members}
    (h : entryDocuments? entries = some members) : members.names = entries.keys := by
  induction entries generalizing members with
  | nil =>
      rw [entryDocuments?] at h
      obtain rfl := Option.some.inj h
      rfl
  | cons entry entries ih =>
      obtain ⟨key, value⟩ := entry
      rw [entryDocuments?] at h
      obtain ⟨first, -, h⟩ := Option.bind_eq_some_iff.mp h
      obtain ⟨others, hothers, h⟩ := Option.bind_eq_some_iff.mp h
      obtain rfl := Option.some.inj h
      exact congrArg (key :: ·) (ih hothers)

/-- **Sorted by name**, whatever stands under names is in ascending order of them if none is
    repeated. -/
theorem ascending_sortStable {α : Type} {named : List (String × α)}
    (h : (named.map Prod.fst).Nodup) :
    Ascending ((sortStable (fun a b => decide (a.1 ≤ b.1)) named).map Prod.fst) := by
  have hdistinct : named.Pairwise fun a b => a.1 ≠ b.1 := List.pairwise_map.mp h
  rw [Ascending, List.pairwise_map]
  refine (stable_byKey Prod.fst (fun _ _ => decide_eq_true_iff) hdistinct).imp ?_
  rintro a b (hless | ⟨hsame, hne⟩)
  · exact bytes_lt hless
  · exact absurd hsame hne

/-- Sorted members whose names differ ascend. -/
theorem ascending_sortMembers {members : Members} (h : members.names.Nodup) :
    Ascending (Members.names (sortMembers members)) :=
  ascending_sortStable h

/-- Sorted entries whose keys differ ascend. -/
theorem ascending_sortEntries {entries : Entries} (h : entries.keys.Nodup) :
    Ascending (sortEntries entries).keys :=
  ascending_sortStable h

/-- Sorting neither drops entries nor adds any. -/
theorem mem_sortEntries {entries : Entries} {entry : String × Value} :
    entry ∈ sortEntries entries ↔ entry ∈ entries :=
  (sortStable_perm _ entries).mem_iff

/-- The keywords of a table come in ascending order. -/
theorem ascending_keywords? {value : Value} {members : Members} (h : value.Distinct)
    (hmembers : value.keywords? = some members) : Ascending members.names := by
  unfold Value.keywords? at hmembers
  split at hmembers
  · next found hfound =>
      obtain rfl := Option.some.inj hmembers
      cases value with
      | moment text =>
          rw [Value.document?] at hfound
          obtain rfl := Document.object.inj (Option.some.inj hfound)
          exact List.pairwise_singleton _ _
      | table kind entries =>
          rw [Value.document?] at hfound
          obtain ⟨unsorted, hunsorted, heq⟩ := Option.map_eq_some_iff.mp hfound
          obtain rfl := Document.object.inj heq
          refine ascending_sortMembers ?_
          rw [names_entryDocuments? hunsorted]
          exact (Value.distinct_table_iff.mp h).keys
      | integer number mark =>
          rw [Value.document?] at hfound
          split at hfound <;> exact nomatch hfound
      | float x =>
          rw [Value.document?, floatDocument] at hfound
          split at hfound <;> exact nomatch hfound
      | array items =>
          rw [Value.document?] at hfound
          obtain ⟨found, -, heq⟩ := Option.map_eq_some_iff.mp hfound
          exact nomatch heq
      | tables elements =>
          rw [Value.document?] at hfound
          obtain ⟨found, -, heq⟩ := Option.map_eq_some_iff.mp hfound
          exact nomatch heq
      | _ => exact nomatch hfound
  · exact nomatch hmembers

end Toml

namespace Settings

theorem ascending_readToml? {field : Field} {value : Toml.Value} {settings after : Settings}
    (hsettings : Ascending settings.keywords.names) (hvalue : value.Distinct)
    (h : field.readToml? value settings = some after) : Ascending after.keywords.names := by
  cases field with
  | keywords =>
      obtain ⟨members, hmembers, rfl⟩ := Option.map_eq_some_iff.mp h
      exact Toml.ascending_keywords? hvalue hmembers
  | _ =>
      obtain ⟨found, -, rfl⟩ := Option.map_eq_some_iff.mp h
      exact hsettings

/-- **One entry**: it is the setting with its name, or it changes nothing. -/
theorem ofEntries_cons_ok {key : String} {value : Toml.Value} {entries : Toml.Entries}
    {before after : Settings} (h : ofEntries before ((key, value) :: entries) = .ok after) :
    ∃ between, ofEntries between entries = .ok after ∧
      ((∃ field, Field.ofName? key = some field ∧
          field.readToml? value before = some between) ∨
        (Field.ofName? key = none ∧ between = before)) := by
  rw [ofEntries] at h
  split at h
  · next field hfield =>
      split at h
      · next between hread => exact ⟨between, h, .inl ⟨field, hfield, hread⟩⟩
      · exact nomatch h
  · next hnone =>
      split at h
      · exact ⟨before, h, .inr ⟨hnone, rfl⟩⟩
      · exact nomatch h

/-- Reading all fields leaves the keywords ascending. -/
theorem ascending_ofEntries {entries : Toml.Entries} {settings after : Settings}
    (hsettings : Ascending settings.keywords.names)
    (hentries : ∀ entry ∈ entries, entry.2.Distinct)
    (h : ofEntries settings entries = .ok after) : Ascending after.keywords.names := by
  induction entries generalizing settings with
  | nil =>
      obtain rfl := Except.ok.inj h
      exact hsettings
  | cons entry entries ih =>
      obtain ⟨key, value⟩ := entry
      obtain ⟨hvalue, hrest⟩ := List.forall_mem_cons.mp hentries
      obtain ⟨between, hfurther, ⟨field, -, hread⟩ | ⟨-, rfl⟩⟩ := ofEntries_cons_ok h
      · exact ih (ascending_readToml? hsettings hvalue hread) hrest hfurther
      · exact ih hsettings hrest hfurther

/-- **Keywords of a settings text** are in ascending order of their names. -/
theorem ascending_ofToml {text : String} {settings : Settings}
    (h : ofToml text = .ok settings) : Ascending settings.keywords.names := by
  have hnone : Ascending (Settings.keywords {}).names := List.Pairwise.nil
  unfold ofToml at h
  split at h
  · exact nomatch h
  · next hread =>
      refine ascending_ofEntries hnone ?_ (Journaled.mapError_eq_ok_iff.mp h)
      intro entry hmem
      exact (Toml.distinct_read hread).values entry (Toml.mem_sortEntries.mp hmem)

end Settings

end Stencil
