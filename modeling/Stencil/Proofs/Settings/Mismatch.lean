import Stencil.Proofs.Settings.Order

/-!
# Mismatches — which entry a settings text is refused for

Entries are read one after another, in the order of their keys, and the first one that does not fit
ends the reading (`ofEntries_error_iff`). Whether an entry fits does not depend on those in front
of it. So a text that is TOML is refused exactly if some entry of it does not fit, and it is
refused for the one with the least key (`ofToml_error_iff`), wherever that stands in the text.
-/

namespace Stencil

namespace Settings

/-- An entry fits: the setting with its key can be read from its value, or there is no setting with
    its key and its numbers are in bounds. -/
def Fits (key : String) (value : Toml.Value) : Prop :=
  match Field.ofName? key with
  | some field => (field.readToml? value {}).isSome = true
  | none => value.isBounded = true

/-- The entry with the least key, in the order of bytes, of those that do not fit. -/
structure FirstMismatch (entries : Toml.Entries) (mismatch : Mismatch) : Prop where
  entry : (mismatch.key, mismatch.value) ∈ entries
  unfit : ¬ Fits mismatch.key mismatch.value
  first : ∀ key value, (key, value) ∈ entries → bytes key < bytes mismatch.key → Fits key value

-- ── One entry ───────────────────────────────────────────────────────────────

/-- A setting is read from a value whatever the settings are that it is put into. -/
theorem isSome_readToml? (field : Field) (value : Toml.Value) (settings : Settings) :
    (field.readToml? value settings).isSome = (field.readToml? value {}).isSome := by
  cases field <;> simp only [Field.readToml?, Option.isSome_map]

/-- **One entry**: the reading goes on behind it if it fits, and ends with it if not. -/
theorem ofEntries_cons (before : Settings) (key : String) (value : Toml.Value)
    (entries : Toml.Entries) :
    (Fits key value ∧ ∃ between,
        ofEntries before ((key, value) :: entries) = ofEntries between entries) ∨
      (¬ Fits key value ∧ ofEntries before ((key, value) :: entries) = .error ⟨key, value⟩) := by
  unfold Fits
  rw [ofEntries]
  cases Field.ofName? key with
  | some field =>
      dsimp only
      rw [← isSome_readToml? field value before]
      cases field.readToml? value before with
      | some between => exact .inl ⟨rfl, between, rfl⟩
      | none => exact .inr ⟨Bool.false_ne_true, rfl⟩
  | none =>
      cases value.isBounded with
      | true => exact .inl ⟨rfl, before, rfl⟩
      | false => exact .inr ⟨Bool.false_ne_true, rfl⟩

-- ── Entries in a row ────────────────────────────────────────────────────────

/-- **Entries in a row** are refused for the first of them that does not fit. -/
theorem ofEntries_error_iff {entries : Toml.Entries} {before : Settings} {mismatch : Mismatch} :
    ofEntries before entries = .error mismatch
      ↔ ∃ front behind, entries = front ++ (mismatch.key, mismatch.value) :: behind ∧
          (∀ entry ∈ front, Fits entry.1 entry.2) ∧ ¬ Fits mismatch.key mismatch.value := by
  induction entries generalizing before with
  | nil =>
      constructor
      · intro h
        exact nomatch h
      · rintro ⟨front, behind, h, -⟩
        exact absurd h.symm (by simp)
  | cons entry entries ih =>
      obtain ⟨key, value⟩ := entry
      rcases ofEntries_cons before key value entries with
        ⟨hfits, between, hnext⟩ | ⟨hunfit, hstop⟩
      · rw [hnext, ih]
        constructor
        · rintro ⟨front, behind, rfl, hfront, hmismatch⟩
          exact ⟨(key, value) :: front, behind, rfl, List.forall_mem_cons.mpr ⟨hfits, hfront⟩,
            hmismatch⟩
        · rintro ⟨front, behind, heq, hfront, hmismatch⟩
          cases front with
          | nil =>
              obtain ⟨heq, -⟩ := List.cons.inj heq
              obtain ⟨rfl, rfl⟩ := Prod.mk.inj heq
              exact absurd hfits hmismatch
          | cons first front =>
              obtain ⟨-, rfl⟩ := List.cons.inj heq
              exact ⟨front, behind, rfl, (List.forall_mem_cons.mp hfront).2, hmismatch⟩
      · rw [hstop]
        constructor
        · intro h
          obtain rfl := Except.error.inj h
          exact ⟨[], entries, rfl, fun _ h => absurd h List.not_mem_nil, hunfit⟩
        · rintro ⟨front, behind, heq, hfront, -⟩
          cases front with
          | nil =>
              obtain ⟨heq, -⟩ := List.cons.inj heq
              obtain ⟨rfl, rfl⟩ := Prod.mk.inj heq
              rfl
          | cons first front =>
              obtain ⟨rfl, -⟩ := List.cons.inj heq
              exact absurd (hfront _ (List.mem_cons_self ..)) hunfit

/-- **Entries in the order of their keys** are refused for the least key that does not fit. -/
theorem ofEntries_sortEntries_error_iff {entries : Toml.Entries} {before : Settings}
    {mismatch : Mismatch} (hkeys : entries.keys.Nodup) :
    ofEntries before (Toml.sortEntries entries) = .error mismatch
      ↔ FirstMismatch entries mismatch := by
  have hsorted : Ascending (Toml.sortEntries entries).keys := Toml.ascending_sortEntries hkeys
  rw [ofEntries_error_iff]
  constructor
  · rintro ⟨front, behind, heq, hfront, hunfit⟩
    rw [heq, Toml.Entries.keys, List.map_append, List.map_cons] at hsorted
    obtain ⟨-, hbehind, -⟩ := List.pairwise_append.mp hsorted
    refine ⟨?_, hunfit, ?_⟩
    · rw [← Toml.mem_sortEntries, heq]
      exact List.mem_append_right _ (List.mem_cons_self ..)
    · intro key value hmem hless
      rw [← Toml.mem_sortEntries, heq] at hmem
      rcases List.mem_append.mp hmem with hmem | hmem
      · exact hfront _ hmem
      -- a key behind the mismatch is greater than that of the mismatch
      · have hgreater : ¬ bytes key < bytes mismatch.key := by
          rcases List.mem_cons.mp hmem with hsame | hmem
          · obtain ⟨rfl, -⟩ := Prod.mk.inj hsame
            exact List.lt_irrefl _
          · exact List.lt_asymm
              ((List.pairwise_cons.mp hbehind).1 key (List.mem_map_of_mem hmem))
        exact absurd hless hgreater
  · intro h
    obtain ⟨front, behind, heq⟩ := List.append_of_mem (Toml.mem_sortEntries.mpr h.entry)
    refine ⟨front, behind, heq, ?_, h.unfit⟩
    intro entry hmem
    rw [heq, Toml.Entries.keys, List.map_append, List.map_cons] at hsorted
    have hless := (List.pairwise_append.mp hsorted).2.2 entry.1 (List.mem_map_of_mem hmem)
      mismatch.key (List.mem_cons_self ..)
    refine h.first entry.1 entry.2 ?_ hless
    rw [← Toml.mem_sortEntries, heq]
    exact List.mem_append_left _ hmem

-- ── Texts ───────────────────────────────────────────────────────────────────

/-- **A settings text is refused** exactly if it is no TOML, or if an entry of it does not fit, and
    then for the one with the least key. -/
theorem ofToml_error_iff {text : String} {refusal : Refusal} :
    ofToml text = .error refusal
      ↔ (∃ problem, Toml.read text = .error problem ∧ refusal = .problem problem) ∨
        ∃ entries mismatch, Toml.read text = .ok entries ∧ FirstMismatch entries mismatch ∧
          refusal = .mismatch mismatch := by
  unfold ofToml
  cases hread : Toml.read text with
  | error problem =>
      constructor
      · intro h
        exact .inl ⟨problem, rfl, (Except.error.inj h).symm⟩
      · rintro (⟨_, heq, rfl⟩ | ⟨entries, mismatch, heq, -⟩)
        · obtain rfl := Except.error.inj heq
          rfl
        · exact nomatch heq
  | ok entries =>
      have hkeys := (Toml.distinct_read hread).keys
      dsimp only
      rw [Journaled.mapError_eq_error_iff]
      constructor
      · rintro ⟨mismatch, h, rfl⟩
        exact .inr ⟨entries, mismatch, rfl, (ofEntries_sortEntries_error_iff hkeys).mp h, rfl⟩
      · rintro (⟨_, heq, -⟩ | ⟨_, mismatch, heq, hfirst, rfl⟩)
        · exact nomatch heq
        · obtain rfl := Except.ok.inj heq
          exact ⟨mismatch, (ofEntries_sortEntries_error_iff hkeys).mpr hfirst, rfl⟩

end Settings

end Stencil
