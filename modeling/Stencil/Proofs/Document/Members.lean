import Stencil.Document.Basic

/-!
# Members — an object as a map that remembers the order of its names

Asking whether a name is there, looking it up and listing the names are three views of one
thing. Putting a member under a name changes the list of names only at its end, and only if
the name is new; so names that do not repeat never come to repeat.
-/

namespace Stencil.Members

theorem names_cons (name : String) (value : Document) (rest : Members) :
    names ((name, value) :: rest) = name :: names rest := rfl

theorem get?_cons (key name : String) (value : Document) (rest : Members) :
    get? ((key, value) :: rest) name = if name = key then some value else get? rest name := by
  by_cases h : name = key
  · subst h
    simp [get?]
  · have h' : (name == key) = false := by simp [h]
    simp [get?, List.lookup_cons, h, h']

theorem has_iff_mem_names {members : Members} {name : String} :
    members.has name = true ↔ name ∈ members.names := by
  simp [has, names]

/-- A name is there exactly if it can be looked up. -/
theorem has_eq_isSome_get? (members : Members) (name : String) :
    members.has name = (members.get? name).isSome := by
  induction members with
  | nil => rfl
  | cons member rest ih =>
      obtain ⟨key, value⟩ := member
      rw [get?_cons]
      show ((key == name) || has rest name) = _
      by_cases h : name = key
      · subst h
        simp
      · rw [if_neg h, ← ih]
        have h' : (key == name) = false := by simp [Ne.symm h]
        rw [h', Bool.false_or]

theorem get?_eq_none_iff {members : Members} {name : String} :
    members.get? name = none ↔ name ∉ members.names := by
  rw [← has_iff_mem_names, has_eq_isSome_get?]
  cases members.get? name with
  | none => simp
  | some value => simp

/-- Among names that do not repeat, each member can be looked up. -/
theorem get?_of_mem {members : Members} {name : String} {value : Document}
    (h : members.names.Nodup) (hmem : (name, value) ∈ members) :
    members.get? name = some value := by
  induction members with
  | nil => exact nomatch hmem
  | cons member rest ih =>
      obtain ⟨key, old⟩ := member
      obtain ⟨hkey, hrest⟩ := List.nodup_cons.mp h
      rw [get?_cons]
      rcases List.mem_cons.mp hmem with heq | hlater
      · obtain ⟨rfl, rfl⟩ := Prod.mk.inj heq
        rw [if_pos rfl]
      · have hname : name ∈ names rest := List.mem_map_of_mem hlater
        have hne : name ≠ key := fun heq => hkey (heq ▸ hname)
        rw [if_neg hne, ih hrest hlater]

/-- Among names that do not repeat, none stands in front of itself. -/
theorem not_mem_names_of_nodup {before rest : Members} {name : String} {value : Document}
    (h : (names (before ++ (name, value) :: rest)).Nodup) : name ∉ before.names := by
  intro hmem
  rw [names, List.map_append, List.map_cons, List.nodup_append] at h
  exact h.2.2 name hmem name (List.mem_cons_self ..) rfl

/-- A new name comes last. -/
theorem insert_of_not_mem {members : Members} {name : String} (value : Document)
    (h : name ∉ members.names) : members.insert name value = members ++ [(name, value)] := by
  induction members with
  | nil => rfl
  | cons member rest ih =>
      obtain ⟨key, old⟩ := member
      rw [names_cons, List.mem_cons, not_or] at h
      rw [insert, if_neg (Ne.symm h.1), ih h.2]
      rfl

/-- **Names after an insertion**: a new name comes last, a known one changes nothing. -/
theorem names_insert (members : Members) (name : String) (value : Document) :
    (members.insert name value).names
      = if name ∈ members.names then members.names else members.names ++ [name] := by
  induction members with
  | nil => simp [insert, names]
  | cons member rest ih =>
      obtain ⟨key, old⟩ := member
      by_cases h : key = name
      · subst h
        rw [insert, if_pos rfl, names_cons, names_cons, if_pos (List.mem_cons_self ..)]
      · rw [insert, if_neg h, names_cons, names_cons, ih]
        have hmem : (name ∈ key :: names rest) = (name ∈ names rest) := by
          simp [Ne.symm h]
        simp only [hmem]
        by_cases hrest : name ∈ names rest
        · rw [if_pos hrest, if_pos hrest]
        · rw [if_neg hrest, if_neg hrest, List.cons_append]

/-- Putting a member in repeats no name. -/
theorem nodup_names_insert {members : Members} (h : members.names.Nodup) (name : String)
    (value : Document) : (members.insert name value).names.Nodup := by
  rw [names_insert]
  by_cases hmem : name ∈ members.names
  · rw [if_pos hmem]
    exact h
  · rw [if_neg hmem]
    refine List.nodup_append.mpr ⟨h, by simp, ?_⟩
    rintro a ha b hb rfl
    rw [List.mem_singleton] at hb
    exact hmem (hb ▸ ha)

end Stencil.Members
