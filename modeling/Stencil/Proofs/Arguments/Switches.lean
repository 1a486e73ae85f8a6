import Stencil.Arguments.Given
import Stencil.Proofs.Journaled

/-!
# Switches — which of them the arguments of a level give

A level is read argument by argument, and a value may be due from one argument to the next. Which
switches are given can be said without that: every argument in front of two dashes gives its own,
whatever stands before it, since a value that is due is never taken for a switch and a switch
never for a value (`seen_of_reads`). When nothing is due any more, all that has been seen is taken
down, in its order (`seen_of_due_eq_none`).
-/

namespace Stencil.Arguments

-- ── Single arguments ────────────────────────────────────────────────────────

/-- The switches among letters behind a dash. The first that takes a value has the rest. -/
def letterSwitches (accepted : List Switch) : List Char → List Switch
  | [] => []
  | c :: rest =>
    match accepted.find? fun switch => switch.letter? == some c with
    | none => []
    | some switch =>
      if switch.takesValue then [switch] else switch :: letterSwitches accepted rest

/-- The first letter names a switch, and the rest is its value or further letters. -/
theorem letterSwitches_cons {accepted : List Switch} {c : Char} {switch : Switch}
    (h : accepted.find? (fun switch => switch.letter? == some c) = some switch)
    (rest : List Char) :
    letterSwitches accepted (c :: rest)
      = if switch.takesValue then [switch] else switch :: letterSwitches accepted rest := by
  rw [letterSwitches, h]

/-- The switches that an argument gives by itself. -/
def switchesOf (accepted : List Switch) (argument : String) : List Switch :=
  match shapeOf argument with
  | .long name _ => (accepted.find? fun switch => switch.long == name).toList
  | .letters letters => letterSwitches accepted letters
  | _ => []

/-- The switches that arguments give. Behind two dashes there are none. -/
def switchesIn (accepted : List Switch) (arguments : List String) : List Switch :=
  (arguments.takeWhile (· ≠ "--")).flatMap (switchesOf accepted)

theorem switchesIn_nil (accepted : List Switch) : switchesIn accepted [] = [] := rfl

/-- Up to two dashes, every argument adds its own switches. -/
theorem switchesIn_cons_of_ne {argument : String} (h : argument ≠ "--") (accepted : List Switch)
    (arguments : List String) :
    switchesIn accepted (argument :: arguments)
      = switchesOf accepted argument ++ switchesIn accepted arguments := by
  simp only [switchesIn, List.takeWhile_cons, decide_eq_true h, if_pos, List.flatMap_cons]

/-- Only two dashes alone end the switches. -/
theorem shapeOf_eq_escape_iff {argument : String} : shapeOf argument = .escape ↔ argument = "--" := by
  constructor
  · intro h
    unfold shapeOf at h
    split at h
    · next hchars => exact String.toList_inj.mp hchars
    · cases h
    · cases h
    · cases h
  · rintro rfl
    rfl

-- ── What has been seen ──────────────────────────────────────────────────────

namespace Given

variable {g g' : Given}

/-- The switch whose value is due, or has not been taken down yet. -/
def pending (g : Given) : List Switch :=
  match g.due with
  | some (.switch switch, _) => [switch]
  | _ => []

/-- The switches that have appeared so far, in order. -/
def seen (g : Given) : List Switch :=
  g.switches.map Prod.fst ++ g.pending

/-- A switch has been given if it was taken down. -/
theorem has_iff {switch : Switch} : g.has switch = true ↔ switch ∈ g.switches.map Prod.fst := by
  rw [has, List.any_eq_true, List.mem_map]
  simp only [beq_iff_eq]

/-- With no value due, what was seen is what was taken down. -/
theorem seen_of_due_eq_none (h : g.due = none) : g.seen = g.switches.map Prod.fst := by
  rw [seen, pending, h, List.append_nil]

/-- Reading on has found further switches and has changed nothing about what may follow. -/
structure Adds (g : Given) (found : List Switch) (g' : Given) : Prop where
  seen : g'.seen = g.seen ++ found
  wordsOnly : g'.wordsOnly = g.wordsOnly

theorem Adds.trans {next : Given} {found further : List Switch} (h : Adds g found g')
    (hnext : Adds g' further next) : Adds g (found ++ further) next where
  seen := by rw [hnext.seen, h.seen, List.append_assoc]
  wordsOnly := hnext.wordsOnly.trans h.wordsOnly

/-- A switch is taken down behind the others. -/
theorem takeSwitch_ok {switch : Switch} {value : Option String}
    (h : g.takeSwitch switch value = .ok g') :
    g' = { g with switches := g.switches ++ [(switch, value)] } := by
  unfold takeSwitch at h
  split at h
  · cases h
  · split at h
    · cases h
    · split at h
      · cases h
      · exact (Except.ok.inj h).symm

/-- Taking down what is due shows nothing new. -/
theorem settle_ok (h : g.settle = .ok g') : Adds g [] g' ∧ g'.due = none := by
  unfold settle at h
  split at h
  · next hdue =>
      obtain rfl := Except.ok.inj h
      exact ⟨⟨(List.append_nil _).symm, rfl⟩, hdue⟩
  · next slot value hdue =>
      dsimp only at h
      split at h
      · next switch =>
          obtain rfl := takeSwitch_ok h
          refine ⟨⟨?_, rfl⟩, rfl⟩
          simp [Given.seen, pending, hdue]
      · split at h
        · cases h
        · obtain rfl := Except.ok.inj h
          refine ⟨⟨?_, rfl⟩, rfl⟩
          simp [Given.seen, pending, hdue]

/-- Taking a switch down finds that switch. -/
theorem takeSwitch_adds {switch : Switch} {value : Option String} (hdue : g.due = none)
    (h : g.takeSwitch switch value = .ok g') : Adds g [switch] g' ∧ g'.due = none := by
  obtain rfl := takeSwitch_ok h
  refine ⟨⟨?_, rfl⟩, hdue⟩
  simp [Given.seen, pending, hdue]

theorem react_adds {switch : Switch} {value : Option String} (h : g.react switch value = .ok g') :
    Adds g [switch] g' ∧ g'.due = none := by
  unfold react at h
  obtain ⟨settled, hsettled, htaken⟩ := Journaled.bind_eq_ok_iff.mp h
  obtain ⟨hadds, hdue⟩ := settle_ok hsettled
  split at htaken
  · cases htaken
  · cases htaken
  · obtain ⟨htaken, hdue⟩ := takeSwitch_adds hdue htaken
    exact ⟨hadds.trans htaken, hdue⟩

theorem await_adds {switch : Switch} (h : g.await switch = .ok g') : Adds g [switch] g' := by
  unfold await at h
  obtain ⟨settled, hsettled, hdone⟩ := Journaled.bind_eq_ok_iff.mp h
  obtain ⟨hadds, hdue⟩ := settle_ok hsettled
  obtain rfl := Except.ok.inj hdone
  refine hadds.trans ⟨?_, rfl⟩
  rw [seen_of_due_eq_none hdue]
  rfl

/-- A long name finds the switch that has this name. -/
theorem long_adds {accepted : List Switch} {name : String} {value : Option String}
    (h : g.long accepted name value = .ok g') :
    Adds g (accepted.find? fun switch => switch.long == name).toList g' := by
  unfold long at h
  split at h
  · cases h
  · next switch hfind =>
      rw [hfind]
      split at h
      · split at h
        · exact (react_adds h).1
        · exact await_adds h
      · split at h
        · cases h
        · exact (react_adds h).1

/-- Grouped letters find their switches from left to right. -/
theorem letters_adds {accepted : List Switch} {letters : List Char}
    (h : g.letters accepted letters = .ok g') : Adds g (letterSwitches accepted letters) g' := by
  induction letters generalizing g with
  | nil =>
      obtain rfl := Except.ok.inj h
      exact ⟨(List.append_nil _).symm, rfl⟩
  | cons c rest ih =>
      rw [Given.letters] at h
      split at h
      · cases h
      · next switch hfind =>
          rw [letterSwitches_cons hfind]
          split at h
          · next htakes =>
              rw [if_pos htakes]
              split at h
              · exact (react_adds h).1
              · exact await_adds h
          · next htakes =>
              rw [if_neg htakes]
              obtain ⟨reacted, hreacted, hrest⟩ := Journaled.bind_eq_ok_iff.mp h
              exact (react_adds hreacted).1.trans (ih hrest)

/-- A word adds no switch. -/
theorem word_adds {text : String} (h : g.word text = .ok g') : Adds g [] g' := by
  unfold word at h
  split at h
  · next switch hdue _ =>
      obtain rfl := Except.ok.inj h
      refine ⟨?_, rfl⟩
      simp [Given.seen, pending, hdue]
  · split at h
    · cases h
    · obtain ⟨settled, hsettled, hdone⟩ := Journaled.bind_eq_ok_iff.mp h
      obtain ⟨hadds, hdue⟩ := settle_ok hsettled
      obtain rfl := Except.ok.inj hdone
      refine hadds.trans ⟨?_, rfl⟩
      rw [List.append_nil, seen_of_due_eq_none hdue]
      exact List.append_nil _

/-- Behind two dashes every argument is a word. -/
theorem argument_adds_of_wordsOnly {accepted : List Switch} {text : String}
    (hwords : g.wordsOnly = true) (h : g.argument accepted text = .ok g') : Adds g [] g' := by
  rw [argument, if_pos hwords] at h
  exact word_adds h

/-- **One argument** adds the switches that it gives by itself. -/
theorem argument_adds {accepted : List Switch} {text : String} (hwords : g.wordsOnly = false)
    (hne : text ≠ "--") (h : g.argument accepted text = .ok g') :
    Adds g (switchesOf accepted text) g' := by
  rw [argument, hwords, if_neg Bool.false_ne_true] at h
  rw [switchesOf]
  split at h
  · next hshape => exact absurd (shapeOf_eq_escape_iff.mp hshape) hne
  · next hshape =>
      rw [hshape]
      exact long_adds h
  · next hshape =>
      rw [hshape]
      exact letters_adds h
  · next hshape =>
      rw [hshape]
      exact word_adds h

/-- **The arguments of a level** add the switches that each gives by itself. -/
theorem seen_of_reads {accepted : List Switch} {arguments : List String}
    (h : arguments.foldlM (Given.argument accepted) g = .ok g') :
    g'.seen = g.seen ++ if g.wordsOnly then [] else switchesIn accepted arguments := by
  induction arguments generalizing g with
  | nil =>
      obtain rfl := Except.ok.inj h
      rw [switchesIn_nil, ite_self, List.append_nil]
  | cons text arguments ih =>
      rw [List.foldlM_cons] at h
      obtain ⟨next, hnext, hrest⟩ := Journaled.bind_eq_ok_iff.mp h
      rw [ih hrest]
      cases hwords : g.wordsOnly with
      | true =>
          obtain ⟨hseen, hkept⟩ := argument_adds_of_wordsOnly hwords hnext
          rw [hseen, hkept, hwords, if_pos rfl, if_pos rfl, List.append_nil]
      | false =>
          by_cases hdashes : text = "--"
          · subst hdashes
            rw [argument, hwords] at hnext
            obtain rfl := Except.ok.inj hnext
            rfl
          · obtain ⟨hseen, hkept⟩ := argument_adds hwords hdashes hnext
            rw [hseen, hkept, hwords, if_neg Bool.false_ne_true, if_neg Bool.false_ne_true,
              switchesIn_cons_of_ne hdashes, List.append_assoc]

end Given

end Stencil.Arguments
