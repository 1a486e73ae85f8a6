import Stencil.Document.Reader
import Stencil.Proofs.Document.Members
import Stencil.Proofs.Journaled
import Stencil.Proofs.Repetitions

/-!
# Reading — the names of the objects that are read

What a step does to the names in a document depends on its kind alone: a value begins or is
complete, a name has been read, a container is closed (`Moves`, a constructor for each kind). Two
invariants follow from that by cases and hold along every run. No name is repeated in an object,
at any depth (`distinct_read`). And the names of the outermost object are those that the text
gives to its members, each once, in the order in which they first stand there (`names_read`).
-/

namespace Stencil.Document

-- ── Moves ───────────────────────────────────────────────────────────────────

/-- A document that is no container. -/
def IsScalar : Document → Prop
  | .array _ => False
  | .object _ => False
  | _ => True

/-- The containers around a value that may begin now, the innermost first. -/
def State.around? : State → Option (List Frame)
  | .value frames => some frames
  | .firstItem frames => some (.list [] :: frames)
  | .nextItem before frames => some (.list before :: frames)
  | _ => none

/-- **What a step can do**: the state before it and the state behind it. -/
inductive Moves : State → State → Prop where
  | scalar {state : State} {frames : List Frame} {document : Document}
      (around : state.around? = some frames) (simple : document.IsScalar) :
      Moves state (.after document frames)
  | openList {state : State} {frames : List Frame} (around : state.around? = some frames) :
      Moves state (.firstItem frames)
  | openObject {state : State} {frames : List Frame} (around : state.around? = some frames) :
      Moves state (.firstName frames)
  | emptyList {frames : List Frame} : Moves (.firstItem frames) (.after (.array []) frames)
  | emptyObject {frames : List Frame} : Moves (.firstName frames) (.after (.object []) frames)
  | firstName {frames : List Frame} {name : String} :
      Moves (.firstName frames) (.colon [] name frames)
  | nextName {before : Members} {frames : List Frame} {name : String} :
      Moves (.nextName before frames) (.colon before name frames)
  | colon {before : Members} {name : String} {frames : List Frame} :
      Moves (.colon before name frames) (.value (.object before name :: frames))
  | nextItem {document : Document} {before : List Document} {frames : List Frame} :
      Moves (.after document (.list before :: frames)) (.nextItem (document :: before) frames)
  | closeList {document : Document} {before : List Document} {frames : List Frame} :
      Moves (.after document (.list before :: frames))
        (.after (.array (document :: before).reverse) frames)
  | nextMember {document : Document} {before : Members} {name : String} {frames : List Frame} :
      Moves (.after document (.object before name :: frames))
        (.nextName (before.insert name document) frames)
  | closeObject {document : Document} {before : Members} {name : String} {frames : List Frame} :
      Moves (.after document (.object before name :: frames))
        (.after (.object (before.insert name document)) frames)

/-- A word that was read stands for what it means. -/
theorem value_of_word {frames : List Frame} {letters : List Char} {meant : Document} {c : Char}
    {rest : List Char} {found : Next (c :: rest)}
    (h : word frames letters meant c rest = .ok found) : found.value = .after meant frames := by
  unfold word at h
  split at h
  · cases h
  · obtain rfl := Except.ok.inj h
    rfl

/-- The first character of a value moves the reader on. -/
theorem moves_start {state : State} {frames : List Frame} {c : Char} {rest : List Char}
    {found : Next (c :: rest)} (haround : state.around? = some frames)
    (h : start frames c rest = .ok found) : Moves state found.value := by
  unfold start at h
  split at h
  · exact value_of_word h ▸ .scalar haround trivial
  · exact value_of_word h ▸ .scalar haround trivial
  · exact value_of_word h ▸ .scalar haround trivial
  · split at h
    · cases h
    · obtain rfl := Except.ok.inj h
      exact .scalar haround trivial
  · split at h
    · obtain rfl := Except.ok.inj h
      exact .openList haround
    · cases h
  · split at h
    · obtain rfl := Except.ok.inj h
      exact .openObject haround
    · cases h
  · split at h
    · split at h
      · cases h
      · obtain rfl := Except.ok.inj h
        exact .scalar haround trivial
    · cases h

theorem exists_value_of_name {before : Members} {frames : List Frame} {c : Char}
    {rest : List Char} {found : Next (c :: rest)}
    (h : (name before frames rest).map (·.widen) = .ok found) :
    ∃ key, found.value = .colon before key frames := by
  unfold name at h
  split at h
  · cases h
  · obtain rfl := Except.ok.inj h
    exact ⟨_, rfl⟩

/-- **Every step is a move**, and nothing else is needed to know about it. -/
theorem moves_step {state : State} {c : Char} {rest : List Char} {found : Next (c :: rest)}
    (h : step state c rest = .ok found) : Moves state found.value := by
  unfold step at h
  split at h
  · exact moves_start rfl h
  · split at h
    · obtain rfl := Except.ok.inj h
      exact .emptyList
    · exact moves_start rfl h
  · split at h
    · cases h
    · exact moves_start rfl h
  · split at h
    · obtain rfl := Except.ok.inj h
      exact .emptyObject
    · split at h
      · obtain ⟨key, heq⟩ := exists_value_of_name h
        exact heq ▸ .firstName
      · cases h
  · split at h
    · cases h
    · split at h
      · obtain ⟨key, heq⟩ := exists_value_of_name h
        exact heq ▸ .nextName
      · cases h
  · split at h
    · obtain rfl := Except.ok.inj h
      exact .colon
    · cases h
  · cases h
  · split at h
    · obtain rfl := Except.ok.inj h
      exact .nextItem
    · split at h
      · obtain rfl := Except.ok.inj h
        exact .closeList
      · cases h
  · split at h
    · obtain rfl := Except.ok.inj h
      exact .nextMember
    · split at h
      · obtain rfl := Except.ok.inj h
        exact .closeObject
      · cases h

/-- The containers that are open in a state, the innermost first. -/
def State.frames : State → List Frame
  | .value frames => frames
  | .firstItem frames => frames
  | .nextItem _ frames => frames
  | .firstName frames => frames
  | .nextName _ frames => frames
  | .colon _ _ frames => frames
  | .after _ frames => frames

/-- A run ends well where a document is complete and no container is open. -/
theorem finish_ok_iff {state : State} {document : Document} :
    finish state = .ok document ↔ state = .after document [] := by
  unfold finish
  split <;> simp

-- ── Names that are not repeated ─────────────────────────────────────────────

mutual

/-- No name is repeated in an object, at any depth. -/
def Distinct : Document → Prop
  | .null => True
  | .bool _ => True
  | .number _ => True
  | .string _ => True
  | .array items => DistinctItems items
  | .object members => (Members.names members).Nodup ∧ DistinctMembers members

/-- The same of all items of a list. -/
def DistinctItems : List Document → Prop
  | [] => True
  | item :: items => Distinct item ∧ DistinctItems items

/-- The same of the values of all members. -/
def DistinctMembers : List (String × Document) → Prop
  | [] => True
  | (_, value) :: members => Distinct value ∧ DistinctMembers members

end

/-- A scalar repeats no name. -/
theorem IsScalar.distinct {document : Document} (h : document.IsScalar) : document.Distinct := by
  cases document with
  | array items => exact h.elim
  | object members => exact h.elim
  | _ => trivial

theorem distinctItems_iff {items : List Document} :
    DistinctItems items ↔ ∀ item ∈ items, item.Distinct := by
  induction items with
  | nil =>
      constructor
      · intro _ item hmem
        exact nomatch hmem
      · exact fun _ => trivial
  | cons item items ih => rw [DistinctItems, ih, List.forall_mem_cons]

/-- Putting a document under a name repeats no name. -/
theorem distinct_insert {members : Members} {value : Document} (name : String)
    (h : (object members).Distinct) (hvalue : value.Distinct) :
    (object (members.insert name value)).Distinct := by
  refine ⟨Members.nodup_names_insert h.1 name value, ?_⟩
  have hmembers := h.2
  clear h
  induction members with
  | nil => exact ⟨hvalue, trivial⟩
  | cons member members ih =>
      obtain ⟨key, old⟩ := member
      rw [Members.insert]
      by_cases hkey : key = name
      · rw [if_pos hkey]
        exact ⟨hvalue, hmembers.2⟩
      · rw [if_neg hkey]
        exact ⟨hmembers.1, ih hmembers.2⟩

/-- What an open container holds so far. -/
def Frame.held : Frame → Document
  | .list before => .array before
  | .object before _ => .object before

/-- What is read so far and not in a container around it. -/
def State.held : State → Document
  | .nextItem before _ => .array before
  | .nextName before _ => .object before
  | .colon before _ _ => .object before
  | .after document _ => document
  | _ => .null

/-- Nothing that is read so far repeats a name. -/
structure State.Distinct (state : State) : Prop where
  held : state.held.Distinct
  frames : ∀ frame ∈ state.frames, frame.held.Distinct

/-- The containers around a new value hold what is read so far. -/
theorem State.Distinct.around {state : State} {frames : List Frame} (h : state.Distinct)
    (haround : state.around? = some frames) : ∀ frame ∈ frames, frame.held.Distinct := by
  cases state with
  | value frames =>
      obtain rfl := Option.some.inj haround
      exact h.frames
  | firstItem frames =>
      obtain rfl := Option.some.inj haround
      exact List.forall_mem_cons.mpr ⟨trivial, h.frames⟩
  | nextItem before frames =>
      obtain rfl := Option.some.inj haround
      exact List.forall_mem_cons.mpr ⟨h.held, h.frames⟩
  | _ => exact nomatch haround

/-- **One step** repeats no name: whatever joins an object is inserted. -/
theorem distinct_of_moves {before after : State} (h : Moves before after)
    (hbefore : before.Distinct) : after.Distinct := by
  cases h with
  | scalar haround hsimple => exact ⟨hsimple.distinct, hbefore.around haround⟩
  | openList haround => exact ⟨trivial, hbefore.around haround⟩
  | openObject haround => exact ⟨trivial, hbefore.around haround⟩
  | emptyList => exact ⟨trivial, hbefore.frames⟩
  | emptyObject => exact ⟨⟨List.nodup_nil, trivial⟩, hbefore.frames⟩
  | firstName => exact ⟨⟨List.nodup_nil, trivial⟩, hbefore.frames⟩
  | nextName => exact ⟨hbefore.held, hbefore.frames⟩
  | colon => exact ⟨trivial, List.forall_mem_cons.mpr ⟨hbefore.held, hbefore.frames⟩⟩
  | nextItem =>
      obtain ⟨hlist, hframes⟩ := List.forall_mem_cons.mp hbefore.frames
      exact ⟨⟨hbefore.held, hlist⟩, hframes⟩
  | @closeList document items frames =>
      obtain ⟨hlist, hframes⟩ := List.forall_mem_cons.mp hbefore.frames
      have hitems : DistinctItems (document :: items) := ⟨hbefore.held, hlist⟩
      refine ⟨distinctItems_iff.mpr ?_, hframes⟩
      intro item hmem
      exact distinctItems_iff.mp hitems item (List.mem_reverse.mp hmem)
  | nextMember =>
      obtain ⟨hobject, hframes⟩ := List.forall_mem_cons.mp hbefore.frames
      exact ⟨distinct_insert _ hobject hbefore.held, hframes⟩
  | closeObject =>
      obtain ⟨hobject, hframes⟩ := List.forall_mem_cons.mp hbefore.frames
      exact ⟨distinct_insert _ hobject hbefore.held, hframes⟩

/-- From a state without repeated names no repeated name is read. -/
theorem distinct_run {state : State} {text : List Char} {document : Document}
    (hstate : state.Distinct) (h : run state text = .ok document) : document.Distinct := by
  fun_induction run state text with
  | case1 state =>
      obtain rfl := finish_ok_iff.mp h
      exact hstate.held
  | case2 state c rest hblank ih => exact ih hstate h
  | case3 state c rest hblank fault hstep => cases h
  | case4 state c rest hblank next behind shorter hstep ih =>
      exact ih (distinct_of_moves (moves_step hstep) hstate) h

/-- **No name is repeated** in an object of a document that is read from a text. -/
theorem distinct_read {text : String} {document : Document} (h : read text = .ok document) :
    document.Distinct := by
  have hstart : (State.value []).Distinct := ⟨trivial, List.forall_mem_nil _⟩
  exact distinct_run hstart (Journaled.mapError_eq_ok_iff.mp h)

-- ── Names in the order of the text ──────────────────────────────────────────

/-- The name that has just been read, if it is one of the outermost object. -/
def State.outerName? : State → Option String
  | .colon _ name [] => some name
  | _ => none

/-- The names that the reader finds in the outermost object from a state on, in the order of
    the text and with repetitions. -/
def outerNamesFrom (state : State) (text : List Char) : List String :=
  match text with
  | [] => []
  | c :: rest =>
    if isBlank c then outerNamesFrom state rest
    else
      match step state c rest with
      | .error _ => []
      | .ok ⟨next, behind, _⟩ => next.outerName?.toList ++ outerNamesFrom next behind
termination_by text.length
decreasing_by
  · simp only [List.length_cons]; omega
  · assumption

/-- The names of the members of the outermost object of a text, in the order of the text and
    with repetitions. -/
def outerNames (text : String) : List String :=
  outerNamesFrom (.value []) text.toList

/-- The names in an open container, the last one being that of the member that is read. -/
def Frame.names : Frame → List String
  | .list _ => []
  | .object before name => before.names ++ [name]

/-- The names in what is read so far and not in a container around it. -/
def State.names : State → List String
  | .nextName before _ => before.names
  | .colon before name _ => before.names ++ [name]
  | .after (.object members) _ => Members.names members
  | _ => []

/-- The names in the last of some open containers, or else some given ones. -/
def namesOutside (names : List String) : List Frame → List String
  | [] => names
  | frame :: frames => namesOutside frame.names frames

/-- The names that have been read in the outermost object, if that is what is read. -/
def State.seen (state : State) : List String :=
  namesOutside state.names state.frames

/-- Where a value is due, the outermost names are those of the open containers. -/
theorem seen_of_around {state : State} {frames : List Frame}
    (h : state.around? = some frames) : state.seen = namesOutside [] frames := by
  cases state with
  | value frames =>
      obtain rfl := Option.some.inj h
      rfl
  | firstItem frames =>
      obtain rfl := Option.some.inj h
      rfl
  | nextItem before frames =>
      obtain rfl := Option.some.inj h
      rfl
  | _ => exact nomatch h

/-- An inserted name counts like one that stands at the end. -/
theorem eraseDups_namesOutside_insert (members : Members) (name : String) (value : Document)
    (frames : List Frame) :
    (namesOutside (members.insert name value).names frames).eraseDups
      = (namesOutside (members.names ++ [name]) frames).eraseDups := by
  cases frames with
  | nil =>
      show (members.insert name value).names.eraseDups = (members.names ++ [name]).eraseDups
      rw [Members.names_insert]
      by_cases hmem : name ∈ members.names
      · rw [if_pos hmem, eraseDups_concat, if_pos hmem]
      · rw [if_neg hmem]
  | cons frame frames => rfl

/-- **One step** reads at most one name of the outermost object, and that comes last. -/
theorem seen_of_moves {before after : State} (h : Moves before after) :
    after.seen.eraseDups = (before.seen ++ after.outerName?.toList).eraseDups := by
  have hnothing : ∀ names : List String, names.eraseDups = (names ++ []).eraseDups :=
    fun names => congrArg List.eraseDups (List.append_nil names).symm
  cases h with
  | @scalar _ frames document haround hsimple =>
      rw [seen_of_around haround]
      cases document with
      | array items => exact hsimple.elim
      | object members => exact hsimple.elim
      | _ => exact hnothing _
  | openList haround =>
      rw [seen_of_around haround]
      exact hnothing _
  | openObject haround =>
      rw [seen_of_around haround]
      exact hnothing _
  -- A name counts only if no container is open around its object.
  | @firstName frames name =>
      cases frames with
      | nil => rfl
      | cons frame frames => exact hnothing _
  | @nextName members frames name =>
      cases frames with
      | nil => rfl
      | cons frame frames => exact hnothing _
  | @nextMember document members name frames =>
      exact (eraseDups_namesOutside_insert members name document frames).trans (hnothing _)
  | @closeObject document members name frames =>
      exact (eraseDups_namesOutside_insert members name document frames).trans (hnothing _)
  | _ => exact hnothing _

/-- The names of an object that is read: those read before and those found from there on, the first
    time each. -/
theorem names_run {state : State} {text : List Char} {members : Members}
    (h : run state text = .ok (.object members)) :
    members.names.eraseDups = (state.seen ++ outerNamesFrom state text).eraseDups := by
  fun_induction run state text with
  | case1 state =>
      obtain rfl := finish_ok_iff.mp h
      rw [outerNamesFrom, List.append_nil]
      rfl
  | case2 state c rest hblank ih =>
      rw [outerNamesFrom, if_pos hblank]
      exact ih h
  | case3 state c rest hblank fault hstep => cases h
  | case4 state c rest hblank next behind shorter hstep ih =>
      -- The name that this step reads, if it does, stands behind those seen before it.
      rw [outerNamesFrom, if_neg hblank, hstep, ih h]
      have hmove := seen_of_moves (moves_step hstep)
      rw [← List.append_assoc]
      exact eraseDups_append_congr hmove _

/-- **Names in the order of the text**: an object has the names that its text gives to members,
    each once and in the place where it first stands. -/
theorem names_read {text : String} {members : Members} (h : read text = .ok (.object members)) :
    members.names = (outerNames text).eraseDups := by
  rw [← eraseDups_of_nodup (distinct_read h).1]
  exact names_run (Journaled.mapError_eq_ok_iff.mp h)

end Stencil.Document
