import Stencil.Proofs.Document.Reading
import Stencil.Proofs.Document.RoundTrip

/-!
# Depth — how deep a document is that has been read

The reader opens no more containers at once than the limit allows (`room_step`). What a container
holds was read while it was open, so together with the containers around it, it is never deeper
than the limit either: the invariant says this of all that has been read so far, and every move
keeps it (`shallow_of_moves`). Where the text ends, nothing is open any more, and the document
itself is within the limit (`nesting_read`).
-/

namespace Stencil.Document

/-- The number of containers that are open in a state, with the one whose parts are due. -/
def State.openCount : State → Nat
  | .value frames => frames.length
  | .firstItem frames => frames.length + 1
  | .nextItem _ frames => frames.length + 1
  | .firstName frames => frames.length + 1
  | .nextName _ frames => frames.length + 1
  | .colon _ _ frames => frames.length + 1
  | .after _ frames => frames.length

/-- What open containers hold is no deeper than the limit allows where it stands. -/
def ShallowFrames : List Frame → Prop
  | [] => True
  | frame :: frames => frames.length + frame.held.nesting ≤ nestingLimit ∧ ShallowFrames frames

/-- Nothing that is read so far is too deep, and not too many containers are open. -/
structure State.Shallow (state : State) : Prop where
  room : state.openCount ≤ nestingLimit
  held : state.frames.length + state.held.nesting ≤ nestingLimit
  frames : ShallowFrames state.frames

-- ── Room for containers ─────────────────────────────────────────────────────

/-- The first character of a value opens one container at most, and only where there is room. -/
theorem room_start {frames : List Frame} {c : Char} {rest : List Char} {found : Next (c :: rest)}
    (hroom : frames.length ≤ nestingLimit) (h : start frames c rest = .ok found) :
    found.value.openCount ≤ nestingLimit := by
  unfold start at h
  split at h
  · rw [value_of_word h]
    exact hroom
  · rw [value_of_word h]
    exact hroom
  · rw [value_of_word h]
    exact hroom
  · split at h
    · cases h
    · obtain rfl := Except.ok.inj h
      exact hroom
  · split at h
    · next hless =>
        obtain rfl := Except.ok.inj h
        exact hless
    · cases h
  · split at h
    · next hless =>
        obtain rfl := Except.ok.inj h
        exact hless
    · cases h
  · split at h
    · split at h
      · cases h
      · obtain rfl := Except.ok.inj h
        exact hroom
    · cases h

/-- Only what starts a value opens a container; all else keeps or closes those that are open. -/
theorem room_of_moves {before after : State} (h : Moves before after)
    (hstart : before.around? = none) (hroom : before.openCount ≤ nestingLimit) :
    after.openCount ≤ nestingLimit := by
  cases h with
  | scalar around _ => exact nomatch hstart.symm.trans around
  | openList around => exact nomatch hstart.symm.trans around
  | openObject around => exact nomatch hstart.symm.trans around
  | emptyList => exact nomatch hstart
  | emptyObject => exact Nat.le_of_succ_le hroom
  | firstName => exact hroom
  | nextName => exact hroom
  | colon => exact hroom
  | nextItem => exact hroom
  | closeList => exact Nat.le_of_succ_le hroom
  | nextMember => exact hroom
  | closeObject => exact Nat.le_of_succ_le hroom

/-- **A step** leaves no more containers open than the limit allows. -/
theorem room_step {state : State} {c : Char} {rest : List Char} {found : Next (c :: rest)}
    (hroom : state.openCount ≤ nestingLimit) (h : step state c rest = .ok found) :
    found.value.openCount ≤ nestingLimit := by
  cases state with
  | value frames => exact room_start hroom h
  | firstItem frames =>
      rw [step] at h
      split at h
      · obtain rfl := Except.ok.inj h
        exact Nat.le_of_succ_le hroom
      · have hopen : (Frame.list [] :: frames).length ≤ nestingLimit := hroom
        exact room_start hopen h
  | nextItem before frames =>
      rw [step] at h
      split at h
      · cases h
      · have hopen : (Frame.list before :: frames).length ≤ nestingLimit := hroom
        exact room_start hopen h
  | _ => exact room_of_moves (moves_step h) rfl hroom

-- ── Depth of what is held ───────────────────────────────────────────────────

theorem nestingOfItems_perm {items others : List Document} (h : items.Perm others) :
    nestingOfItems items = nestingOfItems others := by
  induction h with
  | nil => rfl
  | cons item _ ih => rw [nestingOfItems, nestingOfItems, ih]
  | swap item other items =>
      simp only [nestingOfItems]
      omega
  | trans _ _ ih ih' => exact ih.trans ih'

theorem nestingOfMembers_insert_le (members : Members) (name : String) (value : Document) :
    nestingOfMembers (members.insert name value)
      ≤ max (nestingOfMembers members) value.nesting := by
  induction members with
  | nil =>
      simp only [Members.insert, nestingOfMembers]
      omega
  | cons member members ih =>
      obtain ⟨key, old⟩ := member
      rw [Members.insert]
      by_cases hkey : key = name
      · rw [if_pos hkey]
        simp only [nestingOfMembers]
        omega
      · rw [if_neg hkey]
        simp only [nestingOfMembers]
        omega

theorem IsScalar.nesting_eq {document : Document} (h : document.IsScalar) :
    document.nesting = 0 := by
  cases document with
  | array items => exact h.elim
  | object members => exact h.elim
  | _ => rfl

/-- The containers around a new value hold what is read so far. -/
theorem State.Shallow.around {state : State} {frames : List Frame} (h : state.Shallow)
    (haround : state.around? = some frames) : ShallowFrames frames := by
  cases state with
  | value frames =>
      obtain rfl := Option.some.inj haround
      exact h.frames
  | firstItem frames =>
      obtain rfl := Option.some.inj haround
      exact ⟨h.room, h.frames⟩
  | nextItem before frames =>
      obtain rfl := Option.some.inj haround
      exact ⟨h.held, h.frames⟩
  | _ => exact nomatch haround

-- ── The invariant ───────────────────────────────────────────────────────────

/-- **One move** makes nothing too deep if it leaves no more containers open than there may be. -/
theorem shallow_of_moves {before after : State} (h : Moves before after)
    (hbefore : before.Shallow) (hroom : after.openCount ≤ nestingLimit) : after.Shallow := by
  refine ⟨hroom, ?_, ?_⟩
  · cases h with
    | scalar _ hsimple =>
        simp only [State.frames, State.held, State.openCount, hsimple.nesting_eq] at hroom ⊢
        exact hroom
    | openList _ => exact Nat.le_of_succ_le hroom
    | openObject _ => exact Nat.le_of_succ_le hroom
    | emptyList => exact hbefore.room
    | emptyObject => exact hbefore.room
    | firstName => exact hroom
    | nextName => exact hbefore.held
    | colon => exact hroom
    | nextItem =>
        have hheld := hbefore.held
        have hlist := hbefore.frames.1
        simp only [State.frames, State.held, Frame.held, nesting, nestingOfItems,
          List.length_cons] at hheld hlist ⊢
        omega
    | @closeList document items frames =>
        have hheld := hbefore.held
        have hlist := hbefore.frames.1
        simp only [State.frames, State.held, Frame.held, nesting, List.length_cons,
          nestingOfItems_perm (List.reverse_perm (document :: items)), nestingOfItems]
          at hheld hlist ⊢
        omega
    | @nextMember document members name frames =>
        have hheld := hbefore.held
        have hobject := hbefore.frames.1
        have hinsert := nestingOfMembers_insert_le members name document
        simp only [State.frames, State.held, Frame.held, nesting, List.length_cons]
          at hheld hobject ⊢
        omega
    | @closeObject document members name frames =>
        have hheld := hbefore.held
        have hobject := hbefore.frames.1
        have hinsert := nestingOfMembers_insert_le members name document
        simp only [State.frames, State.held, Frame.held, nesting, List.length_cons]
          at hheld hobject ⊢
        omega
  · cases h with
    | scalar haround _ => exact hbefore.around haround
    | openList haround => exact hbefore.around haround
    | openObject haround => exact hbefore.around haround
    | emptyList => exact hbefore.frames
    | emptyObject => exact hbefore.frames
    | firstName => exact hbefore.frames
    | nextName => exact hbefore.frames
    | colon => exact ⟨hbefore.held, hbefore.frames⟩
    | nextItem => exact hbefore.frames.2
    | closeList => exact hbefore.frames.2
    | nextMember => exact hbefore.frames.2
    | closeObject => exact hbefore.frames.2

/-- From a shallow state nothing is read that is nested too deep. -/
theorem nesting_run {state : State} {text : List Char} {document : Document}
    (hstate : state.Shallow) (h : run state text = .ok document) :
    document.nesting ≤ nestingLimit := by
  fun_induction run state text with
  | case1 state =>
      obtain rfl := finish_ok_iff.mp h
      exact Nat.le_trans (Nat.le_add_left ..) hstate.held
  | case2 state c rest hblank ih => exact ih hstate h
  | case3 state c rest hblank fault hstep => cases h
  | case4 state c rest hblank next behind shorter hstep ih =>
      exact ih (shallow_of_moves (moves_step hstep) hstate (room_step hstate.room hstep)) h

/-- **No document that is read is too deep** to be read again once it is written. -/
theorem nesting_read {text : String} {document : Document} (h : read text = .ok document) :
    document.nesting ≤ nestingLimit := by
  have hstart : (State.value []).Shallow := ⟨Nat.zero_le _, Nat.zero_le _, trivial⟩
  exact nesting_run hstart (Journaled.mapError_eq_ok_iff.mp h)

theorem nesting_le_of_mem {members : Members} {name : String} {value : Document}
    (h : (name, value) ∈ members) : value.nesting ≤ nestingOfMembers members := by
  induction members with
  | nil => exact nomatch h
  | cons member members ih =>
      rw [nestingOfMembers]
      rcases List.mem_cons.mp h with rfl | h
      · exact Nat.le_max_left ..
      · exact Nat.le_trans (ih h) (Nat.le_max_right ..)

/-- The same of every member of an object that is read. -/
theorem nesting_read_member {text name : String} {members : Members} {value : Document}
    (h : read text = .ok (.object members)) (hmem : (name, value) ∈ members) :
    value.nesting ≤ nestingLimit := by
  have hobject := nesting_read h
  rw [nesting] at hobject
  exact Nat.le_trans (nesting_le_of_mem hmem) (Nat.le_of_succ_le hobject)

end Stencil.Document
