import Stencil.Proofs.Document.Reading
import Stencil.Proofs.Document.RoundTrip
import Stencil.Proofs.Settings.Order

/-!
# Content — documents that differ in the order of their members at most

Two documents have the same content if they are equal but for the order in which the members of
objects stand, at any depth (`SameContent`). Such documents are as deep and as exact as each other.
Only one of them has its members in the order of their names everywhere
(`SameContent.eq_of_ascends`), so members that are put in order can be told from any others. Their
texts can be told apart just as well, because they read back (`compact_eq_iff`).
-/

namespace Stencil.Document

mutual

/-- **The same content**: equal documents, but for the order of members at any depth. -/
inductive SameContent : Document → Document → Prop where
  | scalar {document : Document} (simple : document.IsScalar) : SameContent document document
  | array {items others : List Document} (inside : SameItems items others) :
      SameContent (.array items) (.array others)
  | object {members changed others : Members} (inside : SameMembers members changed)
      (order : changed.Perm others) : SameContent (.object members) (.object others)

/-- The same items, each of the same content as the one in its place. -/
inductive SameItems : List Document → List Document → Prop where
  | nil : SameItems [] []
  | cons {item other : Document} {items others : List Document} (first : SameContent item other)
      (further : SameItems items others) : SameItems (item :: items) (other :: others)

/-- The same names, with values of the same content. -/
inductive SameMembers : Members → Members → Prop where
  | nil : SameMembers [] []
  | cons {name : String} {value other : Document} {members others : Members}
      (first : SameContent value other) (further : SameMembers members others) :
      SameMembers ((name, value) :: members) ((name, other) :: others)

end

mutual

/-- The members of all objects stand in the order of the bytes of their names. -/
def Ascends : Document → Prop
  | .null => True
  | .bool _ => True
  | .number _ => True
  | .string _ => True
  | .array items => AscendsItems items
  | .object members => Ascending (Members.names members) ∧ AscendsMembers members

/-- The same of all items of a list. -/
def AscendsItems : List Document → Prop
  | [] => True
  | item :: items => Ascends item ∧ AscendsItems items

/-- The same of the values of all members. -/
def AscendsMembers : List (String × Document) → Prop
  | [] => True
  | (_, value) :: members => Ascends value ∧ AscendsMembers members

end

-- ── Members ─────────────────────────────────────────────────────────────────

theorem SameMembers.names_eq {members others : Members} (h : SameMembers members others) :
    members.names = others.names := by
  induction members generalizing others with
  | nil =>
      cases h
      rfl
  | cons member members ih =>
      cases h with
      | cons first further => rw [Members.names_cons, Members.names_cons, ih further]

theorem ascendsMembers_iff {members : Members} :
    AscendsMembers members ↔ ∀ member ∈ members, member.2.Ascends := by
  induction members with
  | nil => exact iff_of_true trivial (List.forall_mem_nil _)
  | cons member members ih => rw [AscendsMembers, ih, List.forall_mem_cons]

theorem exactMembers_iff {members : Members} :
    ExactMembers members ↔ ∀ member ∈ members, member.2.Exact := by
  induction members with
  | nil => exact iff_of_true trivial (List.forall_mem_nil _)
  | cons member members ih => rw [ExactMembers, ih, List.forall_mem_cons]

theorem nestingOfMembers_perm {members others : Members} (h : members.Perm others) :
    nestingOfMembers members = nestingOfMembers others := by
  induction h with
  | nil => rfl
  | cons member _ ih => rw [nestingOfMembers, nestingOfMembers, ih]
  | swap member other members =>
      simp only [nestingOfMembers]
      omega
  | trans _ _ ih ih' => exact ih.trans ih'

/-- Members in ascending order are determined by what they are. -/
theorem eq_of_perm_of_ascending {members others : Members} (h : members.Perm others)
    (hmembers : Ascending members.names) (hothers : Ascending others.names) :
    members = others := by
  rw [Ascending, Members.names, List.pairwise_map] at hmembers hothers
  refine h.eq_of_pairwise ?_ hmembers hothers
  intro member other _ _ hbefore hafter
  exact absurd hafter (List.lt_asymm hbefore)

-- ── What the same content has in common ─────────────────────────────────────

mutual

/-- **The same depth.** -/
theorem SameContent.nesting_eq :
    ∀ {document other : Document}, SameContent document other → document.nesting = other.nesting
  | _, _, .scalar _ => rfl
  | _, _, .array inside => congrArg (· + 1) inside.nesting_eq
  | _, _, .object inside order =>
      congrArg (· + 1) (inside.nesting_eq.trans (nestingOfMembers_perm order))

theorem SameItems.nesting_eq :
    ∀ {items others : List Document}, SameItems items others →
      nestingOfItems items = nestingOfItems others
  | _, _, .nil => rfl
  | _, _, .cons first further => congrArg₂ max first.nesting_eq further.nesting_eq

theorem SameMembers.nesting_eq :
    ∀ {members others : Members}, SameMembers members others →
      nestingOfMembers members = nestingOfMembers others
  | _, _, .nil => rfl
  | _, _, .cons first further => congrArg₂ max first.nesting_eq further.nesting_eq

end

mutual

/-- **The same exactness.** -/
theorem SameContent.exact :
    ∀ {document other : Document}, SameContent document other → document.Exact → other.Exact
  | _, _, .scalar _, h => h
  | _, _, .array inside, h => inside.exact h
  | _, _, .object inside order, h => by
      obtain ⟨hnames, hmembers⟩ := h
      have hchanged := exactMembers_iff.mp (inside.exact hmembers)
      rw [inside.names_eq] at hnames
      refine ⟨(order.map Prod.fst).nodup_iff.mp hnames, exactMembers_iff.mpr ?_⟩
      intro member hmem
      exact hchanged member (order.mem_iff.mpr hmem)

theorem SameItems.exact :
    ∀ {items others : List Document}, SameItems items others → ExactItems items →
      ExactItems others
  | _, _, .nil, _ => trivial
  | _, _, .cons first further, h => ⟨first.exact h.1, further.exact h.2⟩

theorem SameMembers.exact :
    ∀ {members others : Members}, SameMembers members others → ExactMembers members →
      ExactMembers others
  | _, _, .nil, _ => trivial
  | _, _, .cons first further, h => ⟨first.exact h.1, further.exact h.2⟩

end

mutual

/-- **ONE ORDER FOR A CONTENT**: with all members in the order of their names, the same content is
    the same document. -/
theorem SameContent.eq_of_ascends :
    ∀ {document other : Document}, SameContent document other → document.Ascends →
      other.Ascends → document = other
  | _, _, .scalar _, _, _ => rfl
  | _, _, .array inside, h, hother => congrArg array (inside.eq_of_ascends h hother)
  | _, _, .object inside order, h, hother => by
      obtain ⟨hnames, hmembers⟩ := h
      obtain ⟨hothers, hvalues⟩ := hother
      rw [inside.names_eq] at hnames
      obtain rfl := eq_of_perm_of_ascending order hnames hothers
      exact congrArg object (inside.eq_of_ascends hmembers hvalues)

theorem SameItems.eq_of_ascends :
    ∀ {items others : List Document}, SameItems items others → AscendsItems items →
      AscendsItems others → items = others
  | _, _, .nil, _, _ => rfl
  | _, _, .cons first further, h, hothers =>
      congrArg₂ List.cons (first.eq_of_ascends h.1 hothers.1)
        (further.eq_of_ascends h.2 hothers.2)

theorem SameMembers.eq_of_ascends :
    ∀ {members others : Members}, SameMembers members others → AscendsMembers members →
      AscendsMembers others → members = others
  | _, _, .nil, _, _ => rfl
  | _, _, .cons first further, h, hothers => by
      rw [first.eq_of_ascends h.1 hothers.1, further.eq_of_ascends h.2 hothers.2]

end

-- ── Content in order ────────────────────────────────────────────────────────

/-- **Put in order**: a document has the content of another one, and its members are in order. -/
structure Ordered (document ordered : Document) : Prop where
  content : SameContent document ordered
  ascends : ordered.Ascends

namespace Ordered

variable {document ordered : Document}

/-- Putting in order changes nothing exactly if everything is in order. -/
theorem eq_iff (h : document.Ordered ordered) : ordered = document ↔ document.Ascends := by
  constructor
  · rintro rfl
    exact h.ascends
  · intro hascends
    exact (h.content.eq_of_ascends hascends h.ascends).symm

/-- The same of the compact text, which reads back. -/
theorem compact_eq_iff (h : document.Ordered ordered) (hexact : document.Exact)
    (hnest : document.nesting ≤ nestingLimit) :
    ordered.compact = document.compact ↔ document.Ascends := by
  rw [← h.eq_iff]
  constructor
  · intro heq
    have hordered := read_text .compact (h.content.exact hexact) (h.content.nesting_eq ▸ hnest)
    have hdocument := read_text .compact hexact hnest
    rw [show ordered.text .compact = document.text .compact from heq, hdocument] at hordered
    exact (Except.ok.inj hordered).symm
  · exact congrArg compact

end Ordered

end Stencil.Document
