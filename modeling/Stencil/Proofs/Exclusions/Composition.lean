import Stencil.Proofs.Document.Reading
import Stencil.Proofs.Exclusions

/-!
# Composition — leaving out some names and then others

What is left of what is left is what the names of both leave (`reduce_reduce`), so it does not
matter which names go first, and leaving the same names out again changes nothing. A reduction
depends on nothing but which names are excluded: names in a row may be left out one by one, in any
order and with repetitions (`reduceEach_eq`).

Where a reduction is no shortcut it is a walk that puts an object together anew, one member after
another. In a document that repeats no name every insertion is one at the end, and so the walk
leaves what the reduction does, also where nothing is excluded (`reduce_eq_walk`).
-/

namespace Stencil.Exclusions

-- ── Two reductions ──────────────────────────────────────────────────────────

/-- The names of two exclusions together. -/
def union (x y : Exclusions) : Exclusions :=
  .names (x.toList ++ y.toList)

/-- A union excludes what either of its parts does. -/
theorem excludes_union (x y : Exclusions) (name : String) :
    (x.union y).excludes name = (x.excludes name || y.excludes name) := by
  simp [excludes, union, toList]

/-- **Two reductions are one** by the names of both. -/
theorem reduce_reduce (x y : Exclusions) (document : Document) :
    x.reduce (y.reduce document) = (x.union y).reduce document := by
  rw [reduce_eq_strip, reduce_eq_strip, reduce_eq_strip]
  exact strip_strip (excludes_union x y) document

theorem mem_union_comm (x y : Exclusions) (name : String) :
    name ∈ (x.union y).toList ↔ name ∈ (y.union x).toList := by
  show name ∈ x.toList ++ y.toList ↔ name ∈ y.toList ++ x.toList
  rw [List.mem_append, List.mem_append, Or.comm]

-- ── Names one by one ────────────────────────────────────────────────────────

/-- Leaves out names one after another, each by a reduction of its own. -/
def reduceEach (names : List String) (document : Document) : Document :=
  names.foldl (fun rest name => (Exclusions.one name).reduce rest) document

/-- **Names one by one** leave what they leave together. -/
theorem reduceEach_eq (names : List String) (document : Document) :
    reduceEach names document = (Exclusions.names names).reduce document := by
  induction names generalizing document with
  | nil => rfl
  | cons name names ih =>
      have hsame : ∀ other, other ∈ ((Exclusions.names names).union (.one name)).toList
          ↔ other ∈ (Exclusions.names (name :: names)).toList := by
        intro other
        show other ∈ names ++ [name] ↔ other ∈ name :: names
        rw [List.mem_append, List.mem_singleton, List.mem_cons, Or.comm]
      show reduceEach names ((Exclusions.one name).reduce document) = _
      rw [ih, reduce_reduce, reduce_congr hsame]

-- ── The walk by insertions ──────────────────────────────────────────────────

mutual

/-- The walk through a document: the members of an object that are not excluded are walked and
    inserted into a new object, one after another. -/
def walk (x : Exclusions) : Document → Document
  | .object members => .object (walkMembers x [] members)
  | .array items => .array (walkItems x items)
  | .null => .null
  | .bool value => .bool value
  | .number value => .number value
  | .string value => .string value

/-- The walk through the items of a list. -/
def walkItems (x : Exclusions) : List Document → List Document
  | [] => []
  | item :: items => walk x item :: walkItems x items

/-- The walk through members, which are inserted behind others. -/
def walkMembers (x : Exclusions) (before : Members) : List (String × Document) → Members
  | [] => before
  | (name, value) :: members =>
    if x.excludes name then walkMembers x before members
    else walkMembers x (before.insert name (walk x value)) members

end

mutual

/-- **The walk leaves the same** if no name is repeated. -/
theorem walk_eq_strip (x : Exclusions) :
    ∀ document : Document, document.Distinct → walk x document = strip x document
  | .null, _ => rfl
  | .bool _, _ => rfl
  | .number _, _ => rfl
  | .string _, _ => rfl
  | .array items, h => by
      rw [walk, strip, walkItems_eq_stripItems x items h]
  | .object members, h => by
      rw [walk, strip, walkMembers_eq x members [] h.1 h.2, List.nil_append]

theorem walkItems_eq_stripItems (x : Exclusions) :
    ∀ items : List Document, Document.DistinctItems items → walkItems x items = stripItems x items
  | [], _ => rfl
  | item :: items, h => by
      rw [walkItems, stripItems, walk_eq_strip x item h.1, walkItems_eq_stripItems x items h.2]

/-- Members that are walked come behind those that were inserted before them. -/
theorem walkMembers_eq (x : Exclusions) :
    ∀ members before : Members, (Members.names (before ++ members)).Nodup →
      Document.DistinctMembers members →
      walkMembers x before members = before ++ stripMembers x members
  | [], before, _, _ => (List.append_nil before).symm
  | (name, value) :: members, before, hnames, h => by
      by_cases hname : x.excludes name = true
      · have hfewer : (Members.names (before ++ members)).Nodup := by
          refine hnames.sublist (List.Sublist.map _ ?_)
          exact (List.sublist_cons_self _ members).append_left before
        rw [walkMembers, if_pos hname, stripMembers_cons_of_excluded hname,
          walkMembers_eq x members before hfewer h.2]
      · have hnew := Members.insert_of_not_mem (strip x value)
          (Members.not_mem_names_of_nodup hnames)
        have hbehind : (Members.names ((before ++ [(name, strip x value)]) ++ members)).Nodup := by
          simpa [Members.names] using hnames
        rw [walkMembers, if_neg hname, walk_eq_strip x value h.1, hnew,
          walkMembers_eq x members _ hbehind h.2,
          stripMembers_cons_of_kept (Bool.eq_false_iff.mpr hname), List.append_assoc]
        rfl

end

/-- **The shortcut agrees with the walk** in every document that repeats no name. -/
theorem reduce_eq_walk (x : Exclusions) {document : Document} (h : document.Distinct) :
    x.reduce document = x.walk document := by
  rw [reduce_eq_strip, walk_eq_strip x document h]

-- ── Reductions compose ──────────────────────────────────────────────────────

/-- **REDUCTIONS COMPOSE**: reducing by some names and then by others is reducing by all of them,
    in either order, and so reducing again changes nothing. The same names in any order and number
    leave the same, together or one by one; and a reduction, which gives a document back as it is
    where nothing is excluded, always leaves what the walk does. -/
theorem reduce_composes (x y : Exclusions) (document : Document) :
    x.reduce (y.reduce document) = (x.union y).reduce document ∧
      x.reduce (y.reduce document) = y.reduce (x.reduce document) ∧
      x.reduce (x.reduce document) = x.reduce document ∧
      (∀ names : List String, (∀ name, name ∈ names ↔ name ∈ x.toList) →
        (Exclusions.names names).reduce document = x.reduce document ∧
          reduceEach names document = x.reduce document) ∧
      (document.Distinct → x.reduce document = x.walk document) := by
  refine ⟨reduce_reduce x y document, ?_, ?_, ?_, reduce_eq_walk x⟩
  · rw [reduce_reduce, reduce_reduce, reduce_congr (mem_union_comm x y)]
  · rw [reduce_eq_strip, reduce_eq_strip, strip_idem]
  · intro names hnames
    have hsame : (Exclusions.names names).reduce document = x.reduce document :=
      reduce_congr (x := Exclusions.names names) hnames document
    exact ⟨hsame, (reduceEach_eq names document).trans hsame⟩

/-- A list of objects, one inside another, with names in different orders. -/
def layeredList : Document :=
  .array [.object [("b", .object [("a", .null), ("c", .array [.object [("b", .null)]])]),
    ("a", .string "b"), ("c", .string "a")]]

/-- Two names, one of them below the other, excluded at once, one after another, and with a
    repetition. -/
theorem reduce_composes_layeredList :
    layeredList.Distinct ∧
      (∀ name, name ∈ ["b", "a", "b"] ↔ name ∈ (Exclusions.names ["a", "b"]).toList) ∧
      reduceEach ["b", "a", "b"] layeredList = .array [.object [("c", .string "a")]] ∧
      (Exclusions.one "b").reduce ((Exclusions.one "a").reduce layeredList)
        = .array [.object [("c", .string "a")]] ∧
      layeredList = Exclusions.nothing.walk layeredList := by
  have hdistinct : layeredList.Distinct := by
    simp [layeredList, Document.Distinct, Document.DistinctItems, Document.DistinctMembers,
      Members.names]
  have hsame : ∀ name, name ∈ ["b", "a", "b"] ↔ name ∈ (Exclusions.names ["a", "b"]).toList := by
    intro name
    show name ∈ ["b", "a", "b"] ↔ name ∈ ["a", "b"]
    simp only [List.mem_cons, List.not_mem_nil, or_false]
    constructor
    · rintro (hb | ha | hb)
      · exact .inr hb
      · exact .inl ha
      · exact .inr hb
    · rintro (ha | hb)
      · exact .inr (.inl ha)
      · exact .inl hb
  obtain ⟨-, -, -, hnames, -⟩ := reduce_composes (.names ["a", "b"]) .nothing layeredList
  obtain ⟨htwo, -⟩ := reduce_composes (.one "b") (.one "a") layeredList
  obtain ⟨-, -, -, -, hwalk⟩ := reduce_composes .nothing .nothing layeredList
  refine ⟨hdistinct, hsame, ?_, ?_, hwalk hdistinct⟩
  · rw [(hnames _ hsame).2]
    decide +kernel
  · rw [htwo]
    decide +kernel

end Stencil.Exclusions
