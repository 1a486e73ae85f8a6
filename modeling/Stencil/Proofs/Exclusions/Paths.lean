import Stencil.Proofs.Document.Reading
import Stencil.Proofs.Exclusions

/-!
# Paths — which places of a document are left

A path leads into a document step by step, to the member under a name or to the item at a place
of a list. One step into what is left of a document is blocked if it asks for an excluded name,
and otherwise leads to what is left of the place it led to before (`child?_strip`). By induction
on the path, a path is blocked if one of its steps is, and leads otherwise to what is left of the
place at its end (`at?_strip`). So exactly the places under excluded names are gone, and each of
the others shows what is left of it: a scalar, the items of a list in their places, the members of
an object that are not excluded in their order (`Leaves`).
-/

namespace Stencil

-- ── Paths into a document ───────────────────────────────────────────────────

namespace Document

/-- A step into a document: to the member under a name, or to the item at a place. -/
inductive Step where
  | member (name : String)
  | item (index : Nat)
deriving Repr, DecidableEq

/-- Steps one after another, from the outside in. -/
abbrev Path := List Step

/-- The document that a step leads to. -/
def child? : Document → Step → Option Document
  | .object members, .member name => Members.get? members name
  | .array items, .item index => items[index]?
  | _, _ => none

/-- The document at the end of a path. -/
def at? : Document → Path → Option Document
  | document, [] => some document
  | document, step :: path => (document.child? step).bind fun child => child.at? path

theorem at?_cons (document : Document) (step : Step) (path : Path) :
    document.at? (step :: path) = (document.child? step).bind fun child => child.at? path := rfl

end Document

namespace Exclusions

/-- A step asks for an excluded name. -/
def blocks (x : Exclusions) : Document.Step → Bool
  | .member name => x.excludes name
  | .item _ => false

/-- No step of a path is blocked if no name on it is excluded. -/
theorem any_blocks_eq_false_iff {x : Exclusions} {path : Document.Path} :
    path.any x.blocks = false ↔ ∀ name, .member name ∈ path → name ∉ x.toList := by
  rw [List.any_eq_false]
  constructor
  · intro hpath name hmem hname
    exact hpath (.member name) hmem (excludes_iff.mpr hname)
  · intro hnames step hmem hblocked
    cases step with
    | member name => exact hnames name hmem (excludes_iff.mp hblocked)
    | item index => exact nomatch hblocked

-- ── One step ────────────────────────────────────────────────────────────────

/-- Every item is stripped by itself. -/
theorem stripItems_eq_map (x : Exclusions) (items : List Document) :
    stripItems x items = items.map (strip x) := by
  induction items with
  | nil => rfl
  | cons item items ih => rw [stripItems, ih, List.map_cons]

/-- What is left under a name: nothing if it is excluded, else what is left of what was there. -/
theorem get?_stripMembers (x : Exclusions) (members : Members) (name : String) :
    Members.get? (stripMembers x members) name
      = if x.excludes name then none else (members.get? name).map (strip x) := by
  induction members with
  | nil => exact (ite_self none).symm
  | cons member members ih =>
      obtain ⟨key, value⟩ := member
      rw [Members.get?_cons]
      by_cases hkey : x.excludes key = true
      · rw [stripMembers_cons_of_excluded hkey, ih]
        by_cases hname : x.excludes name = true
        · rw [if_pos hname, if_pos hname]
        · have hne : name ≠ key := fun heq => hname (heq ▸ hkey)
          rw [if_neg hname, if_neg hname, if_neg hne]
      · rw [stripMembers_cons_of_kept (Bool.eq_false_iff.mpr hkey), Members.get?_cons, ih]
        by_cases hne : name = key
        · subst hne
          rw [if_pos rfl, if_pos rfl, if_neg hkey]
          rfl
        · rw [if_neg hne, if_neg hne]

/-- **One step** into what is left of a document. -/
theorem child?_strip (x : Exclusions) (document : Document) (step : Document.Step) :
    (strip x document).child? step
      = if x.blocks step then none else (document.child? step).map (strip x) := by
  cases document with
  | object members =>
      cases step with
      | member name => exact get?_stripMembers x members name
      | item index => rfl
  | array items =>
      cases step with
      | member name => simp [strip, Document.child?]
      | item index =>
          show (stripItems x items)[index]? = (items[index]?).map (strip x)
          rw [stripItems_eq_map, List.getElem?_map]
  | _ => simp [strip, Document.child?]

-- ── A whole path ────────────────────────────────────────────────────────────

/-- **A path** into what is left of a document. -/
theorem at?_strip (x : Exclusions) (document : Document) (path : Document.Path) :
    (strip x document).at? path
      = if path.any x.blocks then none else (document.at? path).map (strip x) := by
  induction path generalizing document with
  | nil => rfl
  | cons step path ih =>
      rw [Document.at?_cons, Document.at?_cons, child?_strip, List.any_cons]
      by_cases hstep : x.blocks step = true
      · rw [if_pos hstep, hstep, Bool.true_or, if_pos rfl]
        rfl
      · rw [if_neg hstep, Bool.eq_false_iff.mpr hstep, Bool.false_or]
        cases hchild : document.child? step with
        | none => exact (ite_self none).symm
        | some child => exact ih child

/-- **What is left of a place**, seen from outside. -/
inductive Leaves (x : Exclusions) : Document → Document → Prop where
  | scalar {document : Document} (simple : document.IsScalar) : Leaves x document document
  | array {items kept : List Document} (length : kept.length = items.length)
      (places : ∀ index : Nat, kept[index]? = (items[index]?).map x.reduce) :
      Leaves x (.array items) (.array kept)
  | object {members kept : Members}
      (names : kept.names = members.names.filter fun name => name ∉ x.toList)
      (values : ∀ name, name ∉ x.toList → kept.get? name = (members.get? name).map x.reduce) :
      Leaves x (.object members) (.object kept)

/-- Leaving out names leaves of every document what it should. -/
theorem leaves_reduce (x : Exclusions) (document : Document) :
    x.Leaves document (x.reduce document) := by
  have hwalk : x.reduce = strip x := funext (reduce_eq_strip x)
  rw [reduce_eq_strip]
  cases document with
  | array items =>
      rw [strip, stripItems_eq_map]
      refine .array (List.length_map ..) fun index => ?_
      rw [List.getElem?_map, hwalk]
  | object members =>
      refine .object ?_ fun name hname => ?_
      · rw [names_stripMembers]
        refine List.filter_congr fun name _ => ?_
        by_cases hname : name ∈ x.toList
        · simp [hname, excludes]
        · simp [hname, excludes]
      · have hkept : ¬ x.excludes name = true := fun hx => hname (excludes_iff.mp hx)
        rw [get?_stripMembers, if_neg hkept, hwalk]
  | _ => exact .scalar trivial

/-- **EXACTLY THE EXCLUDED MEMBERS DISAPPEAR**: a path leads somewhere in what is left of a
    document if and only if it did so before and asks for no excluded name; and where it leads,
    scalars are unchanged, lists keep all their items in their places, and objects keep the
    members whose names are not excluded, in their order. -/
theorem reduce_paths (x : Exclusions) (document : Document) (path : Document.Path) :
    (((x.reduce document).at? path).isSome = true ↔
        (document.at? path).isSome = true ∧ ∀ name, .member name ∈ path → name ∉ x.toList) ∧
      ∀ before after, document.at? path = some before →
        (x.reduce document).at? path = some after → x.Leaves before after := by
  rw [reduce_eq_strip, at?_strip, ← any_blocks_eq_false_iff]
  by_cases hpath : path.any x.blocks = true
  · rw [if_pos hpath]
    refine ⟨⟨?_, ?_⟩, ?_⟩
    · intro h
      exact nomatch h
    · intro h
      exact absurd hpath (Bool.eq_false_iff.mp h.2)
    · intro before after _ h
      exact nomatch h
  · rw [if_neg hpath, Option.isSome_map]
    refine ⟨⟨fun h => ⟨h, Bool.eq_false_iff.mpr hpath⟩, fun h => h.1⟩, ?_⟩
    intro before after hbefore hafter
    rw [hbefore] at hafter
    obtain rfl := Option.some.inj hafter
    rw [← reduce_eq_strip]
    exact leaves_reduce x before

/-- A document in which an excluded name stands at several depths, as a text among the items of
    a list, and alone in an object. -/
def nestedSecrets : Document :=
  .object [("a", .object [("secret", .bool true), ("keep", .null)]),
    ("list", .array [.object [("secret", .bool true), ("x", .string "secret")],
      .string "secret", .array [.object [("secret", .object [("x", .null)])]], .null])]

/-- A name that is excluded at three depths. What stands beside it keeps its place, and nothing is
    found at the paths that run through it. -/
theorem reduce_paths_nestedSecrets :
    (reduce (.one "secret") nestedSecrets).at? [.member "list", .item 2]
        = some (.array [.object []]) ∧
      Leaves (.one "secret") (.array [.object [("secret", .object [("x", .null)])]])
        (.array [.object []]) ∧
      nestedSecrets.at? [.member "list", .item 0, .member "secret"] = some (.bool true) ∧
      (reduce (.one "secret") nestedSecrets).at? [.member "list", .item 0, .member "secret"]
        = none := by
  have hkept := reduce_paths (.one "secret") nestedSecrets [.member "list", .item 2]
  have hgone := reduce_paths (.one "secret") nestedSecrets
    [.member "list", .item 0, .member "secret"]
  refine ⟨by decide +kernel, hkept.2 _ _ (by decide +kernel) (by decide +kernel),
    by decide +kernel, ?_⟩
  rw [← Option.not_isSome_iff_eq_none, hgone.1]
  rintro ⟨-, hnames⟩
  exact hnames "secret" (by decide) (by decide)

end Exclusions

end Stencil
