/-!
# Documents — structured values with ordered members

A document is a scalar, a list of documents, or an object: named members in the order
in which they were first given. Putting a member under a name that is already there
replaces its value and leaves its place, so no name stands twice in an object built
this way.

Every traversal is a structural recursion over documents, lists of documents and
lists of members side by side.
-/

namespace Stencil

/-- The integers a document can hold exactly: those of a signed or an unsigned
    sixty-four bit word. -/
abbrev IntegerFits (value : Int) : Prop :=
  -0x8000000000000000 ≤ value ∧ value < 0x10000000000000000

/-- A number is an exact integer of bounded size or a double. -/
inductive Number where
  | integer (value : Int) (fits : IntegerFits value := by decide)
  | float (value : Float)
deriving DecidableEq

/-- The number of a whole magnitude with a sign: exact if it fits, and a double if it
    does not. Minus zero is a double. -/
def Number.ofMagnitude (negative : Bool) (magnitude : Nat) : Number :=
  let value : Int := if negative then -(magnitude : Int) else magnitude
  if h : IntegerFits value ∧ ¬ (negative = true ∧ magnitude = 0) then .integer value h.1
  else
    let x := Float.ofNat magnitude
    .float (if negative then -x else x)

/-- A structured value. -/
inductive Document where
  | null
  | bool (value : Bool)
  | number (value : Number)
  | string (value : String)
  | array (items : List Document)
  | object (members : List (String × Document))

instance : Inhabited Document := ⟨.null⟩

/-- The members of an object, each under its name, in order. -/
abbrev Members := List (String × Document)

namespace Members

/-- The value under a name. -/
def get? (members : Members) (name : String) : Option Document :=
  members.lookup name

/-- Some member has this name. -/
def has (members : Members) (name : String) : Bool :=
  members.any fun member => member.1 == name

/-- The names of the members, in order. -/
def names (members : Members) : List String :=
  members.map Prod.fst

/-- Puts a value under a name: in the place the name already has, else at the end. -/
def insert : Members → String → Document → Members
  | [], name, value => [(name, value)]
  | (key, old) :: rest, name, value =>
    if key = name then (key, value) :: rest else (key, old) :: insert rest name value

/-- Puts every member of `later` into `earlier`, in order. -/
def merge (earlier later : Members) : Members :=
  later.foldl (fun members member => members.insert member.1 member.2) earlier

/-- The value that was put in is found under its name. -/
theorem get?_insert_self (members : Members) (name : String) (value : Document) :
    (members.insert name value).get? name = some value := by
  induction members with
  | nil => simp [insert, get?]
  | cons member rest ih =>
    obtain ⟨key, old⟩ := member
    by_cases h : key = name
    · subst h; simp [insert, get?]
    · have h' : (name == key) = false := by simp [Ne.symm h]
      simp only [get?] at ih
      simp [insert, get?, h, h', ih, List.lookup_cons]

/-- Putting a value in changes no other name's value. -/
theorem get?_insert_of_ne {members : Members} {name other : String} {value : Document}
    (h : other ≠ name) : (members.insert name value).get? other = members.get? other := by
  induction members with
  | nil =>
    have h' : (other == name) = false := by simp [h]
    simp [insert, get?, List.lookup_cons, h']
  | cons member rest ih =>
    obtain ⟨key, old⟩ := member
    by_cases hk : key = name
    · subst hk
      have h' : (other == key) = false := by simp [h]
      simp [insert, get?, List.lookup_cons, h']
    · simp only [get?] at ih
      simp [insert, get?, hk, List.lookup_cons, ih]

end Members

namespace Document

/-- The six kinds of documents. -/
inductive Kind where
  | null
  | boolean
  | number
  | string
  | array
  | object
deriving Repr, DecidableEq

/-- The kind of a document. -/
def kind : Document → Kind
  | .null => .null
  | .bool _ => .boolean
  | .number _ => .number
  | .string _ => .string
  | .array _ => .array
  | .object _ => .object

-- ── Equality ────────────────────────────────────────────────────────────────

mutual

/-- Two documents are the same. -/
def same : Document → Document → Bool
  | .null, .null => true
  | .bool a, .bool b => a == b
  | .number a, .number b => decide (a = b)
  | .string a, .string b => a == b
  | .array a, .array b => sameItems a b
  | .object a, .object b => sameMembers a b
  | _, _ => false

/-- Two lists hold the same documents. -/
def sameItems : List Document → List Document → Bool
  | [], [] => true
  | a :: as, b :: bs => same a b && sameItems as bs
  | _, _ => false

/-- Two lists hold the same members. -/
def sameMembers : List (String × Document) → List (String × Document) → Bool
  | [], [] => true
  | (a, x) :: as, (b, y) :: bs => a == b && same x y && sameMembers as bs
  | _, _ => false

end

mutual

/-- The comparison of documents, field by field, is equality. -/
theorem same_iff : (a b : Document) → (same a b = true ↔ a = b)
  | .null, b => by cases b <;> simp [same]
  | .bool _, b => by cases b <;> simp [same]
  | .number _, b => by cases b <;> simp [same]
  | .string _, b => by cases b <;> simp [same]
  | .array items, b => by cases b <;> simp [same, sameItems_iff items]
  | .object members, b => by cases b <;> simp [same, sameMembers_iff members]

theorem sameItems_iff : (a b : List Document) → (sameItems a b = true ↔ a = b)
  | [], b => by cases b <;> simp [sameItems]
  | item :: items, b => by cases b <;> simp [sameItems, same_iff item, sameItems_iff items]

theorem sameMembers_iff : (a b : List (String × Document)) → (sameMembers a b = true ↔ a = b)
  | [], b => by cases b <;> simp [sameMembers]
  | (name, value) :: members, b => by
    cases b <;>
      simp [sameMembers, Prod.ext_iff, same_iff value, sameMembers_iff members, and_assoc]

end

instance : DecidableEq Document := fun a b => decidable_of_iff _ (same_iff a b)

end Document

end Stencil
