import Stencil.Proofs.Resource.Soundness

/-!
# Rearrangement — the order of a list and the content of its map

The order of a list decides two things only: which of several definitions of a name comes last,
and in which order the names stand. Lists are rearranged if entries of different names pass each
other, at the top or in child lists at any depth (`Rearranged`). Both of two such lists can be
unified or neither can (`sound_rearranged`), and then they give the same map (`SameMap`): the same
names, and under each name the same fields in the same order, where a child list gives the same
map again.

The route: what decides about success, and what stands under a name, can be said of a list without
its order. Soundness is a matter of each entry and of the names (`sound_iff`), and the last entry
of a name is the last of those that have it (`LastNamed.getLast?_entriesNamed`). Either is carried
over by the three parts of a rearrangement, from the lists below by induction.
-/

namespace Stencil

/-- The entries of a list that have a certain name, in order. -/
def entriesNamed (name : String) (resources : List Document) : List Document :=
  resources.filter fun entry => entryName? entry == some name

mutual

/-- **Rearranged lists**: the child lists of the entries are rearranged first, and then the
    entries are put in another order in which those that share a name keep theirs. -/
inductive Rearranged (rules : Rules) : List Document → List Document → Prop where
  | intro {resources changed rearranged : List Document}
      (entries : List.Forall₂ (RearrangedEntry rules) resources changed)
      (order : changed.Perm rearranged)
      (named : ∀ name, entriesNamed name changed = entriesNamed name rearranged) :
      Rearranged rules resources rearranged

/-- Entries that differ in the order of their child lists at most. -/
inductive RearrangedEntry (rules : Rules) : Document → Document → Prop where
  | same (entry : Document) : RearrangedEntry rules entry entry
  | inside {fields fields' : Members}
      (members : List.Forall₂ (RearrangedField rules) fields fields') :
      RearrangedEntry rules (.object fields) (.object fields')

/-- Fields of which only one for children can differ, by a rearranged list. -/
inductive RearrangedField (rules : Rules) : String × Document → String × Document → Prop where
  | same (member : String × Document) : RearrangedField rules member member
  | children {field : String} {items items' : List Document}
      (listed : rules.isChildList field = true) (inner : Rearranged rules items items') :
      RearrangedField rules (field, .array items) (field, .array items')

end

mutual

/-- **The same map**: the same names in any order, and under each name the same resource. -/
inductive SameMap (rules : Rules) : Members → Members → Prop where
  | intro {unified unified' : Members} (names : unified.names.Perm unified'.names)
      (entries : ∀ name value value', unified.get? name = some value →
        unified'.get? name = some value' → SameResource rules value value') :
      SameMap rules unified unified'

/-- The same resource: the same fields in the same order. -/
inductive SameResource (rules : Rules) : Document → Document → Prop where
  | intro {fields fields' : Members}
      (members : List.Forall₂ (SameField rules) fields fields') :
      SameResource rules (.object fields) (.object fields')

/-- The same field, or the same map in a field for children. -/
inductive SameField (rules : Rules) : String × Document → String × Document → Prop where
  | same (member : String × Document) : SameField rules member member
  | children {field : String} {nested nested' : Members}
      (listed : rules.isChildList field = true) (below : SameMap rules nested nested') :
      SameField rules (field, .object nested) (field, .object nested')

end

/-- An entry gives no offence: it is an object with a name, and its fields give none. -/
def SoundEntry (rules : Rules) (entry : Document) : Prop :=
  ∃ (fields : Members) (name : String), entry = .object fields ∧
    fields.get? nameField = some (.string name) ∧ SoundFields rules fields

variable {rules : Rules} {mappings : Mappings}

-- ── Soundness without order ─────────────────────────────────────────────────

/-- A list has the shape it needs if each of its entries has it. -/
theorem wellFormedList_iff {resources : List Document} :
    WellFormedList rules resources
      ↔ ∀ entry ∈ resources, ∃ (fields : Members) (name : String), entry = .object fields ∧
          fields.get? nameField = some (.string name) ∧
          ∀ field value, (field, value) ∈ fields → rules.isChildList field = true →
            ∃ items, value = .array items ∧ WellFormedList rules items := by
  induction resources with
  | nil =>
      constructor
      · intro _ entry hmem
        exact nomatch hmem
      · intro _
        exact .nil
  | cons entry following ih =>
      rw [List.forall_mem_cons, ← ih]
      constructor
      · intro h
        cases h with
        | cons named listed children further =>
            refine ⟨⟨_, _, rfl, named, ?_⟩, further⟩
            intro field value hmem hchild
            obtain ⟨items, rfl⟩ := Document.kind_eq_array_iff.mp (listed field value hmem hchild)
            exact ⟨items, rfl, children field items hmem hchild⟩
      · rintro ⟨⟨fields, name, rfl, named, hfields⟩, further⟩
        refine .cons named ?_ ?_ further
        · intro field value hmem hchild
          obtain ⟨items, rfl, -⟩ := hfields field value hmem hchild
          rfl
        · intro field items hmem hchild
          obtain ⟨_, heq, hitems⟩ := hfields field (.array items) hmem hchild
          obtain rfl := Document.array.inj heq
          exact hitems

/-- **Soundness without order**: each entry is sound for itself and, where duplicates are
    rejected, the names do not repeat. -/
theorem sound_iff {resources : List Document} :
    Sound rules resources
      ↔ (∀ entry ∈ resources, SoundEntry rules entry) ∧
        (rules.duplicates = .reject → (resourceNames resources).Nodup) := by
  constructor
  · rintro ⟨hshape, hdistinct⟩
    refine ⟨fun entry hmem => ?_, fun hreject => ?_⟩
    · obtain ⟨fields, name, rfl, hname, hfields⟩ := wellFormedList_iff.mp hshape entry hmem
      refine ⟨fields, name, rfl, hname, fun field value hvalue hchild => ?_⟩
      obtain ⟨items, rfl, hitems⟩ := hfields field value hvalue hchild
      refine ⟨items, rfl, hitems, fun hreject => ?_⟩
      obtain ⟨-, hchildren⟩ := hdistinct hreject
      exact hchildren fields field items hmem hvalue hchild
    · obtain ⟨hnames, -⟩ := hdistinct hreject
      exact hnames
  · rintro ⟨hentries, hnames⟩
    refine ⟨wellFormedList_iff.mpr fun entry hmem => ?_, fun hreject => ⟨hnames hreject, ?_⟩⟩
    · obtain ⟨fields, name, rfl, hname, hfields⟩ := hentries entry hmem
      refine ⟨fields, name, rfl, hname, fun field value hvalue hchild => ?_⟩
      obtain ⟨items, rfl, hsound⟩ := hfields field value hvalue hchild
      exact ⟨items, rfl, hsound.shape⟩
    · intro fields field items hmem hvalue hchild
      obtain ⟨_, name, heq, -, hfields⟩ := hentries (.object fields) hmem
      obtain rfl := Document.object.inj heq
      obtain ⟨_, heq, hsound⟩ := hfields field (.array items) hvalue hchild
      obtain rfl := Document.array.inj heq
      exact hsound.distinct hreject

-- ── What a rearrangement keeps ──────────────────────────────────────────────

/-- A rearranged child list is never a name. -/
theorem resourceName?_of_rearranged {fields fields' : Members}
    (h : List.Forall₂ (RearrangedField rules) fields fields') :
    resourceName? fields = resourceName? fields' := by
  unfold resourceName?
  induction h with
  | nil => rfl
  | @cons member member' fields fields' hmember _ ih =>
      cases hmember with
      | same =>
          obtain ⟨field, value⟩ := member
          rw [Members.get?_cons, Members.get?_cons]
          by_cases hname : nameField = field
          · rw [if_pos hname, if_pos hname]
          · rw [if_neg hname, if_neg hname]
            exact ih
      | @children field items items' listed inner =>
          rw [Members.get?_cons, Members.get?_cons]
          by_cases hname : nameField = field
          · rw [if_pos hname, if_pos hname]
          · rw [if_neg hname, if_neg hname]
            exact ih

/-- A rearranged entry keeps its name. -/
theorem entryName?_of_rearranged {entry entry' : Document}
    (h : RearrangedEntry rules entry entry') : entryName? entry = entryName? entry' := by
  cases h with
  | same => rfl
  | inside members => exact resourceName?_of_rearranged members

/-- Entries with rearranged child lists have the same names. -/
theorem resourceNames_of_rearranged {resources changed : List Document}
    (h : List.Forall₂ (RearrangedEntry rules) resources changed) :
    resourceNames resources = resourceNames changed := by
  induction h with
  | nil => rfl
  | cons hentry _ ih =>
      unfold resourceNames at ih ⊢
      rw [List.filterMap_cons, List.filterMap_cons, entryName?_of_rearranged hentry, ih]

/-- **Names of a rearranged list**: the same ones, each as often, in some order. -/
theorem Rearranged.names {resources rearranged : List Document}
    (h : Rearranged rules resources rearranged) :
    (resourceNames resources).Perm (resourceNames rearranged) := by
  cases h with
  | intro entries order _ =>
      rw [resourceNames_of_rearranged entries]
      exact order.filterMap entryName?

/-- The entries of one name are the same in a rearranged list, up to their child lists. -/
theorem entriesNamed_of_rearranged {resources rearranged : List Document}
    (h : Rearranged rules resources rearranged) (name : String) :
    List.Forall₂ (RearrangedEntry rules) (entriesNamed name resources)
      (entriesNamed name rearranged) := by
  cases h with
  | intro entries _ named =>
      rw [← named name]
      refine List.rel_filter ?_ entries
      intro entry entry' hentry
      show (entryName? entry == some name) = true ↔ (entryName? entry' == some name) = true
      rw [entryName?_of_rearranged hentry]

/-- Fields are sound if the first one is, with all its children, and the others are. -/
theorem soundFields_cons_iff {field : String} {value : Document} {fields : Members} :
    SoundFields rules ((field, value) :: fields)
      ↔ (rules.isChildList field = true → ∃ items, value = .array items ∧ Sound rules items) ∧
        SoundFields rules fields := by
  constructor
  · intro h
    exact ⟨h field value (List.mem_cons_self ..),
      fun other content hmem => h other content (List.mem_cons_of_mem _ hmem)⟩
  · rintro ⟨hfirst, hrest⟩ other content hmem
    rcases List.mem_cons.mp hmem with heq | hmem
    · obtain ⟨rfl, rfl⟩ := Prod.mk.inj heq
      exact hfirst
    · exact hrest other content hmem

/-- Rearranging the children keeps fields sound. -/
theorem soundFields_of_rearranged {fields fields' : Members}
    (h : List.Forall₂ (RearrangedField rules) fields fields')
    (ih : ∀ field items items', (field, .array items) ∈ fields →
      Rearranged rules items items' → (Sound rules items ↔ Sound rules items')) :
    SoundFields rules fields ↔ SoundFields rules fields' := by
  induction h with
  | nil => exact Iff.rfl
  | @cons member member' fields fields' hmember _ ihfields =>
      have hrest : SoundFields rules fields ↔ SoundFields rules fields' :=
        ihfields fun field items items' hmem =>
          ih field items items' (List.mem_cons_of_mem _ hmem)
      cases hmember with
      | same =>
          obtain ⟨field, value⟩ := member
          rw [soundFields_cons_iff, soundFields_cons_iff, hrest]
      | @children field items items' listed inner =>
          have hinner := ih field items items' (List.mem_cons_self ..) inner
          rw [soundFields_cons_iff, soundFields_cons_iff, hrest]
          refine and_congr_left' ?_
          simp only [listed, forall_const, Document.array.injEq, exists_eq_left', hinner]

theorem soundEntries_of_rearranged {resources changed : List Document}
    (h : List.Forall₂ (RearrangedEntry rules) resources changed)
    (ih : ∀ fields field items, .object fields ∈ resources → (field, .array items) ∈ fields →
      ∀ items', Rearranged rules items items' → (Sound rules items ↔ Sound rules items')) :
    (∀ entry ∈ resources, SoundEntry rules entry)
      ↔ ∀ entry ∈ changed, SoundEntry rules entry := by
  induction h with
  | nil => exact Iff.rfl
  | @cons entry entry' resources changed hentry _ ihentries =>
      have hrest := ihentries fun fields field items hmem =>
        ih fields field items (List.mem_cons_of_mem _ hmem)
      rw [List.forall_mem_cons, List.forall_mem_cons, hrest]
      refine and_congr_left' ?_
      cases hentry with
      | same => exact Iff.rfl
      | @inside fields fields' members =>
          have hfields := soundFields_of_rearranged members fun field items items' hmem =>
            ih fields field items (List.mem_cons_self ..) hmem items'
          have hname := resourceName?_of_rearranged members
          simp only [SoundEntry, ← resourceName?_eq_some_iff, Document.object.injEq,
            exists_and_left, exists_eq_left', hname, hfields]

/-- **Both or neither**: a rearranged list is sound exactly if the list is. -/
theorem sound_rearranged {resources : List Document} :
    ∀ rearranged, Rearranged rules resources rearranged →
      (Sound rules resources ↔ Sound rules rearranged) := by
  induction resources using children_induction with
  | list resources ih =>
      intro rearranged h
      have hnames := h.names.nodup_iff
      cases h with
      | intro entries order _ =>
          rw [sound_iff, sound_iff, hnames, soundEntries_of_rearranged entries ih]
          refine and_congr_left' ?_
          constructor
          · intro hsound entry hmem
            exact hsound entry (order.mem_iff.mpr hmem)
          · intro hsound entry hmem
            exact hsound entry (order.mem_iff.mp hmem)

/-- Neighbours of different names do not meet among the entries of one name. -/
theorem entriesNamed_swap {first second : Document} (h : entryName? first ≠ entryName? second)
    (following : List Document) (name : String) :
    entriesNamed name (first :: second :: following)
      = entriesNamed name (second :: first :: following) := by
  unfold entriesNamed
  by_cases hfirst : entryName? first = some name
  · have hsecond : (entryName? second == some name) = false := by
      rw [beq_eq_false_iff_ne, ← hfirst]
      exact h.symm
    rw [List.filter_cons, List.filter_cons, List.filter_cons, List.filter_cons, hsecond,
      if_neg Bool.false_ne_true, if_neg Bool.false_ne_true]
  · have hother : (entryName? first == some name) = false := beq_eq_false_iff_ne.mpr hfirst
    rw [List.filter_cons, List.filter_cons, List.filter_cons, List.filter_cons, hother,
      if_neg Bool.false_ne_true, if_neg Bool.false_ne_true]

/-- Neighbours of different names may change places. -/
theorem rearranged_swap {first second : Document} (h : entryName? first ≠ entryName? second)
    (following : List Document) :
    Rearranged rules (first :: second :: following) (second :: first :: following) :=
  .intro (List.forall₂_same.mpr fun entry _ => .same entry) (.swap second first following)
    (entriesNamed_swap h following)

-- ── What stands under a name ────────────────────────────────────────────────

/-- The last entry of a name is the last of those that have it. -/
theorem LastNamed.getLast?_entriesNamed {resources : List Document} {name : String}
    {fields : Members} (h : LastNamed resources name fields) :
    (entriesNamed name resources).getLast? = some (.object fields) := by
  obtain ⟨before, after, rfl, hname, hlast⟩ := h
  have hentry : (entryName? (.object fields) == some name) = true := by
    rw [show entryName? (.object fields) = some name from resourceName?_eq_some_iff.mpr hname]
    exact beq_self_eq_true _
  have hnone : entriesNamed name after = [] := by
    refine List.filter_eq_nil_iff.mpr fun entry hmem hbears => hlast ?_
    exact List.mem_filterMap.mpr ⟨entry, hmem, eq_of_beq hbears⟩
  have hsplit : entriesNamed name (before ++ .object fields :: after)
      = entriesNamed name before ++ .object fields :: entriesNamed name after := by
    unfold entriesNamed
    rw [List.filter_append, List.filter_cons, if_pos hentry]
  rw [hsplit, hnone, List.getLast?_concat]

/-- Lists that are related element by element have related last elements. -/
theorem rel_of_getLast?_eq_some {α : Type} {R : α → α → Prop} {xs ys : List α} {x y : α}
    (h : List.Forall₂ R xs ys) (hx : xs.getLast? = some x) (hy : ys.getLast? = some y) :
    R x y := by
  have hreverse : List.Forall₂ R xs.reverse ys.reverse := List.forall₂_reverse_iff.mpr h
  rw [← List.head?_reverse] at hx hy
  cases hxs : xs.reverse with
  | nil =>
      rw [hxs] at hx
      exact nomatch hx
  | cons first xs =>
      cases hys : ys.reverse with
      | nil =>
          rw [hys] at hy
          exact nomatch hy
      | cons first' ys =>
          rw [hxs, hys] at hreverse
          rw [hxs] at hx
          rw [hys] at hy
          obtain rfl := Option.some.inj hx
          obtain rfl := Option.some.inj hy
          exact (List.forall₂_cons.mp hreverse).1

/-- What a field becomes is determined. -/
theorem Normalizes.unique {field : String} {value normalized normalized' : Document}
    (h : Normalizes rules mappings field value normalized)
    (h' : Normalizes rules mappings field value normalized') : normalized = normalized' := by
  have hok : (normalizeValue rules mappings field field value).result = .ok normalized :=
    normalizeValue_ok_iff.mpr h
  have hok' : (normalizeValue rules mappings field field value).result = .ok normalized' :=
    normalizeValue_ok_iff.mpr h'
  exact Except.ok.inj (hok.symm.trans hok')

/-- **The fields of one entry** become the same fields, up to the maps in those for children. -/
theorem sameFields_of_rearranged {fields fields' normalized normalized' : Members}
    (h : List.Forall₂ (RearrangedField rules) fields fields')
    (hnormalized : NormalizesFields rules mappings fields normalized)
    (hnormalized' : NormalizesFields rules mappings fields' normalized')
    (ih : ∀ field items items' nested nested', (field, .array items) ∈ fields →
      Rearranged rules items items' → (unify rules mappings items).result = .ok nested →
      (unify rules mappings items').result = .ok nested' → SameMap rules nested nested') :
    List.Forall₂ (SameField rules) normalized normalized' := by
  induction h generalizing normalized normalized' with
  | nil =>
      cases hnormalized
      cases hnormalized'
      exact .nil
  | @cons member member' fields fields' hmember _ ihfields =>
      cases hnormalized with
      | @cons _ new _ others hhead htail =>
          cases hnormalized' with
          | @cons _ new' _ others' hhead' htail' =>
              have hrest : List.Forall₂ (SameField rules) others others' :=
                ihfields htail htail' fun field items items' nested nested' hmem =>
                  ih field items items' nested nested' (List.mem_cons_of_mem _ hmem)
              refine .cons ?_ hrest
              obtain ⟨name, value⟩ := new
              obtain ⟨name', value'⟩ := new'
              obtain ⟨rfl, hvalue⟩ := hhead
              obtain ⟨rfl, hvalue'⟩ := hhead'
              cases hmember with
              | same =>
                  obtain rfl := hvalue.unique hvalue'
                  exact .same _
              | @children field items items' listed inner =>
                  obtain ⟨_, nested, heq, rfl, hnested⟩ :=
                    (normalizes_of_childList listed).mp hvalue
                  obtain ⟨_, nested', heq', rfl, hnested'⟩ :=
                    (normalizes_of_childList listed).mp hvalue'
                  obtain rfl := Document.array.inj heq
                  obtain rfl := Document.array.inj heq'
                  exact .children listed
                    (ih field items items' nested nested' (List.mem_cons_self ..) inner hnested
                      hnested')

/-- **Two runs** on lists that are rearranged give the same map. -/
theorem sameMap_of_rearranged {resources : List Document} :
    ∀ {rearranged : List Document} {unified unified' : Members},
      Rearranged rules resources rearranged →
      (unify rules mappings resources).result = .ok unified →
      (unify rules mappings rearranged).result = .ok unified' →
      SameMap rules unified unified' := by
  induction resources using children_induction with
  | list resources ih =>
      intro rearranged unified unified' horder h h'
      refine .intro ?_ ?_
      · rw [names_unify h, names_unify h']
        exact perm_eraseDups horder.names
      · intro name value value' hvalue hvalue'
        rcases get?_unifyFrom (unify_ok_iff.mp h) hvalue with ⟨-, hnone⟩ | hlast
        · exact nomatch hnone
        rcases get?_unifyFrom (unify_ok_iff.mp h') hvalue' with ⟨-, hnone⟩ | hlast'
        · exact nomatch hnone
        obtain ⟨fields, normalized, hlast, hfields, rfl⟩ := hlast
        obtain ⟨fields', normalized', hlast', hfields', rfl⟩ := hlast'
        -- Either last entry is the last one of its name, and these are the same up to child lists.
        have hentry : RearrangedEntry rules (.object fields) (.object fields') :=
          rel_of_getLast?_eq_some (entriesNamed_of_rearranged horder name)
            hlast.getLast?_entriesNamed hlast'.getLast?_entriesNamed
        have hmembers : List.Forall₂ (RearrangedField rules) fields fields' := by
          cases hentry with
          | same => exact List.forall₂_same.mpr fun member _ => .same member
          | inside members => exact members
        obtain ⟨before, after, rfl, -, -⟩ := hlast
        refine .intro (sameFields_of_rearranged hmembers hfields hfields' ?_)
        intro field items items' nested nested' hmem hinner
        exact ih fields field items (by simp) hmem hinner

/-- **ORDER IS NO CONTENT**: a list and a rearranged one can both be unified or neither can, under
    every policy for duplicates, and what they become is the same map at every depth. -/
theorem unify_rearranged (rules : Rules) (mappings : Mappings)
    {resources rearranged : List Document}
    (h : Rearranged rules resources rearranged) :
    ((∃ unified, (unify rules mappings resources).result = .ok unified)
        ↔ ∃ unified, (unify rules mappings rearranged).result = .ok unified) ∧
      ∀ unified unified', (unify rules mappings resources).result = .ok unified →
        (unify rules mappings rearranged).result = .ok unified' →
        SameMap rules unified unified' := by
  refine ⟨?_, fun _ _ => sameMap_of_rearranged h⟩
  rw [exists_unify_iff, exists_unify_iff]
  exact sound_rearranged rearranged h

/-- Scopes of which two have the same name, with another one between them. -/
def writeInside : List Document :=
  [.object [("name", .string "read"), ("owner", .null)], .object [("name", .string "write")],
    .object [("name", .string "read")]]

/-- The same scopes with the other one in front. -/
def writeInFront : List Document :=
  [.object [("name", .string "write")], .object [("name", .string "read"), ("owner", .null)],
    .object [("name", .string "read")]]

/-- A first definition of a service. -/
def draftService : Document :=
  .object [("name", .string "api"), ("settings", .string "@@tier@@")]

/-- The definition of this service that counts. -/
def finalService (scopes : List Document) : Document :=
  .object [("scopes", .array scopes), ("name", .string "api")]

/-- A service that stands between these definitions, or in front of them. -/
def databaseService : Document :=
  .object [("name", .string "db")]

/-- Services and their scopes change places, and two with one name keep their order. The results are
    the same maps at both depths. -/
theorem unify_rearranged_services :
    Rearranged scopedRules [draftService, databaseService, finalService writeInside]
        [databaseService, draftService, finalService writeInFront] ∧
      (unify scopedRules [] [draftService, databaseService, finalService writeInside]).result
        = .ok
          [("api", .object
              [("scopes", .object
                  [("read", .object [("name", .string "read")]),
                    ("write", .object [("name", .string "write")])]),
                ("name", .string "api")]),
            ("db", .object [("name", .string "db")])] ∧
      SameMap scopedRules
        [("api", .object
            [("scopes", .object
                [("read", .object [("name", .string "read")]),
                  ("write", .object [("name", .string "write")])]),
              ("name", .string "api")]),
          ("db", .object [("name", .string "db")])]
        [("db", .object [("name", .string "db")]),
          ("api", .object
            [("scopes", .object
                [("write", .object [("name", .string "write")]),
                  ("read", .object [("name", .string "read")])]),
              ("name", .string "api")])] := by
  have hscopes : Rearranged scopedRules writeInside writeInFront :=
    rearranged_swap (by decide) _
  have hfinal : RearrangedEntry scopedRules (finalService writeInside)
      (finalService writeInFront) :=
    .inside (.cons (.children (by decide) hscopes) (.cons (.same _) .nil))
  have hservices : Rearranged scopedRules
      [draftService, databaseService, finalService writeInside]
      [databaseService, draftService, finalService writeInFront] :=
    .intro (.cons (.same _) (.cons (.same _) (.cons hfinal .nil))) (.swap _ _ _)
      (entriesNamed_swap (by decide) _)
  have hok : (unify scopedRules [] [draftService, databaseService,
      finalService writeInside]).result = .ok
        [("api", .object
            [("scopes", .object
                [("read", .object [("name", .string "read")]),
                  ("write", .object [("name", .string "write")])]),
              ("name", .string "api")]),
          ("db", .object [("name", .string "db")])] := by
    decide +kernel
  obtain ⟨-, hsame⟩ := unify_rearranged scopedRules [] hservices
  exact ⟨hservices, hok, hsame _ _ hok (by decide +kernel)⟩

end Stencil
