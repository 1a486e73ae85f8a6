import Stencil.Proofs.Resource.Soundness

/-!
# Warnings — no definition is dropped without a word

Where a later resource takes the place of an earlier one, the earlier definition is lost, and a
warning is all that tells of it. A list that is unified warns of every name that is defined again
in it, and of those in the lists of children at every depth, also where the entry around them is
overwritten itself (`warnings_unifyFrom`). So the warnings can be read off the list: they are its
`redefinitions`, and there are as many of them as definitions are lost, list by list
(`length_redefinitionsFrom`).
-/

namespace Stencil

/-- A warning is an event that is serious, but no error. -/
def Event.isWarning (event : Event) : Bool :=
  event.level = .warn

namespace Journaled

variable {ε ε' α β : Type}

/-- The warnings among the events of a computation, in order. -/
def warnings (x : Journaled ε α) : List Event :=
  x.events.filter Event.isWarning

/-- The warnings of the second step come behind those of the first. -/
theorem warnings_bind_of_ok {first : Journaled ε α} {second : α → Journaled ε β} {value : α}
    (h : first.result = .ok value) :
    (first >>= second).warnings = first.warnings ++ (second value).warnings := by
  show (first >>= second).events.filter _ = _
  rw [events_bind_of_ok h, List.filter_append]
  rfl

theorem warnings_mapFault (f : ε → ε') (x : Journaled ε α) :
    (x.mapFault f).warnings = x.warnings := rfl

theorem warnings_report (events : List Event) :
    (report events : Journaled ε Unit).warnings = events.filter Event.isWarning := rfl

end Journaled

mutual

/-- The names that the rest of a list defines again, in the order in which they are met: those in
    the children of an entry, then that of the entry. `earlier` are the names of the entries in
    front. -/
def redefinitionsFrom (rules : Rules) (earlier : List String) : List Document → List String
  | [] => []
  | entry :: following =>
      redefinitionsOfEntry rules entry ++ (entryName? entry).toList.filter (· ∈ earlier)
        ++ redefinitionsFrom rules (earlier ++ (entryName? entry).toList) following

/-- The names defined again among the children of an entry. -/
def redefinitionsOfEntry (rules : Rules) : Document → List String
  | .object fields => redefinitionsOfFields rules fields
  | _ => []

/-- The names defined again in the lists of children among some fields. -/
def redefinitionsOfFields (rules : Rules) : List (String × Document) → List String
  | [] => []
  | (field, value) :: fields =>
      redefinitionsOfField rules field value ++ redefinitionsOfFields rules fields

/-- The names defined again in a field, if it holds a list of children. -/
def redefinitionsOfField (rules : Rules) (field : String) : Document → List String
  | .array items => if rules.isChildList field then redefinitionsFrom rules [] items else []
  | _ => []

end

/-- **Redefinitions**: the names that are defined again in a list or in a list of children at any
    depth, once for each time, in the order in which they are met. -/
def redefinitions (rules : Rules) (resources : List Document) : List String :=
  redefinitionsFrom rules [] resources

mutual

/-- The lists of children in a list, at every depth. -/
def listsBelow (rules : Rules) : List Document → List (List Document)
  | [] => []
  | entry :: following => listsBelowEntry rules entry ++ listsBelow rules following

/-- The lists of children in an entry, at every depth. -/
def listsBelowEntry (rules : Rules) : Document → List (List Document)
  | .object fields => listsBelowFields rules fields
  | _ => []

/-- The lists of children in some fields, at every depth. -/
def listsBelowFields (rules : Rules) : List (String × Document) → List (List Document)
  | [] => []
  | (field, value) :: fields =>
      listsBelowField rules field value ++ listsBelowFields rules fields

/-- The list of children in a field, if it holds one, and those in there. -/
def listsBelowField (rules : Rules) (field : String) : Document → List (List Document)
  | .array items => if rules.isChildList field then items :: listsBelow rules items else []
  | _ => []

end

/-- How many definitions of a list are lost: all but one of each name. -/
def lostDefinitions (resources : List Document) : Nat :=
  resources.length - (resourceNames resources).eraseDups.length

/-- How many definitions are lost in some lists, all of them together. -/
def lostInLists : List (List Document) → Nat
  | [] => 0
  | resources :: further => lostDefinitions resources + lostInLists further

/-- A list of children that is unified warns of its redefinitions. -/
def WarnsOfRedefinitions (rules : Rules) (mappings : Mappings) (items : List Document) : Prop :=
  ∀ nested, (unifyFrom rules mappings 0 [] items).result = .ok nested →
    (unifyFrom rules mappings 0 [] items).warnings = (redefinitions rules items).map .redefined

variable {rules : Rules} {mappings : Mappings}

-- ── What one step warns of ──────────────────────────────────────────────────

/-- Keywords are no matter for warnings. -/
theorem fieldEvents_filter_isWarning (owner field : String) (value : Document) :
    (fieldEvents mappings owner field value).filter Event.isWarning = [] := by
  have hresolution : ∀ text,
      (Placeholder.resolutionEvents mappings text).filter Event.isWarning = [] := by
    intro text
    rw [Placeholder.resolutionEvents]
    split
    · rfl
    · simp only
      split <;> rfl
  cases value with
  | string text =>
      rw [fieldEvents, List.filter_append, hresolution, List.nil_append]
      split <;> rfl
  | _ => rfl

/-- A field that holds no children warns of nothing. -/
theorem warnings_normalizeValue_of_not_childList {field : String}
    (hchild : rules.isChildList field = false) (owner : String) (value : Document) :
    (normalizeValue rules mappings owner field value).warnings = [] := by
  have hreport : ∀ events : List Event,
      (Journaled.report events : Journaled Offence Unit).result = .ok () := fun _ => rfl
  cases value with
  | array items =>
      rw [normalizeValue, hchild, if_neg Bool.false_ne_true]
      split <;> rfl
  | _ =>
      rw [normalizeValue, hchild, if_neg Bool.false_ne_true]
      · split
        · rw [Journaled.warnings_bind_of_ok (hreport _), Journaled.warnings_report,
            fieldEvents_filter_isWarning]
          rfl
        · rfl
      · intro items heq
        exact nomatch heq

/-- A field that is no list of children redefines nothing. -/
theorem redefinitionsOfField_of_not_childList {field : String}
    (hchild : rules.isChildList field = false) (value : Document) :
    redefinitionsOfField rules field value = [] := by
  cases value with
  | array items => rw [redefinitionsOfField, hchild, if_neg Bool.false_ne_true]
  | _ => rfl

/-- **One field** warns of what is defined again in the children that it holds. -/
theorem warnings_normalizeValue {owner field : String} {value normalized : Document}
    (h : Normalizes rules mappings field value normalized)
    (ih : ∀ items, value = .array items → WarnsOfRedefinitions rules mappings items) :
    (normalizeValue rules mappings owner field value).warnings
      = (redefinitionsOfField rules field value).map .redefined := by
  cases h with
  | @children items nested hchild hnested =>
      have hok : ((unifyFrom rules mappings 0 [] items).mapFault (Offence.within owner)).result
          = .ok nested := Journaled.ok_mapFault_iff.mpr (unify_ok_iff.mp hnested)
      rw [normalizeValue, if_pos hchild, redefinitionsOfField, if_pos hchild,
        Journaled.warnings_bind_of_ok hok, Journaled.warnings_mapFault,
        ih items rfl nested (unify_ok_iff.mp hnested)]
      exact List.append_nil _
  | templated hchild _ =>
      rw [warnings_normalizeValue_of_not_childList hchild,
        redefinitionsOfField_of_not_childList hchild]
      rfl
  | copied hchild _ =>
      rw [warnings_normalizeValue_of_not_childList hchild,
        redefinitionsOfField_of_not_childList hchild]
      rfl

/-- The fields of a resource warn one after the other. -/
theorem warnings_normalizeFields {owner : String} {fields normalized : Members}
    (h : NormalizesFields rules mappings fields normalized)
    (ih : ∀ field items, (field, .array items) ∈ fields →
      WarnsOfRedefinitions rules mappings items) :
    (normalizeFields rules mappings owner fields).warnings
      = (redefinitionsOfFields rules fields).map .redefined := by
  induction h with
  | nil => rfl
  | @cons old new fields normalized hhead htail ihtail =>
      obtain ⟨field, value⟩ := old
      have hvalue : (normalizeValue rules mappings owner field value).result = .ok new.2 :=
        normalizeValue_ok_iff.mpr hhead.2
      have hfields : (normalizeFields rules mappings owner fields).result = .ok normalized :=
        normalizeFields_ok_iff.mpr htail
      have hfirst : (normalizeValue rules mappings owner field value).warnings
          = (redefinitionsOfField rules field value).map .redefined := by
        refine warnings_normalizeValue hhead.2 ?_
        rintro items rfl
        exact ih field items (List.mem_cons_self ..)
      have hothers := ihtail fun other items hmem => ih other items (List.mem_cons_of_mem _ hmem)
      rw [normalizeFields, Journaled.warnings_bind_of_ok hvalue,
        Journaled.warnings_bind_of_ok hfields, hfirst, hothers, redefinitionsOfFields,
        List.map_append]
      exact congrArg _ (List.append_nil _)

/-- **A name** is warned of if it is in use and may be used again. -/
theorem warnings_checkName {before : Members} {name : String}
    (h : rules.duplicates = .reject → name ∉ before.names) :
    (checkName rules before name).warnings
      = ([name].filter (· ∈ before.names)).map .redefined := by
  rw [checkName]
  by_cases hknown : name ∈ before.names
  · rw [if_pos (Members.has_iff_mem_names.mpr hknown)]
    cases hpolicy : rules.duplicates with
    | reject => exact absurd hknown (h hpolicy)
    | overwrite =>
        rw [List.filter_cons_of_pos (by simpa using hknown)]
        rfl
  · rw [if_neg fun hhas => hknown (Members.has_iff_mem_names.mp hhas),
      List.filter_cons_of_neg (by simpa using hknown)]
    rfl

-- ── The run ─────────────────────────────────────────────────────────────────

/-- **Warnings along a run**: those of the redefinitions among the entries to come. What is
    known of the entries in front is their names, with or without repetitions. -/
theorem warnings_unifyFrom {resources : List Document} :
    ∀ {index : Nat} {before unified : Members} {earlier : List String},
      (∀ name, name ∈ earlier ↔ name ∈ before.names) →
      (unifyFrom rules mappings index before resources).result = .ok unified →
      (unifyFrom rules mappings index before resources).warnings
        = (redefinitionsFrom rules earlier resources).map .redefined := by
  induction resources using resources_induction with
  | nil =>
      intro index before unified earlier _ _
      rfl
  | cons entry following ih ihchildren =>
      intro index before unified earlier hearlier h
      obtain ⟨fields, name, normalized, rfl, hname, hfields, hfree, hrest⟩ :=
        unifyFrom_cons_ok_iff.mp h
      have hresource : entryName? (.object fields) = some name :=
        resourceName?_eq_some_iff.mpr hname
      have hnested : ∀ field items, (field, .array items) ∈ fields →
          WarnsOfRedefinitions rules mappings items := by
        intro field items hmem nested hok
        exact ihchildren fields field items rfl hmem (fun _ => Iff.rfl) hok
      -- A name in use stays in its place, so what is known in front of the next entry agrees too.
      have hnext : ∀ other, other ∈ earlier ++ [name]
          ↔ other ∈ (before.insert name (.object normalized)).names := by
        intro other
        rw [Members.names_insert, List.mem_append, hearlier]
        by_cases hmem : name ∈ before.names
        · rw [if_pos hmem, List.mem_singleton, or_iff_left_iff_imp]
          rintro rfl
          exact hmem
        · rw [if_neg hmem, List.mem_append]
      have hok : (normalizeFields rules mappings name fields).result = .ok normalized :=
        normalizeFields_ok_iff.mpr hfields
      have hchecked : (checkName rules before name).result = .ok () := checkName_ok_iff.mpr hfree
      have hknown : ([name].filter (· ∈ earlier)) = [name].filter (· ∈ before.names) := by
        simp only [hearlier]
      rw [redefinitionsFrom, hresource, unifyFrom, resourceName?_eq_some_iff.mpr hname]
      dsimp only
      rw [Journaled.warnings_bind_of_ok hok, Journaled.warnings_bind_of_ok hchecked,
        warnings_normalizeFields hfields hnested, warnings_checkName hfree, ih hnext hrest]
      simp only [Option.toList_some, hknown, List.map_append, List.append_assoc]
      rfl

-- ── How many definitions are lost ───────────────────────────────────────────

theorem lostInLists_append (lists others : List (List Document)) :
    lostInLists (lists ++ others) = lostInLists lists + lostInLists others := by
  induction lists with
  | nil => exact (Nat.zero_add _).symm
  | cons resources further ih =>
      rw [List.cons_append, lostInLists, lostInLists, ih, Nat.add_assoc]

/-- What the lists of children lose, the fields around them lose. -/
theorem length_redefinitionsOfFields {fields : Members}
    (h : ∀ field items, (field, .array items) ∈ fields → rules.isChildList field = true →
      (redefinitions rules items).length = lostInLists (items :: listsBelow rules items)) :
    (redefinitionsOfFields rules fields).length = lostInLists (listsBelowFields rules fields) := by
  induction fields with
  | nil => rfl
  | cons member fields ih =>
      obtain ⟨field, value⟩ := member
      have hfield : (redefinitionsOfField rules field value).length
          = lostInLists (listsBelowField rules field value) := by
        cases value with
        | array items =>
            rw [redefinitionsOfField, listsBelowField]
            by_cases hchild : rules.isChildList field = true
            · rw [if_pos hchild, if_pos hchild]
              exact h field items (List.mem_cons_self ..) hchild
            · rw [if_neg hchild, if_neg hchild]
              rfl
        | _ => rfl
      have hfields := ih fun other items hmem => h other items (List.mem_cons_of_mem _ hmem)
      rw [redefinitionsOfFields, listsBelowFields, List.length_append, hfield, hfields,
        lostInLists_append]

/-- What is not among the distinct names of a list is lost: the count along the list, with no
    entries in front of it. -/
theorem length_redefinitions_of_count {resources : List Document}
    (h : (redefinitionsFrom rules [] resources).length
        + ([] ++ resourceNames resources).eraseDups.length
      = ([] : List String).eraseDups.length + resources.length
        + lostInLists (listsBelow rules resources)) :
    (redefinitions rules resources).length
      = lostInLists (resources :: listsBelow rules resources) := by
  rw [List.nil_append, List.eraseDups_nil, List.length_nil, Nat.zero_add] at h
  have hdistinct := length_eraseDups_le (resourceNames resources)
  have hnames : (resourceNames resources).length ≤ resources.length :=
    List.length_filterMap_le _ _
  show (redefinitionsFrom rules [] resources).length
    = lostDefinitions resources + lostInLists (listsBelow rules resources)
  rw [lostDefinitions]
  omega

/-- **Definitions along a list**: each entry brings a new name or a redefinition, besides what its
    children bring. -/
theorem length_redefinitionsFrom {resources : List Document}
    (h : WellFormedList rules resources) :
    ∀ earlier : List String,
      (redefinitionsFrom rules earlier resources).length
          + (earlier ++ resourceNames resources).eraseDups.length
        = earlier.eraseDups.length + resources.length
          + lostInLists (listsBelow rules resources) := by
  induction h with
  | nil =>
      intro earlier
      show 0 + (earlier ++ []).eraseDups.length = earlier.eraseDups.length + 0 + 0
      rw [List.append_nil]
      omega
  | @cons fields name following named _ _ _ ihchildren ihfurther =>
      intro earlier
      have hresource : entryName? (.object fields) = some name :=
        resourceName?_eq_some_iff.mpr named
      have hfields : (redefinitionsOfFields rules fields).length
          = lostInLists (listsBelowFields rules fields) :=
        length_redefinitionsOfFields fun field items hmem hchild =>
          length_redefinitions_of_count (ihchildren field items hmem hchild [])
      -- The entry itself: its name is one more redefinition, or one more distinct name.
      have hown : ([name].filter (· ∈ earlier)).length + (earlier ++ [name]).eraseDups.length
          = earlier.eraseDups.length + 1 := by
        rw [eraseDups_concat]
        by_cases hmem : name ∈ earlier
        · rw [if_pos hmem, List.filter_cons_of_pos (by simpa using hmem)]
          exact Nat.add_comm ..
        · rw [if_neg hmem, List.filter_cons_of_neg (by simpa using hmem), List.length_append]
          exact Nat.zero_add _
      have hrest := ihfurther (earlier ++ [name])
      rw [redefinitionsFrom, listsBelow, hresource, resourceNames_cons named, List.append_cons,
        lostInLists_append, List.length_append, List.length_append, List.length_cons]
      show (redefinitionsOfFields rules fields).length + ([name].filter (· ∈ earlier)).length
          + (redefinitionsFrom rules (earlier ++ [name]) following).length
          + (earlier ++ [name] ++ resourceNames following).eraseDups.length
        = earlier.eraseDups.length + (following.length + 1)
          + (lostInLists (listsBelowFields rules fields) + lostInLists (listsBelow rules following))
      omega

-- ── Lists that lose nothing ─────────────────────────────────────────────────

/-- Fields redefine nothing if none of their lists of children does. -/
theorem redefinitionsOfFields_eq_nil {fields : Members}
    (h : ∀ field items, (field, .array items) ∈ fields → rules.isChildList field = true →
      redefinitions rules items = []) : redefinitionsOfFields rules fields = [] := by
  induction fields with
  | nil => rfl
  | cons member fields ih =>
      obtain ⟨field, value⟩ := member
      have hfields := ih fun other items hmem => h other items (List.mem_cons_of_mem _ hmem)
      rw [redefinitionsOfFields, hfields, List.append_nil]
      by_cases hchild : rules.isChildList field = true
      · cases value with
        | array items =>
            rw [redefinitionsOfField, if_pos hchild]
            exact h field items (List.mem_cons_self ..) hchild
        | _ => rfl
      · exact redefinitionsOfField_of_not_childList (Bool.eq_false_iff.mpr hchild) value

/-- Where no name is repeated, none is defined again. -/
theorem redefinitionsFrom_eq_nil {resources : List Document}
    (hshape : WellFormedList rules resources) :
    ∀ earlier : List String, DistinctNames rules resources →
      (∀ name ∈ resourceNames resources, name ∉ earlier) →
      redefinitionsFrom rules earlier resources = [] := by
  induction hshape with
  | nil =>
      intro earlier _ _
      rfl
  | @cons fields name following named _ _ _ ihchildren ihfurther =>
      intro earlier hdistinct hnew
      obtain ⟨hown, hdistinct, hlists⟩ := (distinctNames_cons_iff named).mp hdistinct
      rw [resourceNames_cons named, List.forall_mem_cons] at hnew
      have hresource : entryName? (.object fields) = some name :=
        resourceName?_eq_some_iff.mpr named
      have hfields : redefinitionsOfFields rules fields = [] := by
        refine redefinitionsOfFields_eq_nil fun field items hmem hchild => ?_
        exact ihchildren field items hmem hchild [] (hlists field items hmem hchild)
          fun other _ => List.not_mem_nil
      have hrest : redefinitionsFrom rules (earlier ++ [name]) following = [] := by
        refine ihfurther _ hdistinct ?_
        intro other hother hmem
        rcases List.mem_append.mp hmem with hmem | hmem
        · exact hnew.2 other hother hmem
        · obtain rfl := List.mem_singleton.mp hmem
          exact hown hother
      rw [redefinitionsFrom, hresource]
      show redefinitionsOfFields rules fields ++ [name].filter (· ∈ earlier)
        ++ redefinitionsFrom rules (earlier ++ [name]) following = []
      rw [hfields, hrest, List.filter_cons_of_neg (by simpa using hnew.1)]
      rfl

-- ── The whole ───────────────────────────────────────────────────────────────

/-- **NO DEFINITION IS DROPPED SILENTLY**: a list that is unified warns of its redefinitions, at
    every depth and in the order in which they are met, and of nothing else. So there are as many
    warnings as definitions are lost in all lists together; and where duplicates are rejected,
    there are none. -/
theorem unify_warnings {rules : Rules} {mappings : Mappings} {resources : List Document}
    {unified : Members} (h : (unify rules mappings resources).result = .ok unified) :
    (unify rules mappings resources).warnings
        = (redefinitions rules resources).map .redefined ∧
      (unify rules mappings resources).warnings.length
        = lostInLists (resources :: listsBelow rules resources) ∧
      (rules.duplicates = .reject → (unify rules mappings resources).warnings = []) := by
  have hwarnings : (unify rules mappings resources).warnings
      = (redefinitions rules resources).map .redefined :=
    warnings_unifyFrom (fun _ => Iff.rfl) (unify_ok_iff.mp h)
  have hsound : Sound rules resources := exists_unify_iff.mp ⟨unified, h⟩
  refine ⟨hwarnings, ?_, ?_⟩
  · rw [hwarnings, List.length_map]
    exact length_redefinitions_of_count (length_redefinitionsFrom hsound.shape [])
  · intro hpolicy
    have hnone : redefinitions rules resources = [] :=
      redefinitionsFrom_eq_nil hsound.shape [] (hsound.distinct hpolicy)
        fun name _ => List.not_mem_nil
    rw [hwarnings, hnone]
    rfl

/-- Two services that are defined twice each. The scopes of the first one repeat a name twice,
    and are overwritten with it. -/
def overwrittenServices : List Document :=
  [.object
      [("name", .string "api"),
        ("scopes", .array
          [.object [("name", .string "read")], .object [("name", .string "read")],
            .object [("name", .string "write")], .object [("name", .string "read")]])],
    .object [("name", .string "db")],
    .object [("scopes", .array [.object [("name", .string "read")]]), ("name", .string "api")],
    .object [("name", .string "db"), ("scopes", .array [])]]

/-- Two scopes and two services are overwritten, both scopes in a service that is lost itself. -/
theorem unify_warnings_overwrittenServices :
    ∃ unified, (unify scopedRules [] overwrittenServices).result = .ok unified ∧
      (unify scopedRules [] overwrittenServices).warnings
        = ["read", "read", "api", "db"].map .redefined ∧
      (unify scopedRules [] overwrittenServices).warnings.length = 2 + 2 := by
  have hok : (unify scopedRules [] overwrittenServices).result = .ok
      [("api", .object
          [("scopes", .object [("read", .object [("name", .string "read")])]),
            ("name", .string "api")]),
        ("db", .object [("name", .string "db"), ("scopes", .object [])])] := by
    decide +kernel
  obtain ⟨hwarnings, hcount, -⟩ := unify_warnings hok
  exact ⟨_, hok, hwarnings.trans (by decide +kernel), hcount.trans (by decide +kernel)⟩

end Stencil
