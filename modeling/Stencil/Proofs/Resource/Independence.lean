import Stencil.Proofs.Placeholder.Resolution
import Stencil.Proofs.Resource.Offences
import Stencil.Proofs.Resource.Reporting

/-!
# Independence — what mappings can change about a unified list

A list is unified under two mappings at once. If it is refused it is refused alike, since an
offence is a matter of the list and its rules alone. If not, both runs give the same names in the
same order, and under each name the same fields with the same values, but for one kind of field:
where a templated field holds a text, either side shows that text resolved by its own mappings
(`SameButTexts`). So what the two runs can differ in is what resolving these texts looks up, and
mappings that agree on the keywords there give the same result (`eq_of_sameButTexts`).

The route: the two runs are compared where they end, not step by step. Either side shows the last
entry of a name, and that is one entry for both (`LastNamed.unique`). Its fields are compared one
by one (`sameFieldsButTexts_of_normalizes`), by induction from the lists below.
-/

namespace Stencil

open Placeholder

mutual

/-- **The same but for texts**: what a list became under two mappings. Both sides have the same
    names in the same order, and under a name what the last entry of this name has become. -/
inductive SameButTexts (rules : Rules) (mappings others : Mappings) :
    List Document → Members → Members → Prop where
  | nil {resources : List Document} : SameButTexts rules mappings others resources [] []
  | cons {resources : List Document} {name : String}
      {fields normalized normalized' further further' : Members}
      (last : LastNamed resources name fields)
      (entry : SameFieldsButTexts rules mappings others fields normalized normalized')
      (rest : SameButTexts rules mappings others resources further further') :
      SameButTexts rules mappings others resources ((name, .object normalized) :: further)
        ((name, .object normalized') :: further')

/-- What the fields of an entry became under two mappings: the same fields in the same order. The
    lists of children are the same but for texts, a text in a templated field is resolved by either
    mappings, and the value of every other field is the same. -/
inductive SameFieldsButTexts (rules : Rules) (mappings others : Mappings) :
    Members → Members → Members → Prop where
  | nil : SameFieldsButTexts rules mappings others [] [] []
  | children {field : String} {items : List Document}
      {fields nested nested' further further' : Members}
      (listed : rules.isChildList field = true)
      (below : SameButTexts rules mappings others items nested nested')
      (rest : SameFieldsButTexts rules mappings others fields further further') :
      SameFieldsButTexts rules mappings others ((field, .array items) :: fields)
        ((field, .object nested) :: further) ((field, .object nested') :: further')
  | text {field text : String} {fields further further' : Members}
      (single : rules.isChildList field = false) (templated : rules.isTemplated field = true)
      (rest : SameFieldsButTexts rules mappings others fields further further') :
      SameFieldsButTexts rules mappings others ((field, .string text) :: fields)
        ((field, .string (resolve mappings text)) :: further)
        ((field, .string (resolve others text)) :: further')
  | same {field : String} {value normalized : Document} {fields further further' : Members}
      (single : rules.isChildList field = false)
      (fixed : rules.isTemplated field = true → value.kind ≠ .string)
      (rest : SameFieldsButTexts rules mappings others fields further further') :
      SameFieldsButTexts rules mappings others ((field, value) :: fields)
        ((field, normalized) :: further) ((field, normalized) :: further')

end

/-- Two mappings agree on what the texts in the templated fields of a list refer to, at every
    depth: a keyword has the same value in both, or none in either. -/
def AgreeOnTexts (rules : Rules) (mappings others : Mappings) (resources : List Document) :
    Prop :=
  ∀ owner field text, HoldsText rules owner field text resources →
    ∀ keyword ∈ keywords text, mappings.get? keyword = others.get? keyword

/-- Two mappings agree on one field: on the text in it, if it is templated, and on all texts in its
    list of children. -/
def AgreeOnField (rules : Rules) (mappings others : Mappings) (member : String × Document) :
    Prop :=
  (∀ text, member.2 = .string text → rules.isChildList member.1 = false →
    rules.isTemplated member.1 = true →
    ∀ keyword ∈ keywords text, mappings.get? keyword = others.get? keyword) ∧
  (∀ items, member.2 = .array items → rules.isChildList member.1 = true →
    AgreeOnTexts rules mappings others items)

variable {rules : Rules} {mappings others : Mappings}

-- ── Two runs side by side ───────────────────────────────────────────────────

/-- **The fields of one entry**, normalized under two mappings. -/
theorem sameFieldsButTexts_of_normalizes {fields normalized normalized' : Members}
    (h : NormalizesFields rules mappings fields normalized)
    (h' : NormalizesFields rules others fields normalized')
    (ih : ∀ field items nested nested', (field, .array items) ∈ fields →
      (unify rules mappings items).result = .ok nested →
      (unify rules others items).result = .ok nested' →
      SameButTexts rules mappings others items nested nested') :
    SameFieldsButTexts rules mappings others fields normalized normalized' := by
  induction h generalizing normalized' with
  | nil =>
      cases h'
      exact .nil
  | @cons old new fields further hhead _ ihtail =>
      cases h' with
      | @cons _ new' _ further' hhead' htail' =>
          obtain ⟨field, value⟩ := old
          obtain ⟨name, value₁⟩ := new
          obtain ⟨name', value₂⟩ := new'
          obtain rfl : name = field := hhead.1
          obtain rfl : name' = name := hhead'.1
          have hvalue : Normalizes rules mappings name' value value₁ := hhead.2
          have hvalue' : Normalizes rules others name' value value₂ := hhead'.2
          have hrest := ihtail htail' fun other items nested nested' hmem =>
            ih other items nested nested' (List.mem_cons_of_mem _ hmem)
          cases hvalue with
          | @children items nested hchild hnested =>
              obtain ⟨_, nested', heq, rfl, hnested'⟩ := (normalizes_of_childList hchild).mp hvalue'
              obtain rfl := Document.array.inj heq
              exact .children hchild
                (ih _ items nested nested' (List.mem_cons_self ..) hnested hnested') hrest
          | templated hchild htemplated =>
              obtain rfl := (normalizes_of_not_childList hchild).mp hvalue'
              rw [if_pos htemplated]
              -- Mappings are looked up for a text only: any other value is written anew.
              by_cases hkind : value.kind = .string
              · obtain ⟨text, rfl⟩ : ∃ text, value = .string text := by
                  cases value with
                  | string text => exact ⟨text, rfl⟩
                  | _ => exact nomatch hkind
                exact .text hchild htemplated hrest
              · rw [normalizeField_of_not_string hkind, normalizeField_of_not_string hkind]
                exact .same hchild (fun _ => hkind) hrest
          | copied hchild hplain =>
              obtain rfl := (normalizes_of_not_childList hchild).mp hvalue'
              rw [hplain, if_neg Bool.false_ne_true]
              refine .same hchild ?_ hrest
              intro htemplated
              rw [hplain] at htemplated
              exact Bool.noConfusion htemplated

/-- Objects with the same names are compared name by name. -/
theorem sameButTexts_of_get? {resources : List Document} {unified unified' : Members}
    (hnames : unified.names = unified'.names) (hnodup : unified.names.Nodup)
    (h : ∀ name value value', unified.get? name = some value → unified'.get? name = some value' →
      ∃ fields normalized normalized', LastNamed resources name fields ∧
        value = .object normalized ∧ value' = .object normalized' ∧
        SameFieldsButTexts rules mappings others fields normalized normalized') :
    SameButTexts rules mappings others resources unified unified' := by
  induction unified generalizing unified' with
  | nil =>
      cases unified' with
      | nil => exact .nil
      | cons member further' => exact nomatch hnames
  | cons member further ih =>
      obtain ⟨name, value⟩ := member
      cases unified' with
      | nil => exact nomatch hnames
      | cons member' further' =>
          obtain ⟨name', value'⟩ := member'
          obtain ⟨rfl, hrest⟩ : name = name' ∧ Members.names further = Members.names further' :=
            List.cons.inj hnames
          obtain ⟨hfresh, hfurther⟩ := List.nodup_cons.mp hnodup
          obtain ⟨fields, normalized, normalized', hlast, rfl, rfl, hfields⟩ :=
            h name value value' (by rw [Members.get?_cons, if_pos rfl])
              (by rw [Members.get?_cons, if_pos rfl])
          refine .cons hlast hfields (ih hrest hfurther ?_)
          intro other found found' hfound hfound'
          have hother : other ≠ name := by
            rintro rfl
            rw [Members.get?_eq_none_iff.mpr hfresh] at hfound
            exact nomatch hfound
          refine h other found found' ?_ ?_
          · rw [Members.get?_cons, if_neg hother]
            exact hfound
          · rw [Members.get?_cons, if_neg hother]
            exact hfound'

/-- **Two runs** on one list that both succeed give results that are the same but for texts. -/
theorem sameButTexts_unify {resources : List Document} :
    ∀ {unified unified' : Members},
      (unify rules mappings resources).result = .ok unified →
      (unify rules others resources).result = .ok unified' →
      SameButTexts rules mappings others resources unified unified' := by
  induction resources using children_induction with
  | list resources ih =>
      intro unified unified' h h'
      have hnames : unified.names = unified'.names := (names_unify h).trans (names_unify h').symm
      have hnodup : unified.names.Nodup := by
        rw [names_unify h]
        exact nodup_eraseDups _
      refine sameButTexts_of_get? hnames hnodup ?_
      intro name value value' hvalue hvalue'
      -- Either run shows what the last entry of the name has become, and that is one entry.
      rcases get?_unifyFrom (unify_ok_iff.mp h) hvalue with ⟨-, hnone⟩ | hlast
      · exact nomatch hnone
      rcases get?_unifyFrom (unify_ok_iff.mp h') hvalue' with ⟨-, hnone⟩ | hlast'
      · exact nomatch hnone
      obtain ⟨fields, normalized, hlast, hfields, rfl⟩ := hlast
      obtain ⟨fields', normalized', hlast', hfields', rfl⟩ := hlast'
      obtain rfl := hlast.unique hlast'
      obtain ⟨before, after, rfl, -, -⟩ := id hlast
      refine ⟨fields, normalized, normalized', hlast, rfl, rfl, ?_⟩
      refine sameFieldsButTexts_of_normalizes hfields hfields' ?_
      intro field items nested nested' hmem
      exact ih fields field items (by simp) hmem

-- ── Mappings that agree ─────────────────────────────────────────────────────

/-- What an entry holds, the list that it stands in holds. -/
theorem HoldsText.append {owner field text : String} {resources : List Document}
    (h : HoldsText rules owner field text resources) (front : List Document) :
    HoldsText rules owner field text (front ++ resources) := by
  induction front with
  | nil => exact h
  | cons entry front ih => exact .further ih

/-- Where mappings agree on a list, they agree on every field of its entries. -/
theorem AgreeOnTexts.field {before after : List Document} {name : String} {fields : Members}
    (h : AgreeOnTexts rules mappings others (before ++ .object fields :: after))
    (hname : fields.get? nameField = some (.string name)) :
    ∀ member ∈ fields, AgreeOnField rules mappings others member := by
  rintro ⟨field, value⟩ hmem
  constructor
  · rintro text rfl hsingle htemplated
    exact h name field text ((HoldsText.here hname hmem hsingle htemplated).append before)
  · rintro items rfl hlisted owner inner text hbelow
    exact h owner inner text ((HoldsText.child hmem hlisted hbelow).append before)

mutual

/-- **Nothing but texts**: where the mappings agree on the texts, the same but for texts is the
    same. -/
theorem eq_of_sameButTexts {resources : List Document} {unified unified' : Members} :
    SameButTexts rules mappings others resources unified unified' →
      AgreeOnTexts rules mappings others resources → unified = unified'
  | .nil, _ => rfl
  | .cons last entry rest, h => by
      obtain ⟨before, after, rfl, hname, -⟩ := last
      have hentry := eq_of_sameFieldsButTexts entry (h.field hname)
      have hrest := eq_of_sameButTexts rest h
      rw [hentry, hrest]

/-- Fields that differ in texts only are equal if the mappings agree on these texts. -/
theorem eq_of_sameFieldsButTexts {fields normalized normalized' : Members} :
    SameFieldsButTexts rules mappings others fields normalized normalized' →
      (∀ member ∈ fields, AgreeOnField rules mappings others member) → normalized = normalized'
  | .nil, _ => rfl
  | .children listed below rest, h => by
      obtain ⟨hfield, hfields⟩ := List.forall_mem_cons.mp h
      have hbelow := eq_of_sameButTexts below (hfield.2 _ rfl listed)
      have hrest := eq_of_sameFieldsButTexts rest hfields
      rw [hbelow, hrest]
  | .text single templated rest, h => by
      obtain ⟨hfield, hfields⟩ := List.forall_mem_cons.mp h
      have htext := resolve_congr (hfield.1 _ rfl single templated)
      have hrest := eq_of_sameFieldsButTexts rest hfields
      rw [htext, hrest]
  | .same _ _ rest, h => by
      have hrest := eq_of_sameFieldsButTexts rest (List.forall_mem_cons.mp h).2
      rw [hrest]

end

-- ── The whole ───────────────────────────────────────────────────────────────

/-- Whether and how a list fails is no matter of mappings. -/
theorem unify_error_congr {resources : List Document} {fault : Fault} :
    (unify rules mappings resources).result = .error fault
      ↔ (unify rules others resources).result = .error fault := by
  rw [unify_error_iff, unify_error_iff]

/-- **MAPPINGS SHOW IN TEXTS ONLY**: a list fails under all mappings, with the same fault, or under
    none. Mappings that agree on the keywords of the texts in templated fields, at every depth, give
    the same result. Whatever the mappings are, the results are the same but for these texts. -/
theorem unify_independence (rules : Rules) (mappings others : Mappings)
    (resources : List Document) :
    (∀ fault, (unify rules mappings resources).result = .error fault
      ↔ (unify rules others resources).result = .error fault) ∧
    (AgreeOnTexts rules mappings others resources →
      (unify rules mappings resources).result = (unify rules others resources).result) ∧
    (∀ unified unified', (unify rules mappings resources).result = .ok unified →
      (unify rules others resources).result = .ok unified' →
      SameButTexts rules mappings others resources unified unified') := by
  refine ⟨fun _ => unify_error_congr, ?_, fun _ _ => sameButTexts_unify⟩
  intro hagree
  cases h : (unify rules mappings resources).result with
  | error fault => exact (unify_error_congr.mp h).symm
  | ok unified =>
      cases h' : (unify rules others resources).result with
      | error fault =>
          rw [unify_error_congr.mpr h'] at h
          exact nomatch h
      | ok unified' =>
          exact congrArg Except.ok (eq_of_sameButTexts (sameButTexts_unify h h') hagree)

/-- A service in the tier of its settings, with a scope that notes the region too. -/
def tieredService : List Document :=
  [.object
    [("name", .string "api"), ("settings", .string "@@tier@@"),
      ("scopes", .array
        [.object [("settings", .string "@@tier@@/@@region@@"), ("name", .string "read")]])]]

/-- The sample service holds two templated texts, one at each depth. -/
theorem holdsText_tieredService {owner field text : String}
    (h : HoldsText scopedRules owner field text tieredService) :
    text = "@@tier@@" ∨ text = "@@tier@@/@@region@@" := by
  simp only [tieredService, holdsText_cons_iff, not_holdsText_nil, List.mem_cons, List.not_mem_nil,
    Prod.mk.injEq, Document.string.injEq, Document.array.injEq, reduceCtorEq, and_false, or_false,
    false_or, false_and, and_true, exists_const, exists_eq_left, ↓existsAndEq] at h
  rcases h with ⟨-, held, -, htemplated⟩ | ⟨-, -, held, -, htemplated⟩
  · rcases held with ⟨rfl, -⟩ | ⟨-, rfl⟩
    · exact absurd htemplated (by decide)
    · exact .inl rfl
  · rcases held with ⟨-, rfl⟩ | ⟨rfl, -⟩
    · exact .inr rfl
    · exact absurd htemplated (by decide)

/-- Another tier shows in the settings only, and a keyword that no text refers to nowhere. -/
theorem unify_independence_tieredService :
    SameButTexts scopedRules [("tier", .string "gold")] [("tier", .null)] tieredService
        [("api", .object
          [("name", .string "api"), ("settings", .string "\"gold\""),
            ("scopes", .object
              [("read", .object
                [("settings", .string "\"gold\"/@@region@@"), ("name", .string "read")])])])]
        [("api", .object
          [("name", .string "api"), ("settings", .string "null"),
            ("scopes", .object
              [("read", .object
                [("settings", .string "null/@@region@@"), ("name", .string "read")])])])] ∧
      AgreeOnTexts scopedRules [("tier", .null)] [("api", .null), ("tier", .null)]
        tieredService ∧
      (unify scopedRules [("tier", .null)] tieredService).result
        = (unify scopedRules [("api", .null), ("tier", .null)] tieredService).result := by
  have hagree : AgreeOnTexts scopedRules [("tier", .null)] [("api", .null), ("tier", .null)]
      tieredService := by
    intro owner field text hholds
    rcases holdsText_tieredService hholds with rfl | rfl
    · decide +kernel
    · decide +kernel
  obtain ⟨-, -, hsame⟩ :=
    unify_independence scopedRules [("tier", .string "gold")] [("tier", .null)] tieredService
  obtain ⟨-, hequal, -⟩ :=
    unify_independence scopedRules [("tier", .null)] [("api", .null), ("tier", .null)]
      tieredService
  exact ⟨hsame _ _ (by decide +kernel) (by decide +kernel), hagree, hequal hagree⟩

end Stencil
