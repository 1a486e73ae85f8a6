import Mathlib.Order.MinMax
import Stencil.Action
import Stencil.Proofs.Document.RoundTrip
import Stencil.Proofs.Exclusions
import Stencil.Proofs.Source

/-!
# Printing — what is printed reads back

A document is printed once its excluded members are left out, in one of two layouts. Leaving out
neither spoils exactness (`exact_strip`) nor adds depth (`nesting_strip_le`), so what is left is a
document that survives being written and read, and reading undoes printing. A printed text is
therefore as good as the document it was printed from: printed anew, it comes out the same.
-/

namespace Stencil

namespace Exclusions

mutual

/-- What is left of an exact document is exact: no number is new, and names that do not repeat
    do not come to repeat. -/
theorem exact_strip (x : Exclusions) :
    ∀ document : Document, document.Exact → (strip x document).Exact
  | .null, _ => trivial
  | .bool _, _ => trivial
  | .number _, h => h
  | .string _, _ => trivial
  | .array items, h => exact_stripItems x items h
  | .object members, h => by
      obtain ⟨hnames, hmembers⟩ := h
      refine ⟨?_, exact_stripMembers x members hmembers⟩
      rw [names_stripMembers]
      exact hnames.filter _

theorem exact_stripItems (x : Exclusions) :
    ∀ items : List Document, Document.ExactItems items → Document.ExactItems (stripItems x items)
  | [], _ => trivial
  | item :: items, h => by
      obtain ⟨hitem, hitems⟩ := h
      exact ⟨exact_strip x item hitem, exact_stripItems x items hitems⟩

theorem exact_stripMembers (x : Exclusions) :
    ∀ members : List (String × Document),
      Document.ExactMembers members → Document.ExactMembers (stripMembers x members)
  | [], _ => trivial
  | (name, value) :: members, h => by
      obtain ⟨hvalue, hmembers⟩ := h
      have hrest := exact_stripMembers x members hmembers
      cases hname : x.excludes name with
      | true =>
          rw [stripMembers_cons_of_excluded hname]
          exact hrest
      | false =>
          rw [stripMembers_cons_of_kept hname]
          exact ⟨exact_strip x value hvalue, hrest⟩

end

mutual

/-- What is left of a document nests no deeper than the document. -/
theorem nesting_strip_le (x : Exclusions) :
    ∀ document : Document, (strip x document).nesting ≤ document.nesting
  | .null => Nat.le_refl _
  | .bool _ => Nat.le_refl _
  | .number _ => Nat.le_refl _
  | .string _ => Nat.le_refl _
  | .array items => Nat.succ_le_succ (nestingOfItems_stripItems_le x items)
  | .object members => Nat.succ_le_succ (nestingOfMembers_stripMembers_le x members)

theorem nestingOfItems_stripItems_le (x : Exclusions) :
    ∀ items : List Document,
      Document.nestingOfItems (stripItems x items) ≤ Document.nestingOfItems items
  | [] => Nat.le_refl _
  | item :: items =>
      max_le_max (nesting_strip_le x item) (nestingOfItems_stripItems_le x items)

theorem nestingOfMembers_stripMembers_le (x : Exclusions) :
    ∀ members : List (String × Document),
      Document.nestingOfMembers (stripMembers x members) ≤ Document.nestingOfMembers members
  | [] => Nat.le_refl _
  | (name, value) :: members => by
      have hrest := nestingOfMembers_stripMembers_le x members
      cases hname : x.excludes name with
      | true =>
          rw [stripMembers_cons_of_excluded hname]
          exact le_max_of_le_right hrest
      | false =>
          rw [stripMembers_cons_of_kept hname]
          exact max_le_max (nesting_strip_le x value) hrest

end

end Exclusions

/-- What is printed is the document in one of the two layouts. -/
theorem printed_eq_text (pretty : Bool) (document : Document) :
    printed pretty document = document.text (if pretty then .indented else .compact) := by
  cases pretty <;> rfl

/-- Without mappings, a text that is a document in either layout becomes that document. -/
theorem Source.document_text (label : String) (layout : Layout) {document : Document}
    (h : document.Exact) (hnest : document.nesting ≤ Document.nestingLimit) :
    ((Source.mk label (document.text layout)).document []).result = .ok document := by
  refine Source.document_ok_iff.mpr ?_
  rw [Placeholder.resolve_nil]
  exact Document.read_text layout h hnest

/-- **EVERY RENDERING DECODES**: what is left of an exact document that does not nest too deeply
    is read back from its compact text and from its printed text in either layout, whatever is
    left out. So what was read from any of these prints as what was left of the document does, in
    both layouts. -/
theorem document_printed (label : String) (x : Exclusions) (document : Document)
    (h : document.Exact) (hnest : document.nesting ≤ Document.nestingLimit) :
    ∀ text ∈ [x.text document, printed false (x.reduce document),
        printed true (x.reduce document)],
      ((Source.mk label text).document []).result = .ok (x.reduce document) ∧
        ∀ parsed, ((Source.mk label text).document []).result = .ok parsed →
          ∀ pretty, printed pretty parsed = printed pretty (x.reduce document) := by
  have hexact : (x.reduce document).Exact := by
    rw [Exclusions.reduce_eq_strip]
    exact Exclusions.exact_strip x document h
  have hdepth : (x.reduce document).nesting ≤ Document.nestingLimit := by
    rw [Exclusions.reduce_eq_strip]
    exact Nat.le_trans (Exclusions.nesting_strip_le x document) hnest
  have hread : ∀ layout,
      ((Source.mk label ((x.reduce document).text layout)).document []).result
        = .ok (x.reduce document) :=
    fun layout => Source.document_text label layout hexact hdepth
  intro text htext
  obtain ⟨layout, rfl⟩ : ∃ layout, text = (x.reduce document).text layout := by
    simp only [List.mem_cons, List.not_mem_nil, or_false] at htext
    rcases htext with rfl | rfl | rfl
    · exact ⟨.compact, rfl⟩
    · exact ⟨_, printed_eq_text false _⟩
    · exact ⟨_, printed_eq_text true _⟩
  refine ⟨hread layout, ?_⟩
  intro parsed hparsed pretty
  obtain rfl := Except.ok.inj ((hread layout).symm.trans hparsed)
  rfl

/-- A document with characters that are escaped and characters that are not, with the outermost
    integers, and with containers that are empty or will be. -/
def recordedState : Document :=
  .object
    [("label", .string "\"\\/\n\x01\x7fé😀@@label@@"),
      ("limits", .array
        [.number (.integer (-0x8000000000000000)), .number (.integer 0xFFFFFFFFFFFFFFFF),
          .number (.integer 0)]),
      ("id", .null),
      ("@", .array [.object [("id", .bool true)], .array []])]

/-- A state with the least and the greatest integers, escapes, and what looks like placeholders. -/
theorem document_printed_recordedState :
    recordedState.Exact ∧ recordedState.nesting = 3 ∧
      printed false ((Exclusions.one "id").reduce recordedState)
        = "\x7b\"label\":\"\\\"\\\\/\\n\\u0001\x7fé😀@@label@@\",\"limits\":" ++
          "[-9223372036854775808,18446744073709551615,0],\"@\":[\x7b\x7d,[]]\x7d" ∧
      ∀ text ∈ [(Exclusions.one "id").text recordedState,
          printed false ((Exclusions.one "id").reduce recordedState),
          printed true ((Exclusions.one "id").reduce recordedState)],
        ((Source.mk "state.json" text).document []).result = .ok (.object
          [("label", .string "\"\\/\n\x01\x7fé😀@@label@@"),
            ("limits", .array
              [.number (.integer (-0x8000000000000000)), .number (.integer 0xFFFFFFFFFFFFFFFF),
                .number (.integer 0)]),
            ("@", .array [.object [], .array []])]) ∧
          ∀ parsed, ((Source.mk "state.json" text).document []).result = .ok parsed →
            ∀ pretty, printed pretty parsed
              = printed pretty ((Exclusions.one "id").reduce recordedState) := by
  have hexact : recordedState.Exact :=
    ⟨by decide, trivial, ⟨trivial, trivial, trivial, trivial⟩, trivial,
      ⟨⟨by decide, trivial, trivial⟩, trivial, trivial⟩, trivial⟩
  refine ⟨hexact, by decide, by decide +kernel, ?_⟩
  exact document_printed "state.json" (.one "id") recordedState hexact (by decide)

end Stencil
