import Stencil.Proofs.Document.Compact
import Stencil.Proofs.Placeholder.Locality
import Stencil.Proofs.Source
import Stencil.Proofs.Template.Basic

/-!
# Filling — resolving the source of a template writes the filled document

The placeholders of a source are its holes and nothing else: literal text holds none, an
at-sign at its end is kept from its neighbours by a quote, and between two values there is
always a separator. So resolving a source replaces the holes where they stand
(`resolved_source`), and what comes out is the compact text of the filled template. Read
again, it is that document: a value fills its hole whole, whatever quotes, escapes or at-signs
it brings along.
-/

namespace Stencil

open Placeholder

-- ── Sources ─────────────────────────────────────────────────────────────────

namespace Template

theorem isSeparator_comma : IsSeparator ',' := by decide
theorem isSeparator_colon : IsSeparator ':' := by decide
theorem isSeparator_bracket : IsSeparator ']' := by decide
theorem isSeparator_brace : IsSeparator '}' := by decide

/-- A comma, or the end, keeps an item from what follows it. -/
theorem resolved_append_following {α : Type} (mappings : Mappings) (following : List α)
    {text behind : List Char} (h : following = [] → behind = []) :
    resolved mappings (text ++ (separator following ++ behind))
      = resolved mappings text ++ (separator following ++ resolved mappings behind) := by
  cases following with
  | nil =>
      rw [h rfl, resolved_nil]
      simp [separator]
  | cons next following =>
      rw [separator, List.singleton_append, List.singleton_append,
        resolved_append_separator mappings isSeparator_comma]

theorem sourceOfItems_of_nil {items : List Template} (h : items = []) :
    sourceOfItems items = [] := by
  rw [h, sourceOfItems]

theorem sourceOfMembers_of_nil {members : List (String × Template)} (h : members = []) :
    sourceOfMembers members = [] := by
  rw [h, sourceOfMembers]

/-- Brackets, braces and commas stay where they are: the parts of a source are resolved each by
    itself. -/
theorem resolved_source_array (mappings : Mappings) (items : List Template) :
    resolved mappings (source (.array items))
      = '[' :: (resolved mappings (sourceOfItems items) ++ [']']) := by
  rw [source, resolved_cons_of_ne_at mappings (by decide),
    resolved_append_separator mappings isSeparator_bracket, resolved_nil]

theorem resolved_source_object (mappings : Mappings) (members : List (String × Template)) :
    resolved mappings (source (.object members))
      = '{' :: (resolved mappings (sourceOfMembers members) ++ ['}']) := by
  rw [source, resolved_cons_of_ne_at mappings (by decide),
    resolved_append_separator mappings isSeparator_brace, resolved_nil]

theorem resolved_sourceOfItems_cons (mappings : Mappings) (item : Template)
    (items : List Template) :
    resolved mappings (sourceOfItems (item :: items))
      = resolved mappings item.source
        ++ (separator items ++ resolved mappings (sourceOfItems items)) := by
  rw [sourceOfItems, resolved_append_following mappings items sourceOfItems_of_nil]

theorem resolved_sourceOfMembers_cons (mappings : Mappings) (name : String) (value : Template)
    (members : List (String × Template)) :
    resolved mappings (sourceOfMembers ((name, value) :: members))
      = resolved mappings (quoted name) ++ ':' :: (resolved mappings value.source
        ++ (separator members ++ resolved mappings (sourceOfMembers members))) := by
  rw [sourceOfMembers, resolved_append_separator mappings isSeparator_colon,
    resolved_append_following mappings members sourceOfMembers_of_nil]

/-- A hole becomes the text of its value. -/
theorem resolved_hole {mappings : Mappings} {word : String} {value : Document}
    (hword : IsWord word.toList) (h : mappings.get? word = some value) :
    resolved mappings (placeholder word.toList) = value.render .compact 0 := by
  rw [resolved_placeholder hword, replacement, String.ofList_toList, h]
  show (String.ofList (value.render .compact 0)).toList = _
  rw [String.toList_ofList]

mutual

/-- **RESOLVING FILLS**: the source of a well-formed template is resolved to the compact text
    of the template filled with what its words are mapped to. -/
theorem resolved_source {mappings : Mappings} {values : String → Document} :
    ∀ template : Template, template.WellFormed →
      (∀ word ∈ template.holes, mappings.get? word = some (values word)) →
      resolved mappings template.source = (template.fill values).render .compact 0
  | .hole word, h, hmapped => resolved_hole h (hmapped word (List.mem_cons_self ..))
  | .null, _, _ => resolved_of_isPlain mappings (isPlain_of_no_at (by decide))
  | .bool true, _, _ => resolved_of_isPlain mappings (isPlain_of_no_at (by decide))
  | .bool false, _, _ => resolved_of_isPlain mappings (isPlain_of_no_at (by decide))
  | .number value, _, _ =>
      resolved_of_isPlain mappings (isPlain_of_no_at value.at_not_mem_text)
  | .string value, h, _ => resolved_quoted mappings h
  | .array items, h, hmapped => by
      rw [resolved_source_array, fill, Document.render_compact_array,
        resolved_sourceOfItems items h hmapped]
  | .object members, h, hmapped => by
      rw [resolved_source_object, fill, Document.render_compact_object,
        resolved_sourceOfMembers members h hmapped]

theorem resolved_sourceOfItems {mappings : Mappings} {values : String → Document} :
    ∀ items : List Template, WellFormedItems items →
      (∀ word ∈ holesOfItems items, mappings.get? word = some (values word)) →
      resolved mappings (sourceOfItems items)
        = Document.renderItems .compact 0 (fillItems values items)
  | [], _, _ => resolved_nil mappings
  | item :: items, h, hmapped => by
      obtain ⟨hitem, hitems⟩ := h
      have hseparator : separator (fillItems values items) = separator items := by
        cases items <;> rfl
      rw [resolved_sourceOfItems_cons, fillItems, Document.renderItems_compact_cons, hseparator,
        resolved_source item hitem fun word hw => hmapped word (List.mem_append_left _ hw),
        resolved_sourceOfItems items hitems fun word hw =>
          hmapped word (List.mem_append_right _ hw)]

theorem resolved_sourceOfMembers {mappings : Mappings} {values : String → Document} :
    ∀ members : List (String × Template), WellFormedMembers members →
      (∀ word ∈ holesOfMembers members, mappings.get? word = some (values word)) →
      resolved mappings (sourceOfMembers members)
        = Document.renderMembers .compact 0 (fillMembers values members)
  | [], _, _ => resolved_nil mappings
  | (name, value) :: members, h, hmapped => by
      obtain ⟨hname, hvalue, hmembers⟩ := h
      have hseparator : separator (fillMembers values members) = separator members := by
        cases members <;> rfl
      rw [resolved_sourceOfMembers_cons, fillMembers, Document.renderMembers_compact_cons, hseparator,
        resolved_quoted mappings hname,
        resolved_source value hvalue fun word hw => hmapped word (List.mem_append_left _ hw),
        resolved_sourceOfMembers members hmembers fun word hw =>
          hmapped word (List.mem_append_right _ hw)]

end

/-- The text that the source of a template is resolved to. -/
theorem resolve_source {mappings : Mappings} {values : String → Document} {template : Template}
    (h : template.WellFormed)
    (hmapped : ∀ word ∈ template.holes, mappings.get? word = some (values word)) :
    resolve mappings (String.ofList template.source) = (template.fill values).compact := by
  rw [resolve_eq_ofList_resolved, String.toList_ofList, resolved_source template h hmapped]
  rfl

end Template

-- ── Documents from sources ──────────────────────────────────────────────────

/-- **TEMPLATES MEAN WHAT THEY SAY**: the source of a template, with every hole mapped to an
    exact value, becomes the filled template. -/
theorem document_source (label : String) (template : Template) (mappings : Mappings)
    (values : String → Document) (hwell : template.WellFormed) (hexact : template.Exact)
    (hmapped : ∀ word ∈ template.holes, mappings.get? word = some (values word))
    (hvalues : ∀ word ∈ template.holes, (values word).Exact)
    (hnest : (template.fill values).nesting ≤ Document.nestingLimit) :
    ((Source.mk label (String.ofList template.source)).document mappings).result
      = .ok (template.fill values) := by
  refine Source.document_ok_iff.mpr ?_
  rw [Template.resolve_source hwell hmapped]
  exact Document.read_text .compact (template.exact_fill hexact hvalues) hnest

/-- A page with two holes and with at-signs of its own. -/
def samplePage : Template :=
  .object
    [("mark@@", .array [.string "@@", .hole "title"]),
      ("@@", .hole "next_1"),
      ("size", .number (.integer (-5)))]

/-- Values with quotes, brackets, escapes and placeholders in them. -/
def sampleValues (word : String) : Document :=
  if word = "title" then .string "\"],@@next_1@@\n\\"
  else .object [("x", .array [.null, .string "@@title@@"])]

/-- A page with at-signs beside its holes. One value tries to close its string, and one holds what
    looks like a placeholder. -/
theorem document_source_samplePage :
    samplePage.WellFormed ∧ samplePage.Exact ∧
      ((Source.mk "page.json" (String.ofList samplePage.source)).document
          [("next_1", sampleValues "next_1"), ("title", sampleValues "title")]).result
        = .ok (.object
          [("mark@@", .array [.string "@@", .string "\"],@@next_1@@\n\\"]),
            ("@@", .object [("x", .array [.null, .string "@@title@@"])]),
            ("size", .number (.integer (-5)))]) := by
  have hmark : keywords "mark@@" = [] := by decide +kernel
  have hat : keywords "@@" = [] := by decide +kernel
  have hsize : keywords "size" = [] := by decide +kernel
  have htitle : IsWord "title".toList := by decide
  have hnext : IsWord "next_1".toList := by decide
  have hwell : samplePage.WellFormed :=
    ⟨hmark, ⟨hat, htitle, trivial⟩, hat, hnext, hsize, trivial, trivial⟩
  have hexact : samplePage.Exact :=
    ⟨by decide, ⟨trivial, trivial, trivial⟩, trivial, trivial, trivial⟩
  have hvalues : ∀ word ∈ samplePage.holes, (sampleValues word).Exact := by
    intro word hword
    obtain rfl | rfl : word = "title" ∨ word = "next_1" := by
      simpa [samplePage, Template.holes, Template.holesOfItems, Template.holesOfMembers]
        using hword
    · trivial
    · exact ⟨by decide, ⟨trivial, trivial, trivial⟩, trivial⟩
  exact ⟨hwell, hexact,
    document_source "page.json" samplePage _ sampleValues hwell hexact (by decide) hvalues
      (by decide)⟩

end Stencil
