import Stencil.Proofs.Journaled
import Stencil.Source

/-!
# Sources — when a source becomes a document

All that decides is the resolved text: a source becomes a document exactly if that text can be
read as one. Without mappings the text is not changed, so what is read is the text itself. A
failure carries the label of the source and what the resolved text lacks.
-/

namespace Stencil

/-- Without mappings a text is resolved to itself. -/
theorem Placeholder.resolve_nil (text : String) : resolve [] text = text := rfl

/-- **A source becomes a document** if its resolved text reads as that document. -/
theorem Source.document_ok_iff {mappings : Mappings} {source : Source} {document : Document} :
    (source.document mappings).result = .ok document
      ↔ Document.read (Placeholder.resolve mappings source.text) = .ok document := by
  unfold Source.document
  rw [Journaled.ok_bind_iff]
  cases hread : Document.read (Placeholder.resolve mappings source.text) with
  | ok found =>
      constructor
      · rintro ⟨-, -, h⟩
        exact congrArg Except.ok (Journaled.ok_pure_iff.mp h)
      · intro h
        exact ⟨(), rfl, Journaled.ok_pure_iff.mpr (Except.ok.inj h)⟩
  | error diagnostic =>
      constructor
      · rintro ⟨-, -, h⟩
        obtain ⟨-, -, hfail⟩ := Journaled.ok_bind_iff.mp h
        exact nomatch hfail
      · intro h
        exact nomatch h

/-- **A source fails** with its label, what the reader says about the resolved text, and what
    that text still refers to without effect. -/
theorem Source.document_error_iff {mappings : Mappings} {source : Source} {fault : Fault} :
    (source.document mappings).result = .error fault
      ↔ ∃ diagnostic,
          Document.read (Placeholder.resolve mappings source.text) = .error diagnostic ∧
          fault = .unreadable source.label (diagnostic.message ++ missingNote mappings
            (Placeholder.unresolved mappings (Placeholder.resolve mappings source.text))) := by
  unfold Source.document
  rw [Journaled.error_bind_iff]
  cases hread : Document.read (Placeholder.resolve mappings source.text) with
  | ok found =>
      constructor
      · rintro (h | ⟨-, -, h⟩)
        · exact nomatch h
        · exact nomatch h
      · rintro ⟨diagnostic, h, -⟩
        exact nomatch h
  | error diagnostic =>
      constructor
      · rintro (h | ⟨-, -, h⟩)
        · exact nomatch h
        · rcases Journaled.error_bind_iff.mp h with h | ⟨-, -, h⟩
          · exact nomatch h
          · exact ⟨diagnostic, rfl, (Except.error.inj h).symm⟩
      · rintro ⟨other, h, rfl⟩
        obtain rfl := Except.error.inj h
        exact .inr ⟨(), rfl, Journaled.error_bind_iff.mpr (.inr ⟨(), rfl, rfl⟩)⟩

/-- What is reported on the way to a failure. -/
theorem Source.events_document_of_error {mappings : Mappings} {source : Source}
    {diagnostic : Document.Diagnostic}
    (h : Document.read (Placeholder.resolve mappings source.text) = .error diagnostic) :
    (source.document mappings).events
      = Placeholder.resolutionEvents mappings source.text ++ missingEvents source.label
          (Placeholder.unresolved mappings (Placeholder.resolve mappings source.text)) := by
  have hreport : ∀ events : List Event,
      (Journaled.report events : Journaled Fault Unit).result = .ok () := fun _ => rfl
  unfold Source.document
  rw [Journaled.events_bind_of_ok (hreport _), h]
  dsimp only
  rw [Journaled.events_bind_of_ok (hreport _)]
  exact congrArg _ (List.append_nil _)

end Stencil
