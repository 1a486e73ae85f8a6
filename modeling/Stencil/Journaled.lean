import Stencil.Event

/-!
# Journaled computations — a result together with the events that led to it

A journaled computation succeeds or fails, and either way keeps the events that were
reported up to then. What follows a failure is not run, so its events do not appear.
-/

namespace Stencil

/-- A result with the events reported on the way to it, in order. -/
structure Journaled (ε α : Type) where
  events : List Event
  result : Except ε α

namespace Journaled

variable {ε ε' α β : Type}

/-- A success that reports nothing. -/
def ok (value : α) : Journaled ε α :=
  ⟨[], .ok value⟩

/-- A failure that reports nothing. -/
def fail (fault : ε) : Journaled ε α :=
  ⟨[], .error fault⟩

/-- A result that reports nothing. -/
def lift (result : Except ε α) : Journaled ε α :=
  ⟨[], result⟩

/-- Reports some events. -/
def report (events : List Event) : Journaled ε Unit :=
  ⟨events, .ok ()⟩

/-- One computation after another: the second one runs if the first one succeeds, and
    its events come behind those of the first. -/
def andThen (first : Journaled ε α) (second : α → Journaled ε β) : Journaled ε β :=
  match first.result with
  | .error fault => ⟨first.events, .error fault⟩
  | .ok value => ⟨first.events ++ (second value).events, (second value).result⟩

/-- The same computation with its fault changed. -/
def mapFault (f : ε → ε') (x : Journaled ε α) : Journaled ε' α :=
  ⟨x.events, x.result.mapError f⟩

instance : Monad (Journaled ε) where
  pure := ok
  bind := andThen

/-- A result comes from both steps, whatever they report. -/
theorem result_bind (first : Journaled ε α) (second : α → Journaled ε β) :
    (first >>= second).result = first.result.bind fun value => (second value).result := by
  show (andThen first second).result = _
  unfold andThen
  cases first.result <;> rfl

/-- The events of the second step come behind those of the first. -/
theorem events_bind_of_ok {first : Journaled ε α} {second : α → Journaled ε β} {value : α}
    (h : first.result = .ok value) :
    (first >>= second).events = first.events ++ (second value).events := by
  show (andThen first second).events = _
  simp [andThen, h]

theorem events_bind_of_error {first : Journaled ε α} {second : α → Journaled ε β} {fault : ε}
    (h : first.result = .error fault) : (first >>= second).events = first.events := by
  show (andThen first second).events = _
  simp [andThen, h]

end Journaled

end Stencil
