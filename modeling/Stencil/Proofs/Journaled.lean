import Stencil.Journaled

/-!
# Journaled computations — successes and events of a sequence

A sequence succeeds exactly if each part of it does, and a change of faults changes no
success. Whatever is shown about results peels a sequence apart by these two; plain results come
apart likewise. What a sequence reports is what its first part reports and, if that succeeds,
what the second one does (`mem_events_bind_iff`), whether the whole succeeds or not. Two runs are
compared by a view of their results (`Alike`): sequences of which each part looks alike look
alike (`Alike.bind`). Where faults matter too, they are compared by a relation between what they
succeed with (`Agree`), which is carried along sequences in the same way (`Agree.bind`).
-/

namespace Stencil.Journaled

variable {ε ε' α β : Type}

/-- **A sequence succeeds** if both of its parts do. -/
theorem ok_bind_iff {first : Journaled ε α} {second : α → Journaled ε β} {value : β} :
    (first >>= second).result = .ok value
      ↔ ∃ between, first.result = .ok between ∧ (second between).result = .ok value := by
  rw [result_bind]
  cases hfirst : first.result with
  | error fault =>
      constructor
      · intro h
        exact nomatch h
      · rintro ⟨between, h, -⟩
        exact nomatch h
  | ok between =>
      constructor
      · intro h
        exact ⟨between, rfl, h⟩
      · rintro ⟨other, h, hsecond⟩
        obtain rfl := Except.ok.inj h
        exact hsecond

/-- **A sequence fails** where its first part does, or else where its second part does. -/
theorem error_bind_iff {first : Journaled ε α} {second : α → Journaled ε β} {fault : ε} :
    (first >>= second).result = .error fault
      ↔ first.result = .error fault ∨
        ∃ between, first.result = .ok between ∧ (second between).result = .error fault := by
  rw [result_bind]
  cases hfirst : first.result with
  | error other =>
      constructor
      · intro h
        exact .inl (congrArg Except.error (Except.error.inj h))
      · rintro (h | ⟨between, h, -⟩)
        · exact congrArg Except.error (Except.error.inj h)
        · exact nomatch h
  | ok between =>
      constructor
      · intro h
        exact .inr ⟨between, rfl, h⟩
      · rintro (h | ⟨other, h, hsecond⟩)
        · exact nomatch h
        · obtain rfl := Except.ok.inj h
          exact hsecond

/-- **The events of a sequence**: those of its first part and, after a success, those of its
    second part. -/
theorem mem_events_bind_iff {first : Journaled ε α} {second : α → Journaled ε β}
    {event : Event} :
    event ∈ (first >>= second).events
      ↔ event ∈ first.events ∨
        ∃ between, first.result = .ok between ∧ event ∈ (second between).events := by
  cases hfirst : first.result with
  | error fault =>
      rw [events_bind_of_error hfirst]
      constructor
      · exact .inl
      · rintro (h | ⟨between, h, -⟩)
        · exact h
        · exact nomatch h
  | ok between =>
      rw [events_bind_of_ok hfirst, List.mem_append]
      constructor
      · rintro (h | h)
        · exact .inl h
        · exact .inr ⟨between, rfl, h⟩
      · rintro (h | ⟨other, h, hsecond⟩)
        · exact .inl h
        · obtain rfl := Except.ok.inj h
          exact .inr hsecond

theorem mapError_eq_ok_iff {x : Except ε α} {f : ε → ε'} {value : α} :
    x.mapError f = .ok value ↔ x = .ok value := by
  cases x with
  | error fault =>
      constructor
      · intro h
        exact nomatch h
      · intro h
        exact nomatch h
  | ok found =>
      constructor
      · intro h
        exact congrArg Except.ok (Except.ok.inj h)
      · intro h
        exact congrArg Except.ok (Except.ok.inj h)

/-- A changed fault is the change of a fault. -/
theorem mapError_eq_error_iff {x : Except ε α} {f : ε → ε'} {fault : ε'} :
    x.mapError f = .error fault ↔ ∃ inner, x = .error inner ∧ fault = f inner := by
  cases x with
  | error inner =>
      constructor
      · intro h
        exact ⟨inner, rfl, (Except.error.inj h).symm⟩
      · rintro ⟨other, h, rfl⟩
        obtain rfl := Except.error.inj h
        rfl
  | ok value =>
      constructor
      · intro h
        exact nomatch h
      · rintro ⟨other, h, -⟩
        exact nomatch h

theorem map_eq_ok_iff {x : Except ε α} {f : α → β} {value : β} :
    x.map f = .ok value ↔ ∃ found, x = .ok found ∧ f found = value := by
  cases x with
  | error fault =>
      constructor
      · intro h
        exact nomatch h
      · rintro ⟨found, h, -⟩
        exact nomatch h
  | ok found =>
      constructor
      · intro h
        exact ⟨found, rfl, Except.ok.inj h⟩
      · rintro ⟨other, h, rfl⟩
        obtain rfl := Except.ok.inj h
        rfl

theorem bind_eq_ok_iff {x : Except ε α} {f : α → Except ε β} {value : β} :
    x >>= f = .ok value ↔ ∃ found, x = .ok found ∧ f found = .ok value := by
  cases x with
  | error fault =>
      constructor
      · intro h
        exact nomatch h
      · rintro ⟨found, h, -⟩
        exact nomatch h
  | ok found =>
      constructor
      · intro h
        exact ⟨found, rfl, h⟩
      · rintro ⟨other, h, hvalue⟩
        obtain rfl := Except.ok.inj h
        exact hvalue

theorem ok_mapFault_iff {x : Journaled ε α} {f : ε → ε'} {value : α} :
    (x.mapFault f).result = .ok value ↔ x.result = .ok value :=
  mapError_eq_ok_iff

theorem error_mapFault_iff {x : Journaled ε α} {f : ε → ε'} {fault : ε'} :
    (x.mapFault f).result = .error fault
      ↔ ∃ inner, x.result = .error inner ∧ fault = f inner :=
  mapError_eq_error_iff

theorem ok_pure_iff {value other : α} :
    (pure value : Journaled ε α).result = .ok other ↔ value = other := by
  constructor
  · intro h
    exact Except.ok.inj h
  · intro h
    exact congrArg Except.ok h

/-- A success can be told without comparing faults. -/
theorem ok_of_toOption {x : Journaled ε α} {value : α}
    (h : x.result.toOption = some value) : x.result = .ok value := by
  cases hresult : x.result with
  | error fault =>
      rw [hresult] at h
      exact nomatch h
  | ok other =>
      rw [hresult] at h
      exact congrArg Except.ok (Option.some.inj h)

-- ── Two runs side by side ───────────────────────────────────────────────────

variable {γ δ : Type} {view : α → γ} {view' : β → δ}

/-- Two computations that both fail, or both succeed with results that give the same view. -/
def Alike (view : α → γ) (x y : Journaled ε α) : Prop :=
  x.result.toOption.map view = y.result.toOption.map view

/-- Failures are alike, whatever they say. -/
theorem alike_of_error {x y : Journaled ε α} {fault fault' : ε} (hx : x.result = .error fault)
    (hy : y.result = .error fault') : Alike view x y := by
  unfold Alike
  rw [hx, hy]
  rfl

/-- Successes are alike if their values look the same. -/
theorem alike_of_ok {x y : Journaled ε α} {value value' : α} (hx : x.result = .ok value)
    (hy : y.result = .ok value') (h : view value = view value') : Alike view x y := by
  unfold Alike
  rw [hx, hy]
  exact congrArg some h

/-- **Sequences look alike** if their first parts do, and their second parts do on whatever gives
    the same view. -/
theorem Alike.bind {x y : Journaled ε α} {f g : α → Journaled ε β} (hfirst : Alike view x y)
    (hsecond : ∀ value value', view value = view value' → Alike view' (f value) (g value')) :
    Alike view' (x >>= f) (y >>= g) := by
  unfold Alike at hfirst ⊢
  rw [result_bind, result_bind]
  cases hx : x.result with
  | error fault =>
      cases hy : y.result with
      | error fault' => rfl
      | ok value' =>
          rw [hx, hy] at hfirst
          exact nomatch hfirst
  | ok value =>
      cases hy : y.result with
      | error fault' =>
          rw [hx, hy] at hfirst
          exact nomatch hfirst
      | ok value' =>
          rw [hx, hy] at hfirst
          exact hsecond value value' (Option.some.inj hfirst)

/-- What one side succeeds with, the other one gives the same view of. -/
theorem Alike.exists_ok {x y : Journaled ε α} {value : α} (h : Alike view x y)
    (hx : x.result = .ok value) : ∃ value', y.result = .ok value' ∧ view value = view value' := by
  unfold Alike at h
  rw [hx] at h
  cases hy : y.result with
  | error fault =>
      rw [hy] at h
      exact nomatch h
  | ok value' =>
      rw [hy] at h
      exact ⟨value', rfl, Option.some.inj h⟩

/-- A part that succeeds on one side only does not matter if the other side looks like what
    follows it. -/
theorem alike_bind_of_ok {x : Journaled ε α} {f : α → Journaled ε β} {y : Journaled ε β}
    {value : α} (hx : x.result = .ok value) (h : Alike view' (f value) y) :
    Alike view' (x >>= f) y := by
  unfold Alike at h ⊢
  rw [result_bind, hx]
  exact h

/-- A change of the result that does not show makes no difference. -/
theorem Alike.bind_pure {x y : Journaled ε α} {f : α → α} (h : Alike view x y)
    (hview : ∀ value, view (f value) = view value) :
    Alike view (x >>= fun value => pure (f value)) y := by
  unfold Alike at h ⊢
  rw [result_bind, ← h]
  cases x.result with
  | error fault => rfl
  | ok value => exact congrArg some (hview value)

theorem alike_mapFault {x y : Journaled ε α} {f : ε → ε'} (h : Alike view x y) :
    Alike view (x.mapFault f) (y.mapFault f) := by
  have hoption : ∀ z : Journaled ε α,
      (z.mapFault f).result.toOption = z.result.toOption := by
    intro z
    show (z.result.mapError f).toOption = _
    cases z.result <;> rfl
  unfold Alike at h ⊢
  rw [hoption, hoption, h]

-- ── Results that agree ──────────────────────────────────────────────────────

/-- Two results agree: both are failures with the same fault, or both are successes with values
    that are related. -/
inductive Agree (related : α → β → Prop) : Except ε α → Except ε β → Prop where
  | failed {fault : ε} : Agree related (.error fault) (.error fault)
  | succeeded {value : α} {value' : β} (h : related value value') :
      Agree related (.ok value) (.ok value')

namespace Agree

variable {related : α → β → Prop}

theorem refl (x : Except ε α) : Agree (fun value value' => value = value') x x := by
  cases x with
  | error fault => exact .failed
  | ok value => exact .succeeded rfl

/-- Results that agree up to equality are equal. -/
theorem eq {x y : Except ε α} (h : Agree (fun value value' => value = value') x y) : x = y := by
  cases h with
  | failed => rfl
  | succeeded h => exact congrArg Except.ok h

/-- What is related is what the results are. -/
theorem attach {x : Except ε α} {y : Except ε β} (h : Agree related x y) :
    Agree (fun value value' => x = .ok value ∧ related value value') x y := by
  cases h with
  | failed => exact .failed
  | succeeded h => exact .succeeded ⟨rfl, h⟩

/-- **Sequences agree** if their first parts do, and their second parts do on related values. -/
theorem bind {x : Journaled ε α} {y : Journaled ε β} {f : α → Journaled ε γ}
    {g : β → Journaled ε δ} {related' : γ → δ → Prop} (h : Agree related x.result y.result)
    (hnext : ∀ value value', related value value' →
      Agree related' (f value).result (g value').result) :
    Agree related' (x >>= f).result (y >>= g).result := by
  rw [result_bind, result_bind]
  generalize x.result = first at h ⊢
  generalize y.result = second at h ⊢
  cases h with
  | failed => exact .failed
  | succeeded h => exact hnext _ _ h

end Agree

end Stencil.Journaled
