/-!
# Decimal digits — naturals written and read in base ten

`Nat.decimal` writes a natural number without leading zeros and `decimalValue` reads
a run of digits back. The two are inverse on what `decimal` writes
(`decimalValue_decimal`), and everything it writes is a digit (`isDigit_of_mem_decimal`).
-/

namespace Stencil.Decimal

/-- The digit character of a number below ten. -/
def digitChar (n : Nat) : Char :=
  Char.ofNat (48 + n % 10)

/-- The value of a digit character. -/
def digitValue (c : Char) : Nat :=
  c.toNat - 48

/-- One of the ten ASCII digits. -/
def isDigit (c : Char) : Bool :=
  '0' ≤ c && c ≤ '9'

/-- The digits of a number, most significant first; zero is the single digit `0`. -/
def decimal (n : Nat) : List Char :=
  if n < 10 then [digitChar n] else decimal (n / 10) ++ [digitChar n]
termination_by n

/-- The number a run of digits stands for. -/
def decimalValue (digits : List Char) : Nat :=
  digits.foldl (fun n c => 10 * n + digitValue c) 0

-- ── Writing and reading are inverse ─────────────────────────────────────────

/-- A digit written and read again. -/
theorem digitValue_digitChar (n : Nat) : digitValue (digitChar n) = n % 10 := by
  have h : n % 10 < 10 := Nat.mod_lt _ (by decide)
  have key : ∀ k : Fin 10, digitValue (Char.ofNat (48 + k.val)) = k.val := by decide
  exact key ⟨n % 10, h⟩

theorem isDigit_digitChar (n : Nat) : isDigit (digitChar n) = true := by
  have h : n % 10 < 10 := Nat.mod_lt _ (by decide)
  have key : ∀ k : Fin 10, isDigit (Char.ofNat (48 + k.val)) = true := by decide
  exact key ⟨n % 10, h⟩

/-- A number is read back from its digits. -/
theorem decimalValue_decimal (n : Nat) : decimalValue (decimal n) = n := by
  induction n using Nat.strongRecOn with
  | ind n ih =>
    rw [decimal]
    split
    · simp [decimalValue, digitValue_digitChar]; omega
    · have hlt : n / 10 < n := by omega
      have step := ih (n / 10) hlt
      simp only [decimalValue] at step ⊢
      rw [List.foldl_append, step]
      simp [digitValue_digitChar]; omega

/-- A number is written with digits only. -/
theorem isDigit_of_mem_decimal {n : Nat} {c : Char} (h : c ∈ decimal n) : isDigit c = true := by
  induction n using Nat.strongRecOn with
  | ind n ih =>
    rw [decimal] at h
    split at h
    · simp only [List.mem_singleton] at h
      exact h ▸ isDigit_digitChar n
    · rcases List.mem_append.1 h with h | h
      · exact ih (n / 10) (by omega) h
      · simp only [List.mem_singleton] at h
        exact h ▸ isDigit_digitChar n

end Stencil.Decimal
