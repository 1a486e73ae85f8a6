import Mathlib.Data.String.Basic

/-!
# Byte order — texts in the order of their characters are in the order of their bytes

A character is encoded by a leading byte and up to three continuation bytes, which carry its
number in digits of six bits. Where two characters have the same number of bytes, the greater one
has the greater digits, and where they have not, the greater one has the greater leading byte. So
the first byte in which two texts differ decides as the first character does (`bytes_lt`).
-/

namespace Stencil

/-- The bytes of a text in UTF-8. -/
def bytes (text : String) : List UInt8 :=
  text.toUTF8.data.toList

/-- The bytes of a text are those of its characters, one after another. -/
theorem bytes_eq (text : String) : bytes text = text.toList.flatMap String.utf8EncodeChar := by
  rw [bytes, String.toUTF8_eq_toByteArray, ← String.utf8Encode_toList]
  exact List.toList_data_toByteArray

-- ── Characters ──────────────────────────────────────────────────────────────

/-- The last `n` digits of six bits of a number, each with the mark of a continuation byte. -/
def continuation : Nat → Nat → List UInt8
  | 0, _ => []
  | n + 1, v => UInt8.ofNat (v / 64 ^ n % 64 + 0x80) :: continuation n v

/-- The number of continuation bytes of a character. -/
def continuationLength (v : Nat) : Nat :=
  if v ≤ 0x7f then 0 else if v ≤ 0x7ff then 1 else if v ≤ 0xffff then 2 else 3

/-- The mark of a leading byte that some continuation bytes follow. -/
def leadingMark : Nat → Nat
  | 0 => 0
  | 1 => 0xc0
  | 2 => 0xe0
  | _ => 0xf0

/-- The leading byte of a character. -/
def leading (v : Nat) : Nat :=
  leadingMark (continuationLength v) + v / 64 ^ continuationLength v

theorem ofNat_lt_ofNat {v w : Nat} (hw : w < 256) (h : v < w) :
    UInt8.ofNat v < UInt8.ofNat w := by
  rw [UInt8.lt_iff_toNat_lt, UInt8.toNat_ofNat', UInt8.toNat_ofNat']
  omega

theorem toNat_val_lt (c : Char) : c.val.toNat < 0x110000 := by
  rcases c.valid with h | ⟨-, h⟩
  · exact Nat.lt_trans h (by decide)
  · exact h

/-- A character is encoded by its leading byte and its continuation bytes. -/
theorem utf8EncodeChar_eq (c : Char) :
    String.utf8EncodeChar c
      = UInt8.ofNat (leading c.val.toNat)
        :: continuation (continuationLength c.val.toNat) c.val.toNat := by
  have hlimit := toNat_val_lt c
  unfold String.utf8EncodeChar leading continuationLength
  dsimp only
  generalize c.val.toNat = v at hlimit ⊢
  -- The leading byte has room for all that is left above the continuation bytes.
  split_ifs with hone htwo hthree
  · rw [leadingMark, Nat.pow_zero, Nat.div_one, Nat.zero_add, continuation]
  · have hlead : v / 64 % 0x20 + 0xc0 = 0xc0 + v / 64 := by omega
    simp only [hlead, leadingMark, continuation, Nat.pow_zero, Nat.pow_one, Nat.div_one]
  · have hlead : v / 4096 % 0x10 + 0xe0 = 0xe0 + v / 4096 := by omega
    simp only [hlead, leadingMark, continuation, Nat.reducePow, Nat.div_one]
  · have hlead : v / 262144 % 0x08 + 0xf0 = 0xf0 + v / 262144 := by omega
    simp only [hlead, leadingMark, continuation, Nat.reducePow, Nat.div_one]

/-- **Digits** of two numbers are in the order of the numbers. -/
theorem continuation_lt {n v w : Nat} (h : v % 64 ^ n < w % 64 ^ n) (rest rest' : List UInt8) :
    continuation n v ++ rest < continuation n w ++ rest' := by
  induction n with
  | zero =>
      rw [Nat.pow_zero, Nat.mod_one, Nat.mod_one] at h
      exact absurd h (Nat.lt_irrefl 0)
  | succ n ih =>
      rw [Nat.pow_succ, Nat.mod_mul, Nat.mod_mul] at h
      rw [continuation, continuation, List.cons_append, List.cons_append, List.cons_lt_cons_iff]
      by_cases hdigit : v / 64 ^ n % 64 = w / 64 ^ n % 64
      · rw [hdigit] at h ⊢
        exact .inr ⟨rfl, ih (Nat.lt_of_add_lt_add_right h)⟩
      · -- Below the first digit that differs there is less than one of it.
        have hmod : w % 64 ^ n < 64 ^ n := Nat.mod_lt _ (Nat.pow_pos (by decide))
        have hle : v / 64 ^ n % 64 ≤ w / 64 ^ n % 64 := by
          by_contra hgt
          have hmul := Nat.mul_le_mul_left (64 ^ n) (Nat.succ_le_of_lt (Nat.lt_of_not_le hgt))
          rw [Nat.mul_succ] at hmul
          omega
        exact .inl (ofNat_lt_ofNat (by omega) (by omega))

/-- Of two characters with equally many bytes the greater one has no lower leading byte, and of two
    others it has the greater one. -/
theorem leading_lt_or {v w : Nat} (hw : w < 0x110000) (h : v < w) :
    leading v < leading w ∨ leading v = leading w ∧ continuationLength v = continuationLength w ∧
      v % 64 ^ continuationLength v < w % 64 ^ continuationLength v := by
  unfold leading continuationLength
  split_ifs <;> simp only [leadingMark, Nat.reducePow, true_and] <;> omega

/-- **One character** that differs decides, whatever follows it. -/
theorem utf8EncodeChar_lt {c d : Char} (h : c < d) (rest rest' : List UInt8) :
    String.utf8EncodeChar c ++ rest < String.utf8EncodeChar d ++ rest' := by
  have hlimit := toNat_val_lt d
  have hlt : c.val.toNat < d.val.toNat := h
  have hleading : leading d.val.toNat < 256 := by
    unfold leading continuationLength
    split_ifs <;> simp only [leadingMark, Nat.reducePow] <;> omega
  rw [utf8EncodeChar_eq, utf8EncodeChar_eq, List.cons_append, List.cons_append,
    List.cons_lt_cons_iff]
  rcases leading_lt_or hlimit hlt with hlt | ⟨heq, hlength, hrest⟩
  · exact .inl (ofNat_lt_ofNat hleading hlt)
  · rw [heq, ← hlength]
    exact .inr ⟨rfl, continuation_lt hrest rest rest'⟩

-- ── Texts ───────────────────────────────────────────────────────────────────

/-- **Texts in order** are in the order of their bytes. -/
theorem bytes_lt {a b : String} (h : a < b) : bytes a < bytes b := by
  rw [String.lt_iff_toList_lt] at h
  rw [bytes_eq, bytes_eq]
  generalize a.toList = cs at h ⊢
  generalize b.toList = ds at h ⊢
  induction cs generalizing ds with
  | nil =>
      cases ds with
      | nil => exact absurd h (List.lt_irrefl _)
      | cons d ds =>
          rw [List.flatMap_cons, utf8EncodeChar_eq]
          exact List.nil_lt_cons _ _
  | cons c cs ih =>
      cases ds with
      | nil => exact absurd h (List.not_lt_nil _)
      | cons d ds =>
          rw [List.flatMap_cons, List.flatMap_cons]
          rcases List.cons_lt_cons_iff.mp h with hlt | ⟨rfl, hlt⟩
          · exact utf8EncodeChar_lt hlt _ _
          · exact List.append_left_lt (ih ds hlt)

end Stencil
