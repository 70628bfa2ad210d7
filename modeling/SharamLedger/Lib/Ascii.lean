import Mathlib.Tactic.Linarith

/-!
# Letters and digits of ASCII

The character classes of the standard library by their codes, and what lower-casing makes of them.
-/

namespace Lib.Ascii

theorem isLower_iff {c : Char} : c.isLower = true ↔ 97 ≤ c.toNat ∧ c.toNat ≤ 122 := by
  unfold Char.isLower
  simp only [Bool.and_eq_true, decide_eq_true_eq, ge_iff_le, UInt32.le_iff_toNat_le]
  rfl

theorem isUpper_iff {c : Char} : c.isUpper = true ↔ 65 ≤ c.toNat ∧ c.toNat ≤ 90 := by
  unfold Char.isUpper
  simp only [decide_eq_true_eq, ge_iff_le, UInt32.le_iff_toNat_le]
  rfl

theorem isDigit_iff {c : Char} : c.isDigit = true ↔ 48 ≤ c.toNat ∧ c.toNat ≤ 57 :=
  Char.isDigit_iff_toNat

theorem isLower_of_isDigit {c : Char} (h : c.isDigit = true) : c.isLower = false := by
  have hdigit := isDigit_iff.mp h
  rw [Bool.eq_false_iff]
  intro hlower
  have hletter := isLower_iff.mp hlower
  omega

/-- A character of ASCII takes one byte. -/
theorem utf8Size_of_ascii {c : Char} (h : c.toNat < 128) : c.utf8Size = 1 :=
  Char.utf8Size_eq_one_iff.mpr (UInt32.le_iff_toNat_le.mpr (Nat.le_of_lt_succ h))

theorem isAlpha_iff {c : Char} : c.isAlpha = true ↔ c.isUpper = true ∨ c.isLower = true :=
  Bool.or_eq_true_iff

theorem isAlphanum_iff {c : Char} : c.isAlphanum = true ↔ c.isAlpha = true ∨ c.isDigit = true :=
  Bool.or_eq_true_iff

theorem isAlphanum_eq (c : Char) : c.isAlphanum = (c.isUpper || c.isLower || c.isDigit) := rfl

theorem isAlphanum_of_isLower {c : Char} (h : c.isLower = true) : c.isAlphanum = true :=
  isAlphanum_iff.mpr (.inl (isAlpha_iff.mpr (.inr h)))

theorem isAlphanum_of_isUpper {c : Char} (h : c.isUpper = true) : c.isAlphanum = true :=
  isAlphanum_iff.mpr (.inl (isAlpha_iff.mpr (.inl h)))

/-- Only capital letters are changed, to the letter 32 codes further on. -/
theorem toLower_cases (c : Char) :
    c.isUpper = false ∧ c.toLower = c ∨ c.isUpper = true ∧ c.toLower.toNat = c.toNat + 32 := by
  by_cases hupper : c.val ≥ 'A'.val ∧ c.val ≤ 'Z'.val
  · have hrange : 65 ≤ c.toNat ∧ c.toNat ≤ 90 := hupper
    have hlower : c.toLower = _ := dif_pos hupper
    refine .inr ⟨isUpper_iff.mpr hrange, ?_⟩
    rw [hlower]
    show (c.toNat + 32) % 2 ^ 32 = c.toNat + 32
    omega
  · refine .inl ⟨Bool.eq_false_iff.mpr fun h => hupper ?_, dif_neg hupper⟩
    exact isUpper_iff.mp h

/-- No capital letter is left. -/
theorem isUpper_toLower (c : Char) : c.toLower.isUpper = false := by
  rw [Bool.eq_false_iff]
  intro hupper
  have hrange := isUpper_iff.mp hupper
  rcases toLower_cases c with ⟨hsmall, hsame⟩ | ⟨hcapital, hcode⟩
  · rw [hsame, hsmall] at hupper
    cases hupper
  · have hcodes := isUpper_iff.mp hcapital
    omega

theorem isAlphanum_toLower (c : Char) : c.toLower.isAlphanum = c.isAlphanum := by
  rcases toLower_cases c with ⟨-, hsame⟩ | ⟨hupper, hcode⟩
  · rw [hsame]
  · have hrange := isUpper_iff.mp hupper
    have hlower : c.toLower.isLower = true := isLower_iff.mpr (by omega)
    rw [isAlphanum_of_isUpper hupper, isAlphanum_of_isLower hlower]

/-- A lower-cased letter or digit is a small letter or a digit. -/
theorem isLower_or_isDigit {c : Char} (h : c.toLower.isAlphanum = true) :
    c.toLower.isLower = true ∨ c.toLower.isDigit = true := by
  rcases isAlphanum_iff.mp h with h | h
  · refine .inl ((isAlpha_iff.mp h).resolve_left fun hupper => ?_)
    rw [isUpper_toLower] at hupper
    cases hupper
  · exact .inr h

end Lib.Ascii
