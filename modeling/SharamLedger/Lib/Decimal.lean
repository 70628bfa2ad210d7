import Mathlib.Data.List.Lex
import Mathlib.Tactic.IntervalCases
import Mathlib.Tactic.Linarith

/-!
# Zero-padded decimal numerals and their order

`padded width n` is the decimal numeral of `n`, filled up with zeros on the left.
Among numerals that fit the width, the lexicographic order of the texts is the order of the
numbers (`padded_lt_iff`), and it stays so under equal-length prefixes (`append_lt_iff`).
-/

namespace Lib.Decimal

/-- The decimal digits of `n`, with zeros in front up to `width` characters. -/
def padded (width n : Nat) : List Char :=
  List.replicate (width - (Nat.toDigits 10 n).length) '0' ++ Nat.toDigits 10 n

/-- Zero padding counts the sign as one of the `width` characters. -/
def paddedInt (width : Nat) (n : Int) : List Char :=
  if n < 0 then '-' :: padded (width - 1) n.natAbs else padded width n.natAbs

theorem paddedInt_natCast (width n : Nat) : paddedInt width (n : Int) = padded width n := by
  simp [paddedInt]

/-- The decimal text of a natural number. -/
theorem toList_toString_natCast (n : Nat) : (toString (n : Int)).toList = Nat.toDigits 10 n := by
  rw [← Nat.toList_repr]
  rfl

/-- The decimal text of a number names that number alone. -/
theorem eq_of_toString_eq {a b : Nat} (h : toString a = toString b) : a = b := by
  have hdigits : Nat.toDigits 10 a = Nat.toDigits 10 b := by
    rw [← Nat.toList_repr, ← Nat.toList_repr]
    exact congrArg String.toList h
  rw [← Nat.ofDigitChars_ten_toDigits (n := a), hdigits, Nat.ofDigitChars_ten_toDigits]

/-- A number of at most `width` digits is padded to exactly `width` characters. -/
theorem length_padded {width n : Nat} (hw : 0 < width) (h : n < 10 ^ width) :
    (padded width n).length = width := by
  have := (Nat.length_toDigits_le_iff (b := 10) (by omega) hw).mpr h
  simp only [padded, List.length_append, List.length_replicate]
  omega

/-- A number of more than `width` digits is not padded. -/
theorem lt_length_padded {width n : Nat} (hw : 0 < width) (h : 10 ^ width ≤ n) :
    width < (padded width n).length := by
  have := (Nat.length_toDigits_le_iff (b := 10) (n := n) (by omega) hw).not.mpr (by omega)
  simp only [padded, List.length_append, List.length_replicate]
  omega

theorem isDigit_of_mem_padded {width n : Nat} {c : Char} (h : c ∈ padded width n) :
    c.isDigit = true := by
  rcases List.mem_append.mp h with h | h
  · rw [List.eq_of_mem_replicate h]
    rfl
  · exact Nat.isDigit_of_mem_toDigits (b := 10) (by omega) (by omega) h

/-- A numeral that fits has its last digit last and the padded rest in front. -/
theorem padded_succ {width n : Nat} (hw : 0 < width) (h : n < 10 ^ (width + 1)) :
    padded (width + 1) n = padded width (n / 10) ++ [Nat.digitChar (n % 10)] := by
  by_cases hsmall : n < 10
  · have hdiv : n / 10 = 0 := Nat.div_eq_of_lt hsmall
    obtain ⟨k, rfl⟩ : ∃ k, width = k + 1 := ⟨width - 1, by omega⟩
    simp [padded, hdiv, Nat.toDigits_of_lt_base hsmall, Nat.mod_eq_of_lt hsmall,
      List.replicate_succ']
  · have hn := Nat.toDigits_of_base_le (b := 10) (by omega) (not_lt.mp hsmall)
    simp only [padded, hn, List.length_append, List.length_singleton, Nat.add_sub_add_right,
      List.append_assoc]

theorem padded_one {n : Nat} (h : n < 10) : padded 1 n = [Nat.digitChar n] := by
  simp [padded, Nat.toDigits_of_lt_base h]

theorem digitChar_lt_iff {a b : Nat} (ha : a < 10) (hb : b < 10) :
    Nat.digitChar a < Nat.digitChar b ↔ a < b := by
  interval_cases a <;> interval_cases b <;> decide

/-! ## Lexicographic order -/

/-- Texts with prefixes of one length compare by the prefixes first. -/
theorem append_lt_iff {α : Type} [LT α] {l l' s s' : List α}
    (h : l.length = l'.length) : l ++ s < l' ++ s' ↔ l < l' ∨ (l = l' ∧ s < s') := by
  induction l generalizing l' with
  | nil =>
      cases l' with
      | nil => simp
      | cons => simp at h
  | cons a l ih =>
      cases l' with
      | nil => simp at h
      | cons b l' =>
          have hlen : l.length = l'.length := by simpa using h
          simp only [List.cons_append, List.cons_lt_cons_iff, ih hlen, List.cons.injEq]
          tauto

/-- Numerals of one width compare as the numbers they stand for. -/
theorem padded_lt_iff {width a b : Nat} (hw : 0 < width) (ha : a < 10 ^ width)
    (hb : b < 10 ^ width) : padded width a < padded width b ↔ a < b := by
  induction width, hw using Nat.le_induction generalizing a b with
  | base =>
      rw [padded_one (by simpa using ha), padded_one (by simpa using hb)]
      simpa [List.cons_lt_cons_iff] using
        digitChar_lt_iff (by simpa using ha) (by simpa using hb)
  | succ width hw ih =>
      have ha' : a / 10 < 10 ^ width := by
        rw [pow_succ] at ha
        omega
      have hb' : b / 10 < 10 ^ width := by
        rw [pow_succ] at hb
        omega
      have hinj : padded width (a / 10) = padded width (b / 10) ↔ a / 10 = b / 10 := by
        refine ⟨fun h => ?_, fun h => by rw [h]⟩
        have hirrefl := List.lt_irrefl (padded width (a / 10))
        by_contra hne
        rcases Nat.lt_or_gt_of_ne hne with hlt | hgt
        · exact hirrefl (by simpa [← h] using (ih ha' hb').mpr hlt)
        · exact hirrefl (by simpa [← h] using (ih hb' ha').mpr hgt)
      rw [padded_succ hw ha, padded_succ hw hb, append_lt_iff (by
        rw [length_padded hw ha', length_padded hw hb']), ih ha' hb', hinj]
      have hdigit := digitChar_lt_iff (Nat.mod_lt a (by omega : 0 < 10))
        (Nat.mod_lt b (by omega : 0 < 10))
      simp only [List.cons_lt_cons_iff, List.not_lt_nil, and_false, or_false, hdigit]
      omega

/-- A numeral of one width stands for one number. -/
theorem padded_inj {width a b : Nat} (hw : 0 < width) (ha : a < 10 ^ width)
    (hb : b < 10 ^ width) (h : padded width a = padded width b) : a = b := by
  have hirrefl := List.lt_irrefl (padded width a)
  rcases lt_trichotomy a b with hlt | heq | hgt
  · exact absurd (by simpa [← h] using (padded_lt_iff hw ha hb).mpr hlt) hirrefl
  · exact heq
  · exact absurd (by simpa [← h] using (padded_lt_iff hw hb ha).mpr hgt) hirrefl

end Lib.Decimal
