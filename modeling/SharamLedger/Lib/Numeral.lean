import SharamLedger.Lib.Ascii
import SharamLedger.Lib.Decimal
import SharamLedger.Lib.Text

/-!
# Numbers as text

Which texts the integer parsers of the standard library accept, and what they read. The parsers
take a sign and any number of leading zeros, so a number has many texts; a text of digits alone is
the padded numeral of its value (`padded_value`).
-/

namespace Lib.Text

open Decimal

/-- A row of ASCII digits, at least one. -/
def IsDigits (l : List Char) : Prop := l ≠ [] ∧ ∀ c ∈ l, c.isDigit = true

/-- The value of a row of digits. -/
def value (l : List Char) : Nat := Nat.ofDigitChars 10 l 0

/-! ## Digits -/

theorem utf8Size_of_isDigit {c : Char} (h : c.isDigit = true) : c.utf8Size = 1 := by
  have hrange := Ascii.isDigit_iff.mp h
  exact Ascii.utf8Size_of_ascii (by omega)

/-- A digit is the digit of some number below ten. -/
theorem exists_digitChar {c : Char} (h : c.isDigit = true) :
    ∃ k < 10, c = Nat.digitChar k ∧ c.toNat - '0'.toNat = k := by
  obtain ⟨hzero, hnine⟩ := Ascii.isDigit_iff.mp h
  have hchar : c = Char.ofNat c.toNat := (Char.ofNat_toNat c).symm
  generalize c.toNat = n at hzero hnine hchar
  subst hchar
  interval_cases n <;> decide

theorem value_append (l m : List Char) : value (l ++ m) = 10 ^ m.length * value l + value m := by
  unfold value
  rw [Nat.ofDigitChars_append, Nat.ofDigitChars_eq_ofDigitChars_zero]

theorem value_singleton {c : Char} : value [c] = c.toNat - '0'.toNat := by
  simp [value, Nat.ofDigitChars_cons]

/-- Digits below a width have a value below its power of ten. -/
theorem value_lt {l : List Char} (h : ∀ c ∈ l, c.isDigit = true) : value l < 10 ^ l.length := by
  induction l using List.reverseRecOn with
  | nil => decide
  | append_singleton l c ih =>
      obtain ⟨k, hk, -, hvalue⟩ := exists_digitChar (h c (by simp))
      have hfront := ih fun d hd => h d (by simp [hd])
      rw [value_append, value_singleton, hvalue, List.length_append, List.length_singleton, pow_one,
        pow_succ]
      omega

/-- A row of digits is the numeral of its value, padded to its own length. -/
theorem padded_value {l : List Char} (h : IsDigits l) : padded l.length (value l) = l := by
  obtain ⟨hne, hdigits⟩ := h
  induction l using List.reverseRecOn with
  | nil => exact absurd rfl hne
  | append_singleton l c ih =>
      obtain ⟨k, hk, hchar, hvalue⟩ := exists_digitChar (hdigits c (by simp))
      have hfront : ∀ d ∈ l, d.isDigit = true := fun d hd => hdigits d (by simp [hd])
      have hsum : value (l ++ [c]) = 10 * value l + k := by
        rw [value_append, value_singleton, hvalue, List.length_singleton, pow_one]
      rw [hsum, List.length_append, List.length_singleton]
      rcases List.eq_nil_or_concat' l with rfl | ⟨front, d, rfl⟩
      · have hzero : value [] = 0 := rfl
        rw [hzero, Nat.mul_zero, Nat.zero_add, List.length_nil, Nat.zero_add, padded_one hk, hchar]
        rfl
      · have hlen : 0 < (front ++ [d]).length := by simp
        have hlt := value_lt hfront
        rw [padded_succ hlen (by rw [pow_succ]; omega)]
        have hdiv : (10 * value (front ++ [d]) + k) / 10 = value (front ++ [d]) := by omega
        have hmod : (10 * value (front ++ [d]) + k) % 10 = k := by omega
        rw [hdiv, hmod, ih (by simp) hfront, hchar]

/-- The zeros in front of a numeral add nothing to it. -/
theorem value_padded (width n : Nat) : value (padded width n) = n := by
  rw [value, padded, Nat.ofDigitChars_append, Nat.ofDigitChars_replicate_zero, Nat.mul_zero,
    Nat.ofDigitChars_ten_toDigits]

theorem isDigits_padded (width n : Nat) : IsDigits (padded width n) := by
  refine ⟨fun hnil => ?_, fun c hc => isDigit_of_mem_padded hc⟩
  exact Nat.toDigits_ne_nil (List.append_eq_nil_iff.mp hnil).2

/-! ## The parsers -/

theorem digitsValue_eq_some {l : List Char} {n : Nat} :
    digitsValue l = some n ↔ IsDigits l ∧ value l = n := by
  unfold digitsValue IsDigits value
  simp only [List.all_eq_true]
  split
  · next h => exact Option.some_inj.trans ⟨fun hvalue => ⟨h, hvalue⟩, And.right⟩
  · next h => simp [h]

/-- The unsigned parser reads digits, with or without a plus sign. -/
theorem parseUnsigned_eq_some {hi n : Nat} {l : List Char} :
    parseUnsigned hi l = some n ↔
      ∃ d, (l = d ∨ l = '+' :: d) ∧ IsDigits d ∧ value d = n ∧ n ≤ hi := by
  unfold parseUnsigned
  simp only [Option.filter_eq_some_iff, decide_eq_true_eq]
  constructor
  · rintro ⟨hread, hle⟩
    split at hread
    · next rest =>
        obtain ⟨hdigits, hvalue⟩ := digitsValue_eq_some.mp hread
        exact ⟨rest, .inr rfl, hdigits, hvalue, hle⟩
    · obtain ⟨hdigits, hvalue⟩ := digitsValue_eq_some.mp hread
      exact ⟨l, .inl rfl, hdigits, hvalue, hle⟩
  · rintro ⟨d, hl, hdigits, hvalue, hle⟩
    refine ⟨?_, hle⟩
    rcases hl with rfl | rfl
    · split
      · -- a plus sign is no digit
        exact absurd (hdigits.2 '+' (by simp)) (by decide)
      · exact digitsValue_eq_some.mpr ⟨hdigits, hvalue⟩
    · exact digitsValue_eq_some.mpr ⟨hdigits, hvalue⟩

/-- The signed parser reads the same, and digits behind a minus sign. -/
theorem parseSigned_eq_some {hi : Nat} {n : Int} {l : List Char} :
    parseSigned hi l = some n ↔
      (∃ d, (l = d ∨ l = '+' :: d) ∧ IsDigits d ∧ value d ≤ hi ∧ n = value d) ∨
        ∃ d, l = '-' :: d ∧ IsDigits d ∧ value d ≤ hi + 1 ∧ n = -(value d : Int) := by
  unfold parseSigned
  split
  · next rest =>
      simp only [Option.map_eq_some_iff, Option.bind_eq_bind, Option.bind_eq_some_iff,
        Option.pure_def, Option.some.injEq, Option.filter_eq_some_iff, digitsValue_eq_some,
        decide_eq_true_eq]
      constructor
      · rintro ⟨-, ⟨m, ⟨⟨hdigits, rfl⟩, hle⟩, rfl⟩, rfl⟩
        exact .inr ⟨rest, rfl, hdigits, hle, rfl⟩
      · rintro (⟨d, rfl | heq, hdigits, -⟩ | ⟨d, heq, hdigits, hle, rfl⟩)
        · exact absurd (hdigits.2 '-' (by simp)) (by decide)
        · cases heq
        · cases heq
          exact ⟨_, ⟨_, ⟨⟨hdigits, rfl⟩, hle⟩, rfl⟩, rfl⟩
  · next hminus =>
      simp only [Option.map_eq_some_iff, Option.bind_eq_bind, Option.bind_eq_some_iff,
        Option.pure_def, Option.some.injEq, parseUnsigned_eq_some]
      constructor
      · rintro ⟨-, ⟨m, ⟨d, hl, hdigits, rfl, hle⟩, rfl⟩, rfl⟩
        exact .inl ⟨d, hl, hdigits, hle, rfl⟩
      · rintro (⟨d, hl, hdigits, hle, rfl⟩ | ⟨d, rfl, -⟩)
        · exact ⟨_, ⟨_, ⟨d, hl, hdigits, rfl, hle⟩, rfl⟩, rfl⟩
        · exact absurd rfl (hminus d)

/-- Digits with a value in a range, with a plus sign in front or not. -/
def Numeral (lo hi : Nat) (l : List Char) : Prop :=
  ∃ d, (l = d ∨ l = '+' :: d) ∧ IsDigits d ∧ lo ≤ value d ∧ value d ≤ hi

/-- The numerals of a range are what the unsigned parser reads as its numbers. -/
theorem numeral_iff {lo hi : Nat} {l : List Char} (bound : Nat) (hbound : hi ≤ bound) :
    Numeral lo hi l ↔ ∃ n, parseUnsigned bound l = some n ∧ lo ≤ n ∧ n ≤ hi := by
  simp only [parseUnsigned_eq_some]
  constructor
  · rintro ⟨d, hl, hdigits, hlo, hhi⟩
    exact ⟨value d, ⟨d, hl, hdigits, rfl, hhi.trans hbound⟩, hlo, hhi⟩
  · rintro ⟨n, ⟨d, hl, hdigits, rfl, -⟩, hlo, hhi⟩
    exact ⟨d, hl, hdigits, hlo, hhi⟩

/-- Without a minus sign the signed parser reads the numerals up to its bound. -/
theorem numeral_iff_signed {hi : Nat} {l : List Char} :
    Numeral 0 hi l ↔ '-' ∉ l ∧ ∃ n, parseSigned hi l = some n := by
  simp only [parseSigned_eq_some]
  constructor
  · rintro ⟨d, hl, hdigits, -, hhi⟩
    refine ⟨fun hmem => ?_, value d, .inl ⟨d, hl, hdigits, hhi, rfl⟩⟩
    have hdash : '-' ∉ d := fun hmem => absurd (hdigits.2 '-' hmem) (by decide)
    rcases hl with rfl | rfl
    · exact hdash hmem
    · simp [hdash] at hmem
  · rintro ⟨hdash, n, ⟨d, hl, hdigits, hhi, -⟩ | ⟨d, rfl, -⟩⟩
    · exact ⟨d, hl, hdigits, Nat.zero_le _, hhi⟩
    · exact absurd List.mem_cons_self hdash

/-! ## The first separator -/

/-- Splitting at a character finds its first occurrence. -/
theorem splitOnceChars_eq_some {c : Char} {l before after : List Char} :
    splitOnceChars [c] l = some (before, after) ↔ c ∉ before ∧ l = before ++ c :: after := by
  constructor
  · intro h
    induction l generalizing before with
    | nil => simp [splitOnceChars] at h
    | cons d l ih =>
        rw [splitOnceChars] at h
        split at h
        · next hprefix =>
            obtain ⟨rfl, -⟩ := List.cons_prefix_cons.mp (List.isPrefixOf_iff_prefix.mp hprefix)
            cases h
            simp
        · next hprefix =>
            obtain ⟨pair, hpair, heq⟩ := Option.map_eq_some_iff.mp h
            cases heq
            obtain ⟨hfree, rfl⟩ := ih hpair
            have hne : c ≠ d := fun heq => hprefix (by simp [heq])
            exact ⟨by simp [hne, hfree], rfl⟩
  · rintro ⟨hfree, rfl⟩
    have hmarker : ¬ ([] ++ [c]) <:+: before := fun h => hfree (h.subset (by simp))
    have hsplit := @splitOnceChars_marker [] before after c (by simp) hmarker
    simpa using hsplit

/-- Two splits at the first occurrence of a character are one. -/
theorem split_unique {c : Char} {before before' after after' : List Char} (h : c ∉ before)
    (h' : c ∉ before') (heq : before ++ c :: after = before' ++ c :: after') :
    before = before' ∧ after = after' := by
  have hfirst : splitOnceChars [c] (before' ++ c :: after') = some (before, after) :=
    splitOnceChars_eq_some.mpr ⟨h, heq.symm⟩
  rw [splitOnceChars_eq_some.mpr ⟨h', rfl⟩] at hfirst
  cases hfirst
  exact ⟨rfl, rfl⟩

/-- A text without the character is not split. -/
theorem splitOnceChars_eq_none {c : Char} {l : List Char} :
    splitOnceChars [c] l = none ↔ c ∉ l := by
  constructor
  · intro h hmem
    obtain ⟨before, after, rfl, hfree⟩ := List.eq_append_cons_of_mem hmem
    rw [splitOnceChars_eq_some.mpr ⟨hfree, rfl⟩] at h
    cases h
  · intro hfree
    exact splitOnceChars_none fun h => hfree (h.subset (by simp))

/-! ## Bytes -/

/-- Digits, signs and letters of ASCII take one byte each. -/
theorem utf8ByteSize_of_ascii {s : String} (h : ∀ c ∈ s.toList, c.utf8Size = 1) :
    s.utf8ByteSize = s.toList.length := by
  have hbytes := utf8ByteSize_ofList h
  rwa [String.ofList_toList] at hbytes

end Lib.Text
