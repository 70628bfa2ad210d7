import SharamLedger.Lib.I64
import SharamLedger.Lib.Numeral
import SharamLedger.Lib.Utf8

/-!
# Amounts on the create page

The form of `sharam-ui/src/pages/create_tenant.rs` turns the texts of its fields into cents and
checks dates. `parseDuesToCents` reads a plain decimal as its value, and puts up with a sign in two
places where its parts go through the parser of signed integers.
-/

namespace SharamLedger

open Lib Lib.Text

namespace CreatePage

/-! ## The page -/

/-- One part of an amount as a number. -/
def parseNumber (l : List Char) : Except String Int :=
  match parseSigned (2 ^ 63 - 1) l with
  | some n => .ok n
  | none => .error "Dues amount must be a number."

/-- `{:0<2}`: zeros behind the text up to two characters. -/
def padFrac (l : List Char) : List Char := l ++ List.replicate (2 - l.length) '0'

/-- `whole_n`. -/
def wholePart (whole : List Char) : Except String Int :=
  if whole.isEmpty then .ok 0 else parseNumber whole

/-- `frac_n`. -/
def fracPart (frac : List Char) : Except String Int :=
  let fracPadded := padFrac frac
  if fracPadded.isEmpty then .ok 0 else parseNumber fracPadded

/-- What is made of the parts before and behind the first point. -/
def centsOfParts (whole frac : List Char) : Except String Int :=
  if 2 < (bytes frac).length then .error "Dues amount supports at most 2 decimal places."
  else do
    let wholeN ← wholePart whole
    let fracN ← fracPart frac
    match (I64.checkedMul wholeN 100).bind fun w => I64.checkedAdd w fracN with
    | some cents => .ok cents
    | none => .error "Dues amount is too large."

/-- `parse_dues_to_cents`. -/
def parseDuesToCents (s : String) : Except String Int :=
  if s.isEmpty then .ok 0
  else if startsWith s "-" then .error "Dues amount cannot be negative."
  else
    match splitOnceChars ['.'] s.toList with
    | some (whole, frac) => centsOfParts whole frac
    | none => centsOfParts s.toList []

/-- What the form makes of the text in its dues field. -/
def duesCents (dues : String) : Except String Int := parseDuesToCents (trim dues)

/-- `is_iso_date`: the dashes are found by byte, the digits by character. -/
def isIsoDate (s : String) : Bool :=
  if (bytes s.toList).length ≠ 10 then false
  else if (bytes s.toList)[4]? ≠ some 45 ∨ (bytes s.toList)[7]? ≠ some 45 then false
  else s.toList.zipIdx.all fun c => c.2 == 4 || c.2 == 7 || c.1.isDigit

/-! ## The texts that are read -/

/-- Digits before the point, none at all, or some behind a plus sign. -/
inductive Whole : List Char → Int → Prop
  | digits (w : List Char) : (∀ c ∈ w, c.isDigit = true) → Whole w (value w)
  | plus (w : List Char) : IsDigits w → Whole ('+' :: w) (value w)

/-- At most two digits behind the point, or a sign in place of the first. -/
inductive Frac : List Char → Int → Prop
  | digits (f : List Char) : (∀ c ∈ f, c.isDigit = true) → f.length ≤ 2 →
      Frac f (value (padFrac f))
  | plus (f : List Char) : (∀ c ∈ f, c.isDigit = true) → f.length ≤ 1 → Frac ('+' :: f) (value f)
  | minus (f : List Char) : (∀ c ∈ f, c.isDigit = true) → f.length ≤ 1 →
      Frac ('-' :: f) (-(value f : Int))

/-- An amount and its cents. -/
inductive Amount : List Char → Int → Prop
  | whole (w : List Char) (n : Int) : Whole w n → Amount w (100 * n)
  | point (w f : List Char) (n m : Int) : Whole w n → Frac f m →
      Amount (w ++ '.' :: f) (100 * n + m)

theorem parseNumber_eq_ok {l : List Char} {n : Int} :
    parseNumber l = .ok n ↔ parseSigned (2 ^ 63 - 1) l = some n := by
  unfold parseNumber
  split
  · next m hm => rw [hm, Except.ok.injEq, Option.some.injEq]
  · next hnone => simp only [hnone, reduceCtorEq]

theorem Whole.nonneg {w : List Char} {n : Int} (h : Whole w n) : 0 ≤ n := by
  cases h <;> exact Int.natCast_nonneg _

/-- The part before the point, as the form reads it when no minus sign leads the text. -/
theorem whole_iff {w : List Char} {n : Int} (hminus : ∀ rest, w ≠ '-' :: rest) :
    wholePart w = .ok n ↔ Whole w n ∧ n ≤ 2 ^ 63 - 1 := by
  unfold wholePart
  cases w with
  | nil =>
      have hzero : (value [] : Int) = 0 := rfl
      rw [List.isEmpty_nil, if_pos rfl, Except.ok.injEq]
      constructor
      · rintro rfl
        exact ⟨hzero ▸ .digits [] (by simp), by decide⟩
      · rintro ⟨hread, -⟩
        cases hread
        exact hzero.symm
  | cons c w =>
      rw [List.isEmpty_cons, if_neg Bool.false_ne_true, parseNumber_eq_ok, parseSigned_eq_some]
      constructor
      · rintro (⟨d, rfl | heq, hdigits, hle, rfl⟩ | ⟨d, heq, -⟩)
        · exact ⟨.digits _ hdigits.2, by omega⟩
        · exact ⟨heq ▸ .plus d hdigits, by omega⟩
        · exact absurd heq (hminus d)
      · rintro ⟨hread, hle⟩
        cases hread with
        | digits _ hdigits => exact .inl ⟨_, .inl rfl, ⟨by simp, hdigits⟩, by omega, rfl⟩
        | plus _ hdigits => exact .inl ⟨_, .inr rfl, hdigits, by omega, rfl⟩

/-- A sign in front of the fraction leaves room for one digit, which counts as cents. -/
theorem value_behind_sign {f : List Char} (h : f.length ≤ 1) :
    value (f ++ List.replicate (1 - f.length) '0') = value f := by
  match f, h with
  | [], _ => decide
  | [c], _ => rfl

theorem padFrac_cons (c : Char) (f : List Char) :
    padFrac (c :: f) = c :: (f ++ List.replicate (1 - f.length) '0') := by
  have hroom : 2 - (f.length + 1) = 1 - f.length := by omega
  rw [padFrac, List.length_cons, hroom]
  rfl

/-- Digits stay digits when zeros are put behind them. -/
theorem digits_padded_iff {f : List Char} {k : Nat} :
    (∀ c ∈ f ++ List.replicate k '0', c.isDigit = true) ↔ ∀ c ∈ f, c.isDigit = true := by
  have hzero : ∀ c ∈ List.replicate k '0', c.isDigit = true := fun c hc => by
    rw [List.eq_of_mem_replicate hc]
    rfl
  rw [List.forall_mem_append]
  exact and_iff_left hzero

/-- One-byte characters, a digit each. -/
theorem length_bytes_of_digits {l : List Char} (h : ∀ c ∈ l, c.isDigit = true) :
    (bytes l).length = l.length :=
  length_bytes_of_ascii fun c hc => utf8Size_of_isDigit (h c hc)

/-- A padded fraction goes through the parser. -/
theorem fracPart_eq_ok {f : List Char} {m : Int} :
    fracPart f = .ok m ↔ parseSigned (2 ^ 63 - 1) (padFrac f) = some m := by
  have hpadded : (padFrac f).isEmpty = false := by
    rw [List.isEmpty_eq_false_iff, ← List.length_pos_iff, padFrac, List.length_append,
      List.length_replicate]
    omega
  have hpart : fracPart f = parseNumber (padFrac f) := by
    simp only [fracPart, hpadded, Bool.false_eq_true, if_false]
  rw [hpart, parseNumber_eq_ok]

/-- A sign that leads the padded text leads the text itself, with at most one digit behind it. -/
theorem sign_of_padFrac {f d : List Char} {sign : Char} (hlen : f.length ≤ 2) (hzero : sign ≠ '0')
    (h : padFrac f = sign :: d) (hd : IsDigits d) :
    ∃ rest, f = sign :: rest ∧ (∀ c ∈ rest, c.isDigit = true) ∧ rest.length ≤ 1 ∧
      value d = value rest := by
  cases f with
  | nil => exact absurd (List.cons.inj h).1.symm hzero
  | cons c rest =>
      rw [padFrac_cons] at h
      obtain ⟨rfl, rfl⟩ := List.cons.inj h
      have hshort : rest.length ≤ 1 := Nat.le_of_succ_le_succ hlen
      exact ⟨rest, rfl, digits_padded_iff.mp hd.2, hshort, value_behind_sign hshort⟩

/-- Digits and zeros behind them up to one or two places are a number below 100. -/
theorem small_padded {l : List Char} {k : Nat} (hl : ∀ c ∈ l, c.isDigit = true) (hk : 0 < k)
    (hlen : l.length ≤ k) (hk2 : k ≤ 2) :
    IsDigits (l ++ List.replicate (k - l.length) '0') ∧
      value (l ++ List.replicate (k - l.length) '0') ≤ 99 := by
  have hdigits := digits_padded_iff (k := k - l.length).mpr hl
  have hlong : (l ++ List.replicate (k - l.length) '0').length = k := by
    rw [List.length_append, List.length_replicate]
    omega
  have hlt := value_lt hdigits
  have hpow : 10 ^ k ≤ 10 ^ 2 := Nat.pow_le_pow_right (by decide) hk2
  rw [hlong] at hlt
  exact ⟨⟨List.length_pos_iff.mp (by rwa [hlong]), hdigits⟩, by omega⟩

/-- The part behind the point, as the form reads it. -/
theorem frac_iff {f : List Char} {m : Int} :
    (bytes f).length ≤ 2 ∧ fracPart f = .ok m ↔ Frac f m := by
  rw [fracPart_eq_ok, parseSigned_eq_some]
  constructor
  · rintro ⟨hbytes, hread⟩
    have hlen := (length_le_bytes f).trans hbytes
    rcases hread with ⟨d, hd | hd, hdigits, -, rfl⟩ | ⟨d, hd, hdigits, -, rfl⟩
    · rw [← hd] at hdigits ⊢
      exact .digits f (digits_padded_iff.mp hdigits.2) hlen
    · obtain ⟨rest, rfl, hrest, hshort, hvalue⟩ := sign_of_padFrac hlen (by decide) hd hdigits
      rw [hvalue]
      exact .plus rest hrest hshort
    · obtain ⟨rest, rfl, hrest, hshort, hvalue⟩ := sign_of_padFrac hlen (by decide) hd hdigits
      rw [hvalue]
      exact .minus rest hrest hshort
  · intro h
    cases h with
    | digits _ hf hlen =>
        obtain ⟨hdigits, hle⟩ := small_padded hf (by decide) hlen (le_refl 2)
        have hvalue : value (padFrac f) ≤ 99 := hle
        exact ⟨(length_bytes_of_digits hf).le.trans hlen,
          .inl ⟨_, .inl rfl, hdigits, by omega, rfl⟩⟩
    | plus rest hrest hlen =>
        obtain ⟨hdigits, hle⟩ := small_padded hrest (by decide) hlen (by decide)
        rw [padFrac_cons, ← value_behind_sign hlen, bytes_cons, List.length_append,
          length_bytes_of_digits hrest]
        exact ⟨Nat.add_le_add_left hlen 1, .inl ⟨_, .inr rfl, hdigits, by omega, rfl⟩⟩
    | minus rest hrest hlen =>
        obtain ⟨hdigits, hle⟩ := small_padded hrest (by decide) hlen (by decide)
        rw [padFrac_cons, ← value_behind_sign hlen, bytes_cons, List.length_append,
          length_bytes_of_digits hrest]
        exact ⟨Nat.add_le_add_left hlen 1, .inr ⟨_, rfl, hdigits, by omega, rfl⟩⟩

/-- Cents below the whole units. -/
theorem Frac.bounds {f : List Char} {m : Int} (h : Frac f m) : -9 ≤ m ∧ m ≤ 99 := by
  cases h with
  | digits f hf hlen =>
      have hsmall : value (padFrac f) ≤ 99 := (small_padded hf (by decide) hlen (le_refl 2)).2
      omega
  | plus rest hrest hlen | minus rest hrest hlen =>
      have hlt := value_lt hrest
      have hpow := Nat.pow_le_pow_right (n := 10) (by decide) hlen
      omega

/-- A fraction does not make up for whole units that leave the range. -/
theorem checked_cents {n m c : Int} (hn : 0 ≤ n) (hm : -9 ≤ m ∧ m ≤ 99) :
    ((I64.checkedMul n 100).bind fun w => I64.checkedAdd w m) = some c ↔
      I64.Fits c ∧ c = 100 * n + m := by
  simp only [Option.bind_eq_some_iff, I64.checkedMul, I64.checkedAdd, I64.checked_eq_some]
  constructor
  · rintro ⟨w, ⟨-, rfl⟩, hfits, rfl⟩
    exact ⟨hfits, by omega⟩
  · rintro ⟨hfits, rfl⟩
    refine ⟨n * 100, ⟨?_, rfl⟩, ?_, by omega⟩
    · unfold I64.Fits I64.maxValue at hfits ⊢
      omega
    · rwa [Int.mul_comm]

theorem centsOfParts_eq_ok {w f : List Char} {c : Int} (hminus : ∀ rest, w ≠ '-' :: rest) :
    centsOfParts w f = .ok c ↔
      (∃ n m, Whole w n ∧ Frac f m ∧ c = 100 * n + m) ∧ I64.Fits c := by
  unfold centsOfParts
  constructor
  · intro h
    split at h
    · cases h
    · next hlen =>
        cases hw : wholePart w with
        | error e => simp [hw, bind, Except.bind] at h
        | ok n =>
            cases hf : fracPart f with
            | error e => simp [hw, hf, bind, Except.bind] at h
            | ok m =>
                simp only [hw, hf, bind, Except.bind] at h
                split at h
                · next cents hcents =>
                    cases h
                    obtain ⟨hwhole, -⟩ := (whole_iff hminus).mp hw
                    have hfrac := frac_iff.mp ⟨Nat.le_of_not_lt hlen, hf⟩
                    obtain ⟨hfits, hsum⟩ := (checked_cents hwhole.nonneg hfrac.bounds).mp hcents
                    exact ⟨⟨n, m, hwhole, hfrac, hsum⟩, hfits⟩
                · cases h
  · rintro ⟨⟨n, m, hwhole, hfrac, hsum⟩, hfits⟩
    obtain ⟨hlen, hf⟩ := frac_iff.mpr hfrac
    have hcents := (checked_cents hwhole.nonneg hfrac.bounds).mpr ⟨hfits, hsum⟩
    have hroom : n ≤ 2 ^ 63 - 1 := by
      have hbounds := hfrac.bounds
      unfold I64.Fits I64.maxValue at hfits
      omega
    have hw := (whole_iff hminus).mpr ⟨hwhole, hroom⟩
    rw [if_neg (Nat.not_lt.mpr hlen)]
    simp only [hw, hf, hcents, bind, Except.bind]

theorem Whole.chars {w : List Char} {n : Int} (h : Whole w n) :
    ∀ c ∈ w, c.isDigit = true ∨ c = '+' := by
  cases h with
  | digits _ hdigits => exact fun c hc => .inl (hdigits c hc)
  | plus _ hdigits =>
      intro c hc
      rcases List.mem_cons.mp hc with rfl | hc
      · exact .inr rfl
      · exact .inl (hdigits.2 c hc)

theorem Whole.no_minus {w : List Char} {n : Int} (h : Whole w n) : '-' ∉ w := fun hmem => by
  rcases h.chars '-' hmem with hdigit | heq
  · cases hdigit
  · cases heq

theorem Whole.no_point {w : List Char} {n : Int} (h : Whole w n) : '.' ∉ w := fun hmem => by
  rcases h.chars '.' hmem with hdigit | heq
  · cases hdigit
  · cases heq

theorem frac_nil {m : Int} : Frac [] m ↔ m = 0 := by
  have hzero : (value (padFrac []) : Int) = 0 := by decide
  constructor
  · intro h
    cases h
    exact hzero
  · rintro rfl
    exact hzero ▸ .digits [] (by simp) (by decide)

/-- An amount without a point is its whole part. -/
theorem amount_of_no_point {l : List Char} {c : Int} (hpoint : '.' ∉ l) :
    Amount l c ↔ ∃ n m, Whole l n ∧ Frac [] m ∧ c = 100 * n + m := by
  simp only [frac_nil]
  constructor
  · rintro (⟨_, n, hw⟩ | ⟨w, f, n, m, hw, hf⟩)
    · exact ⟨n, 0, hw, rfl, (Int.add_zero _).symm⟩
    · simp at hpoint
  · rintro ⟨n, m, hw, rfl, rfl⟩
    rw [Int.add_zero]
    exact .whole l n hw

/-- An amount with a point has its parts on both sides of the first one. -/
theorem amount_of_point {w f : List Char} {c : Int} (hpoint : '.' ∉ w) :
    Amount (w ++ '.' :: f) c ↔ ∃ n m, Whole w n ∧ Frac f m ∧ c = 100 * n + m := by
  constructor
  · intro h
    generalize hl : w ++ '.' :: f = l at h
    cases h with
    | whole _ n hw => exact absurd (hl ▸ by simp : '.' ∈ l) hw.no_point
    | point w' f' n m hw hf =>
        obtain ⟨rfl, rfl⟩ := split_unique hpoint hw.no_point hl
        exact ⟨n, m, hw, hf, rfl⟩
  · rintro ⟨n, m, hw, hf, rfl⟩
    exact .point w f n m hw hf

/-- No amount is led by a minus sign. -/
theorem Amount.no_minus {l rest : List Char} {c : Int} (h : Amount l c) : l ≠ '-' :: rest := by
  rintro rfl
  generalize hl : '-' :: rest = l at h
  cases h with
  | whole _ n hw => exact hw.no_minus (hl ▸ List.mem_cons_self)
  | point w f n m hw hf =>
      cases w with
      | nil => cases hl
      | cons d w =>
          obtain ⟨rfl, -⟩ := List.cons.inj hl
          exact hw.no_minus List.mem_cons_self

/-- The form takes the amounts that fit 64 bits, and no other text. -/
theorem parseDuesToCents_eq_ok {s : String} {c : Int} :
    parseDuesToCents s = .ok c ↔ Amount s.toList c ∧ I64.Fits c := by
  have hzero : (value [] : Int) = 0 := rfl
  unfold parseDuesToCents
  split
  · next hempty =>
      have hl : s.toList = [] := by simpa using hempty
      rw [hl, amount_of_no_point List.not_mem_nil, Except.ok.injEq]
      constructor
      · rintro rfl
        exact ⟨⟨0, 0, hzero ▸ .digits [] (by simp), frac_nil.mpr rfl, rfl⟩, by decide⟩
      · rintro ⟨⟨n, m, hw, hf, rfl⟩, -⟩
        cases hw
        rw [frac_nil.mp hf, hzero]
        rfl
  · split
    · next hminus =>
        obtain ⟨rest, hrest⟩ := List.isPrefixOf_iff_prefix.mp hminus
        simp only [reduceCtorEq, false_iff]
        exact fun h => h.1.no_minus hrest.symm
    · next hminus =>
        have hminus : ∀ rest, s.toList ≠ '-' :: rest := fun rest hl =>
          hminus (List.isPrefixOf_iff_prefix.mpr ⟨rest, hl.symm⟩)
        split
        · next w f hsplit =>
            obtain ⟨hpoint, hl⟩ := splitOnceChars_eq_some.mp hsplit
            have hw : ∀ rest, w ≠ '-' :: rest := fun rest hw =>
              hminus (rest ++ '.' :: f) (by rw [hl, hw]; rfl)
            rw [hl, amount_of_point hpoint]
            exact centsOfParts_eq_ok hw
        · next hsplit =>
            rw [amount_of_no_point (splitOnceChars_eq_none.mp hsplit)]
            exact centsOfParts_eq_ok hminus

/-! ## Plain decimals -/

/-- Digits, and perhaps a point with at most two more, with their value in cents. -/
inductive Plain : List Char → Int → Prop
  | whole (w : List Char) : (∀ c ∈ w, c.isDigit = true) → Plain w (100 * value w)
  | point (w f : List Char) : (∀ c ∈ w, c.isDigit = true) → (∀ c ∈ f, c.isDigit = true) →
      f.length ≤ 2 → Plain (w ++ '.' :: f) (100 * value w + 10 ^ (2 - f.length) * value f)

/-- An amount with a sign, before its whole units or in place of the first digit behind the point,
and its cents. -/
inductive Signed : List Char → Int → Prop
  | whole (w : List Char) : IsDigits w → Signed ('+' :: w) (100 * value w)
  | point (w f : List Char) (m : Int) : IsDigits w → Frac f m →
      Signed ('+' :: w ++ '.' :: f) (100 * value w + m)
  | plus (w f : List Char) (n : Int) : Whole w n → (∀ c ∈ f, c.isDigit = true) → f.length ≤ 1 →
      Signed (w ++ '.' :: '+' :: f) (100 * n + value f)
  | minus (w f : List Char) (n : Int) : Whole w n → (∀ c ∈ f, c.isDigit = true) →
      f.length ≤ 1 → Signed (w ++ '.' :: '-' :: f) (100 * n - value f)

/-- The text is read as a plain decimal, or not at all. -/
structure Exact (s : String) : Prop where
  reads : ∀ c, parseDuesToCents s = .ok c ↔ Plain s.toList c ∧ I64.Fits c
  nonneg : ∀ c, parseDuesToCents s = .ok c → 0 ≤ c

theorem value_padFrac {f : List Char} : value (padFrac f) = 10 ^ (2 - f.length) * value f := by
  rw [padFrac, value_append, List.length_replicate, Nat.add_eq_left, value,
    Nat.ofDigitChars_replicate_zero, Nat.mul_zero]

theorem Plain.amount {l : List Char} {c : Int} (h : Plain l c) : Amount l c := by
  cases h with
  | whole _ hw => exact .whole l _ (.digits l hw)
  | point w f hw hf hlen =>
      have hfrac := Frac.digits f hf hlen
      rw [value_padFrac] at hfrac
      exact_mod_cast Amount.point w f _ _ (.digits w hw) hfrac

theorem Plain.no_sign {l : List Char} {c : Int} (h : Plain l c) : '+' ∉ l ∧ '-' ∉ l := by
  have hsigns : ∀ {l : List Char}, (∀ c ∈ l, c.isDigit = true) → '+' ∉ l ∧ '-' ∉ l := fun h =>
    ⟨fun hmem => absurd (h _ hmem) (by decide), fun hmem => absurd (h _ hmem) (by decide)⟩
  cases h with
  | whole _ hw => exact hsigns hw
  | point w f hw hf _ => simp [hsigns hw, hsigns hf]

theorem Plain.nonneg {l : List Char} {c : Int} (h : Plain l c) : 0 ≤ c := by
  cases h with
  | whole _ _ => omega
  | point w f _ _ _ =>
      have hfrac : 0 ≤ (10 : Int) ^ (2 - f.length) * value f := by positivity
      omega

theorem Signed.amount {l : List Char} {c : Int} (h : Signed l c) :
    Amount l c ∧ ('+' ∈ l ∨ '-' ∈ l) := by
  cases h with
  | whole w hw => exact ⟨.whole _ _ (.plus w hw), by simp⟩
  | point w f m hw hf => exact ⟨.point _ f _ m (.plus w hw) hf, by simp⟩
  | plus w f n hw hf hlen => exact ⟨.point w _ n _ hw (.plus f hf hlen), by simp⟩
  | minus w f n hw hf hlen => exact ⟨.point w _ n _ hw (.minus f hf hlen), by simp⟩

/-- An amount has a sign in it or is plain. -/
theorem Amount.signed_or_plain {l : List Char} {c : Int} (h : Amount l c) :
    Signed l c ∨ Plain l c := by
  cases h with
  | whole _ n hw =>
      cases hw with
      | digits _ hw => exact .inr (.whole l hw)
      | plus w hw => exact .inl (.whole w hw)
  | point w f n m hw hf =>
      cases hw with
      | plus w hw => exact .inl (.point w f m hw hf)
      | digits _ hw =>
          cases hf with
          | plus f hf hlen => exact .inl (.plus w f _ (.digits w hw) hf hlen)
          | minus f hf hlen => exact .inl (.minus w f _ (.digits w hw) hf hlen)
          | digits _ hf hlen =>
              right
              rw [value_padFrac]
              exact_mod_cast Plain.point w f hw hf hlen

/-- For every text. -/
theorem exact_iff_unsigned (s : String) : Exact s ↔ ∀ c, Signed s.toList c → ¬ I64.Fits c := by
  constructor
  · intro hexact c hsigned hfits
    obtain ⟨hamount, hsign⟩ := hsigned.amount
    obtain ⟨hplus, hminus⟩ :=
      ((hexact.reads c).mp (parseDuesToCents_eq_ok.mpr ⟨hamount, hfits⟩)).1.no_sign
    exact hsign.elim hplus hminus
  · intro hunsigned
    have hreads : ∀ c, parseDuesToCents s = .ok c ↔ Plain s.toList c ∧ I64.Fits c := by
      intro c
      rw [parseDuesToCents_eq_ok]
      constructor
      · rintro ⟨hamount, hfits⟩
        rcases hamount.signed_or_plain with hsigned | hplain
        · exact absurd hfits (hunsigned c hsigned)
        · exact ⟨hplain, hfits⟩
      · rintro ⟨hplain, hfits⟩
        exact ⟨hplain.amount, hfits⟩
    exact ⟨hreads, fun c hc => ((hreads c).mp hc).1.nonneg⟩

/-- A minus sign behind the point takes five cents from nothing. -/
theorem minus_five_cents : parseDuesToCents ".-5" = .ok (-5) ∧ ¬ Exact ".-5" := by
  have hread : parseDuesToCents ".-5" = .ok (-5) := by decide
  exact ⟨hread, fun h => absurd (h.nonneg _ hread) (by decide)⟩

end CreatePage

end SharamLedger
