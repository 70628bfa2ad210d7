import SharamLedger.Lib.I64
import SharamLedger.Lib.Numeral
import SharamLedger.Lib.Thousands

/-!
# Amounts on the pages

Two pages write amounts with a `fmt_money` of their own. They write the same text wherever both
answer, and the amount can be read back from it.
-/

namespace SharamLedger

open Lib Lib.Text Lib.Decimal

/-! ## The pages -/

/-- The text of an amount whose distance from zero is `abs`. -/
def moneyText (cents abs : Int) (currency : String) : String :=
  let sign := if cents < 0 then "-" else ""
  let major := abs.tdiv 100
  let minor := abs.tmod 100
  let grouped := (toString major).toList.reverse.zipIdx.foldl (Thousands.push ',' 3) []
  let majorStr := String.ofList grouped.reverse
  sign ++ majorStr ++ "." ++ String.ofList (paddedInt 2 minor) ++ " " ++ currency

/-- `fmt_money` of `pages/venture.rs`, which casts `unsigned_abs` back to a signed number. -/
def VenturePage.fmtMoney (cents : Int) (currency : String) : String :=
  moneyText cents (I64.wrap cents.natAbs) currency

/-- `fmt_money` of `pages/dashboard.rs`. `none` is the overflow of `abs`. -/
def DashboardPage.fmtMoney (cents : Int) (currency : String) : Option String :=
  (I64.checked cents.natAbs).map fun abs => moneyText cents abs currency

/-! ## What an amount looks like -/

/-- A sign for amounts below zero, the whole part in groups of three with a comma before each but
the first, a point, two digits, a blank and the currency. -/
def IsMoney (cents : Int) (currency : String) (text : List Char) : Prop :=
  ∃ (head : List Char) (groups : List (List Char)) (minor : List Char),
    text = (if cents < 0 then ['-'] else []) ++ (head ++ groups.flatMap (',' :: ·)) ++
        '.' :: minor ++ ' ' :: currency.toList ∧
      head ++ groups.flatten = (toString (cents.natAbs / 100)).toList ∧
      1 ≤ head.length ∧ head.length ≤ 3 ∧ (∀ g ∈ groups, g.length = 3) ∧
      (∀ c ∈ head ++ groups.flatten, c.isDigit = true) ∧
      minor.length = 2 ∧ ∀ c ∈ minor, c.isDigit = true

/-- A minus sign in front, and the rest. -/
def splitSign : List Char → Bool × List Char
  | '-' :: rest => (true, rest)
  | l => (false, l)

/-- Read an amount with two decimals in cents: the number in front of the first blank, without its
commas. -/
def readCents (text : List Char) : Option Int :=
  let (negative, number) := splitSign ((text.takeWhile (· != ' ')).filter (· != ','))
  (splitOnceChars ['.'] number).bind fun (whole, frac) =>
    (digitsValue whole).bind fun w =>
      ((digitsValue frac).filter fun _ => frac.length == 2).map fun f =>
        if negative then -((100 * w + f : Nat) : Int) else ((100 * w + f : Nat) : Int)

/-! ## Both pages -/

/-- The digits of the whole part. -/
def majorDigits (n : Nat) : List Char := Nat.toDigits 10 (n / 100)

theorem isDigits_majorDigits (n : Nat) : IsDigits (majorDigits n) :=
  ⟨Nat.toDigits_ne_nil, fun _ hc => Nat.isDigit_of_mem_toDigits (by omega) (by omega) hc⟩

theorem value_majorDigits (n : Nat) : value (majorDigits n) = n / 100 :=
  Nat.ofDigitChars_ten_toDigits

/-- A sign that is no digit is not among digits. -/
theorem not_mem_of_isDigit {l : List Char} {c : Char} (hl : ∀ d ∈ l, d.isDigit = true)
    (hc : c.isDigit = false) : c ∉ l := fun hmem => by
  rw [hl c hmem] at hc
  cases hc

/-- What stands in front of the currency, for the distance from zero. -/
def moneyFront (cents : Int) (n : Nat) : List Char :=
  (if cents < 0 then ['-'] else []) ++ Thousands.separated ',' 3 (majorDigits n) ++
    '.' :: padded 2 (n % 100)

theorem moneyText_toList (cents : Int) (n : Nat) (currency : String) :
    (moneyText cents n currency).toList = moneyFront cents n ++ ' ' :: currency.toList := by
  have hmajor : (n : Int).tdiv 100 = ((n / 100 : Nat) : Int) := rfl
  have hminor : (n : Int).tmod 100 = ((n % 100 : Nat) : Int) := rfl
  have hsign : (if cents < 0 then "-" else "").toList = if cents < 0 then ['-'] else [] := by
    split <;> rfl
  unfold moneyText
  simp only [hmajor, hminor, toList_toString_natCast, paddedInt_natCast, String.toList_append,
    String.toList_ofList, hsign]
  simp [moneyFront, majorDigits, Thousands.separated]

theorem isMoney_moneyText (cents : Int) (currency : String) :
    IsMoney cents currency (moneyText cents cents.natAbs currency).toList := by
  obtain ⟨hne, hdigits⟩ := isDigits_majorDigits cents.natAbs
  obtain ⟨head, groups, heq, hpos, hle, hgroups, hwritten⟩ :=
    @Thousands.separated_eq Char ',' 3 (by decide) _ hne
  rw [heq] at hdigits
  refine ⟨head, groups, padded 2 (cents.natAbs % 100), ?_, ?_, hpos, hle, hgroups, hdigits,
    length_padded (by omega) (by omega), (isDigits_padded 2 _).2⟩
  · rw [moneyText_toList, moneyFront, hwritten]
  · rw [← heq]
    exact Nat.toList_repr.symm

/-- Without the commas the front is a sign, the digits and the decimals. -/
theorem filter_moneyFront (cents : Int) (n : Nat) :
    (moneyFront cents n).filter (· != ',') =
      (if cents < 0 then ['-'] else []) ++ (majorDigits n ++ '.' :: padded 2 (n % 100)) := by
  have hmajor : ',' ∉ majorDigits n := not_mem_of_isDigit (isDigits_majorDigits n).2 (by decide)
  have hminor : (padded 2 (n % 100)).filter (· != ',') = padded 2 (n % 100) :=
    List.filter_eq_self.mpr fun c hc => bne_iff_ne.mpr fun heq =>
      not_mem_of_isDigit (isDigits_padded 2 (n % 100)).2 (c := ',') (by decide) (heq ▸ hc)
  have hsign : (if cents < 0 then ['-'] else []).filter (· != ',') =
      if cents < 0 then ['-'] else [] := by
    split <;> rfl
  have hpoint : ('.' :: padded 2 (n % 100)).filter (· != ',') = '.' :: padded 2 (n % 100) := by
    rw [List.filter_cons_of_pos (by decide), hminor]
  rw [moneyFront, List.filter_append, List.filter_append, hsign,
    Thousands.filter_separated hmajor, hpoint, List.append_assoc]

/-- There is no blank in the front. -/
theorem blank_not_mem_moneyFront (cents : Int) (n : Nat) : ' ' ∉ moneyFront cents n := by
  intro hmem
  have hkept : ' ' ∈ (moneyFront cents n).filter (· != ',') :=
    List.mem_filter.mpr ⟨hmem, by decide⟩
  rw [filter_moneyFront] at hkept
  rcases List.mem_append.mp hkept with h | h
  · split at h <;> simp at h
  · rcases List.mem_append.mp h with h | h
    · exact not_mem_of_isDigit (isDigits_majorDigits n).2 (by decide) h
    · rcases List.mem_cons.mp h with h | h
      · cases h
      · exact not_mem_of_isDigit (isDigits_padded 2 (n % 100)).2 (by decide) h

/-- The sign is told apart from the digits. -/
theorem splitSign_signed (cents : Int) {l : List Char} (h : ∀ c ∈ l.head?, c ≠ '-') :
    splitSign ((if cents < 0 then ['-'] else []) ++ l) = (decide (cents < 0), l) := by
  by_cases hneg : cents < 0
  · simp [hneg, splitSign]
  · rw [if_neg hneg, decide_eq_false hneg, List.nil_append]
    unfold splitSign
    split
    · exact absurd rfl (h '-' rfl)
    · rfl

/-- The amount is read back from what the pages write. -/
theorem readCents_moneyText (cents : Int) (currency : String) :
    readCents (moneyText cents cents.natAbs currency).toList = some cents := by
  generalize hn : cents.natAbs = n
  have hmajor := isDigits_majorDigits n
  have hminor := isDigits_padded 2 (n % 100)
  have hfront : (moneyText cents n currency).toList.takeWhile (· != ' ') =
      moneyFront cents n := by
    have hnone : ∀ c ∈ moneyFront cents n, (c != ' ') = true := fun c hc =>
      bne_iff_ne.mpr fun heq => blank_not_mem_moneyFront cents n (heq ▸ hc)
    rw [moneyText_toList, List.takeWhile_append_of_pos hnone,
      List.takeWhile_cons_of_neg (by decide), List.append_nil]
  have hhead : ∀ c ∈ (majorDigits n ++ '.' :: padded 2 (n % 100)).head?, c ≠ '-' := by
    intro c hc heq
    obtain ⟨d, rest, hd⟩ := List.exists_cons_of_ne_nil hmajor.1
    rw [hd, List.cons_append, List.head?_cons, Option.mem_some_iff] at hc
    have hdigit := hmajor.2 d (hd ▸ List.mem_cons_self)
    rw [hc, heq] at hdigit
    cases hdigit
  have hpoint : splitOnceChars ['.'] (majorDigits n ++ '.' :: padded 2 (n % 100)) =
      some (majorDigits n, padded 2 (n % 100)) :=
    splitOnceChars_eq_some.mpr ⟨not_mem_of_isDigit hmajor.2 (by decide), rfl⟩
  have hwhole : digitsValue (majorDigits n) = some (n / 100) :=
    digitsValue_eq_some.mpr ⟨hmajor, value_majorDigits n⟩
  have hfrac : digitsValue (padded 2 (n % 100)) = some (n % 100) :=
    digitsValue_eq_some.mpr ⟨hminor, value_padded 2 (n % 100)⟩
  have hlen : (padded 2 (n % 100)).length = 2 := length_padded (by omega) (by omega)
  have hsum : 100 * (n / 100) + n % 100 = n := Nat.div_add_mod n 100
  unfold readCents
  rw [hfront, filter_moneyFront, splitSign_signed cents hhead]
  simp only [hpoint, hwhole, hfrac, hlen, hsum, Option.bind_some, Option.filter_some,
    Option.map_some, beq_self_eq_true, if_true, decide_eq_true_eq, Option.some.injEq]
  split <;> omega

/-- Both pages write an amount in the same way, grouped by thousands, and it can be read back. -/
theorem fmtMoney_agree (cents : Int) (currency : String)
    (hcents : -(2 ^ 63 - 1) ≤ cents ∧ cents ≤ 2 ^ 63 - 1) :
    DashboardPage.fmtMoney cents currency = some (VenturePage.fmtMoney cents currency) ∧
      IsMoney cents currency (VenturePage.fmtMoney cents currency).toList ∧
      readCents (VenturePage.fmtMoney cents currency).toList = some cents := by
  have hfits : I64.Fits cents.natAbs := by
    unfold I64.Fits I64.maxValue
    omega
  have hpage : VenturePage.fmtMoney cents currency = moneyText cents cents.natAbs currency := by
    rw [VenturePage.fmtMoney, I64.wrap_of_fits hfits]
  rw [hpage]
  refine ⟨?_, isMoney_moneyText cents currency, readCents_moneyText cents currency⟩
  rw [DashboardPage.fmtMoney, I64.checked_of_fits hfits]
  rfl

/-- An overdraft of a little more than a million. -/
theorem fmtMoney_agree_overdraft :
    DashboardPage.fmtMoney (-123456789) "MYR" = some (VenturePage.fmtMoney (-123456789) "MYR") ∧
      IsMoney (-123456789) "MYR" (VenturePage.fmtMoney (-123456789) "MYR").toList ∧
      readCents (VenturePage.fmtMoney (-123456789) "MYR").toList = some (-123456789) :=
  fmtMoney_agree (-123456789) "MYR" (by decide)

end SharamLedger
