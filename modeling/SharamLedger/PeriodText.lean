import SharamLedger.CurrentPeriod
import SharamLedger.Gateway.Contributions
import SharamLedger.Schema.Patterns
import SharamLedger.Sample

/-!
# Reading and writing periods

`Period::from_str`, `Display` and the period patterns of the schema. Every text of the schema is
read as the period that prints it, and every period prints as the pattern of its own cadence. The
parser reads more than the patterns match: signs, and numbers with too few or too many digits.
-/

namespace SharamLedger

open Lib Lib.Decimal Lib.Text

namespace Period

/-! ## The parser -/

/-- What the parser makes of a text. -/
inductive Parsed (s : String) : Period → Prop
  | yearly (year : Int) : s.utf8ByteSize = 4 → parseSigned (2 ^ 31 - 1) s.toList = some year →
      Parsed s (.yearly year)
  | weekly (y w : List Char) (year : Int) (week : Nat) : s.utf8ByteSize ≠ 4 → '-' ∉ y →
      s.toList = y ++ '-' :: 'W' :: w → parseSigned (2 ^ 31 - 1) y = some year →
      parseUnsigned 255 w = some week → 1 ≤ week ∧ week ≤ 53 → Parsed s (.weekly year week)
  | monthly (y m : List Char) (year : Int) (month : Nat) : s.utf8ByteSize ≠ 4 → '-' ∉ y →
      s.toList = y ++ '-' :: m → parseSigned (2 ^ 31 - 1) y = some year →
      parseUnsigned 255 m = some month → 1 ≤ month ∧ month ≤ 12 → Parsed s (.monthly year month)

theorem newWeekly_eq_ok {year : Int} {week : Nat} {p : Period} :
    newWeekly year week = .ok p ↔ (1 ≤ week ∧ week ≤ 53) ∧ p = .weekly year week := by
  unfold newWeekly
  split
  · next h => simp [h, eq_comm]
  · next h => simp [h]

theorem newMonthly_eq_ok {year : Int} {month : Nat} {p : Period} :
    newMonthly year month = .ok p ↔ (1 ≤ month ∧ month ≤ 12) ∧ p = .monthly year month := by
  unfold newMonthly
  split
  · next h => simp [h, eq_comm]
  · next h => simp [h]

/-- A month's text does not start like a week's. -/
theorem not_week_of_parseUnsigned {hi n : Nat} {l w : List Char}
    (h : parseUnsigned hi l = some n) : l ≠ 'W' :: w := by
  rintro rfl
  obtain ⟨d, heq | heq, hdigits, -⟩ := parseUnsigned_eq_some.mp h
  · exact absurd (hdigits.2 'W' (heq ▸ List.mem_cons_self)) (by decide)
  · cases heq

theorem parsed_of_fromStr {s : String} {p : Period} (h : fromStr s = .ok p) : Parsed s p := by
  unfold fromStr at h
  split at h
  · next hlen =>
      split at h
      · next year hyear =>
          cases h
          exact .yearly year hlen hyear
      · cases h
  · next hlen =>
      split at h
      · cases h
      · next y rest hsplit =>
          obtain ⟨hdash, hs⟩ := splitOnceChars_eq_some.mp hsplit
          split at h
          · cases h
          · next year hyear =>
              split at h
              · next w =>
                  split at h
                  · next week hweek =>
                      obtain ⟨hrange, rfl⟩ := newWeekly_eq_ok.mp h
                      exact .weekly y w year week hlen hdash hs hyear hweek hrange
                  · cases h
              · split at h
                · next month hmonth =>
                    obtain ⟨hrange, rfl⟩ := newMonthly_eq_ok.mp h
                    exact .monthly y rest year month hlen hdash hs hyear hmonth hrange
                · cases h

theorem fromStr_of_parsed {s : String} {p : Period} (h : Parsed s p) : fromStr s = .ok p := by
  unfold fromStr
  cases h with
  | yearly year hlen hyear => rw [if_pos hlen, hyear]
  | weekly y w year week hlen hdash hs hyear hweek hrange =>
      have hsplit := splitOnceChars_eq_some.mpr ⟨hdash, hs⟩
      simp only [if_neg hlen, hsplit, hyear, hweek]
      exact newWeekly_eq_ok.mpr ⟨hrange, rfl⟩
  | monthly y m year month hlen hdash hs hyear hmonth hrange =>
      have hsplit := splitOnceChars_eq_some.mpr ⟨hdash, hs⟩
      simp only [if_neg hlen, hsplit, hyear]
      split
      · next w => exact absurd rfl (not_week_of_parseUnsigned hmonth)
      · simp only [hmonth]
        exact newMonthly_eq_ok.mpr ⟨hrange, rfl⟩

theorem fromStr_eq_ok {s : String} {p : Period} : fromStr s = .ok p ↔ Parsed s p :=
  ⟨parsed_of_fromStr, fromStr_of_parsed⟩

/-! ## What is written -/

/-- A period as the constructors check it. -/
def Valid : Period → Prop
  | weekly _ week => 1 ≤ week ∧ week ≤ 53
  | monthly _ month => 1 ≤ month ∧ month ≤ 12
  | yearly _ => True

/-- What `Period::weekly`, `Period::monthly` and `Period::yearly` return. -/
inductive Built : Period → Prop
  | weekly {year : Int} {week : Nat} {p : Period} : newWeekly year week = .ok p → Built p
  | monthly {year : Int} {month : Nat} {p : Period} : newMonthly year month = .ok p → Built p
  | yearly (year : Int) : Built (.yearly year)

theorem Built.valid {p : Period} (h : Built p) : p.Valid := by
  cases h with
  | weekly h =>
      obtain ⟨hrange, rfl⟩ := newWeekly_eq_ok.mp h
      exact hrange
  | monthly h =>
      obtain ⟨hrange, rfl⟩ := newMonthly_eq_ok.mp h
      exact hrange
  | yearly => trivial

/-- The parser goes through the constructors. -/
theorem valid_of_fromStr {s : String} {p : Period} (h : fromStr s = .ok p) : p.Valid := by
  cases fromStr_eq_ok.mp h with
  | yearly => trivial
  | weekly _ _ _ _ _ _ _ _ _ hrange | monthly _ _ _ _ _ _ _ _ _ hrange => exact hrange

/-- So are the periods that calendar days fall in. -/
theorem valid_ofDay (c : Cadence) (day : Int) : (ofDay c day).Valid := by
  cases c with
  | weekly =>
      have := Calendar.isoWeek_bounds day
      simp only [ofDay, Valid]
      omega
  | monthly =>
      have := Calendar.monthOf_bounds day
      simp only [ofDay, Valid]
      omega
  | yearly => trivial

theorem Valid.printable {p : Period} (h : p.Valid) (h0 : 0 ≤ p.year) (h1 : p.year ≤ 9999) :
    p.Printable := by
  refine ⟨h0, h1, ?_⟩
  cases p with
  | weekly | monthly =>
      simp only [Valid, sub] at h ⊢
      omega
  | yearly => exact Nat.zero_lt_succ 99

/-- The pattern of a cadence in the schema. -/
def pattern : Cadence → String → Bool
  | .weekly => isWeeklyText
  | .monthly => isMonthlyText
  | .yearly => isYearlyText

theorem isPeriodText_iff_pattern {s : String} :
    isPeriodText s = true ↔ ∃ c, pattern c s = true := by
  rw [isPeriodText_iff]
  constructor
  · rintro (h | h | h)
    · exact ⟨.weekly, h⟩
    · exact ⟨.monthly, h⟩
    · exact ⟨.yearly, h⟩
  · rintro ⟨c, h⟩
    cases c with
    | weekly => exact .inl h
    | monthly => exact .inr (.inl h)
    | yearly => exact .inr (.inr h)

/-- A period is written as its cadence's pattern. -/
theorem pattern_render {p : Period} (h : p.Valid) (h0 : 0 ≤ p.year) (h1 : p.year ≤ 9999) :
    pattern p.cadence p.render = true := by
  have htext := toList_render h0
  have hyear : Digits 4 (padded 4 p.year.toNat) := digits_padded (by omega) (by omega)
  cases p with
  | weekly y w =>
      rw [tailChars, paddedInt_natCast] at htext
      simp only [Valid] at h
      refine isWeeklyText_iff.mpr ⟨_, _, htext, hyear, digits_padded (by omega) (by omega), ?_⟩
      rw [value_padded]
      exact h
  | monthly y m =>
      rw [tailChars, paddedInt_natCast] at htext
      simp only [Valid] at h
      refine isMonthlyText_iff.mpr ⟨_, _, htext, hyear, digits_padded (by omega) (by omega), ?_⟩
      rw [value_padded]
      exact h
  | yearly y =>
      rw [tailChars, List.append_nil] at htext
      exact isYearlyText_iff.mpr (htext ▸ hyear)

/-- The number of characters behind the year. -/
def tailLength : Cadence → Nat
  | .weekly => 4
  | .monthly => 3
  | .yearly => 0

/-- A text of the schema has the length of its cadence. -/
theorem length_of_pattern {c : Cadence} {s : String} (h : pattern c s = true) :
    s.toList.length = 4 + tailLength c := by
  cases c with
  | weekly =>
      obtain ⟨y, w, hs, hy, hw, -⟩ := isWeeklyText_iff.mp h
      rw [hs, List.length_append, List.length_cons, List.length_cons, hy.1, hw.1]
      rfl
  | monthly =>
      obtain ⟨y, m, hs, hy, hm, -⟩ := isMonthlyText_iff.mp h
      rw [hs, List.length_append, List.length_cons, hy.1, hm.1]
      rfl
  | yearly => exact (isYearlyText_iff.mp h).1

/-- No text matches the patterns of two cadences. -/
theorem pattern_unique {c c' : Cadence} {s : String} (h : pattern c s = true)
    (h' : pattern c' s = true) : c = c' := by
  have hlen := length_of_pattern h
  rw [length_of_pattern h'] at hlen
  cases c <;> cases c' <;> simp [tailLength] at hlen ⊢

/-! ## Reading what the schema accepts -/

theorem parseSigned_year {y : List Char} (h : Digits 4 y) :
    parseSigned (2 ^ 31 - 1) y = some (value y : Int) := by
  have hlt := h.value_lt
  exact parseSigned_eq_some.mpr (.inl ⟨y, .inl rfl, h.isDigits (by omega), by omega, rfl⟩)

theorem parseUnsigned_two {l : List Char} (h : Digits 2 l) :
    parseUnsigned 255 l = some (value l) := by
  have hlt := h.value_lt
  exact parseUnsigned_eq_some.mpr ⟨l, .inl rfl, h.isDigits (by omega), rfl, by omega⟩

theorem bytes_of_pattern {c : Cadence} {s : String} (h : pattern c s = true) :
    s.utf8ByteSize = 4 + tailLength c := by
  rw [utf8ByteSize_of_ascii, length_of_pattern h]
  intro d hd
  rcases isPeriodText_chars (isPeriodText_iff_pattern.mpr ⟨c, h⟩) d hd with hdigit | rfl | rfl
  · exact utf8Size_of_isDigit hdigit
  · decide
  · decide

/-- Every text of the schema is read as a period of its cadence that prints it. -/
theorem read_pattern {c : Cadence} {s : String} (h : pattern c s = true) :
    ∃ p, fromStr s = .ok p ∧ p.cadence = c ∧ p.render = s ∧ 0 ≤ p.year ∧ p.year ≤ 9999 := by
  have hbytes := bytes_of_pattern h
  have hyear : ∀ {y : List Char}, Digits 4 y →
      0 ≤ (value y : Int) ∧ (value y : Int) ≤ 9999 := fun hy => by
    have := hy.value_lt
    omega
  cases c with
  | weekly =>
      obtain ⟨y, w, hs, hy, hw, hrange⟩ := isWeeklyText_iff.mp h
      have hlong : s.utf8ByteSize ≠ 4 := by rw [hbytes]; decide
      refine ⟨.weekly (value y) (value w), fromStr_eq_ok.mpr (.weekly y w _ _ hlong hy.no_dash hs
        (parseSigned_year hy) (parseUnsigned_two hw) hrange), rfl, ?_, hyear hy⟩
      rw [render, tailChars, year, paddedInt_natCast, paddedInt_natCast, hy.padded_value (by omega),
        hw.padded_value (by omega), ← hs, String.ofList_toList]
  | monthly =>
      obtain ⟨y, m, hs, hy, hm, hrange⟩ := isMonthlyText_iff.mp h
      have hlong : s.utf8ByteSize ≠ 4 := by rw [hbytes]; decide
      refine ⟨.monthly (value y) (value m), fromStr_eq_ok.mpr (.monthly y m _ _ hlong hy.no_dash hs
        (parseSigned_year hy) (parseUnsigned_two hm) hrange), rfl, ?_, hyear hy⟩
      rw [render, tailChars, year, paddedInt_natCast, paddedInt_natCast, hy.padded_value (by omega),
        hm.padded_value (by omega), ← hs, String.ofList_toList]
  | yearly =>
      have hy := isYearlyText_iff.mp h
      refine ⟨.yearly (value s.toList), fromStr_eq_ok.mpr (.yearly _ hbytes
        (parseSigned_year hy)), rfl, ?_, hyear hy⟩
      rw [render, tailChars, year, paddedInt_natCast, List.append_nil, hy.padded_value (by omega),
        String.ofList_toList]

/-- What `Display` writes, `from_str` reads back; and no two cadences write alike. -/
theorem reads_back (p : Period) (hbuilt : p.Built) (h0 : 0 ≤ p.year) (h1 : p.year ≤ 9999) :
    fromStr p.render = .ok p ∧ ∀ c, pattern c p.render = true ↔ c = p.cadence := by
  have hvalid := hbuilt.valid
  have hown := pattern_render hvalid h0 h1
  refine ⟨?_, fun c => ⟨fun h => pattern_unique h hown, fun h => h ▸ hown⟩⟩
  obtain ⟨q, hq, -, hsame, hq0, hq1⟩ := read_pattern hown
  obtain rfl := eq_of_render_eq h0 hsame
  exact hq

/-- The last week of a long year. -/
theorem reads_back_week : fromStr (weekly 2026 53).render = .ok (weekly 2026 53) ∧
    ∀ c, pattern c (weekly 2026 53).render = true ↔ c = .weekly :=
  reads_back (weekly 2026 53) (.weekly (newWeekly_eq_ok.mpr ⟨by decide, rfl⟩)) (by decide)
    (by decide)

/-! ## The order of the texts -/

/-- The year first, then the week or the month. -/
def Before (p q : Period) : Prop := p.year < q.year ∨ (p.year = q.year ∧ p.sub < q.sub)

theorem ord_lt_iff_before {p q : Period} (hp : p.sub < 100) (hq : q.sub < 100) :
    p.ord < q.ord ↔ p.Before q := by
  unfold ord Before
  omega

theorem Before.asymm {p q : Period} (h : p.Before q) : ¬ q.Before p := by
  unfold Before at *
  omega

/-- Of two periods of a cadence one comes first, unless they are the same. -/
theorem before_trichotomy {p q : Period} (hc : p.cadence = q.cadence) :
    p.Before q ∨ p = q ∨ q.Before p := by
  unfold Before
  cases p <;> cases q <;> simp only [cadence, reduceCtorEq] at hc <;>
    simp only [year, sub, weekly.injEq, monthly.injEq, yearly.injEq] <;> omega

/-- Texts of one cadence compare as their periods do, and the lock event's comparison tells whether
a row's period lies before the current one. -/
theorem text_order (p q : Period) (hc : p.cadence = q.cadence) (hp : p.Valid) (hq : q.Valid)
    (hp0 : 0 ≤ p.year) (hp1 : p.year ≤ 9999) (hq0 : 0 ≤ q.year) (hq1 : q.year ≤ 9999) :
    (p.render < q.render ↔ p.Before q) ∧ (p.render = q.render ↔ p = q) ∧
      ∀ (now : DateTime) (row : Contribution), row.period = p.render →
        row.cadence = p.cadence.asStr → ofDay p.cadence (utcDay now) = q →
        ((∃ e, contributionLockCheck now row = .error e) ↔ p.Before q) := by
  have hpp := hp.printable hp0 hp1
  have hqp := hq.printable hq0 hq1
  have hlt : p.render < q.render ↔ p.Before q := by
    rw [render_lt_iff hc hpp hqp, ord_lt_iff_before hpp.2.2 hqp.2.2]
  refine ⟨hlt, ⟨eq_of_render_eq hq0, congrArg render⟩, fun now row hperiod hcadence hnow => ?_⟩
  have hcur : currentPeriodFor now row.cadence = q.render := by
    rw [hcadence, currentPeriodFor, cadenceOrMonthly_asStr, hnow, timeFormat_eq_render hqp]
  unfold contributionLockCheck
  rw [hcur, hperiod, ← hlt]
  dsimp only
  split
  · next hpast => simp [hpast]
  · next hpast => simp [hpast]

/-- The week before a turn of the year, and the first week after it. -/
theorem text_order_weeks :
    ((weekly 2025 52).render < (weekly 2026 1).render ↔ (weekly 2025 52).Before (weekly 2026 1)) ∧
      ((weekly 2025 52).render = (weekly 2026 1).render ↔ weekly 2025 52 = weekly 2026 1) ∧
      ∀ (now : DateTime) (row : Contribution), row.period = (weekly 2025 52).render →
        row.cadence = Cadence.weekly.asStr → ofDay .weekly (utcDay now) = weekly 2026 1 →
        ((∃ e, contributionLockCheck now row = .error e) ↔
          (weekly 2025 52).Before (weekly 2026 1)) :=
  text_order (weekly 2025 52) (weekly 2026 1) rfl ⟨by decide, by decide⟩ ⟨by decide, by decide⟩
    (by decide) (by decide) (by decide) (by decide)

/-! ## Reading more than the schema accepts -/

/-- The text reads as a period and is not written like one: a year of a sign and three digits, or
numbers in range that are not four and two digits. -/
inductive Loose (s : String) : Prop
  | signed (sign : Char) (digits : List Char) : sign = '+' ∨ sign = '-' → Digits 3 digits →
      s.toList = sign :: digits → Loose s
  | week (y w : List Char) : s.utf8ByteSize ≠ 4 → Numeral 0 (2 ^ 31 - 1) y → Numeral 1 53 w →
      ¬ (Digits 4 y ∧ Digits 2 w) → s.toList = y ++ '-' :: 'W' :: w → Loose s
  | month (y m : List Char) : s.utf8ByteSize ≠ 4 → Numeral 0 (2 ^ 31 - 1) y → Numeral 1 12 m →
      ¬ (Digits 4 y ∧ Digits 2 m) → s.toList = y ++ '-' :: m → Loose s

/-- A loose text is read all the same. -/
theorem Loose.parsed {s : String} (h : Loose s) : ∃ p, fromStr s = .ok p := by
  simp only [fromStr_eq_ok]
  cases h with
  | signed sign digits hsign hdigits hs =>
      have hbytes : s.utf8ByteSize = 4 := by
        rw [utf8ByteSize_of_ascii, hs, List.length_cons, hdigits.1]
        rw [hs, List.forall_mem_cons]
        refine ⟨?_, hdigits.ascii⟩
        rcases hsign with rfl | rfl <;> decide
      have hlt := hdigits.value_lt
      have hread := hdigits.isDigits (by omega)
      rcases hsign with rfl | rfl
      · exact ⟨_, .yearly _ hbytes (parseSigned_eq_some.mpr
          (.inl ⟨digits, .inr hs, hread, by omega, rfl⟩))⟩
      · exact ⟨_, .yearly _ hbytes (parseSigned_eq_some.mpr
          (.inr ⟨digits, hs, hread, by omega, rfl⟩))⟩
  | week y w hlen hy hw _ hs =>
      obtain ⟨hdash, year, hyear⟩ := numeral_iff_signed.mp hy
      obtain ⟨week, hweek, hrange⟩ := (numeral_iff 255 (by omega)).mp hw
      exact ⟨_, .weekly y w year week hlen hdash hs hyear hweek hrange⟩
  | month y m hlen hy hm _ hs =>
      obtain ⟨hdash, year, hyear⟩ := numeral_iff_signed.mp hy
      obtain ⟨month, hmonth, hrange⟩ := (numeral_iff 255 (by omega)).mp hm
      exact ⟨_, .monthly y m year month hlen hdash hs hyear hmonth hrange⟩

/-- A text in two parts at its first dash matches a pattern only with parts of its own. -/
theorem parts_of_pattern {c : Cadence} {s : String} {y rest : List Char}
    (h : pattern c s = true) (hdash : '-' ∉ y) (hs : s.toList = y ++ '-' :: rest) :
    Digits 4 y ∧ ((∃ w, rest = 'W' :: w ∧ Digits 2 w) ∨ Digits 2 rest) := by
  cases c with
  | weekly =>
      obtain ⟨y', w, hs', hy', hw, -⟩ := isWeeklyText_iff.mp h
      obtain ⟨rfl, rfl⟩ := split_unique hdash hy'.no_dash (hs.symm.trans hs')
      exact ⟨hy', .inl ⟨w, rfl, hw⟩⟩
  | monthly =>
      obtain ⟨y', m, hs', hy', hm, -⟩ := isMonthlyText_iff.mp h
      obtain ⟨rfl, rfl⟩ := split_unique hdash hy'.no_dash (hs.symm.trans hs')
      exact ⟨hy', .inr hm⟩
  | yearly =>
      have hy := (isYearlyText_iff.mp h).no_dash
      rw [hs] at hy
      simp at hy

/-- A text of the schema starts with a digit. -/
theorem digit_first_of_pattern {c : Cadence} {s : String} (h : pattern c s = true) :
    ∃ d rest, s.toList = d :: rest ∧ d.isDigit = true := by
  have hyear : ∃ y rest, s.toList = y ++ rest ∧ Digits 4 y := by
    cases c with
    | weekly =>
        obtain ⟨y, w, hs, hy, -⟩ := isWeeklyText_iff.mp h
        exact ⟨y, _, hs, hy⟩
    | monthly =>
        obtain ⟨y, m, hs, hy, -⟩ := isMonthlyText_iff.mp h
        exact ⟨y, _, hs, hy⟩
    | yearly => exact ⟨_, [], (List.append_nil _).symm, isYearlyText_iff.mp h⟩
  obtain ⟨y, rest, hs, hlen, hdigits⟩ := hyear
  cases y with
  | nil => cases hlen
  | cons d y => exact ⟨d, y ++ rest, hs, hdigits d List.mem_cons_self⟩

/-- No pattern matches a loose text. -/
theorem Loose.not_pattern {s : String} (h : Loose s) (c : Cadence) : pattern c s ≠ true := by
  have hletter : ∀ l : List Char, ¬ Digits 2 ('W' :: l) := fun l hl =>
    absurd (hl.2 'W' List.mem_cons_self) (by decide)
  intro hc
  cases h with
  | signed sign digits hsign hdigits hs =>
      obtain ⟨d, rest, hd, hdigit⟩ := digit_first_of_pattern hc
      obtain ⟨rfl, -⟩ := List.cons.inj (hs.symm.trans hd)
      rcases hsign with rfl | rfl <;> cases hdigit
  | week y w _ hy hw hnot hs =>
      obtain ⟨hyear, ⟨w', heq, hweek⟩ | hweek⟩ :=
        parts_of_pattern hc (numeral_iff_signed.mp hy).1 hs
      · obtain rfl := (List.cons.inj heq).2
        exact hnot ⟨hyear, hweek⟩
      · exact hletter w hweek
  | month y m _ hy hm hnot hs =>
      obtain ⟨hyear, ⟨w, rfl, -⟩ | hmonth⟩ :=
        parts_of_pattern hc (numeral_iff_signed.mp hy).1 hs
      · obtain ⟨n, hn, -⟩ := (numeral_iff 255 (by omega)).mp hm
        exact not_week_of_parseUnsigned hn rfl
      · exact hnot ⟨hyear, hmonth⟩

/-- A text that is read and not loose matches a pattern. -/
theorem pattern_of_parsed {s : String} {p : Period} (h : fromStr s = .ok p) (hloose : ¬ Loose s) :
    ∃ c, pattern c s = true := by
  cases fromStr_eq_ok.mp h with
  | yearly year hbytes hyear =>
      have hascii : ∀ sign : Char, sign = '+' ∨ sign = '-' → ∀ d, IsDigits d →
          s.toList = sign :: d → Loose s := by
        intro sign hsign d hd hs
        refine .signed sign d hsign ⟨?_, hd.2⟩ hs
        rw [utf8ByteSize_of_ascii, hs, List.length_cons] at hbytes
        · omega
        · rw [hs, List.forall_mem_cons]
          refine ⟨?_, fun c hc => utf8Size_of_isDigit (hd.2 c hc)⟩
          rcases hsign with rfl | rfl <;> decide
      rcases parseSigned_eq_some.mp hyear with ⟨d, hs | hs, hd, -⟩ | ⟨d, hs, hd, -⟩
      · refine ⟨.yearly, isYearlyText_iff.mpr ⟨?_, hs ▸ hd.2⟩⟩
        rwa [utf8ByteSize_of_ascii] at hbytes
        exact fun c hc => utf8Size_of_isDigit (hd.2 c (hs ▸ hc))
      · exact absurd (hascii '+' (.inl rfl) d hd hs) hloose
      · exact absurd (hascii '-' (.inr rfl) d hd hs) hloose
  | weekly y w year week hlen hdash hs hyear hweek hrange =>
      have hy := numeral_iff_signed.mpr ⟨hdash, year, hyear⟩
      have hw : Numeral 1 53 w := (numeral_iff 255 (by omega)).mpr ⟨week, hweek, hrange⟩
      by_contra hnone
      refine hloose (.week y w hlen hy hw (fun hparts => hnone ⟨.weekly, ?_⟩) hs)
      rw [parseUnsigned_two hparts.2, Option.some.injEq] at hweek
      exact isWeeklyText_iff.mpr ⟨y, w, hs, hparts.1, hparts.2, by rwa [hweek]⟩
  | monthly y m year month hlen hdash hs hyear hmonth hrange =>
      have hy := numeral_iff_signed.mpr ⟨hdash, year, hyear⟩
      have hm : Numeral 1 12 m := (numeral_iff 255 (by omega)).mpr ⟨month, hmonth, hrange⟩
      by_contra hnone
      refine hloose (.month y m hlen hy hm (fun hparts => hnone ⟨.monthly, ?_⟩) hs)
      rw [parseUnsigned_two hparts.2, Option.some.injEq] at hmonth
      exact isMonthlyText_iff.mpr ⟨y, m, hs, hparts.1, hparts.2, by rwa [hmonth]⟩

section Runs

variable [Platform]

/-- The parser and the schema agree on the text, and so does a query that names it. -/
structure Exact (text : String) : Prop where
  accepted : (∃ p, fromStr text = .ok p) ↔ isPeriodText text = true
  shown : ∀ p, fromStr text = .ok p → p.render = text
  queried : ∀ (settings : TenantSettings) (s : System) (period : String),
    ((queriedPeriod (some text) settings).run s).1 = .ok period →
      period = text ∧ isPeriodText period = true

/-- For every text. -/
theorem exact_iff (text : String) : Exact text ↔ ¬ Loose text := by
  constructor
  · intro hexact hloose
    obtain ⟨c, hc⟩ := isPeriodText_iff_pattern.mp (hexact.accepted.mp hloose.parsed)
    exact hloose.not_pattern c hc
  · intro hloose
    have haccepted : (∃ p, fromStr text = .ok p) ↔ isPeriodText text = true := by
      rw [isPeriodText_iff_pattern]
      constructor
      · rintro ⟨p, hp⟩
        exact pattern_of_parsed hp hloose
      · rintro ⟨c, hc⟩
        obtain ⟨p, hp, -⟩ := read_pattern hc
        exact ⟨p, hp⟩
    refine ⟨haccepted, fun p hp => ?_, fun settings s period h => ?_⟩
    · obtain ⟨c, hc⟩ := pattern_of_parsed hp hloose
      obtain ⟨q, hq, -, hshown, -⟩ := read_pattern hc
      obtain rfl := Except.ok.inj (hp.symm.trans hq)
      exact hshown
    · rw [run_queriedPeriod] at h
      have hsame := queriedPeriod_ok h
      rw [hsame]
      refine ⟨rfl, haccepted.mp ?_⟩
      cases hp : fromStr text with
      | ok p => exact ⟨p, rfl⟩
      | error e =>
          rw [hp] at h
          cases h

end Runs

section Sample

attribute [local instance] Platform.sample

/-- An April without its zero is read, printed with it, and looked up without it. -/
theorem april_not_exact : fromStr "2026-4" = .ok (.monthly 2026 4) ∧
    (Period.monthly 2026 4).render = "2026-04" ∧ isPeriodText "2026-4" = false ∧
    ¬ Exact "2026-4" := by
  have hread : fromStr "2026-4" = .ok (.monthly 2026 4) := by decide
  have hwritten : (Period.monthly 2026 4).render = "2026-04" := by decide
  refine ⟨hread, hwritten, by decide, fun h => ?_⟩
  have hshown := h.shown _ hread
  rw [hwritten] at hshown
  exact absurd hshown (by decide)

end Sample

end Period

end SharamLedger
