import SharamLedger.CreatePage
import SharamLedger.Gateway.Settings
import SharamLedger.Sample
import SharamLedger.Schema.Patterns

/-!
# Dates of a seed

The handler and the create page accept any text of four, two and two digits with dashes between
them. The schema also wants a month and a day, so a seed with a thirteenth month gets past the
checks and is refused by the database.
-/

namespace SharamLedger

open Lib Lib.Decimal Lib.Text

namespace SeedDates

/-- A text as the digits of a year, a month and a day. -/
structure DateParts (l y m d : List Char) : Prop where
  text : l = y ++ '-' :: (m ++ '-' :: d)
  year : Digits 4 y
  month : Digits 2 m
  day : Digits 2 d

/-! ## What the two checks accept -/

/-- Digits and dashes take one byte each. -/
theorem DateParts.ascii {l y m d : List Char} (h : DateParts l y m d) :
    ∀ c ∈ l, c.utf8Size = 1 := by
  obtain ⟨rfl, hy, hm, hd⟩ := h
  simp only [List.mem_append, List.mem_cons]
  rintro c (hc | rfl | hc | rfl | hc)
  · exact hy.ascii c hc
  · decide
  · exact hm.ascii c hc
  · decide
  · exact hd.ascii c hc

theorem DateParts.length {l y m d : List Char} (h : DateParts l y m d) : l.length = 10 := by
  rw [h.text, List.length_append, List.length_cons, List.length_append, List.length_cons, h.year.1,
    h.month.1, h.day.1]

theorem gateway_iff {s : String} :
    isIsoDate s = true ↔ ∃ y m d, DateParts s.toList y m d := by
  unfold isIsoDate
  rw [Bool.and_eq_true, beq_iff_eq]
  constructor
  · rintro ⟨-, h⟩
    split at h
    · next a b c d e f g k hl =>
        simp only [List.all_cons, List.all_nil, Bool.and_eq_true, Bool.and_true] at h
        obtain ⟨ha, hb, hc, hd, he, hf, hg, hk⟩ := h
        exact ⟨[a, b, c, d], [e, f], [g, k], hl, ⟨rfl, by simp [ha, hb, hc, hd]⟩,
          ⟨rfl, by simp [he, hf]⟩, ⟨rfl, by simp [hg, hk]⟩⟩
    · cases h
  · rintro ⟨y, m, d, h⟩
    refine ⟨by rw [utf8ByteSize_of_ascii h.ascii, h.length], ?_⟩
    rw [h.text]
    match y, m, d, h.year, h.month, h.day with
    | [a, b, c, e], [f, g], [i, k], ⟨_, hy⟩, ⟨_, hm⟩, ⟨_, hd⟩ =>
        simp only [List.forall_mem_cons] at hy hm hd
        simp [hy, hm, hd]

/-- Characters that are digits by position are the first bytes of the text. -/
theorem digits_front {l : List Char} {k n : Nat}
    (h : ∀ i < k, ∀ c, l[i]? = some c → c.isDigit = true) (hbytes : (bytes l).length = k + n) :
    ∃ front rest, l = front ++ rest ∧ Digits k front ∧ (bytes rest).length = n := by
  induction k generalizing l with
  | zero => exact ⟨[], l, rfl, ⟨rfl, by simp⟩, by rw [hbytes, Nat.zero_add]⟩
  | succ k ih =>
      cases l with
      | nil =>
          rw [bytes_nil, List.length_nil] at hbytes
          omega
      | cons c l =>
          have hc : c.isDigit = true := h 0 (Nat.succ_pos k) c rfl
          rw [bytes_cons, List.length_append, String.length_utf8EncodeChar,
            utf8Size_of_isDigit hc] at hbytes
          obtain ⟨front, rest, rfl, ⟨hlen, hdigits⟩, hrest⟩ :=
            ih (fun i hi d hd => h (i + 1) (Nat.succ_lt_succ hi) d hd) (by omega)
          refine ⟨c :: front, rest, rfl, ⟨by rw [List.length_cons, hlen], ?_⟩, hrest⟩
          exact List.forall_mem_cons.mpr ⟨hc, hdigits⟩

/-- A dash found by byte is the character behind the digits. -/
theorem dash_front {front l : List Char} {k n : Nat} (hfront : Digits k front)
    (hdash : (bytes (front ++ l))[k]? = some 45) (hbytes : (bytes l).length = 1 + n) :
    ∃ rest, l = '-' :: rest ∧ (bytes rest).length = n := by
  have hfirst : (bytes l)[0]? = some 45 := by
    rw [← hdash, ← bytes_front hfront.ascii l 0, hfront.1, Nat.add_zero]
  cases l with
  | nil => cases hfirst
  | cons c rest =>
      obtain rfl := char_of_byte (d := '-') (by decide) hfirst
      refine ⟨rest, rfl, ?_⟩
      rw [bytes_cons, List.length_append, String.length_utf8EncodeChar] at hbytes
      exact Nat.add_left_cancel hbytes

/-- Digits up to a dash. -/
theorem digits_dash_front {l : List Char} {k n : Nat}
    (hdigits : ∀ i < k, ∀ c, l[i]? = some c → c.isDigit = true)
    (hdash : (bytes l)[k]? = some 45) (hbytes : (bytes l).length = k + (1 + n)) :
    ∃ front rest, l = front ++ '-' :: rest ∧ Digits k front ∧ (bytes rest).length = n := by
  obtain ⟨front, l', rfl, hfront, hbehind⟩ := digits_front hdigits hbytes
  obtain ⟨rest, rfl, hrest⟩ := dash_front hfront hdash hbehind
  exact ⟨front, rest, rfl, hfront, hrest⟩

/-- Behind digits and a dash, characters and bytes are those of the rest. -/
theorem behind_dash {front : List Char} {k : Nat} (h : Digits k front) (rest : List Char)
    (i : Nat) : (front ++ '-' :: rest)[k + 1 + i]? = rest[i]? ∧
      (bytes (front ++ '-' :: rest))[k + 1 + i]? = (bytes rest)[i]? := by
  have hascii : ∀ c ∈ front ++ ['-'], c.utf8Size = 1 := by
    rw [List.forall_mem_append, List.forall_mem_singleton]
    exact ⟨h.ascii, by decide⟩
  have hlen : (front ++ ['-']).length = k + 1 := by rw [List.length_append, h.1]; rfl
  rw [List.append_cons, ← hlen]
  constructor
  · rw [List.getElem?_append_right (Nat.le_add_right _ _), Nat.add_sub_cancel_left]
  · exact bytes_front hascii rest i

/-- Digits by position and dashes by byte make a date. -/
theorem dateParts_of_bytes {l : List Char} (hten : (bytes l).length = 10)
    (hfour : (bytes l)[4]? = some 45) (hseven : (bytes l)[7]? = some 45)
    (hdigit : ∀ i c, l[i]? = some c → i ≠ 4 → i ≠ 7 → c.isDigit = true) :
    ∃ y m d, DateParts l y m d := by
  obtain ⟨y, l', rfl, hy, hbehind⟩ := digits_dash_front (k := 4) (n := 5)
    (fun i hi c hc => hdigit i c hc (by omega) (by omega)) hfour hten
  have hdigit' : ∀ i c, l'[i]? = some c → i ≠ 2 → c.isDigit = true := fun i c hc hi =>
    hdigit (4 + 1 + i) c ((behind_dash hy l' i).1.trans hc) (by omega) (by omega)
  rw [(behind_dash hy l' 2).2] at hseven
  obtain ⟨m, l'', rfl, hm, hrest⟩ := digits_dash_front (k := 2) (n := 2)
    (fun i hi c hc => hdigit' i c hc (by omega)) hseven hbehind
  obtain ⟨d, rest, rfl, hd, hnone⟩ := digits_front (l := l'') (k := 2) (n := 0)
    (fun i hi c hc => hdigit' (2 + 1 + i) c ((behind_dash hm l'' i).1.trans hc) (by omega)) hrest
  have hend : rest = [] := by
    have hle := length_le_bytes rest
    exact List.length_eq_zero_iff.mp (by omega)
  exact ⟨y, m, d, by rw [hend, List.append_nil], hy, hm, hd⟩

/-- The dashes of a date by byte. -/
theorem DateParts.dashes {l y m d : List Char} (h : DateParts l y m d) :
    (bytes l)[4]? = some 45 ∧ (bytes l)[7]? = some 45 := by
  have hdash : ∀ {k : Nat} {front : List Char} (rest : List Char), Digits k front →
      (bytes (front ++ '-' :: rest))[k]? = some 45 := fun {k front} rest hfront => by
    have hfirst := bytes_front hfront.ascii ('-' :: rest) 0
    rwa [hfront.1] at hfirst
  rw [h.text]
  exact ⟨hdash _ h.year, (behind_dash h.year _ 2).2.trans (hdash _ h.month)⟩

/-- Counting bytes for the dashes and characters for the digits comes to the same positions. -/
theorem page_iff {s : String} :
    CreatePage.isIsoDate s = true ↔ ∃ y m d, DateParts s.toList y m d := by
  unfold CreatePage.isIsoDate
  generalize s.toList = l
  constructor
  · intro h
    split at h
    · cases h
    · next hlen =>
        split at h
        · cases h
        · next hdashes =>
            obtain ⟨hfour, hseven⟩ := not_or.mp hdashes
            refine dateParts_of_bytes (not_not.mp hlen) (not_not.mp hfour) (not_not.mp hseven) ?_
            intro i c hc h4 h7
            have hmem := List.all_eq_true.mp h (c, i) (List.mem_zipIdx_iff_getElem?.mpr hc)
            simpa [h4, h7] using hmem
  · rintro ⟨y, m, d, h⟩
    have hten : (bytes l).length = 10 := by rw [length_bytes_of_ascii h.ascii, h.length]
    rw [if_neg (not_not.mpr hten), if_neg (by simp [h.dashes]), h.text]
    match y, m, d, h.year, h.month, h.day with
    | [a, b, c, e], [f, g], [i, k], ⟨_, hy⟩, ⟨_, hm⟩, ⟨_, hd⟩ =>
        simp only [List.forall_mem_cons] at hy hm hd
        simp [hy, hm, hd]

/-- The page and the handler accept the same texts. -/
theorem page_eq_gateway (s : String) : CreatePage.isIsoDate s = isIsoDate s := by
  rw [Bool.eq_iff_iff, page_iff, gateway_iff]

/-! ## The order of the dates -/

/-- One date comes before another: the year first, then the month, then the day. -/
def Before (y m d y' m' d' : List Char) : Prop :=
  value y < value y' ∨ (value y = value y' ∧
    (value m < value m' ∨ (value m = value m' ∧ value d < value d')))

/-- The texts of two dates compare as the dates do. -/
theorem text_lt_iff {s t : String} {y m d y' m' d' : List Char} (hs : DateParts s.toList y m d)
    (ht : DateParts t.toList y' m' d') : s < t ↔ Before y m d y' m' d' := by
  have hyears : y.length = y'.length := by rw [hs.year.1, ht.year.1]
  have hmonths : m.length = m'.length := by rw [hs.month.1, ht.month.1]
  have hdash : ¬ '-' < '-' := by decide
  rw [String.lt_iff, hs.text, ht.text, append_lt_iff hyears, List.cons_lt_cons_iff,
    append_lt_iff hmonths, List.cons_lt_cons_iff, hs.year.lt_iff ht.year (by omega),
    hs.year.eq_iff ht.year (by omega), hs.month.lt_iff ht.month (by omega),
    hs.month.eq_iff ht.month (by omega), hs.day.lt_iff ht.day (by omega)]
  simp only [hdash, false_or, true_and]
  rfl

/-! ## Dates that are none -/

/-- Digits in the places of a date, for a month other than 1 to 12 or a day other than 1 to 31. -/
def OffCalendar (s : String) : Prop :=
  ∃ y m d, DateParts s.toList y m d ∧
    (value m < 1 ∨ 12 < value m ∨ value d < 1 ∨ 31 < value d)

/-- The schema wants the same parts, and a month and a day. -/
theorem isDateText_iff_parts {s : String} : isDateText s = true ↔
    ∃ y m d, DateParts s.toList y m d ∧ (1 ≤ value m ∧ value m ≤ 12) ∧
      1 ≤ value d ∧ value d ≤ 31 := by
  rw [isDateText_iff]
  constructor
  · rintro ⟨y, m, d, hs, hy, ⟨hm, hmonth⟩, hd, hday⟩
    exact ⟨y, m, d, ⟨hs, hy, hm, hd⟩, hmonth, hday⟩
  · rintro ⟨y, m, d, ⟨hs, hy, hm, hd⟩, hmonth, hday⟩
    exact ⟨y, m, d, hs, hy, ⟨hm, hmonth⟩, hd, hday⟩

theorem DateParts.unique {l y m d y' m' d' : List Char} (h : DateParts l y m d)
    (h' : DateParts l y' m' d') : y = y' ∧ m = m' ∧ d = d' := by
  obtain ⟨rfl, hrest⟩ := split_unique h.year.no_dash h'.year.no_dash (h.text.symm.trans h'.text)
  obtain ⟨rfl, rfl⟩ := split_unique h.month.no_dash h'.month.no_dash hrest
  exact ⟨rfl, rfl, rfl⟩

/-- The handler's check and the assertion agree on a text unless it is off the calendar. -/
theorem agree_iff {s : String} :
    (isIsoDate s = true ↔ isDateText s = true) ↔ ¬ OffCalendar s := by
  rw [gateway_iff, isDateText_iff_parts]
  constructor
  · rintro hagree ⟨y, m, d, hparts, hoff⟩
    obtain ⟨y', m', d', hparts', hmonth, hday⟩ := hagree.mp ⟨y, m, d, hparts⟩
    obtain ⟨-, rfl, rfl⟩ := hparts.unique hparts'
    omega
  · intro hon
    constructor
    · rintro ⟨y, m, d, hparts⟩
      have hrange : ¬ (value m < 1 ∨ 12 < value m ∨ value d < 1 ∨ 31 < value d) :=
        fun hoff => hon ⟨y, m, d, hparts, hoff⟩
      exact ⟨y, m, d, hparts, by omega⟩
    · rintro ⟨y, m, d, hparts, -⟩
      exact ⟨y, m, d, hparts⟩

section Runs

variable [Platform]

/-- What the checks of a request promise about its two dates. -/
structure Sound (p : SetCarryForwardRequest) : Prop where
  same : ∀ t, t = p.fromDate ∨ t = p.toDate →
    (isIsoDate t = true ↔ isDateText t = true) ∧ CreatePage.isIsoDate t = isIsoDate t
  asserted : p.check = .ok () → isDateText p.fromDate = true ∧ isDateText p.toDate = true
  answered : p.check = .ok () → I64.Fits p.amountCents →
    ∀ (slug : TenantSlug) (headers : Headers) (s : System) (identity : Identity),
      authResult headers s.now = .ok identity →
      s.control.roleFor identity.email slug.val = some "owner" →
      (s.namespaces slug.val).carryForward = none → Platform.isEmail identity.email = true →
      ∃ view, ((setCarryForwardHandler slug.val headers (.ok p)).run s).1 = .ok view
  ordered : ∀ y m d y' m' d', DateParts p.fromDate.toList y m d →
    DateParts p.toDate.toList y' m' d' →
    (p.fromDate ≤ p.toDate ↔ ¬ Before y' m' d' y m d)

omit [Platform] in
/-- A request that passes has two dates by the handler's lights and an amount. -/
theorem check_ok {p : SetCarryForwardRequest} (h : p.check = .ok ()) :
    isIsoDate p.fromDate = true ∧ isIsoDate p.toDate = true ∧ 0 < p.amountCents := by
  unfold SetCarryForwardRequest.check at h
  split at h
  · cases h
  · next hdates =>
      split at h
      · cases h
      · split at h
        · cases h
        · next hamount =>
            simp only [Bool.not_eq_true', Bool.not_eq_false, Bool.and_eq_true] at hdates
            exact ⟨hdates.1, hdates.2, by omega⟩

/-- A seed with dates of the schema is stored when nothing else is wrong with it. -/
theorem createCarryForward_of_dates {ns : Namespace} (input : NewCarryForward) (now : DateTime)
    (hfrom : isDateText input.fromDate = true) (hto : isDateText input.toDate = true)
    (hfits : I64.Fits input.amountCents) (hamount : 0 < input.amountCents)
    (hemail : Platform.isEmail input.recordedBy = true) (hfree : ns.carryForward = none) :
    ∃ row ns', ns.createCarryForward input now = .ok (row, ns') := by
  simp [Namespace.createCarryForward, CarryForward.check, isInt, hfrom, hto, hfits, hamount, hemail,
    hfree]

/-- An owner's request with such a seed is answered. -/
theorem run_setCarryForward {p : SetCarryForwardRequest} {slug : TenantSlug} {headers : Headers}
    {s : System} {identity : Identity} {row : CarryForward} {ns' : Namespace}
    (hcheck : p.check = .ok ()) (hauth : authResult headers s.now = .ok identity)
    (hrole : s.control.roleFor identity.email slug.val = some "owner")
    (hfree : (s.namespaces slug.val).carryForward = none)
    (hcreate : (s.namespaces slug.val).createCarryForward (seedInput identity p) s.now =
      .ok (row, ns')) :
    ((setCarryForwardHandler slug.val headers (.ok p)).run s).1 = .ok (carryForwardView row) := by
  have hslug : TenantSlug.new slug.val = .ok slug := dif_pos slug.valid
  simp only [seedInput] at hcreate
  simp [setCarryForwardHandler, hauth, hslug, hrole, hcheck, setCarryForward, getCarryForward,
    hfree, hcreate, Except.mapError]

/-- For every request. -/
theorem sound_iff (p : SetCarryForwardRequest) :
    Sound p ↔ ¬ OffCalendar p.fromDate ∧ ¬ OffCalendar p.toDate := by
  constructor
  · intro h
    exact ⟨agree_iff.mp (h.same _ (.inl rfl)).1, agree_iff.mp (h.same _ (.inr rfl)).1⟩
  · rintro ⟨hfrom, hto⟩
    have hasserted : p.check = .ok () →
        isDateText p.fromDate = true ∧ isDateText p.toDate = true := by
      intro hcheck
      obtain ⟨hfrom', hto', -⟩ := check_ok hcheck
      exact ⟨(agree_iff.mpr hfrom).mp hfrom', (agree_iff.mpr hto).mp hto'⟩
    refine ⟨?_, hasserted, ?_, ?_⟩
    · rintro t (rfl | rfl)
      · exact ⟨agree_iff.mpr hfrom, page_eq_gateway _⟩
      · exact ⟨agree_iff.mpr hto, page_eq_gateway _⟩
    · intro hcheck hfits slug headers s identity hauth hrole hfree hemail
      obtain ⟨hfromText, htoText⟩ := hasserted hcheck
      obtain ⟨row, ns', hcreate⟩ := createCarryForward_of_dates (seedInput identity p)
        s.now hfromText htoText hfits (check_ok hcheck).2.2 hemail hfree
      exact ⟨_, run_setCarryForward hcheck hauth hrole hfree hcreate⟩
    · intro y m d y' m' d' hparts hparts'
      rw [← String.not_lt, text_lt_iff hparts' hparts]

end Runs

section Sample

attribute [local instance] Platform.sample

/-- A seed for the 45th day of a 13th month. -/
def thirteenthMonth : SetCarryForwardRequest where
  fromDate := "2026-13-45"
  toDate := "2026-13-45"
  amountCents := 100

/-- Both checks accept it, and the database does not: Ann is answered with a 500. -/
theorem thirteenth_month_refused : isIsoDate "2026-13-45" = true ∧
    CreatePage.isIsoDate "2026-13-45" = true ∧ isDateText "2026-13-45" = false ∧
    ((setCarryForwardHandler "pool" (bearer "ann@pool.org" juneNoon) (.ok thirteenthMonth)).run
      (openVenture "UTC" 10000 juneNoon)).1.mapError (·.status) = .error 500 ∧
    ¬ Sound thirteenthMonth := by
  have haccepted : isIsoDate "2026-13-45" = true := by decide
  have hrefused : isDateText "2026-13-45" = false := by decide
  refine ⟨haccepted, by decide, hrefused, by decide +kernel, fun h => ?_⟩
  have htext := (h.same "2026-13-45" (.inl rfl)).1.mp haccepted
  rw [hrefused] at htext
  cases htext

end Sample

end SeedDates

end SharamLedger
