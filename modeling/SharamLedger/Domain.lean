import SharamLedger.Lib.Calendar
import SharamLedger.Lib.Decimal
import SharamLedger.Lib.Text

/-!
# Domain primitives

Cadences, roles, tenant slugs and accounting periods, after `crate/common/src/domain.rs`.
A period is rendered as zero-padded text, and the texts of one cadence compare like the
periods do (`Period.render_lt_iff`).
-/

namespace SharamLedger

open Lib Lib.Decimal

/-- A clock reading in nanoseconds since the Unix epoch. -/
abbrev DateTime := Nat

/-- Whole seconds since the Unix epoch. -/
def timestamp (t : DateTime) : Int := (t / 1000000000 : Nat)

/-- A time zone: its offset east of UTC in seconds at every instant, always less than a day. -/
structure Tz where
  offset : DateTime → Int
  bounded : ∀ t, -86400 < offset t ∧ offset t < 86400

/-- The calendar day in UTC. -/
def utcDay (t : DateTime) : Int := Calendar.unixEpoch + timestamp t / 86400

/-- The calendar day on the zone's wall clock. -/
def localDay (tz : Tz) (t : DateTime) : Int :=
  Calendar.unixEpoch + (timestamp t + tz.offset t) / 86400

/-- UTC itself. -/
def Tz.utc : Tz := ⟨fun _ => 0, by simp⟩

/-! ## Errors of the domain -/

/-- `common::error::Error`, as far as domain values raise it. -/
inductive DomainError where
  | invalidPeriod (text : String)
  | invalidCadence (text : String)
  | invalidTimezone (text : String)
  | invalidTenantSlug (text : String)
  deriving DecidableEq, Repr

def DomainError.message : DomainError → String
  | .invalidPeriod s => "invalid period: " ++ s
  | .invalidCadence s => "invalid cadence: " ++ s
  | .invalidTimezone s => "invalid timezone: " ++ s
  | .invalidTenantSlug s => "invalid tenant slug: " ++ s

/-! ## Cadences, roles and slugs -/

inductive Cadence where
  | weekly | monthly | yearly
  deriving DecidableEq, Repr

def Cadence.asStr : Cadence → String
  | .weekly => "weekly"
  | .monthly => "monthly"
  | .yearly => "yearly"

def Cadence.fromStr (s : String) : Except DomainError Cadence :=
  if s = "weekly" then .ok .weekly
  else if s = "monthly" then .ok .monthly
  else if s = "yearly" then .ok .yearly
  else .error (.invalidCadence s)

@[simp] theorem Cadence.fromStr_asStr (c : Cadence) : Cadence.fromStr c.asStr = .ok c := by
  cases c <;> rfl

theorem Cadence.asStr_inj {c c' : Cadence} (h : c.asStr = c'.asStr) : c = c' := by
  have hparse : Cadence.fromStr c.asStr = Cadence.fromStr c'.asStr := congrArg _ h
  rw [fromStr_asStr, fromStr_asStr] at hparse
  exact Except.ok.inj hparse

/-- A text that parses is the name of its cadence. -/
theorem Cadence.asStr_of_fromStr {s : String} {c : Cadence} (h : Cadence.fromStr s = .ok c) :
    s = c.asStr := by
  unfold Cadence.fromStr at h
  split at h
  · cases h
    assumption
  · split at h
    · cases h
      assumption
    · split at h
      · cases h
        assumption
      · cases h

inductive Role where
  | owner | treasurer | member
  deriving DecidableEq, Repr

def Role.asStr : Role → String
  | .owner => "owner"
  | .treasurer => "treasurer"
  | .member => "member"

/-- Lower-case letter first, then lower-case letters, digits and underscores; 3 to 41 bytes. -/
def isValidSlug (s : String) : Bool :=
  let len := s.utf8ByteSize
  if 3 ≤ len ∧ len ≤ 41 then
    match s.toList with
    | [] => false
    | first :: rest =>
        first.isLower && rest.all fun c => c.isLower || c.isDigit || c == '_'
  else false

/-- A tenant's slug, which is also the name of its namespace. -/
structure TenantSlug where
  val : String
  valid : isValidSlug val = true
  deriving DecidableEq

def TenantSlug.new (s : String) : Except DomainError TenantSlug :=
  if h : isValidSlug s = true then .ok ⟨s, h⟩ else .error (.invalidTenantSlug s)

theorem TenantSlug.eq_of_val {a b : TenantSlug} (h : a.val = b.val) : a = b := by
  cases a
  cases b
  cases h
  rfl

/-- A slug is the text it was made from. -/
theorem TenantSlug.val_of_new {s : String} {slug : TenantSlug}
    (h : TenantSlug.new s = .ok slug) : slug.val = s := by
  unfold TenantSlug.new at h
  split at h
  · cases h
    rfl
  · cases h

/-! ## Periods -/

/-- An accounting period. Its shape depends on the cadence. -/
inductive Period where
  | weekly (year : Int) (week : Nat)
  | monthly (year : Int) (month : Nat)
  | yearly (year : Int)
  deriving DecidableEq, Repr

namespace Period

def cadence : Period → Cadence
  | weekly .. => .weekly
  | monthly .. => .monthly
  | yearly .. => .yearly

def year : Period → Int
  | weekly y _ => y
  | monthly y _ => y
  | yearly y => y

/-- The period's position in its year: the week, the month, or 0. -/
def sub : Period → Nat
  | weekly _ w => w
  | monthly _ m => m
  | yearly _ => 0

/-- `{n:02}` and the like for a field of a period. -/
private def field (width : Nat) (n : Int) : String := String.ofList (paddedInt width n)

/-- `Period::weekly`: the week must be between 1 and 53. -/
def newWeekly (year : Int) (week : Nat) : Except DomainError Period :=
  if 1 ≤ week ∧ week ≤ 53 then .ok (.weekly year week)
  else .error (.invalidPeriod (toString year ++ "-W" ++ field 2 week))

/-- `Period::monthly`: the month must be between 1 and 12. -/
def newMonthly (year : Int) (month : Nat) : Except DomainError Period :=
  if 1 ≤ month ∧ month ≤ 12 then .ok (.monthly year month)
  else .error (.invalidPeriod (toString year ++ "-" ++ field 2 month))

/-- The period of a cadence that a calendar day falls in. -/
def ofDay (c : Cadence) (day : Int) : Period :=
  match c with
  | .weekly => .weekly (Calendar.isoYear day) (Calendar.isoWeek day).toNat
  | .monthly => .monthly (Calendar.yearOf day) (Calendar.monthOf day).toNat
  | .yearly => .yearly (Calendar.yearOf day)

/-- `Period::current_in`: the period "right now" on the zone's wall clock. -/
def currentIn (tz : Tz) (c : Cadence) (now : DateTime) : Period := ofDay c (localDay tz now)

/-- The characters behind the year. -/
def tailChars : Period → List Char
  | weekly _ w => '-' :: 'W' :: paddedInt 2 w
  | monthly _ m => '-' :: paddedInt 2 m
  | yearly _ => []

/-- `Display`: `YYYY-Www`, `YYYY-MM` or `YYYY`. -/
def render (p : Period) : String := String.ofList (paddedInt 4 p.year ++ p.tailChars)

/-- `FromStr`: four bytes are a year; otherwise the part behind the first dash is a week when it
starts with `W` and a month when it does not. -/
def fromStr (s : String) : Except DomainError Period :=
  if s.utf8ByteSize = 4 then
    match Text.parseSigned (2 ^ 31 - 1) s.toList with
    | some year => .ok (.yearly year)
    | none => .error (.invalidPeriod s)
  else
    match Text.splitOnceChars ['-'] s.toList with
    | none => .error (.invalidPeriod s)
    | some (y, rest) =>
        match Text.parseSigned (2 ^ 31 - 1) y with
        | none => .error (.invalidPeriod s)
        | some year =>
            match rest with
            | 'W' :: week =>
                match Text.parseUnsigned 255 week with
                | some w => newWeekly year w
                | none => .error (.invalidPeriod s)
            | month =>
                match Text.parseUnsigned 255 month with
                | some m => newMonthly year m
                | none => .error (.invalidPeriod s)

/-! ### Order -/

/-- The order of the periods of one cadence: the year first, then the position in it. -/
def ord (p : Period) : Int := 100 * p.year + p.sub

/-- The first day of a period that `day` falls in. -/
def start (c : Cadence) (day : Int) : Int :=
  match c with
  | .weekly => Calendar.weekStart day
  | .monthly => Calendar.monthStart (Calendar.yearOf day) (Calendar.monthOf day)
  | .yearly => Calendar.yearStart (Calendar.yearOf day)

@[simp] theorem cadence_ofDay (c : Cadence) (day : Int) : (ofDay c day).cadence = c := by
  cases c <;> rfl

theorem ord_ofDay (c : Cadence) (day : Int) :
    (ofDay c day).ord = match c with
      | .weekly => Calendar.weekOrd day
      | .monthly => Calendar.monthOrd day
      | .yearly => 100 * Calendar.yearOf day := by
  cases c with
  | weekly =>
      have := Calendar.isoWeek_bounds day
      simp only [ofDay, ord, year, sub, Calendar.weekOrd]
      omega
  | monthly =>
      have := Calendar.monthOf_bounds day
      simp only [ofDay, ord, year, sub, Calendar.monthOrd]
      omega
  | yearly => simp [ofDay, ord, year, sub]

/-- A day falls in an earlier period than another exactly when it comes before the first day
of that one's period. -/
theorem ord_lt_iff (c : Cadence) (a b : Int) :
    (ofDay c a).ord < (ofDay c b).ord ↔ a < start c b := by
  rw [ord_ofDay, ord_ofDay]
  cases c with
  | weekly => exact Calendar.week_ord_lt_iff
  | monthly => exact Calendar.month_ord_lt_iff
  | yearly =>
      have := Calendar.yearOf_lt_iff (a := a) (b := b)
      simp only [start]
      omega

/-- Later days fall in the same or a later period. -/
theorem ord_mono (c : Cadence) {a b : Int} (h : a ≤ b) : (ofDay c a).ord ≤ (ofDay c b).ord := by
  rw [ord_ofDay, ord_ofDay]
  cases c with
  | weekly => exact Calendar.week_ord_mono h
  | monthly => exact Calendar.month_ord_mono h
  | yearly =>
      have := Calendar.yearOf_mono h
      simp only
      omega

/-- The position in the year needs at most two digits. -/
theorem sub_lt (c : Cadence) (day : Int) : (ofDay c day).sub < 100 := by
  cases c with
  | weekly =>
      have := Calendar.isoWeek_bounds day
      simp only [ofDay, sub]
      omega
  | monthly =>
      have := Calendar.monthOf_bounds day
      simp only [ofDay, sub]
      omega
  | yearly => simp [ofDay, sub]

/-- A period that the four-digit format can hold. -/
def Printable (p : Period) : Prop := 0 ≤ p.year ∧ p.year ≤ 9999 ∧ p.sub < 100

theorem tailChars_lt_iff {p q : Period} (hc : p.cadence = q.cadence) (hp : p.sub < 100)
    (hq : q.sub < 100) : p.tailChars < q.tailChars ↔ p.sub < q.sub := by
  have hlt : padded 2 p.sub < padded 2 q.sub ↔ p.sub < q.sub :=
    padded_lt_iff (by omega) (by simpa using hp) (by simpa using hq)
  cases p <;> cases q <;>
    simp_all [cadence, tailChars, sub, paddedInt_natCast]

/-- Texts of one cadence compare as the periods they stand for. -/
theorem render_lt_iff {p q : Period} (hc : p.cadence = q.cadence) (hp : p.Printable)
    (hq : q.Printable) : p.render < q.render ↔ p.ord < q.ord := by
  obtain ⟨hp0, hp1, hpsub⟩ := hp
  obtain ⟨hq0, hq1, hqsub⟩ := hq
  obtain ⟨y, hy⟩ := Int.eq_ofNat_of_zero_le hp0
  obtain ⟨z, hz⟩ := Int.eq_ofNat_of_zero_le hq0
  have hy4 : y < 10 ^ 4 := by omega
  have hz4 : z < 10 ^ 4 := by omega
  have hlen : (padded 4 y).length = (padded 4 z).length := by
    rw [length_padded (by omega) hy4, length_padded (by omega) hz4]
  have hinj : padded 4 y = padded 4 z ↔ y = z :=
    ⟨padded_inj (by omega) hy4 hz4, fun h => by rw [h]⟩
  rw [String.lt_iff, render, render, String.toList_ofList, String.toList_ofList, hy, hz,
    paddedInt_natCast, paddedInt_natCast, append_lt_iff hlen,
    padded_lt_iff (by omega) hy4 hz4, hinj, tailChars_lt_iff hc hpsub hqsub]
  unfold ord
  omega

end Period

end SharamLedger
