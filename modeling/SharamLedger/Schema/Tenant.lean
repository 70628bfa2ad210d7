import SharamLedger.Platform
import SharamLedger.Lib.Table
import SharamLedger.Lib.I64

/-!
# The tenant schema

Rows of one tenant namespace, their field assertions and the events on them, after
`crate/ledger/schema/tenant/000_init.surql`. The namespace is the tenant, so no row names one.
-/

namespace SharamLedger

open Lib Lib.Decimal

/-! ## Rows -/

/-- `settings:current`, as the ledger reads it. -/
structure TenantSettings where
  timezone : String
  currency : String
  displayName : String
  cadence : String
  duesAmountCents : Int
  purpose : Option String
  deriving DecidableEq, Repr

/-- Stored fields of `settings:current`. -/
structure Settings extends TenantSettings where
  createdAt : DateTime
  updatedAt : DateTime
  deriving DecidableEq, Repr

/-- Stored fields of `contribution`. -/
structure Contribution where
  userEmail : String
  cadence : String
  period : String
  amountCents : Int
  status : String
  proofKey : Option String
  note : Option String
  submittedAt : DateTime
  updatedAt : DateTime
  lockedAt : Option DateTime
  deriving DecidableEq, Repr

abbrev ContributionRecord := Record Contribution

/-- Stored fields of `carry_forward:current`. -/
structure CarryForward where
  fromDate : String
  toDate : String
  amountCents : Int
  note : Option String
  recordedBy : String
  recordedAt : DateTime
  deriving DecidableEq, Repr

/-- `contribution_user_period_idx` is not unique: rows never collide. -/
instance : Indexed Contribution where
  collides _ _ := false
  collides_comm _ _ := rfl

/-- The database `main` of a tenant's namespace. -/
structure Namespace where
  settings : Option Settings
  contribution : Table Contribution
  carryForward : Option CarryForward
  deriving DecidableEq

/-- A namespace without rows. -/
def Namespace.empty : Namespace := ⟨none, .empty, none⟩

/-! ## Field assertions -/

def isCadence (s : String) : Bool := s == "weekly" || s == "monthly" || s == "yearly"

def isStatus (s : String) : Bool := s == "submitted" || s == "verified" || s == "rejected"

/-- `[0-9]{4}` in front of the rest of a pattern. -/
def fourDigits (rest : List Char → Bool) : List Char → Bool
  | a :: b :: c :: d :: l => a.isDigit && b.isDigit && c.isDigit && d.isDigit && rest l
  | _ => false

/-- `0[1-9]|[1-4][0-9]|5[0-3]`. -/
def weekPattern : List Char → Bool
  | ['0', d] => d.isDigit && d != '0'
  | ['5', d] => d.isDigit && d ≤ '3'
  | [t, d] => (t == '1' || t == '2' || t == '3' || t == '4') && d.isDigit
  | _ => false

/-- `0[1-9]|1[0-2]`. -/
def monthPattern : List Char → Bool
  | ['0', d] => d.isDigit && d != '0'
  | ['1', d] => d == '0' || d == '1' || d == '2'
  | _ => false

/-- `0[1-9]|[12][0-9]|3[01]`. -/
def dayPattern : List Char → Bool
  | ['0', d] => d.isDigit && d != '0'
  | ['3', d] => d == '0' || d == '1'
  | [t, d] => (t == '1' || t == '2') && d.isDigit
  | _ => false

/-- `^[0-9]{4}-W(0[1-9]|[1-4][0-9]|5[0-3])$`. -/
def isWeeklyText (s : String) : Bool :=
  fourDigits (fun | '-' :: 'W' :: l => weekPattern l | _ => false) s.toList

/-- `^[0-9]{4}-(0[1-9]|1[0-2])$`. -/
def isMonthlyText (s : String) : Bool :=
  fourDigits (fun | '-' :: l => monthPattern l | _ => false) s.toList

/-- `^[0-9]{4}$`. -/
def isYearlyText (s : String) : Bool := fourDigits (fun l => l.isEmpty) s.toList

/-- `contribution.period ASSERT`. -/
def isPeriodText (s : String) : Bool := isWeeklyText s || isMonthlyText s || isYearlyText s

/-- `^[0-9]{4}-(0[1-9]|1[0-2])-(0[1-9]|[12][0-9]|3[01])$`. -/
def isDateText (s : String) : Bool :=
  fourDigits
    (fun
      | ['-', a, b, '-', c, d] => monthPattern [a, b] && dayPattern [c, d]
      | _ => false) s.toList

/-- `TYPE int`: a signed 64-bit integer. -/
def isInt (n : Int) : Bool := decide (I64.Fits n)

def Settings.check (s : Settings) : Except DbFault Unit :=
  if !isCadence s.cadence then .error (.field "settings" "cadence" s.cadence)
  else if !(isInt s.duesAmountCents && 0 ≤ s.duesAmountCents) then
    .error (.field "settings" "dues_amount_cents" (toString s.duesAmountCents))
  else match s.purpose with
    | some p => if p.length ≤ 600 then .ok () else .error (.field "settings" "purpose" p)
    | none => .ok ()

section Assertions

variable [Platform]

def Contribution.check (c : Contribution) : Except DbFault Unit :=
  if !Platform.isEmail c.userEmail then .error (.field "contribution" "user_email" c.userEmail)
  else if !isCadence c.cadence then .error (.field "contribution" "cadence" c.cadence)
  else if !isPeriodText c.period then .error (.field "contribution" "period" c.period)
  else if !(isInt c.amountCents && 0 < c.amountCents) then
    .error (.field "contribution" "amount_cents" (toString c.amountCents))
  else if !isStatus c.status then .error (.field "contribution" "status" c.status)
  else .ok ()

def CarryForward.check (c : CarryForward) : Except DbFault Unit :=
  if !isDateText c.fromDate then .error (.field "carry_forward" "from_date" c.fromDate)
  else if !isDateText c.toDate then .error (.field "carry_forward" "to_date" c.toDate)
  else if !(isInt c.amountCents && 0 < c.amountCents) then
    .error (.field "carry_forward" "amount_cents" (toString c.amountCents))
  else if !Platform.isEmail c.recordedBy then
    .error (.field "carry_forward" "recorded_by" c.recordedBy)
  else .ok ()

end Assertions

/-! ## `fn::current_period_for` -/

/-- `%Y` and `%G`: four digits, or a sign and the digits outside the years 0 to 9999. -/
def formatYear (y : Int) : List Char :=
  if 0 ≤ y ∧ y ≤ 9999 then padded 4 y.natAbs
  else (if y < 0 then '-' else '+') :: padded 4 y.natAbs

/-- `time::format` with `%G-W%V`, `%Y-%m` or `%Y`. -/
def timeFormat (p : Period) : String := String.ofList (formatYear p.year ++ p.tailChars)

/-- The cadence whose format string `fn::current_period_for` picks: monthly unless the text
says otherwise. -/
def cadenceOrMonthly (cadence : String) : Cadence :=
  if cadence = "weekly" then .weekly
  else if cadence = "yearly" then .yearly
  else .monthly

/-- The current period of a cadence in UTC, as text. -/
def currentPeriodFor (now : DateTime) (cadence : String) : String :=
  timeFormat (.ofDay (cadenceOrMonthly cadence) (utcDay now))

/-! ## Events -/

/-- `contribution_lock_check`. -/
def contributionLockCheck (now : DateTime) (after : Contribution) : Except DbError Unit :=
  let cur := currentPeriodFor now after.cadence
  if after.period < cur then
    .error (.thrown .contributionLockCheck
      ("period_locked: " ++ after.period ++ " < " ++ cur))
  else .ok ()

/-- The row counts towards what a member paid for a period. -/
def Contribution.countsFor (email period : String) (c : Contribution) : Bool :=
  c.userEmail == email && c.period == period && c.status != "rejected"

/-- The amounts of the non-rejected rows of a member and a period. -/
def paidAmounts (rows : List ContributionRecord) (email period : String) : List Int :=
  (rows.filter fun r => r.row.countsFor email period).map fun r => r.row.amountCents

/-- What they come to. -/
def paidSum (rows : List ContributionRecord) (email period : String) : Int :=
  (paidAmounts rows email period).sum

/-- `math::sum` over those amounts, a machine sum. -/
def mathSum (rows : List ContributionRecord) (email period : String) : Int :=
  I64.sum (paidAmounts rows email period)

/-- `contribution_dues_cap`, on the table after the write. Without a settings row the dues are
`NONE`, which is not greater than zero. -/
def contributionDuesCap (ns : Namespace) (after : Contribution) : Except DbError Unit :=
  if after.status = "rejected" then .ok ()
  else
    match ns.settings with
    | none => .ok ()
    | some settings =>
        let dues := settings.duesAmountCents
        let paid := mathSum ns.contribution.rows after.userEmail after.period
        if 0 < dues ∧ dues < paid then
          .error (.thrown .contributionDuesCap
            ("dues_cap_exceeded: " ++ toString paid ++ " > " ++ toString dues))
        else .ok ()

/-- `contribution_delete_lock`. -/
def contributionDeleteLock (now : DateTime) (before : Contribution) : Except DbError Unit :=
  let cur := currentPeriodFor now before.cadence
  if before.period < cur then
    .error (.thrown .contributionDeleteLock
      ("period_locked: cannot delete locked contribution " ++ before.period))
  else .ok ()

/-- `$event`. -/
inductive RowEvent where
  | create
  | update
  | delete
  deriving DecidableEq, Repr

/-- `carry_forward_immutable`. -/
def carryForwardImmutable (event : RowEvent) : Except DbError Unit :=
  match event with
  | .create => .ok ()
  | .update | .delete =>
      .error (.thrown .carryForwardImmutable
        ("carry_forward_immutable: the carry-forward seed is set once at venture " ++
          "creation and cannot be modified"))

/-! ## `carry_forward` -/

/-- `UPDATE carry_forward SET .. WHERE ..`. `recorded_at` is `READONLY`. -/
def Namespace.updateCarryForward [Platform] (sel : CarryForward → Bool)
    (set : CarryForward → CarryForward) (_ : DateTime) (ns : Namespace) :
    Except DbError (Unit × Namespace) :=
  match ns.carryForward with
  | none => .ok ((), ns)
  | some row => do
      if sel row then
        let after := set row
        if after.recordedAt ≠ row.recordedAt then
          .error (.fault (.readonly "carry_forward" "recorded_at"))
        else
          after.check.mapError .fault
          carryForwardImmutable .update
          return ((), { ns with carryForward := some after })
      else return ((), ns)

/-- `DELETE carry_forward WHERE ..`. -/
def Namespace.deleteCarryForward (sel : CarryForward → Bool) (_ : DateTime) (ns : Namespace) :
    Except DbError (Unit × Namespace) :=
  match ns.carryForward with
  | none => .ok ((), ns)
  | some row => do
      if sel row then
        carryForwardImmutable .delete
        return ((), { ns with carryForward := none })
      else return ((), ns)

/-- No `UPDATE` that is accepted has changed anything. -/
theorem Namespace.updateCarryForward_ok [Platform] {sel : CarryForward → Bool}
    {set : CarryForward → CarryForward} {now : DateTime} {ns ns' : Namespace} {u : Unit}
    (h : ns.updateCarryForward sel set now = .ok (u, ns')) : ns' = ns := by
  unfold updateCarryForward at h
  split at h
  · cases h
    rfl
  · next row hrow =>
      split at h
      · simp only [carryForwardImmutable] at h
        split at h
        · cases h
        · cases hcheck : (set row).check <;> simp [hcheck, bind, Except.bind, Except.mapError] at h
      · cases h
        rfl

/-- Nor has a `DELETE`. -/
theorem Namespace.deleteCarryForward_ok {sel : CarryForward → Bool} {now : DateTime}
    {ns ns' : Namespace} {u : Unit} (h : ns.deleteCarryForward sel now = .ok (u, ns')) :
    ns' = ns := by
  unfold deleteCarryForward at h
  split at h
  · cases h
    rfl
  · split at h
    · cases h
    · cases h
      rfl

end SharamLedger
