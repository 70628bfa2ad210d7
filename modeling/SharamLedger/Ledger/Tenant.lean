import SharamLedger.Ledger.Control

/-!
# Ledger calls on a tenant

`create_tenant` and the calls of `crate/ledger/src/client.rs` on contributions, settings and the
carry-forward seed of one tenant. Each call works in the namespace of the slug it is given. On a
namespace without the tables of the schema the database answers an error of its own; here such a
namespace is an empty one.
-/

namespace SharamLedger

open Lib

/-! ## Inputs and projections -/

structure NewContribution where
  userEmail : String
  cadence : String
  period : String
  amountCents : Int
  proofKey : Option String
  note : Option String
  deriving DecidableEq, Repr

/-- Rolled-up payments of one member for one period. -/
structure PeriodSummary where
  duesCents : Int
  paidCents : Int
  remainingCents : Int
  deriving DecidableEq, Repr

/-- One non-rejected payment: when and how much. -/
structure AccumulationPoint where
  submittedAt : DateTime
  amountCents : Int
  deriving DecidableEq, Repr

/-- A patch: absent fields are left as they are. -/
structure UpdateSettings where
  displayName : Option String
  timezone : Option String
  currency : Option String
  cadence : Option String
  duesAmountCents : Option Int
  purpose : Option String
  deriving DecidableEq, Repr

structure NewCarryForward where
  fromDate : String
  toDate : String
  amountCents : Int
  note : Option String
  recordedBy : String
  deriving DecidableEq, Repr

/-! ## Statements -/

/-- The fields `add_contribution` sets, and the defaults of the others. -/
def NewContribution.row (input : NewContribution) (now : DateTime) : Contribution where
  userEmail := input.userEmail
  cadence := input.cadence
  period := input.period
  amountCents := input.amountCents
  status := "submitted"
  proofKey := input.proofKey
  note := input.note
  submittedAt := now
  updatedAt := now
  lockedAt := none

/-- A blank purpose goes into the patch as a JSON null. -/
def UpdateSettings.clearsPurpose (patch : UpdateSettings) : Bool :=
  patch.purpose.any fun v => (Text.trim v).isEmpty

/-- The database takes the JSON null, if there is one in the patch. -/
def UpdateSettings.NullTaken [Platform] (patch : UpdateSettings) : Prop :=
  patch.clearsPurpose = true → Platform.nullClears = true

instance [Platform] (patch : UpdateSettings) : Decidable patch.NullTaken :=
  inferInstanceAs (Decidable (_ → _))

namespace Namespace

/-- `CREATE settings:current`. -/
def createSettings (init : NewTenant) (now : DateTime) (ns : Namespace) :
    Except DbError (Unit × Namespace) :=
  let row : Settings :=
    { timezone := init.timezone
      currency := init.currency
      displayName := init.displayName
      cadence := init.cadence
      duesAmountCents := init.duesAmountCents
      purpose := none
      createdAt := now
      updatedAt := now }
  match row.check, ns.settings with
  | .error f, _ => .error (.fault f)
  | .ok _, some _ => .error (.fault (.recordExists "settings:current"))
  | .ok _, none => .ok ((), { ns with settings := some row })

/-- The fields of a patch over stored settings. A purpose is trimmed; a blank one is cleared. -/
def mergeSettings (patch : UpdateSettings) (s : Settings) : Settings :=
  { s with
    displayName := patch.displayName.getD s.displayName
    timezone := patch.timezone.getD s.timezone
    currency := patch.currency.getD s.currency
    cadence := patch.cadence.getD s.cadence
    duesAmountCents := patch.duesAmountCents.getD s.duesAmountCents
    purpose := match patch.purpose with
      | some v =>
          let trimmed := Text.trim v
          if trimmed.isEmpty then none else some trimmed
      | none => s.purpose }

/-- `UPDATE ONLY settings:current MERGE $patch RETURN AFTER`. -/
def patchSettings [Platform] (patch : UpdateSettings) (now : DateTime) (ns : Namespace) :
    Except DbError (Option Settings × Namespace) :=
  match ns.settings with
  | none => .ok (none, ns)
  | some s =>
      let row := { mergeSettings patch s with updatedAt := now }
      match row.check with
      | .error f => .error (.fault f)
      | .ok _ =>
          if patch.NullTaken then .ok (some row, { ns with settings := some row })
          else .error (.fault (.field "settings" "purpose" "NULL"))

/-- `CREATE ONLY contribution .. RETURN AFTER`. -/
def addContribution [Platform] (input : NewContribution) (now : DateTime) (ns : Namespace) :
    Except DbError (ContributionRecord × Namespace) :=
  ns.createContribution now (input.row now)

/-- `CREATE carry_forward:current`. -/
def createCarryForward [Platform] (input : NewCarryForward) (now : DateTime) (ns : Namespace) :
    Except DbError (CarryForward × Namespace) :=
  let row : CarryForward :=
    { fromDate := input.fromDate
      toDate := input.toDate
      amountCents := input.amountCents
      note := input.note
      recordedBy := input.recordedBy
      recordedAt := now }
  match row.check, ns.carryForward with
  | .error f, _ => .error (.fault f)
  | .ok _, some _ => .error (.fault (.recordExists "carry_forward:current"))
  | .ok _, none => .ok (row, { ns with carryForward := some row })

end Namespace

/-- The patch has no field. -/
def UpdateSettings.isEmpty (patch : UpdateSettings) : Bool :=
  patch.displayName.isNone && patch.timezone.isNone && patch.currency.isNone &&
    patch.cadence.isNone && patch.duesAmountCents.isNone && patch.purpose.isNone

/-! ## Provisioning -/

/-- Reject a slug that is already registered, write `settings:current` in the new namespace, and
then register the directory row and the first owner in one transaction. -/
def createTenant [Platform] (init : NewTenant) : LedgerProg Unit := do
  let existing ← readControl fun c => c.directoryEntry init.slug.val
  if existing.isSome then .err (.tenantExists init.slug.val)
  else
    -- a failure after this statement leaves the settings behind
    onTenant init.slug DbError.plain (Namespace.createSettings init)
    onControl DbError.plain (Control.registerTenant init)

/-! ## Settings -/

def tenantSettings (slug : TenantSlug) : LedgerProg TenantSettings := do
  let s ← readTenant slug fun ns => ns.settings
  .okOr .notFound (s.map (·.toTenantSettings))

def updateSettings [Platform] (slug : TenantSlug) (patch : UpdateSettings) :
    LedgerProg TenantSettings := do
  -- an empty patch is answered with a read and does not touch `updated_at`
  if patch.isEmpty then tenantSettings slug
  else
    let row ← onTenant slug mapDbError (Namespace.patchSettings patch)
    .okOr .notFound (row.map (·.toTenantSettings))

/-! ## Contributions -/

def addContribution [Platform] (slug : TenantSlug) (input : NewContribution) :
    LedgerProg ContributionRecord :=
  onTenant slug mapDbError (Namespace.addContribution input)

/-- `ORDER BY submitted_at ASC`. -/
def oldestFirst (rows : List ContributionRecord) : List ContributionRecord :=
  rows.insertionSort fun a b => a.row.submittedAt ≤ b.row.submittedAt

def listContributions (slug : TenantSlug) (email period : String) :
    LedgerProg (List ContributionRecord) :=
  readTenant slug fun ns =>
    oldestFirst (ns.contribution.select fun r => r.row.userEmail == email && r.row.period == period)

def listPoolContributions (slug : TenantSlug) (period : String) :
    LedgerProg (List ContributionRecord) :=
  readTenant slug fun ns => oldestFirst (ns.contribution.select fun r => r.row.period == period)

/-- The distinct periods with a row, newest first. -/
def listActivePeriods (slug : TenantSlug) : LedgerProg (List String) :=
  readTenant slug fun ns =>
    ((ns.contribution.rows.map fun r => r.row.period).dedup.insertionSort (· ≤ ·)).reverse

def accumulationPoints (slug : TenantSlug) : LedgerProg (List AccumulationPoint) :=
  readTenant slug fun ns =>
    (oldestFirst (ns.contribution.select fun r => r.row.status != "rejected")).map fun r =>
      { submittedAt := r.row.submittedAt, amountCents := r.row.amountCents }

/-- Payments of `(email, period)` against the current dues. Sums are machine sums. -/
def periodSummary (slug : TenantSlug) (email period : String) : LedgerProg PeriodSummary := do
  let settings ← tenantSettings slug
  let duesCents := settings.duesAmountCents
  let amounts ← readTenant slug fun ns => paidAmounts ns.contribution.rows email period
  let paidCents := I64.sum amounts
  return { duesCents, paidCents, remainingCents := max (I64.sub duesCents paidCents) 0 }

/-! ## Carry-forward -/

def getCarryForward (slug : TenantSlug) : LedgerProg (Option CarryForward) :=
  readTenant slug fun ns => ns.carryForward

/-- Write-once: an existing seed is reported before the `CREATE` is tried. -/
def setCarryForward [Platform] (slug : TenantSlug) (input : NewCarryForward) :
    LedgerProg CarryForward := do
  let existing ← getCarryForward slug
  if existing.isSome then .err .carryForwardExists
  else onTenant slug mapDbError (Namespace.createCarryForward input)

/-! ## What accepted statements did -/

namespace Namespace

/-- An accepted `CREATE settings:current` found no settings and stored checked ones. -/
theorem createSettings_ok {init : NewTenant} {now : DateTime} {ns ns' : Namespace} {u : Unit}
    (h : ns.createSettings init now = .ok (u, ns')) :
    ns.settings = none ∧ ∃ row : Settings, row.check = .ok () ∧
      row.duesAmountCents = init.duesAmountCents ∧ row.cadence = init.cadence ∧
      ns' = { ns with settings := some row } := by
  dsimp only [createSettings] at h
  split at h
  · cases h
  · cases h
  · next hcheck hnone =>
      cases h
      exact ⟨hnone, _, hcheck, rfl, rfl, rfl⟩

/-- An accepted patch found no settings, or stored the checked merge. -/
theorem patchSettings_ok [Platform] {patch : UpdateSettings} {now : DateTime} {ns ns' : Namespace}
    {answer : Option Settings} (h : ns.patchSettings patch now = .ok (answer, ns')) :
    (ns.settings = none ∧ answer = none ∧ ns' = ns) ∨
      ∃ old, ns.settings = some old ∧
        Settings.check { mergeSettings patch old with updatedAt := now } = .ok () ∧
        answer = some { mergeSettings patch old with updatedAt := now } ∧
        ns' = { ns with settings := some { mergeSettings patch old with updatedAt := now } } := by
  unfold patchSettings at h
  cases hs : ns.settings with
  | none =>
      simp only [hs, Except.ok.injEq, Prod.mk.injEq] at h
      exact .inl ⟨rfl, h.1.symm, h.2.symm⟩
  | some old =>
      simp only [hs] at h
      split at h
      · cases h
      · next hcheck =>
          split at h
          · cases h
            exact .inr ⟨old, rfl, hcheck, rfl, rfl⟩
          · cases h

/-- A stored patch has no null that the database refuses. -/
theorem nullTaken_of_patchSettings [Platform] {patch : UpdateSettings} {now : DateTime}
    {ns ns' : Namespace} {row : Settings} (h : ns.patchSettings patch now = .ok (some row, ns')) :
    patch.NullTaken := by
  unfold patchSettings at h
  split at h
  · cases h
  · dsimp only at h
    split at h
    · cases h
    · split at h
      · assumption
      · cases h

/-- Over stored settings a checked merge is accepted when its null is taken. -/
theorem patchSettings_of_check [Platform] {patch : UpdateSettings} {now : DateTime}
    {ns : Namespace} {old : Settings} (hold : ns.settings = some old)
    (hcheck : Settings.check { mergeSettings patch old with updatedAt := now } = .ok ()) :
    ns.patchSettings patch now =
      if patch.NullTaken then
        .ok (some { mergeSettings patch old with updatedAt := now },
          { ns with settings := some { mergeSettings patch old with updatedAt := now } })
      else .error (.fault (.field "settings" "purpose" "NULL")) := by
  simp only [patchSettings, hold, hcheck]

/-- An accepted seed is a checked one, in a tenant without a seed. -/
theorem createCarryForward_ok [Platform] {input : NewCarryForward} {now : DateTime}
    {ns ns' : Namespace} {row : CarryForward}
    (h : ns.createCarryForward input now = .ok (row, ns')) :
    ns.carryForward = none ∧ row.check = .ok () ∧ ns' = { ns with carryForward := some row } := by
  dsimp only [createCarryForward] at h
  split at h
  · cases h
  · cases h
  · next hcheck hnone =>
      cases h
      exact ⟨hnone, hcheck, rfl⟩

end Namespace

end SharamLedger
