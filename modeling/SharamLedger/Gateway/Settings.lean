import SharamLedger.Gateway.Http

/-!
# Tenants, settings, members and the carry-forward seed

The handlers of `tenants.rs`, `settings.rs`, `members.rs` and `carry_forward.rs` under
`crate/gateway/src/routes`. Settings and the carry-forward seed are read by any member and
written by owners only.
-/

namespace SharamLedger

open Lib

/-! ## `POST /api/tenants` -/

/-- The JSON body, after `default_cadence` and the default dues. -/
structure CreateTenantRequest where
  slug : String
  displayName : String
  timezone : String
  currency : String
  cadence : Cadence := .monthly
  duesAmountCents : Int := 0
  deriving DecidableEq, Repr

structure CreateTenantResponse where
  slug : String
  displayName : String
  role : String
  deriving DecidableEq, Repr

variable [Platform]

/-- `create_tenant`. -/
def createTenantHandler (headers : Headers) (payload : Extracted CreateTenantRequest) :
    Handler CreateTenantResponse := do
  let payload ← .lift payload
  let identity ← authenticate headers
  let slug ← tenantSlugOf (Text.trim payload.slug)
  let displayName := Text.trim payload.displayName
  .ensure (!displayName.isEmpty) ⟨400, "display_name is required"⟩
  .ensure (0 ≤ payload.duesAmountCents) ⟨400, "dues_amount_cents must be >= 0"⟩
  let found ← ledgerCall internalError (getUserByEmail identity.email)
  let user ← .okOr ⟨401, "session refers to unknown user"⟩ found
  ledgerCall
    (fun
      | .tenantExists s => ⟨409, "tenant '" ++ s ++ "' already exists"⟩
      | other => internalError other)
    (createTenant
      { slug
        displayName
        timezone := payload.timezone
        currency := payload.currency
        cadence := payload.cadence.asStr
        duesAmountCents := payload.duesAmountCents
        createdBy := user.id })
  return { slug := slug.val, displayName, role := "owner" }

/-! ## `/api/tenants/{slug}/settings` -/

structure SettingsView where
  displayName : String
  timezone : String
  currency : String
  cadence : String
  duesAmountCents : Int
  currentPeriod : String
  purpose : Option String
  deriving DecidableEq, Repr

/-- The current period is blank when the zone or the cadence does not parse. -/
def settingsView (now : DateTime) (s : TenantSettings) : SettingsView where
  displayName := s.displayName
  timezone := s.timezone
  currency := s.currency
  cadence := s.cadence
  duesAmountCents := s.duesAmountCents
  currentPeriod := match parseTz s.timezone, Cadence.fromStr s.cadence with
    | .ok tz, .ok cadence => (Period.currentIn tz cadence now).render
    | _, _ => ""
  purpose := s.purpose

structure PatchSettingsRequest where
  displayName : Option String := none
  timezone : Option String := none
  currency : Option String := none
  cadence : Option Cadence := none
  duesAmountCents : Option Int := none
  purpose : Option String := none
  deriving DecidableEq, Repr

/-- `get_settings`: any member can read. -/
def getSettings (slug : String) (headers : Headers) : Handler SettingsView := do
  let identity ← authenticate headers
  let tenantSlug ← tenantSlugOf slug
  let role ← callerRole identity.email slug
  .ensure role.isSome notAMember
  let s ← ledgerCall settingsError (tenantSettings tenantSlug)
  .read fun state => settingsView state.now s

/-- The checks of a patch in the order the handler makes them. -/
def PatchSettingsRequest.check (payload : PatchSettingsRequest) : Except HttpError Unit :=
  if payload.duesAmountCents.any (· < 0) then .error ⟨400, "dues_amount_cents must be >= 0"⟩
  else if payload.displayName.any fun name => (Text.trim name).isEmpty then
    .error ⟨400, "display_name cannot be empty"⟩
  else if payload.purpose.any fun p => 600 < p.length then
    .error ⟨400, "purpose must be 600 characters or fewer"⟩
  else .ok ()

/-- The patch the ledger is given. -/
def PatchSettingsRequest.toPatch (payload : PatchSettingsRequest) : UpdateSettings where
  displayName := payload.displayName.map Text.trim
  timezone := payload.timezone
  currency := payload.currency
  cadence := payload.cadence.map Cadence.asStr
  duesAmountCents := payload.duesAmountCents
  purpose := payload.purpose

/-- `patch_settings`: owners only. -/
def patchSettings (slug : String) (headers : Headers) (payload : Extracted PatchSettingsRequest) :
    Handler SettingsView := do
  let payload ← .lift payload
  let identity ← authenticate headers
  let tenantSlug ← tenantSlugOf slug
  let role ← callerRole identity.email slug
  ensureOwner role
  .lift payload.check
  let s ← ledgerCall settingsError (updateSettings tenantSlug payload.toPatch)
  .read fun state => settingsView state.now s

/-- What an accepted request to change the settings did: the caller is an owner, and the
namespace took the checked patch. -/
def PatchApplied (slug : String) (headers : Headers) (payload : Extracted PatchSettingsRequest)
    (s s' : System) : Prop :=
  ∃ p identity row ns', payload = .ok p ∧ p.check = .ok () ∧
    authResult headers s.now = .ok identity ∧
    s.control.roleFor identity.email slug = some "owner" ∧
    (s.namespaces slug).patchSettings p.toPatch s.now = .ok (some row, ns') ∧
    s' = s.setNamespace slug ns'

theorem patchSettings_spec (slug : String) (headers : Headers)
    (payload : Extracted PatchSettingsRequest) (s : System) :
    (patchSettings slug headers payload).StopsOr s fun _ s' =>
      s' = s ∨ PatchApplied slug headers payload s s' := by
  unfold patchSettings
  refine Prog.stopsOr_bind (Prog.run_lift payload s) fun p hp => ?_
  refine Prog.stopsOr_bind (run_authenticate headers s) fun identity hauth => ?_
  refine Prog.stopsOr_bind (run_tenantSlugOf slug s) fun tenantSlug hslug => ?_
  refine Prog.stopsOr_bind (run_callerRole identity.email slug s) fun role hrole => ?_
  refine Prog.stopsOr_bind (run_ensureOwner role s) fun u howner => ?_
  refine Prog.stopsOr_bind (Prog.run_lift p.check s) fun u hcheck => ?_
  obtain rfl := tenantSlugOf_ok hslug
  have howner : s.control.roleFor identity.email tenantSlug.val = some "owner" := by
    rw [Except.ok.inj hrole]
    exact ensureOwner_ok howner
  unfold updateSettings
  by_cases hempty : p.toPatch.isEmpty = true
  · right
    left
    cases hs : (s.namespaces tenantSlug.val).settings <;>
      simp [hempty, hs, Except.mapError]
  · cases hpatch : (s.namespaces tenantSlug.val).patchSettings p.toPatch s.now with
    | error e =>
        exact .inl ⟨settingsError (mapDbError e), by simp [hempty, hpatch, Except.mapError]⟩
    | ok answer =>
        obtain ⟨row, ns'⟩ := answer
        rcases Namespace.patchSettings_ok hpatch with ⟨-, rfl, rfl⟩ | ⟨old, -, -, rfl, -⟩
        · right
          left
          simp [hempty, hpatch, Except.mapError]
        · right
          right
          exact ⟨p, identity, _, ns', hp, hcheck, hauth, howner, hpatch,
            by simp [hempty, hpatch, Except.mapError]⟩

/-- An owner's patch that passes its checks and the assertions of the schema is merged. -/
theorem run_patchSettings {slug : TenantSlug} {headers : Headers} {p : PatchSettingsRequest}
    {s : System} {row : Settings} {ns' : Namespace} (howner : FromOwner headers slug.val s)
    (hcheck : p.check = .ok ()) (hfields : p.toPatch.isEmpty = false)
    (hpatch : (s.namespaces slug.val).patchSettings p.toPatch s.now = .ok (some row, ns')) :
    (patchSettings slug.val headers (.ok p)).run s =
      (.ok (settingsView s.now row.toTenantSettings), s.setNamespace slug.val ns') := by
  obtain ⟨identity, hauth, hrole⟩ := howner
  have hslug : TenantSlug.new slug.val = .ok slug := dif_pos slug.valid
  simp [patchSettings, hauth, hslug, hrole, hcheck, updateSettings, hfields, hpatch,
    Except.mapError]

/-- One that the database refuses leaves everything as it is. -/
theorem run_patchSettings_error {slug : TenantSlug} {headers : Headers} {p : PatchSettingsRequest}
    {s : System} {e : DbError} (howner : FromOwner headers slug.val s) (hcheck : p.check = .ok ())
    (hfields : p.toPatch.isEmpty = false)
    (hpatch : (s.namespaces slug.val).patchSettings p.toPatch s.now = .error e) :
    (patchSettings slug.val headers (.ok p)).run s =
      (.error (settingsError (mapDbError e)), s) := by
  obtain ⟨identity, hauth, hrole⟩ := howner
  have hslug : TenantSlug.new slug.val = .ok slug := dif_pos slug.valid
  simp [patchSettings, hauth, hslug, hrole, hcheck, updateSettings, hfields, hpatch,
    Except.mapError]

/-- One that does not pass its checks does so too. -/
theorem run_patchSettings_refused {slug : TenantSlug} {headers : Headers}
    {p : PatchSettingsRequest} {s : System} {e : HttpError}
    (howner : FromOwner headers slug.val s) (hcheck : p.check = .error e) :
    (patchSettings slug.val headers (.ok p)).run s = (.error e, s) := by
  obtain ⟨identity, hauth, hrole⟩ := howner
  have hslug : TenantSlug.new slug.val = .ok slug := dif_pos slug.valid
  simp [patchSettings, hauth, hslug, hrole, hcheck, Except.mapError]

/-- Settings that are read are the stored ones. -/
theorem getSettings_view {slug : String} {headers : Headers} {s : System} {view : SettingsView}
    {row : Settings} (hrow : (s.namespaces slug).settings = some row)
    (h : ((getSettings slug headers).run s).1 = .ok view) :
    view = settingsView s.now row.toTenantSettings := by
  have hstops : (getSettings slug headers).StopsOr s fun result _ =>
      result = .ok (settingsView s.now row.toTenantSettings) := by
    unfold getSettings
    refine Prog.stopsOr_bind (run_authenticate headers s) fun identity _ => ?_
    refine Prog.stopsOr_bind (run_tenantSlugOf slug s) fun tenantSlug hslug => ?_
    refine Prog.stopsOr_bind (run_callerRole identity.email slug s) fun role _ => ?_
    refine Prog.stopsOr_bind (Prog.run_ensure role.isSome notAMember s) fun _ _ => ?_
    obtain rfl := tenantSlugOf_ok hslug
    exact .inr (by simp [tenantSettings, hrow, Except.mapError])
  exact Except.ok.inj (hstops.of_ok h)

/-! ## `/api/tenants/{slug}/members` -/

structure MemberView where
  email : String
  displayName : Option String
  role : String
  joinedAt : String
  lastPeriodStatus : String
  deriving DecidableEq, Repr

def memberView (m : TenantMember) : MemberView where
  email := m.email
  displayName := m.displayName
  role := m.role
  joinedAt := Platform.toRfc3339 m.joinedAt
  lastPeriodStatus := "—"

/-- `list_members`: any member can read. -/
def listMembers (slug : String) (headers : Headers) : Handler (List MemberView) := do
  let identity ← authenticate headers
  let tenantSlug ← tenantSlugOf slug
  let isMember ← callerIsMember identity.email slug
  .ensure isMember notAMember
  let rows ← ledgerCall internalError (listTenantMembers tenantSlug.val)
  return rows.map memberView

/-! ## `/api/tenants/{slug}/carry-forward` -/

structure CarryForwardView where
  fromDate : String
  toDate : String
  amountCents : Int
  note : Option String
  recordedBy : String
  recordedAt : String
  deriving DecidableEq, Repr

def carryForwardView (rec : CarryForward) : CarryForwardView where
  fromDate := rec.fromDate
  toDate := rec.toDate
  amountCents := rec.amountCents
  note := rec.note
  recordedBy := rec.recordedBy
  recordedAt := Platform.toRfc3339 rec.recordedAt

structure SetCarryForwardRequest where
  fromDate : String
  toDate : String
  amountCents : Int
  note : Option String := none
  deriving DecidableEq, Repr

omit [Platform] in
/-- Ten bytes, dashes at 4 and 7, ASCII digits elsewhere. The source finds the dashes by byte and
the digits by character; `SeedDates.page_eq_gateway` shows that it comes to this. -/
def isIsoDate (s : String) : Bool :=
  s.utf8ByteSize == 10 &&
    match s.toList with
    | [a, b, c, d, '-', e, f, '-', g, h] => [a, b, c, d, e, f, g, h].all Char.isDigit
    | _ => false

/-- `get_carry_forward`: any member can read. -/
def getCarryForwardHandler (slug : String) (headers : Headers) :
    Handler (Option CarryForwardView) := do
  let identity ← authenticate headers
  let tenantSlug ← tenantSlugOf slug
  let role ← callerRole identity.email slug
  .ensure role.isSome notAMember
  let row ← ledgerCall internalError (getCarryForward tenantSlug)
  return row.map carryForwardView

/-- The checks of a seed in the order the handler makes them. -/
def SetCarryForwardRequest.check (payload : SetCarryForwardRequest) : Except HttpError Unit :=
  if !(isIsoDate payload.fromDate && isIsoDate payload.toDate) then
    .error ⟨400, "from_date and to_date must be ISO calendar dates (YYYY-MM-DD)"⟩
  else if payload.toDate < payload.fromDate then
    .error ⟨400, "from_date must be on or before to_date"⟩
  else if payload.amountCents ≤ 0 then .error ⟨400, "amount_cents must be greater than 0"⟩
  else .ok ()

/-- `set_carry_forward`: owners only. -/
def setCarryForwardHandler (slug : String) (headers : Headers)
    (payload : Extracted SetCarryForwardRequest) : Handler CarryForwardView := do
  let payload ← .lift payload
  let identity ← authenticate headers
  let tenantSlug ← tenantSlugOf slug
  let role ← callerRole identity.email slug
  ensureOwner role
  .lift payload.check
  let note := (payload.note.map Text.trim).filter fun n => !n.isEmpty
  let row ← ledgerCall
    (fun
      | .carryForwardExists => ⟨409, "carry-forward seed is already set for this venture"⟩
      | other => internalError other)
    (setCarryForward tenantSlug
      { fromDate := payload.fromDate
        toDate := payload.toDate
        amountCents := payload.amountCents
        note
        recordedBy := identity.email })
  return carryForwardView row

/-- The seed a request asks for. -/
def seedInput (identity : Identity) (p : SetCarryForwardRequest) : NewCarryForward where
  fromDate := p.fromDate
  toDate := p.toDate
  amountCents := p.amountCents
  note := (p.note.map Text.trim).filter fun n => !n.isEmpty
  recordedBy := identity.email

/-- An accepted seed comes from an owner and is the first of its tenant. -/
theorem setCarryForwardHandler_spec (slug : String) (headers : Headers)
    (payload : Extracted SetCarryForwardRequest) (s : System) :
    (setCarryForwardHandler slug headers payload).StopsOr s fun _ s' =>
      FromOwner headers slug s ∧ ∃ input row ns',
        (s.namespaces slug).createCarryForward input s.now = .ok (row, ns') ∧
        s' = s.setNamespace slug ns' := by
  unfold setCarryForwardHandler
  refine Prog.stopsOr_bind (Prog.run_lift payload s) fun p hp => ?_
  refine Prog.stopsOr_bind (run_authenticate headers s) fun identity hauth => ?_
  refine Prog.stopsOr_bind (run_tenantSlugOf slug s) fun tenantSlug hslug => ?_
  refine Prog.stopsOr_bind (run_callerRole identity.email slug s) fun role hrole => ?_
  refine Prog.stopsOr_bind (run_ensureOwner role s) fun u howner => ?_
  refine Prog.stopsOr_bind (Prog.run_lift p.check s) fun u hcheck => ?_
  obtain rfl := tenantSlugOf_ok hslug
  have howner : FromOwner headers tenantSlug.val s :=
    ⟨identity, hauth, by rw [Except.ok.inj hrole]; exact ensureOwner_ok howner⟩
  cases hseed : (s.namespaces tenantSlug.val).carryForward with
  | some seed =>
      exact .inl ⟨_, by simp [setCarryForward, getCarryForward, hseed, Except.mapError]; rfl⟩
  | none =>
      cases hcreate : (s.namespaces tenantSlug.val).createCarryForward (seedInput identity p)
          s.now with
      | error e =>
          simp only [seedInput] at hcreate
          exact .inl ⟨_, by
            simp [setCarryForward, getCarryForward, hseed, hcreate, Except.mapError]; rfl⟩
      | ok answer =>
          obtain ⟨row, ns'⟩ := answer
          refine .inr ⟨howner, seedInput identity p, row, ns', hcreate, ?_⟩
          simp only [seedInput] at hcreate
          simp [setCarryForward, getCarryForward, hseed, hcreate, Except.mapError]

end SharamLedger
