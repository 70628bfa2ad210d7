import SharamLedger.Ledger.Tenant

/-!
# Requests, errors and sessions

What every handler of the gateway shares: the headers it reads, the error body it answers with,
and the session tokens of `crate/auth/src/session.rs`. A body that the extractor rejects never
reaches its handler; the rejection is part of the request.
-/

namespace SharamLedger

open Lib

/-- The headers the handlers read; a value that is no visible text counts as absent. -/
structure Headers where
  authorization : Option String
  contentType : Option String
  deriving DecidableEq, Repr

/-- A status with its `ErrorBody`. -/
structure HttpError where
  status : Nat
  error : String
  deriving DecidableEq, Repr

/-- An HTTP handler: a program over the whole state. -/
abbrev Handler := Prog System HttpError

/-- What an extractor makes of a body or a query. -/
abbrev Extracted := Except HttpError

def extractBearer (headers : Headers) : Option String :=
  headers.authorization.bind (Text.stripPrefix "Bearer ")

/-- The default answer to an error of the ledger. -/
def internalError (e : LedgerError) : HttpError := ⟨500, e.message⟩

/-- `settings not found`, or 500. -/
def settingsError : LedgerError → HttpError
  | .notFound => ⟨404, "settings not found"⟩
  | other => internalError other

/-- Run a ledger call and turn its error into a response. -/
def ledgerCall {α : Type} (onError : LedgerError → HttpError) (p : LedgerProg α) : Handler α :=
  p.mapErr onError

/-- `TenantSlug::new`, or 400. -/
def tenantSlugOf (slug : String) : Handler TenantSlug :=
  .lift ((TenantSlug.new slug).mapError fun e => ⟨400, e.message⟩)

/-! ## Sessions -/

def sessionIssuer : String := "sharam"

/-- `Duration::days(DEFAULT_SESSION_TTL_DAYS)` in nanoseconds. -/
def defaultSessionTtl : Nat := 7 * 86400 * 1000000000

/-- `Error::InvalidSession`. -/
def invalidSession (text : String) : String := "invalid session token: " ++ text

section Sessions

variable [Platform]

/-- `SessionSigner::issue` at an instant. -/
def issueSession (now : DateTime) (identity : Identity) : Except String String :=
  (Platform.encodeSession
    { iss := sessionIssuer
      sub := identity.email
      email := identity.email
      name := identity.name
      picture := identity.picture
      exp := timestamp (now + defaultSessionTtl)
      iat := timestamp now }).mapError fun e => invalidSession ("encode: " ++ e)

/-- `SessionSigner::verify` at an instant: signature, then expiry, then issuer. -/
def verifySession (now : DateTime) (token : String) : Except String Identity :=
  match Platform.decodeSession token with
  | .error e => .error (invalidSession e)
  | .ok claims =>
      -- no leeway
      if claims.exp < timestamp now then .error (invalidSession "session expired")
      else if claims.iss ≠ sessionIssuer then .error (invalidSession "InvalidIssuer")
      else .ok { email := claims.email, name := claims.name, picture := claims.picture }

/-- The first step of every protected handler: a bearer token that verifies, or 401. -/
def authenticate (headers : Headers) : Handler Identity := do
  let token ← .okOr ⟨401, "missing bearer token"⟩ (extractBearer headers)
  let identity ← .read fun s => verifySession s.now token
  .lift (identity.mapError fun e => ⟨401, e⟩)

/-- `state.sessions.issue`, or 500. -/
def issue (identity : Identity) : Handler String := do
  let token ← .read fun s => issueSession s.now identity
  .lift (token.mapError fun e => ⟨500, e⟩)

end Sessions

/-! ## Membership checks -/

def callerIsMember (email slug : String) : Handler Bool := do
  let memberships ← ledgerCall internalError (listMembershipsFor email)
  return memberships.any fun m => m.row.tenantSlug == slug

/-- The caller's role for `slug`, or `none` if they are no member. -/
def callerRole (email slug : String) : Handler (Option String) := do
  let memberships ← ledgerCall internalError (listMembershipsFor email)
  return (memberships.find? fun m => m.row.tenantSlug == slug).map fun m => m.row.role

def notAMember : HttpError := ⟨403, "not a member of this venture"⟩

/-- Only the role `owner` passes. -/
def ensureOwner : Option String → Handler Unit
  | some role => .ensure (role == "owner") ⟨403, "owner role required"⟩
  | none => .err notAMember

/-! ## What the shared steps do -/

/-- The role of the first membership row for `slug` among those of the address. -/
def Control.roleFor (c : Control) (email slug : String) : Option String :=
  ((c.membershipsFor email).find? fun m => m.row.tenantSlug == slug).map fun m => m.row.role

/-- The result of `authenticate` at an instant. -/
def authResult [Platform] (headers : Headers) (now : DateTime) : Except HttpError Identity :=
  match extractBearer headers with
  | some token => (verifySession now token).mapError fun e => ⟨401, e⟩
  | none => .error ⟨401, "missing bearer token"⟩

/-- An error answers with the status that it is mapped to. -/
theorem status_of_mapError {ε α : Type} {x : Except ε α} {f : ε → HttpError} {status : Nat}
    {e : HttpError} (h : x.mapError f = .error e) (hf : ∀ e, (f e).status = status) :
    e.status = status := by
  cases x with
  | error found =>
      obtain rfl := Except.error.inj h
      exact hf found
  | ok a => cases h

theorem status_of_authResult [Platform] {headers : Headers} {now : DateTime} {e : HttpError}
    (h : authResult headers now = .error e) : e.status = 401 := by
  unfold authResult at h
  split at h
  · exact status_of_mapError h fun _ => rfl
  · rw [← Except.error.inj h]

/-- The address of a caller is the one in the token. -/
theorem email_of_authResult [Platform] {headers : Headers} {now : DateTime} {identity : Identity}
    {token : String} {claims : SessionClaims} (h : authResult headers now = .ok identity)
    (htoken : extractBearer headers = some token)
    (hclaims : Platform.decodeSession token = .ok claims) : identity.email = claims.email := by
  unfold authResult verifySession at h
  rw [htoken] at h
  simp only [hclaims] at h
  split at h
  · cases h
  · split at h
    · cases h
    · cases h
      rfl

/-- The request comes from a member of the tenant. -/
def FromMember [Platform] (headers : Headers) (slug : String) (s : System) : Prop :=
  ∃ identity, authResult headers s.now = .ok identity ∧
    (s.control.roleFor identity.email slug).isSome = true

/-- The request comes from an owner of the tenant. -/
def FromOwner [Platform] (headers : Headers) (slug : String) (s : System) : Prop :=
  ∃ identity, authResult headers s.now = .ok identity ∧
    s.control.roleFor identity.email slug = some "owner"

@[simp] theorem run_ledgerCall {α : Type} (onError : LedgerError → HttpError) (p : LedgerProg α)
    (s : System) :
    (ledgerCall onError p).run s = ((p.run s).1.mapError onError, (p.run s).2) :=
  Prog.run_mapErr onError p s

@[simp] theorem run_authenticate [Platform] (headers : Headers) (s : System) :
    (authenticate headers).run s = (authResult headers s.now, s) := by
  unfold authenticate authResult
  cases extractBearer headers <;> simp

@[simp] theorem run_tenantSlugOf (slug : String) (s : System) :
    (tenantSlugOf slug).run s = ((TenantSlug.new slug).mapError fun e => ⟨400, e.message⟩, s) :=
  Prog.run_lift _ s

@[simp] theorem run_callerRole (email slug : String) (s : System) :
    (callerRole email slug).run s = (.ok (s.control.roleFor email slug), s) := by
  simp [callerRole, listMembershipsFor, Control.roleFor, Except.mapError]

@[simp] theorem run_callerIsMember (email slug : String) (s : System) :
    (callerIsMember email slug).run s = (.ok (s.control.roleFor email slug).isSome, s) := by
  simp only [callerIsMember, listMembershipsFor, Control.roleFor, Prog.run_bind, run_ledgerCall,
    run_readControl, Except.mapError, Prog.run_pure, Option.isSome_map]
  congr 2
  rw [Bool.eq_iff_iff, List.any_eq_true, List.find?_isSome]

@[simp] theorem run_ensureOwner (role : Option String) (s : System) :
    (ensureOwner role).run s =
      (match role with
        | some role => if role == "owner" then .ok () else .error ⟨403, "owner role required"⟩
        | none => .error notAMember, s) := by
  cases role <;> simp [ensureOwner]

/-- A slug that passes is the text of the path. -/
theorem tenantSlugOf_ok {slug : String} {tenantSlug : TenantSlug}
    (h : (TenantSlug.new slug).mapError (fun e => (⟨400, e.message⟩ : HttpError)) =
      .ok tenantSlug) : tenantSlug.val = slug := by
  cases hnew : TenantSlug.new slug with
  | error e => simp [hnew, Except.mapError] at h
  | ok value =>
      simp only [hnew, Except.mapError, Except.ok.injEq] at h
      rw [← h]
      exact TenantSlug.val_of_new hnew

theorem ensureOwner_ok {role : Option String}
    (h : (match role with
      | some role => if role == "owner" then .ok () else .error ⟨403, "owner role required"⟩
      | none => .error notAMember : Except HttpError Unit) = .ok ()) : role = some "owner" := by
  cases role with
  | none => cases h
  | some role =>
      simp only at h
      split at h
      · next hrole => rw [beq_iff_eq.mp hrole]
      · cases h

@[simp] theorem run_tenantSettings (slug : TenantSlug) (s : System) :
    (tenantSettings slug).run s =
      (match (s.namespaces slug.val).settings with
        | some settings => .ok settings.toTenantSettings
        | none => .error .notFound, s) := by
  unfold tenantSettings
  cases h : (s.namespaces slug.val).settings <;> simp [h]

end SharamLedger
