import SharamLedger.Ledger.Query
import Mathlib.Data.List.Sort

/-!
# Ledger calls on the control plane

The calls of `crate/ledger/src/client.rs` on users, memberships, invites and the tenant
directory. Each starts with its statements as functions on `Control`; the call itself keeps
the order of the queries and the errors of the source.
-/

namespace SharamLedger

open Lib

/-! ## Inputs and projections -/

structure UpsertUser where
  email : String
  googleSub : String
  displayName : Option String
  deriving DecidableEq, Repr

structure RegisterPassword where
  email : String
  passwordHash : String
  displayName : Option String
  deriving DecidableEq, Repr

structure NewInvite where
  tenantSlug : String
  email : String
  role : String
  invitedBy : Nat
  deriving DecidableEq, Repr

structure NewTenant where
  slug : TenantSlug
  displayName : String
  timezone : String
  currency : String
  cadence : String
  duesAmountCents : Int
  createdBy : Nat
  deriving DecidableEq

/-- A member of a tenant joined with their user row. -/
structure TenantMember where
  email : String
  displayName : Option String
  role : String
  joinedAt : DateTime
  deriving DecidableEq, Repr

/-- A venture as the dashboard lists it. -/
structure VentureSummary where
  slug : String
  displayName : String
  role : String
  createdAt : DateTime
  deriving DecidableEq, Repr

/-! ## Selections -/

namespace Control

/-- `SELECT * FROM ONLY user WHERE email = $email LIMIT 1`. -/
def userByEmail (c : Control) (email : String) : Option UserRecord :=
  c.user.find fun r => r.row.email == email

/-- `SELECT * FROM membership WHERE user IN (SELECT VALUE id FROM user WHERE email = $email)`. -/
def membershipsFor (c : Control) (email : String) : List MembershipRecord :=
  let ids := (c.user.select fun r => r.row.email == email).map (·.id)
  c.membership.select fun r => ids.contains r.row.user

/-- `SELECT * FROM ONLY tenant_directory WHERE slug = $slug LIMIT 1`. -/
def directoryEntry (c : Control) (slug : String) : Option TenantDirectoryRecord :=
  c.tenantDirectory.find fun r => r.row.slug == slug

/-- `SELECT * FROM invite WHERE email = $email AND revoked_at IS NONE`. -/
def openInvites (c : Control) (email : String) : List InviteRecord :=
  c.invite.select fun r => r.row.email == email && r.row.revokedAt.isNone

/-- `SELECT * FROM ONLY invite WHERE tenant_slug = $slug AND email = $email LIMIT 1`. -/
def inviteFor (c : Control) (slug email : String) : Option InviteRecord :=
  c.invite.find fun r => r.row.tenantSlug == slug && r.row.email == email

variable [Platform]

/-! ## Statements -/

/-- The `UPSERT` of `upsert_user`. `password_hash` is not in its `SET` clause. -/
def upsertUserRow (input : UpsertUser) (now : DateTime) (c : Control) :
    Except DbError (UserRecord × Control) := do
  let (r, t) ← upsertRow (fun r => r.row.email == input.email)
    (fun u => { u with
      email := input.email
      googleSub := some input.googleSub
      displayName := input.displayName })
    { email := input.email
      googleSub := some input.googleSub
      passwordHash := none
      displayName := input.displayName
      displayTz := "UTC"
      createdAt := now } c.user
  return (r, { c with user := t })

/-- `UPDATE ONLY $id SET password_hash = $hash, display_name = $display_name`. -/
def attachPassword (id : Nat) (hash : String) (displayName : Option String) (_ : DateTime)
    (c : Control) : Except DbError (Option UserRecord × Control) := do
  let (r, t) ← updateRow (fun r => r.id == id)
    (fun u => { u with passwordHash := some hash, displayName := displayName }) c.user
  return (r, { c with user := t })

/-- The `CREATE` of `create_password_user`. -/
def createPasswordRow (input : RegisterPassword) (now : DateTime) (c : Control) :
    Except DbError (UserRecord × Control) := do
  let (r, t) ← createRow
    { email := input.email
      googleSub := none
      passwordHash := some input.passwordHash
      displayName := input.displayName
      displayTz := "UTC"
      createdAt := now } c.user
  return (r, { c with user := t })

omit [Platform] in
/-- `UPSERT ONLY membership SET .. WHERE user = $user AND tenant_slug = $slug`. -/
def upsertMembership (user : Nat) (slug role : String) (now : DateTime) (c : Control) :
    Except DbError (MembershipRecord × Control) := do
  let (r, t) ← upsertRow (fun r => r.row.user == user && r.row.tenantSlug == slug)
    (fun m => { m with user := user, tenantSlug := slug, role := role })
    { user := user, tenantSlug := slug, role := role, createdAt := now } c.membership
  return (r, { c with membership := t })

/-- `UPDATE ONLY invite SET .. WHERE .. RETURN AFTER`. -/
def updateInvite (sel : InviteRecord → Bool) (set : Invite → Invite) (c : Control) :
    Except DbError (Option InviteRecord × Control) := do
  let (r, t) ← updateRow sel set c.invite
  return (r, { c with invite := t })

/-- `UPDATE ONLY $id SET accepted_at = time::now()`. -/
def markAccepted (id : Nat) (now : DateTime) (c : Control) :
    Except DbError (Option InviteRecord × Control) :=
  c.updateInvite (fun r => r.id == id) fun i => { i with acceptedAt := some now }

/-- `UPDATE ONLY $id SET revoked_at = NONE, role = $role, invited_by = $invited_by`. -/
def reactivateInvite (id : Nat) (input : NewInvite) (_ : DateTime) (c : Control) :
    Except DbError (Option InviteRecord × Control) :=
  c.updateInvite (fun r => r.id == id) fun i =>
    { i with revokedAt := none, role := input.role, invitedBy := input.invitedBy }

/-- The `CREATE` of `create_invite`. -/
def createInviteRow (input : NewInvite) (now : DateTime) (c : Control) :
    Except DbError (InviteRecord × Control) := do
  let (r, t) ← createRow
    { tenantSlug := input.tenantSlug
      email := input.email
      role := input.role
      invitedBy := input.invitedBy
      createdAt := now
      acceptedAt := none
      revokedAt := none } c.invite
  return (r, { c with invite := t })

omit [Platform] in
/-- `DELETE type::record("invite", $key) WHERE tenant_slug = $slug AND accepted_at IS NONE
RETURN BEFORE`. -/
def deleteInviteRow (slug key : String) (_ : DateTime) (c : Control) :
    Except DbError (List InviteRecord × Control) :=
  let sel : InviteRecord → Bool := fun r =>
    toString r.id == key && r.row.tenantSlug == slug && r.row.acceptedAt.isNone
  .ok (c.invite.select sel, { c with invite := c.invite.delete sel })

/-- `UPDATE ONLY type::record("invite", $key) SET revoked_at = time::now() WHERE
tenant_slug = $slug AND revoked_at IS NONE`. -/
def revokeInviteRow (slug key : String) (now : DateTime) (c : Control) :
    Except DbError (Option InviteRecord × Control) :=
  c.updateInvite
    (fun r => toString r.id == key && r.row.tenantSlug == slug && r.row.revokedAt.isNone)
    fun i => { i with revokedAt := some now }

omit [Platform] in
/-- The transaction that registers a tenant: its directory row and the first owner. -/
def registerTenant (init : NewTenant) (now : DateTime) (c : Control) :
    Except DbError (Unit × Control) := do
  let (_, directory) ← createRow
    { slug := init.slug.val
      displayName := init.displayName
      createdBy := init.createdBy
      createdAt := now } c.tenantDirectory
  let (_, membership) ← createRow
    { user := init.createdBy
      tenantSlug := init.slug.val
      role := "owner"
      createdAt := now } c.membership
  return ((), { c with tenantDirectory := directory, membership := membership })

end Control

/-! ## Users -/

variable [Platform]

/-- How an `UPSERT` fails: for a row that the schema refuses there is no answer. -/
def upsertError : DbError → LedgerError
  | .fault (.field ..) => .notFound
  | e => e.plain

def upsertUser (input : UpsertUser) : LedgerProg UserRecord :=
  onControl upsertError (Control.upsertUserRow input)

omit [Platform] in
def getUserByEmail (email : String) : LedgerProg (Option UserRecord) :=
  readControl fun c => c.userByEmail email

/-- No row: create one. A row without a password: attach the password to it. A row with a
password: `userExists`. -/
def createPasswordUser (input : RegisterPassword) : LedgerProg UserRecord := do
  match ← getUserByEmail input.email with
  | some existing =>
      if existing.row.passwordHash.isSome then .err (.userExists input.email)
      else
        -- keep the stored name unless the caller sent one
        let displayName := input.displayName.or existing.row.displayName
        let row ← onControl DbError.plain
          (Control.attachPassword existing.id input.passwordHash displayName)
        .okOr .notFound row
  | none => onControl DbError.plain (Control.createPasswordRow input)

omit [Platform] in
def listMembershipsFor (email : String) : LedgerProg (List MembershipRecord) :=
  readControl fun c => c.membershipsFor email

omit [Platform] in
def tenantDisplayName (slug : String) : LedgerProg (Option String) :=
  readControl fun c => (c.directoryEntry slug).map fun r => r.row.displayName

omit [Platform] in
/-- Every venture of a user with the display name of the directory, newest membership first. A
slug without a directory row stands for the name. -/
def listUserVentures (email : String) : LedgerProg (List VentureSummary) := do
  let memberships ← listMembershipsFor email
  if memberships.isEmpty then return []
  let slugs := memberships.map fun m => m.row.tenantSlug
  let dirs ← readControl fun c => c.tenantDirectory.select fun d => slugs.contains d.row.slug
  let out := memberships.map fun m =>
    let dir := dirs.find? fun d => d.row.slug == m.row.tenantSlug
    { slug := m.row.tenantSlug
      displayName := (dir.map fun d => d.row.displayName).getD m.row.tenantSlug
      role := m.row.role
      createdAt := m.row.createdAt : VentureSummary }
  return out.insertionSort fun a b => b.createdAt ≤ a.createdAt

omit [Platform] in
/-- The ventures of an address as `list_user_ventures` reports them. -/
def Control.venturesOf (c : Control) (email : String) : List VentureSummary :=
  let memberships := c.membershipsFor email
  let slugs := memberships.map fun m => m.row.tenantSlug
  let dirs := c.tenantDirectory.select fun d => slugs.contains d.row.slug
  (memberships.map fun m =>
    let dir := dirs.find? fun d => d.row.slug == m.row.tenantSlug
    { slug := m.row.tenantSlug
      displayName := (dir.map fun d => d.row.displayName).getD m.row.tenantSlug
      role := m.row.role
      createdAt := m.row.createdAt : VentureSummary }).insertionSort
    fun a b => b.createdAt ≤ a.createdAt

omit [Platform] in
@[simp] theorem run_listUserVentures (email : String) (s : System) :
    (listUserVentures email).run s = (.ok (s.control.venturesOf email), s) := by
  simp only [listUserVentures, listMembershipsFor, Prog.run_bind, run_readControl,
    Control.venturesOf]
  split
  · next hempty => simp [List.isEmpty_iff.mp hempty]
  · simp

/-! ## Invites -/

/-- The loop body of `accept_pending_invites`: the membership first, then the acceptance mark
unless the invite already has one. The slugs newly accepted are returned. -/
def acceptOne (userId : Nat) (inv : InviteRecord) : LedgerProg (List String) := do
  let _ ← onControl mapDbError (Control.upsertMembership userId inv.row.tenantSlug inv.row.role)
  -- the first acceptance keeps its timestamp
  if inv.row.acceptedAt.isSome then return []
  let _ ← onControl DbError.plain (Control.markAccepted inv.id)
  return [inv.row.tenantSlug]

/-- The loop of `accept_pending_invites`. -/
def acceptEach (userId : Nat) : List InviteRecord → LedgerProg (List String)
  | [] => pure []
  | inv :: rest => do
      let accepted ← acceptOne userId inv
      let others ← acceptEach userId rest
      return accepted ++ others

def acceptPendingInvites (email : String) (userId : Nat) : LedgerProg (List String) := do
  let pending ← readControl fun c => c.openInvites email
  acceptEach userId pending

omit [Platform] in
/-- Every member of a tenant joined with the user row, oldest membership first. -/
def listTenantMembers (slug : String) : LedgerProg (List TenantMember) := do
  let memberships ← readControl fun c =>
    (c.membership.select fun r => r.row.tenantSlug == slug).insertionSort
      fun a b => a.row.createdAt ≤ b.row.createdAt
  if memberships.isEmpty then return []
  let ids := memberships.map fun m => m.row.user
  let users ← readControl fun c => c.user.select fun u => ids.contains u.id
  return memberships.map fun m =>
    let user := users.find? fun u => u.id == m.row.user
    { email := (user.map fun u => u.row.email).getD ""
      displayName := user.bind fun u => u.row.displayName
      role := m.row.role
      joinedAt := m.row.createdAt }

omit [Platform] in
/-- The members of a tenant as `list_tenant_members` reports them. -/
def Control.membersOf (c : Control) (slug : String) : List TenantMember :=
  let memberships := (c.membership.select fun r => r.row.tenantSlug == slug).insertionSort
    fun a b => a.row.createdAt ≤ b.row.createdAt
  let ids := memberships.map fun m => m.row.user
  let users := c.user.select fun u => ids.contains u.id
  memberships.map fun m =>
    let user := users.find? fun u => u.id == m.row.user
    { email := (user.map fun u => u.row.email).getD ""
      displayName := user.bind fun u => u.row.displayName
      role := m.row.role
      joinedAt := m.row.createdAt }

omit [Platform] in
@[simp] theorem run_listTenantMembers (slug : String) (s : System) :
    (listTenantMembers slug).run s = (.ok (s.control.membersOf slug), s) := by
  simp only [listTenantMembers, Prog.run_bind, run_readControl, Control.membersOf]
  split
  · next hempty => simp [List.isEmpty_iff.mp hempty]
  · simp

/-- Create an invite, or reactivate a revoked one. -/
def createInvite (input : NewInvite) : LedgerProg InviteRecord := do
  match ← readControl fun c => c.inviteFor input.tenantSlug input.email with
  | some rec =>
      if rec.row.revokedAt.isNone then .err (.inviteExists input.tenantSlug input.email)
      else
        let row ← onControl DbError.plain (Control.reactivateInvite rec.id input)
        .okOr .notFound row
  | none => onControl DbError.plain (Control.createInviteRow input)

omit [Platform] in
def listInvitesForTenant (slug : String) : LedgerProg (List InviteRecord) :=
  readControl fun c =>
    (c.invite.select fun r => r.row.tenantSlug == slug).insertionSort
      fun a b => b.row.createdAt ≤ a.row.createdAt

/-- Hard-delete an invite that is not accepted. -/
def deleteInvite (slug inviteKey : String) : LedgerProg Unit := do
  let deleted ← onControl DbError.plain (Control.deleteInviteRow slug inviteKey)
  .ensure (!deleted.isEmpty) .notFound

/-- Mark an invite of this tenant revoked. -/
def revokeInvite (slug inviteKey : String) : LedgerProg InviteRecord := do
  let row ← onControl DbError.plain (Control.revokeInviteRow slug inviteKey)
  .okOr .notFound row

end SharamLedger
