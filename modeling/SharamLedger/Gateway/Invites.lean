import SharamLedger.Gateway.Auth
import SharamLedger.Ledger.Accounts

/-!
# Invites

The handlers of `crate/gateway/src/routes/invites.rs`, for owners only.
-/

namespace SharamLedger

open Lib

structure CreateInviteRequest where
  email : String
  role : Role := .member
  deriving DecidableEq, Repr

structure InviteView where
  id : String
  tenantSlug : String
  email : String
  role : String
  status : String
  createdAt : String
  acceptedAt : Option String
  revokedAt : Option String
  deriving DecidableEq, Repr

/-- The status shown to the owner. -/
def inviteStatus (rec : InviteRecord) : String :=
  if rec.row.revokedAt.isSome then "revoked"
  else if rec.row.acceptedAt.isSome then "accepted"
  else "pending"

/-- The copy of `valid_email` in `invites.rs`, which trims first. -/
def validInviteEmail (s : String) : Bool := validEmail (Text.trim s)

variable [Platform]

def inviteView (rec : InviteRecord) : InviteView where
  id := toString rec.id
  tenantSlug := rec.row.tenantSlug
  email := rec.row.email
  role := rec.row.role
  status := inviteStatus rec
  createdAt := Platform.toRfc3339 rec.row.createdAt
  acceptedAt := rec.row.acceptedAt.map Platform.toRfc3339
  revokedAt := rec.row.revokedAt.map Platform.toRfc3339

/-- `require_owner`: the caller's address and user row, if their role for `slug` is owner. -/
def requireOwner (headers : Headers) (slug : String) : Handler (String × UserRecord) := do
  let identity ← authenticate headers
  let role ← callerRole identity.email slug
  ensureOwner role
  let found ← ledgerCall internalError (getUserByEmail identity.email)
  let user ← .okOr ⟨401, "session refers to unknown user"⟩ found
  return (identity.email, user)

omit [Platform] in
/-- Hand an invite e-mail to the mailer. Its delivery has no effect on the response. -/
def sendInvite (email : InviteEmail) : Handler Unit :=
  .exec fun s => .ok ((), { s with outbox := s.outbox ++ [email] })

/-- `create_invite`, with the read of the venture's name. -/
def createInviteWith (readName : Handler (Option String)) (slug : String) (headers : Headers)
    (payload : Extracted CreateInviteRequest) : Handler InviteView := do
  let payload ← .lift payload
  let tenantSlug ← tenantSlugOf slug
  let (callerEmail, caller) ← requireOwner headers slug
  let email := Platform.toLowercase (Text.trim payload.email)
  .ensure (validInviteEmail email) ⟨400, "invalid email"⟩
  let invite ← ledgerCall
    (fun
      | .inviteExists .. => ⟨409, "an active invite already exists for this email"⟩
      | other => internalError other)
    (createInvite
      { tenantSlug := tenantSlug.val
        email
        role := payload.role.asStr
        invitedBy := caller.id })
  let displayName ← readName
  sendInvite
    { toEmail := email
      tenantSlug := slug
      tenantDisplayName := displayName.getD slug
      role := payload.role.asStr
      invitedByName := caller.row.displayName
      invitedByEmail := callerEmail }
  return inviteView invite

/-- `create_invite`. -/
def createInviteHandler (slug : String) (headers : Headers)
    (payload : Extracted CreateInviteRequest) : Handler InviteView :=
  createInviteWith (ledgerCall internalError (tenantDisplayName slug)) slug headers payload

/-- `create_invite` when the read of the name fails: `.ok().flatten()` goes on without one. -/
def createInviteUnnamed (slug : String) (headers : Headers)
    (payload : Extracted CreateInviteRequest) : Handler InviteView :=
  createInviteWith (pure none) slug headers payload

/-- `list_invites`. -/
def listInvites (slug : String) (headers : Headers) : Handler (List InviteView) := do
  let _ ← tenantSlugOf slug
  let _ ← requireOwner headers slug
  let rows ← ledgerCall internalError (listInvitesForTenant slug)
  return rows.map inviteView

/-- `delete_invite_permanent`. -/
def deleteInvitePermanent (slug key : String) (headers : Headers) : Handler Unit := do
  let _ ← tenantSlugOf slug
  .ensure (!key.isEmpty) ⟨400, "invite key required"⟩
  let _ ← requireOwner headers slug
  ledgerCall
    (fun
      | .notFound => ⟨404, "invite not found, already accepted, or in another tenant"⟩
      | other => internalError other)
    (deleteInvite slug key)

/-- `revoke_invite`. -/
def revokeInviteHandler (slug key : String) (headers : Headers) : Handler InviteView := do
  let _ ← tenantSlugOf slug
  .ensure (!key.isEmpty) ⟨400, "invite key required"⟩
  let _ ← requireOwner headers slug
  let invite ← ledgerCall
    (fun
      | .notFound => ⟨404, "invite not found or already revoked"⟩
      | other => internalError other)
    (revokeInvite slug key)
  return inviteView invite

/-! ## What the handlers do -/

/-- `require_owner` changes nothing, and only an owner passes it. -/
theorem requireOwner_spec (headers : Headers) (slug : String) (s : System) :
    (requireOwner headers slug).StopsOr s fun _ s' => s' = s ∧ FromOwner headers slug s := by
  unfold requireOwner
  refine Prog.stopsOr_bind (run_authenticate headers s) fun identity hauth => ?_
  refine Prog.stopsOr_bind (run_callerRole identity.email slug s) fun role hrole => ?_
  refine Prog.stopsOr_bind (run_ensureOwner role s) fun u howner => ?_
  have howner : s.control.roleFor identity.email slug = some "owner" := by
    rw [Except.ok.inj hrole]
    exact ensureOwner_ok howner
  refine .inr ⟨?_, identity, hauth, howner⟩
  cases huser : s.control.userByEmail identity.email <;>
    simp [getUserByEmail, huser, Except.mapError]

/-- The invite a request asks for. -/
def inviteInput (tenantSlug : TenantSlug) (caller : UserRecord) (p : CreateInviteRequest) :
    NewInvite where
  tenantSlug := tenantSlug.val
  email := Platform.toLowercase (Text.trim p.email)
  role := p.role.asStr
  invitedBy := caller.id

/-- What an accepted `create_invite` wrote: a new invite, or a revoked one that is open again. -/
def InviteWritten (input : NewInvite) (now : DateTime) (c c' : Control) : Prop :=
  (∃ i, c.createInviteRow input now = .ok (i, c')) ∨
    ∃ old answer, c.inviteFor input.tenantSlug input.email = some old ∧
      old.row.revokedAt.isSome = true ∧
      c.reactivateInvite old.id input now = .ok (answer, c')

theorem createInvite_spec (input : NewInvite) (s : System) :
    (createInvite input).StopsOr s fun _ s' =>
      ∃ c, InviteWritten input s.now s.control c ∧ s' = { s with control := c } := by
  cases hfind : s.control.inviteFor input.tenantSlug input.email with
  | none =>
      cases hcreate : s.control.createInviteRow input s.now with
      | error e => exact .inl ⟨DbError.plain e, by simp [createInvite, hfind, hcreate]⟩
      | ok answer =>
          obtain ⟨i, c⟩ := answer
          exact .inr ⟨c, .inl ⟨i, hcreate⟩, by simp [createInvite, hfind, hcreate]⟩
  | some old =>
      cases hrevoked : old.row.revokedAt with
      | none =>
          exact .inl ⟨.inviteExists input.tenantSlug input.email,
            by simp [createInvite, hfind, hrevoked]⟩
      | some revokedAt =>
          cases hreactivate : s.control.reactivateInvite old.id input s.now with
          | error e =>
              exact .inl ⟨DbError.plain e, by simp [createInvite, hfind, hrevoked, hreactivate]⟩
          | ok answer =>
              obtain ⟨found, c⟩ := answer
              refine .inr ⟨c, .inr ⟨old, found, hfind, by simp [hrevoked], hreactivate⟩, ?_⟩
              simp [createInvite, hfind, hrevoked, hreactivate]

/-- An owner's invite is written for the tenant of the request and announced by e-mail. -/
theorem createInviteHandler_spec (slug : String) (headers : Headers)
    (payload : Extracted CreateInviteRequest) (s : System) :
    (createInviteHandler slug headers payload).StopsOr s fun _ s' => FromOwner headers slug s ∧
      ∃ input c mails, input.tenantSlug = slug ∧ InviteWritten input s.now s.control c ∧
        (∀ mail ∈ mails, mail.tenantSlug = slug) ∧
        s' = { s with control := c, outbox := s.outbox ++ mails } := by
  unfold createInviteHandler createInviteWith
  refine Prog.stopsOr_bind (Prog.run_lift payload s) fun p hp => ?_
  refine Prog.stopsOr_bind (run_tenantSlugOf slug s) fun tenantSlug hslug => ?_
  refine (requireOwner_spec headers slug s).bind fun howner caller => ?_
  refine Prog.stopsOr_bind (Prog.run_ensure _ _ s) fun _ _ => ?_
  obtain rfl := tenantSlugOf_ok hslug
  have hspec := createInvite_spec (inviteInput tenantSlug caller.2 p) s
  rcases hspec with ⟨e, he⟩ | ⟨c, hwritten, hstate⟩
  · simp only [inviteInput] at he
    exact .inl ⟨_, by simp [he, Except.mapError]; rfl⟩
  · refine .inr ⟨howner, inviteInput tenantSlug caller.2 p, c, ?_⟩
    cases hrun : (createInvite (inviteInput tenantSlug caller.2 p)).run s with
    | mk result s' =>
        rw [hrun] at hstate
        obtain rfl : s' = { s with control := c } := hstate
        simp only [inviteInput] at hrun
        cases result with
        | error e => exact ⟨[], rfl, hwritten, by simp, by simp [hrun, Except.mapError]⟩
        | ok invite =>
            let displayName := (c.directoryEntry tenantSlug.val).map fun r => r.row.displayName
            refine ⟨[⟨Platform.toLowercase (Text.trim p.email), tenantSlug.val,
              displayName.getD tenantSlug.val, p.role.asStr, caller.2.row.displayName, caller.1⟩],
              rfl, hwritten, by simp, ?_⟩
            simp [hrun, tenantDisplayName, sendInvite, Except.mapError, displayName]

/-- The invite that `create_invite` returns is stored, open, and has the role asked for. An
acceptance mark on it comes from the invite that was there before. -/
structure InviteReturned (input : NewInvite) (c c' : Control) (i : InviteRecord) : Prop where
  mem : i ∈ c'.invite.rows
  slug : i.row.tenantSlug = input.tenantSlug
  email : i.row.email = input.email
  role : i.row.role = input.role
  opened : i.row.revokedAt = none
  accepted : i.row.acceptedAt =
    (c.inviteFor input.tenantSlug input.email).bind fun old => old.row.acceptedAt

theorem createInvite_ok {input : NewInvite} {s s' : System} {i : InviteRecord}
    (h : (createInvite input).run s = (.ok i, s')) :
    InviteReturned input s.control s'.control i := by
  cases hfind : s.control.inviteFor input.tenantSlug input.email with
  | none =>
      cases hcreate : s.control.createInviteRow input s.now with
      | error e => simp [createInvite, hfind, hcreate] at h
      | ok answer =>
          obtain ⟨r, c⟩ := answer
          simp only [createInvite, Prog.run_bind, run_readControl, hfind, run_onControl, hcreate,
            Prod.mk.injEq, Except.ok.injEq] at h
          obtain ⟨rfl, rfl⟩ := h
          obtain ⟨-, hslug, hemail, hrole, haccepted, hopen, -, -, -, hrows⟩ :=
            Control.createInviteRow_ok hcreate
          refine ⟨(hrows r).mpr (.inr rfl), hslug, hemail, hrole, hopen, ?_⟩
          rw [haccepted, hfind, Option.bind_none]
  | some old =>
      obtain ⟨hold, hslug, hemail⟩ := Control.inviteFor_eq_some.mp hfind
      cases hrevoked : old.row.revokedAt with
      | none => simp [createInvite, hfind, hrevoked] at h
      | some t =>
          cases hset : s.control.reactivateInvite old.id input s.now with
          | error e => simp [createInvite, hfind, hrevoked, hset] at h
          | ok answer =>
              obtain ⟨found, c⟩ := answer
              rcases Control.updateInvite_ok hset with ⟨rfl, -⟩ | ⟨r, hid, -, rfl, hinvite⟩
              · simp [createInvite, hfind, hrevoked, hset] at h
              · obtain rfl := Table.eq_of_id_eq hinvite.mem hold (beq_iff_eq.mp hid)
                simp only [createInvite, Prog.run_bind, run_readControl, hfind, run_onControl, hset,
                  hrevoked, Option.isNone_some, Bool.false_eq_true, if_false, Prog.run_okOr,
                  Prod.mk.injEq, Except.ok.injEq] at h
                obtain ⟨rfl, rfl⟩ := h
                refine ⟨(hinvite.rows _).mpr (.inl rfl), hslug, hemail, rfl, rfl, ?_⟩
                rw [hfind, Option.bind_some]

/-- The owner is shown an invite that is stored under the address in lower case, and open. -/
theorem createInviteHandler_ok {slug : String} {headers : Headers} {p : CreateInviteRequest}
    {s : System} {view : InviteView}
    (h : ((createInviteHandler slug headers (.ok p)).run s).1 = .ok view) :
    view.tenantSlug = slug ∧ view.email = normalizeEmail p.email ∧
      ∃ i ∈ ((createInviteHandler slug headers (.ok p)).run s).2.control.invite.rows,
        i.row.tenantSlug = view.tenantSlug ∧ i.row.email = view.email ∧
        i.row.revokedAt = none := by
  have hspec : (createInviteHandler slug headers (.ok p)).StopsOr s fun result s' =>
      ∀ view, result = .ok view → view.tenantSlug = slug ∧ view.email = normalizeEmail p.email ∧
        ∃ i ∈ s'.control.invite.rows, i.row.tenantSlug = view.tenantSlug ∧
          i.row.email = view.email ∧ i.row.revokedAt = none := by
    unfold createInviteHandler createInviteWith
    refine Prog.stopsOr_bind (Prog.run_lift (.ok p) s) fun p' hp => ?_
    obtain rfl := Except.ok.inj hp
    refine Prog.stopsOr_bind (run_tenantSlugOf slug s) fun tenantSlug hslug => ?_
    refine (requireOwner_spec headers slug s).bind fun _ caller => ?_
    refine Prog.stopsOr_bind (Prog.run_ensure _ _ s) fun _ _ => ?_
    obtain rfl := tenantSlugOf_ok hslug
    refine .inr fun view hview => ?_
    cases hrun : (createInvite (inviteInput tenantSlug caller.2 p)).run s with
    | mk result s' =>
        simp only [inviteInput] at hrun
        cases result with
        | error e => simp [hrun, Except.mapError] at hview
        | ok invite =>
            have hreturned := createInvite_ok hrun
            simp only [tenantDisplayName, sendInvite, Prog.run_bind, run_ledgerCall,
              Except.mapError, hrun, run_readControl, Prog.run_exec, Prog.run_pure,
              Except.ok.injEq] at hview ⊢
            rw [← hview]
            exact ⟨hreturned.slug, hreturned.email, invite, hreturned.mem, rfl, rfl,
              hreturned.opened⟩
  exact hspec.of_ok h view rfl

/-- An owner's `revoke_invite` marks an invite of the tenant. -/
theorem revokeInviteHandler_spec (slug key : String) (headers : Headers) (s : System) :
    (revokeInviteHandler slug key headers).StopsOr s fun _ s' => FromOwner headers slug s ∧
      ∃ answer c, s.control.revokeInviteRow slug key s.now = .ok (answer, c) ∧
        s' = { s with control := c } := by
  unfold revokeInviteHandler
  refine Prog.stopsOr_bind (run_tenantSlugOf slug s) fun tenantSlug hslug => ?_
  refine Prog.stopsOr_bind (Prog.run_ensure _ _ s) fun _ _ => ?_
  refine (requireOwner_spec headers slug s).bind fun howner caller => ?_
  cases hrevoke : s.control.revokeInviteRow slug key s.now with
  | error e =>
      exact .inl ⟨internalError (DbError.plain e),
        by simp [revokeInvite, hrevoke, Except.mapError, DbError.plain]⟩
  | ok answer =>
      obtain ⟨found, c⟩ := answer
      refine .inr ⟨howner, found, c, rfl, ?_⟩
      cases found <;> simp [revokeInvite, hrevoke, Except.mapError]

/-- An owner's `delete_invite_permanent` removes an invite of the tenant. -/
theorem deleteInvitePermanent_spec (slug key : String) (headers : Headers) (s : System) :
    (deleteInvitePermanent slug key headers).StopsOr s fun _ s' => FromOwner headers slug s ∧
      ∃ rows c, s.control.deleteInviteRow slug key s.now = .ok (rows, c) ∧
        s' = { s with control := c } := by
  unfold deleteInvitePermanent
  refine Prog.stopsOr_bind (run_tenantSlugOf slug s) fun tenantSlug hslug => ?_
  refine Prog.stopsOr_bind (Prog.run_ensure _ _ s) fun _ _ => ?_
  refine (requireOwner_spec headers slug s).bind fun howner caller => .inr ?_
  cases hdelete : s.control.deleteInviteRow slug key s.now with
  | error e => cases hdelete
  | ok answer =>
      obtain ⟨rows, c⟩ := answer
      refine ⟨howner, rows, c, rfl, ?_⟩
      cases hempty : rows.isEmpty <;> simp [deleteInvite, hdelete, hempty, Except.mapError]

end SharamLedger
