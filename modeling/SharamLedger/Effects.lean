import SharamLedger.Deployment
import SharamLedger.Gateway.Tenants
import SharamLedger.Lib.Machine

/-!
# What one request does

`Effect` lists all that an action on the gateway can do to the whole state, with everything the
handler checked. Invariants and the refinement to the books are read off it.
-/

namespace SharamLedger

open Lib

/-! ## Requests whose handlers write more than one field -/

section Handlers

variable [Platform]

/-- The e-mail for an invite that was written in `c`. -/
def inviteMail (slug : String) (c : Control) (identity : Identity) (caller : UserRecord)
    (p : CreateInviteRequest) : InviteEmail where
  toEmail := normalizeEmail p.email
  tenantSlug := slug
  tenantDisplayName := ((c.directoryEntry slug).map fun r => r.row.displayName).getD slug
  role := p.role.asStr
  invitedByName := caller.row.displayName
  invitedByEmail := identity.email

/-- The call fails and leaves everything as it is, or it wrote the invite it returns. -/
theorem createInvite_runs (input : NewInvite) (s : System) :
    (∃ e, (createInvite input).run s = (.error e, s)) ∨
      ∃ i c, (createInvite input).run s = (.ok i, { s with control := c }) ∧
        InviteWritten input s.now s.control c := by
  cases hfind : s.control.inviteFor input.tenantSlug input.email with
  | none =>
      cases hcreate : s.control.createInviteRow input s.now with
      | error e => exact .inl ⟨DbError.plain e, by simp [createInvite, hfind, hcreate]⟩
      | ok answer =>
          obtain ⟨i, c⟩ := answer
          exact .inr ⟨i, c, by simp [createInvite, hfind, hcreate], .inl ⟨i, hcreate⟩⟩
  | some old =>
      cases hrevoked : old.row.revokedAt with
      | none =>
          exact .inl ⟨.inviteExists input.tenantSlug input.email,
            by simp [createInvite, hfind, hrevoked]⟩
      | some revokedAt =>
          cases hreactivate : s.control.reactivateInvite old.id input s.now with
          | error e =>
              exact .inl ⟨DbError.plain e, by simp [createInvite, hfind, hrevoked, hreactivate]⟩
          | ok answer =>
              obtain ⟨found, c⟩ := answer
              rcases Control.updateInvite_ok hreactivate with ⟨rfl, rfl⟩ | ⟨i, -, -, rfl, -⟩
              · exact .inl ⟨.notFound, by simp [createInvite, hfind, hrevoked, hreactivate]⟩
              · exact .inr ⟨_, c, by simp [createInvite, hfind, hrevoked, hreactivate]; rfl,
                  .inr ⟨old, _, hfind, by simp [hrevoked], hreactivate⟩⟩

/-- What an accepted request for an invite did: an owner's invite was written, and one e-mail about
it was handed to the mailer. -/
def InviteSent (slug : String) (headers : Headers) (payload : Extracted CreateInviteRequest)
    (s s' : System) : Prop :=
  ∃ p identity tenantSlug caller c, payload = .ok p ∧ tenantSlug.val = slug ∧
    authResult headers s.now = .ok identity ∧
    s.control.roleFor identity.email slug = some "owner" ∧
    s.control.userByEmail identity.email = some caller ∧
    InviteWritten (inviteInput tenantSlug caller p) s.now s.control c ∧
    s' = { s with control := c, outbox := s.outbox ++ [inviteMail slug c identity caller p] }

/-- `require_owner` stops, or answers with the address of the token and the user it names. -/
theorem requireOwner_runs (headers : Headers) (slug : String) (s : System) :
    (∃ e, (requireOwner headers slug).run s = (.error e, s)) ∨ ∃ identity caller,
      (requireOwner headers slug).run s = (.ok (identity.email, caller), s) ∧
        authResult headers s.now = .ok identity ∧
        s.control.roleFor identity.email slug = some "owner" ∧
        s.control.userByEmail identity.email = some caller := by
  have hspec : (requireOwner headers slug).StopsOr s fun result s' => s' = s ∧
      ∃ identity caller, result = .ok (identity.email, caller) ∧
        authResult headers s.now = .ok identity ∧
        s.control.roleFor identity.email slug = some "owner" ∧
        s.control.userByEmail identity.email = some caller := by
    unfold requireOwner
    refine Prog.stopsOr_bind (run_authenticate headers s) fun identity hauth => ?_
    refine Prog.stopsOr_bind (run_callerRole identity.email slug s) fun role hrole => ?_
    refine Prog.stopsOr_bind (run_ensureOwner role s) fun u howner => ?_
    have howner : s.control.roleFor identity.email slug = some "owner" := by
      rw [Except.ok.inj hrole]
      exact ensureOwner_ok howner
    cases huser : s.control.userByEmail identity.email with
    | none =>
        exact .inl ⟨⟨401, "session refers to unknown user"⟩,
          by simp [getUserByEmail, huser, Except.mapError]⟩
    | some caller =>
        exact .inr ⟨by simp [getUserByEmail, huser, Except.mapError], identity, caller,
          by simp [getUserByEmail, huser, Except.mapError], hauth, howner, huser⟩
  rcases hspec with hfails | ⟨hstate, identity, caller, hresult, hpassed⟩
  · exact .inl hfails
  · exact .inr ⟨identity, caller, Prod.ext hresult hstate, hpassed⟩

theorem createInviteHandler_sent (slug : String) (headers : Headers)
    (payload : Extracted CreateInviteRequest) (s : System) :
    (createInviteHandler slug headers payload).StopsOr s fun _ s' =>
      InviteSent slug headers payload s s' := by
  unfold createInviteHandler
  refine Prog.stopsOr_bind (Prog.run_lift payload s) fun p hp => ?_
  refine Prog.stopsOr_bind (run_tenantSlugOf slug s) fun tenantSlug hslug => ?_
  obtain rfl := tenantSlugOf_ok hslug
  rcases requireOwner_runs headers tenantSlug.val s with
    ⟨e, he⟩ | ⟨identity, caller, hrun, hauth, howner, huser⟩
  · exact .inl ⟨e, by simp [he]⟩
  · refine Prog.stopsOr_bind hrun fun answer hanswer => ?_
    obtain rfl := Except.ok.inj hanswer
    refine Prog.stopsOr_bind (Prog.run_ensure _ _ s) fun _ _ => ?_
    rcases createInvite_runs (inviteInput tenantSlug caller p) s with ⟨e, he⟩ |
      ⟨i, c, hcreate, hwritten⟩
    · simp only [inviteInput] at he
      exact .inl ⟨_, by simp [he, Except.mapError]; rfl⟩
    · simp only [inviteInput] at hcreate
      refine .inr ⟨p, identity, tenantSlug, caller, c, hp, rfl, hauth, howner, huser, hwritten, ?_⟩
      simp [hcreate, tenantDisplayName, sendInvite, inviteMail, normalizeEmail, Except.mapError]

/-- What an accepted seed did: an owner's seed was stored as the first of its tenant. -/
def SeedStored (slug : String) (headers : Headers) (payload : Extracted SetCarryForwardRequest)
    (s s' : System) : Prop :=
  ∃ p identity row ns, payload = .ok p ∧ authResult headers s.now = .ok identity ∧
    s.control.roleFor identity.email slug = some "owner" ∧
    (s.namespaces slug).createCarryForward (seedInput identity p) s.now = .ok (row, ns) ∧
    s' = s.setNamespace slug ns

theorem setCarryForwardHandler_stored (slug : String) (headers : Headers)
    (payload : Extracted SetCarryForwardRequest) (s : System) :
    (setCarryForwardHandler slug headers payload).StopsOr s fun _ s' =>
      SeedStored slug headers payload s s' := by
  unfold setCarryForwardHandler
  refine Prog.stopsOr_bind (Prog.run_lift payload s) fun p hp => ?_
  refine Prog.stopsOr_bind (run_authenticate headers s) fun identity hauth => ?_
  refine Prog.stopsOr_bind (run_tenantSlugOf slug s) fun tenantSlug hslug => ?_
  refine Prog.stopsOr_bind (run_callerRole identity.email slug s) fun role hrole => ?_
  refine Prog.stopsOr_bind (run_ensureOwner role s) fun u howner => ?_
  refine Prog.stopsOr_bind (Prog.run_lift p.check s) fun u hcheck => ?_
  obtain rfl := tenantSlugOf_ok hslug
  have howner : s.control.roleFor identity.email tenantSlug.val = some "owner" := by
    rw [Except.ok.inj hrole]
    exact ensureOwner_ok howner
  cases hseed : (s.namespaces tenantSlug.val).carryForward with
  | some seed =>
      exact .inl ⟨_, by simp [setCarryForward, getCarryForward, hseed, Except.mapError]; rfl⟩
  | none =>
      cases hcreate : (s.namespaces tenantSlug.val).createCarryForward (seedInput identity p)
          s.now with
      | error e =>
          simp only [seedInput] at hcreate
          exact .inl ⟨_, by
            simp [setCarryForward, getCarryForward, hseed, hcreate, Except.mapError]; rfl⟩
      | ok answer =>
          obtain ⟨row, ns'⟩ := answer
          refine .inr ⟨p, identity, row, ns', hp, hauth, howner, hcreate, ?_⟩
          simp only [seedInput] at hcreate
          simp [setCarryForward, getCarryForward, hseed, hcreate, Except.mapError]

/-- What an accepted revocation did. -/
def InviteRevoked (slug key : String) (headers : Headers) (s s' : System) : Prop :=
  ∃ answer c, FromOwner headers slug s ∧
    s.control.revokeInviteRow slug key s.now = .ok (answer, c) ∧ s' = { s with control := c }

/-- What an accepted deletion did. -/
def InviteDeleted (slug key : String) (headers : Headers) (s s' : System) : Prop :=
  ∃ rows c, FromOwner headers slug s ∧
    s.control.deleteInviteRow slug key s.now = .ok (rows, c) ∧ s' = { s with control := c }

/-- A handler may leave the object store, the mail and the clock alone. -/
def Still (s s' : System) : Prop :=
  s'.now = s.now ∧ s'.proofs = s.proofs ∧ s'.outbox = s.outbox

instance : Std.Refl Still := ⟨fun _ => ⟨rfl, rfl, rfl⟩⟩

instance : IsTrans System Still where
  trans _ _ _ h h' := ⟨h'.1.trans h.1, h'.2.1.trans h.2.1, h'.2.2.trans h.2.2⟩

section

-- keeps the checks of the handler from being evaluated while its steps are matched
attribute [local irreducible] Prog.Moves

theorem still_createTenantHandler (headers : Headers)
    (payload : Extracted CreateTenantRequest) :
    (createTenantHandler headers payload).Moves Still := by
  refine .bind (Prog.moves_lift _) fun p => ?_
  refine .bind (moves_authenticate headers) fun identity => ?_
  refine .bind (Prog.moves_lift _) fun slug => ?_
  refine .bind (Prog.moves_ensure _ _) fun _ => ?_
  refine .bind (Prog.moves_ensure _ _) fun _ => ?_
  refine .bind ((moves_readControl _).mapErr _) fun found => ?_
  refine .bind (Prog.moves_okOr _ _) fun user => ?_
  refine .bind (Prog.Moves.mapErr ?_ _) fun _ => Prog.moves_pure _
  refine .bind (moves_readControl _) fun existing => ?_
  split
  · exact Prog.moves_err _
  · refine .bind (moves_onTenant fun s u ns h => ⟨rfl, rfl, rfl⟩) fun _ => ?_
    exact moves_onControl fun s u c _ => ⟨rfl, rfl, rfl⟩

end

end Handlers

/-! ## All requests -/

namespace Deployment

variable [Platform]

/-- What an action can do to the state. -/
inductive Effect (s : System) : GatewayAction → System → Prop where
  | nothing {a : GatewayAction} : Effect s a s
  | clock {now : DateTime} : Effect s (.clock now) (s.setNow now)
  | signedIn {request : AuthRequest} {email : String} {r : UserRecord} {c : Control}
      {s' : System} : AddressedTo request s.now email →
      SignIn s email r c ((handleAuth request).run s).1 s' → Effect s (.auth request) s'
  | founded {headers : Headers} {payload : Extracted CreateTenantRequest} {s' : System} :
      TenantFounded headers payload s s' → Still s s' →
      Effect s (.createTenant headers payload) s'
  | paid {slug : String} {headers : Headers} {payload : Extracted PostContributionRequest}
      {s' : System} : PaymentRecorded slug headers payload s s' →
      Effect s (.tenant ⟨slug, headers, .postContribution payload⟩) s'
  | patched {slug : String} {headers : Headers} {payload : Extracted PatchSettingsRequest}
      {s' : System} : PatchApplied slug headers payload s s' →
      Effect s (.tenant ⟨slug, headers, .patchSettings payload⟩) s'
  | seeded {slug : String} {headers : Headers} {payload : Extracted SetCarryForwardRequest}
      {s' : System} : SeedStored slug headers payload s s' →
      Effect s (.tenant ⟨slug, headers, .setCarryForward payload⟩) s'
  | invited {slug : String} {headers : Headers} {payload : Extracted CreateInviteRequest}
      {s' : System} : InviteSent slug headers payload s s' →
      Effect s (.tenant ⟨slug, headers, .createInvite payload⟩) s'
  | revoked {slug key : String} {headers : Headers} {s' : System} :
      InviteRevoked slug key headers s s' →
      Effect s (.tenant ⟨slug, headers, .revokeInvite key⟩) s'
  | deleted {slug key : String} {headers : Headers} {s' : System} :
      InviteDeleted slug key headers s s' →
      Effect s (.tenant ⟨slug, headers, .deleteInvitePermanent key⟩) s'
  | uploaded {slug uuid : String} {headers : Headers} {body : Extracted (List UInt8)}
      {result : Except HttpError PostProofResponse} {s' : System} :
      ProofUploaded slug uuid headers body s result s' →
      Effect s (.tenant ⟨slug, headers, .postProof uuid body⟩) s'

section

variable {s : System} {a : GatewayAction} {α : Type} {p : Handler α}

theorem effect_of_stopsOr (h : p.StopsOr s fun _ s' => Effect s a s') :
    Effect s a (p.run s).2 := by
  rcases h with ⟨e, he⟩ | h
  · rw [he]
    exact .nothing
  · exact h

theorem effect_of_moves (h : p.Moves (· = ·)) : Effect s a (p.run s).2 := by
  rw [← h.run s]
  exact .nothing

end

theorem respond_effect (request : TenantRequest) (s : System) :
    Effect s (.tenant request) (request.respond s).2 := by
  obtain ⟨slug, headers, route⟩ := request
  cases route <;> rw [TenantRequest.respond, TenantRequest.handle, Prog.run_bind_pure]
  case postContribution payload =>
    exact effect_of_stopsOr ((postContribution_spec slug headers payload s).imp fun _ _ h =>
      .paid h.2)
  case patchSettings payload =>
    refine effect_of_stopsOr ((patchSettings_spec slug headers payload s).imp fun _ s' h => ?_)
    rcases h with rfl | h
    · exact .nothing
    · exact .patched h
  case setCarryForward payload =>
    exact effect_of_stopsOr ((setCarryForwardHandler_stored slug headers payload s).imp
      fun _ _ => .seeded)
  case createInvite payload =>
    exact effect_of_stopsOr ((createInviteHandler_sent slug headers payload s).imp
      fun _ _ => .invited)
  case revokeInvite key =>
    refine effect_of_stopsOr ((revokeInviteHandler_spec slug key headers s).imp fun _ s' h => ?_)
    obtain ⟨howner, answer, c, hrevoke, hs'⟩ := h
    exact .revoked ⟨answer, c, howner, hrevoke, hs'⟩
  case deleteInvitePermanent key =>
    refine effect_of_stopsOr ((deleteInvitePermanent_spec slug key headers s).imp fun _ s' h => ?_)
    obtain ⟨howner, rows, c, hdelete, hs'⟩ := h
    exact .deleted ⟨rows, c, howner, hdelete, hs'⟩
  case postProof uuid body =>
    exact effect_of_stopsOr ((postProof_spec slug uuid headers body s).imp fun _ _ => .uploaded)
  case myContributions period => exact effect_of_moves (moves_myContributions slug period headers)
  case poolContributions period =>
    exact effect_of_moves (moves_poolContributions slug period headers)
  case activePeriods => exact effect_of_moves (moves_activePeriods slug headers)
  case accumulation bucket => exact effect_of_moves (moves_accumulation slug bucket headers)
  case getSettings => exact effect_of_moves (moves_getSettings slug headers)
  case listInvites => exact effect_of_moves (moves_listInvites slug headers)
  case listMembers => exact effect_of_moves (moves_listMembers slug headers)
  case getCarryForward => exact effect_of_moves (moves_getCarryForwardHandler slug headers)
  case getProofUrl key => exact effect_of_moves (moves_getProofUrl slug key headers)

/-- No action does anything else. -/
theorem step_effect (a : GatewayAction) (s : System) : Effect s a (step a s) := by
  cases a with
  | clock now => exact .clock
  | auth request =>
      rcases handleAuth_spec request s with ⟨e, he⟩ | ⟨email, r, c, haddress, hsign⟩
      · rw [step, he]
        exact .nothing
      · exact .signedIn haddress hsign
  | createTenant headers payload =>
      have hstill := (still_createTenantHandler headers payload).run s
      rcases createTenantHandler_spec headers payload s with ⟨e, he⟩ | hfounded
      · rw [step, he]
        exact .nothing
      · exact .founded hfounded hstill
  | tenant request => exact respond_effect request s

end Deployment

end SharamLedger
