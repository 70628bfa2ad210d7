import SharamLedger.Gateway.Invites
import SharamLedger.Gateway.SignIn
import SharamLedger.Gateway.Tenants
import SharamLedger.Lib.Trace

/-!
# Who belongs to which tenant

Runs of the requests that write the control plane: new tenants, invites and sign-ins. `Effect`
lists all that one request can do to it, and `step_effect` says that it does nothing else.
-/

namespace SharamLedger

open Lib

/-- A request that writes the control plane, or a new clock reading. -/
inductive AccountAction where
  | clock (now : DateTime)
  | createTenant (headers : Headers) (payload : Extracted CreateTenantRequest)
  | createInvite (slug : String) (headers : Headers) (payload : Extracted CreateInviteRequest)
  | revokeInvite (slug key : String) (headers : Headers)
  | deleteInvite (slug key : String) (headers : Headers)
  | signIn (request : AuthRequest)

variable [Platform]

namespace Roster

/-- The state after a request, whatever the response. -/
def step (a : AccountAction) (s : System) : System :=
  match a with
  | .clock now => s.setNow now
  | .createTenant headers payload => ((createTenantHandler headers payload).run s).2
  | .createInvite slug headers payload => ((createInviteHandler slug headers payload).run s).2
  | .revokeInvite slug key headers => ((revokeInviteHandler slug key headers).run s).2
  | .deleteInvite slug key headers => ((deleteInvitePermanent slug key headers).run s).2
  | .signIn request => ((handleAuth request).run s).2

/-- What a request can do to the control plane. -/
inductive Effect (s : System) : AccountAction → System → Prop where
  | same {a : AccountAction} {s' : System} : s'.control = s.control → Effect s a s'
  | registered {a : AccountAction} {s' : System} {init : NewTenant} {r : UserRecord} {c : Control} :
      r ∈ s.control.user.rows → init.createdBy = r.id →
      s.control.registerTenant init s.now = .ok ((), c) → s'.control = c → Effect s a s'
  | invited {a : AccountAction} {s' : System} {input : NewInvite} {i : InviteRecord} {c : Control} :
      s.control.createInviteRow input s.now = .ok (i, c) → s'.control = c → Effect s a s'
  | reactivated {a : AccountAction} {s' : System} {input : NewInvite} {old : InviteRecord}
      {answer : Option InviteRecord} {c : Control} :
      s.control.inviteFor input.tenantSlug input.email = some old →
      old.row.revokedAt.isSome = true →
      s.control.reactivateInvite old.id input s.now = .ok (answer, c) → s'.control = c →
      Effect s a s'
  | revoked {s' : System} {slug key : String} {headers : Headers} {answer : Option InviteRecord}
      {c : Control} :
      FromOwner headers slug s → s.control.revokeInviteRow slug key s.now = .ok (answer, c) →
      s'.control = c → Effect s (.revokeInvite slug key headers) s'
  | deleted {a : AccountAction} {s' : System} {slug key : String} {rows : List InviteRecord}
      {c : Control} :
      s.control.deleteInviteRow slug key s.now = .ok (rows, c) → s'.control = c → Effect s a s'
  | signedIn {s' : System} {request : AuthRequest} {email : String} {r : UserRecord} {c : Control}
      {result : Except HttpError AuthResponse} :
      AddressedTo request s.now email → SignIn s email r c result s' →
      Effect s (.signIn request) s'

theorem createTenant_effect (headers : Headers) (payload : Extracted CreateTenantRequest)
    (s : System) : (createTenantHandler headers payload).StopsOr s fun _ s' =>
      Effect s (.createTenant headers payload) s' := by
  refine (createTenantHandler_spec headers payload s).imp fun _ s' h => ?_
  obtain ⟨p, identity, r, slug, ns, -, -, huser, -, -, -, hregisters, -⟩ := h
  rcases hregisters with ⟨-, hsame⟩ | hregister
  · exact .same hsame
  · exact .registered (Control.userByEmail_eq_some.mp huser).1 rfl hregister rfl

theorem createInvite_effect (slug : String) (headers : Headers)
    (payload : Extracted CreateInviteRequest) (s : System) :
    (createInviteHandler slug headers payload).StopsOr s fun _ s' =>
      Effect s (.createInvite slug headers payload) s' := by
  refine (createInviteHandler_spec slug headers payload s).imp fun _ s' h => ?_
  obtain ⟨-, input, c, mails, -, hwritten, -, rfl⟩ := h
  rcases hwritten with ⟨i, hcreate⟩ | ⟨old, answer, hfind, hrevoked, hreactivate⟩
  · exact .invited hcreate rfl
  · exact .reactivated hfind hrevoked hreactivate rfl

theorem revokeInvite_effect (slug key : String) (headers : Headers) (s : System) :
    (revokeInviteHandler slug key headers).StopsOr s fun _ s' =>
      Effect s (.revokeInvite slug key headers) s' := by
  refine (revokeInviteHandler_spec slug key headers s).imp fun _ s' h => ?_
  obtain ⟨howner, answer, c, hrevoke, rfl⟩ := h
  exact .revoked howner hrevoke rfl

theorem deleteInvite_effect (slug key : String) (headers : Headers) (s : System) :
    (deleteInvitePermanent slug key headers).StopsOr s fun _ s' =>
      Effect s (.deleteInvite slug key headers) s' := by
  refine (deleteInvitePermanent_spec slug key headers s).imp fun _ s' h => ?_
  obtain ⟨-, rows, c, hdelete, rfl⟩ := h
  exact .deleted hdelete rfl

/-- No request does anything else to the control plane. -/
theorem step_effect (a : AccountAction) (s : System) : Effect s a (step a s) := by
  have hstops : ∀ {α : Type} {p : Handler α} {a : AccountAction},
      (p.StopsOr s fun _ s' => Effect s a s') → Effect s a (p.run s).2 := by
    rintro α p a (⟨e, he⟩ | h)
    · exact .same (by rw [he])
    · exact h
  cases a with
  | clock now => exact .same rfl
  | createTenant headers payload => exact hstops (createTenant_effect headers payload s)
  | createInvite slug headers payload => exact hstops (createInvite_effect slug headers payload s)
  | revokeInvite slug key headers => exact hstops (revokeInvite_effect slug key headers s)
  | deleteInvite slug key headers => exact hstops (deleteInvite_effect slug key headers s)
  | signIn request =>
      rcases handleAuth_spec request s with ⟨e, he⟩ | ⟨email, r, c, haddress, h⟩
      · exact .same (by rw [step, he])
      · exact .signedIn haddress h

/-- Users are written by sign-ins only. -/
theorem Effect.users {s s' : System} {a : AccountAction} (h : Effect s a s') :
    s'.control.user = s.control.user ∨ ∃ request email r c result, a = .signIn request ∧
      AddressedTo request s.now email ∧ SignIn s email r c result s' := by
  cases h with
  | same hcontrol => exact .inl (by rw [hcontrol])
  | registered hr hcreator hregister hcontrol =>
      exact .inl (by rw [hcontrol, (Control.registerTenant_ok hregister).1])
  | invited hcreate hcontrol =>
      obtain ⟨-, -, -, -, -, -, husers, -⟩ := Control.createInviteRow_ok hcreate
      exact .inl (by rw [hcontrol, husers])
  | reactivated hfind hrevoked hreactivate hcontrol =>
      rcases Control.updateInvite_ok hreactivate with ⟨-, rfl⟩ | ⟨i, -, -, -, hset⟩
      · exact .inl (by rw [hcontrol])
      · exact .inl (by rw [hcontrol, hset.users])
  | revoked howner hrevoke hcontrol =>
      rcases Control.updateInvite_ok hrevoke with ⟨-, rfl⟩ | ⟨i, -, -, -, hset⟩
      · exact .inl (by rw [hcontrol])
      · exact .inl (by rw [hcontrol, hset.users])
  | deleted hdelete hcontrol =>
      cases hdelete
      exact .inl (by rw [hcontrol])
  | signedIn haddress hsign => exact .inr ⟨_, _, _, _, _, rfl, haddress, hsign⟩

/-- No request removes a user or gives it another address. -/
theorem usersKept_step (a : AccountAction) (s : System) : UsersKept s (step a s) := by
  rcases (step_effect a s).users with husers | ⟨request, email, r, c, result, -, -, hsign⟩
  · exact usersKept_of_users husers
  · exact usersKept_of_put hsign.put hsign.accepts.users

end Roster

end SharamLedger
