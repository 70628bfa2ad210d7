import SharamLedger.Gateway.Settings
import SharamLedger.Ledger.Founding

/-!
# What a request for a new tenant did

`POST /api/tenants` either leaves no trace, or it stores the settings of the request in a namespace
without settings and then tries to register the slug.
-/

namespace SharamLedger

open Lib

/-- The call a request makes for the user with the given id. -/
def CreateTenantRequest.toTenant (p : CreateTenantRequest) (slug : TenantSlug) (user : Nat) :
    NewTenant where
  slug := slug
  displayName := Text.trim p.displayName
  timezone := p.timezone
  currency := p.currency
  cadence := p.cadence.asStr
  duesAmountCents := p.duesAmountCents
  createdBy := user

/-- The checks that a request for a new tenant passes. -/
structure CreateTenantRequest.Passes (p : CreateTenantRequest) (slug : TenantSlug) : Prop where
  slug : slug.val = Text.trim p.slug
  name : Text.trim p.displayName ≠ ""
  dues : 0 ≤ p.duesAmountCents

/-- The registration that follows the settings: it fails, or the control plane takes it. -/
def Registers (init : NewTenant) (s s' : System) : Prop :=
  ((∃ e, s.control.registerTenant init s.now = .error e) ∧ s'.control = s.control) ∨
    s.control.registerTenant init s.now = .ok ((), s'.control)

variable [Platform]

/-- The request stored the settings of a new tenant for a signed-in user. -/
def TenantFounded (headers : Headers) (payload : Extracted CreateTenantRequest) (s s' : System) :
    Prop :=
  ∃ p identity r slug ns, payload = .ok p ∧ authResult headers s.now = .ok identity ∧
    s.control.userByEmail identity.email = some r ∧ p.Passes slug ∧
    s.control.directoryEntry slug.val = none ∧
    (s.namespaces slug.val).createSettings (p.toTenant slug r.id) s.now = .ok ((), ns) ∧
    Registers (p.toTenant slug r.id) s s' ∧
    s'.namespaces = (s.setNamespace slug.val ns).namespaces

theorem createTenantHandler_spec (headers : Headers) (payload : Extracted CreateTenantRequest)
    (s : System) : (createTenantHandler headers payload).StopsOr s fun _ s' =>
      TenantFounded headers payload s s' := by
  unfold createTenantHandler
  refine Prog.stopsOr_bind (Prog.run_lift payload s) fun p hp => ?_
  refine Prog.stopsOr_bind (run_authenticate headers s) fun identity hauth => ?_
  refine Prog.stopsOr_bind (run_tenantSlugOf _ s) fun slug hslug => ?_
  refine Prog.stopsOr_bind (Prog.run_ensure _ _ s) fun _ hname => ?_
  refine Prog.stopsOr_bind (Prog.run_ensure _ _ s) fun _ hdues => ?_
  have hpasses : p.Passes slug :=
    ⟨tenantSlugOf_ok hslug, by simp_all, by simp_all⟩
  cases huser : s.control.userByEmail identity.email with
  | none =>
      exact .inl ⟨⟨401, "session refers to unknown user"⟩,
        by simp [getUserByEmail, huser, Except.mapError]⟩
  | some r =>
      cases hdirectory : s.control.directoryEntry slug.val with
      | some entry =>
          exact .inl ⟨_, by
            simp [getUserByEmail, huser, createTenant, hdirectory, Except.mapError]; rfl⟩
      | none =>
          cases hsettings : (s.namespaces slug.val).createSettings (p.toTenant slug r.id)
              s.now with
          | error e =>
              simp only [CreateTenantRequest.toTenant] at hsettings
              exact .inl ⟨_, by
                simp [getUserByEmail, huser, createTenant, hdirectory, hsettings, Except.mapError]
                rfl⟩
          | ok answer =>
              obtain ⟨⟨⟩, ns⟩ := answer
              cases hregister : s.control.registerTenant (p.toTenant slug r.id) s.now with
              | error e =>
                  refine .inr ⟨p, identity, r, slug, ns, hp, hauth, huser, hpasses, hdirectory,
                    hsettings, .inl ⟨⟨e, hregister⟩, ?_⟩, ?_⟩
                  all_goals simp only [CreateTenantRequest.toTenant] at hsettings hregister
                  all_goals simp [getUserByEmail, huser, createTenant, hdirectory, hsettings,
                    hregister, Except.mapError]
              | ok answer =>
                  refine .inr ⟨p, identity, r, slug, ns, hp, hauth, huser, hpasses, hdirectory,
                    hsettings, .inr (hregister.trans ?_), ?_⟩
                  all_goals simp only [CreateTenantRequest.toTenant] at hsettings hregister
                  all_goals simp [getUserByEmail, huser, createTenant, hdirectory, hsettings,
                    hregister, Except.mapError]

end SharamLedger
