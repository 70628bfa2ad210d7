import SharamLedger.Gateway.Routes

/-!
# Who passes the gate of a route

Every handler under `/api/tenants/{slug}/` repeats the token, slug and membership checks. Up to
the last of them it reads nothing but the clock and the control plane, so a caller who fails one
gets the same answer whatever the tenant namespaces hold.
-/

namespace SharamLedger

open Lib

/-- What a handler may read before its checks have passed. -/
def System.checked (s : System) : DateTime × Control := (s.now, s.control)

theorem System.checked_eq {s s' : System} :
    s'.checked = s.checked ↔ s'.now = s.now ∧ s'.control = s.control :=
  Prod.ext_iff

variable [Platform]

section Gates

variable {α : Type} {s : System} {P : Prop} {headers : Headers} {slug : String}

/-! ## The shared checks -/

omit [Platform] in
theorem gated_lift {β : Type} {result : Except HttpError β} {f : β → Handler α}
    (h : ∀ value, result = .ok value → (f value).Gated System.checked s P) :
    (Prog.lift result >>= f).Gated System.checked s P :=
  Prog.gated_bind (fun s' _ => Prog.run_lift result s') h

omit [Platform] in
theorem gated_tenantSlugOf {f : TenantSlug → Handler α}
    (h : ∀ tenantSlug, (f tenantSlug).Gated System.checked s P) :
    (tenantSlugOf slug >>= f).Gated System.checked s P :=
  Prog.gated_bind (fun s' _ => run_tenantSlugOf slug s') fun tenantSlug _ => h tenantSlug

omit [Platform] in
theorem gated_condition {condition : Bool} {error : HttpError} {f : Unit → Handler α}
    (h : (f ()).Gated System.checked s P) :
    (Prog.ensure condition error >>= f).Gated System.checked s P :=
  Prog.gated_bind (fun s' _ => Prog.run_ensure condition error s') fun _ _ => h

theorem gated_authenticate {f : Identity → Handler α}
    (h : ∀ identity, authResult headers s.now = .ok identity →
      (f identity).Gated System.checked s P) :
    (authenticate headers >>= f).Gated System.checked s P := by
  refine Prog.gated_bind (fun s' hs' => ?_) h
  rw [run_authenticate, (System.checked_eq.mp hs').1]

/-- `caller_is_member`, and 403 unless it holds. -/
theorem gated_callerIsMember {identity : Identity} {f : Bool → Handler α}
    (hauth : authResult headers s.now = .ok identity) :
    (callerIsMember identity.email slug >>= fun isMember =>
      Prog.ensure isMember notAMember >>= fun _ => f isMember).Gated System.checked s
        (FromMember headers slug s) := by
  have hread : ∀ s', s'.checked = s.checked → (callerIsMember identity.email slug).run s' =
      (.ok (s.control.roleFor identity.email slug).isSome, s') := by
    intro s' hs'
    rw [run_callerIsMember, (System.checked_eq.mp hs').2]
  refine Prog.gated_bind hread fun isMember hmember => (Prog.gated_ensure fun htrue => ?_).bind _
  exact ⟨identity, hauth, by rw [Except.ok.inj hmember, htrue]⟩

omit [Platform] in
theorem gated_callerRole {email : String} {f : Option String → Handler α}
    (h : (f (s.control.roleFor email slug)).Gated System.checked s P) :
    (callerRole email slug >>= f).Gated System.checked s P := by
  have hread : ∀ s', s'.checked = s.checked →
      (callerRole email slug).run s' = (.ok (s.control.roleFor email slug), s') := by
    intro s' hs'
    rw [run_callerRole, (System.checked_eq.mp hs').2]
  refine Prog.gated_bind hread fun role hrole => ?_
  rwa [← Except.ok.inj hrole]

/-- Any role passes. -/
theorem gated_anyRole {identity : Identity} {f : Option String → Handler α}
    (hauth : authResult headers s.now = .ok identity) :
    (callerRole identity.email slug >>= fun role =>
      Prog.ensure role.isSome notAMember >>= fun _ => f role).Gated System.checked s
        (FromMember headers slug s) :=
  gated_callerRole ((Prog.gated_ensure fun h => ⟨identity, hauth, h⟩).bind _)

/-- Only the role of owner passes. -/
theorem gated_ensureOwner {identity : Identity} {f : Option String → Handler α}
    (hauth : authResult headers s.now = .ok identity) :
    (callerRole identity.email slug >>= fun role =>
      ensureOwner role >>= fun _ => f role).Gated System.checked s
        (FromOwner headers slug s) := by
  refine gated_callerRole (Prog.Gated.bind ?_ _)
  cases hrole : s.control.roleFor identity.email slug with
  | none => exact .inl ⟨notAMember, fun _ _ => rfl⟩
  | some role =>
      refine Prog.gated_ensure fun howner => ⟨identity, hauth, ?_⟩
      rw [hrole, beq_iff_eq.mp howner]

theorem gated_requireOwner :
    (requireOwner headers slug).Gated System.checked s (FromOwner headers slug s) :=
  gated_authenticate fun _ hauth => gated_ensureOwner hauth

/-! ## The handlers -/

theorem postContribution_gated (payload : Extracted PostContributionRequest) :
    (postContribution slug headers payload).Gated System.checked s (FromMember headers slug s) := by
  unfold postContribution
  exact gated_lift fun _ _ => gated_authenticate fun _ hauth => gated_tenantSlugOf fun _ =>
    gated_callerIsMember hauth

theorem myContributions_gated (period : Extracted (Option String)) :
    (myContributions slug period headers).Gated System.checked s (FromMember headers slug s) := by
  unfold myContributions
  exact gated_lift fun _ _ => gated_authenticate fun _ hauth => gated_tenantSlugOf fun _ =>
    gated_callerIsMember hauth

theorem poolContributions_gated (period : Extracted (Option String)) :
    (poolContributions slug period headers).Gated System.checked s
      (FromMember headers slug s) := by
  unfold poolContributions
  exact gated_lift fun _ _ => gated_authenticate fun _ hauth => gated_tenantSlugOf fun _ =>
    gated_callerIsMember hauth

theorem activePeriods_gated :
    (activePeriods slug headers).Gated System.checked s (FromMember headers slug s) := by
  unfold activePeriods
  exact gated_authenticate fun _ hauth => gated_tenantSlugOf fun _ => gated_callerIsMember hauth

theorem accumulation_gated (bucket : Extracted (Option String)) :
    (accumulation slug bucket headers).Gated System.checked s (FromMember headers slug s) := by
  unfold accumulation
  exact gated_lift fun _ _ => gated_authenticate fun _ hauth => gated_tenantSlugOf fun _ =>
    gated_callerIsMember hauth

theorem getSettings_gated :
    (getSettings slug headers).Gated System.checked s (FromMember headers slug s) := by
  unfold getSettings
  exact gated_authenticate fun _ hauth => gated_tenantSlugOf fun _ => gated_anyRole hauth

theorem patchSettings_gated (payload : Extracted PatchSettingsRequest) :
    (patchSettings slug headers payload).Gated System.checked s (FromOwner headers slug s) := by
  unfold patchSettings
  exact gated_lift fun _ _ => gated_authenticate fun _ hauth => gated_tenantSlugOf fun _ =>
    gated_ensureOwner hauth

theorem createInviteHandler_gated (payload : Extracted CreateInviteRequest) :
    (createInviteHandler slug headers payload).Gated System.checked s
      (FromOwner headers slug s) := by
  unfold createInviteHandler createInviteWith
  exact gated_lift fun _ _ => gated_tenantSlugOf fun _ => gated_requireOwner.bind _

theorem listInvites_gated :
    (listInvites slug headers).Gated System.checked s (FromOwner headers slug s) := by
  unfold listInvites
  exact gated_tenantSlugOf fun _ => gated_requireOwner.bind _

theorem revokeInviteHandler_gated (key : String) :
    (revokeInviteHandler slug key headers).Gated System.checked s (FromOwner headers slug s) := by
  unfold revokeInviteHandler
  exact gated_tenantSlugOf fun _ => gated_condition (gated_requireOwner.bind _)

theorem deleteInvitePermanent_gated (key : String) :
    (deleteInvitePermanent slug key headers).Gated System.checked s
      (FromOwner headers slug s) := by
  unfold deleteInvitePermanent
  exact gated_tenantSlugOf fun _ => gated_condition (gated_requireOwner.bind _)

theorem listMembers_gated :
    (listMembers slug headers).Gated System.checked s (FromMember headers slug s) := by
  unfold listMembers
  exact gated_authenticate fun _ hauth => gated_tenantSlugOf fun _ => gated_callerIsMember hauth

theorem getCarryForwardHandler_gated :
    (getCarryForwardHandler slug headers).Gated System.checked s (FromMember headers slug s) := by
  unfold getCarryForwardHandler
  exact gated_authenticate fun _ hauth => gated_tenantSlugOf fun _ => gated_anyRole hauth

theorem setCarryForwardHandler_gated (payload : Extracted SetCarryForwardRequest) :
    (setCarryForwardHandler slug headers payload).Gated System.checked s
      (FromOwner headers slug s) := by
  unfold setCarryForwardHandler
  exact gated_lift fun _ _ => gated_authenticate fun _ hauth => gated_tenantSlugOf fun _ =>
    gated_ensureOwner hauth

theorem postProof_gated (uuid : String) (body : Extracted (List UInt8)) :
    (postProof slug uuid headers body).Gated System.checked s (FromMember headers slug s) := by
  unfold postProof
  exact gated_lift fun _ _ => gated_authenticate fun _ hauth => gated_tenantSlugOf fun _ =>
    gated_callerIsMember hauth

/-- The key of a proof is checked before the membership. -/
theorem getProofUrl_gated (key : Extracted String) :
    (getProofUrl slug key headers).Gated System.checked s (FromMember headers slug s) := by
  unfold getProofUrl
  exact gated_lift fun _ _ => gated_authenticate fun _ hauth => gated_tenantSlugOf fun _ =>
    gated_condition (gated_callerIsMember hauth)

end Gates

/-- The routes that only owners may use. -/
def TenantRoute.ownerOnly : TenantRoute → Bool
  | .patchSettings _ | .setCarryForward _ | .createInvite _ | .listInvites | .revokeInvite _
  | .deleteInvitePermanent _ => true
  | _ => false

theorem FromOwner.fromMember {headers : Headers} {slug : String} {s : System}
    (h : FromOwner headers slug s) : FromMember headers slug s := by
  obtain ⟨identity, hauth, hrole⟩ := h
  exact ⟨identity, hauth, by rw [hrole]; rfl⟩

/-- A request to an owners' route passes its gate for an owner only. -/
theorem handle_gated_owner {r : TenantRequest} {s : System} (h : r.route.ownerOnly = true) :
    r.handle.Gated System.checked s (FromOwner r.headers r.slug s) := by
  obtain ⟨slug, headers, route⟩ := r
  cases route with
  | patchSettings payload => exact (patchSettings_gated payload).bind _
  | createInvite payload => exact (createInviteHandler_gated payload).bind _
  | listInvites => exact listInvites_gated.bind _
  | revokeInvite key => exact (revokeInviteHandler_gated key).bind _
  | deleteInvitePermanent key => exact (deleteInvitePermanent_gated key).bind _
  | setCarryForward payload => exact (setCarryForwardHandler_gated payload).bind _
  | _ => cases h

/-- Every request passes the gate of its route for a member only. -/
theorem handle_gated (r : TenantRequest) (s : System) :
    r.handle.Gated System.checked s (FromMember r.headers r.slug s) := by
  by_cases howner : r.route.ownerOnly = true
  · exact (handle_gated_owner howner).imp FromOwner.fromMember
  obtain ⟨slug, headers, route⟩ := r
  cases route with
  | postContribution payload => exact (postContribution_gated payload).bind _
  | myContributions period => exact (myContributions_gated period).bind _
  | poolContributions period => exact (poolContributions_gated period).bind _
  | activePeriods => exact activePeriods_gated.bind _
  | accumulation bucket => exact (accumulation_gated bucket).bind _
  | getSettings => exact getSettings_gated.bind _
  | listMembers => exact listMembers_gated.bind _
  | getCarryForward => exact getCarryForwardHandler_gated.bind _
  | postProof uuid body => exact (postProof_gated uuid body).bind _
  | getProofUrl key => exact (getProofUrl_gated key).bind _
  | _ => exact absurd rfl howner

end SharamLedger
