import SharamLedger.Gateway.Gates
import SharamLedger.Gateway.Reads
import SharamLedger.Ledger.Accounts
import SharamLedger.Sample

/-!
# Isolation of tenants

A request on one tenant, from whomever it comes, leaves the other tenants alone; a request from
outside the tenant changes nothing, and its answer tells nothing about any tenant's data.
-/

namespace SharamLedger

open Lib

/-- What a request on the tenant may change. -/
structure Confined (slug : String) (s s' : System) : Prop where
  now : s'.now = s.now
  namespaces : ∀ other, other ≠ slug → s'.namespaces other = s.namespaces other
  users : s'.control.user = s.control.user
  memberships : s'.control.membership = s.control.membership
  directory : s'.control.tenantDirectory = s.control.tenantDirectory
  invites : ∀ i, i.row.tenantSlug ≠ slug →
    (i ∈ s'.control.invite.rows ↔ i ∈ s.control.invite.rows)
  proofs : ∀ key, Text.startsWith key (proofPrefix slug) = false → s'.proofs key = s.proofs key
  outbox : ∃ mails, (∀ mail ∈ mails, mail.tenantSlug = slug) ∧ s'.outbox = s.outbox ++ mails

namespace Confined

variable {slug : String}

theorem refl (s : System) : Confined slug s s :=
  ⟨rfl, fun _ _ => rfl, rfl, rfl, rfl, fun _ _ => .rfl, fun _ _ => rfl, [], by simp, by simp⟩

theorem trans {s s' s'' : System} (h : Confined slug s s') (h' : Confined slug s' s'') :
    Confined slug s s'' where
  now := h'.now.trans h.now
  namespaces other hne := (h'.namespaces other hne).trans (h.namespaces other hne)
  users := h'.users.trans h.users
  memberships := h'.memberships.trans h.memberships
  directory := h'.directory.trans h.directory
  invites i hne := (h'.invites i hne).trans (h.invites i hne)
  proofs key hkey := (h'.proofs key hkey).trans (h.proofs key hkey)
  outbox := by
    obtain ⟨mails, hmails, hbox⟩ := h.outbox
    obtain ⟨mails', hmails', hbox'⟩ := h'.outbox
    refine ⟨mails ++ mails', fun mail hmail => ?_, by rw [hbox', hbox, List.append_assoc]⟩
    exact (List.mem_append.mp hmail).elim (hmails mail) (hmails' mail)

instance : Std.Refl (Confined slug) := ⟨refl⟩

instance : IsTrans System (Confined slug) := ⟨fun _ _ _ => trans⟩

theorem setNamespace (s : System) (ns : Namespace) :
    Confined slug s (s.setNamespace slug ns) :=
  { refl s with namespaces := fun _ hne => s.namespaces_setNamespace_of_ne ns hne }

/-- Invites of the tenant may change. -/
theorem ofInvites {s : System} {c : Control} {mails : List InviteEmail}
    (husers : c.user = s.control.user) (hmemberships : c.membership = s.control.membership)
    (hdirectory : c.tenantDirectory = s.control.tenantDirectory)
    (hinvites : ∀ i, i.row.tenantSlug ≠ slug → (i ∈ c.invite.rows ↔ i ∈ s.control.invite.rows))
    (hmails : ∀ mail ∈ mails, mail.tenantSlug = slug) :
    Confined slug s { s with control := c, outbox := s.outbox ++ mails } where
  now := rfl
  namespaces _ _ := rfl
  users := husers
  memberships := hmemberships
  directory := hdirectory
  invites := hinvites
  proofs _ _ := rfl
  outbox := ⟨mails, hmails, rfl⟩

end Confined

section Requests

variable [Platform]

/-! ## What the routes may change -/

section Writes

variable {slug : String} {headers : Headers} {s : System}

omit [Platform] in
/-- A handler that stops or changes the state as allowed keeps to the tenant. -/
theorem Confined.of_stopsOr {α : Type} {p : Handler α}
    (h : p.StopsOr s fun _ s' => Confined slug s s') : Confined slug s (p.run s).2 := by
  rcases h with ⟨e, he⟩ | h
  · rw [he]
    exact refl s
  · exact h

theorem postContribution_confined (payload : Extracted PostContributionRequest) :
    Confined slug s ((postContribution slug headers payload).run s).2 := by
  refine .of_stopsOr ((postContribution_spec slug headers payload s).imp fun _ s' h => ?_)
  obtain ⟨-, p, identity, settings, period, record, ns', -, -, -, -, -, -, -, rfl⟩ := h
  exact .setNamespace s ns'

theorem patchSettings_confined (payload : Extracted PatchSettingsRequest) :
    Confined slug s ((patchSettings slug headers payload).run s).2 := by
  refine .of_stopsOr ((patchSettings_spec slug headers payload s).imp fun _ s' h => ?_)
  rcases h with rfl | ⟨p, identity, row, ns', -, -, -, -, -, rfl⟩
  · exact .refl s'
  · exact .setNamespace s ns'

theorem setCarryForwardHandler_confined (payload : Extracted SetCarryForwardRequest) :
    Confined slug s ((setCarryForwardHandler slug headers payload).run s).2 := by
  refine .of_stopsOr ((setCarryForwardHandler_spec slug headers payload s).imp fun _ s' h => ?_)
  obtain ⟨-, input, row, ns', -, rfl⟩ := h
  exact .setNamespace s ns'

omit [Platform] in
/-- Rewriting an invite of the tenant leaves those of other tenants alone. -/
theorem invites_of_inviteSet {c c' : Control} {i : InviteRecord} {row : Invite}
    (hset : Control.InviteSet c c' i row) (hslug : i.row.tenantSlug = slug)
    (hrow : row.tenantSlug = slug) (x : InviteRecord) (hne : x.row.tenantSlug ≠ slug) :
    x ∈ c'.invite.rows ↔ x ∈ c.invite.rows := by
  rw [hset.rows]
  constructor
  · rintro (rfl | ⟨hx, -⟩)
    · exact absurd hrow hne
    · exact hx
  · intro hx
    exact .inr ⟨hx, fun heq => hne (heq ▸ hslug)⟩

omit [Platform] in
theorem Confined.of_inviteSet {c : Control} {i : InviteRecord} {row : Invite}
    {mails : List InviteEmail} (hset : Control.InviteSet s.control c i row)
    (hslug : i.row.tenantSlug = slug) (hrow : row.tenantSlug = slug)
    (hmails : ∀ mail ∈ mails, mail.tenantSlug = slug) :
    Confined slug s { s with control := c, outbox := s.outbox ++ mails } :=
  .ofInvites hset.users hset.memberships hset.directory (invites_of_inviteSet hset hslug hrow)
    hmails

theorem createInviteHandler_confined (payload : Extracted CreateInviteRequest) :
    Confined slug s ((createInviteHandler slug headers payload).run s).2 := by
  refine .of_stopsOr ((createInviteHandler_spec slug headers payload s).imp fun _ s' h => ?_)
  obtain ⟨-, input, c, mails, rfl, hwritten, hmails, rfl⟩ := h
  rcases hwritten with ⟨i, hcreate⟩ | ⟨old, answer, hfind, -, hreactivate⟩
  · obtain ⟨-, hslug, -, -, -, -, husers, hmemberships, hdirectory, hrows⟩ :=
      Control.createInviteRow_ok hcreate
    refine .ofInvites husers hmemberships hdirectory (fun x hne => ?_) hmails
    rw [hrows]
    exact or_iff_left fun heq => hne (heq ▸ hslug)
  · obtain ⟨hold, hslug, -⟩ := Control.inviteFor_eq_some.mp hfind
    rcases Control.updateInvite_ok hreactivate with ⟨-, rfl⟩ | ⟨i, hid, -, -, hset⟩
    · exact .ofInvites rfl rfl rfl (fun _ _ => .rfl) hmails
    · obtain rfl := Table.eq_of_id_eq hset.mem hold (beq_iff_eq.mp hid)
      exact .of_inviteSet hset hslug hslug hmails

theorem revokeInviteHandler_confined (key : String) :
    Confined slug s ((revokeInviteHandler slug key headers).run s).2 := by
  refine .of_stopsOr ((revokeInviteHandler_spec slug key headers s).imp fun _ s' h => ?_)
  obtain ⟨-, answer, c, hrevoke, rfl⟩ := h
  have hnone : ∀ c, ({ s with control := c } : System) =
      { s with control := c, outbox := s.outbox ++ [] } := by simp
  rw [hnone]
  rcases Control.updateInvite_ok hrevoke with ⟨-, rfl⟩ | ⟨i, hsel, -, -, hset⟩
  · exact .ofInvites rfl rfl rfl (fun _ _ => .rfl) (by simp)
  · simp only [Bool.and_eq_true, beq_iff_eq] at hsel
    exact .of_inviteSet hset hsel.1.2 hsel.1.2 (by simp)

theorem deleteInvitePermanent_confined (key : String) :
    Confined slug s ((deleteInvitePermanent slug key headers).run s).2 := by
  refine .of_stopsOr ((deleteInvitePermanent_spec slug key headers s).imp fun _ s' h => ?_)
  obtain ⟨-, rows, c, hdelete, rfl⟩ := h
  have hnone : ∀ c, ({ s with control := c } : System) =
      { s with control := c, outbox := s.outbox ++ [] } := by simp
  rw [hnone]
  cases hdelete
  refine .ofInvites rfl rfl rfl (fun x hne => ?_) (by simp)
  simp only [Table.mem_delete, and_iff_left_iff_imp]
  intro _
  simp [hne]

/-- The store puts every proof under the tenant's prefix. -/
theorem moves_putProof (slug email contentType ext uuid : String) (bytes : List UInt8) :
    (putProof slug email contentType ext uuid bytes).Moves (Confined slug) := by
  refine Prog.moves_exec fun s key s' h => ?_
  cases hput : Platform.putObject (proofKeyFor slug email ext uuid) with
  | error e => simp [hput] at h
  | ok u =>
      simp only [hput, Except.ok.injEq, Prod.mk.injEq] at h
      rw [← h.2]
      refine { Confined.refl s with proofs := fun other hother => if_neg ?_ }
      rintro rfl
      have hunder : Text.startsWith (proofKeyFor slug email ext uuid) (proofPrefix slug) =
          true := by
        simp [proofKeyFor, Text.startsWith, List.isPrefixOf_iff_prefix]
      exact Bool.noConfusion (hunder.symm.trans hother)

theorem postProof_confined (uuid : String) (body : Extracted (List UInt8)) :
    Confined slug s ((postProof slug uuid headers body).run s).2 := by
  unfold postProof
  refine .of_stopsOr ?_
  refine Prog.stopsOr_bind (Prog.run_lift body s) fun bytes _ => ?_
  refine Prog.stopsOr_bind (run_authenticate headers s) fun identity _ => ?_
  refine Prog.stopsOr_bind (run_tenantSlugOf slug s) fun tenantSlug hslug => ?_
  refine Prog.stopsOr_bind (run_callerIsMember identity.email slug s) fun isMember _ => ?_
  refine Prog.stopsOr_bind (Prog.run_ensure _ _ s) fun _ _ => ?_
  refine Prog.stopsOr_bind (Prog.run_ensure _ _ s) fun _ _ => ?_
  refine Prog.stopsOr_bind (Prog.run_okOr _ _ s) fun ext _ => ?_
  obtain rfl := tenantSlugOf_ok hslug
  exact .inr ((Prog.Moves.bind (moves_putProof _ _ _ _ _ _) fun _ => Prog.moves_pure _).run s)

end Writes

omit [Platform] in
/-- Wrapping the answer leaves the state as it is. -/
theorem Confined.map {α β : Type} {slug : String} {s : System} {p : Handler α} {f : α → β}
    (h : Confined slug s (p.run s).2) :
    Confined slug s ((p >>= fun answer => pure (f answer)).run s).2 := by
  rw [Prog.run_bind_pure]
  exact h

/-- Every request keeps to its tenant. -/
theorem respond_confined (r : TenantRequest) (s : System) :
    Confined r.slug s (r.respond s).2 := by
  obtain ⟨slug, headers, route⟩ := r
  cases route with
  | postContribution payload => exact .map (postContribution_confined payload)
  | myContributions period => exact .map ((moves_myContributions slug period headers).run s)
  | poolContributions period => exact .map ((moves_poolContributions slug period headers).run s)
  | activePeriods => exact .map ((moves_activePeriods slug headers).run s)
  | accumulation bucket => exact .map ((moves_accumulation slug bucket headers).run s)
  | getSettings => exact .map ((moves_getSettings slug headers).run s)
  | patchSettings payload => exact .map (patchSettings_confined payload)
  | createInvite payload => exact .map (createInviteHandler_confined payload)
  | listInvites => exact .map ((moves_listInvites slug headers).run s)
  | revokeInvite key => exact .map (revokeInviteHandler_confined key)
  | deleteInvitePermanent key => exact .map (deleteInvitePermanent_confined key)
  | listMembers => exact .map ((moves_listMembers slug headers).run s)
  | getCarryForward => exact .map ((moves_getCarryForwardHandler slug headers).run s)
  | setCarryForward payload => exact .map (setCarryForwardHandler_confined payload)
  | postProof uuid body => exact .map (postProof_confined uuid body)
  | getProofUrl key => exact .map ((moves_getProofUrl slug key headers).run s)

/-! ## Outsiders -/

omit [Platform] in
/-- The role the gateway looks up is that of a membership row of the address. -/
theorem roleFor_isSome_iff {c : Control} {email slug : String} :
    (c.roleFor email slug).isSome = true ↔ c.HasMembership email slug := by
  simp only [Control.roleFor, Option.isSome_map, List.find?_isSome, beq_iff_eq,
    Control.mem_membershipsFor]
  constructor
  · rintro ⟨m, ⟨hm, u, hu, hemail, huser⟩, hslug⟩
    exact ⟨u, hu, hemail, m, hm, huser, hslug⟩
  · rintro ⟨u, hu, hemail, m, hm, huser, hslug⟩
    exact ⟨m, ⟨hm, u, hu, hemail, huser⟩, hslug⟩

/-- The bearer token is missing or invalid, or verifies to an address without a membership in
the tenant. -/
def Outsider (headers : Headers) (slug : String) (s : System) : Prop :=
  match authResult headers s.now with
  | .error _ => True
  | .ok identity => ¬ s.control.HasMembership identity.email slug

theorem outsider_iff {headers : Headers} {slug : String} {s : System} :
    Outsider headers slug s ↔ ¬ FromMember headers slug s := by
  unfold Outsider FromMember
  cases authResult headers s.now with
  | error e => simp
  | ok identity => simp [← roleFor_isSome_iff]

/-- A request from outside the tenant fails, changes nothing, and gets the answer it would get
whatever the tenant namespaces and the proof store hold. Any other request keeps to its tenant,
and one to an owners' route changes nothing unless it comes from an owner. -/
theorem tenants_isolated (r : TenantRequest) (s : System) :
    (Outsider r.headers r.slug s → ∃ error, ∀ s', s'.now = s.now → s'.control = s.control →
      r.respond s' = (.error error, s')) ∧
    Confined r.slug s (r.respond s).2 ∧
    (r.route.ownerOnly = true → ¬ FromOwner r.headers r.slug s → (r.respond s).2 = s) := by
  refine ⟨fun houtside => ?_, respond_confined r s, fun hroute howner => ?_⟩
  · rcases handle_gated r s with ⟨error, herror⟩ | hmember
    · exact ⟨error, fun s' hnow hcontrol =>
        herror s' (System.checked_eq.mpr ⟨hnow, hcontrol⟩)⟩
    · exact absurd hmember (outsider_iff.mp houtside)
  · rcases handle_gated_owner (s := s) hroute with ⟨error, herror⟩ | hpassed
    · rw [TenantRequest.respond, herror s rfl]
    · exact absurd hpassed howner

end Requests

section Sample

attribute [local instance] Platform.sample

/-- Bob, who is not a member of Ann's venture, asks for its settings. -/
example : ((TenantRequest.mk "pool" (bearer "bob@pool.org" juneNoon) .getSettings).respond
    (openVenture "UTC" 10000 juneNoon)).1 = .error notAMember := by
  decide

end Sample

end SharamLedger
