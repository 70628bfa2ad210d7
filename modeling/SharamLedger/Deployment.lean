import SharamLedger.Isolation
import SharamLedger.Roster

/-!
# A deployment over time

Runs of every request the gateway serves: sign-ins, new tenants, and all routes of a tenant.
`Accountable` is what the roll-ups rely on in a reachable state. Members have user rows, payments
come from members, and amounts, seeds and dues are as the schema asserts them.
-/

namespace SharamLedger

open Lib

/-- A request to the gateway, or a new clock reading. -/
inductive GatewayAction where
  | clock (now : DateTime)
  | auth (request : AuthRequest)
  | createTenant (headers : Headers) (payload : Extracted CreateTenantRequest)
  | tenant (request : TenantRequest)

namespace Deployment

section Runs

variable [Platform]

/-- The state after a request, whatever the response. -/
def step (a : GatewayAction) (s : System) : System :=
  match a with
  | .clock now => s.setNow now
  | .auth request => ((handleAuth request).run s).2
  | .createTenant headers payload => ((createTenantHandler headers payload).run s).2
  | .tenant request => (request.respond s).2

/-! ## Users and members -/

/-- Members stay members, and members have user rows if they had them before. -/
structure MembersKept (s s' : System) : Prop where
  members : ∀ email slug, s.control.HasMembership email slug →
    s'.control.HasMembership email slug
  joined : s.control.Joined → s'.control.Joined

omit [Platform] in
theorem membersKept_of_same {s s' : System} (husers : s'.control.user = s.control.user)
    (hmemberships : s'.control.membership = s.control.membership) : MembersKept s s' where
  members email slug h := by
    unfold Control.HasMembership at h ⊢
    rwa [husers, hmemberships]
  joined h := by
    unfold Control.Joined Control.roleOf at h ⊢
    rwa [husers, hmemberships]

omit [Platform] in
/-- Users are kept, a role may change, and a new role is for a user with a row. -/
theorem membersKept_of_roles {s s' : System} (husers : UsersKept s s')
    (hroles : ∀ user slug, s'.control.roleOf user slug = s.control.roleOf user slug ∨
      ∃ role, s'.control.roleOf user slug = some role ∧ ∃ u ∈ s'.control.user.rows, u.id = user) :
    MembersKept s s' where
  members email slug h := by
    refine Control.hasMembership_mono h husers fun user role hrole => ?_
    rcases hroles user slug with hsame | ⟨role', hrole', -⟩
    · exact ⟨role, hsame.trans hrole⟩
    · exact ⟨role', hrole'⟩
  joined h user slug role hrole := by
    rcases hroles user slug with hsame | ⟨role', -, hu⟩
    · obtain ⟨u, hu, hid⟩ := h user slug role (hsame ▸ hrole)
      obtain ⟨u', hu', hid', -⟩ := husers u hu
      exact ⟨u', hu', hid'.trans hid⟩
    · exact hu

theorem membersKept_of_effect {s s' : System} {a : AccountAction} (h : Roster.Effect s a s') :
    MembersKept s s' := by
  cases h with
  | same hcontrol => exact membersKept_of_same (by rw [hcontrol]) (by rw [hcontrol])
  | registered hr hcreator hregister hcontrol =>
      obtain ⟨husers, -, -, hroles⟩ := Control.registerTenant_ok hregister
      rw [← hcontrol] at husers hroles
      refine membersKept_of_roles (usersKept_of_users husers) fun user slug => ?_
      rw [hroles]
      split
      · next hkey =>
          exact .inr ⟨"owner", rfl, _, husers ▸ hr, hcreator.symm.trans hkey.1.symm⟩
      · exact .inl rfl
  | invited hcreate hcontrol =>
      obtain ⟨-, -, -, -, -, -, husers, hmemberships, -⟩ := Control.createInviteRow_ok hcreate
      exact membersKept_of_same (by rw [hcontrol, husers]) (by rw [hcontrol, hmemberships])
  | reactivated hfind hrevoked hreactivate hcontrol =>
      rcases Control.updateInvite_ok hreactivate with ⟨-, rfl⟩ | ⟨i, -, -, -, hset⟩
      · exact membersKept_of_same (by rw [hcontrol]) (by rw [hcontrol])
      · exact membersKept_of_same (by rw [hcontrol, hset.users])
          (by rw [hcontrol, hset.memberships])
  | revoked howner hrevoke hcontrol =>
      rcases Control.updateInvite_ok hrevoke with ⟨-, rfl⟩ | ⟨i, -, -, -, hset⟩
      · exact membersKept_of_same (by rw [hcontrol]) (by rw [hcontrol])
      · exact membersKept_of_same (by rw [hcontrol, hset.users])
          (by rw [hcontrol, hset.memberships])
  | deleted hdelete hcontrol =>
      cases hdelete
      exact membersKept_of_same (by rw [hcontrol]) (by rw [hcontrol])
  | @signedIn _ request email r c result haddress hsign =>
      refine membersKept_of_roles (usersKept_of_put hsign.put hsign.accepts.users)
        fun user slug => ?_
      have hput := hsign.put.roleOf user slug
      by_cases hne : user = r.id
      · subst hne
        rcases hsign.accepts.mine slug with hsame | ⟨i, -, -, hrole⟩
        · exact .inl (hsame.trans hput)
        · exact .inr ⟨_, hrole, r, hsign.mem_user, rfl⟩
      · exact .inl ((hsign.accepts.others user slug hne).trans hput)

theorem membersKept_step (a : GatewayAction) (s : System) : MembersKept s (step a s) := by
  cases a with
  | clock now => exact membersKept_of_same rfl rfl
  | auth request => exact membersKept_of_effect (Roster.step_effect (.signIn request) s)
  | createTenant headers payload =>
      exact membersKept_of_effect (Roster.step_effect (.createTenant headers payload) s)
  | tenant request =>
      have hconfined := respond_confined request s
      exact membersKept_of_same hconfined.users hconfined.memberships

/-! ## Namespaces -/

/-- What a request wrote in the namespaces: nothing, or a payment, the settings or the seed of its
tenant. -/
inductive Wrote (request : TenantRequest) (s s' : System) : Prop where
  | nothing : s'.namespaces = s.namespaces → Wrote request s s'
  | payment {payload : Extracted PostContributionRequest} :
      request.route = .postContribution payload →
      PaymentRecorded request.slug request.headers payload s s' → Wrote request s s'
  | settings {payload : Extracted PatchSettingsRequest} :
      request.route = .patchSettings payload →
      PatchApplied request.slug request.headers payload s s' → Wrote request s s'
  | seed {payload : Extracted SetCarryForwardRequest} {input : NewCarryForward}
      {row : CarryForward} {ns : Namespace} :
      request.route = .setCarryForward payload →
      (s.namespaces request.slug).createCarryForward input s.now = .ok (row, ns) →
      s' = s.setNamespace request.slug ns → Wrote request s s'

section Wrote

variable {request : TenantRequest} {s : System}

theorem wrote_of_stopsOr {α : Type} {p : Handler α}
    (h : p.StopsOr s fun _ s' => Wrote request s s') : Wrote request s (p.run s).2 := by
  rcases h with ⟨e, he⟩ | h
  · exact .nothing (by rw [he])
  · exact h

theorem wrote_of_moves {α : Type} {p : Handler α} (h : p.Moves (· = ·)) (s : System) :
    Wrote request s (p.run s).2 :=
  .nothing (congrArg System.namespaces (h.run s).symm)

end Wrote

theorem respond_wrote (request : TenantRequest) (s : System) :
    Wrote request s (request.respond s).2 := by
  obtain ⟨slug, headers, route⟩ := request
  cases route <;> rw [TenantRequest.respond, TenantRequest.handle, Prog.run_bind_pure]
  case postContribution payload =>
    refine wrote_of_stopsOr ((postContribution_spec slug headers payload s).imp fun _ s' h => ?_)
    exact .payment rfl h.2
  case patchSettings payload =>
    refine wrote_of_stopsOr ((patchSettings_spec slug headers payload s).imp fun _ s' h => ?_)
    rcases h with rfl | h
    · exact .nothing rfl
    · exact .settings rfl h
  case setCarryForward payload =>
    refine wrote_of_stopsOr
      ((setCarryForwardHandler_spec slug headers payload s).imp fun _ s' h => ?_)
    obtain ⟨-, input, row, ns', hcreate, hs'⟩ := h
    exact .seed rfl hcreate hs'
  case createInvite payload =>
    refine wrote_of_stopsOr
      ((createInviteHandler_spec slug headers payload s).imp fun _ s' h => ?_)
    obtain ⟨-, input, c, mails, -, -, -, rfl⟩ := h
    exact .nothing rfl
  case revokeInvite key =>
    refine wrote_of_stopsOr ((revokeInviteHandler_spec slug key headers s).imp fun _ s' h => ?_)
    obtain ⟨-, answer, c, -, rfl⟩ := h
    exact .nothing rfl
  case deleteInvitePermanent key =>
    refine wrote_of_stopsOr ((deleteInvitePermanent_spec slug key headers s).imp fun _ s' h => ?_)
    obtain ⟨-, rows, c, -, rfl⟩ := h
    exact .nothing rfl
  case postProof uuid body =>
    refine wrote_of_stopsOr ((postProof_spec slug uuid headers body s).imp fun _ s' h => ?_)
    obtain ⟨bytes, identity, ext, -, -, -, -, -, rfl⟩ := h
    exact .nothing rfl
  case myContributions period => exact wrote_of_moves (moves_myContributions slug period headers) s
  case poolContributions period =>
    exact wrote_of_moves (moves_poolContributions slug period headers) s
  case activePeriods => exact wrote_of_moves (moves_activePeriods slug headers) s
  case accumulation bucket => exact wrote_of_moves (moves_accumulation slug bucket headers) s
  case getSettings => exact wrote_of_moves (moves_getSettings slug headers) s
  case listInvites => exact wrote_of_moves (moves_listInvites slug headers) s
  case listMembers => exact wrote_of_moves (moves_listMembers slug headers) s
  case getCarryForward => exact wrote_of_moves (moves_getCarryForwardHandler slug headers) s
  case getProofUrl key => exact wrote_of_moves (moves_getProofUrl slug key headers) s

/-- What one request writes for the tenants: payments of members, and settings and seeds that
pass their assertions. -/
structure TenantsGrown (s s' : System) : Prop where
  payments : ∀ slug, ∀ r ∈ (s'.namespaces slug).contribution.rows,
    r ∈ (s.namespaces slug).contribution.rows ∨
      (0 < r.row.amountCents ∧ s.control.HasMembership r.row.userEmail slug)
  settings : ∀ slug row, (s'.namespaces slug).settings = some row →
    (s.namespaces slug).settings = some row ∨ row.check = .ok ()
  seed : ∀ slug row, (s'.namespaces slug).carryForward = some row →
    (s.namespaces slug).carryForward = some row ∨ row.check = .ok ()

theorem tenantsGrown_of_same {s s' : System} (h : s'.namespaces = s.namespaces) :
    TenantsGrown s s' where
  payments _ _ hr := .inl (h ▸ hr)
  settings _ _ hrow := .inl (h ▸ hrow)
  seed _ _ hrow := .inl (h ▸ hrow)

/-- One namespace was written. -/
theorem tenantsGrown_of_setNamespace {s : System} {slug : String} {ns : Namespace}
    (hpayments : ∀ r ∈ ns.contribution.rows, r ∈ (s.namespaces slug).contribution.rows ∨
      (0 < r.row.amountCents ∧ s.control.HasMembership r.row.userEmail slug))
    (hsettings : ∀ row, ns.settings = some row →
      (s.namespaces slug).settings = some row ∨ row.check = .ok ())
    (hseed : ∀ row, ns.carryForward = some row →
      (s.namespaces slug).carryForward = some row ∨ row.check = .ok ()) :
    TenantsGrown s (s.setNamespace slug ns) := by
  have hother : ∀ slug', slug' ≠ slug → (s.setNamespace slug ns).namespaces slug' =
      s.namespaces slug' := fun slug' hne => s.namespaces_setNamespace_of_ne ns hne
  constructor
  · intro slug' r hr
    by_cases hslug : slug' = slug
    · subst hslug
      rw [System.namespaces_setNamespace_same] at hr
      exact hpayments r hr
    · exact .inl (hother slug' hslug ▸ hr)
  · intro slug' row hrow
    by_cases hslug : slug' = slug
    · subst hslug
      rw [System.namespaces_setNamespace_same] at hrow
      exact hsettings row hrow
    · exact .inl (hother slug' hslug ▸ hrow)
  · intro slug' row hrow
    by_cases hslug : slug' = slug
    · subst hslug
      rw [System.namespaces_setNamespace_same] at hrow
      exact hseed row hrow
    · exact .inl (hother slug' hslug ▸ hrow)

theorem grown_payment {slug : String} {headers : Headers}
    {payload : Extracted PostContributionRequest} {s s' : System}
    (h : PaymentRecorded slug headers payload s s') : TenantsGrown s s' := by
  obtain ⟨p, identity, settings, period, r, ns', -, -, hmember, hamount, -, -, hadd, rfl⟩ := h
  obtain ⟨-, hrow, -, -, hcreate, hsettings, hseed⟩ := Namespace.createContribution_ok hadd
  refine tenantsGrown_of_setNamespace (fun x hx => ?_) (fun row hrow => .inl (hsettings ▸ hrow))
    fun row hrow => .inl (hseed ▸ hrow)
  rcases (Table.mem_create hcreate x).mp hx with hx | rfl
  · exact .inl hx
  · rw [hrow]
    exact .inr ⟨hamount, roleFor_isSome_iff.mp hmember⟩

theorem grown_patch {slug : String} {headers : Headers}
    {payload : Extracted PatchSettingsRequest} {s s' : System}
    (h : PatchApplied slug headers payload s s') : TenantsGrown s s' := by
  obtain ⟨p, identity, row, ns', -, -, -, -, hpatch, rfl⟩ := h
  rcases Namespace.patchSettings_ok hpatch with ⟨-, -, rfl⟩ | ⟨old, -, hcheck, -, rfl⟩
  · exact tenantsGrown_of_same (by rw [System.setNamespace_self])
  · refine tenantsGrown_of_setNamespace (fun _ => .inl) (fun x hx => .inr ?_) fun _ => .inl
    rw [← Option.some.inj hx]
    exact hcheck

theorem grown_seed {s : System} {slug : String} {input : NewCarryForward} {row : CarryForward}
    {ns : Namespace} (h : (s.namespaces slug).createCarryForward input s.now = .ok (row, ns)) :
    TenantsGrown s (s.setNamespace slug ns) := by
  obtain ⟨-, hcheck, rfl⟩ := Namespace.createCarryForward_ok h
  refine tenantsGrown_of_setNamespace (fun _ => .inl) (fun _ => .inl) fun x hx => .inr ?_
  rw [← Option.some.inj hx]
  exact hcheck

/-- What a query other than a payment or a seed may write: settings that pass their assertions. -/
def SettingsWritten (s s' : System) : Prop :=
  ∀ slug, (s'.namespaces slug).contribution = (s.namespaces slug).contribution ∧
    (s'.namespaces slug).carryForward = (s.namespaces slug).carryForward ∧
    ∀ row, (s'.namespaces slug).settings = some row →
      (s.namespaces slug).settings = some row ∨ row.check = .ok ()

omit [Platform] in
theorem settingsWritten_of_same {s s' : System} (h : s'.namespaces = s.namespaces) :
    SettingsWritten s s' :=
  fun slug => ⟨by rw [h], by rw [h], fun _ hrow => .inl (h ▸ hrow)⟩

instance : Std.Refl SettingsWritten := ⟨fun _ => settingsWritten_of_same rfl⟩

instance : IsTrans System SettingsWritten where
  trans _ _ _ h h' slug := by
    obtain ⟨hrows, hseed, hsettings⟩ := h slug
    obtain ⟨hrows', hseed', hsettings'⟩ := h' slug
    refine ⟨hrows'.trans hrows, hseed'.trans hseed, fun row hrow => ?_⟩
    exact (hsettings' row hrow).elim (hsettings row) .inr

theorem grown_of_moves {α : Type} {p : Handler α} (h : p.Moves SettingsWritten) (s : System) :
    TenantsGrown s (p.run s).2 where
  payments slug _ hr := .inl ((h.run s slug).1 ▸ hr)
  settings slug row hrow := (h.run s slug).2.2 row hrow
  seed slug _ hrow := .inl ((h.run s slug).2.1 ▸ hrow)

omit [Platform] in
theorem settingsWritten_createSettings {s : System} {init : NewTenant} {u : Unit} {ns : Namespace}
    (h : (s.namespaces init.slug.val).createSettings init s.now = .ok (u, ns)) :
    SettingsWritten s (s.setNamespace init.slug.val ns) := by
  obtain ⟨-, row, hcheck, -, -, rfl⟩ := Namespace.createSettings_ok h
  intro slug
  by_cases hslug : slug = init.slug.val
  · subst hslug
    rw [System.namespaces_setNamespace_same]
    exact ⟨rfl, rfl, fun x hx => .inr (Option.some.inj hx ▸ hcheck)⟩
  · rw [System.namespaces_setNamespace_of_ne _ _ hslug]
    exact ⟨rfl, rfl, fun _ => .inl⟩

theorem moves_createTenant (init : NewTenant) : (createTenant init).Moves SettingsWritten := by
  refine .bind (moves_readControl _) fun existing => ?_
  split
  · exact Prog.moves_err _
  · refine .bind (moves_onTenant fun s u ns h => settingsWritten_createSettings h) fun _ => ?_
    exact moves_onControl fun s u c _ => settingsWritten_of_same rfl

section

-- keeps the checks of the handler from being evaluated while its steps are matched
attribute [local irreducible] Prog.Moves

theorem moves_createTenantHandler (headers : Headers)
    (payload : Extracted CreateTenantRequest) :
    (createTenantHandler headers payload).Moves SettingsWritten := by
  refine .bind (Prog.moves_lift _) fun p => ?_
  refine .bind (moves_authenticate headers) fun identity => ?_
  refine .bind (Prog.moves_lift _) fun slug => ?_
  refine .bind (Prog.moves_ensure _ _) fun _ => ?_
  refine .bind (Prog.moves_ensure _ _) fun _ => ?_
  refine .bind ((moves_readControl _).mapErr _) fun found => ?_
  refine .bind (Prog.moves_okOr _ _) fun user => ?_
  exact .bind ((moves_createTenant _).mapErr _) fun _ => Prog.moves_pure _

end

/-! ## One request -/

theorem grown_respond (request : TenantRequest) (s : System) :
    TenantsGrown s (request.respond s).2 := by
  cases respond_wrote request s with
  | nothing hsame => exact tenantsGrown_of_same hsame
  | payment _ h => exact grown_payment h
  | settings _ h => exact grown_patch h
  | seed _ hcreate hs' =>
      rw [hs']
      exact grown_seed hcreate

theorem grown_step (a : GatewayAction) (s : System) : TenantsGrown s (step a s) := by
  cases a with
  | clock now => exact tenantsGrown_of_same rfl
  | auth request =>
      rcases handleAuth_spec request s with ⟨e, he⟩ | ⟨email, r, c, -, hsign⟩
      · exact tenantsGrown_of_same (by rw [step, he])
      · exact tenantsGrown_of_same hsign.accepts.namespaces
  | createTenant headers payload =>
      exact grown_of_moves (moves_createTenantHandler headers payload) s
  | tenant request => exact grown_respond request s

/-! ## Runs -/

/-- What the roll-ups rely on. -/
structure Accountable (s : System) : Prop where
  joined : s.control.Joined
  contributors : ∀ slug, ∀ r ∈ (s.namespaces slug).contribution.rows,
    s.control.HasMembership r.row.userEmail slug
  amounts : ∀ slug, ∀ r ∈ (s.namespaces slug).contribution.rows, 0 < r.row.amountCents
  settings : ∀ slug row, (s.namespaces slug).settings = some row → row.check = .ok ()
  seed : ∀ slug row, (s.namespaces slug).carryForward = some row → row.check = .ok ()

theorem accountable_step (a : GatewayAction) (s : System) (h : Accountable s) :
    Accountable (step a s) := by
  have hmembers := membersKept_step a s
  have hgrown := grown_step a s
  constructor
  · exact hmembers.joined h.joined
  · intro slug r hr
    rcases hgrown.payments slug r hr with hr | ⟨-, hmember⟩
    · exact hmembers.members _ _ (h.contributors slug r hr)
    · exact hmembers.members _ _ hmember
  · intro slug r hr
    rcases hgrown.payments slug r hr with hr | ⟨hamount, -⟩
    · exact h.amounts slug r hr
    · exact hamount
  · intro slug row hrow
    exact (hgrown.settings slug row hrow).elim (h.settings slug row) id
  · intro slug row hrow
    exact (hgrown.seed slug row hrow).elim (h.seed slug row) id

/-- Every reachable state is accountable. -/
theorem accountable_exec (actions : List GatewayAction) (now : DateTime) :
    Accountable (Trace.exec step actions (System.empty now)) := by
  refine Trace.exec_invariant accountable_step actions ?_
  refine ⟨fun user slug role hrole => ?_, fun slug r hr => ?_, fun slug r hr => ?_,
    fun slug row hrow => ?_, fun slug row hrow => ?_⟩
  · obtain ⟨m, hm, -⟩ := Control.roleOf_eq_some.mp hrole
    cases hm
  · cases hr
  · cases hr
  · cases hrow
  · cases hrow

end Runs

end Deployment

end SharamLedger
