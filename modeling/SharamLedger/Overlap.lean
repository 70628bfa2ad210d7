import SharamLedger.Registry
import SharamLedger.Ledger.Calls

/-!
# Requests in flight

All requests of the gateway as one service. Any number of them are in flight, their queries
interleave in any order, and any query may fail. In every interleaving the entries of the ventures
stay, new ones are by members and pass the schema's checks, and what a response reports is there.
The cap on the dues is left out, since it looks at the rows of other payments.
-/

namespace SharamLedger

open Lib

namespace Overlap

/-- A request in flight. A query that fails ends its request, but for the read of a venture's name
in `create_invite`: the invite of a request that is going to lose it is a call of its own. -/
inductive GatewayCall where
  | auth (request : AuthRequest)
  | createTenant (headers : Headers) (payload : Extracted CreateTenantRequest)
  | tenant (request : TenantRequest)
  | inviteUnnamed (slug : String) (headers : Headers) (payload : Extracted CreateInviteRequest)

/-- The body of its response. -/
inductive GatewayAnswer where
  | session (response : AuthResponse)
  | created (response : CreateTenantResponse)
  | replied (reply : TenantReply)

/-- The handler of a request. -/
def gatewayProgram [Platform] : GatewayCall → Handler GatewayAnswer
  | .auth request => return .session (← handleAuth request)
  | .createTenant headers payload => return .created (← createTenantHandler headers payload)
  | .tenant request => return .replied (← request.handle)
  | .inviteUnnamed slug headers payload =>
      return .replied (.invite (← createInviteUnnamed slug headers payload))

/-- The gateway. The one event of the world is a new clock reading. -/
def gateway [Platform] : Pool.Service System HttpError GatewayCall DateTime GatewayAnswer where
  program := gatewayProgram
  world now s := s.setNow now

abbrev GatewayPool := Pool.State System HttpError GatewayCall GatewayAnswer

/-! ## What every query may do -/

/-- Users, memberships and directory rows stay. Whoever becomes a member has a user row, and new
memberships and invites are for registered tenants. -/
structure ControlKept (c c' : Control) : Prop where
  users : ∀ u ∈ c.user.rows, ∃ u' ∈ c'.user.rows, u'.id = u.id ∧ u'.row.email = u.row.email
  roles : ∀ user slug role, c.roleOf user slug = some role →
    ∃ role', c'.roleOf user slug = some role'
  directory : ∀ slug, c.Registered slug → c'.Registered slug
  granted : ∀ user slug role', c'.roleOf user slug = some role' →
    (∃ role, c.roleOf user slug = some role) ∨
      ((∃ u ∈ c'.user.rows, u.id = user) ∧ c'.Registered slug)
  invited : ∀ i' ∈ c'.invite.rows, c'.Registered i'.row.tenantSlug ∨
    ∃ i ∈ c.invite.rows, i.row.tenantSlug = i'.row.tenantSlug

/-- Payments are appended and a seed stays. New payments are by members, and what is new passes the
checks of the schema. -/
structure VentureKept [Platform] (member : String → Prop) (ns ns' : Namespace) : Prop where
  payments : ns.contribution.rows <+: ns'.contribution.rows
  paid : ∀ r ∈ ns'.contribution.rows, r ∈ ns.contribution.rows ∨
    (r.row.check = .ok () ∧ r.row.status = "submitted" ∧ member r.row.userEmail)
  seed : ∀ row, ns.carryForward = some row → ns'.carryForward = some row
  seeded : ∀ row, ns'.carryForward = some row → ns.carryForward = some row ∨ row.check = .ok ()
  settings : ns.settings.isSome → ns'.settings.isSome
  patched : ∀ row, ns'.settings = some row → ns.settings = some row ∨ row.check = .ok ()

/-- What one query may do, whichever request issues it. -/
structure Kept [Platform] (s s' : System) : Prop where
  control : ControlKept s.control s'.control
  ventures : ∀ slug, VentureKept (fun email => s'.control.HasMembership email slug)
    (s.namespaces slug) (s'.namespaces slug)

namespace ControlKept

variable {c c' c'' : Control}

theorem refl (c : Control) : ControlKept c c where
  users u hu := ⟨u, hu, rfl, rfl⟩
  roles _ _ role h := ⟨role, h⟩
  directory _ h := h
  granted _ _ role h := .inl ⟨role, h⟩
  invited i hi := .inr ⟨i, hi, rfl⟩

theorem trans (h : ControlKept c c') (h' : ControlKept c' c'') : ControlKept c c'' where
  users u hu := by
    obtain ⟨u', hu', hid, hemail⟩ := h.users u hu
    obtain ⟨u'', hu'', hid', hemail'⟩ := h'.users u' hu'
    exact ⟨u'', hu'', hid'.trans hid, hemail'.trans hemail⟩
  roles user slug role hrole := by
    obtain ⟨role', hrole'⟩ := h.roles user slug role hrole
    exact h'.roles user slug role' hrole'
  directory slug hslug := h'.directory slug (h.directory slug hslug)
  granted user slug role hrole := by
    rcases h'.granted user slug role hrole with ⟨role', hrole'⟩ | hnew
    · rcases h.granted user slug role' hrole' with hold | ⟨⟨u, hu, rfl⟩, hslug⟩
      · exact .inl hold
      · obtain ⟨u', hu', hid, -⟩ := h'.users u hu
        exact .inr ⟨⟨u', hu', hid⟩, h'.directory slug hslug⟩
    · exact .inr hnew
  invited i hi := by
    rcases h'.invited i hi with hnew | ⟨i', hi', hslug⟩
    · exact .inl hnew
    · rcases h.invited i' hi' with hregistered | ⟨i'', hi'', hslug'⟩
      · exact .inl (hslug ▸ h'.directory _ hregistered)
      · exact .inr ⟨i'', hi'', hslug'.trans hslug⟩

theorem membership (h : ControlKept c c') {email slug : String}
    (hmember : c.HasMembership email slug) : c'.HasMembership email slug :=
  Control.hasMembership_mono hmember h.users fun user role => h.roles user slug role

/-- Neither memberships nor the directory were written, and every invite is for a tenant that had
one, or for a registered one. -/
theorem of_same (hmemberships : c'.membership = c.membership)
    (hdirectory : c'.tenantDirectory = c.tenantDirectory)
    (husers : ∀ u ∈ c.user.rows, ∃ u' ∈ c'.user.rows, u'.id = u.id ∧ u'.row.email = u.row.email)
    (hinvited : ∀ i' ∈ c'.invite.rows, c.Registered i'.row.tenantSlug ∨
      ∃ i ∈ c.invite.rows, i.row.tenantSlug = i'.row.tenantSlug) : ControlKept c c' := by
  have hroles : ∀ user slug, c'.roleOf user slug = c.roleOf user slug := by
    intro user slug
    simp only [Control.roleOf, hmemberships]
  have hregistered : ∀ slug, c.Registered slug → c'.Registered slug := by
    intro slug hslug
    rwa [Control.Registered, hdirectory]
  exact
    { users := husers
      roles := fun user slug role h => ⟨role, (hroles user slug).trans h⟩
      directory := hregistered
      granted := fun user slug role h => .inl ⟨role, (hroles user slug).symm.trans h⟩
      invited := fun i hi => (hinvited i hi).imp_left (hregistered _) }

theorem of_userPut {r : UserRecord} (h : Control.UserPut c c' r) : ControlKept c c' :=
  of_same h.memberships h.directory (fun _ hu => h.user_kept hu) fun i hi =>
    .inr ⟨i, h.invites ▸ hi, rfl⟩

theorem of_inviteSet {i : InviteRecord} {row : Invite} (h : Control.InviteSet c c' i row)
    (hslug : row.tenantSlug = i.row.tenantSlug) : ControlKept c c' := by
  refine of_same h.memberships h.directory (fun u hu => ⟨u, h.users ▸ hu, rfl, rfl⟩)
    fun x hx => .inr ?_
  rcases (h.rows x).mp hx with rfl | ⟨hx, -⟩
  · exact ⟨i, h.mem, hslug.symm⟩
  · exact ⟨x, hx, rfl⟩

theorem of_updateInvite [Platform] {sel : InviteRecord → Bool} {set : Invite → Invite}
    {answer : Option InviteRecord} (h : c.updateInvite sel set = .ok (answer, c'))
    (hslug : ∀ i, (set i).tenantSlug = i.tenantSlug) : ControlKept c c' := by
  rcases Control.updateInvite_ok h with ⟨-, rfl⟩ | ⟨i, -, -, -, hset⟩
  · exact refl c'
  · exact of_inviteSet hset (hslug _)

theorem of_createInvite [Platform] {input : NewInvite} {r : InviteRecord} {now : DateTime}
    (h : c.createInviteRow input now = .ok (r, c')) (hregistered : c.Registered input.tenantSlug) :
    ControlKept c c' := by
  obtain ⟨-, hslug, -, -, -, -, husers, hmemberships, hdirectory, hrows⟩ :=
    Control.createInviteRow_ok h
  refine of_same hmemberships hdirectory (fun u hu => ⟨u, husers ▸ hu, rfl, rfl⟩) fun x hx => ?_
  rcases (hrows x).mp hx with hx | rfl
  · exact .inr ⟨x, hx, rfl⟩
  · exact .inl (hslug ▸ hregistered)

theorem of_deleteInvite {slug key : String} {now : DateTime} {deleted : List InviteRecord}
    (h : c.deleteInviteRow slug key now = .ok (deleted, c')) : ControlKept c c' := by
  cases h
  exact of_same rfl rfl (fun u hu => ⟨u, hu, rfl, rfl⟩) fun i hi =>
    .inr ⟨i, (Table.mem_delete.mp hi).1, rfl⟩

/-- A user with a row became a member of a registered tenant. -/
theorem of_roleSet {user : Nat} {slug role : String} (h : Control.RoleSet c c' user slug role)
    (huser : ∃ u ∈ c.user.rows, u.id = user) (hslug : c.Registered slug) : ControlKept c c' where
  users u hu := ⟨u, h.users ▸ hu, rfl, rfl⟩
  roles user' slug' role' hrole := by
    rw [h.role]
    split
    · exact ⟨role, rfl⟩
    · exact ⟨role', hrole⟩
  directory slug' hslug' := by rwa [Control.Registered, h.directory]
  granted user' slug' role' hrole := by
    rw [h.role] at hrole
    split at hrole
    · next hkey =>
        obtain ⟨rfl, rfl⟩ := hkey
        exact .inr ⟨h.users ▸ huser, by rwa [Control.Registered, h.directory]⟩
    · exact .inl ⟨role', hrole⟩
  invited i hi := .inr ⟨i, h.invites ▸ hi, rfl⟩

/-- A tenant was registered for an owner with a row. -/
theorem of_register [Platform] {init : NewTenant} {u : Unit} {now : DateTime}
    (h : c.registerTenant init now = .ok (u, c'))
    (huser : ∃ u ∈ c.user.rows, u.id = init.createdBy) : ControlKept c c' := by
  obtain ⟨husers, hinvites, ⟨d, hslug, -, hrows⟩, hroles⟩ := Control.registerTenant_ok h
  refine
    { users := fun u hu => ⟨u, husers ▸ hu, rfl, rfl⟩
      roles := fun user slug role hrole => ?_
      directory := fun slug hslug => ?_
      granted := fun user slug role hrole => ?_
      invited := fun i hi => .inr ⟨i, hinvites ▸ hi, rfl⟩ }
  · rw [hroles]
    split
    · exact ⟨"owner", rfl⟩
    · exact ⟨role, hrole⟩
  · obtain ⟨x, hx, hx'⟩ := hslug
    exact ⟨x, (hrows x).mpr (.inl hx), hx'⟩
  · rw [hroles] at hrole
    split at hrole
    · next hkey =>
        obtain ⟨rfl, rfl⟩ := hkey
        exact .inr ⟨husers ▸ huser, d, (hrows d).mpr (.inr rfl), hslug⟩
    · exact .inl ⟨role, hrole⟩

end ControlKept

section Requests

variable [Platform]

namespace VentureKept

variable {member : String → Prop} {ns ns' ns'' : Namespace}

theorem refl (ns : Namespace) : VentureKept member ns ns where
  payments := List.prefix_refl _
  paid _ hr := .inl hr
  seed _ h := h
  seeded _ h := .inl h
  settings h := h
  patched _ h := .inl h

theorem trans {member' : String → Prop} (h : VentureKept member ns ns')
    (h' : VentureKept member' ns' ns'') (hmembers : ∀ email, member email → member' email) :
    VentureKept member' ns ns'' where
  payments := h.payments.trans h'.payments
  paid r hr := by
    rcases h'.paid r hr with hold | hnew
    · exact (h.paid r hold).imp_right fun hgood => ⟨hgood.1, hgood.2.1, hmembers _ hgood.2.2⟩
    · exact .inr hnew
  seed row hrow := h'.seed row (h.seed row hrow)
  seeded row hrow := (h'.seeded row hrow).elim (h.seeded row) .inr
  settings hset := h'.settings (h.settings hset)
  patched row hrow := (h'.patched row hrow).elim (h.patched row) .inr

theorem of_payment {input : NewContribution} {now : DateTime} {r : ContributionRecord}
    (h : ns.addContribution input now = .ok (r, ns')) (hmember : member input.userEmail) :
    VentureKept member ns ns' := by
  obtain ⟨hcheck, hrow, -, -, hcreate, hsettings, hseed⟩ := Namespace.createContribution_ok h
  obtain ⟨-, hrows, -⟩ := Table.create_some hcreate
  refine
    { payments := ⟨[r], hrows.symm⟩
      paid := fun x hx => ?_
      seed := fun row hrow => hseed ▸ hrow
      seeded := fun row hrow => .inl (hseed ▸ hrow)
      settings := fun hset => hsettings ▸ hset
      patched := fun row hrow => .inl (hsettings ▸ hrow) }
  rcases (Table.mem_create hcreate x).mp hx with hx | rfl
  · exact .inl hx
  · rw [hrow]
    exact .inr ⟨hcheck, rfl, hmember⟩

/-- Only the settings were written, and they pass their check. -/
theorem of_settings {row : Settings} (hcheck : row.check = .ok ()) :
    VentureKept member ns { ns with settings := some row } where
  payments := List.prefix_refl _
  paid _ hr := .inl hr
  seed _ h := h
  seeded _ h := .inl h
  settings _ := rfl
  patched _ h := .inr (Option.some.inj h ▸ hcheck)

theorem of_seed {row : CarryForward} (hnone : ns.carryForward = none)
    (hcheck : row.check = .ok ()) : VentureKept member ns { ns with carryForward := some row } where
  payments := List.prefix_refl _
  paid _ hr := .inl hr
  seed _ h := by
    rw [hnone] at h
    cases h
  seeded _ h := .inr (Option.some.inj h ▸ hcheck)
  settings h := h
  patched _ h := .inl h

end VentureKept

namespace Kept

variable {s s' s'' : System}

theorem of_same (hcontrol : s'.control = s.control) (hnamespaces : s'.namespaces = s.namespaces) :
    Kept s s' where
  control := hcontrol ▸ .refl s.control
  ventures _ := hnamespaces ▸ .refl _

theorem refl (s : System) : Kept s s := of_same rfl rfl

theorem trans (h : Kept s s') (h' : Kept s' s'') : Kept s s'' where
  control := h.control.trans h'.control
  ventures slug := (h.ventures slug).trans (h'.ventures slug) fun _ => h'.control.membership

instance : Std.Refl (@Kept _) := ⟨refl⟩

instance : IsTrans System (@Kept _) := ⟨fun _ _ _ => trans⟩

theorem of_control {c : Control} (h : ControlKept s.control c) : Kept s { s with control := c } :=
  ⟨h, fun _ => .refl _⟩

theorem of_venture {slug : String} {ns : Namespace}
    (h : VentureKept (fun email => s.control.HasMembership email slug) (s.namespaces slug) ns) :
    Kept s (s.setNamespace slug ns) := by
  refine ⟨.refl _, fun slug' => ?_⟩
  by_cases hslug : slug' = slug
  · subst hslug
    rw [System.namespaces_setNamespace_same]
    exact h
  · rw [System.namespaces_setNamespace_of_ne _ _ hslug]
    exact .refl _

end Kept

/-! ## What holds in between -/

/-- Members have user rows, members and invites are for registered tenants, payments are by members,
and every entry passes the checks of the schema. -/
structure InOrder (s : System) : Prop where
  users : s.control.Joined
  members : ∀ user slug role, s.control.roleOf user slug = some role → s.control.Registered slug
  invites : ∀ i ∈ s.control.invite.rows, s.control.Registered i.row.tenantSlug
  payments : ∀ slug, ∀ r ∈ (s.namespaces slug).contribution.rows, r.row.check = .ok () ∧
    r.row.status = "submitted" ∧ s.control.HasMembership r.row.userEmail slug
  settings : ∀ slug row, (s.namespaces slug).settings = some row → row.check = .ok ()
  seeds : ∀ slug row, (s.namespaces slug).carryForward = some row → row.check = .ok ()

theorem inOrder_empty (now : DateTime) : InOrder (System.empty now) where
  users _ _ _ h := by cases h
  members _ _ _ h := by cases h
  invites _ h := by cases h
  payments _ _ h := by cases h
  settings _ _ h := by cases h
  seeds _ _ h := by cases h

theorem InOrder.kept {s s' : System} (h : InOrder s) (hkept : Kept s s') : InOrder s' where
  users user slug role hrole := by
    rcases hkept.control.granted user slug role hrole with ⟨role', hold⟩ | ⟨huser, -⟩
    · obtain ⟨u, hu, rfl⟩ := h.users user slug role' hold
      obtain ⟨u', hu', hid, -⟩ := hkept.control.users u hu
      exact ⟨u', hu', hid⟩
    · exact huser
  members user slug role hrole := by
    rcases hkept.control.granted user slug role hrole with ⟨role', hold⟩ | ⟨-, hslug⟩
    · exact hkept.control.directory slug (h.members user slug role' hold)
    · exact hslug
  invites i hi := by
    rcases hkept.control.invited i hi with hslug | ⟨x, hx, hslug⟩
    · exact hslug
    · exact hslug ▸ hkept.control.directory _ (h.invites x hx)
  payments slug r hr := by
    rcases (hkept.ventures slug).paid r hr with hold | hnew
    · obtain ⟨hcheck, hstatus, hmember⟩ := h.payments slug r hold
      exact ⟨hcheck, hstatus, hkept.control.membership hmember⟩
    · exact hnew
  settings slug row hrow := ((hkept.ventures slug).patched row hrow).elim (h.settings slug row) id
  seeds slug row hrow := ((hkept.ventures slug).seeded row hrow).elim (h.seeds slug row) id

/-- What the response reports is in the store. -/
def Recorded (call : GatewayCall) (answer : GatewayAnswer) (s : System) : Prop :=
  match call, answer with
  | .auth _, .session response => ∃ u ∈ s.control.user.rows, u.row.email = response.user.email
  | .createTenant _ _, .created response => s.control.Registered response.slug ∧
      (s.namespaces response.slug).settings.isSome = true
  | .tenant request, .replied (.posted response) =>
      ∃ r ∈ (s.namespaces request.slug).contribution.rows,
        response.contribution = contributionView r
  | .tenant request, .replied (.seeded response) =>
      ∃ row, (s.namespaces request.slug).carryForward = some row ∧
        response = carryForwardView row
  | _, _ => True

theorem Recorded.kept {call : GatewayCall} {answer : GatewayAnswer} {s s' : System}
    (h : Recorded call answer s) (hkept : Kept s s') : Recorded call answer s' := by
  unfold Recorded at h ⊢
  split
  · obtain ⟨u, hu, hemail⟩ := h
    obtain ⟨u', hu', -, hemail'⟩ := hkept.control.users u hu
    exact ⟨u', hu', hemail'.trans hemail⟩
  · exact ⟨hkept.control.directory _ h.1, (hkept.ventures _).settings h.2⟩
  · obtain ⟨r, hr, hview⟩ := h
    exact ⟨r, (hkept.ventures _).payments.subset hr, hview⟩
  · obtain ⟨row, hrow, hview⟩ := h
    exact ⟨row, (hkept.ventures _).seed row hrow, hview⟩
  · trivial

/-! ## Sign-ins -/

omit [Platform] in
theorem ControlKept.hasUser {c c' : Control} (h : ControlKept c c') {user : Nat} {email : String}
    (huser : c.HasUser user email) : c'.HasUser user email := by
  obtain ⟨u, hu, rfl, rfl⟩ := huser
  exact h.users u hu

section

-- keeps the checks of the handlers from being evaluated while their steps are matched
attribute [local irreducible] Prog.Safe

variable {s : System}

theorem safe_acceptOne {user : Nat} {email : String} {inv : InviteRecord}
    (huser : s.control.HasUser user email) (hslug : s.control.Registered inv.row.tenantSlug) :
    (acceptOne user inv).Safe Kept Kept (fun _ s' => Kept s s') s := by
  refine Prog.Safe.bind (Q := fun _ s' => Kept s s') (safe_onControl ?_) fun _ s₁ hkept => ?_
  · intro s' a c hkept hupsert
    have huser' := hkept.control.hasUser huser
    obtain ⟨u, hu, hid, -⟩ := huser'
    have hstep : Kept s' { s' with control := c } :=
      .of_control (.of_roleSet (Control.upsertMembership_ok hupsert) ⟨u, hu, hid⟩
        (hkept.control.directory _ hslug))
    exact ⟨hstep, hkept.trans hstep⟩
  · split
    · exact Prog.safe_pure hkept
    · refine Prog.Safe.bind (Q := fun _ s' => Kept s s') (safe_onControl ?_)
        fun _ _ h => Prog.safe_pure h
      intro s' a c hkept' hmark
      have hstep : Kept s' { s' with control := c } :=
        .of_control (.of_updateInvite hmark fun _ => rfl)
      exact ⟨hstep, (hkept.trans hkept').trans hstep⟩

theorem safe_acceptEach {user : Nat} {email : String} (l : List InviteRecord) :
    ∀ {s : System}, s.control.HasUser user email →
      (∀ inv ∈ l, s.control.Registered inv.row.tenantSlug) →
      (acceptEach user l).Safe Kept Kept (fun _ s' => Kept s s') s := by
  induction l with
  | nil => exact fun _ _ => Prog.safe_pure (Kept.refl _)
  | cons inv rest ih =>
      intro s huser hl
      refine (safe_acceptOne huser (hl inv List.mem_cons_self)).bind fun accepted s₁ hkept => ?_
      have hrest : ∀ x ∈ rest, s₁.control.Registered x.row.tenantSlug :=
        fun x hx => hkept.control.directory _ (hl x (List.mem_cons_of_mem inv hx))
      refine (ih (hkept.control.hasUser huser) hrest).bind fun others s₂ hkept' => ?_
      exact Prog.safe_pure (hkept.trans hkept')

theorem safe_openSession {email : String} {user : UserRecord} {name picture : Option String}
    (hs : InOrder s) (huser : s.control.HasUser user.id email) :
    (openSession email user name picture).Safe Kept Kept
      (fun response s' => ∃ u ∈ s'.control.user.rows, u.row.email = response.user.email) s := by
  have haccept : (acceptPendingInvites email user.id).Safe Kept Kept
      (fun _ s' => s'.control.HasUser user.id email) s := by
    refine Prog.Safe.bind (Q := fun pending s' => s'.control.HasUser user.id email ∧
      ∀ inv ∈ pending, s'.control.Registered inv.row.tenantSlug)
      (safe_readControl fun s' hkept => ⟨hkept.control.hasUser huser, fun inv hinv => ?_⟩)
      fun pending s' h => (safe_acceptEach pending h.1 h.2).imp fun _ s'' hkept => ?_
    · exact (hs.kept hkept).invites inv (Control.mem_openInvites.mp hinv).1
    · exact hkept.control.hasUser h.1
  refine (haccept.mapErr _).bind fun accepted s₁ huser => ?_
  have hissue : (issue { email, name, picture }).Moves Kept :=
    .bind (Prog.moves_read _) fun _ => Prog.moves_lift _
  refine hissue.safe.bind fun token s₂ hkept => Prog.safe_pure ?_
  obtain ⟨u, hu, -, hemail⟩ := hkept.control.hasUser huser
  exact ⟨u, hu, hemail⟩

theorem safe_upsertUser (input : UpsertUser) :
    (upsertUser input).Safe Kept Kept
      (fun user s' => Kept s s' ∧ s'.control.HasUser user.id input.email) s := by
  refine safe_onControl fun s' r c hkept hupsert => ?_
  obtain ⟨hput, hemail, -⟩ := Control.upsertUserRow_ok hupsert
  have hstep : Kept s' { s' with control := c } := .of_control (.of_userPut hput)
  exact ⟨hstep, hkept.trans hstep, r, hput.mem, rfl, hemail⟩

theorem safe_getUserByEmail (email : String) :
    (getUserByEmail email).Safe Kept Kept (fun found s' => Kept s s' ∧
      ∀ user, found = some user → s'.control.HasUser user.id email) s := by
  refine safe_readControl fun s' hkept => ⟨hkept, fun user hfound => ?_⟩
  obtain ⟨hmem, hemail⟩ := Control.userByEmail_eq_some.mp hfound
  exact ⟨user, hmem, rfl, hemail⟩

theorem safe_createPasswordUser (input : RegisterPassword) :
    (createPasswordUser input).Safe Kept Kept
      (fun user s' => Kept s s' ∧ s'.control.HasUser user.id input.email) s := by
  refine (safe_getUserByEmail input.email).bind fun found s₁ h => ?_
  obtain ⟨hkept, hfound⟩ := h
  cases found with
  | none =>
      refine safe_onControl fun s' r c hkept' hcreate => ?_
      obtain ⟨hput, hemail, -⟩ := Control.createPasswordRow_ok hcreate
      have hstep : Kept s' { s' with control := c } := .of_control (.of_userPut hput)
      exact ⟨hstep, (hkept.trans hkept').trans hstep, r, hput.mem, rfl, hemail⟩
  | some existing =>
      dsimp only
      split
      · exact Prog.safe_err _
      · refine Prog.Safe.bind (Q := fun row s' => Kept s s' ∧
          ∀ user, row = some user → s'.control.HasUser user.id input.email)
          (safe_onControl fun s' row c hkept' hattach => ?_)
          fun row s₂ h => Prog.safe_okOr fun user hrow => ⟨h.1, h.2 user hrow⟩
        rcases Control.attachPassword_cases hattach with ⟨rfl, rfl⟩ |
          ⟨old, hold, r, hid, rfl, hput, hrow⟩
        · exact ⟨.refl _, hkept.trans hkept', nofun⟩
        · have hstep : Kept s' { s' with control := c } := .of_control (.of_userPut hput)
          refine ⟨hstep, (hkept.trans hkept').trans hstep, fun user huser => ?_⟩
          obtain rfl := Option.some.inj huser
          -- the row with the key is that of the address
          obtain ⟨u, hu, hid', hemail⟩ := hkept'.control.hasUser (hfound existing rfl)
          obtain rfl := Table.eq_of_id_eq hold hu (hid.trans hid'.symm)
          exact ⟨r, hput.mem, rfl, by rw [hrow]; exact hemail⟩

theorem safe_handleAuth (request : AuthRequest) (hs : InOrder s) :
    (handleAuth request).Safe Kept Kept
      (fun response s' => ∃ u ∈ s'.control.user.rows, u.row.email = response.user.email) s := by
  cases request with
  | google payload =>
      refine Prog.Safe.bind (Prog.moves_lift _).safe fun p s₁ h₁ => ?_
      refine Prog.Safe.bind (Prog.moves_read _).safe fun verified s₂ h₂ => ?_
      refine Prog.Safe.bind (Prog.moves_lift _).safe fun claims s₃ h₃ => ?_
      refine Prog.Safe.bind ((safe_upsertUser _).mapErr _) fun user s₄ h => ?_
      have hkept : Kept s s₄ := ((h₁.trans h₂).trans h₃).trans h.1
      exact safe_openSession (hs.kept hkept) h.2
  | register salt payload =>
      refine Prog.Safe.bind (Prog.moves_lift _).safe fun p s₁ h₁ => ?_
      refine Prog.Safe.bind (Prog.moves_ensure _ _).safe fun _ s₂ h₂ => ?_
      refine Prog.Safe.bind (Prog.moves_ensure _ _).safe fun _ s₃ h₃ => ?_
      refine Prog.Safe.bind (Prog.moves_lift _).safe fun hash s₄ h₄ => ?_
      refine Prog.Safe.bind ((safe_createPasswordUser _).mapErr _) fun user s₅ h => ?_
      have hkept : Kept s s₅ := (((h₁.trans h₂).trans h₃).trans h₄).trans h.1
      exact safe_openSession (hs.kept hkept) h.2
  | login payload =>
      refine Prog.Safe.bind (Prog.moves_lift _).safe fun p s₁ h₁ => ?_
      refine Prog.Safe.bind (Prog.moves_ensure _ _).safe fun _ s₂ h₂ => ?_
      refine Prog.Safe.bind ((safe_getUserByEmail _).mapErr _) fun found s₃ h₃ => ?_
      refine Prog.Safe.bind (Q := fun user s' => s' = s₃ ∧ found = some user)
        (Prog.safe_okOr fun user hfound => ⟨rfl, hfound⟩) fun user s₄ h₄ => ?_
      obtain ⟨rfl, rfl⟩ := h₄
      refine Prog.Safe.bind (Prog.moves_okOr _ _).safe fun hash s₅ h₅ => ?_
      refine Prog.Safe.bind (Prog.moves_ensure _ _).safe fun _ s₆ h₆ => ?_
      have hlast : Kept s₄ s₆ := h₅.trans h₆
      have hkept : Kept s s₆ := ((h₁.trans h₂).trans h₃.1).trans hlast
      exact safe_openSession (hs.kept hkept) (hlast.control.hasUser (h₃.2 user rfl))

/-! ## New tenants -/

omit [Platform] in
theorem safe_onTenant {α : Type} {R G : System → System → Prop} [Std.Refl G]
    {Q : α → System → Prop} {slug : TenantSlug} {onError : DbError → LedgerError}
    {f : DateTime → Namespace → Except DbError (α × Namespace)}
    (h : ∀ s' a ns, R s s' → f s'.now (s'.namespaces slug.val) = .ok (a, ns) →
      G s' (s'.setNamespace slug.val ns) ∧ Q a (s'.setNamespace slug.val ns)) :
    (onTenant slug onError f).Safe R G Q s := by
  refine Prog.safe_exec fun s' a s'' hr hs'' => ?_
  cases hf : f s'.now (s'.namespaces slug.val) with
  | error e => simp [hf] at hs''
  | ok answer =>
      simp only [hf, Except.ok.injEq, Prod.mk.injEq] at hs''
      obtain ⟨rfl, rfl⟩ := hs''
      exact h s' answer.1 answer.2 hr hf

theorem safe_createTenant {init : NewTenant} {email : String}
    (huser : s.control.HasUser init.createdBy email) :
    (createTenant init).Safe Kept Kept (fun _ s' => s'.control.Registered init.slug.val ∧
      (s'.namespaces init.slug.val).settings.isSome = true) s := by
  refine Prog.Safe.bind (moves_readControl _).safe fun existing s₁ h₁ => ?_
  split
  · exact Prog.safe_err _
  · refine Prog.Safe.bind (Q := fun _ s' => Kept s₁ s' ∧
      (s'.namespaces init.slug.val).settings.isSome = true) (safe_onTenant ?_) fun _ s₂ h₂ => ?_
    · intro s' u ns hkept hsettings
      obtain ⟨-, row, hcheck, -, -, rfl⟩ := Namespace.createSettings_ok hsettings
      have hstep : Kept s' (s'.setNamespace init.slug.val
          { s'.namespaces init.slug.val with settings := some row }) :=
        .of_venture (.of_settings hcheck)
      exact ⟨hstep, hkept.trans hstep, by rw [System.namespaces_setNamespace_same]; rfl⟩
    · refine safe_onControl fun s' u c hkept hregister => ?_
      obtain ⟨x, hx, hid, -⟩ := ((h₁.trans h₂.1).trans hkept).control.hasUser huser
      have hstep : Kept s' { s' with control := c } :=
        .of_control (.of_register hregister ⟨x, hx, hid⟩)
      obtain ⟨-, -, ⟨d, hslug, -, hrows⟩, -⟩ := Control.registerTenant_ok hregister
      exact ⟨hstep, ⟨d, (hrows d).mpr (.inr rfl), hslug⟩, (hkept.ventures _).settings h₂.2⟩

theorem safe_createTenantHandler (headers : Headers) (payload : Extracted CreateTenantRequest) :
    (createTenantHandler headers payload).Safe Kept Kept
      (fun response s' => s'.control.Registered response.slug ∧
        (s'.namespaces response.slug).settings.isSome = true) s := by
  refine Prog.Safe.bind (Prog.moves_lift _).safe fun p s₁ h₁ => ?_
  refine Prog.Safe.bind (moves_authenticate _).safe fun identity s₂ h₂ => ?_
  refine Prog.Safe.bind (Prog.moves_lift _).safe fun slug s₃ h₃ => ?_
  refine Prog.Safe.bind (Prog.moves_ensure _ _).safe fun _ s₄ h₄ => ?_
  refine Prog.Safe.bind (Prog.moves_ensure _ _).safe fun _ s₅ h₅ => ?_
  refine Prog.Safe.bind ((safe_getUserByEmail _).mapErr _) fun found s₆ h₆ => ?_
  refine Prog.Safe.bind (Q := fun user s' => s' = s₆ ∧ found = some user)
    (Prog.safe_okOr fun user hfound => ⟨rfl, hfound⟩) fun user s₇ h₇ => ?_
  obtain ⟨rfl, rfl⟩ := h₇
  refine Prog.Safe.bind ((safe_createTenant (h₆.2 user rfl)).mapErr _) fun _ s₈ h₈ => ?_
  exact Prog.safe_pure h₈

/-! ## Routes of a tenant -/

theorem safe_callerRole (email slug : String) :
    (callerRole email slug).Safe Kept Kept
      (fun role s' => Kept s s' ∧ role = s'.control.roleFor email slug) s := by
  refine Prog.Safe.bind (Q := fun rows s' => Kept s s' ∧ rows = s'.control.membershipsFor email)
    (Prog.Safe.mapErr (safe_readControl fun s' hkept => ⟨hkept, rfl⟩) _) fun rows s₁ h => ?_
  obtain ⟨hkept, rfl⟩ := h
  exact Prog.safe_pure ⟨hkept, rfl⟩

theorem safe_callerIsMember (email slug : String) :
    (callerIsMember email slug).Safe Kept Kept (fun isMember s' => Kept s s' ∧
      (isMember = true → s'.control.HasMembership email slug)) s := by
  refine Prog.Safe.bind (Q := fun rows s' => Kept s s' ∧ rows = s'.control.membershipsFor email)
    (Prog.Safe.mapErr (safe_readControl fun s' hkept => ⟨hkept, rfl⟩) _) fun rows s₁ h => ?_
  obtain ⟨hkept, rfl⟩ := h
  refine Prog.safe_pure ⟨hkept, fun hany => roleFor_isSome_iff.mp ?_⟩
  rw [Control.roleFor, Option.isSome_map, List.find?_isSome]
  exact List.any_eq_true.mp hany

/-- Whoever passes as an owner is a member of a registered tenant. -/
theorem safe_requireOwner (headers : Headers) (slug : String) (hs : InOrder s) :
    (requireOwner headers slug).Safe Kept Kept
      (fun _ s' => Kept s s' ∧ s'.control.Registered slug) s := by
  refine Prog.Safe.bind (moves_authenticate _).safe fun identity s₁ h₁ => ?_
  refine (safe_callerRole _ _).bind fun role s₂ h₂ => ?_
  obtain ⟨h₂, rfl⟩ := h₂
  have hregistered : ∀ role, s₂.control.roleFor identity.email slug = some role →
      s₂.control.Registered slug := by
    intro role hrole
    obtain ⟨u, -, -, found, hfound⟩ := Control.hasMembership_iff.mp
      (roleFor_isSome_iff.mp (by rw [hrole]; rfl))
    exact (hs.kept (h₁.trans h₂)).members u.id slug found hfound
  refine Prog.Safe.bind (Q := fun _ s' => Kept s s' ∧ s'.control.Registered slug) ?_
    fun _ s₃ h₃ => ?_
  · cases hrole : s₂.control.roleFor identity.email slug with
    | none => exact Prog.safe_err _
    | some role => exact Prog.safe_ensure fun _ => ⟨h₁.trans h₂, hregistered role hrole⟩
  · refine Prog.Safe.bind ((safe_getUserByEmail _).mapErr _) fun found s₄ h₄ => ?_
    refine Prog.Safe.bind (Prog.moves_okOr _ _).safe fun user s₅ h₅ => Prog.safe_pure ?_
    have hlast : Kept s₃ s₅ := h₄.1.trans h₅
    exact ⟨h₃.1.trans hlast, hlast.control.directory _ h₃.2⟩

theorem safe_postContribution (slug : String) (headers : Headers)
    (payload : Extracted PostContributionRequest) :
    (postContribution slug headers payload).Safe Kept Kept
      (fun response s' => ∃ r ∈ (s'.namespaces slug).contribution.rows,
        response.contribution = contributionView r) s := by
  refine Prog.Safe.bind (Prog.moves_lift _).safe fun p s₁ h₁ => ?_
  refine Prog.Safe.bind (moves_authenticate _).safe fun identity s₂ h₂ => ?_
  refine Prog.Safe.bind (Q := fun tenantSlug _ => tenantSlug.val = slug)
    (Prog.safe_lift fun tenantSlug hslug => tenantSlugOf_ok hslug) fun tenantSlug s₃ hslug => ?_
  obtain rfl := hslug
  refine (safe_callerIsMember _ _).bind fun isMember s₄ h₄ => ?_
  refine Prog.Safe.bind (Q := fun _ s' => s'.control.HasMembership identity.email tenantSlug.val)
    (Prog.safe_ensure h₄.2) fun _ s₅ h₅ => ?_
  refine Prog.Safe.bind (Prog.moves_ensure _ _).safe fun _ s₆ h₆ => ?_
  refine Prog.Safe.bind (Prog.moves_ensure _ _).safe fun _ s₇ h₇ => ?_
  refine Prog.Safe.bind (moves_ledgerRead (moves_tenantSettings _)).safe fun settings s₈ h₈ => ?_
  refine Prog.Safe.bind (moves_readCurrentPeriod _).safe fun period s₉ h₉ => ?_
  have hmember : s₉.control.HasMembership identity.email tenantSlug.val :=
    (((h₆.trans h₇).trans h₈).trans h₉).control.membership h₅
  refine Prog.Safe.bind (Q := fun row s' => row ∈ (s'.namespaces tenantSlug.val).contribution.rows)
    (Prog.Safe.mapErr (safe_onTenant fun s' row ns hkept hadd => ?_) _) fun row s₁₀ hrow => ?_
  · have hstep : Kept s' (s'.setNamespace tenantSlug.val ns) :=
      .of_venture (.of_payment hadd (hkept.control.membership hmember))
    obtain ⟨-, -, -, -, hcreate, -⟩ := Namespace.createContribution_ok hadd
    refine ⟨hstep, ?_⟩
    rw [System.namespaces_setNamespace_same]
    exact (Table.mem_create hcreate row).mpr (.inr rfl)
  · refine Prog.Safe.bind (moves_ledgerRead (moves_periodSummary _ _ _)).safe
      fun summary s₁₁ h₁₁ => Prog.safe_pure ?_
    exact ⟨row, (h₁₁.ventures _).payments.subset hrow, rfl⟩

theorem safe_setCarryForward (slug : String) (headers : Headers)
    (payload : Extracted SetCarryForwardRequest) :
    (setCarryForwardHandler slug headers payload).Safe Kept Kept
      (fun response s' => ∃ row, (s'.namespaces slug).carryForward = some row ∧
        response = carryForwardView row) s := by
  refine Prog.Safe.bind (Prog.moves_lift _).safe fun p s₁ h₁ => ?_
  refine Prog.Safe.bind (moves_authenticate _).safe fun identity s₂ h₂ => ?_
  refine Prog.Safe.bind (Q := fun tenantSlug _ => tenantSlug.val = slug)
    (Prog.safe_lift fun tenantSlug hslug => tenantSlugOf_ok hslug) fun tenantSlug s₃ hslug => ?_
  obtain rfl := hslug
  refine Prog.Safe.bind (moves_callerRole _ _).safe fun role s₄ h₄ => ?_
  refine Prog.Safe.bind (moves_ensureOwner role).safe fun _ s₅ h₅ => ?_
  refine Prog.Safe.bind (Prog.moves_lift _).safe fun _ s₆ h₆ => ?_
  refine Prog.Safe.bind (Q := fun row s' =>
    (s'.namespaces tenantSlug.val).carryForward = some row) (Prog.Safe.mapErr ?_ _)
    fun row s₇ h₇ => Prog.safe_pure ⟨row, h₇, rfl⟩
  refine Prog.Safe.bind (moves_readTenant _ _).safe fun existing s₈ h₈ => ?_
  split
  · exact Prog.safe_err _
  · refine safe_onTenant fun s' row ns hkept hcreate => ?_
    obtain ⟨hnone, hcheck, rfl⟩ := Namespace.createCarryForward_ok hcreate
    exact ⟨.of_venture (.of_seed hnone hcheck), by rw [System.namespaces_setNamespace_same]⟩

theorem safe_createInvite {input : NewInvite} (hslug : s.control.Registered input.tenantSlug) :
    (createInvite input).Safe Kept Kept (fun _ _ => True) s := by
  refine Prog.Safe.bind (moves_readControl _).safe fun found s₁ h₁ => ?_
  cases found with
  | none =>
      refine safe_onControl fun s' r c hkept hcreate => ⟨?_, trivial⟩
      exact .of_control (.of_createInvite hcreate ((h₁.trans hkept).control.directory _ hslug))
  | some rec =>
      dsimp only
      split
      · exact Prog.safe_err _
      · refine Prog.Safe.bind (Q := fun _ _ => True) (safe_onControl fun s' r c _ hset =>
          ⟨?_, trivial⟩) fun row _ _ => Prog.safe_okOr fun _ _ => trivial
        exact .of_control (.of_updateInvite hset fun _ => rfl)

theorem moves_sendInvite (email : InviteEmail) : (sendInvite email).Moves Kept := by
  refine Prog.moves_exec fun s u s' h => ?_
  obtain ⟨-, rfl⟩ := Prod.mk.inj (Except.ok.inj h)
  exact .of_same rfl rfl

theorem safe_createInviteWith {readName : Handler (Option String)} (hread : readName.Moves Kept)
    (slug : String) (headers : Headers) (payload : Extracted CreateInviteRequest)
    (hs : InOrder s) :
    (createInviteWith readName slug headers payload).Safe Kept Kept (fun _ _ => True) s := by
  refine Prog.Safe.bind (Prog.moves_lift _).safe fun p s₁ h₁ => ?_
  refine Prog.Safe.bind (Q := fun tenantSlug s' => s' = s₁ ∧ tenantSlug.val = slug)
    (Prog.safe_lift fun tenantSlug hslug => ⟨rfl, tenantSlugOf_ok hslug⟩)
    fun tenantSlug s₂ h₂ => ?_
  obtain ⟨rfl, rfl⟩ := h₂
  refine (safe_requireOwner headers _ (hs.kept h₁)).bind fun answer s₃ h₃ => ?_
  obtain ⟨callerEmail, caller⟩ := answer
  refine Prog.Safe.bind (Prog.moves_ensure _ _).safe fun _ s₄ h₄ => ?_
  refine Prog.Safe.bind ((safe_createInvite (h₄.control.directory _ h₃.2)).mapErr _)
    fun invite s₅ _ => ?_
  refine Prog.Safe.bind hread.safe fun name s₆ h₆ => ?_
  refine Prog.Safe.bind (moves_sendInvite _).safe fun _ s₇ h₇ => ?_
  exact Prog.safe_pure trivial

end

section

-- keeps the checks of the handlers from being evaluated while their steps are matched
attribute [local irreducible] Prog.Moves

theorem moves_patchSettings (slug : String) (headers : Headers)
    (payload : Extracted PatchSettingsRequest) :
    (patchSettings slug headers payload).Moves Kept := by
  refine .bind (Prog.moves_lift _) fun p => ?_
  refine .bind (moves_authenticate headers) fun identity => ?_
  refine .bind (Prog.moves_lift _) fun tenantSlug => ?_
  refine .bind (moves_callerRole _ _) fun role => ?_
  refine .bind (moves_ensureOwner role) fun _ => ?_
  refine .bind (Prog.moves_lift _) fun _ => ?_
  refine .bind (Prog.Moves.mapErr ?_ _) fun _ => Prog.moves_read _
  unfold updateSettings
  split
  · exact moves_tenantSettings _
  · refine .bind (moves_onTenant fun s row ns hpatch => .of_venture ?_) fun _ =>
      Prog.moves_okOr _ _
    rcases Namespace.patchSettings_ok hpatch with ⟨-, -, rfl⟩ | ⟨old, -, hcheck, -, rfl⟩
    · exact .refl _
    · exact .of_settings hcheck

theorem moves_revokeInviteHandler (slug key : String) (headers : Headers) :
    (revokeInviteHandler slug key headers).Moves Kept := by
  refine .bind (Prog.moves_lift _) fun _ => ?_
  refine .bind (Prog.moves_ensure _ _) fun _ => ?_
  refine .bind (moves_requireOwner headers slug) fun _ => ?_
  refine .bind (Prog.Moves.mapErr ?_ _) fun _ => Prog.moves_pure _
  refine .bind (moves_onControl fun s row c hrevoke => ?_) fun _ => Prog.moves_okOr _ _
  exact .of_control (.of_updateInvite hrevoke fun _ => rfl)

theorem moves_deleteInvitePermanent (slug key : String) (headers : Headers) :
    (deleteInvitePermanent slug key headers).Moves Kept := by
  refine .bind (Prog.moves_lift _) fun _ => ?_
  refine .bind (Prog.moves_ensure _ _) fun _ => ?_
  refine .bind (moves_requireOwner headers slug) fun _ => Prog.Moves.mapErr ?_ _
  refine .bind (moves_onControl fun s rows c hdelete => ?_) fun _ => Prog.moves_ensure _ _
  exact .of_control (.of_deleteInvite hdelete)

theorem moves_postProof (slug uuid : String) (headers : Headers)
    (body : Extracted (List UInt8)) : (postProof slug uuid headers body).Moves Kept := by
  refine .bind (Prog.moves_lift _) fun bytes => ?_
  refine moves_asMember fun identity tenantSlug isMember => ?_
  refine .bind (Prog.moves_ensure _ _) fun _ => ?_
  refine .bind (Prog.moves_okOr _ _) fun ext => ?_
  refine .bind (Prog.moves_exec fun s key s' hput => ?_) fun _ => Prog.moves_pure _
  split at hput
  · obtain ⟨-, rfl⟩ := Prod.mk.inj (Except.ok.inj hput)
    exact .of_same rfl rfl
  · cases hput

end

/-! ## All requests -/

/-- The reply of a safe handler is there if what it reports is. -/
theorem safe_reply {α : Type} {p : Handler α} {reply : α → TenantReply} {r : TenantRequest}
    {Q : α → System → Prop} {s : System} (hp : p.Safe Kept Kept Q s)
    (hreport : ∀ value s', Q value s' → Recorded (.tenant r) (.replied (reply value)) s') :
    ((p >>= fun value => pure (reply value)) >>= fun answer => pure (.replied answer) :
      Handler GatewayAnswer).Safe Kept Kept (Recorded (.tenant r)) s := by
  refine Prog.Safe.bind (Q := fun answer s' => Recorded (.tenant r) (.replied answer) s')
    (hp.bind fun value s' h => Prog.safe_pure (hreport value s' h)) fun answer s' h => ?_
  exact Prog.safe_pure h

theorem safe_tenant (r : TenantRequest) {s : System} (hs : InOrder s) :
    (gatewayProgram (.tenant r)).Safe Kept Kept (Recorded (.tenant r)) s := by
  obtain ⟨slug, headers, route⟩ := r
  cases route with
  | postContribution payload =>
      exact safe_reply (safe_postContribution slug headers payload) fun _ _ h => h
  | setCarryForward payload =>
      exact safe_reply (safe_setCarryForward slug headers payload) fun _ _ h => h
  | createInvite payload =>
      exact safe_reply (safe_createInviteWith (moves_ledgerRead (moves_readControl _)) slug headers
        payload hs) fun _ _ _ => trivial
  | patchSettings payload =>
      exact safe_reply (moves_patchSettings slug headers payload).safe fun _ _ _ => trivial
  | revokeInvite key =>
      exact safe_reply (moves_revokeInviteHandler slug key headers).safe fun _ _ _ => trivial
  | deleteInvitePermanent key =>
      exact safe_reply (moves_deleteInvitePermanent slug key headers).safe fun _ _ _ => trivial
  | postProof uuid body =>
      exact safe_reply (moves_postProof slug uuid headers body).safe fun _ _ _ => trivial
  | myContributions period =>
      exact safe_reply (moves_myContributions slug period headers).safe fun _ _ _ => trivial
  | poolContributions period =>
      exact safe_reply (moves_poolContributions slug period headers).safe fun _ _ _ => trivial
  | activePeriods =>
      exact safe_reply (moves_activePeriods slug headers).safe fun _ _ _ => trivial
  | accumulation bucket =>
      exact safe_reply (moves_accumulation slug bucket headers).safe fun _ _ _ => trivial
  | getSettings => exact safe_reply (moves_getSettings slug headers).safe fun _ _ _ => trivial
  | listInvites => exact safe_reply (moves_listInvites slug headers).safe fun _ _ _ => trivial
  | listMembers => exact safe_reply (moves_listMembers slug headers).safe fun _ _ _ => trivial
  | getCarryForward =>
      exact safe_reply (moves_getCarryForwardHandler slug headers).safe fun _ _ _ => trivial
  | getProofUrl key =>
      exact safe_reply (moves_getProofUrl slug key headers).safe fun _ _ _ => trivial

/-- A request that starts in a state in order is safe among the others. -/
theorem gatewayProgram_safe (call : GatewayCall) {s : System} (hs : InOrder s) :
    (gatewayProgram call).Safe Kept Kept (Recorded call) s := by
  cases call with
  | auth request => exact (safe_handleAuth request hs).bind fun _ _ h => Prog.safe_pure h
  | createTenant headers payload =>
      exact (safe_createTenantHandler headers payload).bind fun _ _ h => Prog.safe_pure h
  | tenant r => exact safe_tenant r hs
  | inviteUnnamed slug headers payload =>
      exact (safe_createInviteWith (Prog.moves_pure none) slug headers payload hs).bind
        fun _ _ _ => Prog.safe_pure trivial

/-! ## In flight -/

/-- One step of the requests in flight. -/
abbrev step (a : Pool.Action HttpError GatewayCall DateTime) (s : GatewayPool) : GatewayPool :=
  Pool.step gateway a s

/-- What every run keeps. -/
structure Sound (s : GatewayPool) : Prop where
  guarded : Pool.Guarded Kept (fun _ => Kept) Recorded s
  inOrder : InOrder s.store

theorem kept_world (now : DateTime) (s : System) : Kept s (gateway.world now s) := .of_same rfl rfl

theorem Sound.kept {a : Pool.Action HttpError GatewayCall DateTime} {s : GatewayPool}
    (hs : Sound s) : Kept s.store (step a s).store :=
  hs.guarded.rely (fun _ _ _ h => h) kept_world

theorem Sound.step {a : Pool.Action HttpError GatewayCall DateTime} {s : GatewayPool}
    (hs : Sound s) : Sound (step a s) where
  guarded := hs.guarded.step (fun _ _ _ h => h) kept_world fun _ call _ =>
    gatewayProgram_safe call hs.inOrder
  inOrder := hs.inOrder.kept hs.kept

theorem sound_exec (actions : List (Pool.Action HttpError GatewayCall DateTime)) (now : DateTime) :
    Sound (Trace.exec step actions (.idle (System.empty now))) :=
  Trace.exec_invariant (fun _ _ hs => hs.step) actions
    ⟨Pool.guarded_idle _, inOrder_empty now⟩

/-- Whatever requests are in flight, however their queries interleave and whichever of them fail,
the store stays in order, and every response that has been given is true of it. -/
theorem overlap_safe (actions : List (Pool.Action HttpError GatewayCall DateTime))
    (now : DateTime) :
    InOrder (Trace.exec step actions (.idle (System.empty now))).store ∧
    ∀ key call answer,
      (Trace.exec step actions (.idle (System.empty now))).Returned key call answer →
      Recorded call answer (Trace.exec step actions (.idle (System.empty now))).store := by
  have hsound := sound_exec actions now
  refine ⟨hsound.inOrder, fun key call answer hreturned => ?_⟩
  obtain ⟨s₀, hkept, hrecorded⟩ := hsound.guarded key call _ hreturned
  have hrecorded : Recorded call answer s₀ := hrecorded
  exact hrecorded.kept hkept

/-- From any moment of such a run to any later one, payments are only appended, seeds and members
stay, and what is new is by members and passes the checks of the schema. -/
theorem overlap_keeps (earlier later : List (Pool.Action HttpError GatewayCall DateTime))
    (now : DateTime) :
    Kept (Trace.exec step earlier (.idle (System.empty now))).store
      (Trace.exec step (earlier ++ later) (.idle (System.empty now))).store := by
  have hsound := sound_exec earlier now
  rw [Trace.exec_append]
  generalize Trace.exec step earlier (.idle (System.empty now)) = s at hsound
  induction later generalizing s with
  | nil => exact .refl _
  | cons a later ih => exact hsound.kept.trans (ih (step a s) hsound.step)

end Requests

end Overlap

end SharamLedger
