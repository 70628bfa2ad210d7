import SharamLedger.Pages

/-!
# The invites page

`AdminInvites` of `sharam-ui/src/pages/admin.rs`, against the routes for owners behind it. In every
reachable state the page opens for owners and for nobody else, it lists all the invites of the
venture, and a button that it shows does what it says.
-/

namespace SharamLedger

open Lib

namespace Pages

section Runs

variable [Platform]

variable {token : Option String} {slug : String} {s : System} {identity : Identity}

/-! ## The invites of a tenant -/

omit [Platform] in
/-- The invites of a tenant, each once and newest first. -/
structure InviteList (c : Control) (slug : String) (records : List InviteRecord) : Prop where
  rows : ∀ i, i ∈ records ↔ i ∈ c.invite.rows ∧ i.row.tenantSlug = slug
  once : (records.map (·.id)).Nodup
  newest : records.Pairwise fun a b => b.row.createdAt ≤ a.row.createdAt

omit [Platform] in
/-- The answer of the ledger to the page. -/
def invitesOf (c : Control) (slug : String) : List InviteRecord :=
  (c.invite.select fun r => r.row.tenantSlug == slug).insertionSort
    fun a b => b.row.createdAt ≤ a.row.createdAt

omit [Platform] in
theorem inviteList_invitesOf (c : Control) (slug : String) :
    InviteList c slug (invitesOf c slug) := by
  refine ⟨fun i => ?_, ?_, ?_⟩
  · rw [invitesOf, List.mem_insertionSort]
    simp [Table.select]
  · rw [invitesOf, ((List.perm_insertionSort _ _).map _).nodup_iff, List.Nodup, List.pairwise_map]
    exact c.invite.distinct.filter _
  · have : Std.Total fun a b : InviteRecord => b.row.createdAt ≤ a.row.createdAt :=
      ⟨fun a b => le_total b.row.createdAt a.row.createdAt⟩
    have : IsTrans InviteRecord fun a b => b.row.createdAt ≤ a.row.createdAt :=
      ⟨fun _ _ _ hab hbc => le_trans hbc hab⟩
    exact List.pairwise_insertionSort _ _
/-! ## Requests of an owner -/

section Owner

variable {headers : Headers}

theorem run_requireOwner (hauth : authResult headers s.now = .ok identity)
    (howner : s.control.roleFor identity.email slug = some "owner") :
    ∃ caller, (requireOwner headers slug).run s = (.ok (identity.email, caller), s) := by
  have hrole := howner
  rw [Control.roleFor_eq] at hrole
  obtain ⟨caller, huser, -⟩ := Option.bind_eq_some_iff.mp hrole
  exact ⟨caller, by simp [requireOwner, hauth, howner, getUserByEmail, huser, Except.mapError]⟩

/-- An owner's request for the invites. -/
theorem run_listInvites (h : Reachable s) (hauth : authResult headers s.now = .ok identity)
    (howner : s.control.roleFor identity.email slug = some "owner") :
    (listInvites slug headers).run s = (.ok ((invitesOf s.control slug).map inviteView), s) := by
  obtain ⟨tenantSlug, -, hnew⟩ := slug_of_role h howner
  obtain ⟨caller, hcaller⟩ := run_requireOwner hauth howner
  simp [listInvites, hnew, hcaller, listInvitesForTenant, invitesOf, Except.mapError]

section Key

variable {i : InviteRecord} {key : String}

omit [Platform] in
theorem key_nonempty (hkey : toString i.id = key) : (!key.isEmpty) = true := by
  have hne : key ≠ "" := hkey ▸ Nat.repr_ne_empty
  simpa using hne

omit [Platform] in
/-- No other invite has the key. -/
theorem invite_of_key {x : InviteRecord} (hi : i ∈ s.control.invite.rows)
    (hkey : toString i.id = key) (hx : x ∈ s.control.invite.rows) (h : toString x.id = key) :
    x = i :=
  Table.eq_of_id_eq hx hi (Decimal.eq_of_toString_eq (h.trans hkey.symm))

/-- An owner revokes an invite that is not revoked. -/
theorem run_revokeInviteHandler (h : Reachable s)
    (hauth : authResult headers s.now = .ok identity)
    (howner : s.control.roleFor identity.email slug = some "owner")
    (hi : i ∈ s.control.invite.rows) (hkey : toString i.id = key) (hslug : i.row.tenantSlug = slug)
    (hopen : i.row.revokedAt = none) :
    ∃ c, (revokeInviteHandler slug key headers).run s =
        (.ok (inviteView ⟨i.id, { i.row with revokedAt := some s.now }⟩),
          { s with control := c }) ∧
      Control.InviteSet s.control c i { i.row with revokedAt := some s.now } := by
  obtain ⟨tenantSlug, -, hnew⟩ := slug_of_role h howner
  obtain ⟨caller, hcaller⟩ := run_requireOwner hauth howner
  have hone : ∀ x ∈ s.control.invite.rows,
      (toString x.id == key && x.row.tenantSlug == slug && x.row.revokedAt.isNone) = true →
        x = i := by
    intro x hx hsel
    simp only [Bool.and_eq_true, beq_iff_eq] at hsel
    exact invite_of_key hi hkey hx hsel.1.1
  obtain ⟨c, hrevoke⟩ : ∃ c, s.control.revokeInviteRow slug key s.now =
      .ok (some ⟨i.id, { i.row with revokedAt := some s.now }⟩, c) :=
    Control.updateInvite_of_mem hi (by simp [hkey, hslug, hopen]) hone (h.booked.checked i hi)
      rfl rfl
  refine ⟨c, ?_, ?_⟩
  · simp [revokeInviteHandler, hnew, key_nonempty hkey, hcaller, SharamLedger.revokeInvite,
      hrevoke, Except.mapError]
  · rcases Control.updateInvite_ok hrevoke with ⟨hnone, -⟩ | ⟨x, hsel, -, -, hset⟩
    · cases hnone
    · obtain rfl := hone x hset.mem hsel
      exact hset

/-- An owner deletes an invite that was never accepted. -/
theorem run_deleteInvitePermanent (h : Reachable s)
    (hauth : authResult headers s.now = .ok identity)
    (howner : s.control.roleFor identity.email slug = some "owner")
    (hi : i ∈ s.control.invite.rows) (hkey : toString i.id = key) (hslug : i.row.tenantSlug = slug)
    (hpending : i.row.acceptedAt = none) :
    ∃ c, (SharamLedger.deleteInvitePermanent slug key headers).run s =
        (.ok (), { s with control := c }) ∧
      c.user = s.control.user ∧ c.membership = s.control.membership ∧
      c.tenantDirectory = s.control.tenantDirectory ∧
      ∀ x, x ∈ c.invite.rows ↔ x ∈ s.control.invite.rows ∧ x ≠ i := by
  obtain ⟨tenantSlug, -, hnew⟩ := slug_of_role h howner
  obtain ⟨caller, hcaller⟩ := run_requireOwner hauth howner
  have hsel : ∀ x ∈ s.control.invite.rows,
      (toString x.id == key && x.row.tenantSlug == slug && x.row.acceptedAt.isNone) = true ↔
        x = i := by
    intro x hx
    constructor
    · intro hsel
      simp only [Bool.and_eq_true, beq_iff_eq] at hsel
      exact invite_of_key hi hkey hx hsel.1.1
    · intro heq
      simp [heq, hkey, hslug, hpending]
  obtain ⟨rows, c, hdelete, hfound, hdone⟩ : ∃ rows c,
      s.control.deleteInviteRow slug key s.now = .ok (rows, c) ∧ i ∈ rows ∧
        c.user = s.control.user ∧ c.membership = s.control.membership ∧
        c.tenantDirectory = s.control.tenantDirectory ∧
        ∀ x, x ∈ c.invite.rows ↔ x ∈ s.control.invite.rows ∧ x ≠ i := by
    refine ⟨_, _, rfl, Table.mem_select.mpr ⟨hi, (hsel i hi).mpr rfl⟩, rfl, rfl, rfl,
      fun x => ?_⟩
    rw [Table.mem_delete]
    refine and_congr_right fun hx => ?_
    rw [← Bool.not_eq_true, hsel x hx]
  have hnonempty : (!rows.isEmpty) = true := by
    simpa using List.ne_nil_of_mem hfound
  refine ⟨c, ?_, hdone⟩
  simp [SharamLedger.deleteInvitePermanent, hnew, key_nonempty hkey, hcaller, deleteInvite,
    hdelete, hnonempty, Except.mapError]

/-- One that was accepted stays. -/
theorem run_deleteInvitePermanent_accepted (h : Reachable s)
    (hauth : authResult headers s.now = .ok identity)
    (howner : s.control.roleFor identity.email slug = some "owner")
    (hi : i ∈ s.control.invite.rows) (hkey : toString i.id = key)
    (haccepted : i.row.acceptedAt ≠ none) :
    (SharamLedger.deleteInvitePermanent slug key headers).run s =
      (.error ⟨404, "invite not found, already accepted, or in another tenant"⟩, s) := by
  obtain ⟨tenantSlug, -, hnew⟩ := slug_of_role h howner
  obtain ⟨caller, hcaller⟩ := run_requireOwner hauth howner
  have hnone : ∀ x ∈ s.control.invite.rows,
      (toString x.id == key && x.row.tenantSlug == slug && x.row.acceptedAt.isNone) = false := by
    intro x hx
    by_contra hsel
    simp only [Bool.not_eq_false, Bool.and_eq_true, beq_iff_eq, Option.isNone_iff_eq_none] at hsel
    obtain rfl := invite_of_key hi hkey hx hsel.1.1
    exact haccepted hsel.2
  have hdelete : s.control.deleteInviteRow slug key s.now = .ok ([], s.control) := by
    have hselected : (s.control.invite.select fun r => toString r.id == key &&
        r.row.tenantSlug == slug && r.row.acceptedAt.isNone) = [] :=
      List.filter_eq_nil_iff.mpr fun x hx => by rw [hnone x hx]; decide
    have hkept : (s.control.invite.delete fun r => toString r.id == key &&
        r.row.tenantSlug == slug && r.row.acceptedAt.isNone) = s.control.invite :=
      Table.ext (List.filter_eq_self.mpr fun x hx => congrArg _ (hnone x hx)) rfl
    rw [Control.deleteInviteRow, hselected, hkept]
  simp [SharamLedger.deleteInvitePermanent, hnew, key_nonempty hkey, hcaller, deleteInvite,
    hdelete, Except.mapError]

end Key

end Owner

/-! ## What the invites page shows -/

/-- The page asks for a session, turns away whoever is no owner, and shows an owner the name of the
directory and all the invites. -/
inductive InvitesShown (s : System) (token : Option String) (slug : String) :
    InvitesPage → Prop where
  | signIn : session token s.now = none → InvitesShown s token slug .signIn
  | forbidden {identity : Identity} : session token s.now = some identity →
      s.control.roleFor identity.email slug ≠ some "owner" → InvitesShown s token slug .forbidden
  | body {identity : Identity} {d : TenantDirectoryRecord} {records : List InviteRecord} :
      session token s.now = some identity →
      s.control.roleFor identity.email slug = some "owner" →
      d ∈ s.control.tenantDirectory.rows → d.row.slug = slug →
      InviteList s.control slug records →
      InvitesShown s token slug (.body d.row.displayName (.ok (records.map inviteView)))

theorem run_fetchOwnerContext (h : Reachable s) (hsession : session token s.now = some identity)
    (slug : String) :
    (s.control.roleFor identity.email slug ≠ some "owner" ∧
      (fetchOwnerContext token slug).run s = (.ok none, s)) ∨
    ∃ v, s.control.roleFor identity.email slug = some "owner" ∧
      (∃ d ∈ s.control.tenantDirectory.rows, d.row.slug = slug ∧
        d.row.displayName = v.displayName) ∧
      (fetchOwnerContext token slug).run s = (.ok (some v), s) := by
  rcases find_listed h.booked.refers identity.email slug (· == "owner") with
    ⟨hother, hfind⟩ | ⟨v, -, -, howner, hrole, hd, hfind⟩
  · refine .inl ⟨fun howner => ?_, ?_⟩
    · exact absurd (hother "owner" howner) (by decide)
    · simp only [fetchOwnerContext, Prog.run_bind, ventures_signedIn hsession, Prog.run_pure, hfind]
  · refine .inr ⟨ventureView v, ?_, hd, ?_⟩
    · rw [hrole, beq_iff_eq.mp howner]
    · simp only [fetchOwnerContext, Prog.run_bind, ventures_signedIn hsession, Prog.run_pure, hfind]

theorem run_fetchInvites (h : Reachable s) (hsession : session token s.now = some identity)
    (hrole : s.control.roleFor identity.email slug = some "owner") :
    (fetchInvites token slug).run s = (.ok ((invitesOf s.control slug).map inviteView), s) := by
  obtain ⟨text, rfl, hauth⟩ := of_session hsession
  rw [fetchInvites, run_authed, run_listInvites h hauth hrole]
  rfl

/-- The page loads, changes nothing, and shows what the gateway would let its caller read. -/
def InvitesLoaded (s : System) (token : Option String) (slug : String) : Prop :=
  ∃ page, (adminInvites token slug).run s = (.ok page, s) ∧ InvitesShown s token slug page

theorem invitesLoaded (h : Reachable s) (token : Option String) (slug : String) :
    InvitesLoaded s token slug := by
  cases hsession : session token s.now with
  | none =>
      refine ⟨.signIn, ?_, .signIn hsession⟩
      rcases ventures_signedOut hsession with hrun | hrun <;>
        simp only [adminInvites, fetchOwnerContext, Prog.run_bind, Prog.run_attempt, hrun,
          Prog.run_pure]
  | some identity =>
      rcases run_fetchOwnerContext h hsession slug with
        ⟨hother, hrun⟩ | ⟨v, howner, ⟨d, hd, hslug, hname⟩, hrun⟩
      · refine ⟨.forbidden, ?_, .forbidden hsession hother⟩
        simp only [adminInvites, Prog.run_bind, Prog.run_attempt, hrun, Prog.run_pure]
      · refine ⟨_, ?_, .body hsession howner hd hslug (inviteList_invitesOf s.control slug)⟩
        simp only [adminInvites, Prog.run_bind, Prog.run_attempt, hrun, Prog.run_pure,
          run_fetchInvites h hsession howner, hname]

/-- The page and the gateway agree on who is an owner. -/
theorem invites_page (actions : List GatewayAction) (now : DateTime) (token : Option String)
    (slug : String) :
    InvitesLoaded (Trace.exec Deployment.step actions (System.empty now)) token slug :=
  invitesLoaded (reachable_exec actions now) token slug

/-! ## The buttons of a row -/

/-- A press of a button reloads the list, which shows the invites that are there then, each once and
the newest first, and differs as stated. -/
def Reloads (s : System) (token : Option String) (slug : String) (press : PageProg Unit)
    (changed : List InviteView → Prop) : Prop :=
  ∃ s' records, press.run s = (.ok (), s') ∧
    (fetchInvites token slug).run s' = (.ok (records.map inviteView), s') ∧
    InviteList s'.control slug records ∧ changed (records.map inviteView)

/-- What the buttons of a row do, where it shows them. -/
structure Pressed (s : System) (token : Option String) (slug : String) (view : List InviteView)
    (v : InviteView) : Prop where
  revoke : showsRevoke v = true →
    Reloads s token slug (revokeInvite token slug v.id) fun view' => ∀ w, w ∈ view' ↔
      w = { v with status := "revoked", revokedAt := some (Platform.toRfc3339 s.now) } ∨
        (w ∈ view ∧ w.id ≠ v.id)
  delete : showsDelete v = true → v.acceptedAt = none →
    Reloads s token slug (deleteInvitePermanent token slug v.id) fun view' => ∀ w, w ∈ view' ↔
      w ∈ view ∧ w.id ≠ v.id
  keeps : showsDelete v = true → v.acceptedAt ≠ none →
    (deleteInvitePermanent token slug v.id).run s =
      (.error (.other "invite not found, already accepted, or in another tenant"), s)

/-- The rows that an owner is shown. -/
theorem mem_shown {c : Control} {w : InviteView} : w ∈ (invitesOf c slug).map inviteView ↔
    ∃ x ∈ c.invite.rows, x.row.tenantSlug = slug ∧ inviteView x = w := by
  rw [List.mem_map]
  constructor
  · intro hw
    obtain ⟨x, hx, heq⟩ := hw
    obtain ⟨hmem, hslug⟩ := ((inviteList_invitesOf c slug).rows x).mp hx
    exact ⟨x, hmem, hslug, heq⟩
  · intro hw
    obtain ⟨x, hmem, hslug, heq⟩ := hw
    exact ⟨x, ((inviteList_invitesOf c slug).rows x).mpr ⟨hmem, hslug⟩, heq⟩

/-- The rows besides one. -/
theorem mem_shown_other {c : Control} {i : InviteRecord} (hi : i ∈ c.invite.rows)
    {w : InviteView} :
    w ∈ (invitesOf c slug).map inviteView ∧ w.id ≠ (inviteView i).id ↔
      ∃ x ∈ c.invite.rows, x ≠ i ∧ x.row.tenantSlug = slug ∧ inviteView x = w := by
  rw [mem_shown]
  constructor
  · intro hw
    obtain ⟨⟨x, hx, hslug, rfl⟩, hid⟩ := hw
    exact ⟨x, hx, fun heq => hid (by rw [heq]), hslug, rfl⟩
  · intro hw
    obtain ⟨x, hx, hne, hslug, rfl⟩ := hw
    -- keys are distinct, and so are their texts
    refine ⟨⟨x, hx, hslug, rfl⟩, fun hid => hne ?_⟩
    exact Table.eq_of_id_eq hx hi (Decimal.eq_of_toString_eq hid)

/-- A request that leaves users and memberships alone leaves the page to its owner. -/
theorem reload (h : Reachable s) (hsession : session token s.now = some identity)
    (howner : s.control.roleFor identity.email slug = some "owner") {a : GatewayAction}
    {c : Control} (hstep : Deployment.step a s = { s with control := c })
    (husers : c.user = s.control.user) (hmemberships : c.membership = s.control.membership) :
    (fetchInvites token slug).run { s with control := c } =
      (.ok ((invitesOf c slug).map inviteView), { s with control := c }) := by
  have hreached : Reachable { s with control := c } := hstep ▸ reachable_step a h
  refine run_fetchInvites hreached hsession ?_
  rw [← howner]
  exact Control.roleFor_of_same husers hmemberships identity.email slug

theorem pressed_revoke (h : Reachable s) (hsession : session token s.now = some identity)
    (howner : s.control.roleFor identity.email slug = some "owner") {i : InviteRecord}
    (hi : i ∈ s.control.invite.rows) (hslug : i.row.tenantSlug = slug)
    (hopen : i.row.revokedAt = none) :
    Reloads s token slug (revokeInvite token slug (toString i.id)) fun view' => ∀ w, w ∈ view' ↔
      w = inviteView ⟨i.id, { i.row with revokedAt := some s.now }⟩ ∨
        (w ∈ (invitesOf s.control slug).map inviteView ∧ w.id ≠ (inviteView i).id) := by
  obtain ⟨text, rfl, hauth⟩ := of_session hsession
  obtain ⟨c, hrun, hset⟩ := run_revokeInviteHandler h hauth howner hi rfl hslug hopen
  have hstep : Deployment.step (.tenant ⟨slug, tokenHeaders text, .revokeInvite (toString i.id)⟩) s
      = { s with control := c } := by
    rw [Deployment.step, TenantRequest.respond, TenantRequest.handle, Prog.run_bind_pure, hrun]
  refine ⟨_, _, ?_, reload h hsession howner hstep hset.users hset.memberships,
    inviteList_invitesOf c slug, fun w => ?_⟩
  · simp only [revokeInvite, Prog.run_bind, run_authed, hrun, Except.mapError, Prog.run_pure]
  · rw [mem_shown, mem_shown_other hi]
    constructor
    · intro hw
      obtain ⟨x, hx, hxslug, rfl⟩ := hw
      rcases (hset.rows x).mp hx with rfl | ⟨hx, hne⟩
      · exact .inl rfl
      · exact .inr ⟨x, hx, hne, hxslug, rfl⟩
    · intro hw
      rcases hw with rfl | ⟨x, hx, hne, hxslug, rfl⟩
      · exact ⟨_, (hset.rows _).mpr (.inl rfl), hslug, rfl⟩
      · exact ⟨x, (hset.rows x).mpr (.inr ⟨hx, hne⟩), hxslug, rfl⟩

theorem pressed_delete (h : Reachable s) (hsession : session token s.now = some identity)
    (howner : s.control.roleFor identity.email slug = some "owner") {i : InviteRecord}
    (hi : i ∈ s.control.invite.rows) (hslug : i.row.tenantSlug = slug)
    (hpending : i.row.acceptedAt = none) :
    Reloads s token slug (deleteInvitePermanent token slug (toString i.id)) fun view' => ∀ w,
      w ∈ view' ↔ w ∈ (invitesOf s.control slug).map inviteView ∧ w.id ≠ (inviteView i).id := by
  obtain ⟨text, rfl, hauth⟩ := of_session hsession
  obtain ⟨c, hrun, husers, hmemberships, -, hrows⟩ :=
    run_deleteInvitePermanent h hauth howner hi rfl hslug hpending
  have hstep : Deployment.step
      (.tenant ⟨slug, tokenHeaders text, .deleteInvitePermanent (toString i.id)⟩) s =
        { s with control := c } := by
    rw [Deployment.step, TenantRequest.respond, TenantRequest.handle, Prog.run_bind_pure, hrun]
  refine ⟨_, _, ?_, reload h hsession howner hstep husers hmemberships,
    inviteList_invitesOf c slug, fun w => ?_⟩
  · rw [deleteInvitePermanent, run_authed, hrun]
    rfl
  · rw [mem_shown, mem_shown_other hi]
    simp only [hrows, and_assoc]

theorem pressed (h : Reachable s) (hsession : session token s.now = some identity)
    (howner : s.control.roleFor identity.email slug = some "owner") {v : InviteView}
    (hv : v ∈ (invitesOf s.control slug).map inviteView) :
    Pressed s token slug ((invitesOf s.control slug).map inviteView) v := by
  obtain ⟨i, hi, hslug, rfl⟩ := mem_shown.mp hv
  refine ⟨fun hshown => ?_, fun hshown hpending => ?_, fun hshown haccepted => ?_⟩
  · -- a row that shows the button is not revoked, so that its other fields stay
    have hopen : i.row.revokedAt = none := by
      simp only [showsRevoke, inviteView, inviteStatus, beq_iff_eq] at hshown
      split at hshown
      · exact absurd hshown (by decide)
      · next hrevoked => simpa using hrevoked
    exact pressed_revoke h hsession howner hi hslug hopen
  · have hpending : i.row.acceptedAt = none := Option.map_eq_none_iff.mp hpending
    exact pressed_delete h hsession howner hi hslug hpending
  · obtain ⟨text, rfl, hauth⟩ := of_session hsession
    have haccepted : i.row.acceptedAt ≠ none := fun hnone => haccepted (by simp [inviteView, hnone])
    have hrun := run_deleteInvitePermanent_accepted h hauth howner hi rfl haccepted
    show (authed (some text)
      (SharamLedger.deleteInvitePermanent slug (toString i.id))).run s = _
    rw [run_authed, hrun]
    rfl

/-- A button that a row shows does what it says, on every row of every page that an owner is shown;
only an invite that was accepted and revoked later cannot be deleted, and the page says so. -/
theorem buttons_work {actions : List GatewayAction} {now : DateTime}
    (hsession : session token (Trace.exec Deployment.step actions (System.empty now)).now =
      some identity)
    (howner : (Trace.exec Deployment.step actions (System.empty now)).control.roleFor
      identity.email slug = some "owner") :
    ∃ view, (fetchInvites token slug).run (Trace.exec Deployment.step actions (System.empty now)) =
        (.ok view, Trace.exec Deployment.step actions (System.empty now)) ∧
      ∀ v ∈ view, Pressed (Trace.exec Deployment.step actions (System.empty now)) token slug
        view v := by
  have hreached := reachable_exec actions now
  exact ⟨_, run_fetchInvites hreached hsession howner,
    fun v hv => pressed hreached hsession howner hv⟩
end Runs

/-! ## Ann's page -/

section Sample

attribute [local instance] Platform.sample

/-- The token that Ann's browser stores. -/
def annToken : String :=
  spellClaims
    { iss := sessionIssuer
      sub := "ann@pool.org"
      email := "ann@pool.org"
      name := none
      picture := none
      exp := timestamp (juneNoon + defaultSessionTtl)
      iat := timestamp juneNoon }

/-- Ann founds her venture and invites Bob. -/
def annInvitesBob : List GatewayAction :=
  ZoneNames.annFounds "UTC" ++
    [.tenant ⟨"pool", bearer "ann@pool.org" juneNoon,
      .createInvite (.ok { email := "bob@pool.org", role := .member })⟩]

/-- The state that Ann's pages show. -/
def poolInvited : System := Trace.exec Deployment.step annInvitesBob (System.empty juneNoon)

/-- The row of Bob's invite has both buttons, and they work. -/
theorem bob_row : ∃ view, (fetchInvites (some annToken) "pool").run poolInvited =
    (.ok view, poolInvited) ∧
      ∀ v ∈ view, Pressed poolInvited (some annToken) "pool" view v := by
  have hsession : session (some annToken) poolInvited.now =
      some ⟨"ann@pool.org", none, none⟩ := by decide +kernel
  have howner : poolInvited.control.roleFor "ann@pool.org" "pool" = some "owner" := by
    decide +kernel
  exact buttons_work hsession howner

/-- It is pending. -/
example : ((invitesOf poolInvited.control "pool").map inviteView).map
    (fun v => (v.email, showsRevoke v, showsDelete v)) = [("bob@pool.org", true, true)] := by
  decide +kernel

end Sample

end Pages

end SharamLedger
