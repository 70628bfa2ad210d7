import SharamLedger.Books
import SharamLedger.Effects
import SharamLedger.PoolAgreement
import SharamLedger.Registry
import SharamLedger.Reinvite
import SharamLedger.Spelling

/-!
# The gateway keeps the books

`System.books` reads the books off the stored rows: roles through users and memberships,
invitations off open invites, terms off settings. Every request is an act on these books that the
house rules allow, or none, so every run of requests is a run of the books. From it follow where a
role comes from and where a payment comes from.
-/

namespace SharamLedger

open Lib

namespace Control

variable {c c' : Control}

/-! ## Open invites as a function -/

/-- The role that the invite of the address in the tenant names, while it is open. -/
def openRole (c : Control) (slug email : String) : Option String :=
  (c.inviteFor slug email).bind fun i => if i.row.revokedAt.isNone then some i.row.role else none

theorem openRole_eq_some {slug email role : String} : c.openRole slug email = some role ↔
    ∃ i ∈ c.openInvites email, i.row.tenantSlug = slug ∧ i.row.role = role := by
  constructor
  · intro h
    obtain ⟨i, hfind, hrole⟩ := Option.bind_eq_some_iff.mp h
    obtain ⟨hi, hslug, hemail⟩ := inviteFor_eq_some.mp hfind
    split at hrole
    · next hopen =>
        refine ⟨i, mem_openInvites.mpr ⟨hi, hemail, ?_⟩, hslug, Option.some.inj hrole⟩
        simpa using hopen
    · cases hrole
  · intro h
    obtain ⟨i, hi, hslug, hrole⟩ := h
    obtain ⟨hi, hemail, hopen⟩ := mem_openInvites.mp hi
    rw [openRole, inviteFor_eq_some.mpr ⟨hi, hslug, hemail⟩]
    simp [hopen, hrole]

/-- A table that differs at one invite gives the same open roles elsewhere. -/
theorem openRole_of_rows {i : InviteRecord}
    (hrows : ∀ x, x ∈ c'.invite.rows ↔ x = i ∨ (x ∈ c.invite.rows ∧
      ¬ (x.row.tenantSlug = i.row.tenantSlug ∧ x.row.email = i.row.email))) (slug email : String) :
    c'.openRole slug email = if slug = i.row.tenantSlug ∧ email = i.row.email then
        if i.row.revokedAt.isNone then some i.row.role else none
      else c.openRole slug email := by
  split
  · next hkey =>
      obtain ⟨rfl, rfl⟩ := hkey
      rw [openRole, inviteFor_eq_some.mpr ⟨(hrows i).mpr (.inl rfl), rfl, rfl⟩]
      rfl
  · next hkey =>
      refine congrArg (fun found => Option.bind found _) (Option.ext fun x => ?_)
      rw [inviteFor_eq_some, inviteFor_eq_some, hrows]
      constructor
      · intro h
        obtain ⟨rfl | ⟨hx, -⟩, rfl, rfl⟩ := h
        · exact absurd ⟨rfl, rfl⟩ hkey
        · exact ⟨hx, rfl, rfl⟩
      · intro h
        obtain ⟨hx, rfl, rfl⟩ := h
        exact ⟨.inr ⟨hx, hkey⟩, rfl, rfl⟩

/-- An invite is created where there was none. -/
theorem inviteFor_of_createInviteRow [Platform] {input : NewInvite} {now : DateTime}
    {i : InviteRecord} (h : c.createInviteRow input now = .ok (i, c')) :
    c.inviteFor input.tenantSlug input.email = none := by
  unfold createInviteRow at h
  cases hc : createRow
      { tenantSlug := input.tenantSlug
        email := input.email
        role := input.role
        invitedBy := input.invitedBy
        createdAt := now
        acceptedAt := none
        revokedAt := none : Invite } c.invite with
  | error e => simp [hc, bind, Except.bind] at h
  | ok result =>
      obtain ⟨r, t⟩ := result
      obtain ⟨-, -, hfree⟩ := Table.create_some (createRow_ok hc).2
      refine List.find?_eq_none.mpr fun x hx => ?_
      simpa [Indexed.collides] using hfree x hx

theorem openRole_createInviteRow [Platform] {input : NewInvite} {now : DateTime} {i : InviteRecord}
    (h : c.createInviteRow input now = .ok (i, c')) (slug email : String) :
    c'.openRole slug email = if slug = input.tenantSlug ∧ email = input.email then some input.role
      else c.openRole slug email := by
  obtain ⟨-, hslug, hemail, hrole, -, hopen, -, -, -, hrows⟩ := createInviteRow_ok h
  have hi : i ∈ c'.invite.rows := (hrows i).mpr (.inr rfl)
  have hset := @openRole_of_rows c c' i (fun x => ?_) slug email
  · rwa [hslug, hemail, hopen, hrole] at hset
  · rw [hrows, or_comm]
    constructor
    · intro hx
      rcases hx with rfl | hx
      · exact .inl rfl
      · by_cases hkey : x.row.tenantSlug = i.row.tenantSlug ∧ x.row.email = i.row.email
        · exact .inl (invite_eq ((hrows x).mpr (.inl hx)) hi hkey.1 hkey.2)
        · exact .inr ⟨hx, hkey⟩
    · exact fun hx => hx.imp_right And.left

/-- An invite was rewritten and keeps its tenant and address. -/
theorem InviteSet.openRole {i : InviteRecord} {row : Invite} (h : InviteSet c c' i row)
    (hslug : row.tenantSlug = i.row.tenantSlug) (hemail : row.email = i.row.email)
    (slug email : String) :
    c'.openRole slug email = if slug = i.row.tenantSlug ∧ email = i.row.email then
        if row.revokedAt.isNone then some row.role else none
      else c.openRole slug email := by
  have hrows := @openRole_of_rows c c' ⟨i.id, row⟩ (fun x => ?_) slug email
  · rwa [hslug, hemail] at hrows
  · rw [h.rows]
    refine or_congr_right (and_congr_right fun hx => not_congr ⟨?_, fun hkey => ?_⟩)
    · intro heq
      rw [heq]
      exact ⟨hslug.symm, hemail.symm⟩
    · exact invite_eq hx h.mem (hkey.1.trans hslug) (hkey.2.trans hemail)

/-- An invite was removed. -/
theorem openRole_of_removed {i : InviteRecord} (hi : i ∈ c.invite.rows)
    (hrows : ∀ x, x ∈ c'.invite.rows ↔ x ∈ c.invite.rows ∧ x ≠ i) (slug email : String) :
    c'.openRole slug email =
      if slug = i.row.tenantSlug ∧ email = i.row.email then none else c.openRole slug email := by
  split
  · next hkey =>
      obtain ⟨rfl, rfl⟩ := hkey
      refine Option.bind_eq_none_iff.mpr fun x hx => ?_
      obtain ⟨hx, hslug, hemail⟩ := inviteFor_eq_some.mp hx
      obtain ⟨hx, hne⟩ := (hrows x).mp hx
      exact absurd (invite_eq hx hi hslug hemail) hne
  · next hkey =>
      refine congrArg (fun found => Option.bind found _) (Option.ext fun x => ?_)
      rw [inviteFor_eq_some, inviteFor_eq_some, hrows, and_right_comm]
      refine and_iff_left_of_imp fun hx heq => hkey ?_
      obtain ⟨-, hslug, hemail⟩ := hx
      exact ⟨by rw [← hslug, heq], by rw [← hemail, heq]⟩

/-- An accepted deletion removed no invite, or one of the tenant. -/
theorem openRole_deleteInviteRow {slug key : String} {now : DateTime} {rows : List InviteRecord}
    (h : c.deleteInviteRow slug key now = .ok (rows, c')) : c' = c ∨
      ∃ i ∈ c.invite.rows, toString i.id = key ∧ i.row.tenantSlug = slug ∧ ∀ v a,
        c'.openRole v a = if v = slug ∧ a = i.row.email then none else c.openRole v a := by
  cases h
  by_cases hsome : ∃ i ∈ c.invite.rows, (toString i.id == key && i.row.tenantSlug == slug &&
      i.row.acceptedAt.isNone) = true
  · obtain ⟨i, hi, hsel⟩ := hsome
    obtain ⟨hkey, rfl⟩ : toString i.id = key ∧ i.row.tenantSlug = slug := by
      simp only [Bool.and_eq_true, beq_iff_eq] at hsel
      exact hsel.1
    refine .inr ⟨i, hi, hkey, rfl, fun v a => ?_⟩
    refine openRole_of_removed hi (fun x => ?_) v a
    rw [Table.mem_delete]
    refine and_congr_right fun hx => ⟨fun hkept heq => ?_, fun hne => ?_⟩
    · rw [heq, hsel] at hkept
      cases hkept
    · -- keys are distinct, so the row is the only one that goes
      by_contra hgone
      simp only [Bool.not_eq_false, Bool.and_eq_true, beq_iff_eq] at hgone
      have hid : x.id = i.id := Decimal.eq_of_toString_eq (hgone.1.1.trans hkey.symm)
      exact hne (Table.eq_of_id_eq hx hi hid)
  · refine .inl (congrArg (fun t => { c with invite := t }) ?_)
    refine Table.ext (List.filter_eq_self.mpr fun x hx => ?_) rfl
    by_contra hgone
    exact hsome ⟨x, hx, by simpa using hgone⟩

/-! ## Roles of addresses -/

theorem roleFor_eq (c : Control) (email slug : String) :
    c.roleFor email slug = (c.userByEmail email).bind fun u => c.roleOf u.id slug := by
  cases hfind : c.userByEmail email with
  | some u =>
      obtain ⟨hu, rfl⟩ := userByEmail_eq_some.mp hfind
      exact roleFor_of_user hu slug
  | none =>
      cases hrole : c.roleFor email slug with
      | none => rfl
      | some role =>
          have hsome : (c.roleFor email slug).isSome = true := by rw [hrole]; rfl
          obtain ⟨u, hu, hemail, -⟩ := roleFor_isSome_iff.mp hsome
          rw [userByEmail_eq_some.mpr ⟨hu, hemail⟩] at hfind
          cases hfind

/-- Roles are read from users and memberships. -/
theorem roleFor_of_same (husers : c'.user = c.user) (hmemberships : c'.membership = c.membership)
    (email slug : String) : c'.roleFor email slug = c.roleFor email slug := by
  simp only [roleFor, membershipsFor, husers, hmemberships]

/-- A registration makes the user of the creator's address an owner of the new tenant. -/
theorem roleFor_registered {init : NewTenant} {now : DateTime} {u : Unit} {r : UserRecord}
    {email : String} (h : c.registerTenant init now = .ok (u, c'))
    (huser : c.userByEmail email = some r) (hcreator : init.createdBy = r.id) (a v : String) :
    c'.roleFor a v =
      if a = email ∧ v = init.slug.val then some "owner" else c.roleFor a v := by
  obtain ⟨husers, -, -, hroles⟩ := registerTenant_ok h
  have hfind : c'.userByEmail a = c.userByEmail a := by
    simp only [userByEmail, husers]
  rw [roleFor_eq, roleFor_eq, hfind]
  cases hu : c.userByEmail a with
  | none =>
      have hne : ¬ (a = email ∧ v = init.slug.val) := by
        intro hnew
        rw [hnew.1, huser] at hu
        cases hu
      rw [if_neg hne]
      rfl
  | some x =>
      obtain ⟨hr, hemail⟩ := userByEmail_eq_some.mp huser
      obtain ⟨hx, hxemail⟩ := userByEmail_eq_some.mp hu
      have hsame : x.id = init.createdBy ↔ a = email := by
        rw [hcreator]
        constructor
        · intro hid
          rw [← hxemail, Table.eq_of_id_eq hx hr hid, hemail]
        · intro ha
          rw [ha, huser] at hu
          rw [Option.some.inj hu]
      simp only [Option.bind_some, hroles, hsame]

/-- A slug that is not registered has no members and no open invites. -/
theorem Refers.free [Platform] (h : c.Refers) {slug : String}
    (hfree : c.directoryEntry slug = none) :
    (∀ user, c.roleOf user slug = none) ∧ ∀ email, c.openRole slug email = none := by
  have hunregistered : ¬ c.Registered slug := by
    intro hregistered
    obtain ⟨d, hd⟩ := registered_iff.mp hregistered
    rw [hfree] at hd
    cases hd
  constructor
  · intro user
    by_contra hne
    obtain ⟨role, hrole⟩ := Option.ne_none_iff_exists'.mp hne
    exact hunregistered (h.members user slug role hrole)
  · intro email
    by_contra hne
    obtain ⟨role, hrole⟩ := Option.ne_none_iff_exists'.mp hne
    obtain ⟨i, hi, rfl, -⟩ := openRole_eq_some.mp hrole
    exact hunregistered (h.invites i (mem_openInvites.mp hi).1)

end Control

/-- The settings row a new tenant starts with. -/
def NewTenant.settingsRow (init : NewTenant) (now : DateTime) : Settings where
  toTenantSettings := init.settings
  createdAt := now
  updatedAt := now

theorem Namespace.createSettings_row {init : NewTenant} {now : DateTime} {ns ns' : Namespace}
    {u : Unit} (h : ns.createSettings init now = .ok (u, ns')) :
    ns.settings = none ∧ (init.settingsRow now).check = .ok () ∧
      ns' = { ns with settings := some (init.settingsRow now) } := by
  dsimp only [createSettings] at h
  split at h
  · cases h
  · cases h
  · next hcheck hnone =>
      cases h
      exact ⟨hnone, hcheck, rfl⟩

/-- The seed that a request asks for, recorded at an instant. -/
def NewCarryForward.row (input : NewCarryForward) (now : DateTime) : CarryForward where
  fromDate := input.fromDate
  toDate := input.toDate
  amountCents := input.amountCents
  note := input.note
  recordedBy := input.recordedBy
  recordedAt := now

theorem Namespace.createCarryForward_row [Platform] {input : NewCarryForward} {now : DateTime}
    {ns ns' : Namespace} {row : CarryForward}
    (h : ns.createCarryForward input now = .ok (row, ns')) :
    row = input.row now ∧ ns.carryForward = none ∧ row.check = .ok () ∧
      ns' = { ns with carryForward := some row } := by
  dsimp only [createCarryForward] at h
  split at h
  · cases h
  · cases h
  · next hcheck hnone =>
      cases h
      exact ⟨rfl, hnone, hcheck, rfl⟩

/-! ## The books of a deployment -/

/-- The books as the stored rows show them. -/
def System.books (s : System) :
    Books String String String Settings ContributionRecord CarryForward where
  role email slug := s.control.roleFor email slug
  invited slug email := s.control.openRole slug email
  terms slug := (s.namespaces slug).settings
  payments slug := (s.namespaces slug).contribution.rows
  seed slug := (s.namespaces slug).carryForward

theorem System.books_eq {s s' : System} (hcontrol : s'.control = s.control)
    (hnamespaces : s'.namespaces = s.namespaces) : s'.books = s.books := by
  simp only [System.books, hcontrol, hnamespaces]

namespace Bookkeeping

section Runs

variable [Platform]

/-- What the schema asserts and what the gateway sets. A payment is for the period on the venture's
wall clock at the time it is made, and the machine sum of it and what was paid before stays within
the dues. -/
def houseRules : Rules String String String Settings ContributionRecord CarryForward where
  owner := "owner"
  payer r := r.row.userEmail
  recorder row := row.recordedBy
  Sound row := row.check = .ok ()
  Fits settings earlier r :=
    r.row.check = .ok () ∧ r.row.status = "submitted" ∧ r.row.cadence = settings.cadence ∧
      currentPeriodOf r.row.submittedAt settings.toTenantSettings = .ok r.row.period ∧
      ¬ r.row.Past r.row.submittedAt ∧ (0 < settings.duesAmountCents →
        mathSum (earlier ++ [r]) r.row.userEmail r.row.period ≤ settings.duesAmountCents)
  Valid row := row.check = .ok ()

/-- The sum is exact while the payments come to one that fits. -/
theorem within_dues_of_fits {settings : Settings} {earlier : List ContributionRecord}
    {r : ContributionRecord} (h : houseRules.Fits settings earlier r)
    (hdues : 0 < settings.duesAmountCents)
    (hfits : I64.Fits (paidSum (earlier ++ [r]) r.row.userEmail r.row.period)) :
    paidSum (earlier ++ [r]) r.row.userEmail r.row.period ≤ settings.duesAmountCents := by
  have hsum := h.2.2.2.2.2 hdues
  rwa [mathSum_of_fits hfits] at hsum

/-- The act that a request performs. The caller is the address of the token, or of the sign-in. -/
inductive Performs (s : System) :
    GatewayAction → Act String String String Settings ContributionRecord CarryForward → Prop where
  | founds {headers : Headers} {p : CreateTenantRequest} {identity : Identity} {slug : TenantSlug}
      {user : Nat} : authResult headers s.now = .ok identity → slug.val = Text.trim p.slug →
      Performs s (.createTenant headers (.ok p))
        (.found identity.email slug.val ((p.toTenant slug user).settingsRow s.now))
  | amends {slug : String} {headers : Headers} {p : PatchSettingsRequest} {identity : Identity}
      {old : Settings} : authResult headers s.now = .ok identity →
      (s.namespaces slug).settings = some old →
      Performs s (.tenant ⟨slug, headers, .patchSettings (.ok p)⟩)
        (.amend identity.email slug
          { Namespace.mergeSettings p.toPatch old with updatedAt := s.now })
  | invites {slug : String} {headers : Headers} {p : CreateInviteRequest} {identity : Identity} :
      authResult headers s.now = .ok identity →
      Performs s (.tenant ⟨slug, headers, .createInvite (.ok p)⟩)
        (.invite identity.email slug (normalizeEmail p.email) p.role.asStr)
  | revokes {slug key : String} {headers : Headers} {identity : Identity} {i : InviteRecord} :
      authResult headers s.now = .ok identity → i ∈ s.control.invite.rows →
      toString i.id = key → i.row.tenantSlug = slug →
      Performs s (.tenant ⟨slug, headers, .revokeInvite key⟩)
        (.withdraw identity.email slug i.row.email)
  | deletes {slug key : String} {headers : Headers} {identity : Identity} {i : InviteRecord} :
      authResult headers s.now = .ok identity → i ∈ s.control.invite.rows →
      toString i.id = key → i.row.tenantSlug = slug →
      Performs s (.tenant ⟨slug, headers, .deleteInvitePermanent key⟩)
        (.withdraw identity.email slug i.row.email)
  | joins {request : AuthRequest} {email : String} : AddressedTo request s.now email →
      Performs s (.auth request) (.join email)
  | pays {slug : String} {headers : Headers} {p : PostContributionRequest} {identity : Identity}
      {settings : Settings} {r : ContributionRecord} : authResult headers s.now = .ok identity →
      (s.namespaces slug).settings = some settings →
      r.row = (paymentInput identity settings.toTenantSettings r.row.period p).row s.now →
      Performs s (.tenant ⟨slug, headers, .postContribution (.ok p)⟩) (.pay slug r)
  | seeds {slug : String} {headers : Headers} {p : SetCarryForwardRequest} {identity : Identity} :
      authResult headers s.now = .ok identity →
      Performs s (.tenant ⟨slug, headers, .setCarryForward (.ok p)⟩)
        (.seed slug ((seedInput identity p).row s.now))

/-! ## What the books rely on -/

/-- Members have user rows, memberships and invites are for registered ventures, and invites have
passed their assertions. -/
structure Booked (s : System) : Prop where
  joined : s.control.Joined
  refers : s.control.Refers
  checked : Reinvite.Checked s

theorem checked_of_invites {s s' : System} (h : s'.control.invite = s.control.invite)
    (hs : Reinvite.Checked s) : Reinvite.Checked s' := by
  intro i hi
  exact hs i (h ▸ hi)

theorem checked_step (a : GatewayAction) (s : System) (h : Reinvite.Checked s) :
    Reinvite.Checked (Deployment.step a s) := by
  have heffect := Deployment.step_effect a s
  generalize Deployment.step a s = s' at heffect
  cases heffect with
  | nothing => exact h
  | clock => exact h
  | @signedIn request email r c s' haddress hsign =>
      have hc : Reinvite.Checked { s with control := c } := checked_of_invites hsign.put.invites h
      rw [hsign.state]
      exact (Reinvite.moves_acceptEach_checked r.id (c.openInvites email)).run _ hc
  | founded hfounded _ =>
      obtain ⟨p, identity, r, slug, ns, -, -, -, -, -, -, ⟨-, hsame⟩ | hregister, -⟩ := hfounded
      · exact checked_of_invites (by rw [hsame]) h
      · exact checked_of_invites (Control.registerTenant_ok hregister).2.1 h
  | paid hpaid =>
      obtain ⟨p, identity, settings, period, r, ns, -, -, -, -, -, -, -, rfl⟩ := hpaid
      exact h
  | patched hpatched =>
      obtain ⟨p, identity, row, ns, -, -, -, -, -, rfl⟩ := hpatched
      exact h
  | seeded hseeded =>
      obtain ⟨p, identity, row, ns, -, -, -, -, rfl⟩ := hseeded
      exact h
  | invited hinvited =>
      obtain ⟨p, identity, tenantSlug, caller, c, -, -, -, -, -, hwritten, rfl⟩ := hinvited
      rcases hwritten with ⟨i, hcreate⟩ | ⟨old, answer, -, -, hreactivate⟩
      · obtain ⟨hcheck, -, -, -, -, -, -, -, -, hrows⟩ := Control.createInviteRow_ok hcreate
        intro x hx
        rcases (hrows x).mp hx with hx | rfl
        · exact h x hx
        · exact hcheck
      · exact Reinvite.keepsChecked_of_updateInvite hreactivate h
  | revoked hrevoked =>
      obtain ⟨answer, c, -, hrevoke, rfl⟩ := hrevoked
      exact Reinvite.keepsChecked_of_updateInvite hrevoke h
  | deleted hdeleted =>
      obtain ⟨rows, c, -, hdelete, rfl⟩ := hdeleted
      cases hdelete
      intro i hi
      exact h i (Table.mem_delete.mp hi).1
  | uploaded hproof =>
      obtain ⟨bytes, identity, ext, -, -, -, -, -, rfl⟩ := hproof
      exact h

theorem booked_step (a : GatewayAction) (s : System) (h : Booked s) :
    Booked (Deployment.step a s) where
  joined := (Deployment.membersKept_step a s).joined h.joined
  refers := Deployment.refers_step a s h.refers
  checked := checked_step a s h.checked

theorem booked_empty (now : DateTime) : Booked (System.empty now) where
  joined := (Deployment.accountable_exec [] now).joined
  refers := Deployment.refers_exec [] now
  checked := fun i hi => by cases hi

/-! ## Every request is an act -/

/-- Accepting an invite leaves its role open. -/
def OpenKept (s s' : System) : Prop :=
  ∀ slug email, s'.control.openRole slug email = s.control.openRole slug email

instance : Std.Refl OpenKept := ⟨fun _ _ _ => rfl⟩

instance : IsTrans System OpenKept where
  trans _ _ _ h h' slug email := (h' slug email).trans (h slug email)

omit [Platform] in
theorem openKept_of_invites {s s' : System} (h : s'.control.invite = s.control.invite) :
    OpenKept s s' := by
  intro slug email
  simp only [Control.openRole, Control.inviteFor, h]

theorem open_acceptEach (user : Nat) (l : List InviteRecord) :
    (acceptEach user l).Moves OpenKept := by
  induction l with
  | nil => exact Prog.moves_pure _
  | cons inv rest ih =>
      refine .bind ?_ fun _ => .bind ih fun _ => Prog.moves_pure _
      refine .bind (moves_onControl fun s m c h =>
        openKept_of_invites (Control.upsertMembership_ok h).invites) fun _ => ?_
      split
      · exact Prog.moves_pure _
      · refine .bind (moves_onControl fun s i c h => ?_) fun _ => Prog.moves_pure _
        rcases Control.updateInvite_ok h with ⟨-, rfl⟩ | ⟨old, -, -, -, hset⟩
        · exact openKept_of_invites rfl
        · intro slug email
          rw [hset.openRole rfl rfl]
          split
          · next hkey =>
              obtain ⟨rfl, rfl⟩ := hkey
              rw [Control.openRole, Control.inviteFor_eq_some.mpr ⟨hset.mem, rfl, rfl⟩]
              rfl
          · rfl

variable {s s' : System}

/-- A sign-in has its address join on the open invites. -/
theorem books_signedIn {email : String} {r : UserRecord} {c : Control}
    {result : Except HttpError AuthResponse} (hs : Booked s) (h : SignIn s email r c result s') :
    s'.books = houseRules.write (.join email) s.books := by
  have hopen : OpenKept { s with control := c } s' := by
    rw [h.state]
    exact (open_acceptEach r.id (c.openInvites email)).run _
  have hinvited : ∀ slug email, s'.control.openRole slug email = s.control.openRole slug email :=
    fun slug email =>
      (hopen slug email).trans (openKept_of_invites (s := s) h.put.invites slug email)
  have hpending : c.openInvites email = s.control.openInvites email := by
    simp only [Control.openInvites, h.put.invites]
  refine Books.ext (funext fun a => funext fun v => ?_)
    (funext fun v => funext fun a => hinvited v a) (by simp only [System.books, Rules.write,
      h.accepts.namespaces]) (by simp only [System.books, Rules.write, h.accepts.namespaces])
    (by simp only [System.books, Rules.write, h.accepts.namespaces])
  show s'.control.roleFor a v = if a = email then (s.control.openRole v a).or
    (s.control.roleFor a v) else s.control.roleFor a v
  rw [Control.roleFor_eq, Control.roleFor_eq, h.userByEmail]
  split
  · next ha =>
      subst ha
      rw [Option.bind_some]
      cases hrole : s.control.openRole v a with
      | some role =>
          obtain ⟨i, hi, rfl, rfl⟩ := Control.openRole_eq_some.mp hrole
          -- the invites have passed their assertions, so the loop goes through
          obtain ⟨slugs, s₁, hrun⟩ := acceptEach_runs r.id (c.openInvites_nodup a)
            { s with control := c } fun x hx => by
              have hx := (Control.mem_openInvites.mp hx).1
              exact ⟨hx, hs.checked x (h.put.invites ▸ hx)⟩
          have hs₁ : s' = s₁ := by rw [h.state, hrun]
          rw [Option.some_or, hs₁]
          exact acceptEach_roles (c.openInvites_distinct a) hrun i (hpending ▸ hi)
      | none =>
          rw [Option.none_or]
          have hsame : s'.control.roleOf r.id v = s.control.roleOf r.id v := by
            rcases h.accepts.mine v with hsame | ⟨i, hi, hslug, -⟩
            · exact hsame.trans (h.put.roleOf r.id v)
            · have hsome := Control.openRole_eq_some.mpr ⟨i, hpending ▸ hi, hslug, rfl⟩
              rw [hrole] at hsome
              cases hsome
          rw [hsame]
          cases hold : s.control.userByEmail a with
          | some old =>
              obtain ⟨hmem, hemail⟩ := Control.userByEmail_eq_some.mp hold
              rw [Option.bind_some, h.put.kept old hmem (hemail.trans h.address.symm)]
          | none =>
              -- the user is new, and members have user rows
              rw [Option.bind_none]
              by_contra hne
              obtain ⟨role, hrole⟩ := Option.ne_none_iff_exists'.mp hne
              obtain ⟨u, hu, hid⟩ := hs.joined r.id v role hrole
              have hemail := (h.put.email_of_id hu hid).trans h.address
              rw [Control.userByEmail_eq_some.mpr ⟨hu, hemail⟩] at hold
              cases hold
  · next ha =>
      cases hold : s.control.userByEmail a with
      | none => rfl
      | some old => exact h.roleOf_other hold ha v

omit [Platform] in
/-- Replacing a namespace changes the books of its venture. -/
theorem books_setNamespace (slug : String) (ns : Namespace) :
    (s.setNamespace slug ns).books =
      { s.books with
        terms := Function.update s.books.terms slug ns.settings
        payments := Function.update s.books.payments slug ns.contribution.rows
        seed := Function.update s.books.seed slug ns.carryForward } := by
  have hfield : ∀ {α : Type} (field : Namespace → α),
      (fun v => field ((s.setNamespace slug ns).namespaces v)) =
        Function.update (fun v => field (s.namespaces v)) slug (field ns) := by
    intro α field
    funext v
    by_cases hv : v = slug
    · rw [hv, System.namespaces_setNamespace_same, Function.update_self]
    · rw [System.namespaces_setNamespace_of_ne _ _ hv, Function.update_of_ne hv]
  exact Books.ext rfl rfl (hfield (·.settings)) (hfield (·.contribution.rows))
    (hfield (·.carryForward))

/-- What an act does to the books of a state. -/
def Acts (a : GatewayAction) (s s' : System) : Prop :=
  s'.books = s.books ∨ ∃ act, Performs s a act ∧ houseRules.Allowed act s.books ∧
    s'.books = houseRules.write act s.books

theorem acts_founded {headers : Headers} {payload : Extracted CreateTenantRequest}
    (hs : Booked s) (h : TenantFounded headers payload s s') :
    Acts (.createTenant headers payload) s s' := by
  obtain ⟨p, identity, r, slug, ns, rfl, hauth, huser, hpasses, hfree, hsettings, hregisters,
    hnamespaces⟩ := h
  obtain ⟨hnobody, hguests⟩ := hs.refers.free hfree
  obtain ⟨hnone, hcheck, hns⟩ := Namespace.createSettings_row hsettings
  -- nothing stands in the way of the registration
  have hregister :
      s.control.registerTenant (p.toTenant slug r.id) s.now = .ok ((), s'.control) := by
    rcases hregisters with ⟨⟨e, he⟩, -⟩ | hregister
    · obtain ⟨c, hc⟩ : ∃ c, s.control.registerTenant (p.toTenant slug r.id) s.now = .ok ((), c) :=
        Control.registerTenant_of_free hfree (hnobody r.id)
      rw [hc] at he
      cases he
    · exact hregister
  have hbooks : s'.books = { (s.setNamespace slug.val ns).books with
      role := fun a v => s'.control.roleFor a v
      invited := fun v a => s'.control.openRole v a } := by
    simp only [System.books, hnamespaces]
  refine .inr ⟨_, .founds hauth hpasses.slug, ⟨hnone, fun a => ?_, hguests, hcheck⟩, ?_⟩
  · show s.control.roleFor a slug.val = none
    rw [Control.roleFor_eq]
    exact Option.bind_eq_none_iff.mpr fun u _ => hnobody u.id
  · rw [hbooks, books_setNamespace, hns]
    refine Books.ext (funext fun a => funext fun v => ?_) (funext fun v => funext fun a => ?_) rfl
      (Function.update_eq_self _ _) (Function.update_eq_self _ _)
    · exact Control.roleFor_registered hregister huser rfl a v
    · show s'.control.openRole v a = s.control.openRole v a
      simp only [Control.openRole, Control.inviteFor, (Control.registerTenant_ok hregister).2.1]

theorem acts_paid {slug : String} {headers : Headers}
    {payload : Extracted PostContributionRequest} (h : PaymentRecorded slug headers payload s s') :
    Acts (.tenant ⟨slug, headers, .postContribution payload⟩) s s' := by
  obtain ⟨p, identity, settings, period, r, ns, rfl, hauth, hmember, -, hsettings, hperiod, hadd,
    rfl⟩ := h
  obtain ⟨hcheck, hrow, hpast, hcap, hcreate, hkept, hseed⟩ := Namespace.createContribution_ok hadd
  have hrow : r.row = (paymentInput identity settings.toTenantSettings period p).row s.now := hrow
  have hrows : ns.contribution.rows = (s.namespaces slug).contribution.rows ++ [r] :=
    (Table.create_some hcreate).2.1
  have hsubmitted : ("submitted" : String) ≠ "rejected" := by decide
  refine .inr ⟨.pay slug r, .pays hauth hsettings (by rw [hrow]; rfl), ⟨?_, settings, hsettings,
    ?_, ?_, ?_, ?_, ?_, fun hdues => ?_⟩, ?_⟩
  · show (s.control.roleFor r.row.userEmail slug).isSome
    rw [hrow]
    exact hmember
  · rw [hrow]
    exact hcheck
  · rw [hrow]
    rfl
  · rw [hrow]
    rfl
  · rw [hrow]
    exact hperiod
  · rw [hrow] at hpast ⊢
    exact hpast
  · have hsum := hcap.resolve_left (by rw [hrow]; exact hsubmitted) settings
      (hkept.trans hsettings) hdues
    rwa [hrows] at hsum
  · rw [books_setNamespace, hkept, hseed, hrows]
    exact Books.ext rfl rfl (Function.update_eq_self _ _) rfl (Function.update_eq_self _ _)

theorem acts_patched {slug : String} {headers : Headers}
    {payload : Extracted PatchSettingsRequest} (h : PatchApplied slug headers payload s s') :
    Acts (.tenant ⟨slug, headers, .patchSettings payload⟩) s s' := by
  obtain ⟨p, identity, row, ns, rfl, -, hauth, howner, hpatch, rfl⟩ := h
  rcases Namespace.patchSettings_ok hpatch with ⟨-, -, rfl⟩ | ⟨old, hold, hcheck, -, rfl⟩
  · exact .inl (by rw [System.setNamespace_self])
  · refine .inr ⟨_, .amends hauth hold, ⟨howner, by simp [System.books, hold], hcheck⟩, ?_⟩
    rw [books_setNamespace]
    exact Books.ext rfl rfl rfl (Function.update_eq_self _ _) (Function.update_eq_self _ _)

theorem acts_seeded {slug : String} {headers : Headers}
    {payload : Extracted SetCarryForwardRequest} (h : SeedStored slug headers payload s s') :
    Acts (.tenant ⟨slug, headers, .setCarryForward payload⟩) s s' := by
  obtain ⟨p, identity, row, ns, rfl, hauth, howner, hcreate, rfl⟩ := h
  obtain ⟨rfl, hnone, hcheck, rfl⟩ := Namespace.createCarryForward_row hcreate
  refine .inr ⟨_, .seeds hauth, ⟨howner, hnone, hcheck⟩, ?_⟩
  rw [books_setNamespace]
  exact Books.ext rfl rfl (Function.update_eq_self _ _) (Function.update_eq_self _ _) rfl

omit [Platform] in
/-- Only the invites changed, in the one way that `invited` says. -/
theorem books_of_invites {s s' : System} {invited : String → String → Option String}
    (husers : s'.control.user = s.control.user)
    (hmemberships : s'.control.membership = s.control.membership)
    (hnamespaces : s'.namespaces = s.namespaces)
    (hinvited : ∀ v a, s'.control.openRole v a = invited v a) :
    s'.books = { s.books with invited := invited } := by
  refine Books.ext (funext fun a => funext fun v => ?_)
    (funext fun v => funext fun a => hinvited v a) ?_ ?_ ?_
  · exact Control.roleFor_of_same husers hmemberships a v
  all_goals simp only [System.books, hnamespaces]

theorem acts_invited {slug : String} {headers : Headers}
    {payload : Extracted CreateInviteRequest} (h : InviteSent slug headers payload s s') :
    Acts (.tenant ⟨slug, headers, .createInvite payload⟩) s s' := by
  obtain ⟨p, identity, tenantSlug, caller, c, rfl, rfl, hauth, howner, -, hwritten, rfl⟩ := h
  rcases hwritten with ⟨i, hcreate⟩ | ⟨old, answer, hfind, hrevoked, hreactivate⟩
  · obtain ⟨-, -, -, -, -, -, husers, hmemberships, -⟩ := Control.createInviteRow_ok hcreate
    have hnone := Control.inviteFor_of_createInviteRow hcreate
    refine .inr ⟨_, .invites hauth, ⟨howner, ?_⟩, ?_⟩
    · refine Option.bind_eq_none_iff.mpr fun x hx => ?_
      cases hnone.symm.trans hx
    · exact books_of_invites husers hmemberships rfl (Control.openRole_createInviteRow hcreate)
  · rcases Control.updateInvite_ok hreactivate with ⟨-, rfl⟩ | ⟨i, hid, -, -, hset⟩
    · exact .inl (System.books_eq rfl rfl)
    · obtain ⟨hold, hslug, hemail⟩ := Control.inviteFor_eq_some.mp hfind
      obtain rfl := Table.eq_of_id_eq hset.mem hold (beq_iff_eq.mp hid)
      refine .inr ⟨_, .invites hauth, ⟨howner, ?_⟩, ?_⟩
      · refine Option.bind_eq_none_iff.mpr fun x hx => ?_
        obtain rfl := Option.some.inj (hfind.symm.trans hx)
        rw [if_neg]
        simpa [Option.isSome_iff_ne_none] using hrevoked
      · refine books_of_invites hset.users hset.memberships rfl fun v a => ?_
        rw [hset.openRole rfl rfl, hslug, hemail]
        rfl

theorem acts_revoked {slug key : String} {headers : Headers}
    (h : InviteRevoked slug key headers s s') :
    Acts (.tenant ⟨slug, headers, .revokeInvite key⟩) s s' := by
  obtain ⟨answer, c, ⟨identity, hauth, howner⟩, hrevoke, rfl⟩ := h
  rcases Control.updateInvite_ok hrevoke with ⟨-, rfl⟩ | ⟨i, hsel, -, -, hset⟩
  · exact .inl rfl
  · simp only [Bool.and_eq_true, beq_iff_eq] at hsel
    obtain ⟨⟨hkey, rfl⟩, -⟩ := hsel
    refine .inr ⟨_, .revokes hauth hset.mem hkey rfl, howner, ?_⟩
    refine books_of_invites hset.users hset.memberships rfl fun v a => ?_
    rw [hset.openRole rfl rfl]
    rfl

theorem acts_deleted {slug key : String} {headers : Headers}
    (h : InviteDeleted slug key headers s s') :
    Acts (.tenant ⟨slug, headers, .deleteInvitePermanent key⟩) s s' := by
  obtain ⟨rows, c, ⟨identity, hauth, howner⟩, hdelete, rfl⟩ := h
  have hcontrol : c.user = s.control.user ∧ c.membership = s.control.membership := by
    cases hdelete
    exact ⟨rfl, rfl⟩
  rcases Control.openRole_deleteInviteRow hdelete with rfl | ⟨i, hi, hkey, rfl, hopen⟩
  · exact .inl rfl
  · exact .inr ⟨_, .deletes hauth hi hkey rfl, howner,
      books_of_invites hcontrol.1 hcontrol.2 rfl hopen⟩

theorem acts_step (a : GatewayAction) (s : System) (hs : Booked s) :
    Acts a s (Deployment.step a s) := by
  have heffect := Deployment.step_effect a s
  generalize Deployment.step a s = s' at heffect
  cases heffect with
  | nothing => exact .inl rfl
  | clock => exact .inl rfl
  | signedIn haddress hsign =>
      exact .inr ⟨_, .joins haddress, trivial, books_signedIn hs hsign⟩
  | founded hfounded _ => exact acts_founded hs hfounded
  | paid hpaid => exact acts_paid hpaid
  | patched hpatched => exact acts_patched hpatched
  | seeded hseeded => exact acts_seeded hseeded
  | invited hinvited => exact acts_invited hinvited
  | revoked hrevoked => exact acts_revoked hrevoked
  | deleted hdeleted => exact acts_deleted hdeleted
  | uploaded hproof =>
      obtain ⟨bytes, identity, ext, -, -, -, -, -, rfl⟩ := hproof
      exact .inl rfl

/-- Every step of the gateway is an act under the house rules, or none. -/
theorem simulates :
    houseRules.machine.Simulates Deployment.step Booked System.books fun a s act =>
      Performs s a act :=
  ⟨booked_step, acts_step⟩

/-! ## Runs -/

variable {actions : List GatewayAction} {now : DateTime}

/-- Every run of requests is a run of the books in which each act is allowed, with the acts that
the requests performed. -/
theorem gateway_keeps_books (actions : List GatewayAction) (now : DateTime) :
    ∃ acts, Machine.Did Deployment.step (fun a s act => Performs s a act) actions
        (System.empty now) acts ∧
      houseRules.machine.Run acts Books.empty
        (Trace.exec Deployment.step actions (System.empty now)).books :=
  simulates.run actions (booked_empty now)

/-- Entries of the books stay for good. -/
theorem grows_exec (actions : List GatewayAction) (hs : Booked s) :
    Books.Grows s.books (Trace.exec Deployment.step actions s).books :=
  simulates.relates (fun _ _ => Rules.grows_write) actions hs

theorem booked_after {a : GatewayAction} {x : System}
    (h : Trace.Takes Deployment.step actions (System.empty now) a x) :
    Booked (Deployment.step a x) := by
  obtain ⟨earlier, later, rfl, rfl⟩ := h
  exact booked_step a _ (Trace.exec_invariant booked_step earlier (booked_empty now))

/-- What an action of a run entered is there at the end of the run. -/
theorem entries_kept {a : GatewayAction} {x : System}
    (h : Trace.Takes Deployment.step actions (System.empty now) a x) :
    Books.Grows (Deployment.step a x).books
      (Trace.exec Deployment.step actions (System.empty now)).books := by
  have hbooked := booked_after h
  obtain ⟨earlier, later, rfl, rfl⟩ := h
  rw [Trace.exec_append]
  exact grows_exec later hbooked

/-- In every reachable state the books are in order. -/
theorem kept_exec (actions : List GatewayAction) (now : DateTime) :
    Books.Kept houseRules (Trace.exec Deployment.step actions (System.empty now)).books := by
  obtain ⟨acts, -, hrun⟩ := simulates.run actions (booked_empty now)
  exact hrun.invariant (fun _ _ => Rules.kept_write) (Books.kept_empty houseRules)

/-! ## Where roles come from -/

/-- The address founded the venture, when it had no members. -/
def Founded (actions : List GatewayAction) (start : System) (email slug : String) : Prop :=
  ∃ headers p identity x,
    Trace.Takes Deployment.step actions start (.createTenant headers (.ok p)) x ∧
    authResult headers x.now = .ok identity ∧ identity.email = email ∧ Text.trim p.slug = slug ∧
    ∀ other, x.control.roleFor other slug = none

/-- An owner invited the address to the venture with the role, and later, while the invite was open,
the address signed in. -/
def InvitedThenJoined (actions : List GatewayAction) (start : System) (email slug role : String) :
    Prop :=
  ∃ headers p identity x request y,
    Trace.TakesThen Deployment.step actions start
      (.tenant ⟨slug, headers, .createInvite (.ok p)⟩) x (.auth request) y ∧
    authResult headers x.now = .ok identity ∧
    x.control.roleFor identity.email slug = some "owner" ∧ normalizeEmail p.email = email ∧
    p.role.asStr = role ∧ AddressedTo request y.now email ∧
    y.control.openRole slug email = some role

/-- The row was appended by one request for a payment. The one who paid was a member of the venture,
the row is what the request asked for, it fitted the settings of that time, and the rows before it
are still there in `rows`, unchanged and in their order. -/
def Paid (actions : List GatewayAction) (start : System) (slug : String)
    (rows : List ContributionRecord) (r : ContributionRecord) : Prop :=
  ∃ headers p identity settings x,
    Trace.Takes Deployment.step actions start
      (.tenant ⟨slug, headers, .postContribution (.ok p)⟩) x ∧
    authResult headers x.now = .ok identity ∧
    (x.control.roleFor identity.email slug).isSome = true ∧
    (x.namespaces slug).settings = some settings ∧
    r.row = (paymentInput identity settings.toTenantSettings r.row.period p).row x.now ∧
    houseRules.Fits settings (x.namespaces slug).contribution.rows r ∧
    (x.namespaces slug).contribution.rows ++ [r] <+: rows

/-- A row of a venture's contributions was written by the one act that enters it. -/
theorem payment_brought {slug : String} {r : ContributionRecord}
    (h : r ∈ ((Trace.exec Deployment.step actions (System.empty now)).namespaces
      slug).contribution.rows) :
    ∃ a x, Trace.Takes Deployment.step actions (System.empty now) a x ∧
      Performs x a (.pay slug r) ∧ houseRules.Allowed (.pay slug r) x.books ∧
      ((Deployment.step a x).namespaces slug).contribution.rows =
        (x.namespaces slug).contribution.rows ++ [r] := by
  have hstart : ¬ r ∈ (System.empty now).books.payments slug := by
    intro h
    cases h
  obtain ⟨a, x, act, htakes, hbrings⟩ :=
    simulates.brought (P := fun books => r ∈ books.payments slug) (booked_empty now) hstart h
  have hwritten := hbrings.after
  rw [hbrings.act] at hwritten
  obtain ⟨rfl, hrows⟩ := Rules.payment_written hbrings.before hwritten
  have hstep : (Deployment.step a x).books.payments slug = x.books.payments slug ++ [r] := by
    rw [hbrings.act]
    exact hrows
  exact ⟨a, x, htakes, hbrings.does, hbrings.allowed, hstep⟩

/-- Every row of a venture's contributions comes from a payment of a member. -/
theorem payment_has_origin {slug : String} {r : ContributionRecord}
    (h : r ∈ ((Trace.exec Deployment.step actions (System.empty now)).namespaces
      slug).contribution.rows) :
    Paid actions (System.empty now) slug ((Trace.exec Deployment.step actions
      (System.empty now)).namespaces slug).contribution.rows r := by
  obtain ⟨a, x, htakes, hperforms, ⟨hmember, terms, hterms, hfits⟩, hrows⟩ := payment_brought h
  have hkept := (entries_kept htakes).payments slug
  cases hperforms with
  | @pays _ headers p identity settings _ hauth hsettings hrow =>
      obtain rfl := Option.some.inj (hsettings.symm.trans hterms)
      have hpayer : r.row.userEmail = identity.email := by rw [hrow]; rfl
      refine ⟨headers, p, identity, settings, x, htakes, hauth, ?_, hsettings, hrow, hfits, ?_⟩
      · rw [← hpayer]
        exact hmember
      · rw [← hrows]
        exact hkept

/-! ## Where settings and seeds come from -/

/-- The settings are those of the request that founded the venture, when it had neither settings nor
members. -/
def SetByFounder (actions : List GatewayAction) (start : System) (slug : String)
    (row : Settings) : Prop :=
  ∃ headers p tenantSlug user x,
    Trace.Takes Deployment.step actions start (.createTenant headers (.ok p)) x ∧
    tenantSlug.val = slug ∧ tenantSlug.val = Text.trim p.slug ∧
    row = (p.toTenant tenantSlug user).settingsRow x.now ∧
    (x.namespaces slug).settings = none ∧ ∀ other, x.control.roleFor other slug = none

/-- The settings are what a patch of an owner made of those before. -/
def SetByOwner (actions : List GatewayAction) (start : System) (slug : String)
    (row : Settings) : Prop :=
  ∃ headers p old x,
    Trace.Takes Deployment.step actions start
      (.tenant ⟨slug, headers, .patchSettings (.ok p)⟩) x ∧
    FromOwner headers slug x ∧ (x.namespaces slug).settings = some old ∧
    row = { Namespace.mergeSettings p.toPatch old with updatedAt := x.now }

/-- Nobody but the founder and the owners sets the settings of a venture. -/
theorem settings_have_origin {slug : String} {row : Settings}
    (h : ((Trace.exec Deployment.step actions (System.empty now)).namespaces slug).settings =
      some row) :
    SetByFounder actions (System.empty now) slug row ∨
      SetByOwner actions (System.empty now) slug row := by
  have hstart : ¬ (System.empty now).books.terms slug = some row := by
    intro h
    cases h
  obtain ⟨a, x, act, htakes, hbrings⟩ :=
    simulates.brought (P := fun books => books.terms slug = some row) (booked_empty now) hstart h
  have hwritten := hbrings.after
  rw [hbrings.act] at hwritten
  obtain ⟨who, ⟨rfl, hnone⟩ | ⟨rfl, howner⟩⟩ :=
    Rules.terms_written hbrings.allowed hbrings.before hwritten
  · obtain ⟨-, hnobody, -, -⟩ := hbrings.allowed
    cases hbrings.does with
    | @founds headers p identity tenantSlug user hauth hslug =>
        exact .inl ⟨headers, p, tenantSlug, user, x, htakes, rfl, hslug, rfl, hnone, hnobody⟩
  · cases hbrings.does with
    | @amends _ headers p identity old hauth hold =>
        exact .inr ⟨headers, p, old, x, htakes, ⟨identity, hauth, howner⟩, hold, rfl⟩

/-- The seed is the one that an owner recorded when the venture had none, and whatever comes after
that request it is still there. -/
def SeededByOwner (actions : List GatewayAction) (start : System) (slug : String)
    (row : CarryForward) : Prop :=
  ∃ headers p identity x,
    Trace.Takes Deployment.step actions start
      (.tenant ⟨slug, headers, .setCarryForward (.ok p)⟩) x ∧
    authResult headers x.now = .ok identity ∧
    x.control.roleFor identity.email slug = some "owner" ∧
    (x.namespaces slug).carryForward = none ∧ row = (seedInput identity p).row x.now ∧
    ∀ later, ((Trace.exec Deployment.step later (Deployment.step
      (.tenant ⟨slug, headers, .setCarryForward (.ok p)⟩) x)).namespaces slug).carryForward =
        some row

/-- Nobody but an owner records the seed of a venture, and it stays for good. -/
theorem seed_has_origin {slug : String} {row : CarryForward}
    (h : ((Trace.exec Deployment.step actions (System.empty now)).namespaces slug).carryForward =
      some row) : SeededByOwner actions (System.empty now) slug row := by
  have hstart : ¬ (System.empty now).books.seed slug = some row := by
    intro h
    cases h
  obtain ⟨a, x, act, htakes, hbrings⟩ :=
    simulates.brought (P := fun books => books.seed slug = some row) (booked_empty now) hstart h
  have hwritten := hbrings.after
  rw [hbrings.act] at hwritten
  obtain ⟨rfl, howner⟩ := Rules.seed_written hbrings.allowed hbrings.before hwritten
  obtain ⟨-, hnone, -⟩ := hbrings.allowed
  have hstays : ∀ later, ((Trace.exec Deployment.step later
      (Deployment.step a x)).namespaces slug).carryForward = some row :=
    fun later => (grows_exec later (booked_after htakes)).seed slug row hbrings.after
  cases hbrings.does with
  | @seeds _ headers p identity hauth =>
      exact ⟨headers, p, identity, x, htakes, hauth, howner, hnone, rfl, hstays⟩

end Runs

/-! ## Ann's venture -/

section Sample

attribute [local instance] Platform.sample

open PoolAgreement

/-- Bob's payment. -/
theorem bob_paid :
    Paid (bobJoins 10000 ++ [pays "bob@pool.org" 4000]) (System.empty juneNoon) "pool"
      ((Trace.exec Deployment.step (bobJoins 10000 ++ [pays "bob@pool.org" 4000])
        (System.empty juneNoon)).namespaces "pool").contribution.rows
      ⟨0, paymentRow "bob@pool.org" "monthly" "2026-06" 4000 juneNoon⟩ :=
  payment_has_origin (by decide)

/-- Ann founded the venture with dues of 100, and lowered them to 50. -/
theorem ann_set_dues :
    SetByFounder (bobJoins 10000 ++ [annSetsDues 5000]) (System.empty juneNoon) "pool"
        (sampleSettings 5000) ∨
      SetByOwner (bobJoins 10000 ++ [annSetsDues 5000]) (System.empty juneNoon) "pool"
        (sampleSettings 5000) :=
  settings_have_origin (by decide)

/-- She records what was there before. -/
def annSeeds : GatewayAction :=
  .tenant ⟨"pool", bearer "ann@pool.org" juneNoon,
    .setCarryForward (.ok
      { fromDate := "2025-01-01"
        toDate := "2025-12-31"
        amountCents := 90000
        note := some " old book " })⟩

theorem ann_seeded :
    SeededByOwner (bobJoins 10000 ++ [annSeeds]) (System.empty juneNoon) "pool"
      ⟨"2025-01-01", "2025-12-31", 90000, some "old book", "ann@pool.org", juneNoon⟩ :=
  seed_has_origin (by decide)

end Sample

end Bookkeeping

end SharamLedger
