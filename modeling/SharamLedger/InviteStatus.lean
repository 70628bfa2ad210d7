import SharamLedger.Roster
import SharamLedger.Sample

/-!
# The status of an invite and the membership behind it

An invite row carries the timestamps its status is read from; the membership it confers is a
row of its own. The two stay in step as long as no accepted invite is revoked.
-/

namespace SharamLedger

open Lib

/-- The address is that of the user who created the tenant. -/
def Control.IsCreator (c : Control) (email slug : String) : Prop :=
  ∃ d ∈ c.tenantDirectory.rows, d.row.slug = slug ∧
    ∃ u ∈ c.user.rows, u.id = d.row.createdBy ∧ u.row.email = email

instance (c : Control) (email slug : String) : Decidable (c.IsCreator email slug) :=
  inferInstanceAs (Decidable (∃ d ∈ c.tenantDirectory.rows, _ ∧ ∃ u ∈ c.user.rows, _))

namespace InviteStatus

section Runs

/-- Apart from a creator's, every accepted invite is open and has its membership; and every
membership comes from a new tenant or from an accepted invite. -/
structure InStep [Platform] (c : Control) : Prop where
  checked : ∀ i ∈ c.invite.rows, i.row.check = .ok ()
  accepted : ∀ i ∈ c.invite.rows, i.row.acceptedAt.isSome = true →
    ¬ c.IsCreator i.row.email i.row.tenantSlug →
      i.row.revokedAt = none ∧ c.HasMembership i.row.email i.row.tenantSlug
  granted : ∀ user slug role, c.roleOf user slug = some role → ∃ u ∈ c.user.rows, u.id = user ∧
    (c.IsCreator u.row.email slug ∨ ∃ i ∈ c.invite.rows, i.row.tenantSlug = slug ∧
      i.row.email = u.row.email ∧ i.row.acceptedAt.isSome = true)

variable [Platform]

/-- No owner revokes an accepted invite, unless it is the creator's. -/
def SparesAccepted (a : AccountAction) (s : System) : Prop :=
  match a with
  | .revokeInvite slug key headers => FromOwner headers slug s →
      ∀ i ∈ s.control.invite.rows, toString i.id = key → i.row.tenantSlug = slug →
        i.row.acceptedAt.isSome = true → s.control.IsCreator i.row.email slug
  | _ => True

/-! ## Statements on the control plane -/

omit [Platform] in
theorem isCreator_mono {c c' : Control} {email slug : String} (h : c.IsCreator email slug)
    (husers : ∀ u ∈ c.user.rows, ∃ u' ∈ c'.user.rows, u'.id = u.id ∧ u'.row.email = u.row.email)
    (hdirectory : ∀ d ∈ c.tenantDirectory.rows, d ∈ c'.tenantDirectory.rows) :
    c'.IsCreator email slug := by
  obtain ⟨d, hd, hslug, u, hu, hid, rfl⟩ := h
  obtain ⟨u', hu', hid', hemail⟩ := husers u hu
  exact ⟨d, hdirectory d hd, hslug, u', hu', hid'.trans hid, hemail⟩

/-- Statements on invites keep the two tables in step when accepted invites stay accepted and only
a creator's becomes accepted, or is changed when it is. -/
theorem inStep_of_invites {c c' : Control} (h : InStep c) (husers : c'.user = c.user)
    (hmemberships : c'.membership = c.membership)
    (hdirectory : c'.tenantDirectory = c.tenantDirectory)
    (hkept : ∀ i ∈ c.invite.rows, i.row.acceptedAt.isSome = true → ∃ i' ∈ c'.invite.rows,
      i'.row.tenantSlug = i.row.tenantSlug ∧ i'.row.email = i.row.email ∧
        i'.row.acceptedAt.isSome = true)
    (hnew : ∀ i ∈ c'.invite.rows, i ∈ c.invite.rows ∨ (i.row.check = .ok () ∧
      (i.row.acceptedAt.isSome = true → c.IsCreator i.row.email i.row.tenantSlug))) :
    InStep c' := by
  have hcreator : ∀ email slug, c'.IsCreator email slug ↔ c.IsCreator email slug := by
    intro email slug
    simp only [Control.IsCreator, husers, hdirectory]
  constructor
  · intro i hi
    rcases hnew i hi with hi | ⟨hcheck, -⟩
    · exact h.checked i hi
    · exact hcheck
  · intro i hi haccepted hother
    rw [hcreator] at hother
    rcases hnew i hi with hi | ⟨-, hmine⟩
    · obtain ⟨hrevoked, hmember⟩ := h.accepted i hi haccepted hother
      exact ⟨hrevoked, by simpa only [Control.HasMembership, husers, hmemberships] using hmember⟩
    · exact absurd (hmine haccepted) hother
  · intro user slug role hrole
    simp only [Control.roleOf, hmemberships] at hrole
    obtain ⟨u, hu, hid, hfrom⟩ := h.granted user slug role hrole
    refine ⟨u, husers ▸ hu, hid, ?_⟩
    rcases hfrom with hfrom | ⟨i, hi, rfl, hemail, haccepted⟩
    · exact .inl ((hcreator _ _).mpr hfrom)
    · obtain ⟨i', hi', hslug', hemail', haccepted'⟩ := hkept i hi haccepted
      exact .inr ⟨i', hi', hslug', hemail'.trans hemail, haccepted'⟩

/-- Rewriting the role and the revocation of an invite keeps the tables in step, unless it is an
accepted one of someone who did not create the tenant. -/
theorem inStep_of_inviteSet {c c' : Control} {i : InviteRecord} {row : Invite} (h : InStep c)
    (hset : Control.InviteSet c c' i row) (hcheck : row.check = .ok ())
    (hslug : row.tenantSlug = i.row.tenantSlug) (hemail : row.email = i.row.email)
    (haccepted : row.acceptedAt = i.row.acceptedAt)
    (hmine : i.row.acceptedAt.isSome = true → c.IsCreator i.row.email i.row.tenantSlug) :
    InStep c' := by
  refine inStep_of_invites h hset.users hset.memberships hset.directory ?_ ?_
  · intro x hx hx'
    by_cases hne : x = i
    · subst hne
      exact ⟨_, (hset.rows _).mpr (.inl rfl), hslug, hemail, by rw [haccepted]; exact hx'⟩
    · exact ⟨x, (hset.rows x).mpr (.inr ⟨hx, hne⟩), rfl, rfl, hx'⟩
  · intro x hx
    rcases (hset.rows x).mp hx with rfl | ⟨hx, -⟩
    · exact .inr ⟨hcheck, by rwa [haccepted, hemail, hslug]⟩
    · exact .inl hx

/-- Registering a tenant makes its creator a member. -/
theorem inStep_of_register {c c' : Control} {init : NewTenant} {now : DateTime} {r : UserRecord}
    (h : InStep c) (hr : r ∈ c.user.rows) (hcreator : init.createdBy = r.id)
    (hregister : c.registerTenant init now = .ok ((), c')) : InStep c' := by
  obtain ⟨husers, hinvites, ⟨d, hslug, hby, hdirectory⟩, hrole⟩ :=
    Control.registerTenant_ok hregister
  have hkept : ∀ u ∈ c.user.rows, ∃ u' ∈ c'.user.rows, u'.id = u.id ∧
      u'.row.email = u.row.email := fun u hu => ⟨u, husers ▸ hu, rfl, rfl⟩
  constructor
  · rw [hinvites]
    exact h.checked
  · rw [hinvites]
    intro i hi haccepted hother
    obtain ⟨hrevoked, hmember⟩ := h.accepted i hi haccepted fun hcreator => hother
      (isCreator_mono hcreator hkept fun d hd => (hdirectory d).mpr (.inl hd))
    refine ⟨hrevoked, Control.hasMembership_mono hmember hkept fun user role hu => ?_⟩
    rw [hrole]
    split
    · exact ⟨"owner", rfl⟩
    · exact ⟨role, hu⟩
  · intro user slug role hu
    rw [hrole] at hu
    split at hu
    · next hkey =>
        have hrmem : r ∈ c'.user.rows := husers ▸ hr
        exact ⟨r, hrmem, hcreator.symm.trans hkey.1.symm,
          .inl ⟨d, (hdirectory d).mpr (.inr rfl), hslug.trans hkey.2.symm, r, hrmem,
            (hby.trans hcreator).symm, rfl⟩⟩
    · obtain ⟨u, humem, hid, hfrom⟩ := h.granted user slug role hu
      refine ⟨u, husers ▸ humem, hid, ?_⟩
      rw [hinvites]
      exact hfrom.imp_left fun hcreator =>
        isCreator_mono hcreator hkept fun d hd => (hdirectory d).mpr (.inl hd)

/-- Putting a user's row in place changes no role. -/
theorem inStep_of_put {c c' : Control} {r : UserRecord} (h : InStep c)
    (hput : Control.UserPut c c' r) : InStep c' := by
  have hkept : ∀ u ∈ c.user.rows, ∃ u' ∈ c'.user.rows, u'.id = u.id ∧
      u'.row.email = u.row.email := fun u hu => hput.user_kept hu
  constructor
  · rw [hput.invites]
    exact h.checked
  · rw [hput.invites]
    intro i hi haccepted hother
    obtain ⟨hrevoked, hmember⟩ := h.accepted i hi haccepted fun hcreator => hother
      (isCreator_mono hcreator hkept fun d hd => hput.directory ▸ hd)
    exact ⟨hrevoked, Control.hasMembership_mono hmember hkept fun user role hu =>
      ⟨role, by rw [hput.roleOf, hu]⟩⟩
  · intro user slug role hu
    rw [hput.roleOf] at hu
    obtain ⟨u, humem, hid, hfrom⟩ := h.granted user slug role hu
    obtain ⟨u', hu', hid', hemail⟩ := hput.user_kept humem
    refine ⟨u', hu', hid'.trans hid, ?_⟩
    rw [hput.invites, hemail]
    exact hfrom.imp_left fun hcreator =>
      isCreator_mono hcreator hkept fun d hd => hput.directory ▸ hd

/-! ## The invite loop -/

/-- An invite is accepted: its membership is set and its row marked. -/
theorem inStep_of_accept {c c₁ c₂ : Control} {u : UserRecord} {inv : InviteRecord} {t : DateTime}
    (h : InStep c) (hu : u ∈ c.user.rows) (hemail : inv.row.email = u.row.email)
    (hopen : inv.row.revokedAt = none)
    (hrole : Control.RoleSet c c₁ u.id inv.row.tenantSlug inv.row.role)
    (hset : Control.InviteSet c₁ c₂ inv { inv.row with acceptedAt := some t }) : InStep c₂ := by
  have husers : c₂.user = c.user := hset.users.trans hrole.users
  have hdirectory : c₂.tenantDirectory = c.tenantDirectory := hset.directory.trans hrole.directory
  have hrows : ∀ x, x ∈ c₂.invite.rows ↔
      x = ⟨inv.id, { inv.row with acceptedAt := some t }⟩ ∨ (x ∈ c.invite.rows ∧ x ≠ inv) := by
    rw [← hrole.invites]
    exact hset.rows
  have hinv : inv ∈ c.invite.rows := hrole.invites ▸ hset.mem
  have hroles : ∀ user slug, c₂.roleOf user slug =
      if user = u.id ∧ slug = inv.row.tenantSlug then some inv.row.role
      else c.roleOf user slug := by
    intro user slug
    rw [← hrole.role]
    simp only [Control.roleOf, hset.memberships]
  have hkept : ∀ x ∈ c.user.rows, ∃ x' ∈ c₂.user.rows, x'.id = x.id ∧
      x'.row.email = x.row.email := fun x hx => ⟨x, husers ▸ hx, rfl, rfl⟩
  constructor
  · intro i hi
    rcases (hrows i).mp hi with rfl | ⟨hi, -⟩
    · exact h.checked inv hinv
    · exact h.checked i hi
  · intro i hi haccepted hother
    rcases (hrows i).mp hi with rfl | ⟨hi, -⟩
    · exact ⟨hopen, Control.hasMembership_iff.mpr ⟨u, husers ▸ hu, hemail.symm, inv.row.role,
        by rw [hroles, if_pos ⟨rfl, rfl⟩]⟩⟩
    · obtain ⟨hrevoked, hmember⟩ := h.accepted i hi haccepted fun hcreator => hother
        (isCreator_mono hcreator hkept fun d hd => hdirectory ▸ hd)
      refine ⟨hrevoked, Control.hasMembership_mono hmember hkept fun user role hrole => ?_⟩
      rw [hroles]
      split
      · exact ⟨_, rfl⟩
      · exact ⟨role, hrole⟩
  · intro user slug role huser
    rw [hroles] at huser
    split at huser
    · next hkey =>
        exact ⟨u, husers ▸ hu, hkey.1.symm, .inr ⟨_, (hrows _).mpr (.inl rfl), hkey.2.symm,
          hemail, rfl⟩⟩
    · obtain ⟨x, hx, hid, hfrom⟩ := h.granted user slug role huser
      refine ⟨x, husers ▸ hx, hid, ?_⟩
      rcases hfrom with hcreator | ⟨i, hi, hslug, hiemail, haccepted⟩
      · exact .inl (isCreator_mono hcreator hkept fun d hd => hdirectory ▸ hd)
      · -- the invite that was accepted now may be the one the membership came from
        by_cases hne : i = inv
        · subst hne
          exact .inr ⟨_, (hrows _).mpr (.inl rfl), hslug, hiemail, rfl⟩
        · exact .inr ⟨i, (hrows i).mpr (.inr ⟨hi, hne⟩), hslug, hiemail, haccepted⟩

/-- One pass of the loop succeeds, and leaves the other invites alone. -/
theorem inStep_acceptOne {s : System} {u : UserRecord} {inv : InviteRecord}
    (h : InStep s.control) (hu : u ∈ s.control.user.rows) (hinv : inv ∈ s.control.invite.rows)
    (hemail : inv.row.email = u.row.email) (hopen : inv.row.revokedAt = none) :
    ∃ slugs c, (acceptOne u.id inv).run s = (.ok slugs, { s with control := c }) ∧ InStep c ∧
      c.user = s.control.user ∧ ∀ x ∈ s.control.invite.rows, x ≠ inv → x ∈ c.invite.rows := by
  obtain ⟨slugs, c, hrun, hkept⟩ := acceptOne_runs u.id hinv (h.checked inv hinv)
  obtain ⟨m, c₁, hupsert, hend⟩ := acceptOne_ok hrun
  have hrole := Control.upsertMembership_ok hupsert
  have hinv₁ : inv ∈ c₁.invite.rows := hrole.invites ▸ hinv
  obtain ⟨t, hset⟩ : ∃ t, Control.InviteSet c₁ c inv { inv.row with acceptedAt := some t } := by
    rcases hend with ⟨haccepted, -, hstate⟩ | ⟨found, c₂, -, hmark, -, hstate⟩
    · -- the row stays as it is, which counts as rewriting it with its own values
      obtain ⟨t, ht⟩ := Option.isSome_iff_exists.mp haccepted
      have hsame : ({ inv.row with acceptedAt := some t } : Invite) = inv.row := by rw [← ht]
      obtain rfl : c = c₁ := congrArg System.control hstate
      refine ⟨t, hinv₁, rfl, rfl, rfl, fun x => ?_⟩
      rw [hsame]
      constructor
      · intro hx
        by_cases hne : x = inv
        · exact .inl hne
        · exact .inr ⟨hx, hne⟩
      · rintro (rfl | ⟨hx, -⟩)
        · exact hinv₁
        · exact hx
    · obtain rfl : c = c₂ := congrArg System.control hstate
      exact ⟨s.now, Control.markAccepted_ok hinv₁ hmark⟩
  exact ⟨slugs, c, hrun, inStep_of_accept h hu hemail hopen hrole hset,
    hset.users.trans hrole.users, hkept⟩

/-- The whole loop keeps the two tables in step. -/
theorem inStep_acceptEach {u : UserRecord} (l : List InviteRecord) (s : System)
    (h : InStep s.control) (hu : u ∈ s.control.user.rows)
    (hl : ∀ inv ∈ l, inv ∈ s.control.invite.rows ∧ inv.row.email = u.row.email ∧
      inv.row.revokedAt = none) (hdistinct : l.Nodup) :
    InStep ((acceptEach u.id l).run s).2.control := by
  induction l generalizing s with
  | nil => exact h
  | cons inv rest ih =>
      obtain ⟨hinv, hemail, hopen⟩ := hl inv (by simp)
      obtain ⟨slugs, c, hrun, hstep, husers, hkept⟩ := inStep_acceptOne h hu hinv hemail hopen
      obtain ⟨hfirst, hrest⟩ := List.nodup_cons.mp hdistinct
      have hloop := ih { s with control := c } hstep (husers ▸ hu) (fun x hx => by
        obtain ⟨hx', hxemail, hxopen⟩ := hl x (by simp [hx])
        exact ⟨hkept x hx' (fun heq => hfirst (heq ▸ hx)), hxemail, hxopen⟩) hrest
      simp only [acceptEach, Prog.run_bind, hrun]
      -- what the rest of the loop answers does not matter for the state
      cases hr : (acceptEach u.id rest).run { s with control := c } with
      | mk result s' =>
          rw [hr] at hloop
          cases result <;> exact hloop

/-- A sign-in keeps the two tables in step. -/
theorem inStep_of_signIn {s s' : System} {email : String} {r : UserRecord} {c : Control}
    {result : Except HttpError AuthResponse} (h : InStep s.control)
    (hsign : SignIn s email r c result s') : InStep s'.control := by
  rw [hsign.state]
  refine inStep_acceptEach _ _ (inStep_of_put h hsign.put)
    hsign.put.mem (fun inv hinv => ?_) ?_
  · obtain ⟨hmem, hemail, hopen⟩ := Control.mem_openInvites.mp hinv
    exact ⟨hmem, hemail.trans hsign.address.symm, hopen⟩
  · exact c.openInvites_nodup _

/-! ## One request -/

/-- Every request that spares the accepted invites keeps the two tables in step. -/
theorem inStep_step (a : AccountAction) (s : System) (h : InStep s.control)
    (hspares : SparesAccepted a s) : InStep (Roster.step a s).control := by
  cases Roster.step_effect a s with
  | same hcontrol =>
      rw [hcontrol]
      exact h
  | registered hr hcreator hregister hcontrol =>
      rw [hcontrol]
      exact inStep_of_register h hr hcreator hregister
  | invited hcreate hcontrol =>
      obtain ⟨hcheck, -, -, -, haccepted, -, husers, hmemberships, hdirectory, hrows⟩ :=
        Control.createInviteRow_ok hcreate
      rw [hcontrol]
      refine inStep_of_invites h husers hmemberships hdirectory
        (fun i hi hi' => ⟨i, (hrows i).mpr (.inl hi), rfl, rfl, hi'⟩) fun i hi => ?_
      rcases (hrows i).mp hi with hi | rfl
      · exact .inl hi
      · exact .inr ⟨hcheck, by simp [haccepted]⟩
  | reactivated hfind hrevoked hreactivate hcontrol =>
      rw [hcontrol]
      rcases Control.updateInvite_ok hreactivate with ⟨-, rfl⟩ | ⟨i, hid, hcheck, -, hset⟩
      · exact h
      · refine inStep_of_inviteSet h hset hcheck rfl rfl rfl fun haccepted => ?_
        -- a revoked invite that was accepted is the creator's
        obtain rfl := Table.eq_of_id_eq hset.mem (Table.find_some hfind).1 (beq_iff_eq.mp hid)
        by_contra hother
        obtain ⟨hnone, -⟩ := h.accepted i hset.mem haccepted hother
        simp [hnone] at hrevoked
  | revoked howner hrevoke hcontrol =>
      rw [hcontrol]
      rcases Control.updateInvite_ok hrevoke with ⟨-, rfl⟩ | ⟨i, hsel, hcheck, -, hset⟩
      · exact h
      · simp only [Bool.and_eq_true, beq_iff_eq] at hsel
        refine inStep_of_inviteSet h hset hcheck rfl rfl rfl fun haccepted => ?_
        rw [hsel.1.2]
        exact hspares howner i hset.mem hsel.1.1 hsel.1.2 haccepted
  | deleted hdelete hcontrol =>
      rw [hcontrol]
      cases hdelete
      refine inStep_of_invites h rfl rfl rfl (fun i hi haccepted => ?_) fun i hi => ?_
      · refine ⟨i, Table.mem_delete.mpr ⟨hi, ?_⟩, rfl, rfl, haccepted⟩
        cases hopen : i.row.acceptedAt with
        | none => simp [hopen] at haccepted
        | some t => simp
      · exact .inl (Table.mem_delete.mp hi).1
  | signedIn haddress hsign => exact inStep_of_signIn h hsign

/-! ## Runs -/

/-- Apart from a creator's, an invite has the status accepted exactly when its address is a
member. -/
def StatusTellsMembership (s : System) : Prop :=
  ∀ i ∈ s.control.invite.rows, ¬ s.control.IsCreator i.row.email i.row.tenantSlug →
    (inviteStatus i = "accepted" ↔ s.control.HasMembership i.row.email i.row.tenantSlug)

omit [Platform] in
theorem inviteStatus_accepted_iff {i : InviteRecord} :
    inviteStatus i = "accepted" ↔ i.row.revokedAt = none ∧ i.row.acceptedAt.isSome = true := by
  unfold inviteStatus
  cases i.row.revokedAt <;> cases i.row.acceptedAt <;> simp

theorem statusTellsMembership_of_inStep {s : System} (h : InStep s.control) :
    StatusTellsMembership s := by
  intro i hi hcreator
  rw [inviteStatus_accepted_iff]
  constructor
  · rintro ⟨-, haccepted⟩
    exact (h.accepted i hi haccepted hcreator).2
  · intro hmember
    obtain ⟨u, hu, hemail, role, hrole⟩ := Control.hasMembership_iff.mp hmember
    obtain ⟨x, hx, hid, hfrom⟩ := h.granted u.id _ role hrole
    obtain rfl := Table.eq_of_id_eq hx hu hid
    rcases hfrom with hfrom | ⟨j, hj, hslug, hjemail, haccepted⟩
    · exact absurd (hemail ▸ hfrom) hcreator
    · obtain rfl := Control.invite_eq hj hi hslug (hjemail.trans hemail)
      exact ⟨(h.accepted j hj haccepted hcreator).1, haccepted⟩

/-- In every run from a fresh deployment in which no owner revokes an accepted invite other than
the creator's, the status of an invite tells whether its address is a member. -/
theorem status_tells_membership {actions : List AccountAction} {now : DateTime}
    (hrun : Trace.Each Roster.step SparesAccepted actions (System.empty now)) :
    StatusTellsMembership (Trace.exec Roster.step actions (System.empty now)) := by
  have hempty : InStep (System.empty now).control := by
    refine ⟨fun i hi => ?_, fun i hi => ?_, fun user slug role hrole => ?_⟩
    · cases hi
    · cases hi
    · obtain ⟨m, hm, -⟩ := Control.roleOf_eq_some.mp hrole
      cases hm
  exact statusTellsMembership_of_inStep
    (hrun.invariant (I := fun s => InStep s.control) inStep_step hempty)

end Runs

/-! ## Invites of one venture -/

section Sample

attribute [local instance] Platform.sample

/-- Ann revokes the first invite of her venture. -/
def annRevokes : AccountAction := .revokeInvite "pool" "0" (bearer "ann@pool.org" juneNoon)

/-- Ann revokes Bob's invite before he accepts it, and invites him again. -/
theorem status_tells_membership_bob :
    StatusTellsMembership (Trace.exec Roster.step
      (annOpens "UTC" 10000 juneNoon ++ [annInvites "bob@pool.org" .member, annRevokes,
        annInvites "bob@pool.org" .treasurer, signIn "bob@pool.org"]) (System.empty juneNoon)) := by
  refine status_tells_membership ⟨trivial, trivial, trivial, ?_, trivial, trivial, trivial⟩
  have hopen : ∀ i ∈ (Trace.exec Roster.step (annOpens "UTC" 10000 juneNoon ++
      [annInvites "bob@pool.org" .member]) (System.empty juneNoon)).control.invite.rows,
      i.row.acceptedAt = none := by decide
  exact fun _ i hi _ _ haccepted => by simp [hopen i hi] at haccepted

/-- Ann revokes the invite that Bob has accepted. It is shown as revoked, and he stays a member. -/
theorem revoked_invite_keeps_membership :
    ¬ StatusTellsMembership (Trace.exec Roster.step
      (annOpens "UTC" 10000 juneNoon ++ [annInvites "bob@pool.org" .member,
        signIn "bob@pool.org", annRevokes]) (System.empty juneNoon)) := by
  unfold StatusTellsMembership
  decide

end Sample

end InviteStatus

end SharamLedger
