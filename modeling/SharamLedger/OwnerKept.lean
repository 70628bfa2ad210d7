import SharamLedger.Roster
import SharamLedger.Sample

/-!
# Every tenant keeps an owner

Roles change when a sign-in turns open invites into memberships. A tenant keeps an owner as long
as its only owner does not sign in while an invite names their address with another role.
-/

namespace SharamLedger

open Lib

/-- The user of the address is the tenant's only owner. -/
def Control.OnlyOwner (c : Control) (email slug : String) : Prop :=
  ∃ r, c.userByEmail email = some r ∧ c.roleOf r.id slug = some "owner" ∧
    ∀ user, c.roleOf user slug = some "owner" → user = r.id

namespace OwnerKept

/-- Every registered tenant has an owner, and every role is a user's. -/
structure Owned (c : Control) : Prop where
  owner : ∀ d ∈ c.tenantDirectory.rows, ∃ user, c.roleOf user d.row.slug = some "owner"
  user : ∀ user slug role, c.roleOf user slug = some role → ∃ r ∈ c.user.rows, r.id = user

section Runs

variable [Platform]

/-- No sign-in that goes through is for the address of a tenant's only owner while an open invite
names the address with another role. -/
def SparesOnlyOwner (a : AccountAction) (s : System) : Prop :=
  match a with
  | .signIn request => ((handleAuth request).run s).2 ≠ s →
      ∀ email, AddressedTo request s.now email →
        ∀ i ∈ s.control.openInvites email, i.row.role ≠ "owner" →
          ¬ s.control.OnlyOwner email i.row.tenantSlug
  | _ => True

/-! ## One request -/

omit [Platform] in
theorem owned_of_invite {c c' : Control} (h : Owned c) (husers : c'.user = c.user)
    (hmemberships : c'.membership = c.membership)
    (hdirectory : c'.tenantDirectory = c.tenantDirectory) : Owned c' := by
  have hrole : ∀ user slug, c'.roleOf user slug = c.roleOf user slug := by
    intro user slug
    simp only [Control.roleOf, hmemberships]
  constructor
  · rw [hdirectory]
    intro d hd
    obtain ⟨user, huser⟩ := h.owner d hd
    exact ⟨user, by rw [hrole, huser]⟩
  · intro user slug role hr
    rw [husers]
    rw [hrole] at hr
    exact h.user user slug role hr

omit [Platform] in
theorem owned_of_register {c c' : Control} {init : NewTenant} {now : DateTime} {r : UserRecord}
    (h : Owned c) (hr : r ∈ c.user.rows) (hcreator : init.createdBy = r.id)
    (hregister : c.registerTenant init now = .ok ((), c')) : Owned c' := by
  obtain ⟨husers, -, ⟨d, hslug, -, hdirectory⟩, hrole⟩ := Control.registerTenant_ok hregister
  constructor
  · intro x hx
    rcases (hdirectory x).mp hx with hx | rfl
    · obtain ⟨user, huser⟩ := h.owner x hx
      refine ⟨user, ?_⟩
      rw [hrole]
      split
      · rfl
      · exact huser
    · exact ⟨init.createdBy, by rw [hrole, if_pos ⟨rfl, hslug⟩]⟩
  · intro user slug role hu
    rw [hrole] at hu
    rw [husers]
    split at hu
    · next hkey => exact ⟨r, hr, hcreator.symm.trans hkey.1.symm⟩
    · exact h.user user slug role hu

/-- A sign-in that spares the only owners keeps an owner for every tenant. -/
theorem owned_of_signIn {s s' : System} {email : String} {r : UserRecord} {c : Control}
    {result : Except HttpError AuthResponse} (h : Owned s.control)
    (hsign : SignIn s email r c result s')
    (hspares : ∀ i ∈ s.control.openInvites email, i.row.role ≠ "owner" →
      ¬ s.control.OnlyOwner email i.row.tenantSlug) : Owned s'.control := by
  have haccepts := hsign.accepts
  have hput := hsign.put
  have hopen : c.openInvites email = s.control.openInvites email := by
    simp only [Control.openInvites, hput.invites]
  constructor
  · rw [haccepts.directory, hput.directory]
    intro d hd
    obtain ⟨user, huser⟩ := h.owner d hd
    by_cases hother : ∃ user, user ≠ r.id ∧ s.control.roleOf user d.row.slug = some "owner"
    · obtain ⟨user, hne, huser⟩ := hother
      exact ⟨user, by rw [haccepts.others user _ hne, hput.roleOf, huser]⟩
    · -- the user who signs in is the only owner, so the invites leave that role alone
      have honly : ∀ user, s.control.roleOf user d.row.slug = some "owner" → user = r.id := by
        intro user huser
        by_contra hne
        exact hother ⟨user, hne, huser⟩
      obtain rfl := honly user huser
      refine ⟨r.id, ?_⟩
      rcases haccepts.mine d.row.slug with hsame | ⟨i, hi, hslug, hinvited⟩
      · rw [hsame, hput.roleOf, huser]
      · rw [hinvited]
        by_contra hrole
        rw [hopen] at hi
        refine hspares i hi (fun heq => hrole (by rw [heq])) ?_
        obtain ⟨old, hold, hid⟩ := h.user r.id _ _ huser
        have hemail := (hput.email_of_id hold hid).trans hsign.address
        rw [hslug]
        exact ⟨old, Control.userByEmail_eq_some.mpr ⟨hold, hemail⟩, by rw [hid, huser],
          fun user huser => by rw [hid, honly user huser]⟩
  · intro user slug role hu
    rw [haccepts.users]
    by_cases hne : user = r.id
    · exact ⟨r, hput.mem, hne.symm⟩
    · rw [haccepts.others user slug hne, hput.roleOf] at hu
      obtain ⟨old, hold, hid⟩ := h.user user slug role hu
      obtain ⟨x, hx, hxid, -⟩ := hput.user_kept hold
      exact ⟨x, hx, hxid.trans hid⟩

/-- Every request that spares the only owners keeps an owner for every tenant. -/
theorem owned_step (a : AccountAction) (s : System) (h : Owned s.control)
    (hspares : SparesOnlyOwner a s) : Owned (Roster.step a s).control := by
  cases Roster.step_effect a s with
  | same hcontrol =>
      rw [hcontrol]
      exact h
  | registered hr hcreator hregister hcontrol =>
      rw [hcontrol]
      exact owned_of_register h hr hcreator hregister
  | invited hcreate hcontrol =>
      obtain ⟨-, -, -, -, -, -, husers, hmemberships, hdirectory, -⟩ :=
        Control.createInviteRow_ok hcreate
      rw [hcontrol]
      exact owned_of_invite h husers hmemberships hdirectory
  | reactivated hfind hrevoked hreactivate hcontrol =>
      rw [hcontrol]
      rcases Control.updateInvite_ok hreactivate with ⟨-, rfl⟩ | ⟨i, -, -, -, hset⟩
      · exact h
      · exact owned_of_invite h hset.users hset.memberships hset.directory
  | revoked howner hrevoke hcontrol =>
      rw [hcontrol]
      rcases Control.updateInvite_ok hrevoke with ⟨-, rfl⟩ | ⟨i, -, -, -, hset⟩
      · exact h
      · exact owned_of_invite h hset.users hset.memberships hset.directory
  | deleted hdelete hcontrol =>
      rw [hcontrol]
      cases hdelete
      exact owned_of_invite h rfl rfl rfl
  | @signedIn _ request email r c result haddress hsign =>
      by_cases hsame : ((handleAuth request).run s).2 = s
      · rw [Roster.step, hsame]
        exact h
      · exact owned_of_signIn h hsign (hspares hsame _ haddress)

/-! ## Runs -/

/-- Every registered tenant has a membership with the role of owner. -/
def EveryTenantOwned (s : System) : Prop :=
  ∀ d ∈ s.control.tenantDirectory.rows, ∃ m ∈ s.control.membership.rows,
    m.row.tenantSlug = d.row.slug ∧ m.row.role = "owner"

/-- In every run from a fresh deployment that spares the only owners, every tenant has one. -/
theorem owners_kept {actions : List AccountAction} {now : DateTime}
    (hrun : Trace.Each Roster.step SparesOnlyOwner actions (System.empty now)) :
    EveryTenantOwned (Trace.exec Roster.step actions (System.empty now)) := by
  have hempty : Owned (System.empty now).control := by
    refine ⟨fun d hd => ?_, fun user slug role h => ?_⟩
    · cases hd
    · obtain ⟨m, hm, -⟩ := Control.roleOf_eq_some.mp h
      cases hm
  have howned := hrun.invariant (I := fun s => Owned s.control) owned_step hempty
  intro d hd
  obtain ⟨user, huser⟩ := howned.owner d hd
  obtain ⟨m, hm, -, hslug, hrole⟩ := Control.roleOf_eq_some.mp huser
  exact ⟨m, hm, hslug, hrole⟩

end Runs

/-! ## Invites of one venture -/

section Sample

attribute [local instance] Platform.sample

/-- Ann invites Bob as a member, and he signs in. -/
theorem owners_kept_bob :
    EveryTenantOwned (Trace.exec Roster.step
      (annOpens "UTC" 10000 juneNoon ++ [annInvites "bob@pool.org" .member, signIn "bob@pool.org"])
      (System.empty juneNoon)) := by
  refine owners_kept ⟨?_, trivial, trivial, ?_, trivial⟩
  · rintro - email - i hi
    cases hi
  · rintro - email ⟨p, claims, hp, hclaims, rfl⟩ i - - ⟨r, hr, -⟩
    -- Bob has no user yet, so he is not the only owner
    obtain rfl := Except.ok.inj hp
    have hbob : claims.email = "bob@pool.org" := by
      rw [← Except.ok.inj hclaims]
      decide
    have hnone : (Trace.exec Roster.step (annOpens "UTC" 10000 juneNoon ++
        [annInvites "bob@pool.org" .member]) (System.empty juneNoon)).control.userByEmail
          "bob@pool.org" = none := by decide
    rw [hbob] at hr
    exact absurd (hnone.symm.trans hr) (by simp)

/-- Ann invites her own address as a member. At her next sign-in the venture loses its owner. -/
theorem owner_invited_away :
    ¬ EveryTenantOwned (Trace.exec Roster.step
      (annOpens "UTC" 10000 juneNoon ++ [annInvites "ann@pool.org" .member, signIn "ann@pool.org"])
      (System.empty juneNoon)) := by
  intro h
  have howner := h ⟨0, ⟨"pool", "Pool", 0, juneNoon⟩⟩ (by decide)
  revert howner
  decide

end Sample

end OwnerKept

end SharamLedger
