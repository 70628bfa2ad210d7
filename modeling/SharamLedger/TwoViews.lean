import SharamLedger.Registry
import SharamLedger.DisplayNames
import SharamLedger.Lib.Grouping

/-!
# Two views of the memberships

`list_user_ventures` and `list_tenant_members` each join the memberships with another table, from
opposite ends, and each has a fallback for a row that is missing. In a reachable state no row is
missing, so that both show every membership once.
-/

namespace SharamLedger

open Lib

namespace TwoViews

/-- The line of a membership on the dashboard, with the directory row of its tenant. -/
def venture (m : MembershipRecord) (d : TenantDirectoryRecord) : VentureSummary where
  slug := m.row.tenantSlug
  displayName := d.row.displayName
  role := m.row.role
  createdAt := m.row.createdAt

/-- The line of a membership in the member list, with the row of its user. -/
def member (m : MembershipRecord) (u : UserRecord) : TenantMember where
  email := u.row.email
  displayName := u.row.displayName
  role := m.row.role
  joinedAt := m.row.createdAt

/-- The list shows the memberships of the address, each once and newest first. -/
structure Dashboard (c : Control) (email : String) (view : List VentureSummary) : Prop where
  sound : ∀ v ∈ view, ∃ u ∈ c.user.rows, u.row.email = email ∧
    ∃ m ∈ c.membership.rows, m.row.user = u.id ∧
      ∃ d ∈ c.tenantDirectory.rows, d.row.slug = m.row.tenantSlug ∧ v = venture m d
  complete : ∀ u ∈ c.user.rows, u.row.email = email →
    ∀ m ∈ c.membership.rows, m.row.user = u.id →
      ∃ d ∈ c.tenantDirectory.rows, d.row.slug = m.row.tenantSlug ∧ venture m d ∈ view
  once : (view.map (·.slug)).Nodup
  newest : view.Pairwise fun a b => b.createdAt ≤ a.createdAt

/-- The list shows the memberships of the tenant, each once and oldest first, under an address. -/
structure Members (c : Control) (slug : String) (view : List TenantMember) : Prop where
  sound : ∀ t ∈ view, ∃ m ∈ c.membership.rows, m.row.tenantSlug = slug ∧
    ∃ u ∈ c.user.rows, u.id = m.row.user ∧ t = member m u
  complete : ∀ m ∈ c.membership.rows, m.row.tenantSlug = slug →
    ∃ u ∈ c.user.rows, u.id = m.row.user ∧ member m u ∈ view
  once : (view.map (·.email)).Nodup
  addressed : ∀ t ∈ view, t.email ≠ ""
  oldest : view.Pairwise fun a b => a.joinedAt ≤ b.joinedAt

/-- Both calls answer with such lists, and these agree on who has which role where. -/
structure Agree (s : System) : Prop where
  ventures : ∀ email, ∃ view, (listUserVentures email).run s = (.ok view, s) ∧
    Dashboard s.control email view
  members : ∀ slug, ∃ view, (listTenantMembers slug).run s = (.ok view, s) ∧
    Members s.control slug view
  same : ∀ email slug role ventures members,
    ((listUserVentures email).run s).1 = .ok ventures →
    ((listTenantMembers slug).run s).1 = .ok members →
      (ventures.countP (fun v => v.slug == slug && v.role == role) = 1 ↔
        members.countP (fun t => t.email == email && t.role == role) = 1)

/-! ## Each view -/

/-- The dashboard of an address. -/
theorem dashboard {c : Control} (hmembers : ∀ user slug role, c.roleOf user slug = some role →
      c.Registered slug) (email : String) : Dashboard c email (c.venturesOf email) := by
  rw [Control.venturesOf_eq]
  have hline : ∀ m ∈ c.membership.rows, ∃ d ∈ c.tenantDirectory.rows,
      d.row.slug = m.row.tenantSlug ∧ c.ventureOf m = venture m d := by
    intro m hm
    have hregistered := hmembers _ _ _ (Control.roleOf_eq_some.mpr ⟨m, hm, rfl, rfl, rfl⟩)
    obtain ⟨d, hd⟩ := Control.registered_iff.mp hregistered
    obtain ⟨hmem, hslug⟩ := Table.find_some hd
    refine ⟨d, hmem, beq_iff_eq.mp hslug, ?_⟩
    simp only [Control.ventureOf, hd, Option.map_some, Option.getD_some, venture]
  refine ⟨fun v hv => ?_, fun u hu hemail m hm huser => ?_, ?_, ?_⟩
  · rw [List.mem_insertionSort] at hv
    obtain ⟨m, hm, rfl⟩ := List.mem_map.mp hv
    obtain ⟨hm, u, hu, hemail, huser⟩ := Control.mem_membershipsFor.mp hm
    exact ⟨u, hu, hemail, m, hm, huser, hline m hm⟩
  · obtain ⟨d, hd, hslug, heq⟩ := hline m hm
    refine ⟨d, hd, hslug, ?_⟩
    rw [List.mem_insertionSort, ← heq]
    exact List.mem_map_of_mem (Control.mem_membershipsFor.mpr ⟨hm, u, hu, hemail, huser⟩)
  · rw [((List.perm_insertionSort _ _).map _).nodup_iff, List.map_map, List.Nodup,
      List.pairwise_map]
    refine List.Pairwise.imp_of_mem (fun ha hb hne hslug => ?_) (c.membership.distinct.filter _)
    -- one address has one user, who has one membership in a tenant
    obtain ⟨ha, u, hu, hemail, huser⟩ := Control.mem_membershipsFor.mp ha
    obtain ⟨hb, u', hu', hemail', huser'⟩ := Control.mem_membershipsFor.mp hb
    obtain rfl := Control.user_eq hu hu' (hemail.trans hemail'.symm)
    exact hne (by rw [Control.membership_eq ha hb (huser.trans huser'.symm) hslug])
  · have : Std.Total fun a b : VentureSummary => b.createdAt ≤ a.createdAt :=
      ⟨fun a b => le_total b.createdAt a.createdAt⟩
    have : IsTrans VentureSummary fun a b => b.createdAt ≤ a.createdAt :=
      ⟨fun _ _ _ hab hbc => le_trans hbc hab⟩
    exact List.pairwise_insertionSort _ _

section Runs

variable [Platform]

/-- The member list of a tenant. -/
theorem members {c : Control} (hjoined : c.Joined) (haddresses : c.ValidAddresses)
    (hempty : Platform.isEmail "" = false) (slug : String) :
    Members c slug (c.membersOf slug) := by
  obtain ⟨line, hview, hline⟩ : ∃ line : MembershipRecord → TenantMember,
      c.membersOf slug = ((c.membership.select fun r => r.row.tenantSlug == slug).insertionSort
        fun a b => a.row.createdAt ≤ b.row.createdAt).map line ∧
      ∀ m ∈ c.membership.rows, m.row.tenantSlug = slug →
        ∃ u ∈ c.user.rows, u.id = m.row.user ∧ line m = member m u := by
    refine ⟨_, rfl, fun m hm hslug => ?_⟩
    obtain ⟨u, hu, hid, hfind⟩ :=
      Control.find_user_of_member hjoined hm (Control.mem_sorted.mpr ⟨hm, hslug⟩)
    refine ⟨u, hu, hid, ?_⟩
    simp only [hfind, Option.map_some, Option.getD_some, Option.bind_some, member]
  have hsound : ∀ t ∈ c.membersOf slug, ∃ m ∈ c.membership.rows, m.row.tenantSlug = slug ∧
      ∃ u ∈ c.user.rows, u.id = m.row.user ∧ t = member m u := by
    intro t ht
    rw [hview] at ht
    obtain ⟨m, hm, rfl⟩ := List.mem_map.mp ht
    obtain ⟨hm, hslug⟩ := Control.mem_sorted.mp hm
    exact ⟨m, hm, hslug, hline m hm hslug⟩
  refine ⟨hsound, fun m hm hslug => ?_, Control.nodup_membersOf hjoined slug, fun t ht hblank => ?_,
    ?_⟩
  · obtain ⟨u, hu, hid, heq⟩ := hline m hm hslug
    refine ⟨u, hu, hid, ?_⟩
    rw [hview, ← heq]
    exact List.mem_map_of_mem (Control.mem_sorted.mpr ⟨hm, hslug⟩)
  · obtain ⟨m, -, -, u, hu, -, rfl⟩ := hsound t ht
    have hvalid : Platform.isEmail u.row.email = true := haddresses u hu
    rw [show u.row.email = "" from hblank, hempty] at hvalid
    cases hvalid
  · have : Std.Total fun a b : MembershipRecord => a.row.createdAt ≤ b.row.createdAt :=
      ⟨fun a b => le_total a.row.createdAt b.row.createdAt⟩
    have : IsTrans MembershipRecord fun a b => a.row.createdAt ≤ b.row.createdAt :=
      ⟨fun _ _ _ hab hbc => le_trans hab hbc⟩
    exact List.pairwise_map.mpr (List.pairwise_insertionSort _ _)

/-- Where members have users and tenants, both views are complete and agree. -/
theorem agree {s : System} (hjoined : s.control.Joined) (hrefers : s.control.Refers)
    (hempty : Platform.isEmail "" = false) : Agree s := by
  have hdashboard := dashboard hrefers.members
  have hmembers := members hjoined hrefers.addresses hempty
  refine ⟨fun email => ⟨_, run_listUserVentures email s, hdashboard email⟩,
    fun slug => ⟨_, run_listTenantMembers slug s, hmembers slug⟩, ?_⟩
  intro email slug role ventures members hventures hlist
  rw [run_listUserVentures] at hventures
  rw [run_listTenantMembers] at hlist
  obtain rfl := Except.ok.inj hventures
  obtain rfl := Except.ok.inj hlist
  have hslugs : ∀ v ∈ s.control.venturesOf email,
      (v.slug == slug && v.role == role) = true → v.slug = slug :=
    fun v _ hv => beq_iff_eq.mp (Bool.and_eq_true_iff.mp hv).1
  have hemails : ∀ t ∈ s.control.membersOf slug,
      (t.email == email && t.role == role) = true → t.email = email :=
    fun t _ ht => beq_iff_eq.mp (Bool.and_eq_true_iff.mp ht).1
  rw [countP_eq_one_iff (hdashboard email).once hslugs,
    countP_eq_one_iff (hmembers slug).once hemails]
  simp only [Bool.and_eq_true, beq_iff_eq]
  constructor
  · rintro ⟨v, hv, rfl, rfl⟩
    obtain ⟨u, hu, hemail, m, hm, huser, d, -, -, rfl⟩ := (hdashboard email).sound v hv
    obtain ⟨u', hu', hid, hmem⟩ := (hmembers m.row.tenantSlug).complete m hm rfl
    obtain rfl := Table.eq_of_id_eq hu' hu (hid.trans huser)
    exact ⟨_, hmem, hemail, rfl⟩
  · rintro ⟨t, ht, rfl, rfl⟩
    obtain ⟨m, hm, hslug, u, hu, hid, rfl⟩ := (hmembers slug).sound t ht
    obtain ⟨d, -, -, hmem⟩ := (hdashboard u.row.email).complete u hu rfl m hm hid.symm
    exact ⟨_, hmem, hslug, rfl⟩

/-- In every reachable state. -/
theorem agree_exec (hempty : Platform.isEmail "" = false) (actions : List GatewayAction)
    (now : DateTime) : Agree (Trace.exec Deployment.step actions (System.empty now)) :=
  agree (Deployment.accountable_exec actions now).joined (Deployment.refers_exec actions now) hempty

end Runs

/-! ## Ann's venture -/

section Sample

attribute [local instance] Platform.sample

/-- Ann has opened a venture. -/
theorem agree_ann : Agree (Trace.exec Deployment.step (ZoneNames.annFounds "UTC")
    (System.empty juneNoon)) :=
  agree_exec (by decide) (ZoneNames.annFounds "UTC") juneNoon

/-- Both views show her as the owner. -/
example : let s := Trace.exec Deployment.step (ZoneNames.annFounds "UTC") (System.empty juneNoon)
    s.control.venturesOf "ann@pool.org" = [⟨"pool", "Pool", "owner", juneNoon⟩] ∧
      s.control.membersOf "pool" = [⟨"ann@pool.org", none, "owner", juneNoon⟩] := by
  decide +kernel

end Sample

end TwoViews

end SharamLedger
