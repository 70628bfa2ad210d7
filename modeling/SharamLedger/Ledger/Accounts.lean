import SharamLedger.Ledger.Control

/-!
# What the calls on accounts do

Users, memberships and invites after an accepted statement. A membership table is read as a
function: at most one row gives a user a role in a tenant (`Control.roleOf`), and each statement
changes that function at one point.
-/

namespace SharamLedger

open Lib

namespace Control

/-- The role a user has in a tenant. -/
def roleOf (c : Control) (user : Nat) (slug : String) : Option String :=
  (c.membership.find fun r => r.row.user == user && r.row.tenantSlug == slug).map
    fun r => r.row.role

/-- A user has one membership in a tenant. -/
theorem findMembership_eq_some {c : Control} {user : Nat} {slug : String} {m : MembershipRecord} :
    (c.membership.find fun r => r.row.user == user && r.row.tenantSlug == slug) = some m ↔
      m ∈ c.membership.rows ∧ m.row.user = user ∧ m.row.tenantSlug = slug := by
  constructor
  · intro h
    obtain ⟨hm, hsel⟩ := Table.find_some h
    simp only [Bool.and_eq_true, beq_iff_eq] at hsel
    exact ⟨hm, hsel⟩
  · rintro ⟨hm, rfl, rfl⟩
    refine Table.find_eq_some hm (by simp) fun m' hm' hsel => ?_
    simp only [Bool.and_eq_true, beq_iff_eq] at hsel
    exact membership_eq hm' hm hsel.1 hsel.2

theorem roleOf_eq_some {c : Control} {user : Nat} {slug role : String} :
    c.roleOf user slug = some role ↔
      ∃ m ∈ c.membership.rows, m.row.user = user ∧ m.row.tenantSlug = slug ∧ m.row.role = role := by
  constructor
  · intro h
    obtain ⟨m, hm, hrole⟩ := Option.map_eq_some_iff.mp h
    obtain ⟨hmem, huser, hslug⟩ := findMembership_eq_some.mp hm
    exact ⟨m, hmem, huser, hslug, hrole⟩
  · rintro ⟨m, hm, huser, hslug, rfl⟩
    rw [roleOf, findMembership_eq_some.mpr ⟨hm, huser, hslug⟩]
    rfl

/-- Membership tables that differ at one key give the same roles elsewhere. -/
theorem roleOf_of_rows {c c' : Control} {r : MembershipRecord}
    (hrows : ∀ x, x ∈ c'.membership.rows ↔ x = r ∨ (x ∈ c.membership.rows ∧
      ¬ (x.row.user = r.row.user ∧ x.row.tenantSlug = r.row.tenantSlug))) (user : Nat)
    (slug : String) : c'.roleOf user slug =
      if user = r.row.user ∧ slug = r.row.tenantSlug then some r.row.role
      else c.roleOf user slug := by
  refine Option.ext fun role => ?_
  split
  · next h =>
      obtain ⟨rfl, rfl⟩ := h
      rw [roleOf_eq_some]
      constructor
      · rintro ⟨m, hm, huser, hslug, rfl⟩
        rcases (hrows m).mp hm with rfl | ⟨-, hne⟩
        · rfl
        · exact absurd ⟨huser, hslug⟩ hne
      · intro h
        exact ⟨r, (hrows r).mpr (.inl rfl), rfl, rfl, Option.some.inj h⟩
  · next h =>
      rw [roleOf_eq_some, roleOf_eq_some]
      constructor
      · rintro ⟨m, hm, rfl, rfl, hrole⟩
        rcases (hrows m).mp hm with rfl | ⟨hm, -⟩
        · exact absurd ⟨rfl, rfl⟩ h
        · exact ⟨m, hm, rfl, rfl, hrole⟩
      · rintro ⟨m, hm, rfl, rfl, hrole⟩
        exact ⟨m, (hrows m).mpr (.inr ⟨hm, h⟩), rfl, rfl, hrole⟩

/-- The memberships that `list_memberships_for` selects are those of the address's user. -/
theorem mem_membershipsFor {c : Control} {email : String} {m : MembershipRecord} :
    m ∈ c.membershipsFor email ↔ m ∈ c.membership.rows ∧
      ∃ u ∈ c.user.rows, u.row.email = email ∧ m.row.user = u.id := by
  simp only [membershipsFor, Table.mem_select, List.contains_iff_mem, List.mem_map, beq_iff_eq]
  refine and_congr_right fun _ => exists_congr fun u => ?_
  rw [and_assoc, eq_comm (a := u.id)]

/-- The user of the address has a membership in the tenant. -/
def HasMembership (c : Control) (email slug : String) : Prop :=
  ∃ u ∈ c.user.rows, u.row.email = email ∧
    ∃ m ∈ c.membership.rows, m.row.user = u.id ∧ m.row.tenantSlug = slug

theorem hasMembership_iff {c : Control} {email slug : String} :
    c.HasMembership email slug ↔
      ∃ u ∈ c.user.rows, u.row.email = email ∧ ∃ role, c.roleOf u.id slug = some role := by
  refine exists_congr fun u => and_congr_right fun _ => and_congr_right fun _ => ?_
  constructor
  · rintro ⟨m, hm, huser, hslug⟩
    exact ⟨m.row.role, roleOf_eq_some.mpr ⟨m, hm, huser, hslug, rfl⟩⟩
  · rintro ⟨role, hrole⟩
    obtain ⟨m, hm, huser, hslug, -⟩ := roleOf_eq_some.mp hrole
    exact ⟨m, hm, huser, hslug⟩

/-- A membership stays when the users keep their address and nobody loses a role. -/
theorem hasMembership_mono {c c' : Control} {email slug : String}
    (h : c.HasMembership email slug)
    (husers : ∀ u ∈ c.user.rows, ∃ u' ∈ c'.user.rows, u'.id = u.id ∧ u'.row.email = u.row.email)
    (hroles : ∀ user role, c.roleOf user slug = some role →
      ∃ role, c'.roleOf user slug = some role) : c'.HasMembership email slug := by
  obtain ⟨u, hu, rfl, role, hrole⟩ := hasMembership_iff.mp h
  obtain ⟨u', hu', hid, hemail⟩ := husers u hu
  exact hasMembership_iff.mpr ⟨u', hu', hemail, by rw [hid]; exact hroles u.id role hrole⟩

instance (c : Control) (email slug : String) : Decidable (c.HasMembership email slug) :=
  inferInstanceAs (Decidable (∃ u ∈ c.user.rows, _ ∧ ∃ m ∈ c.membership.rows, _))

/-! ## Memberships -/

/-- A membership was put in place of the one of its user in its tenant, or added. -/
structure MembershipPut (c c' : Control) (m : MembershipRecord) : Prop where
  users : c'.user = c.user
  invites : c'.invite = c.invite
  directory : c'.tenantDirectory = c.tenantDirectory
  rows : ∀ x, x ∈ c'.membership.rows ↔ x = m ∨ (x ∈ c.membership.rows ∧
    ¬ (x.row.user = m.row.user ∧ x.row.tenantSlug = m.row.tenantSlug))

/-- An accepted `UPSERT` puts the membership that it returns. -/
theorem upsertMembership_put {c c' : Control} {user : Nat} {slug role : String} {now : DateTime}
    {r : MembershipRecord} (h : c.upsertMembership user slug role now = .ok (r, c')) :
    r.row.user = user ∧ r.row.tenantSlug = slug ∧ r.row.role = role ∧ r.row.check = .ok () ∧
      MembershipPut c c' r := by
  unfold upsertMembership at h
  cases hu : upsertRow (fun r => r.row.user == user && r.row.tenantSlug == slug)
      (fun m => { m with user := user, tenantSlug := slug, role := role })
      { user := user, tenantSlug := slug, role := role, createdAt := now } c.membership with
  | error e => simp [hu, bind, Except.bind] at h
  | ok answer =>
      obtain ⟨r', t⟩ := answer
      simp only [hu, bind, Except.bind, pure, Except.pure, Except.ok.injEq, Prod.mk.injEq] at h
      obtain ⟨rfl, rfl⟩ := h
      have hcheck : r'.row.check = .ok () := upsertRow_check hu
      rcases upsertRow_ok hu with ⟨old, hold, hsel, rfl, hreplace⟩ | ⟨hnone, hcreate⟩
      · simp only [Bool.and_eq_true, beq_iff_eq] at hsel
        refine ⟨rfl, rfl, rfl, hcheck, rfl, rfl, rfl, fun x => ?_⟩
        rw [Table.mem_replace hreplace hold]
        refine or_congr_right (and_congr_right fun hx => not_congr ⟨?_, fun hkey => ?_⟩)
        · rintro rfl
          exact hsel
        · exact membership_eq hx hold (hkey.1.trans hsel.1.symm) (hkey.2.trans hsel.2.symm)
      · obtain ⟨rfl, -, -⟩ := Table.create_some hcreate
        refine ⟨rfl, rfl, rfl, hcheck, rfl, rfl, rfl, fun x => ?_⟩
        rw [Table.mem_create hcreate, or_comm]
        refine or_congr_right ⟨fun hx => ⟨hx, fun hkey => ?_⟩, And.left⟩
        have hsel := hnone x hx
        simp [hkey.1, hkey.2] at hsel

/-- The role of a user in one tenant was set, and nothing else changed. -/
structure RoleSet (c c' : Control) (user : Nat) (slug role : String) : Prop where
  users : c'.user = c.user
  invites : c'.invite = c.invite
  directory : c'.tenantDirectory = c.tenantDirectory
  role : ∀ user' slug', c'.roleOf user' slug' =
    if user' = user ∧ slug' = slug then some role else c.roleOf user' slug'

theorem upsertMembership_ok {c c' : Control} {user : Nat} {slug role : String} {now : DateTime}
    {r : MembershipRecord} (h : c.upsertMembership user slug role now = .ok (r, c')) :
    RoleSet c c' user slug role := by
  obtain ⟨rfl, rfl, rfl, -, hput⟩ := upsertMembership_put h
  exact ⟨hput.users, hput.invites, hput.directory, roleOf_of_rows hput.rows⟩

/-- A membership that passes its assertions can always be set. -/
theorem upsertMembership_of_check {c : Control} {user : Nat} {slug role : String} {now : DateTime}
    (hslug : matchesSlug slug = true) (hrole : isRole role = true) :
    ∃ r c', c.upsertMembership user slug role now = .ok (r, c') := by
  have hcheck : ∀ m : Membership, Checked.check { m with
      user := user, tenantSlug := slug, role := role } = .ok () := by
    intro m
    simp [Checked.check, Membership.check, hslug, hrole]
  unfold upsertMembership upsertRow
  cases hfind : c.membership.find fun r => r.row.user == user && r.row.tenantSlug == slug with
  | none =>
      obtain ⟨t, ht⟩ : ∃ t, c.membership.create ⟨user, slug, role, now⟩ =
          some (⟨c.membership.nextId, ⟨user, slug, role, now⟩⟩, t) :=
        Table.create_of_free (Table.find_none hfind)
      have hnew := createRow_of (hcheck ⟨user, slug, role, now⟩) ht
      simp only [hnew, bind, Except.bind, pure, Except.pure]
      exact ⟨_, _, rfl⟩
  | some old =>
      obtain ⟨hold, hsameUser, hsameSlug⟩ := findMembership_eq_some.mp hfind
      obtain ⟨t, ht⟩ : ∃ t, c.membership.replace old
          { old.row with user := user, tenantSlug := slug, role := role } = some t :=
        Table.replace_of_collides hold fun a => by simp [Indexed.collides, hsameUser, hsameSlug]
      simp only [setRow_of (hcheck old.row) ht, bind, Except.bind, pure, Except.pure]
      exact ⟨_, _, rfl⟩

/-- A membership that is as it should be is set without any change. -/
theorem upsertMembership_same {c : Control} {user : Nat} {slug role : String} (now : DateTime)
    (hslug : matchesSlug slug = true) (hisRole : isRole role = true)
    (hrole : c.roleOf user slug = some role) :
    ∃ m, c.upsertMembership user slug role now = .ok (m, c) := by
  obtain ⟨m, hm, rfl, rfl, rfl⟩ := roleOf_eq_some.mp hrole
  have hfind := findMembership_eq_some.mpr ⟨hm, rfl, rfl⟩
  have hcheck : Checked.check m.row = .ok () := by
    simp [Checked.check, Membership.check, hslug, hisRole]
  refine ⟨m, ?_⟩
  simp only [upsertMembership, upsertRow, hfind, setRow_of hcheck (Table.replace_self hm), bind,
    Except.bind, pure, Except.pure]

/-! ## Invites -/

theorem mem_openInvites {c : Control} {email : String} {i : InviteRecord} :
    i ∈ c.openInvites email ↔
      i ∈ c.invite.rows ∧ i.row.email = email ∧ i.row.revokedAt = none := by
  simp [Control.openInvites]

/-- An address has one invite in a tenant. -/
theorem openInvites_distinct (c : Control) (email : String) :
    (c.openInvites email).Pairwise fun a b => a.row.tenantSlug ≠ b.row.tenantSlug := by
  refine List.Pairwise.imp_of_mem ?_ (c.invite.distinct.filter _)
  intro a b ha hb hne hslug
  obtain ⟨ha, haemail, -⟩ := mem_openInvites.mp ha
  obtain ⟨hb, hbemail, -⟩ := mem_openInvites.mp hb
  exact hne (by rw [invite_eq ha hb hslug (haemail.trans hbemail.symm)])

theorem openInvites_nodup (c : Control) (email : String) : (c.openInvites email).Nodup :=
  (c.openInvites_distinct email).imp fun hne heq => hne (by rw [heq])

/-- One invite was rewritten, and nothing else changed. -/
structure InviteSet (c c' : Control) (i : InviteRecord) (row : Invite) : Prop where
  mem : i ∈ c.invite.rows
  users : c'.user = c.user
  memberships : c'.membership = c.membership
  directory : c'.tenantDirectory = c.tenantDirectory
  rows : ∀ x, x ∈ c'.invite.rows ↔ x = ⟨i.id, row⟩ ∨ (x ∈ c.invite.rows ∧ x ≠ i)

section Statements

variable [Platform] {c c' : Control} {now : DateTime}

/-- An `UPDATE ONLY` on invites rewrites one selected invite, or selects none. -/
theorem updateInvite_ok {sel : InviteRecord → Bool} {set : Invite → Invite}
    {answer : Option InviteRecord} (h : c.updateInvite sel set = .ok (answer, c')) :
    (answer = none ∧ c' = c) ∨ ∃ i, sel i = true ∧ (set i.row).check = .ok () ∧
      answer = some ⟨i.id, set i.row⟩ ∧ InviteSet c c' i (set i.row) := by
  unfold updateInvite at h
  cases hu : updateRow sel set c.invite with
  | error e => simp [hu, bind, Except.bind] at h
  | ok result =>
      obtain ⟨r, t⟩ := result
      simp only [hu, bind, Except.bind, pure, Except.pure, Except.ok.injEq, Prod.mk.injEq] at h
      obtain ⟨rfl, rfl⟩ := h
      rcases updateRow_ok hu with ⟨rfl, rfl, -⟩ | ⟨i, hi, hsel, hcheck, rfl, hreplace⟩
      · exact .inl ⟨rfl, rfl⟩
      · exact .inr ⟨i, hsel, hcheck, rfl, hi, rfl, rfl, rfl, Table.mem_replace hreplace hi⟩

theorem updateInvite_directory {sel : InviteRecord → Bool} {set : Invite → Invite}
    {answer : Option InviteRecord} (h : c.updateInvite sel set = .ok (answer, c')) :
    c'.tenantDirectory = c.tenantDirectory := by
  rcases updateInvite_ok h with ⟨-, rfl⟩ | ⟨i, -, -, -, hset⟩
  · rfl
  · exact hset.directory

/-- An invite that stays well formed and keeps its index value can always be rewritten. -/
theorem updateInvite_of_mem {sel : InviteRecord → Bool} {set : Invite → Invite}
    {i : InviteRecord} (hi : i ∈ c.invite.rows) (hsel : sel i = true)
    (huniq : ∀ x ∈ c.invite.rows, sel x = true → x = i) (hcheck : (set i.row).check = .ok ())
    (hslug : (set i.row).tenantSlug = i.row.tenantSlug) (hemail : (set i.row).email = i.row.email) :
    ∃ c', c.updateInvite sel set = .ok (some ⟨i.id, set i.row⟩, c') := by
  obtain ⟨t, ht⟩ : ∃ t, c.invite.replace i (set i.row) = some t :=
    Table.replace_of_collides hi fun a => by simp [Indexed.collides, hslug, hemail]
  have hfind := Table.find_eq_some hi hsel huniq
  refine ⟨{ c with invite := t }, ?_⟩
  simp only [updateInvite, updateRow, hfind, setRow_of hcheck ht, Except.map, bind, Except.bind,
    pure, Except.pure]

/-- The acceptance mark goes on the invite it is meant for. -/
theorem markAccepted_ok {i : InviteRecord} {answer : Option InviteRecord}
    (hi : i ∈ c.invite.rows) (h : c.markAccepted i.id now = .ok (answer, c')) :
    InviteSet c c' i { i.row with acceptedAt := some now } := by
  have hfind : c.invite.find (fun r => r.id == i.id) = some i :=
    Table.find_eq_some hi (by simp) fun x hx hid => Table.eq_of_id_eq hx hi (beq_iff_eq.mp hid)
  rcases updateInvite_ok h with ⟨rfl, -⟩ | ⟨x, hid, -, -, hset⟩
  · -- an answer without a row means that no invite has the key
    cases hset : setRow i { i.row with acceptedAt := some now } c.invite with
    | error e =>
        simp [markAccepted, updateInvite, updateRow, hfind, hset, Except.map, bind,
          Except.bind] at h
    | ok result =>
        simp [markAccepted, updateInvite, updateRow, hfind, hset, Except.map, bind,
          Except.bind, pure, Except.pure] at h
  · obtain rfl := Table.eq_of_id_eq hset.mem hi (beq_iff_eq.mp hid)
    exact hset

/-- An invite that passes its assertions can always be marked. -/
theorem markAccepted_of_mem {i : InviteRecord} (hi : i ∈ c.invite.rows)
    (hcheck : i.row.check = .ok ()) : ∃ c', c.markAccepted i.id now =
      .ok (some ⟨i.id, { i.row with acceptedAt := some now }⟩, c') := by
  have hone : ∀ r ∈ c.invite.rows, (r.id == i.id) = true → r = i :=
    fun r hr hid => Table.eq_of_id_eq hr hi (beq_iff_eq.mp hid)
  -- no assertion is about the mark
  exact updateInvite_of_mem hi (by simp) hone hcheck rfl rfl

theorem createInviteRow_ok {input : NewInvite} {r : InviteRecord}
    (h : c.createInviteRow input now = .ok (r, c')) :
    r.row.check = .ok () ∧ r.row.tenantSlug = input.tenantSlug ∧ r.row.email = input.email ∧
      r.row.role = input.role ∧ r.row.acceptedAt = none ∧ r.row.revokedAt = none ∧
      c'.user = c.user ∧ c'.membership = c.membership ∧ c'.tenantDirectory = c.tenantDirectory ∧
      ∀ x, x ∈ c'.invite.rows ↔ x ∈ c.invite.rows ∨ x = r := by
  unfold createInviteRow at h
  cases hc : createRow
      { tenantSlug := input.tenantSlug
        email := input.email
        role := input.role
        invitedBy := input.invitedBy
        createdAt := now
        acceptedAt := none
        revokedAt := none : Invite } c.invite with
  | error e => simp [hc, bind, Except.bind] at h
  | ok result =>
      obtain ⟨r', t⟩ := result
      simp only [hc, bind, Except.bind, pure, Except.pure, Except.ok.injEq, Prod.mk.injEq] at h
      obtain ⟨rfl, rfl⟩ := h
      obtain ⟨hcheck, hcreate⟩ := createRow_ok hc
      obtain ⟨rfl, -, -⟩ := Table.create_some hcreate
      exact ⟨hcheck, rfl, rfl, rfl, rfl, rfl, rfl, rfl, rfl, Table.mem_create hcreate⟩

/-! ## Tenants -/

omit [Platform] in
/-- The registration of a tenant adds its directory row and makes its creator an owner. -/
theorem registerTenant_ok {init : NewTenant} {u : Unit}
    (h : c.registerTenant init now = .ok (u, c')) :
    c'.user = c.user ∧ c'.invite = c.invite ∧
      (∃ d : TenantDirectoryRecord, d.row.slug = init.slug.val ∧ d.row.createdBy = init.createdBy ∧
        ∀ x, x ∈ c'.tenantDirectory.rows ↔ x ∈ c.tenantDirectory.rows ∨ x = d) ∧
      ∀ user slug, c'.roleOf user slug =
        if user = init.createdBy ∧ slug = init.slug.val then some "owner"
        else c.roleOf user slug := by
  unfold registerTenant at h
  cases hd : createRow
      { slug := init.slug.val
        displayName := init.displayName
        createdBy := init.createdBy
        createdAt := now : TenantDirectory } c.tenantDirectory with
  | error e => simp [hd, bind, Except.bind] at h
  | ok directory =>
      obtain ⟨d, directory⟩ := directory
      cases hm : createRow
          { user := init.createdBy
            tenantSlug := init.slug.val
            role := "owner"
            createdAt := now : Membership } c.membership with
      | error e => simp [hd, hm, bind, Except.bind] at h
      | ok membership =>
          obtain ⟨m, membership⟩ := membership
          simp only [hd, hm, bind, Except.bind, pure, Except.pure, Except.ok.injEq,
            Prod.mk.injEq] at h
          obtain ⟨-, rfl⟩ := h
          obtain ⟨-, hdcreate⟩ := createRow_ok hd
          obtain ⟨-, hmcreate⟩ := createRow_ok hm
          obtain ⟨rfl, -, -⟩ := Table.create_some hdcreate
          obtain ⟨rfl, -, hfree⟩ := Table.create_some hmcreate
          refine ⟨rfl, rfl, ⟨_, rfl, rfl, Table.mem_create hdcreate⟩, ?_⟩
          refine roleOf_of_rows (r := ⟨c.membership.nextId,
            { user := init.createdBy
              tenantSlug := init.slug.val
              role := "owner"
              createdAt := now }⟩) fun x => ?_
          rw [Table.mem_create hmcreate, or_comm]
          refine or_congr_right ⟨fun hx => ⟨hx, fun hkey => ?_⟩, And.left⟩
          have hfree := hfree x hx
          simp [Indexed.collides, hkey.1, hkey.2] at hfree

/-! ## Users -/

/-- A user's row was put in place of the one with its address, or added. -/
structure UserPut (c c' : Control) (r : UserRecord) : Prop where
  invites : c'.invite = c.invite
  memberships : c'.membership = c.membership
  directory : c'.tenantDirectory = c.tenantDirectory
  rows : ∀ x, x ∈ c'.user.rows ↔ x = r ∨ (x ∈ c.user.rows ∧ x.row.email ≠ r.row.email)
  kept : ∀ old ∈ c.user.rows, old.row.email = r.row.email → old.id = r.id

omit [Platform] in
theorem UserPut.mem {r : UserRecord} {c' : Control} (h : UserPut c c' r) : r ∈ c'.user.rows :=
  (h.rows r).mpr (.inl rfl)

omit [Platform] in
theorem UserPut.refl {r : UserRecord} (hr : r ∈ c.user.rows) : UserPut c c r where
  invites := rfl
  memberships := rfl
  directory := rfl
  rows x := by
    constructor
    · intro hx
      by_cases hemail : x.row.email = r.row.email
      · exact .inl (user_eq hx hr hemail)
      · exact .inr ⟨hx, hemail⟩
    · rintro (rfl | ⟨hx, -⟩)
      · exact hr
      · exact hx
  kept old hold hemail := by rw [user_eq hold hr hemail]

omit [Platform] in
theorem UserPut.of_replace {old : UserRecord} {row : User} {t : Table User}
    (hold : old ∈ c.user.rows) (hemail : row.email = old.row.email)
    (h : c.user.replace old row = some t) : UserPut c { c with user := t } ⟨old.id, row⟩ where
  invites := rfl
  memberships := rfl
  directory := rfl
  rows x := by
    rw [Table.mem_replace h hold]
    refine or_congr_right (and_congr_right fun hx => not_congr ⟨?_, fun heq => ?_⟩)
    · rintro rfl
      exact hemail.symm
    · exact user_eq hx hold (heq.trans hemail)
  kept x hx heq := by rw [user_eq hx hold (heq.trans hemail)]

omit [Platform] in
theorem UserPut.of_create {r : UserRecord} {row : User} {t : Table User}
    (h : c.user.create row = some (r, t)) : UserPut c { c with user := t } r := by
  obtain ⟨rfl, -, hfree⟩ := Table.create_some h
  have hne : ∀ old ∈ c.user.rows, old.row.email ≠ row.email := fun old hold => by
    simpa [Indexed.collides] using hfree old hold
  exact
    { invites := rfl
      memberships := rfl
      directory := rfl
      rows := fun x => by
        rw [Table.mem_create h, or_comm]
        exact or_congr_right ⟨fun hx => ⟨hx, hne x hx⟩, And.left⟩
      kept := fun old hold heq => absurd heq (hne old hold) }

omit [Platform] in
/-- Every user keeps their key and address. -/
theorem UserPut.user_kept {r old : UserRecord} (h : UserPut c c' r) (hold : old ∈ c.user.rows) :
    ∃ x ∈ c'.user.rows, x.id = old.id ∧ x.row.email = old.row.email := by
  by_cases hemail : old.row.email = r.row.email
  · exact ⟨r, (h.rows r).mpr (.inl rfl), (h.kept old hold hemail).symm, hemail.symm⟩
  · exact ⟨old, (h.rows old).mpr (.inr ⟨hold, hemail⟩), rfl, rfl⟩

omit [Platform] in
/-- The key of the row is its address's alone. -/
theorem UserPut.email_of_id {r old : UserRecord} (h : UserPut c c' r) (hold : old ∈ c.user.rows)
    (hid : old.id = r.id) : old.row.email = r.row.email := by
  by_contra hne
  have holdmem := (h.rows old).mpr (.inr ⟨hold, hne⟩)
  have hrmem := (h.rows r).mpr (.inl rfl)
  exact hne (by rw [Table.eq_of_id_eq holdmem hrmem hid])

omit [Platform] in
theorem UserPut.roleOf {r : UserRecord} (h : UserPut c c' r) (user : Nat) (slug : String) :
    c'.roleOf user slug = c.roleOf user slug := by
  simp only [Control.roleOf, h.memberships]

omit [Platform] in
theorem userByEmail_eq_some {email : String} {r : UserRecord} :
    c.userByEmail email = some r ↔ r ∈ c.user.rows ∧ r.row.email = email := by
  constructor
  · intro h
    obtain ⟨hr, hsel⟩ := Table.find_some h
    exact ⟨hr, beq_iff_eq.mp hsel⟩
  · rintro ⟨hr, rfl⟩
    exact Table.find_eq_some hr (by simp) fun x hx hsel => user_eq hx hr (beq_iff_eq.mp hsel)

omit [Platform] in
theorem inviteFor_eq_some {slug email : String} {i : InviteRecord} :
    c.inviteFor slug email = some i ↔
      i ∈ c.invite.rows ∧ i.row.tenantSlug = slug ∧ i.row.email = email := by
  constructor
  · intro h
    obtain ⟨hi, hsel⟩ := Table.find_some h
    simp only [Bool.and_eq_true, beq_iff_eq] at hsel
    exact ⟨hi, hsel⟩
  · rintro ⟨hi, rfl, rfl⟩
    refine Table.find_eq_some hi (by simp) fun x hx hsel => ?_
    simp only [Bool.and_eq_true, beq_iff_eq] at hsel
    exact invite_eq hx hi hsel.1 hsel.2

omit [Platform] in
theorem UserPut.userByEmail {r : UserRecord} (h : UserPut c c' r) (email : String) :
    c'.userByEmail email = if email = r.row.email then some r else c.userByEmail email := by
  refine Option.ext fun x => ?_
  rw [userByEmail_eq_some, h.rows]
  split
  · next hemail =>
      rw [Option.some.injEq]
      constructor
      · rintro ⟨rfl | ⟨-, hne⟩, hx⟩
        · rfl
        · exact absurd (hx.trans hemail) hne
      · rintro rfl
        exact ⟨.inl rfl, hemail.symm⟩
  · next hemail =>
      rw [userByEmail_eq_some]
      constructor
      · rintro ⟨rfl | ⟨hx, -⟩, rfl⟩
        · exact absurd rfl hemail
        · exact ⟨hx, rfl⟩
      · rintro ⟨hx, rfl⟩
        exact ⟨.inr ⟨hx, hemail⟩, rfl⟩

/-- Signing in with Google keeps the user's key and password, and sets the other two fields. -/
theorem upsertUserRow_ok {input : UpsertUser} {r : UserRecord}
    (h : c.upsertUserRow input now = .ok (r, c')) :
    UserPut c c' r ∧ r.row.email = input.email ∧
      (r.row.passwordHash = (c.userByEmail input.email).bind fun old => old.row.passwordHash) ∧
      r.row.googleSub = some input.googleSub ∧ r.row.displayName = input.displayName ∧
      Platform.isEmail input.email = true := by
  unfold upsertUserRow at h
  cases hu : upsertRow (fun r => r.row.email == input.email)
      (fun u : User => { u with
        email := input.email
        googleSub := some input.googleSub
        displayName := input.displayName })
      { email := input.email
        googleSub := some input.googleSub
        passwordHash := none
        displayName := input.displayName
        displayTz := "UTC"
        createdAt := now } c.user with
  | error e => simp [hu, bind, Except.bind] at h
  | ok result =>
      obtain ⟨r', t⟩ := result
      simp only [hu, bind, Except.bind, pure, Except.pure, Except.ok.injEq, Prod.mk.injEq] at h
      obtain ⟨rfl, rfl⟩ := h
      unfold upsertRow at hu
      unfold userByEmail
      cases hfind : c.user.find fun r => r.row.email == input.email with
      | none =>
          simp only [hfind] at hu
          obtain ⟨hcheck, hcreate⟩ := createRow_ok hu
          obtain ⟨rfl, -, -⟩ := Table.create_some hcreate
          exact ⟨UserPut.of_create hcreate, rfl, rfl, rfl, rfl, User.check_ok hcheck⟩
      | some old =>
          simp only [hfind] at hu
          obtain ⟨hcheck, rfl, hreplace⟩ := setRow_ok hu
          obtain ⟨hold, hsel⟩ := Table.find_some hfind
          exact ⟨UserPut.of_replace hold (beq_iff_eq.mp hsel).symm hreplace, rfl, rfl, rfl, rfl,
            User.check_ok hcheck⟩

/-- A Google sign-in for the address of a user always succeeds. -/
theorem upsertUserRow_of_mem {input : UpsertUser} {u : UserRecord} (hu : u ∈ c.user.rows)
    (hemail : u.row.email = input.email) (hcheck : Platform.isEmail input.email = true) :
    ∃ r c', c.upsertUserRow input now = .ok (r, c') := by
  have hfind : c.user.find (fun r => r.row.email == input.email) = some u :=
    userByEmail_eq_some.mpr ⟨hu, hemail⟩
  obtain ⟨row, hrow⟩ : ∃ row : User, row = { u.row with
      email := input.email
      googleSub := some input.googleSub
      displayName := input.displayName } := ⟨_, rfl⟩
  obtain ⟨t, ht⟩ : ∃ t, c.user.replace u row = some t :=
    Table.replace_of_collides hu fun a => by simp [Indexed.collides, hrow, hemail]
  have hvalid : row.check = .ok () := by simp [User.check, hrow, hcheck]
  have hset := setRow_of hvalid ht
  rw [hrow] at hset
  simp only [upsertUserRow, upsertRow, hfind, hset, bind, Except.bind, pure, Except.pure]
  exact ⟨_, _, rfl⟩

/-- Attaching a password rewrites the user it is for. -/
theorem attachPassword_ok {old : UserRecord} {hash : String} {displayName : Option String}
    {answer : Option UserRecord} (hold : old ∈ c.user.rows)
    (h : c.attachPassword old.id hash displayName now = .ok (answer, c')) :
    ∃ r, answer = some r ∧ UserPut c c' r ∧
      r.row = { old.row with passwordHash := some hash, displayName := displayName } := by
  unfold attachPassword at h
  cases hu : updateRow (fun r => r.id == old.id)
      (fun u : User => { u with passwordHash := some hash, displayName := displayName })
      c.user with
  | error e => simp [hu, bind, Except.bind] at h
  | ok result =>
      obtain ⟨r', t⟩ := result
      simp only [hu, bind, Except.bind, pure, Except.pure, Except.ok.injEq, Prod.mk.injEq] at h
      obtain ⟨rfl, rfl⟩ := h
      rcases updateRow_ok hu with ⟨-, -, hnone⟩ | ⟨x, hx, hsel, -, rfl, hreplace⟩
      · simpa using hnone old hold
      · obtain rfl := Table.eq_of_id_eq hx hold (beq_iff_eq.mp hsel)
        exact ⟨_, rfl, UserPut.of_replace hold rfl hreplace, rfl⟩

/-- The unique index lets a user be created for a new address only. -/
theorem createPasswordRow_ok {input : RegisterPassword} {r : UserRecord}
    (h : c.createPasswordRow input now = .ok (r, c')) :
    UserPut c c' r ∧ r.row.email = input.email ∧ r.row.passwordHash = some input.passwordHash ∧
      c.userByEmail input.email = none := by
  unfold createPasswordRow at h
  cases hc : createRow
      { email := input.email
        googleSub := none
        passwordHash := some input.passwordHash
        displayName := input.displayName
        displayTz := "UTC"
        createdAt := now : User } c.user with
  | error e => simp [hc, bind, Except.bind] at h
  | ok result =>
      obtain ⟨r', t⟩ := result
      simp only [hc, bind, Except.bind, pure, Except.pure, Except.ok.injEq, Prod.mk.injEq] at h
      obtain ⟨rfl, rfl⟩ := h
      obtain ⟨-, hcreate⟩ := createRow_ok hc
      obtain ⟨rfl, -, hfree⟩ := Table.create_some hcreate
      refine ⟨UserPut.of_create hcreate, rfl, rfl, List.find?_eq_none.mpr fun old hold hsel => ?_⟩
      have hne := hfree old hold
      simp [Indexed.collides, beq_iff_eq.mp hsel] at hne

end Statements

end Control

/-! ## Members of a tenant -/

namespace Control

/-- Every member has a user row. -/
def Joined (c : Control) : Prop :=
  ∀ user slug role, c.roleOf user slug = some role → ∃ u ∈ c.user.rows, u.id = user

/-- Then `list_tenant_members` finds the row of each. -/
theorem find_user_of_member {c : Control} (h : c.Joined) {m : MembershipRecord}
    (hm : m ∈ c.membership.rows) {l : List MembershipRecord} (hl : m ∈ l) :
    ∃ u ∈ c.user.rows, u.id = m.row.user ∧
      (c.user.select fun u => (l.map fun m => m.row.user).contains u.id).find?
        (fun u => u.id == m.row.user) = some u := by
  obtain ⟨u, hu, hid⟩ := h _ _ _ (roleOf_eq_some.mpr ⟨m, hm, rfl, rfl, rfl⟩)
  refine ⟨u, hu, hid, ?_⟩
  cases hfind : (c.user.select fun u => (l.map fun m => m.row.user).contains u.id).find?
      fun u => u.id == m.row.user with
  | none =>
      have hselected : u ∈ c.user.select fun u => (l.map fun m => m.row.user).contains u.id :=
        Table.mem_select.mpr ⟨hu, List.contains_iff_mem.mpr (List.mem_map.mpr ⟨m, hl, hid.symm⟩)⟩
      exact absurd hid (by simpa using List.find?_eq_none.mp hfind u hselected)
  | some x =>
      have hx := (Table.mem_select.mp (List.mem_of_find?_eq_some hfind)).1
      have hxid := List.find?_some hfind
      rw [Table.eq_of_id_eq hx hu ((beq_iff_eq.mp hxid).trans hid.symm)]

/-- The memberships that `list_tenant_members` goes through. -/
theorem mem_sorted {c : Control} {slug : String} {m : MembershipRecord} :
    m ∈ ((c.membership.select fun r => r.row.tenantSlug == slug).insertionSort
      fun a b => a.row.createdAt ≤ b.row.createdAt) ↔
        m ∈ c.membership.rows ∧ m.row.tenantSlug = slug := by
  rw [(List.perm_insertionSort _ _).mem_iff, Table.mem_select, beq_iff_eq]

/-- No address is listed twice. -/
theorem nodup_membersOf {c : Control} (h : c.Joined) (slug : String) :
    ((c.membersOf slug).map (·.email)).Nodup := by
  have hrows : ((c.membership.select fun r => r.row.tenantSlug == slug).insertionSort
      fun a b => a.row.createdAt ≤ b.row.createdAt).Nodup := by
    rw [(List.perm_insertionSort _ _).nodup_iff]
    exact (c.membership.distinct.imp fun hne heq => hne (by rw [heq])).filter _
  simp only [membersOf, List.map_map]
  refine hrows.map_on fun m hm m' hm' heq => ?_
  obtain ⟨hmem, hslug⟩ := mem_sorted.mp hm
  obtain ⟨hmem', hslug'⟩ := mem_sorted.mp hm'
  obtain ⟨u, hu, hid, hfind⟩ := find_user_of_member h hmem hm
  obtain ⟨u', hu', hid', hfind'⟩ := find_user_of_member h hmem' hm'
  simp only [Function.comp_apply, hfind, hfind', Option.map_some, Option.getD_some] at heq
  obtain rfl := user_eq hu hu' heq
  exact membership_eq hmem hmem' (hid.symm.trans hid') (hslug.trans hslug'.symm)

/-- The addresses listed are those with a membership. -/
theorem mem_membersOf {c : Control} (h : c.Joined) {slug email : String} :
    email ∈ (c.membersOf slug).map (·.email) ↔ c.HasMembership email slug := by
  simp only [membersOf, List.map_map, List.mem_map]
  constructor
  · rintro ⟨m, hm, rfl⟩
    obtain ⟨hmem, hslug⟩ := mem_sorted.mp hm
    obtain ⟨u, hu, hid, hfind⟩ := find_user_of_member h hmem hm
    refine ⟨u, hu, ?_, m, hmem, hid.symm, hslug⟩
    simp only [Function.comp_apply, hfind, Option.map_some, Option.getD_some]
  · rintro ⟨u, hu, rfl, m, hmem, huser, hslug⟩
    have hm := mem_sorted.mpr ⟨hmem, hslug⟩
    obtain ⟨u', hu', hid, hfind⟩ := find_user_of_member h hmem hm
    obtain rfl := Table.eq_of_id_eq hu' hu (hid.trans huser)
    refine ⟨m, hm, ?_⟩
    simp only [Function.comp_apply, hfind, Option.map_some, Option.getD_some]

end Control

/-! ## Users of the whole system -/

/-- Every user keeps their key and address. -/
def UsersKept (s s' : System) : Prop :=
  ∀ u ∈ s.control.user.rows, ∃ u' ∈ s'.control.user.rows, u'.id = u.id ∧ u'.row.email = u.row.email

theorem usersKept_of_users {s s' : System} (h : s'.control.user = s.control.user) :
    UsersKept s s' :=
  fun u hu => ⟨u, h ▸ hu, rfl, rfl⟩

theorem usersKept_of_put {s s' : System} {c : Control} {r : UserRecord}
    (hput : Control.UserPut s.control c r) (h : s'.control.user = c.user) : UsersKept s s' :=
  fun _ hu => h ▸ hput.user_kept hu

instance : Std.Refl UsersKept := ⟨fun _ => usersKept_of_users rfl⟩

instance : IsTrans System UsersKept where
  trans _ _ _ h h' u hu := by
    obtain ⟨u', hu', hid, hemail⟩ := h u hu
    obtain ⟨u'', hu'', hid', hemail'⟩ := h' u' hu'
    exact ⟨u'', hu'', hid'.trans hid, hemail'.trans hemail⟩

end SharamLedger
