import SharamLedger.Deployment
import SharamLedger.Gateway.Tenants

/-!
# What the control plane refers to

In every reachable state the addresses of users are valid ones, and whoever is a member of a tenant
or invited to one finds it in the directory.
-/

namespace SharamLedger

open Lib

namespace Control

/-- The slug has a directory row. -/
def Registered (c : Control) (slug : String) : Prop :=
  ∃ d ∈ c.tenantDirectory.rows, d.row.slug = slug

theorem registered_iff {c : Control} {slug : String} :
    c.Registered slug ↔ ∃ d, c.directoryEntry slug = some d := by
  unfold Registered directoryEntry
  constructor
  · rintro ⟨d, hd, rfl⟩
    cases hfind : c.tenantDirectory.find fun r => r.row.slug == d.row.slug with
    | none => simpa using Table.find_none hfind d hd
    | some entry => exact ⟨entry, rfl⟩
  · rintro ⟨d, hd⟩
    obtain ⟨hmem, hslug⟩ := Table.find_some hd
    exact ⟨d, hmem, beq_iff_eq.mp hslug⟩

/-- The entry of a membership on the dashboard. -/
def ventureOf (c : Control) (m : MembershipRecord) : VentureSummary where
  slug := m.row.tenantSlug
  displayName := ((c.directoryEntry m.row.tenantSlug).map fun d => d.row.displayName).getD
    m.row.tenantSlug
  role := m.row.role
  createdAt := m.row.createdAt

/-- `list_user_ventures` finds the directory row of each membership, if there is one. -/
theorem find_directory (c : Control) {slug : String} {slugs : List String} (h : slug ∈ slugs) :
    (c.tenantDirectory.select fun d => slugs.contains d.row.slug).find?
      (fun d => d.row.slug == slug) = c.directoryEntry slug := by
  unfold directoryEntry Table.select Table.find
  rw [List.find?_filter]
  congr
  funext d
  by_cases hd : d.row.slug = slug
  · simp [hd, h]
  · simp [hd]

theorem venturesOf_eq (c : Control) (email : String) :
    c.venturesOf email = ((c.membershipsFor email).map c.ventureOf).insertionSort
      fun a b => b.createdAt ≤ a.createdAt := by
  refine congrArg (List.insertionSort fun a b : VentureSummary => b.createdAt ≤ a.createdAt) ?_
  refine List.map_congr_left fun m hm => ?_
  have hslug : m.row.tenantSlug ∈ (c.membershipsFor email).map fun m => m.row.tenantSlug :=
    List.mem_map_of_mem hm
  show VentureSummary.mk _ _ _ _ = _
  rw [find_directory c hslug]
  rfl

variable [Platform]

/-- Every user has an address that passes the schema's check. -/
def ValidAddresses (c : Control) : Prop :=
  ∀ u ∈ c.user.rows, Platform.isEmail u.row.email = true

/-- Users have valid addresses, and memberships and invites are for registered tenants. -/
structure Refers (c : Control) : Prop where
  addresses : c.ValidAddresses
  members : ∀ user slug role, c.roleOf user slug = some role → c.Registered slug
  invites : ∀ i ∈ c.invite.rows, c.Registered i.row.tenantSlug

variable {c c' : Control} {now : DateTime}

theorem ValidAddresses.put {r : UserRecord} (h : c.ValidAddresses) (hput : UserPut c c' r)
    (hvalid : Platform.isEmail r.row.email = true) : c'.ValidAddresses := by
  intro u hu
  rcases (hput.rows u).mp hu with rfl | ⟨hu, -⟩
  · exact hvalid
  · exact h u hu

theorem ValidAddresses.upsertUser {input : UpsertUser} {r : UserRecord} (h : c.ValidAddresses)
    (hupsert : c.upsertUserRow input now = .ok (r, c')) : c'.ValidAddresses := by
  obtain ⟨hput, hemail, -, -, -, hvalid⟩ := upsertUserRow_ok hupsert
  exact h.put hput (hemail ▸ hvalid)

theorem ValidAddresses.createPassword {input : RegisterPassword} {r : UserRecord}
    (h : c.ValidAddresses) (hcreate : c.createPasswordRow input now = .ok (r, c')) :
    c'.ValidAddresses := by
  have hput := (createPasswordRow_ok hcreate).1
  refine h.put hput ?_
  unfold createPasswordRow at hcreate
  cases hc : createRow
      { email := input.email
        googleSub := none
        passwordHash := some input.passwordHash
        displayName := input.displayName
        displayTz := "UTC"
        createdAt := now : User } c.user with
  | error e => simp [hc, bind, Except.bind] at hcreate
  | ok result =>
      obtain ⟨r', t⟩ := result
      simp only [hc, bind, Except.bind, pure, Except.pure, Except.ok.injEq, Prod.mk.injEq]
        at hcreate
      obtain ⟨rfl, rfl⟩ := hcreate
      obtain ⟨hcheck, hrow⟩ := createRow_ok hc
      obtain ⟨rfl, -, -⟩ := Table.create_some hrow
      exact User.check_ok hcheck

theorem ValidAddresses.attachPassword {id : Nat} {hash : String} {displayName : Option String}
    {answer : Option UserRecord} (h : c.ValidAddresses)
    (hattach : c.attachPassword id hash displayName now = .ok (answer, c')) :
    c'.ValidAddresses := by
  unfold Control.attachPassword at hattach
  cases hu : updateRow (fun r => r.id == id)
      (fun u : User => { u with passwordHash := some hash, displayName := displayName })
      c.user with
  | error e => simp [hu, bind, Except.bind] at hattach
  | ok result =>
      obtain ⟨r', t⟩ := result
      simp only [hu, bind, Except.bind, pure, Except.pure, Except.ok.injEq, Prod.mk.injEq]
        at hattach
      obtain ⟨rfl, rfl⟩ := hattach
      rcases updateRow_ok hu with ⟨-, rfl, -⟩ | ⟨x, hx, -, -, -, hreplace⟩
      · exact h
      · intro u hu
        rcases (Table.mem_replace hreplace hx u).mp hu with rfl | ⟨hu, -⟩
        · exact h x hx
        · exact h u hu

end Control

namespace Deployment

section Runs

variable [Platform]

/-! ## Addresses -/

/-- A query leaves valid addresses valid. -/
def AddressesKept (s s' : System) : Prop :=
  s.control.ValidAddresses → s'.control.ValidAddresses

instance : Std.Refl AddressesKept := ⟨fun _ => id⟩

instance : IsTrans System AddressesKept := ⟨fun _ _ _ h h' hs => h' (h hs)⟩

theorem addressesKept_of_users {s s' : System} (h : s'.control.user = s.control.user) :
    AddressesKept s s' := by
  intro hs u hu
  exact hs u (h ▸ hu)

theorem addresses_openSession (email : String) (user : UserRecord) (name picture : Option String) :
    (openSession email user name picture).Moves AddressesKept := by
  have haccept : (acceptPendingInvites email user.id).Moves AddressesKept := by
    refine .bind (moves_readControl _) fun pending => ?_
    exact (moves_acceptEach pending fun _ h => h).imp fun _ _ h => addressesKept_of_users h.users
  refine .bind (haccept.mapErr _) fun accepted => ?_
  refine .bind (.bind (Prog.moves_read _) fun _ => Prog.moves_lift _) fun token => ?_
  exact Prog.moves_pure _

section

-- keeps the checks of the handlers from being evaluated while their steps are matched
attribute [local irreducible] Prog.Moves

theorem addresses_google (payload : Extracted GoogleRequest) :
    (google payload).Moves AddressesKept := by
  refine .bind (Prog.moves_lift _) fun p => ?_
  refine .bind (Prog.moves_read _) fun verified => ?_
  refine .bind (Prog.moves_lift _) fun claims => ?_
  refine .bind (Prog.Moves.mapErr (moves_onControl fun s r c h hs => hs.upsertUser h) _)
    fun user => ?_
  exact addresses_openSession _ _ _ _

theorem addresses_createPasswordUser (input : RegisterPassword) :
    (createPasswordUser input).Moves AddressesKept := by
  refine .bind (moves_readControl _) fun found => ?_
  cases found with
  | none => exact moves_onControl fun s r c h hs => hs.createPassword h
  | some existing =>
      by_cases hset : existing.row.passwordHash.isSome = true
      · simp only [hset, if_true]
        exact Prog.moves_err _
      · simp only [hset]
        refine .bind (moves_onControl fun s r c h hs => hs.attachPassword h) fun row => ?_
        exact Prog.moves_okOr _ _

theorem addresses_register (salt : String) (payload : Extracted RegisterRequest) :
    (register salt payload).Moves AddressesKept := by
  refine .bind (Prog.moves_lift _) fun p => ?_
  refine .bind (Prog.moves_ensure _ _) fun _ => ?_
  refine .bind (Prog.moves_ensure _ _) fun _ => ?_
  refine .bind (Prog.moves_lift _) fun hash => ?_
  refine .bind ((addresses_createPasswordUser _).mapErr _) fun user => ?_
  exact addresses_openSession _ _ _ _

theorem addresses_login (payload : Extracted LoginRequest) :
    (login payload).Moves AddressesKept := by
  refine .bind (Prog.moves_lift _) fun p => ?_
  refine .bind (Prog.moves_ensure _ _) fun _ => ?_
  refine .bind ((moves_readControl _).mapErr _) fun row => ?_
  refine .bind (Prog.moves_okOr _ _) fun user => ?_
  refine .bind (Prog.moves_okOr _ _) fun hash => ?_
  refine .bind (Prog.moves_ensure _ _) fun _ => ?_
  exact addresses_openSession _ _ _ _

end

theorem addresses_auth (request : AuthRequest) (s : System) :
    AddressesKept s ((handleAuth request).run s).2 := by
  cases request with
  | google payload => exact (addresses_google payload).run s
  | register salt payload => exact (addresses_register salt payload).run s
  | login payload => exact (addresses_login payload).run s

/-! ## Memberships and invites -/

omit [Platform] in
/-- Registered slugs stay registered while no directory row goes. -/
theorem registered_mono {c c' : Control} {slug : String} (h : c.Registered slug)
    (hdirectory : ∀ d ∈ c.tenantDirectory.rows, d ∈ c'.tenantDirectory.rows) :
    c'.Registered slug := by
  obtain ⟨d, hd, hslug⟩ := h
  exact ⟨d, hdirectory d hd, hslug⟩

/-- Invites keep their tenant. -/
def InviteSlugsKept (s s' : System) : Prop :=
  ∀ i' ∈ s'.control.invite.rows, ∃ i ∈ s.control.invite.rows, i.row.tenantSlug = i'.row.tenantSlug

instance : Std.Refl InviteSlugsKept := ⟨fun _ i hi => ⟨i, hi, rfl⟩⟩

instance : IsTrans System InviteSlugsKept where
  trans _ _ _ h h' i'' hi'' := by
    obtain ⟨i', hi', hslug'⟩ := h' i'' hi''
    obtain ⟨i, hi, hslug⟩ := h i' hi'
    exact ⟨i, hi, hslug.trans hslug'⟩

omit [Platform] in
theorem inviteSlugsKept_of_same {s s' : System} (h : s'.control.invite = s.control.invite) :
    InviteSlugsKept s s' :=
  fun i hi => ⟨i, h ▸ hi, rfl⟩

theorem inviteSlugs_acceptEach (user : Nat) (l : List InviteRecord) :
    (acceptEach user l).Moves InviteSlugsKept := by
  induction l with
  | nil => exact Prog.moves_pure _
  | cons inv rest ih =>
      refine .bind ?_ fun _ => .bind ih fun _ => Prog.moves_pure _
      refine .bind (moves_onControl fun s m c h =>
        inviteSlugsKept_of_same (Control.upsertMembership_ok h).invites) fun _ => ?_
      split
      · exact Prog.moves_pure _
      · refine .bind (moves_onControl fun s i c h => ?_) fun _ => Prog.moves_pure _
        rcases Control.updateInvite_ok h with ⟨-, rfl⟩ | ⟨old, -, -, -, hset⟩
        · exact inviteSlugsKept_of_same rfl
        · intro x hx
          rcases (hset.rows x).mp hx with rfl | ⟨hx, -⟩
          · exact ⟨old, hset.mem, rfl⟩
          · exact ⟨x, hx, rfl⟩

theorem refers_auth (request : AuthRequest) {s : System} (h : s.control.Refers) :
    ((handleAuth request).run s).2.control.Refers := by
  have haddresses := addresses_auth request s h.addresses
  rcases handleAuth_spec request s with ⟨e, he⟩ | ⟨email, r, c, -, hsign⟩
  · rw [he]
    exact h
  · obtain ⟨s', hs'⟩ : ∃ s', s' = ((handleAuth request).run s).2 := ⟨_, rfl⟩
    rw [← hs'] at hsign haddresses ⊢
    have hdirectory : s'.control.tenantDirectory = s.control.tenantDirectory :=
      hsign.accepts.directory.trans hsign.put.directory
    have hregistered : ∀ slug, s.control.Registered slug → s'.control.Registered slug :=
      fun slug hslug => registered_mono hslug fun d hd => hdirectory ▸ hd
    have hinvites : ∀ i ∈ c.invite.rows, s'.control.Registered i.row.tenantSlug := fun i hi =>
      hregistered _ (h.invites i (hsign.put.invites ▸ hi))
    refine ⟨haddresses, fun user slug role hrole => ?_, fun i hi => ?_⟩
    · -- a role that is not an old one is that of an open invite
      by_cases hne : user = r.id
      · subst hne
        rcases hsign.accepts.mine slug with hsame | ⟨i, hi, rfl, -⟩
        · rw [hsame, hsign.put.roleOf] at hrole
          exact hregistered slug (h.members _ slug role hrole)
        · exact hinvites i (Table.mem_select.mp hi).1
      · rw [hsign.accepts.others user slug hne, hsign.put.roleOf] at hrole
        exact hregistered slug (h.members user slug role hrole)
    · have hkept := (inviteSlugs_acceptEach r.id (c.openInvites email)).run
        { s with control := c }
      rw [← hsign.state] at hkept
      obtain ⟨old, hold, hslug⟩ := hkept i hi
      exact hslug ▸ hinvites old hold

theorem refers_founded {headers : Headers} {payload : Extracted CreateTenantRequest}
    {s s' : System} (hfounded : TenantFounded headers payload s s') (h : s.control.Refers) :
    s'.control.Refers := by
  obtain ⟨p, identity, r, slug, ns, -, -, -, -, -, -, ⟨-, hsame⟩ | hregister, -⟩ := hfounded
  · rw [hsame]
    exact h
  · obtain ⟨husers, hinvites, -, hroles⟩ := Control.registerTenant_ok hregister
    obtain ⟨d, m, hd, -, hdirectory, -⟩ := Control.registerTenant_rows hregister
    have hkept : ∀ slug, s.control.Registered slug → s'.control.Registered slug :=
      fun slug hslug => registered_mono hslug fun d hd => (hdirectory d).mpr (.inl hd)
    refine ⟨fun u hu => h.addresses u (husers ▸ hu), fun user slug' role hrole => ?_,
      fun i hi => hkept _ (h.invites i (hinvites ▸ hi))⟩
    rw [hroles] at hrole
    split at hrole
    · next hkey => exact ⟨d, (hdirectory d).mpr (.inr rfl), by rw [hd]; exact hkey.2.symm⟩
    · exact hkept slug' (h.members user slug' role hrole)

theorem refers_respond (request : TenantRequest) {s : System} (h : s.control.Refers) :
    (request.respond s).2.control.Refers := by
  rcases handle_gated request s with ⟨e, he⟩ | hmember
  · rw [TenantRequest.respond, he s rfl]
    exact h
  · have hconfined := respond_confined request s
    have hkept : ∀ slug, s.control.Registered slug →
        (request.respond s).2.control.Registered slug :=
      fun slug hslug => registered_mono hslug fun d hd => hconfined.directory ▸ hd
    refine ⟨fun u hu => h.addresses u (hconfined.users ▸ hu), fun user slug role hrole => ?_,
      fun i hi => ?_⟩
    · have hrole : s.control.roleOf user slug = some role := by
        rw [← hrole, Control.roleOf, Control.roleOf, hconfined.memberships]
      exact hkept slug (h.members user slug role hrole)
    · by_cases hslug : i.row.tenantSlug = request.slug
      · -- the request comes from a member of the tenant
        obtain ⟨identity, -, hrole⟩ := hmember
        obtain ⟨u, -, -, role, hrole⟩ :=
          Control.hasMembership_iff.mp (roleFor_isSome_iff.mp hrole)
        rw [hslug]
        exact hkept _ (h.members u.id _ role hrole)
      · exact hkept _ (h.invites i ((hconfined.invites i hslug).mp hi))

/-! ## Runs -/

theorem refers_step (a : GatewayAction) (s : System) (h : s.control.Refers) :
    (step a s).control.Refers := by
  cases a with
  | clock now => exact h
  | auth request => exact refers_auth request h
  | createTenant headers payload =>
      rcases createTenantHandler_spec headers payload s with ⟨e, he⟩ | hfounded
      · rw [step, he]
        exact h
      · exact refers_founded hfounded h
  | tenant request => exact refers_respond request h

theorem refers_exec (actions : List GatewayAction) (now : DateTime) :
    (Trace.exec step actions (System.empty now)).control.Refers := by
  refine Trace.exec_invariant (I := fun s : System => s.control.Refers) refers_step actions ?_
  refine ⟨fun u hu => ?_, fun user slug role hrole => ?_, fun i hi => ?_⟩
  · cases hu
  · obtain ⟨m, hm, -⟩ := Control.roleOf_eq_some.mp hrole
    cases hm
  · cases hi

end Runs

end Deployment

end SharamLedger
