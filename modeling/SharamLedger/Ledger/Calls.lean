import SharamLedger.Ledger.Accounts
import SharamLedger.Lib.Pool

/-!
# Calls on accounts in flight

The ledger calls behind sign-ins and invites as one service: any number of them are in flight on
the control plane, and their queries interleave. `Keeps` is what one query of a call may do, and
`accountProgram_safe` says that every call keeps to it as long as the others let the control plane
grow: users keep their address, memberships stay, and an invite's key names one tenant and one
address for good.
-/

namespace SharamLedger

open Lib

/-- A call of the ledger client on users and invites. -/
inductive AccountCall where
  | upsertUser (input : UpsertUser)
  | createPasswordUser (input : RegisterPassword)
  | acceptPendingInvites (email : String) (userId : Nat)
  | createInvite (input : NewInvite)
  | revokeInvite (slug key : String)
  | deleteInvite (slug key : String)

/-- What a call returns. -/
inductive AccountAnswer where
  | user (row : UserRecord)
  | accepted (slugs : List String)
  | invite (row : InviteRecord)
  | deleted

/-- The program of a call. -/
def accountProgram [Platform] : AccountCall → LedgerProg AccountAnswer
  | .upsertUser input => return .user (← upsertUser input)
  | .createPasswordUser input => return .user (← createPasswordUser input)
  | .acceptPendingInvites email userId => return .accepted (← acceptPendingInvites email userId)
  | .createInvite input => return .invite (← createInvite input)
  | .revokeInvite slug key => return .invite (← revokeInvite slug key)
  | .deleteInvite slug key => do
      deleteInvite slug key
      return .deleted

/-- The service of these calls. The one event of the world is a new clock reading. -/
def accounts [Platform] :
    Pool.Service System LedgerError AccountCall DateTime AccountAnswer where
  program := accountProgram
  world now s := s.setNow now

abbrev AccountPool := Pool.State System LedgerError AccountCall AccountAnswer

abbrev PoolAction := Pool.Action LedgerError AccountCall DateTime

/-! ## What every query may do -/

/-- Users keep their address, memberships stay, and an invite key in use names the same tenant
and address as before. -/
structure Control.Grows (c c' : Control) : Prop where
  users : ∀ u ∈ c.user.rows, ∃ u' ∈ c'.user.rows, u'.id = u.id ∧ u'.row.email = u.row.email
  roles : ∀ user slug role, c.roleOf user slug = some role →
    ∃ role', c'.roleOf user slug = some role'
  nextId : c.invite.nextId ≤ c'.invite.nextId
  invites : ∀ i' ∈ c'.invite.rows, c.invite.nextId ≤ i'.id ∨ ∃ i ∈ c.invite.rows,
    i.id = i'.id ∧ i.row.tenantSlug = i'.row.tenantSlug ∧ i.row.email = i'.row.email

theorem Control.Grows.refl (c : Control) : c.Grows c where
  users u hu := ⟨u, hu, rfl, rfl⟩
  roles _ _ role h := ⟨role, h⟩
  nextId := le_refl _
  invites i hi := .inr ⟨i, hi, rfl, rfl, rfl⟩

theorem Control.Grows.trans {c c' c'' : Control} (h : c.Grows c') (h' : c'.Grows c'') :
    c.Grows c'' where
  users u hu := by
    obtain ⟨u', hu', hid, hemail⟩ := h.users u hu
    obtain ⟨u'', hu'', hid', hemail'⟩ := h'.users u' hu'
    exact ⟨u'', hu'', hid'.trans hid, hemail'.trans hemail⟩
  roles user slug role hrole := by
    obtain ⟨role', hrole'⟩ := h.roles user slug role hrole
    exact h'.roles user slug role' hrole'
  nextId := h.nextId.trans h'.nextId
  invites i'' hi'' := by
    rcases h'.invites i'' hi'' with hnew | ⟨i', hi', hid', hslug', hemail'⟩
    · exact .inl (h.nextId.trans hnew)
    · rcases h.invites i' hi' with hnew | ⟨i, hi, hid, hslug, hemail⟩
      · exact .inl (hid' ▸ hnew)
      · exact .inr ⟨i, hi, hid.trans hid', hslug.trans hslug', hemail.trans hemail'⟩

/-- The control plane grows from the first state to the second. -/
def Grows (s s' : System) : Prop := s.control.Grows s'.control

instance : Std.Refl Grows := ⟨fun s => Control.Grows.refl s.control⟩

instance : IsTrans System Grows := ⟨fun _ _ _ => Control.Grows.trans⟩

/-- The call invites the address to the tenant. -/
def AccountCall.Invites (slug email : String) : AccountCall → Prop
  | .createInvite input => input.tenantSlug = slug ∧ input.email = email
  | _ => False

/-- The call turns invites into memberships of the user. -/
def AccountCall.Accepts (user : Nat) : AccountCall → Prop
  | .acceptPendingInvites _ userId => userId = user
  | _ => False

/-- What a query of the call may do. The control plane grows; only `create_invite` opens an
invite, and only its own; an invite becomes accepted when its address is a member; and only an
acceptance changes roles, those of its user. -/
structure Control.KeepsTo (call : AccountCall) (c c' : Control) : Prop where
  grows : c.Grows c'
  opens : ∀ i' ∈ c'.invite.rows, i'.row.revokedAt = none →
    call.Invites i'.row.tenantSlug i'.row.email ∨ ∃ i ∈ c.invite.rows, i.row.revokedAt = none ∧
      i.row.tenantSlug = i'.row.tenantSlug ∧ i.row.email = i'.row.email
  accepted : ∀ i' ∈ c'.invite.rows, i'.row.acceptedAt.isSome = true →
    c'.HasMembership i'.row.email i'.row.tenantSlug ∨ ∃ i ∈ c.invite.rows,
      i.row.acceptedAt.isSome = true ∧ i.row.tenantSlug = i'.row.tenantSlug ∧
        i.row.email = i'.row.email
  roles : ∀ user slug, c'.roleOf user slug = c.roleOf user slug ∨ call.Accepts user

theorem Control.KeepsTo.refl (call : AccountCall) (c : Control) : KeepsTo call c c where
  grows := .refl c
  opens i hi hopen := .inr ⟨i, hi, hopen, rfl, rfl⟩
  accepted i hi haccepted := .inr ⟨i, hi, haccepted, rfl, rfl⟩
  roles _ _ := .inl rfl

/-- The query of the call that led from the first state to the second keeps to what it may do. -/
def AccountCall.Keeps (call : AccountCall) (s s' : System) : Prop :=
  Control.KeepsTo call s.control s'.control

instance (call : AccountCall) : Std.Refl call.Keeps := ⟨fun s => .refl call s.control⟩

namespace Control

section Statements

variable [Platform] {c c' : Control} {call : AccountCall}

omit [Platform] in
/-- Writing a user's row touches nothing else. -/
theorem KeepsTo.of_userPut {r : UserRecord} (h : UserPut c c' r) : KeepsTo call c c' where
  grows :=
    { users := fun _ hu => h.user_kept hu
      roles := fun user slug role hrole => ⟨role, by rw [h.roleOf, hrole]⟩
      nextId := by rw [h.invites]
      invites := fun i hi => .inr ⟨i, h.invites ▸ hi, rfl, rfl, rfl⟩ }
  opens i hi hopen := .inr ⟨i, h.invites ▸ hi, hopen, rfl, rfl⟩
  accepted i hi haccepted := .inr ⟨i, h.invites ▸ hi, haccepted, rfl, rfl⟩
  roles user slug := .inl (h.roleOf user slug)

omit [Platform] in
/-- Rewriting an invite without moving it to another tenant or address. -/
theorem KeepsTo.of_inviteSet {i : InviteRecord} {row : Invite} (h : InviteSet c c' i row)
    (hnext : c'.invite.nextId = c.invite.nextId) (hslug : row.tenantSlug = i.row.tenantSlug)
    (hemail : row.email = i.row.email)
    (hopens : row.revokedAt = none → call.Invites i.row.tenantSlug i.row.email ∨
      i.row.revokedAt = none)
    (haccepts : row.acceptedAt.isSome = true → c.HasMembership i.row.email i.row.tenantSlug ∨
      i.row.acceptedAt.isSome = true) : KeepsTo call c c' := by
  have hroles : ∀ user slug, c'.roleOf user slug = c.roleOf user slug := by
    intro user slug
    simp only [roleOf, h.memberships]
  refine ⟨⟨fun u hu => ⟨u, h.users ▸ hu, rfl, rfl⟩, fun user slug role hrole => ⟨role, ?_⟩,
    by rw [hnext], fun x hx => ?_⟩, fun x hx hopen => ?_, fun x hx haccepted => ?_,
    fun user slug => .inl (hroles user slug)⟩
  · rw [hroles, hrole]
  · rcases (h.rows x).mp hx with rfl | ⟨hx, -⟩
    · exact .inr ⟨i, h.mem, rfl, hslug.symm, hemail.symm⟩
    · exact .inr ⟨x, hx, rfl, rfl, rfl⟩
  · rcases (h.rows x).mp hx with rfl | ⟨hx, -⟩
    · dsimp only
      rw [hslug, hemail]
      exact (hopens hopen).imp_right fun hi => ⟨i, h.mem, hi, rfl, rfl⟩
    · exact .inr ⟨x, hx, hopen, rfl, rfl⟩
  · rcases (h.rows x).mp hx with rfl | ⟨hx, -⟩
    · dsimp only
      rw [hslug, hemail, HasMembership, h.users, h.memberships]
      exact (haccepts haccepted).imp_right fun hi => ⟨i, h.mem, hi, rfl, rfl⟩
    · exact .inr ⟨x, hx, haccepted, rfl, rfl⟩

omit [Platform] in
/-- A membership was set by the call that accepts invites of the user. -/
theorem KeepsTo.of_roleSet {user : Nat} {slug role : String} (h : RoleSet c c' user slug role)
    (haccepts : call.Accepts user) : KeepsTo call c c' where
  grows :=
    { users := fun u hu => ⟨u, h.users ▸ hu, rfl, rfl⟩
      roles := fun user' slug' role' hrole => by
        rw [h.role]
        split
        · exact ⟨_, rfl⟩
        · exact ⟨role', hrole⟩
      nextId := by rw [h.invites]
      invites := fun i hi => .inr ⟨i, h.invites ▸ hi, rfl, rfl, rfl⟩ }
  opens i hi hopen := .inr ⟨i, h.invites ▸ hi, hopen, rfl, rfl⟩
  accepted i hi haccepted := .inr ⟨i, h.invites ▸ hi, haccepted, rfl, rfl⟩
  roles user' slug' := by
    by_cases hkey : user' = user ∧ slug' = slug
    · exact .inr (hkey.1 ▸ haccepts)
    · exact .inl (by rw [h.role, if_neg hkey])

theorem updateInvite_nextId {sel : InviteRecord → Bool} {set : Invite → Invite}
    {answer : Option InviteRecord} (h : c.updateInvite sel set = .ok (answer, c')) :
    c'.invite.nextId = c.invite.nextId := by
  unfold updateInvite at h
  cases hu : updateRow sel set c.invite with
  | error e => simp [hu, bind, Except.bind] at h
  | ok result =>
      simp only [hu, bind, Except.bind, pure, Except.pure, Except.ok.injEq, Prod.mk.injEq] at h
      obtain ⟨-, rfl⟩ := h
      rcases updateRow_ok hu with ⟨-, hsame, -⟩ | ⟨i, -, -, -, -, hreplace⟩
      · rw [hsame]
      · exact Table.update_nextId hreplace

/-- An `UPDATE ONLY` on invites that moves none of them and does not mark or reopen one of its
own accord. -/
theorem KeepsTo.of_updateInvite {sel : InviteRecord → Bool} {set : Invite → Invite}
    {answer : Option InviteRecord} (h : c.updateInvite sel set = .ok (answer, c'))
    (hslug : ∀ i, (set i).tenantSlug = i.tenantSlug) (hemail : ∀ i, (set i).email = i.email)
    (hopens : ∀ i ∈ c.invite.rows, sel i = true → (set i.row).revokedAt = none →
      call.Invites i.row.tenantSlug i.row.email ∨ i.row.revokedAt = none)
    (haccepts : ∀ i ∈ c.invite.rows, sel i = true → (set i.row).acceptedAt.isSome = true →
      c.HasMembership i.row.email i.row.tenantSlug ∨ i.row.acceptedAt.isSome = true) :
    KeepsTo call c c' := by
  rcases updateInvite_ok h with ⟨-, rfl⟩ | ⟨i, hsel, -, -, hset⟩
  · exact .refl call c'
  · exact .of_inviteSet hset (updateInvite_nextId h) (hslug _) (hemail _)
      (hopens i hset.mem hsel) (haccepts i hset.mem hsel)

/-- A new invite is the call's own, and nobody has accepted it. -/
theorem KeepsTo.of_createInvite {input : NewInvite} {r : InviteRecord} {now : DateTime}
    (h : c.createInviteRow input now = .ok (r, c'))
    (hinvites : call.Invites input.tenantSlug input.email) : KeepsTo call c c' := by
  obtain ⟨-, hslug, hemail, -, haccepted, -, husers, hmemberships, -, hrows⟩ :=
    createInviteRow_ok h
  have hroles : ∀ user slug, c'.roleOf user slug = c.roleOf user slug := by
    intro user slug
    simp only [roleOf, hmemberships]
  obtain ⟨hid, hnext⟩ : r.id = c.invite.nextId ∧ c.invite.nextId ≤ c'.invite.nextId := by
    unfold createInviteRow at h
    cases hc : createRow
        { tenantSlug := input.tenantSlug
          email := input.email
          role := input.role
          invitedBy := input.invitedBy
          createdAt := now
          acceptedAt := none
          revokedAt := none : Invite } c.invite with
    | error e => simp [hc, bind, Except.bind] at h
    | ok result =>
        simp only [hc, bind, Except.bind, pure, Except.pure, Except.ok.injEq, Prod.mk.injEq] at h
        obtain ⟨rfl, rfl⟩ := h
        obtain ⟨-, hcreate⟩ := createRow_ok hc
        obtain ⟨hr, -, -⟩ := Table.create_some hcreate
        exact ⟨by rw [hr], by rw [Table.create_nextId hcreate]; exact Nat.le_succ _⟩
  refine ⟨⟨fun u hu => ⟨u, husers ▸ hu, rfl, rfl⟩, fun user slug role hrole => ⟨role, ?_⟩, hnext,
    fun x hx => ?_⟩, fun x hx hopen => ?_, fun x hx hx' => ?_, fun user slug => .inl (hroles _ _)⟩
  · rw [hroles, hrole]
  · rcases (hrows x).mp hx with hx | rfl
    · exact .inr ⟨x, hx, rfl, rfl, rfl⟩
    · exact .inl hid.ge
  · rcases (hrows x).mp hx with hx | rfl
    · exact .inr ⟨x, hx, hopen, rfl, rfl⟩
    · exact .inl (by rwa [hslug, hemail])
  · rcases (hrows x).mp hx with hx | rfl
    · exact .inr ⟨x, hx, hx', rfl, rfl⟩
    · simp [haccepted] at hx'

omit [Platform] in
theorem KeepsTo.of_deleteInvite {slug key : String} {now : DateTime} {deleted : List InviteRecord}
    (h : c.deleteInviteRow slug key now = .ok (deleted, c')) : KeepsTo call c c' := by
  cases h
  have hkept : ∀ x ∈ (c.invite.delete fun r => toString r.id == key && r.row.tenantSlug == slug &&
      r.row.acceptedAt.isNone).rows, x ∈ c.invite.rows :=
    fun x hx => (Table.mem_delete.mp hx).1
  exact
    { grows :=
        { users := fun u hu => ⟨u, hu, rfl, rfl⟩
          roles := fun _ _ role hrole => ⟨role, hrole⟩
          nextId := le_refl _
          invites := fun i hi => .inr ⟨i, hkept i hi, rfl, rfl, rfl⟩ }
      opens := fun i hi hopen => .inr ⟨i, hkept i hi, hopen, rfl, rfl⟩
      accepted := fun i hi haccepted => .inr ⟨i, hkept i hi, haccepted, rfl, rfl⟩
      roles := fun _ _ => .inl rfl }

/-- Attaching a password writes the row of one user, if there is one with the key. -/
theorem attachPassword_cases {id : Nat} {hash : String} {displayName : Option String}
    {now : DateTime} {answer : Option UserRecord}
    (h : c.attachPassword id hash displayName now = .ok (answer, c')) :
    (answer = none ∧ c' = c) ∨ ∃ old ∈ c.user.rows, ∃ r, old.id = id ∧ answer = some r ∧
      UserPut c c' r ∧
        r.row = { old.row with passwordHash := some hash, displayName := displayName } := by
  by_cases hid : ∃ old ∈ c.user.rows, old.id = id
  · obtain ⟨old, hold, rfl⟩ := hid
    obtain ⟨r, hanswer, hput, hrow⟩ := attachPassword_ok hold h
    exact .inr ⟨old, hold, r, rfl, hanswer, hput, hrow⟩
  · have hfind : c.user.find (fun r => r.id == id) = none :=
      List.find?_eq_none.mpr fun r hr hsel => hid ⟨r, hr, beq_iff_eq.mp hsel⟩
    simp only [attachPassword, updateRow, hfind, bind, Except.bind, pure, Except.pure,
      Except.ok.injEq, Prod.mk.injEq] at h
    exact .inl ⟨h.1.symm, h.2.symm⟩

theorem attachPassword_directory {id : Nat} {hash : String} {displayName : Option String}
    {now : DateTime} {answer : Option UserRecord}
    (h : c.attachPassword id hash displayName now = .ok (answer, c')) :
    c'.tenantDirectory = c.tenantDirectory := by
  rcases attachPassword_cases h with ⟨-, rfl⟩ | ⟨old, -, r, -, -, hput, -⟩
  · rfl
  · exact hput.directory

end Statements

/-! ## What a call remembers -/

/-- The invite's key names its tenant and address, now and for good. -/
def Names (c : Control) (inv : InviteRecord) : Prop :=
  inv.id < c.invite.nextId ∧ ∀ i ∈ c.invite.rows, i.id = inv.id →
    i.row.tenantSlug = inv.row.tenantSlug ∧ i.row.email = inv.row.email

theorem names_of_mem {c : Control} {inv : InviteRecord} (h : inv ∈ c.invite.rows) :
    c.Names inv := by
  refine ⟨c.invite.fresh inv h, fun i hi hid => ?_⟩
  rw [Table.eq_of_id_eq hi h hid]
  exact ⟨rfl, rfl⟩

theorem Grows.names {c c' : Control} {inv : InviteRecord} (h : c.Grows c') (hinv : c.Names inv) :
    c'.Names inv := by
  refine ⟨hinv.1.trans_le h.nextId, fun i' hi' hid => ?_⟩
  rcases h.invites i' hi' with hnew | ⟨i, hi, hid', hslug, hemail⟩
  · exact absurd hinv.1 (by omega)
  · obtain ⟨hslug', hemail'⟩ := hinv.2 i hi (hid'.trans hid)
    exact ⟨hslug.symm.trans hslug', hemail.symm.trans hemail'⟩

/-- The user with this key has this address. -/
def HasUser (c : Control) (user : Nat) (email : String) : Prop :=
  ∃ u ∈ c.user.rows, u.id = user ∧ u.row.email = email

instance (c : Control) (user : Nat) (email : String) : Decidable (c.HasUser user email) :=
  inferInstanceAs (Decidable (∃ u ∈ c.user.rows, _))

theorem Grows.hasUser {c c' : Control} {user : Nat} {email : String} (h : c.Grows c')
    (huser : c.HasUser user email) : c'.HasUser user email := by
  obtain ⟨u, hu, rfl, rfl⟩ := huser
  exact h.users u hu

theorem Grows.hasMembership {c c' : Control} {email slug : String} (h : c.Grows c')
    (hmember : c.HasMembership email slug) : c'.HasMembership email slug :=
  hasMembership_mono hmember h.users fun user role => h.roles user slug role

end Control

/-! ## Every call keeps to it -/

section Queries

variable {α : Type} {R G : System → System → Prop} [Std.Refl G] {Q : α → System → Prop} {s : System}

theorem safe_readControl {f : Control → α} (h : ∀ s', R s s' → Q (f s'.control) s') :
    (readControl f).Safe R G Q s :=
  Prog.safe_read h

theorem safe_onControl {onError : DbError → LedgerError}
    {f : DateTime → Control → Except DbError (α × Control)}
    (h : ∀ s' a c, R s s' → f s'.now s'.control = .ok (a, c) →
      G s' { s' with control := c } ∧ Q a { s' with control := c }) :
    (onControl onError f).Safe R G Q s := by
  refine Prog.safe_exec fun s' a s'' hr hs'' => ?_
  cases hf : f s'.now s'.control with
  | error e => simp [hf] at hs''
  | ok answer =>
      simp only [hf, Except.ok.injEq, Prod.mk.injEq] at hs''
      obtain ⟨rfl, rfl⟩ := hs''
      exact h s' answer.1 answer.2 hr hf

omit [Std.Refl G] in
/-- A program of one query is left whole, or has ended. -/
theorem left_onControl {β : Type} {onError : DbError → LedgerError}
    {f : DateTime → Control → Except DbError (α × Control)} {next : α → LedgerProg β}
    (hnext : ∀ a effect' next', next a ≠ .query effect' next') {q : LedgerProg β}
    (h : (onControl onError f >>= next).Left q) :
    q = (onControl onError f >>= next) ∨ ∀ effect' next', q ≠ .query effect' next' := by
  refine h.whole_or_ended ⟨_, _, rfl, fun s effect' next' => ?_⟩
  cases hf : f s.now s.control with
  | error e => simp [hf, Prog.bind]
  | ok answer => simpa [hf, Prog.bind] using hnext answer.1 effect' next'

theorem movesOrReturns_onControl {β : Type} {onError : DbError → LedgerError}
    {f : DateTime → Control → Except DbError (α × Control)} {next : α → LedgerProg β}
    (h : ∀ s a c, f s.now s.control = .ok (a, c) →
      (G s { s with control := c } ∨ ∃ value, next a = .ok value) ∧ (next a).MovesOrReturns G) :
    (onControl onError f >>= next).MovesOrReturns G := by
  intro s
  cases hf : f s.now s.control with
  | error e =>
      exact ⟨.inl (by simp [hf, Std.Refl.refl s]), by simp [hf, Prog.bind, Prog.MovesOrReturns]⟩
  | ok answer =>
      obtain ⟨a, c⟩ := answer
      simpa [hf, Prog.bind] using h s a c hf

end Queries

/-- An acceptance is started for a user with the address it is given. -/
def AccountCall.Starts (s : System) : AccountCall → Prop
  | .acceptPendingInvites email userId => s.control.HasUser userId email
  | _ => True

theorem AccountCall.Starts.grows {call : AccountCall} {s s' : System} (h : call.Starts s)
    (hgrows : Grows s s') : call.Starts s' := by
  cases call with
  | acceptPendingInvites email userId => exact Control.Grows.hasUser hgrows h
  | _ => trivial

variable [Platform] {s : System}

/-- What is left of an acceptance keeps to it: its user is known, and so are the tenant and the
address behind every invite it has read. -/
theorem safe_acceptOne {email : String} {userId : Nat} {inv : InviteRecord}
    (huser : s.control.HasUser userId email) (hinv : s.control.Names inv)
    (hemail : inv.row.email = email) :
    (acceptOne userId inv).Safe Grows (AccountCall.acceptPendingInvites email userId).Keeps
      (fun _ s' => s.control.Grows s'.control) s := by
  refine Prog.Safe.bind (Q := fun _ s' => s.control.Grows s'.control ∧
    s'.control.HasMembership email inv.row.tenantSlug) (safe_onControl ?_) ?_
  · intro s' a c hgrows hupsert
    have hrole := Control.upsertMembership_ok hupsert
    have hkeeps : Control.KeepsTo (.acceptPendingInvites email userId) s'.control c :=
      .of_roleSet hrole rfl
    refine ⟨hkeeps, hgrows.trans hkeeps.grows, ?_⟩
    obtain ⟨u, hu, rfl, hu'⟩ := hkeeps.grows.hasUser (hgrows.hasUser huser)
    exact Control.hasMembership_iff.mpr ⟨u, hu, hu', _, by rw [hrole.role, if_pos ⟨rfl, rfl⟩]⟩
  · rintro - s₁ ⟨hgrows, hmember⟩
    split
    · exact Prog.safe_pure hgrows
    · refine Prog.Safe.bind (Q := fun _ s' => s.control.Grows s'.control) (safe_onControl ?_)
        fun _ _ h => Prog.safe_pure h
      intro s' a c hgrows' hmark
      have hkeeps : Control.KeepsTo (.acceptPendingInvites email userId) s'.control c := by
        refine .of_updateInvite hmark (fun _ => rfl) (fun _ => rfl) (fun _ _ _ h => .inr h) ?_
        -- the row that is marked is the invite's, whose address has become a member
        intro i hi hid _
        obtain ⟨hslug, hiemail⟩ := ((hgrows.trans hgrows').names hinv).2 i hi (beq_iff_eq.mp hid)
        rw [hslug, hiemail, hemail]
        exact .inl (Control.Grows.hasMembership hgrows' hmember)
      exact ⟨hkeeps, (hgrows.trans hgrows').trans hkeeps.grows⟩

theorem safe_acceptEach {email : String} {userId : Nat} (l : List InviteRecord) :
    ∀ {s : System}, s.control.HasUser userId email →
      (∀ inv ∈ l, s.control.Names inv ∧ inv.row.email = email) →
      (acceptEach userId l).Safe Grows (AccountCall.acceptPendingInvites email userId).Keeps
        (fun _ _ => True) s := by
  induction l with
  | nil => exact fun _ _ => Prog.safe_pure trivial
  | cons inv rest ih =>
      intro s huser hl
      obtain ⟨hinv, hemail⟩ := hl inv (by simp)
      refine Prog.Safe.bind (safe_acceptOne huser hinv hemail) fun accepted s' hgrows => ?_
      refine Prog.Safe.bind (ih (hgrows.hasUser huser) fun x hx => ?_)
        fun _ _ _ => Prog.safe_pure trivial
      obtain ⟨hx, hxemail⟩ := hl x (by simp [hx])
      exact ⟨hgrows.names hx, hxemail⟩

theorem safe_createPasswordUser (input : RegisterPassword) :
    (createPasswordUser input).Safe Grows (AccountCall.createPasswordUser input).Keeps
      (fun _ _ => True) s := by
  refine Prog.Safe.bind (Q := fun _ _ => True) (safe_readControl fun _ _ => trivial)
    fun found s' _ => ?_
  cases found with
  | none =>
      refine safe_onControl fun s' r c _ hcreate => ⟨?_, trivial⟩
      exact .of_userPut (Control.createPasswordRow_ok hcreate).1
  | some existing =>
      dsimp only
      split
      · exact Prog.safe_err _
      · refine Prog.Safe.bind (Q := fun _ _ => True) (safe_onControl fun s' r c _ hattach =>
          ⟨?_, trivial⟩) fun row _ _ => Prog.safe_okOr fun _ _ => trivial
        rcases Control.attachPassword_cases hattach with ⟨-, rfl⟩ | ⟨_, _, _, _, _, hput, _⟩
        · exact .refl _ _
        · exact .of_userPut hput

theorem safe_createInvite (input : NewInvite) :
    (createInvite input).Safe Grows (AccountCall.createInvite input).Keeps (fun _ _ => True) s := by
  refine Prog.Safe.bind (Q := fun found s' => ∀ i, found = some i → s'.control.Names i ∧
    i.row.tenantSlug = input.tenantSlug ∧ i.row.email = input.email)
    (safe_readControl fun s' _ i hfound => ?_) fun found s' hfound => ?_
  · obtain ⟨hi, hsame⟩ := Control.inviteFor_eq_some.mp hfound
    exact ⟨Control.names_of_mem hi, hsame⟩
  · cases found with
    | none =>
        exact safe_onControl fun s' r c _ hcreate =>
          ⟨.of_createInvite hcreate ⟨rfl, rfl⟩, trivial⟩
    | some rec =>
        obtain ⟨hnames, hslug, hemail⟩ := hfound rec rfl
        dsimp only
        split
        · exact Prog.safe_err _
        · refine Prog.Safe.bind (Q := fun _ _ => True) (safe_onControl fun s₁ r c hgrows hset =>
            ⟨?_, trivial⟩) fun row _ _ => Prog.safe_okOr fun _ _ => trivial
          refine .of_updateInvite hset (fun _ => rfl) (fun _ => rfl) (fun i hi hid _ => ?_)
            fun i _ _ haccepted => .inr haccepted
          obtain ⟨hslug', hemail'⟩ := (hgrows.names hnames).2 i hi (beq_iff_eq.mp hid)
          exact .inl ⟨(hslug'.trans hslug).symm, (hemail'.trans hemail).symm⟩

/-- As long as the others let the control plane grow, every query of a call does what the call
may do. -/
theorem accountProgram_safe {call : AccountCall} (hstarts : call.Starts s) :
    (accountProgram call).Safe Grows call.Keeps (fun _ _ => True) s := by
  cases call with
  | upsertUser input =>
      refine Prog.Safe.bind (Q := fun _ _ => True) (safe_onControl fun s' r c _ hput =>
        ⟨?_, trivial⟩) fun _ _ _ => Prog.safe_pure trivial
      exact .of_userPut (Control.upsertUserRow_ok hput).1
  | createPasswordUser input =>
      exact (safe_createPasswordUser input).bind fun _ _ _ => Prog.safe_pure trivial
  | acceptPendingInvites email userId =>
      refine Prog.Safe.bind (Q := fun _ _ => True) ?_ fun _ _ _ => Prog.safe_pure trivial
      refine Prog.Safe.bind (Q := fun l s' => s'.control.HasUser userId email ∧
        ∀ inv ∈ l, s'.control.Names inv ∧ inv.row.email = email)
        (safe_readControl fun s' hgrows => ⟨hgrows.hasUser hstarts, fun inv hinv => ?_⟩)
        fun l s' h => safe_acceptEach l h.1 h.2
      obtain ⟨hinv, hemail, -⟩ := Control.mem_openInvites.mp hinv
      exact ⟨Control.names_of_mem hinv, hemail⟩
  | createInvite input =>
      exact (safe_createInvite input).bind fun _ _ _ => Prog.safe_pure trivial
  | revokeInvite slug key =>
      refine Prog.Safe.bind (Q := fun _ _ => True) ?_ fun _ _ _ => Prog.safe_pure trivial
      refine Prog.Safe.bind (Q := fun _ _ => True) (safe_onControl fun s' r c _ hset =>
        ⟨?_, trivial⟩) fun _ _ _ => Prog.safe_okOr fun _ _ => trivial
      exact .of_updateInvite hset (fun _ => rfl) (fun _ => rfl) (fun _ _ _ h => by simp at h)
        fun i _ _ haccepted => .inr haccepted
  | deleteInvite slug key =>
      refine Prog.Safe.bind (Q := fun _ _ => True) ?_ fun _ _ _ => Prog.safe_pure trivial
      refine Prog.Safe.bind (Q := fun _ _ => True) (safe_onControl fun s' r c _ hset =>
        ⟨.of_deleteInvite hset, trivial⟩) fun _ _ _ => Prog.safe_ensure fun _ => trivial

/-! ## In flight -/

namespace AccountPool

/-- One step of the calls in flight. -/
abbrev step (a : PoolAction) (s : AccountPool) : AccountPool := Pool.step accounts a s

omit [Platform] in
/-- An acceptance that starts is for a user with the address it is given. -/
def Starts (a : PoolAction) (s : AccountPool) : Prop :=
  match a with
  | .start _ call => call.Starts s.store
  | _ => True

omit [Platform] in
/-- Every call in flight keeps to what it may do. -/
def Guarded (s : AccountPool) : Prop :=
  Pool.Guarded Grows AccountCall.Keeps (fun _ _ _ => True) s

omit [Platform] in
theorem guarded_idle (store : System) : Guarded (.idle store) := Pool.guarded_idle store

omit [Platform] in
/-- Two states whose control planes grow. -/
theorem grows_of_keeps (call : AccountCall) (s s' : System) (h : call.Keeps s s') : Grows s s' :=
  Control.KeepsTo.grows h

theorem grows_world (now : DateTime) (s : System) : Grows s (accounts.world now s) :=
  Control.Grows.refl s.control

theorem Guarded.step {a : PoolAction} {s : AccountPool} (hs : Guarded s) (hstarts : Starts a s) :
    Guarded (AccountPool.step a s) :=
  Pool.Guarded.step hs grows_of_keeps grows_world fun key call ha => by
    subst ha
    exact accountProgram_safe hstarts

theorem Guarded.grows {a : PoolAction} {s : AccountPool} (hs : Guarded s) :
    Grows s.store (AccountPool.step a s).store :=
  Pool.Guarded.rely hs grows_of_keeps grows_world

/-- A step leaves the control plane alone, or it is a query of a call that keeps to what the call
may do. -/
theorem Guarded.effect {s : AccountPool} (hs : Guarded s) (a : PoolAction) :
    (AccountPool.step a s).store.control = s.store.control ∨ ∃ key call effect next,
      a = .advance key ∧ s.calls key = some (call, .query effect next) ∧
        (AccountPool.step a s).store = effect s.store ∧
        call.Keeps s.store (AccountPool.step a s).store := by
  have hstep : Pool.Stepped accounts s a (AccountPool.step a s) := Pool.stepped a s
  generalize AccountPool.step a s = s' at hstep ⊢
  cases hstep with
  | same | started | failed | event => exact .inl rfl
  | advanced hkey => exact .inr ⟨_, _, _, _, rfl, hkey, rfl, Pool.Guarded.guarantee hs hkey⟩

/-- What every run keeps in which acceptances are started for known users. -/
structure Sound (s : AccountPool) : Prop where
  guarded : Guarded s
  started : Pool.Started accounts s
  users : Pool.Threads (fun call _ store => call.Starts store) s

theorem sound_idle (store : System) : Sound (.idle store) :=
  ⟨guarded_idle store, Pool.started_idle store, Pool.threads_idle store⟩

theorem Sound.step {a : PoolAction} {s : AccountPool} (hs : Sound s) (hstarts : Starts a s) :
    Sound (AccountPool.step a s) where
  guarded := hs.guarded.step hstarts
  started := hs.started.step
  users := by
    have hkept : ∀ call : AccountCall, call.Starts s.store →
        call.Starts (AccountPool.step a s).store := fun call h => h.grows hs.guarded.grows
    refine Pool.threads_step hs.users ?_ ?_ ?_ ?_
    · intro key call ha
      subst ha
      exact hstarts
    · intro key call effect next ha hkey
      have hstore : Pool.step accounts (.advance key) s = _ := Pool.step_advance hkey
      subst ha
      have h := hkept call (hs.users key call _ hkey)
      rwa [AccountPool.step, hstore] at h
    · exact fun key call effect next _ hkey => hs.users key call _ hkey
    · exact fun key call p _ hkey => hkept call (hs.users key call p hkey)

omit [Platform] in
/-- The control plane grows between two states of a run. -/
def Grows (s s' : AccountPool) : Prop := SharamLedger.Grows s.store s'.store

instance : Std.Refl Grows := ⟨fun s => Control.Grows.refl s.store.control⟩

instance : IsTrans AccountPool Grows := ⟨fun _ _ _ => Control.Grows.trans⟩

end AccountPool

end SharamLedger
