import SharamLedger.Gateway.Auth
import SharamLedger.Ledger.Accounts

/-!
# What a sign-in does

The three sign-in handlers put the user's row in place, turn the open invites of the address into
memberships and answer with a token for the address. One statement of the invite loop touches
the roles of that user only, and gives them a role that an open invite names.
-/

namespace SharamLedger

open Lib

variable [Platform]

/-- What a statement of the invite loop may do. -/
structure Accepts (user : Nat) (pending : List InviteRecord) (s s' : System) : Prop where
  now : s'.now = s.now
  namespaces : s'.namespaces = s.namespaces
  proofs : s'.proofs = s.proofs
  outbox : s'.outbox = s.outbox
  users : s'.control.user = s.control.user
  directory : s'.control.tenantDirectory = s.control.tenantDirectory
  others : ∀ user' slug, user' ≠ user →
    s'.control.roleOf user' slug = s.control.roleOf user' slug
  mine : ∀ slug, s'.control.roleOf user slug = s.control.roleOf user slug ∨
    ∃ inv ∈ pending, inv.row.tenantSlug = slug ∧
      s'.control.roleOf user slug = some inv.row.role

namespace Accepts

variable {user : Nat} {pending : List InviteRecord}

omit [Platform] in
theorem refl (s : System) : Accepts user pending s s :=
  ⟨rfl, rfl, rfl, rfl, rfl, rfl, fun _ _ _ => rfl, fun _ => .inl rfl⟩

omit [Platform] in
theorem trans {s s' s'' : System} (h : Accepts user pending s s')
    (h' : Accepts user pending s' s'') : Accepts user pending s s'' where
  now := h'.now.trans h.now
  namespaces := h'.namespaces.trans h.namespaces
  proofs := h'.proofs.trans h.proofs
  outbox := h'.outbox.trans h.outbox
  users := h'.users.trans h.users
  directory := h'.directory.trans h.directory
  others user' slug hne := (h'.others user' slug hne).trans (h.others user' slug hne)
  mine slug := by
    rcases h'.mine slug with hsame | hinvite
    · rw [hsame]
      exact h.mine slug
    · exact .inr hinvite

instance : Std.Refl (Accepts user pending) := ⟨refl⟩

instance : IsTrans System (Accepts user pending) := ⟨fun _ _ _ => trans⟩

end Accepts

/-- An accepted statement leaves the memberships as they are, or gives the user the role of a
pending invite. -/
theorem moves_acceptOne {user : Nat} {pending : List InviteRecord} {inv : InviteRecord}
    (hinv : inv ∈ pending) : (acceptOne user inv).Moves (Accepts user pending) := by
  refine .bind (moves_onControl fun s a c h => ?_) fun _ => ?_
  · have hset := Control.upsertMembership_ok h
    refine ⟨rfl, rfl, rfl, rfl, hset.users, hset.directory, fun user' slug hne => ?_,
      fun slug => ?_⟩
    · rw [hset.role, if_neg fun hkey => hne hkey.1]
    · by_cases hslug : slug = inv.row.tenantSlug
      · exact .inr ⟨inv, hinv, hslug.symm, by rw [hset.role, if_pos ⟨rfl, hslug⟩]⟩
      · exact .inl (by rw [hset.role, if_neg fun hkey => hslug hkey.2])
  · split
    · exact Prog.moves_pure _
    · refine .bind (moves_onControl fun s a c h => ?_) fun _ => Prog.moves_pure _
      rcases Control.updateInvite_ok h with ⟨-, rfl⟩ | ⟨i, -, -, -, hset⟩
      · exact Accepts.refl s
      · exact ⟨rfl, rfl, rfl, rfl, hset.users, hset.directory,
          fun user' slug _ => by simp only [Control.roleOf, hset.memberships],
          fun slug => .inl (by simp only [Control.roleOf, hset.memberships])⟩

theorem moves_acceptEach {user : Nat} {pending : List InviteRecord} (l : List InviteRecord)
    (hl : ∀ inv ∈ l, inv ∈ pending) : (acceptEach user l).Moves (Accepts user pending) := by
  induction l with
  | nil => exact Prog.moves_pure _
  | cons inv rest ih =>
      refine .bind (moves_acceptOne (hl inv (by simp))) fun _ => ?_
      exact .bind (ih fun i hi => hl i (by simp [hi])) fun _ => Prog.moves_pure _

/-- The loop gives roles to its user only, and only those that the invites name. -/
theorem accepts_acceptEach (user : Nat) (pending : List InviteRecord) (s : System) :
    Accepts user pending s ((acceptEach user pending).run s).2 :=
  (moves_acceptEach pending fun _ h => h).run s

/-- A pass that goes through sets the membership, and then the mark unless it is there. -/
theorem acceptOne_ok {user : Nat} {inv : InviteRecord} {s s' : System} {slugs : List String}
    (h : (acceptOne user inv).run s = (.ok slugs, s')) : ∃ m c,
      s.control.upsertMembership user inv.row.tenantSlug inv.row.role s.now = .ok (m, c) ∧
      ((inv.row.acceptedAt.isSome = true ∧ slugs = [] ∧ s' = { s with control := c }) ∨
        ∃ found c', inv.row.acceptedAt = none ∧ c.markAccepted inv.id s.now = .ok (found, c') ∧
          slugs = [inv.row.tenantSlug] ∧ s' = { s with control := c' }) := by
  cases hset : s.control.upsertMembership user inv.row.tenantSlug inv.row.role s.now with
  | error e => simp [acceptOne, hset] at h
  | ok answer =>
      obtain ⟨m, c⟩ := answer
      refine ⟨m, c, rfl, ?_⟩
      cases haccepted : inv.row.acceptedAt with
      | some t =>
          simp only [acceptOne, Prog.run_bind, run_onControl, hset, haccepted, Option.isSome_some,
            if_true, Prog.run_pure, Prod.mk.injEq, Except.ok.injEq] at h
          exact .inl ⟨rfl, h.1.symm, h.2.symm⟩
      | none =>
          cases hmark : c.markAccepted inv.id s.now with
          | error e => simp [acceptOne, hset, haccepted, hmark] at h
          | ok marked =>
              obtain ⟨found, c'⟩ := marked
              simp only [acceptOne, Prog.run_bind, run_onControl, hset, haccepted,
                Option.isSome_none, Bool.false_eq_true, if_false, hmark, Prog.run_pure,
                Prod.mk.injEq, Except.ok.injEq] at h
              exact .inr ⟨found, c', rfl, rfl, h.1.symm, h.2.symm⟩

/-- A loop that goes through is a first pass and the rest of the loop. -/
theorem acceptEach_cons_ok {user : Nat} {inv : InviteRecord} {rest : List InviteRecord}
    {s s' : System} {slugs : List String}
    (h : (acceptEach user (inv :: rest)).run s = (.ok slugs, s')) : ∃ first s₁ others,
      (acceptOne user inv).run s = (.ok first, s₁) ∧
      (acceptEach user rest).run s₁ = (.ok others, s') ∧ slugs = first ++ others := by
  cases hone : (acceptOne user inv).run s with
  | mk result s₁ =>
      cases result with
      | error e => simp [acceptEach, hone] at h
      | ok first =>
          cases hloop : (acceptEach user rest).run s₁ with
          | mk result s₂ =>
              cases result with
              | error e => simp [acceptEach, hone, hloop] at h
              | ok others =>
                  simp only [acceptEach, Prog.run_bind, hone, hloop, Prog.run_pure,
                    Prod.mk.injEq, Except.ok.injEq] at h
                  obtain ⟨rfl, rfl⟩ := h
                  exact ⟨first, s₁, others, rfl, hloop, rfl⟩

/-- A pass that goes through gives the role of its invite. -/
theorem acceptOne_role {user : Nat} {inv : InviteRecord} {s s' : System} {slugs : List String}
    (h : (acceptOne user inv).run s = (.ok slugs, s')) :
    s'.control.roleOf user inv.row.tenantSlug = some inv.row.role := by
  obtain ⟨m, c, hset, hend⟩ := acceptOne_ok h
  have hrole : c.roleOf user inv.row.tenantSlug = some inv.row.role := by
    rw [(Control.upsertMembership_ok hset).role, if_pos ⟨rfl, rfl⟩]
  rcases hend with ⟨-, -, rfl⟩ | ⟨found, c', -, hmark, -, rfl⟩
  · exact hrole
  · rcases Control.updateInvite_ok hmark with ⟨-, rfl⟩ | ⟨i, -, -, -, hinvite⟩
    · exact hrole
    · simpa only [Control.roleOf, hinvite.memberships] using hrole

/-- A loop that goes through gives the role of every invite. -/
theorem acceptEach_roles {user : Nat} {l : List InviteRecord} {s s' : System}
    {slugs : List String} (hdistinct : l.Pairwise fun a b => a.row.tenantSlug ≠ b.row.tenantSlug)
    (h : (acceptEach user l).run s = (.ok slugs, s')) :
    ∀ inv ∈ l, s'.control.roleOf user inv.row.tenantSlug = some inv.row.role := by
  induction l generalizing s slugs with
  | nil =>
      intro inv hinv
      cases hinv
  | cons first rest ih =>
      obtain ⟨hfirst, hrest⟩ := List.pairwise_cons.mp hdistinct
      obtain ⟨accepted, s₁, others, hone, hloop, -⟩ := acceptEach_cons_ok h
      intro inv hinv
      rcases List.mem_cons.mp hinv with rfl | hinv
      · -- no later invite is for the same tenant
        have haccepts := accepts_acceptEach user rest s₁
        rw [hloop] at haccepts
        rcases haccepts.mine inv.row.tenantSlug with hsame | ⟨i, hi, hslug, -⟩
        · rw [hsame]
          exact acceptOne_role hone
        · exact absurd hslug.symm (hfirst i hi)
      · exact ih hrest hloop inv hinv

/-- An invite that passes its assertions is accepted, and the other invites stay. -/
theorem acceptOne_runs (user : Nat) {inv : InviteRecord} {s : System}
    (hinv : inv ∈ s.control.invite.rows) (hcheck : inv.row.check = .ok ()) :
    ∃ slugs c, (acceptOne user inv).run s = (.ok slugs, { s with control := c }) ∧
      ∀ x ∈ s.control.invite.rows, x ≠ inv → x ∈ c.invite.rows := by
  obtain ⟨hslug, -, hrole⟩ := Invite.check_ok hcheck
  obtain ⟨m, c, hset⟩ : ∃ m c, s.control.upsertMembership user inv.row.tenantSlug inv.row.role
      s.now = .ok (m, c) := Control.upsertMembership_of_check hslug hrole
  have hinvites := (Control.upsertMembership_ok hset).invites
  cases haccepted : inv.row.acceptedAt with
  | some t =>
      refine ⟨[], c, by simp [acceptOne, hset, haccepted], fun x hx _ => ?_⟩
      rw [hinvites]
      exact hx
  | none =>
      have hinv' : inv ∈ c.invite.rows := hinvites ▸ hinv
      obtain ⟨c', hmark⟩ : ∃ c', c.markAccepted inv.id s.now =
          .ok (some ⟨inv.id, { inv.row with acceptedAt := some s.now }⟩, c') :=
        Control.markAccepted_of_mem hinv' hcheck
      refine ⟨[inv.row.tenantSlug], c', by simp [acceptOne, hset, haccepted, hmark],
        fun x hx hne => ?_⟩
      exact ((Control.markAccepted_ok hinv' hmark).rows x).mpr (.inr ⟨hinvites ▸ hx, hne⟩)

/-- A loop over such invites goes through. -/
theorem acceptEach_runs (user : Nat) {l : List InviteRecord} (hdistinct : l.Nodup) (s : System)
    (hl : ∀ inv ∈ l, inv ∈ s.control.invite.rows ∧ inv.row.check = .ok ()) :
    ∃ slugs s', (acceptEach user l).run s = (.ok slugs, s') := by
  induction l generalizing s with
  | nil => exact ⟨[], s, rfl⟩
  | cons inv rest ih =>
      obtain ⟨hfirst, hrest⟩ := List.nodup_cons.mp hdistinct
      obtain ⟨hinv, hcheck⟩ := hl inv (by simp)
      obtain ⟨first, c, hone, hkept⟩ := acceptOne_runs user hinv hcheck
      obtain ⟨others, s', hloop⟩ := ih hrest { s with control := c } fun x hx => by
        obtain ⟨hmem, hxcheck⟩ := hl x (by simp [hx])
        exact ⟨hkept x hmem fun heq => hfirst (heq ▸ hx), hxcheck⟩
      exact ⟨first ++ others, s', by simp [acceptEach, hone, hloop]⟩

/-! ## The three handlers -/

/-- A sign-in that got as far as the invites of the address: `c` is the control plane with the
user's row in place. -/
structure SignIn (s : System) (email : String) (r : UserRecord) (c : Control)
    (result : Except HttpError AuthResponse) (s' : System) : Prop where
  put : Control.UserPut s.control c r
  address : r.row.email = email
  state : s' = ((acceptEach r.id (c.openInvites email)).run { s with control := c }).2
  answer : ∀ response, result = .ok response → response.user.email = email
  accepted : ∀ response, result = .ok response →
    (acceptEach r.id (c.openInvites email)).run { s with control := c } =
      (.ok response.acceptedInvites, s')

namespace SignIn

variable {s s' : System} {email : String} {r : UserRecord} {c : Control}
  {result : Except HttpError AuthResponse}

theorem accepts (h : SignIn s email r c result s') :
    Accepts r.id (c.openInvites email) { s with control := c } s' := by
  rw [h.state]
  exact accepts_acceptEach _ _ _

/-- Whoever signed in has a row. -/
theorem mem_user (h : SignIn s email r c result s') : r ∈ s'.control.user.rows := by
  rw [h.accepts.users]
  exact h.put.mem

/-- The address has the user who signed in, and every other address the user it had. -/
theorem userByEmail (h : SignIn s email r c result s') (other : String) :
    s'.control.userByEmail other =
      if other = email then some r else s.control.userByEmail other := by
  have hput := h.put.userByEmail other
  rw [h.address] at hput
  rw [← hput]
  simp only [Control.userByEmail, h.accepts.users]

/-- Users of other addresses keep their roles. -/
theorem roleOf_other (h : SignIn s email r c result s') {other : String} {old : UserRecord}
    (hold : s.control.userByEmail other = some old) (hne : other ≠ email) (slug : String) :
    s'.control.roleOf old.id slug = s.control.roleOf old.id slug := by
  obtain ⟨hmem, rfl⟩ := Control.userByEmail_eq_some.mp hold
  rw [← h.address] at hne
  have hid : old.id ≠ r.id := fun hid => hne (h.put.email_of_id hmem hid)
  rw [h.accepts.others old.id slug hid]
  exact h.put.roleOf old.id slug

/-- A successful sign-in gives its user the role of every open invite of the address. -/
theorem roleOf_invite {response : AuthResponse} (h : SignIn s email r c (.ok response) s')
    {i : InviteRecord} (hi : i ∈ s.control.openInvites email) :
    s'.control.roleOf r.id i.row.tenantSlug = some i.row.role := by
  have hopen : c.openInvites email = s.control.openInvites email := by
    simp only [Control.openInvites, h.put.invites]
  exact acceptEach_roles (c.openInvites_distinct email) (h.accepted response rfl) i (hopen ▸ hi)

end SignIn

@[simp] theorem run_acceptPendingInvites (email : String) (user : Nat) (s : System) :
    (acceptPendingInvites email user).run s =
      (acceptEach user (s.control.openInvites email)).run s := by
  simp [acceptPendingInvites]

@[simp] theorem run_issue (identity : Identity) (s : System) :
    (issue identity).run s =
      ((issueSession s.now identity).mapError fun e => ⟨500, e⟩, s) := by
  simp [issue]

theorem openSession_signIn {email : String} {r : UserRecord} {c : Control} {s : System}
    (hput : Control.UserPut s.control c r) (hemail : r.row.email = email)
    (name picture : Option String) :
    SignIn s email r c ((openSession email r name picture).run { s with control := c }).1
      ((openSession email r name picture).run { s with control := c }).2 := by
  have hrun : (openSession email r name picture).run { s with control := c } =
      match (acceptEach r.id (c.openInvites email)).run { s with control := c } with
      | (.error e, s') => (.error (internalError e), s')
      | (.ok accepted, s') =>
          match (issueSession s'.now { email, name, picture }).mapError
              (fun e => (⟨500, e⟩ : HttpError)) with
          | .error e => (.error e, s')
          | .ok token => (.ok
              { token
                user := { sub := email, email, name, picture }
                acceptedInvites := accepted }, s') := by
    simp only [openSession, Prog.run_bind, run_ledgerCall, run_acceptPendingInvites, run_issue,
      Prog.run_pure]
    cases (acceptEach r.id (c.openInvites email)).run { s with control := c } with
    | mk result s' =>
        cases result with
        | error e => rfl
        | ok accepted =>
            simp only [Except.mapError]
            cases issueSession s'.now { email, name, picture } <;> rfl
  rw [hrun]
  cases hloop : (acceptEach r.id (c.openInvites email)).run { s with control := c } with
  | mk result s' =>
      cases result with
      | error e =>
          exact ⟨hput, hemail, by simp only [hloop], fun _ h => (by cases h),
            fun _ h => by cases h⟩
      | ok accepted =>
          cases htoken : issueSession s'.now { email, name, picture } with
          | error e =>
              simp only [htoken, Except.mapError]
              exact ⟨hput, hemail, by simp only [hloop], fun _ h => (by cases h),
                fun _ h => by cases h⟩
          | ok token =>
              simp only [htoken, Except.mapError]
              refine ⟨hput, hemail, by simp only [hloop], fun response h => ?_,
                fun response h => ?_⟩
              · rw [← Except.ok.inj h]
              · rw [hloop, ← Except.ok.inj h]

/-- A sign-in with Google keeps the password of the address. -/
theorem google_spec (payload : Extracted GoogleRequest) (s : System) :
    (google payload).StopsOr s fun result s' => ∃ p claims r c, payload = .ok p ∧
      Platform.verifyGoogle s.now p.credential = .ok claims ∧
      r.row.passwordHash =
        (s.control.userByEmail claims.email).bind (fun old => old.row.passwordHash) ∧
      SignIn s claims.email r c result s' := by
  unfold google
  refine Prog.stopsOr_bind (Prog.run_lift payload s) fun p hp => ?_
  refine Prog.stopsOr_bind (Prog.run_read _ s) fun verified hverified => ?_
  refine Prog.stopsOr_bind (Prog.run_lift _ s) fun claims hclaims => ?_
  obtain rfl := Except.ok.inj hverified
  have hclaims : Platform.verifyGoogle s.now p.credential = .ok claims := by
    cases hv : Platform.verifyGoogle s.now p.credential with
    | error e => simp [hv, Except.mapError] at hclaims
    | ok found => simpa [hv, Except.mapError] using hclaims
  cases hu : s.control.upsertUserRow
      { email := claims.email, googleSub := claims.sub, displayName := claims.name } s.now with
  | error e =>
      exact .inl ⟨internalError (upsertError e), by simp [upsertUser, hu, Except.mapError]⟩
  | ok answer =>
      obtain ⟨r, c⟩ := answer
      obtain ⟨hput, hemail, hhash, -⟩ := Control.upsertUserRow_ok hu
      exact Prog.stopsOr_of_run (by simp [upsertUser, hu, Except.mapError])
        ⟨p, claims, r, c, hp, hclaims, hhash,
          openSession_signIn hput hemail claims.name claims.picture⟩

/-- A registration stores the hash of its password, for an address without one. -/
theorem register_spec (salt : String) (payload : Extracted RegisterRequest) (s : System) :
    (register salt payload).StopsOr s fun result s' => ∃ p hash r c, payload = .ok p ∧
      validEmail (normalizeEmail p.email) = true ∧
      minPasswordLen ≤ p.password.utf8ByteSize ∧
      Platform.hashPassword salt p.password = .ok hash ∧
      (∀ old, s.control.userByEmail (normalizeEmail p.email) = some old →
        old.row.passwordHash = none) ∧
      r.row.passwordHash = some hash ∧ SignIn s (normalizeEmail p.email) r c result s' := by
  unfold register
  refine Prog.stopsOr_bind (Prog.run_lift payload s) fun p hp => ?_
  refine Prog.stopsOr_bind (Prog.run_ensure _ _ s) fun _ hvalid => ?_
  refine Prog.stopsOr_bind (Prog.run_ensure _ _ s) fun _ hlen => ?_
  refine Prog.stopsOr_bind (Prog.run_lift _ s) fun hash hhash => ?_
  have hvalid : validEmail (normalizeEmail p.email) = true := by
    by_contra hnot
    simp [hnot] at hvalid
  have hlen : minPasswordLen ≤ p.password.utf8ByteSize := by
    by_contra hnot
    simp [hnot] at hlen
  have hhash : Platform.hashPassword salt p.password = .ok hash := by
    cases hh : Platform.hashPassword salt p.password with
    | error e => simp [hh, Except.mapError] at hhash
    | ok found => simpa [hh, Except.mapError] using hhash
  cases hold : s.control.userByEmail (normalizeEmail p.email) with
  | none =>
      cases hc : s.control.createPasswordRow
          { email := normalizeEmail p.email
            passwordHash := hash
            displayName := registerName p.displayName } s.now with
      | error e =>
          exact .inl ⟨internalError (DbError.plain e),
            by simp [createPasswordUser, getUserByEmail, hold, hc, Except.mapError, DbError.plain]⟩
      | ok answer =>
          obtain ⟨r, c⟩ := answer
          obtain ⟨hput, hemail, hrow, -⟩ := Control.createPasswordRow_ok hc
          exact Prog.stopsOr_of_run
            (by simp [createPasswordUser, getUserByEmail, hold, hc, Except.mapError])
            ⟨p, hash, r, c, hp, hvalid, hlen, hhash, by simp [hold], hrow,
              openSession_signIn hput hemail r.row.displayName none⟩
  | some old =>
      obtain ⟨hmem, hemail⟩ := Control.userByEmail_eq_some.mp hold
      by_cases hset : old.row.passwordHash.isSome = true
      · exact .inl ⟨_, by
          simp [createPasswordUser, getUserByEmail, hold, hset, Except.mapError]; rfl⟩
      · have hnone : old.row.passwordHash = none := by simpa using hset
        cases ha : s.control.attachPassword old.id hash
            ((registerName p.displayName).or old.row.displayName) s.now with
        | error e =>
            exact .inl ⟨internalError (DbError.plain e),
              by simp [createPasswordUser, getUserByEmail, hold, hnone, ha, Except.mapError,
                DbError.plain]⟩
        | ok answer =>
            obtain ⟨found, c⟩ := answer
            obtain ⟨r, rfl, hput, hr⟩ := Control.attachPassword_ok hmem ha
            exact Prog.stopsOr_of_run
              (by simp [createPasswordUser, getUserByEmail, hold, hnone, ha, Except.mapError])
              ⟨p, hash, r, c, hp, hvalid, hlen, hhash,
                fun x hx => by rw [← Option.some.inj (hold.symm.trans hx), hnone], by rw [hr],
                openSession_signIn hput (by rw [hr, hemail]) r.row.displayName none⟩

/-- A login shows a password that verifies against the stored hash. -/
theorem login_spec (payload : Extracted LoginRequest) (s : System) :
    (login payload).StopsOr s fun result s' => ∃ p hash r, payload = .ok p ∧
      s.control.userByEmail (normalizeEmail p.email) = some r ∧
      r.row.passwordHash = some hash ∧ Platform.verifyPassword p.password hash = true ∧
      SignIn s (normalizeEmail p.email) r s.control result s' := by
  unfold login
  refine Prog.stopsOr_bind (Prog.run_lift payload s) fun p hp => ?_
  refine Prog.stopsOr_bind (Prog.run_ensure _ _ s) fun _ _ => ?_
  cases hold : s.control.userByEmail (normalizeEmail p.email) with
  | none =>
      exact .inl ⟨⟨401, "invalid email or password"⟩,
        by simp [getUserByEmail, hold, Except.mapError]⟩
  | some r =>
      obtain ⟨hmem, hemail⟩ := Control.userByEmail_eq_some.mp hold
      cases hhash : r.row.passwordHash with
      | none =>
          exact .inl ⟨_, by simp [getUserByEmail, hold, hhash, Except.mapError]; rfl⟩
      | some hash =>
          by_cases hverify : Platform.verifyPassword p.password hash = true
          · exact Prog.stopsOr_of_run
              (by simp [getUserByEmail, hold, hhash, hverify, Except.mapError])
              ⟨p, hash, r, hp, hold, hhash, hverify,
                openSession_signIn (Control.UserPut.refl hmem) hemail r.row.displayName none⟩
          · exact .inl ⟨⟨401, "invalid email or password"⟩,
              by simp [getUserByEmail, hold, hhash, hverify, Except.mapError]⟩

/-! ## Requests -/

/-- A request to one of the three sign-in endpoints. -/
inductive AuthRequest where
  | google (payload : Extracted GoogleRequest)
  | register (salt : String) (payload : Extracted RegisterRequest)
  | login (payload : Extracted LoginRequest)

/-- The handler a request is routed to. -/
def handleAuth : AuthRequest → Handler AuthResponse
  | .google payload => google payload
  | .register salt payload => register salt payload
  | .login payload => login payload

/-- The request is one for the address. -/
def AddressedTo (request : AuthRequest) (now : DateTime) (email : String) : Prop :=
  match request with
  | .google payload => ∃ p claims, payload = .ok p ∧
      Platform.verifyGoogle now p.credential = .ok claims ∧ claims.email = email
  | .register _ payload => ∃ p, payload = .ok p ∧ normalizeEmail p.email = email
  | .login payload => ∃ p, payload = .ok p ∧ normalizeEmail p.email = email

/-- A request fails and changes nothing, or signs in with its address. -/
theorem handleAuth_spec (request : AuthRequest) (s : System) :
    (handleAuth request).StopsOr s fun result s' => ∃ email r c,
      AddressedTo request s.now email ∧ SignIn s email r c result s' := by
  cases request with
  | google payload =>
      exact (google_spec payload s).imp fun _ _ ⟨p, claims, r, c, hp, hclaims, _, h⟩ =>
        ⟨_, r, c, ⟨p, claims, hp, hclaims, rfl⟩, h⟩
  | register salt payload =>
      exact (register_spec salt payload s).imp fun _ _ ⟨p, _, r, c, hp, _, _, _, _, _, h⟩ =>
        ⟨_, r, c, ⟨p, hp, rfl⟩, h⟩
  | login payload =>
      exact (login_spec payload s).imp fun _ _ ⟨p, _, r, hp, _, _, _, h⟩ =>
        ⟨_, r, _, ⟨p, hp, rfl⟩, h⟩

end SharamLedger
