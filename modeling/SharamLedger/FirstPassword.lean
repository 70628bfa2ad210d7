import SharamLedger.Ledger.Calls
import SharamLedger.Sample

/-!
# The first password of an address

`create_password_user` looks for a password in one query and writes its own in another. The `CREATE`
of a new row is guarded by the unique index, the `UPDATE` of an existing row by nothing. When no
`UPDATE` comes upon a password, the first registration of an address is the only one.
-/

namespace SharamLedger

open Lib

/-- The password hash stored for an address. -/
def Control.passwordOf (c : Control) (email : String) : Option String :=
  (c.userByEmail email).bind fun u => u.row.passwordHash

namespace FirstPassword

/-- Users keep their key and address, and the address its password. -/
def SamePassword (email : String) (s s' : System) : Prop :=
  UsersKept s s' ∧ s'.control.passwordOf email = s.control.passwordOf email

theorem samePassword_of_users {email : String} {s s' : System}
    (h : s'.control.user = s.control.user) : SamePassword email s s' := by
  refine ⟨usersKept_of_users h, ?_⟩
  simp only [Control.passwordOf, Control.userByEmail, h]

instance (email : String) : Std.Refl (SamePassword email) := ⟨fun _ => samePassword_of_users rfl⟩

theorem passwordOf_put {c c' : Control} {r : UserRecord} (h : Control.UserPut c c' r)
    (email : String) : c'.passwordOf email =
      if email = r.row.email then r.row.passwordHash else c.passwordOf email := by
  unfold Control.passwordOf
  rw [h.userByEmail]
  split <;> rfl

section Runs

variable [Platform]

/-! ## The other calls -/

theorem moves_upsertUser (input : UpsertUser) (email : String) :
    (accountProgram (.upsertUser input)).Moves (SamePassword email) := by
  refine .bind (moves_onControl fun s r c h => ?_) fun _ => Prog.moves_pure _
  obtain ⟨hput, hemail, hpassword, -⟩ := Control.upsertUserRow_ok h
  refine ⟨usersKept_of_put hput rfl, ?_⟩
  rw [passwordOf_put hput]
  split
  · next heq => rw [hpassword, heq, hemail, Control.passwordOf]
  · rfl

theorem moves_updateInvite {sel : InviteRecord → Bool} {set : Invite → Invite} {s : System}
    {email : String} {answer : Option InviteRecord} {c : Control}
    (h : s.control.updateInvite sel set = .ok (answer, c)) :
    SamePassword email s { s with control := c } := by
  rcases Control.updateInvite_ok h with ⟨-, rfl⟩ | ⟨i, -, -, -, hset⟩
  · exact Std.Refl.refl s
  · exact samePassword_of_users hset.users

/-- The calls other than `create_password_user` leave every password as it is. -/
theorem moves_others {call : AccountCall} (hcall : ∀ input, call ≠ .createPasswordUser input)
    (email : String) : (accountProgram call).Moves (SamePassword email) := by
  cases call with
  | upsertUser input => exact moves_upsertUser input email
  | createPasswordUser input => exact absurd rfl (hcall input)
  | acceptPendingInvites address userId =>
      refine .bind (.bind (moves_readControl _) fun l => ?_) fun _ => Prog.moves_pure _
      exact (moves_acceptEach l fun _ h => h).imp fun s s' h => samePassword_of_users h.users
  | createInvite input =>
      refine .bind (.bind (moves_readControl _) fun found => ?_) fun _ => Prog.moves_pure _
      cases found with
      | none =>
          refine moves_onControl fun s r c h => samePassword_of_users ?_
          obtain ⟨-, -, -, -, -, -, husers, -⟩ := Control.createInviteRow_ok h
          exact husers
      | some rec =>
          dsimp only
          split
          · exact Prog.moves_err _
          · exact .bind (moves_onControl fun s r c h => moves_updateInvite h)
              fun _ => Prog.moves_okOr _ _
  | revokeInvite slug key =>
      exact .bind (.bind (moves_onControl fun s r c h => moves_updateInvite h)
        fun _ => Prog.moves_okOr _ _) fun _ => Prog.moves_pure _
  | deleteInvite slug key =>
      refine .bind (.bind (moves_onControl fun s r c h => samePassword_of_users ?_)
        fun _ => Prog.moves_ensure _ _) fun _ => Prog.moves_pure _
      cases h
      rfl

/-! ## The points of a registration -/

/-- A registration that has found a row without a password: its `UPDATE` is next. -/
def attaching (input : RegisterPassword) (existing : UserRecord) : LedgerProg AccountAnswer := do
  let row ← onControl DbError.plain (Control.attachPassword existing.id input.passwordHash
    (input.displayName.or existing.row.displayName))
  let row ← .okOr .notFound row
  return .user row

/-- A registration that has found no row: its `CREATE` is next. -/
def creating (input : RegisterPassword) : LedgerProg AccountAnswer := do
  let row ← onControl DbError.plain (Control.createPasswordRow input)
  return .user row

/-- What follows the first query of a registration. -/
def afterLookup (input : RegisterPassword) : Option UserRecord → LedgerProg AccountAnswer
  | some existing =>
      if existing.row.passwordHash.isSome then .err (.userExists input.email)
      else attaching input existing
  | none => creating input

theorem accountProgram_register (input : RegisterPassword) :
    accountProgram (.createPasswordUser input) =
      readControl (fun c => c.userByEmail input.email) >>= afterLookup input := by
  simp only [accountProgram, createPasswordUser, getUserByEmail, Prog.bind_assoc]
  congr 1
  funext found
  cases found with
  | none => rfl
  | some existing =>
      dsimp only [afterLookup]
      split
      · rfl
      · simp only [attaching, Prog.bind_assoc]

/-- How far a registration has come. One that has returned for the address has left its own
password there. -/
inductive Stage (email : String) (input : RegisterPassword) (s : System)
    (p : LedgerProg AccountAnswer) : Prop where
  | whole : p = accountProgram (.createPasswordUser input) → Stage email input s p
  | attaching (existing : UserRecord) : p = FirstPassword.attaching input existing →
      s.control.HasUser existing.id input.email → Stage email input s p
  | creating : p = FirstPassword.creating input → Stage email input s p
  | failed (error : LedgerError) : p = .err error → Stage email input s p
  | returned (value : AccountAnswer) : p = .ok value →
      (input.email = email → s.control.passwordOf email = some input.passwordHash) →
      Stage email input s p

theorem Stage.mono {email : String} {input : RegisterPassword} {s s' : System}
    {p : LedgerProg AccountAnswer} (h : Stage email input s p) (husers : UsersKept s s')
    (hpassword : s'.control.passwordOf email = s.control.passwordOf email ∨
      s.control.passwordOf email = none) : Stage email input s' p := by
  cases h with
  | whole hp => exact .whole hp
  | attaching existing hp huser =>
      obtain ⟨u, hu, hid, hemail⟩ := huser
      obtain ⟨u', hu', hid', hemail'⟩ := husers u hu
      exact .attaching existing hp ⟨u', hu', hid'.trans hid, hemail'.trans hemail⟩
  | creating hp => exact .creating hp
  | failed error hp => exact .failed error hp
  | returned value hp hmine =>
      refine .returned value hp fun hemail => ?_
      rcases hpassword with hsame | hnone
      · rw [hsame, hmine hemail]
      · rw [hmine hemail] at hnone
        cases hnone

/-- What a query of a registration does: it leaves the password of the address alone and does not
return for the address, or there was no password before. -/
structure Registers (email : String) (input : RegisterPassword) (s s' : System)
    (p' : LedgerProg AccountAnswer) : Prop where
  stage : Stage email input s' p'
  users : UsersKept s s'
  claims : (s'.control.passwordOf email = s.control.passwordOf email ∧
      ∀ value, p' = .ok value → input.email ≠ email) ∨
    (input.email = email ∧ s.control.passwordOf email = none)

/-- A query that changes nothing and does not return. -/
theorem registers_same {email : String} {input : RegisterPassword} {s : System}
    {p' : LedgerProg AccountAnswer} (h : Stage email input s p') (hp' : ∀ value, p' ≠ .ok value) :
    Registers email input s s p' :=
  ⟨h, Std.Refl.refl s, .inl ⟨rfl, fun value hvalue => absurd hvalue (hp' value)⟩⟩

/-- A query that writes the row of the address it registers. -/
theorem registers_put {email : String} {input : RegisterPassword} {s : System} {c : Control}
    {r : UserRecord} (hput : Control.UserPut s.control c r) (hemail : r.row.email = input.email)
    (hhash : r.row.passwordHash = some input.passwordHash)
    (hfree : input.email = email → s.control.passwordOf email = none) :
    Registers email input s { s with control := c } (.ok (.user r)) := by
  have hpassword := passwordOf_put hput email
  refine ⟨.returned _ rfl fun heq => ?_, usersKept_of_put hput rfl, ?_⟩
  · rw [hpassword, if_pos (heq.symm.trans hemail.symm), hhash]
  · by_cases heq : input.email = email
    · exact .inr ⟨heq, hfree heq⟩
    · exact .inl ⟨by rw [hpassword, if_neg fun h => heq (hemail.symm.trans h.symm)],
        fun _ _ => heq⟩

theorem registers_of_query {email : String} {input : RegisterPassword} {s : System}
    {effect : System → System} {next : System → LedgerProg AccountAnswer}
    (h : Stage email input s (.query effect next))
    (hfree : ∀ existing, .query effect next = attaching input existing → input.email = email →
      s.control.passwordOf email = none) :
    Registers email input s (effect s) (next s) := by
  cases h with
  | whole hp =>
      rw [accountProgram_register] at hp
      obtain ⟨rfl, rfl⟩ := Prog.query.inj hp
      show Registers email input s s (afterLookup input (s.control.userByEmail input.email))
      cases hfound : s.control.userByEmail input.email with
      | none => exact registers_same (.creating rfl) fun _ h => by cases h
      | some existing =>
          obtain ⟨hmem, hemail⟩ := Control.userByEmail_eq_some.mp hfound
          rw [afterLookup]
          by_cases hhash : existing.row.passwordHash.isSome = true
          · rw [if_pos hhash]
            exact registers_same (.failed _ rfl) fun _ h => by cases h
          · rw [if_neg hhash]
            exact registers_same (.attaching existing rfl ⟨existing, hmem, rfl, hemail⟩)
              fun _ h => by cases h
  | attaching existing hp huser =>
      have hnone := hfree existing hp
      obtain ⟨rfl, rfl⟩ := Prog.query.inj hp
      obtain ⟨old, hold, hid, hemail⟩ := huser
      cases hset : s.control.attachPassword existing.id input.passwordHash
          (input.displayName.or existing.row.displayName) s.now with
      | error e =>
          simp only [hset]
          exact registers_same (.failed _ rfl) fun _ h => by cases h
      | ok answer =>
          obtain ⟨row, c⟩ := answer
          obtain ⟨r, rfl, hput, hrow⟩ := Control.attachPassword_ok hold (hid ▸ hset)
          simp only [hset]
          exact registers_put hput (by rw [hrow, hemail]) (by rw [hrow]) hnone
  | creating hp =>
      obtain ⟨rfl, rfl⟩ := Prog.query.inj hp
      cases hset : s.control.createPasswordRow input s.now with
      | error e =>
          simp only [hset]
          exact registers_same (.failed _ rfl) fun _ h => by cases h
      | ok answer =>
          obtain ⟨r, c⟩ := answer
          obtain ⟨hput, hremail, hhash, hnew⟩ := Control.createPasswordRow_ok hset
          simp only [hset]
          refine registers_put hput hremail hhash fun heq => ?_
          rw [Control.passwordOf, ← heq, hnew]
          rfl
  | failed error hp => cases hp
  | returned value hp => cases hp

/-! ## Registrations in flight -/

/-- The call is a registration of the address that has returned. -/
def Registered (email : String) (s : AccountPool) (key : Nat) : Prop :=
  ∃ input value, input.email = email ∧ s.Returned key (.createPasswordUser input) value

/-- Every `UPDATE` of a registration of the address comes upon a row without a password. -/
def Unclaimed (email : String) (a : PoolAction) (s : AccountPool) : Prop :=
  ∀ key input existing, a = .advance key → input.email = email →
    s.calls key = some (.createPasswordUser input, attaching input existing) →
    s.store.control.passwordOf email = none

/-- At most one registration of the address has returned, none if there was a password in the
beginning, and the password is that of the registration. -/
structure OnePassword (email : String) (initial : Option String) (s : AccountPool) : Prop where
  one : ∀ key key', Registered email s key → Registered email s key' → key = key'
  unless_stored : initial ≠ none → ∀ key, ¬ Registered email s key
  stored : ∀ key input value, input.email = email →
    s.Returned key (.createPasswordUser input) value →
    s.store.control.passwordOf email = some input.passwordHash

/-- What such a run keeps. -/
structure Claims (email : String) (initial : Option String) (s : AccountPool) : Prop where
  started : Pool.Started accounts s
  stages : Pool.Threads (fun call p store => ∀ input, call = .createPasswordUser input →
    Stage email input store p) s
  one : ∀ key key', Registered email s key → Registered email s key' → key = key'
  kept : initial ≠ none → s.store.control.passwordOf email ≠ none ∧ ∀ key, ¬ Registered email s key

variable {email : String} {initial : Option String} {s : AccountPool}

omit [Platform] in
theorem registered_setCall {key k : Nat} {call : AccountCall} {p : LedgerProg AccountAnswer}
    {store : System} (h : Registered email { s.setCall key (call, p) with store := store } k) :
    (k = key ∧ ∃ input value, input.email = email ∧ call = .createPasswordUser input ∧
      p = .ok value) ∨ Registered email s k := by
  obtain ⟨input, value, hemail, hreturned⟩ := h
  rcases Pool.State.calls_setCall_cases hreturned with ⟨rfl, hentry⟩ | ⟨-, hold⟩
  · obtain ⟨rfl, rfl⟩ := Prod.mk.inj hentry
    exact .inl ⟨rfl, input, value, hemail, rfl, rfl⟩
  · exact .inr ⟨input, value, hemail, hold⟩

theorem Claims.stored (hs : Claims email initial s) {key : Nat} {input : RegisterPassword}
    {value : AccountAnswer} (hemail : input.email = email)
    (hreturned : s.Returned key (.createPasswordUser input) value) :
    s.store.control.passwordOf email = some input.passwordHash := by
  cases hs.stages key _ _ hreturned input rfl with
  | returned value _ hmine => exact hmine hemail
  | whole hp | attaching existing hp | creating hp | failed error hp => cases hp

/-- A step leaves the password alone and no registration of the address returns, or there was no
password before and one registration returns. -/
theorem step_effect {a : PoolAction} (hs : Claims email initial s) (hfree : Unclaimed email a s) :
    UsersKept s.store (AccountPool.step a s).store ∧
      (((AccountPool.step a s).store.control.passwordOf email = s.store.control.passwordOf email ∧
          ∀ k, Registered email (AccountPool.step a s) k → Registered email s k) ∨
        (s.store.control.passwordOf email = none ∧
          ∃ key, ∀ k, Registered email (AccountPool.step a s) k → k = key)) := by
  have hstep : Pool.Stepped accounts s a (AccountPool.step a s) := Pool.stepped a s
  generalize AccountPool.step a s = s' at hstep ⊢
  cases hstep with
  | same | event => exact ⟨fun u hu => ⟨u, hu, rfl, rfl⟩, .inl ⟨rfl, fun _ h => h⟩⟩
  | started hkey =>
      refine ⟨Std.Refl.refl _, .inl ⟨rfl, fun k h => (registered_setCall h).resolve_left ?_⟩⟩
      rintro ⟨-, input, value, -, rfl, hp⟩
      cases hp
  | failed hkey =>
      refine ⟨Std.Refl.refl _, .inl ⟨rfl, fun k h => (registered_setCall h).resolve_left ?_⟩⟩
      rintro ⟨-, input, value, -, -, hp⟩
      cases hp
  | @advanced key call effect next hkey =>
      by_cases hcall : ∃ input, call = .createPasswordUser input
      · obtain ⟨input, rfl⟩ := hcall
        have hregisters := registers_of_query (hs.stages key _ _ hkey input rfl)
          fun existing hp hemail => hfree key input existing rfl hemail (hp ▸ hkey)
        refine ⟨hregisters.users, hregisters.claims.imp ?_ ?_⟩
        · rintro ⟨hsame, hends⟩
          refine ⟨hsame, fun k h => (registered_setCall h).resolve_left ?_⟩
          rintro ⟨-, input', value, hemail, hinput, hp⟩
          obtain rfl := AccountCall.createPasswordUser.inj hinput
          exact hends value hp hemail
        · rintro ⟨-, hnone⟩
          refine ⟨hnone, key, fun k h => (registered_setCall h).elim And.left fun hk => ?_⟩
          -- whoever had returned before would have left a password
          obtain ⟨input', value, hemail, hreturned⟩ := hk
          cases hnone.symm.trans (hs.stored hemail hreturned)
      · have hothers := (moves_others (fun input h => hcall ⟨input, h⟩) email).left
          (hs.started key _ _ hkey)
        refine ⟨(hothers s.store).1.1, .inl ⟨(hothers s.store).1.2, fun k h =>
          (registered_setCall h).resolve_left ?_⟩⟩
        rintro ⟨-, input, value, -, rfl, -⟩
        exact hcall ⟨input, rfl⟩

theorem claims_step {a : PoolAction} (hs : Claims email initial s) (hfree : Unclaimed email a s) :
    Claims email initial (AccountPool.step a s) := by
  obtain ⟨husers, heffect⟩ := step_effect hs hfree
  have hpassword : (AccountPool.step a s).store.control.passwordOf email =
      s.store.control.passwordOf email ∨ s.store.control.passwordOf email = none :=
    heffect.imp And.left And.left
  refine ⟨hs.started.step, ?_, fun key key' h h' => ?_, fun hinitial => ?_⟩
  · refine Pool.threads_step hs.stages ?_ ?_ ?_ ?_
    · rintro key call ha input rfl
      exact .whole rfl
    · intro key call effect next ha hkey input hcall
      subst ha hcall
      exact (registers_of_query (hs.stages key _ _ hkey input rfl) fun existing hp hemail =>
        hfree key input existing rfl hemail (hp ▸ hkey)).stage
    · exact fun _ _ _ _ error _ _ _ => .failed error rfl
    · exact fun key call p _ hkey input hcall =>
        (hs.stages key _ _ hkey input hcall).mono husers hpassword
  · rcases heffect with ⟨-, hbefore⟩ | ⟨-, winner, hwins⟩
    · exact hs.one key key' (hbefore key h) (hbefore key' h')
    · exact (hwins key h).trans (hwins key' h').symm
  · obtain ⟨hstored, hnobody⟩ := hs.kept hinitial
    rcases heffect with ⟨hsame, hbefore⟩ | ⟨hnone, -⟩
    · exact ⟨by rwa [hsame], fun key h => hnobody key (hbefore key h)⟩
    · exact absurd hnone hstored

/-- In every run whose `UPDATE`s come upon no password, an address is registered once at most, and
the password stays that of the registration. -/
theorem one_password {actions : List PoolAction} {store : System} {email : String}
    (hrun : Trace.Each AccountPool.step (Unclaimed email) actions (.idle store)) :
    OnePassword email (store.control.passwordOf email)
      (Trace.exec AccountPool.step actions (.idle store)) := by
  have hidle : ∀ key, ¬ Registered email (.idle store) key := by
    rintro key ⟨input, value, -, hreturned⟩
    cases hreturned
  have hclaims := hrun.invariant (I := Claims email (store.control.passwordOf email))
    (fun _ _ hs hfree => claims_step hs hfree)
    ⟨Pool.started_idle store, Pool.threads_idle store, fun key _ h => absurd h (hidle key),
      fun h => ⟨h, hidle⟩⟩
  exact ⟨hclaims.one, fun h => (hclaims.kept h).2, fun _ _ _ => hclaims.stored⟩

end Runs

/-! ## Two registrations of Ann's -/

section Sample

attribute [local instance] Platform.sample

/-- A registration of Ann's. -/
def annRegisters (hash : String) : AccountCall := .createPasswordUser ⟨"ann@pool.org", hash, none⟩

/-- Ann has signed in with Google, and two registrations have found her row without a password. -/
def bothLooked : List PoolAction :=
  [.start 0 (.upsertUser ⟨"ann@pool.org", "google:ann", none⟩), .advance 0,
    .start 1 (annRegisters "first"), .start 2 (annRegisters "second"), .advance 1, .advance 2]

/-- The second registration fails. -/
theorem one_password_ann : OnePassword "ann@pool.org" none
    (Trace.exec AccountPool.step (bothLooked ++ [.advance 1, .fail 2 .notFound])
      (.idle (System.empty juneNoon))) := by
  have hlooked : Trace.Each AccountPool.step (Unclaimed "ann@pool.org") bothLooked
      (.idle (System.empty juneNoon)) :=
    ⟨fun _ _ _ _ _ _ => rfl, fun _ _ _ _ _ _ => rfl, fun _ _ _ _ _ _ => rfl,
      fun _ _ _ _ _ _ => rfl, fun _ _ _ _ _ _ => rfl, fun _ _ _ _ _ _ => rfl, trivial⟩
  have hrest : Trace.Each AccountPool.step (Unclaimed "ann@pool.org")
      [.advance 1, .fail 2 .notFound]
      (Trace.exec AccountPool.step bothLooked (.idle (System.empty juneNoon))) :=
    ⟨fun _ _ _ _ _ _ => rfl, fun _ _ _ hadvance => (by cases hadvance), trivial⟩
  exact one_password (Trace.each_append.mpr ⟨hlooked, hrest⟩)

/-- The second registration replaces the password of the first, and both return. -/
theorem two_passwords_ann : ¬ OnePassword "ann@pool.org" none
    (Trace.exec AccountPool.step (bothLooked ++ [.advance 1, .advance 2])
      (.idle (System.empty juneNoon))) := by
  intro h
  have hsame := h.one 1 2 ⟨_, _, rfl, rfl⟩ ⟨_, _, rfl, rfl⟩
  cases hsame

end Sample

end FirstPassword

end SharamLedger
