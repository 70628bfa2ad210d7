import SharamLedger.Ledger.Calls
import SharamLedger.Sample

/-!
# Memberships after a revocation

An acceptance reads the open invites once and then writes their memberships one by one. A
revocation or deletion that returns in between does not stop it. When no acceptance of the invitee
is that far, nobody becomes a member by the closed invite any more.
-/

namespace SharamLedger

open Lib

namespace LateMembership

/-- The tenant has no open invite for the address. -/
def Closed (slug email : String) (c : Control) : Prop :=
  ∀ i ∈ c.invite.rows, i.row.tenantSlug = slug → i.row.email = email → i.row.revokedAt.isSome = true

/-- The role of the user in the tenant is the same in both states. -/
def SameRole (user : Nat) (slug : String) (s s' : System) : Prop :=
  s'.control.roleOf user slug = s.control.roleOf user slug

section Runs

variable [Platform]

/-- The step makes a revocation or deletion of the tenant's invite for the address return. -/
def Closes (slug email : String) (a : PoolAction) (s : AccountPool) : Prop :=
  ∃ i ∈ s.store.control.invite.rows, i.row.tenantSlug = slug ∧ i.row.email = email ∧
    ∃ call value, (call = .revokeInvite slug (toString i.id) ∨
      call = .deleteInvite slug (toString i.id)) ∧ Pool.Returns accounts a s call value

/-- The step makes no `create_invite` for the tenant and the address return. -/
def NotReinvited (slug email : String) (a : PoolAction) (s : AccountPool) : Prop :=
  ∀ input value, input.tenantSlug = slug → input.email = email →
    ¬ Pool.Returns accounts a s (.createInvite input) value

/-- Once a revocation or deletion of an invite has returned, its invitee, if not a member by then,
does not become one, unless a later `create_invite` for the tenant and the address returns. -/
def NoLateMembership (actions : List PoolAction) (store : System) : Prop :=
  ∀ earlier a later, actions = earlier ++ a :: later →
    ∀ slug email, Closes slug email a (Trace.exec AccountPool.step earlier (.idle store)) →
    ∀ u ∈ (Trace.exec AccountPool.step actions (.idle store)).store.control.user.rows,
      u.row.email = email →
    (Trace.exec AccountPool.step (earlier ++ [a]) (.idle store)).store.control.roleOf u.id slug =
      none →
    Trace.Each AccountPool.step (NotReinvited slug email) later
      (Trace.exec AccountPool.step (earlier ++ [a]) (.idle store)) →
    (Trace.exec AccountPool.step actions (.idle store)).store.control.roleOf u.id slug = none

/-- When a revocation or deletion returns, every acceptance of the invitee in flight, if the
invitee is not a member, has yet to read the open invites, or writes no more membership in the
tenant. -/
def InTime (a : PoolAction) (s : AccountPool) : Prop :=
  ∀ slug email, Closes slug email a s →
    ∀ key user p, s.calls key = some (.acceptPendingInvites email user, p) →
      s.store.control.roleOf user slug = none →
      p = accountProgram (.acceptPendingInvites email user) ∨ p.Moves (SameRole user slug)

/-! ## The queries of a call -/

/-- An acceptance reads the open invites and then goes through them. -/
theorem accountProgram_accept (email : String) (user : Nat) :
    accountProgram (.acceptPendingInvites email user) = .query id fun s =>
      acceptEach user (s.control.openInvites email) >>= fun slugs => pure (.accepted slugs) :=
  rfl

/-- The loop gives no role in a tenant that none of the invites names. -/
theorem moves_acceptEach_sameRole {user : Nat} {slug : String} {l : List InviteRecord}
    (hl : ∀ inv ∈ l, inv.row.tenantSlug ≠ slug) :
    (acceptEach user l).Moves (SameRole user slug) := by
  refine (moves_acceptEach l fun _ h => h).imp fun s s' haccepts => ?_
  rcases haccepts.mine slug with hsame | ⟨inv, hinv, hslug, -⟩
  · exact hsame
  · exact absurd hslug (hl inv hinv)

/-- `create_invite` opens an invite with the query it returns from. -/
theorem createInvite_opens_last (input : NewInvite) :
    (accountProgram (.createInvite input)).MovesOrReturns fun s s' =>
      ∀ slug email, Closed slug email s.control → Closed slug email s'.control := by
  have hrefl : Std.Refl fun s s' : System =>
      ∀ slug email, Closed slug email s.control → Closed slug email s'.control :=
    ⟨fun _ _ _ h => h⟩
  simp only [accountProgram, createInvite, Prog.bind_assoc]
  refine Prog.movesOrReturns_read fun found => ?_
  cases found with
  | none => exact movesOrReturns_onControl fun s row c _ => ⟨.inr ⟨.invite row, rfl⟩, trivial⟩
  | some rec =>
      dsimp only
      split
      · trivial
      · rw [Prog.bind_assoc]
        refine movesOrReturns_onControl fun s row c hset => ?_
        rcases Control.updateInvite_ok hset with ⟨rfl, rfl⟩ | ⟨i, -, -, rfl, -⟩
        · exact ⟨.inl (hrefl.refl s), trivial⟩
        · exact ⟨.inr ⟨_, rfl⟩, trivial⟩

/-- A revocation and a deletion issue one query. -/
theorem closing_left {call : AccountCall} {slug key : String}
    (hcall : call = .revokeInvite slug key ∨ call = .deleteInvite slug key)
    {effect : System → System} {next : System → LedgerProg AccountAnswer}
    (hleft : (accountProgram call).Left (.query effect next)) :
    accountProgram call = .query effect next := by
  rcases hcall with rfl | rfl
  · simp only [accountProgram, revokeInvite, Prog.bind_assoc] at hleft ⊢
    refine (left_onControl (fun row => ?_) hleft).elim Eq.symm fun h => absurd rfl (h _ _)
    cases row <;> exact fun _ _ h => by cases h
  · simp only [accountProgram, deleteInvite, Prog.bind_assoc] at hleft ⊢
    refine (left_onControl (fun rows => ?_) hleft).elim Eq.symm fun h => absurd rfl (h _ _)
    cases rows <;> exact fun _ _ h => by cases h

/-- When they return, the invite is closed. -/
theorem closed_of_run {call : AccountCall} {slug email key : String} {s s' : System}
    {i : InviteRecord} {value : AccountAnswer} (hi : i ∈ s.control.invite.rows)
    (hslug : i.row.tenantSlug = slug) (hemail : i.row.email = email) (hkey : toString i.id = key)
    (hcall : call = .revokeInvite slug key ∨ call = .deleteInvite slug key)
    (hrun : (accountProgram call).run s = (.ok value, s')) : Closed slug email s'.control := by
  subst hslug hemail
  have hone : ∀ x ∈ s.control.invite.rows, toString x.id = key → x = i := fun x hx hx' =>
    Table.eq_of_id_eq hx hi (Decimal.eq_of_toString_eq (hx'.trans hkey.symm))
  rcases hcall with rfl | rfl
  · cases hset : s.control.revokeInviteRow i.row.tenantSlug key s.now with
    | error e => simp [accountProgram, revokeInvite, hset] at hrun
    | ok answer =>
        obtain ⟨row, c⟩ := answer
        rcases Control.updateInvite_ok hset with ⟨rfl, -⟩ | ⟨x, hsel, -, rfl, hwrote⟩
        · simp [accountProgram, revokeInvite, hset] at hrun
        · simp only [Bool.and_eq_true, beq_iff_eq] at hsel
          obtain rfl := hone x hwrote.mem hsel.1.1
          simp only [accountProgram, revokeInvite, Prog.run_bind, run_onControl, hset,
            Prog.run_okOr, Prog.run_pure, Prod.mk.injEq] at hrun
          rw [← hrun.2]
          intro y hy hyslug hyemail
          rcases (hwrote.rows y).mp hy with rfl | ⟨hy, hne⟩
          · rfl
          · exact absurd (Control.invite_eq hy hi hyslug hyemail) hne
  · obtain ⟨rows, c, hset⟩ : ∃ rows c, s.control.deleteInviteRow i.row.tenantSlug key s.now =
        .ok (rows, c) := ⟨_, _, rfl⟩
    cases rows with
    | nil => simp [accountProgram, deleteInvite, hset] at hrun
    | cons x rest =>
        simp only [accountProgram, deleteInvite, Prog.run_bind, run_onControl, hset,
          Prog.run_ensure, Prog.run_pure, List.isEmpty_cons, Bool.not_false, if_true,
          Prod.mk.injEq] at hrun
        rw [← hrun.2]
        simp only [Control.deleteInviteRow, Except.ok.injEq, Prod.mk.injEq] at hset
        obtain ⟨hrows, rfl⟩ := hset
        obtain ⟨hx, hsel⟩ := Table.mem_select.mp (hrows ▸ List.mem_cons_self)
        intro y hy hyslug hyemail
        obtain ⟨hy, hkept⟩ := Table.mem_delete.mp hy
        obtain rfl := Control.invite_eq hy hi hyslug hyemail
        rw [hone x hx ?_, hkept] at hsel
        · cases hsel
        · simp only [Bool.and_eq_true, beq_iff_eq] at hsel
          exact hsel.1.1

/-! ## After the return -/

/-- No acceptance of the user gives them a role in the tenant, as its invite for the address is
closed. -/
structure Quiet (slug email : String) (user : Nat) (s : AccountPool) : Prop where
  sound : s.Sound
  closed : Closed slug email s.store.control
  role : s.store.control.roleOf user slug = none
  accepts : Pool.Threads (fun call p _ => call = .acceptPendingInvites email user →
    p = accountProgram call ∨ p.Moves (SameRole user slug)) s

/-- A state is quiet right after the invite was closed. -/
theorem quiet_of_closes {slug email : String} {user : Nat} {a : PoolAction} {s : AccountPool}
    (hs : s.Sound) (hstarts : AccountPool.Starts a s) (hintime : InTime a s)
    (hcloses : Closes slug email a s)
    (hrole : (AccountPool.step a s).store.control.roleOf user slug = none) :
    Quiet slug email user (AccountPool.step a s) := by
  obtain ⟨i, hi, hslug, hemail, call, value, hcall, hreturns⟩ := id hcloses
  obtain ⟨key, effect, next, rfl, hkey, hnext, hstore⟩ := hreturns.query fun _ h => by
    rcases hcall with rfl | rfl <;> cases h
  have hprogram := closing_left hcall (hs.started key call _ hkey)
  have hrun : (accountProgram call).run s.store = (.ok value, effect s.store) := by
    rw [hprogram, Prog.run, hnext, Prog.run_ok]
  have hroles : (effect s.store).control.roleOf user slug = s.store.control.roleOf user slug := by
    refine ((Pool.Guarded.guarantee hs.guarded hkey).roles user slug).resolve_right fun h => ?_
    rcases hcall with rfl | rfl <;> exact h
  refine ⟨hs.step hstarts, ?_, hrole, ?_⟩
  · rw [hstore]
    exact closed_of_run hi hslug hemail rfl hcall hrun
  · have haccepts : Pool.Threads (fun call p _ => call = .acceptPendingInvites email user →
        p = accountProgram call ∨ p.Moves (SameRole user slug)) s := by
      intro k c p hk hc
      subst hc
      exact hintime slug email hcloses k user p hk (by rw [← hroles, ← hstore, hrole])
    refine Pool.threads_step haccepts (fun _ _ ha => by cases ha) (fun k c _ _ ha hk hc => ?_)
      (fun _ _ _ _ _ _ _ => .inr trivial) fun k c p _ hk => haccepts k c p hk
    -- the call that advances is the one that closes the invite
    obtain rfl := Pool.Action.advance.inj ha
    obtain ⟨rfl, -⟩ := Prod.mk.inj (Option.some.inj (hkey.symm.trans hk))
    rcases hcall with rfl | rfl <;> cases hc

/-- The invite stays closed unless an invite creation opens it again. -/
theorem Quiet.closed_step {slug email : String} {user : Nat} {a : PoolAction} {s : AccountPool}
    (hs : Quiet slug email user s) (hnot : NotReinvited slug email a s) :
    Closed slug email (AccountPool.step a s).store.control := by
  rcases hs.sound.guarded.effect a with
    hsame | ⟨key, call, effect, next, rfl, hkey, hstore, hkeeps⟩
  · rw [hsame]
    exact hs.closed
  · intro i' hi' hslug hemail
    by_contra hopen
    rw [Option.not_isSome_iff_eq_none] at hopen
    rcases hkeeps.opens i' hi' hopen with hinvites | ⟨i, hi, hi'', hslug', hemail'⟩
    · cases call with
      | createInvite input =>
          have hlast := (createInvite_opens_last input).left (hs.sound.started key _ _ hkey)
          rcases (hlast s.store).1 with hkept | ⟨value, hnext⟩
          · rw [hstore] at hi'
            have hrevoked := hkept slug email hs.closed i' hi' hslug hemail
            simp [hopen] at hrevoked
          · exact hnot input value (hinvites.1.trans hslug) (hinvites.2.trans hemail)
              (Pool.returns_of_query hkey hnext)
      | _ => exact hinvites
    · have hrevoked := hs.closed i hi (hslug'.trans hslug) (hemail'.trans hemail)
      simp [hi''] at hrevoked

/-- No query gives the user a role: an acceptance reads that the invite is closed, or leaves the
role alone. -/
theorem Quiet.role_step {slug email : String} {user : Nat} {a : PoolAction} {s : AccountPool}
    (hs : Quiet slug email user s)
    (huser : ∀ email', (AccountPool.step a s).store.control.HasUser user email' →
      email' = email) : (AccountPool.step a s).store.control.roleOf user slug = none := by
  rcases hs.sound.guarded.effect a with
    hsame | ⟨key, call, effect, next, rfl, hkey, hstore, hkeeps⟩
  · rw [hsame]
    exact hs.role
  · rcases hkeeps.roles user slug with hsame | haccepts
    · exact hsame.trans hs.role
    · cases call with
      | acceptPendingInvites email' userId =>
          obtain rfl : userId = user := haccepts
          obtain rfl := huser email'
            (Control.Grows.hasUser hs.sound.guarded.grows (hs.sound.users key _ _ hkey))
          rw [hstore]
          rcases hs.accepts key _ _ hkey rfl with hprogram | hmoves
          · -- the query that reads the open invites
            rw [accountProgram_accept] at hprogram
            obtain ⟨rfl, -⟩ := Prog.query.inj hprogram
            exact hs.role
          · exact (hmoves s.store).1.trans hs.role
      | _ => exact haccepts.elim

/-- What an acceptance reads while the invite is closed leaves out the tenant. -/
theorem Quiet.accepts_step {slug email : String} {user : Nat} {a : PoolAction} {s : AccountPool}
    (hs : Quiet slug email user s) :
    Pool.Threads (fun call p _ => call = .acceptPendingInvites email user →
      p = accountProgram call ∨ p.Moves (SameRole user slug)) (AccountPool.step a s) := by
  refine Pool.threads_step hs.accepts (fun _ _ _ _ => .inl rfl) (fun key call _ _ _ hkey hc => ?_)
    (fun _ _ _ _ _ _ _ => .inr trivial) fun key call p _ hkey => hs.accepts key call p hkey
  subst hc
  right
  rcases hs.accepts key _ _ hkey rfl with hprogram | hmoves
  · rw [accountProgram_accept] at hprogram
    obtain ⟨-, rfl⟩ := Prog.query.inj hprogram
    refine .bind (moves_acceptEach_sameRole fun inv hinv hslug => ?_) fun _ => Prog.moves_pure _
    -- an invite that was read is open, and the tenant's is not
    obtain ⟨hinv, hemail, hopen⟩ := Control.mem_openInvites.mp hinv
    have hrevoked := hs.closed inv hinv hslug hemail
    simp [hopen] at hrevoked
  · exact (hmoves s.store).2

/-- As long as the invite is not opened again, nothing disturbs the quiet. -/
theorem quiet_step {slug email : String} {user : Nat} {a : PoolAction} {s : AccountPool}
    (hs : Quiet slug email user s) (hstarts : AccountPool.Starts a s)
    (hnot : NotReinvited slug email a s)
    (huser : ∀ email', (AccountPool.step a s).store.control.HasUser user email' →
      email' = email) : Quiet slug email user (AccountPool.step a s) where
  sound := hs.sound.step hstarts
  closed := hs.closed_step hnot
  role := hs.role_step huser
  accepts := hs.accepts_step

/-- In every run in which invites are revoked and deleted in time, no membership comes late. -/
theorem no_late_membership {actions : List PoolAction} {store : System}
    (hrun : Trace.Each AccountPool.step (fun a s => AccountPool.Starts a s ∧ InTime a s) actions
      (.idle store)) : NoLateMembership actions store := by
  rintro earlier a later rfl slug email hcloses u hu hemail hrole hnot
  obtain ⟨hearlier, hlast, hlater⟩ := Trace.each_append.mp hrun
  simp only [Trace.exec_append] at hu hrole hnot ⊢
  have hsound := hearlier.invariant (I := AccountPool.Sound) (fun _ _ hs h => hs.step h.1)
    (AccountPool.sound_idle store)
  have hquiet := quiet_of_closes hsound hlast.1 hlast.2 hcloses hrole
  -- whoever has the key of the user on the way has their address in the end
  have hgrows := ((hlater.and hnot).with_invariant (I := AccountPool.Sound)
    (fun _ _ hs h => hs.step h.1.1) hquiet.sound).relates_end (R := AccountPool.Grows)
    fun a s h => h.2.guarded.grows
  refine (hgrows.invariant (I := Quiet slug email u.id) (fun a s hs h => ?_) hquiet).role
  refine quiet_step hs h.1.1.1.1 h.1.1.2 fun email' huser => ?_
  obtain ⟨u', hu', hid, rfl⟩ := Control.Grows.hasUser h.2 huser
  rw [← hemail, Table.eq_of_id_eq hu' hu hid]

end Runs

/-! ## Bob's invite -/

section Sample

attribute [local instance] Platform.sample

/-- Ann revokes Bob's invite before his acceptance reads it. -/
def revokedInTime : List PoolAction :=
  [.start 0 (.acceptPendingInvites "bob@pool.org" 1), .start 1 (.revokeInvite "pool" "0"),
    .advance 1, .advance 0]

/-- Every acceptance in flight has yet to read the open invites. -/
def Unread (s : AccountPool) : Prop :=
  ∀ key email user p, s.calls key = some (.acceptPendingInvites email user, p) →
    p = accountProgram (.acceptPendingInvites email user)

theorem inTime_of_unread {a : PoolAction} {s : AccountPool} (h : Unread s) : InTime a s :=
  fun _ email _ key user p hkey _ => .inl (h key email user p hkey)

/-- A call that is not an acceptance, or one that has just started, leaves the others unread. -/
theorem unread_setCall {s : AccountPool} {key : Nat}
    {entry : AccountCall × LedgerProg AccountAnswer} {store : System} (hs : Unread s)
    (hentry : ∀ email user,
      entry.1 = .acceptPendingInvites email user → entry.2 = accountProgram entry.1) :
    Unread { s.setCall key entry with store := store } := by
  intro k email user p hk
  rcases Pool.State.calls_setCall_cases hk with ⟨-, rfl⟩ | ⟨-, hk⟩
  · exact hentry email user rfl
  · exact hs k email user p hk

theorem no_late_membership_bob : NoLateMembership revokedInTime bobInvited := by
  have huser : bobInvited.control.HasUser 1 "bob@pool.org" := by decide
  have hidle : Unread (.idle bobInvited) := fun _ _ _ _ h => by cases h
  have hstarted : Unread (Trace.exec AccountPool.step (revokedInTime.take 1) (.idle bobInvited)) :=
    unread_setCall hidle fun _ _ _ => rfl
  have hrevoking : Unread (Trace.exec AccountPool.step (revokedInTime.take 2) (.idle bobInvited)) :=
    unread_setCall hstarted fun _ _ _ => rfl
  have hrevoked : Unread (Trace.exec AccountPool.step (revokedInTime.take 3) (.idle bobInvited)) :=
    unread_setCall hrevoking fun _ _ h => by cases h
  exact no_late_membership ⟨⟨huser, inTime_of_unread hidle⟩, ⟨trivial, inTime_of_unread hstarted⟩,
    ⟨trivial, inTime_of_unread hrevoking⟩, ⟨trivial, inTime_of_unread hrevoked⟩, trivial⟩

/-- Bob's acceptance has read the invite when Ann revokes it, and makes him a member afterwards. -/
theorem late_membership_bob :
    ¬ NoLateMembership [.start 0 (.acceptPendingInvites "bob@pool.org" 1), .advance 0,
      .start 1 (.revokeInvite "pool" "0"), .advance 1, .advance 0] bobInvited := by
  intro h
  have hbob := h [.start 0 (.acceptPendingInvites "bob@pool.org" 1), .advance 0,
      .start 1 (.revokeInvite "pool" "0")] (.advance 1) [.advance 0] rfl "pool" "bob@pool.org"
    ⟨⟨0, ⟨"pool", "bob@pool.org", "member", 0, juneNoon, none, none⟩⟩, by decide, rfl, rfl, _, _,
      .inl rfl, Pool.returns_of_query rfl rfl⟩
    ⟨1, ⟨"bob@pool.org", some "google:bob@pool.org", none, none, "UTC", juneNoon⟩⟩ (by decide) rfl
    (by decide) ⟨fun input value _ _ hreturns => ?_, trivial⟩
  · revert hbob
    decide
  · -- the step that follows is a query of the acceptance
    obtain ⟨key, effect, next, hadvance, hkey, -⟩ := hreturns.query fun _ h => by cases h
    obtain rfl := Pool.Action.advance.inj hadvance
    cases hkey

end Sample

end LateMembership

end SharamLedger
