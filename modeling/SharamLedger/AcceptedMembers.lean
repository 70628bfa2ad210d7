import SharamLedger.Ledger.Calls
import SharamLedger.Sample

/-!
# Accepted invites and their memberships

An acceptance writes the membership before it marks the invite, so a call that stops half-way
leaves a membership without the mark and never a mark without the membership. That holds at every
point of every interleaving.
-/

namespace SharamLedger

open Lib

namespace AcceptedMembers

/-- Every accepted invite has its membership. -/
def Joined (c : Control) : Prop :=
  ∀ i ∈ c.invite.rows, i.row.acceptedAt.isSome = true →
    c.HasMembership i.row.email i.row.tenantSlug

instance (c : Control) : Decidable (Joined c) :=
  inferInstanceAs (Decidable (∀ i ∈ c.invite.rows, _ → _))

section Runs

/-- No query of a call separates a mark from its membership. -/
theorem joined_of_keeps {call : AccountCall} {c c' : Control} (h : Joined c)
    (hkeeps : Control.KeepsTo call c c') : Joined c' := by
  intro i' hi' haccepted'
  rcases hkeeps.accepted i' hi' haccepted' with hmember | ⟨i, hi, haccepted, hslug, hemail⟩
  · exact hmember
  · rw [← hslug, ← hemail]
    exact hkeeps.grows.hasMembership (h i hi haccepted)

variable [Platform]

theorem joined_step {a : PoolAction} {s : AccountPool} (hs : s.Guarded ∧ Joined s.store.control)
    (hstarts : AccountPool.Starts a s) :
    (AccountPool.step a s).Guarded ∧ Joined (AccountPool.step a s).store.control := by
  refine ⟨hs.1.step hstarts, ?_⟩
  rcases hs.1.effect a with hsame | ⟨_, _, _, _, _, _, _, hkeeps⟩
  · rw [hsame]
    exact hs.2
  · exact joined_of_keeps hs.2 hkeeps

/-- Whatever calls interleave, and whichever of their queries fail, every accepted invite has its
membership in every state reached. -/
theorem accepted_invites_have_memberships {actions : List PoolAction} {store : System}
    (hstore : Joined store.control)
    (hrun : Trace.Each AccountPool.step AccountPool.Starts actions (.idle store)) :
    Joined (Trace.exec AccountPool.step actions (.idle store)).store.control :=
  (hrun.invariant (I := fun s => AccountPool.Guarded s ∧ Joined s.store.control)
    (fun _ _ hs hstarts => joined_step hs hstarts) ⟨AccountPool.guarded_idle store, hstore⟩).2

end Runs

/-! ## An acceptance that stops half-way -/

section Sample

attribute [local instance] Platform.sample

/-- Bob's acceptance fails before it marks the invite, Ann revokes the invite and invites him
again, and a second acceptance marks it. -/
def stopsHalfway : List PoolAction :=
  [.start 0 (.acceptPendingInvites "bob@pool.org" 1), .advance 0, .advance 0, .fail 0 .notFound,
    .start 1 (.revokeInvite "pool" "0"), .advance 1,
    .start 2 (.createInvite ⟨"pool", "bob@pool.org", "treasurer", 0⟩), .advance 2, .advance 2,
    .start 3 (.acceptPendingInvites "bob@pool.org" 1), .advance 3, .advance 3, .advance 3]

theorem accepted_invites_have_memberships_bob :
    Joined (Trace.exec AccountPool.step stopsHalfway (.idle bobInvited)).store.control := by
  have hfirst : bobInvited.control.HasUser 1 "bob@pool.org" := by decide
  have hsecond : (Trace.exec AccountPool.step (stopsHalfway.take 9)
      (.idle bobInvited)).store.control.HasUser 1 "bob@pool.org" := by decide
  refine accepted_invites_have_memberships (by decide) ?_
  exact ⟨hfirst, trivial, trivial, trivial, trivial, trivial, trivial, trivial, trivial, hsecond,
    trivial, trivial, trivial, trivial⟩

end Sample

end AcceptedMembers

end SharamLedger
