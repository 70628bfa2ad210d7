import SharamLedger.AcceptAlone
import SharamLedger.Gateway.Invites
import SharamLedger.Lib.Trace

/-!
# Inviting someone again

`create_invite` opens a revoked invite again. It takes the revocation off and sets the role, and
leaves the acceptance mark. So an invite that was accepted before its revocation is shown as
accepted at once, and the next sign-in does not report it; all other invites that the call returns
are pending.
-/

namespace SharamLedger

open Lib

namespace Reinvite

/-- A call of the ledger on invites, or a new clock reading. -/
inductive InviteAction where
  | createInvite (input : NewInvite)
  | revokeInvite (slug key : String)
  | deleteInvite (slug key : String)
  | acceptPendingInvites (email : String) (user : Nat)
  | wait (now : DateTime)

section Runs

variable [Platform]

/-- The state after an action, whether the call succeeds or fails. -/
def step : InviteAction → System → System
  | .createInvite input, s => ((createInvite input).run s).2
  | .revokeInvite slug key, s => ((revokeInvite slug key).run s).2
  | .deleteInvite slug key, s => ((deleteInvite slug key).run s).2
  | .acceptPendingInvites email user, s => ((acceptPendingInvites email user).run s).2
  | .wait now, s => s.setNow now

/-- Every stored invite has passed its assertions. -/
def Checked (s : System) : Prop := ∀ i ∈ s.control.invite.rows, i.row.check = .ok ()

/-- The invite is what the caller asked for: the one row of its tenant and address, with the role,
pending, and reported by the next sign-in of the address. -/
structure Renewed (input : NewInvite) (inv : InviteRecord) (s : System) : Prop where
  one : ∀ i, i ∈ s.control.invite.rows ∧ i.row.tenantSlug = input.tenantSlug ∧
    i.row.email = input.email ↔ i = inv
  role : inv.row.role = input.role
  revokedAt : inv.row.revokedAt = none
  acceptedAt : inv.row.acceptedAt = none
  status : inviteStatus inv = "pending"
  reported : ∀ user later, ∃ slugs s', (acceptPendingInvites input.email user).run
    (s.setNow later) = (.ok slugs, s') ∧ input.tenantSlug ∈ slugs

/-- No invite for the tenant and the address has been accepted. -/
def NeverAccepted (input : NewInvite) (s : System) : Prop :=
  ∀ i ∈ s.control.invite.rows, i.row.tenantSlug = input.tenantSlug →
    i.row.email = input.email → i.row.acceptedAt = none

/-! ## Stored invites stay checked -/

/-- The control plane may change so that checked invites stay checked. -/
def KeepsChecked (s s' : System) : Prop := Checked s → Checked s'

instance : Std.Refl KeepsChecked := ⟨fun _ h => h⟩

instance : IsTrans System KeepsChecked := ⟨fun _ _ _ h h' hs => h' (h hs)⟩

theorem keepsChecked_of_updateInvite {s : System} {c : Control} {sel : InviteRecord → Bool}
    {set : Invite → Invite} {answer : Option InviteRecord}
    (h : s.control.updateInvite sel set = .ok (answer, c)) :
    KeepsChecked s { s with control := c } := by
  intro hs i hi
  rcases Control.updateInvite_ok h with ⟨-, rfl⟩ | ⟨old, -, hcheck, -, hset⟩
  · exact hs i hi
  · rcases (hset.rows i).mp hi with rfl | ⟨hi, -⟩
    · exact hcheck
    · exact hs i hi

theorem moves_createInvite (input : NewInvite) : (createInvite input).Moves KeepsChecked := by
  refine .bind (moves_readControl _) fun found => ?_
  cases found with
  | none =>
      refine moves_onControl fun s r c h hs i hi => ?_
      obtain ⟨hcheck, -, -, -, -, -, -, -, -, hrows⟩ := Control.createInviteRow_ok h
      rcases (hrows i).mp hi with hi | rfl
      · exact hs i hi
      · exact hcheck
  | some old =>
      dsimp only
      split
      · exact Prog.moves_err _
      · exact .bind (moves_onControl fun s r c h => keepsChecked_of_updateInvite h) fun row =>
          Prog.moves_okOr _ row

theorem moves_revokeInvite (slug key : String) : (revokeInvite slug key).Moves KeepsChecked :=
  .bind (moves_onControl fun _ _ _ h => keepsChecked_of_updateInvite h) fun row =>
    Prog.moves_okOr _ row

theorem moves_deleteInvite (slug key : String) : (deleteInvite slug key).Moves KeepsChecked := by
  refine .bind (moves_onControl fun s deleted c h hs i hi => ?_) fun deleted =>
    Prog.moves_ensure _ _
  cases h
  exact hs i (Table.mem_delete.mp hi).1

theorem moves_acceptEach_checked (user : Nat) (l : List InviteRecord) :
    (acceptEach user l).Moves KeepsChecked := by
  induction l with
  | nil => exact Prog.moves_pure _
  | cons inv rest ih =>
      refine .bind (.bind (moves_onControl fun s m c h hs i hi => ?_) fun _ => ?_) fun _ =>
        .bind ih fun _ => Prog.moves_pure _
      · have hinvites : c.invite = s.control.invite := (Control.upsertMembership_ok h).invites
        exact hs i (hinvites ▸ hi)
      · split
        · exact Prog.moves_pure _
        · exact .bind (moves_onControl fun s r c h => keepsChecked_of_updateInvite h) fun _ =>
            Prog.moves_pure _

theorem checked_step (a : InviteAction) (s : System) (h : Checked s) : Checked (step a s) := by
  cases a with
  | createInvite input => exact (moves_createInvite input).run s h
  | revokeInvite slug key => exact (moves_revokeInvite slug key).run s h
  | deleteInvite slug key => exact (moves_deleteInvite slug key).run s h
  | acceptPendingInvites email user =>
      have hmoves : (acceptPendingInvites email user).Moves KeepsChecked :=
        .bind (moves_readControl _) fun pending => moves_acceptEach_checked user pending
      exact hmoves.run s h
  | wait now => exact h

/-! ## The next sign-in -/

/-- A sign-in reports every pending invite of its address. -/
theorem reported_of_pending {s : System} (h : Checked s) {i : InviteRecord}
    (hi : i ∈ s.control.invite.rows) (hpending : AcceptAlone.Pending i.row.email i) (user : Nat) :
    ∃ slugs s', (acceptPendingInvites i.row.email user).run s = (.ok slugs, s') ∧
      i.row.tenantSlug ∈ slugs := by
  obtain ⟨-, hopen, hfresh⟩ := hpending
  have hdistinct := s.control.openInvites_nodup i.row.email
  have hmem : ∀ x ∈ s.control.openInvites i.row.email, x ∈ s.control.invite.rows :=
    fun x hx => (Control.mem_openInvites.mp hx).1
  obtain ⟨slugs, s', hrun⟩ :=
    acceptEach_runs user hdistinct s fun x hx => ⟨hmem x hx, h x (hmem x hx)⟩
  have hmade := AcceptAlone.acceptEach_materialized hdistinct hmem hrun
  refine ⟨slugs, s', by rw [run_acceptPendingInvites, hrun], ?_⟩
  rw [hmade.slugs]
  refine List.mem_map.mpr ⟨i, List.mem_filter.mpr ⟨?_, by simp [hfresh]⟩, rfl⟩
  exact Control.mem_openInvites.mpr ⟨hi, rfl, hopen⟩

/-! ## The invite that comes back -/

omit [Platform] in
/-- The mark on the invite that comes back is the one that the old row had. -/
theorem unaccepted_iff (input : NewInvite) (s : System) :
    ((s.control.inviteFor input.tenantSlug input.email).bind fun old => old.row.acceptedAt) =
      none ↔ NeverAccepted input s := by
  constructor
  · intro h i hi hslug hemail
    rwa [Control.inviteFor_eq_some.mpr ⟨hi, hslug, hemail⟩] at h
  · intro hnever
    cases hfind : s.control.inviteFor input.tenantSlug input.email with
    | none => rfl
    | some old =>
        obtain ⟨hold, hslug, hemail⟩ := Control.inviteFor_eq_some.mp hfind
        exact hnever old hold hslug hemail

/-- An invite that the call returned without an acceptance mark is what the caller asked for. -/
theorem renewed_of_returned {input : NewInvite} {inv : InviteRecord} {c : Control} {s : System}
    (h : InviteReturned input c s.control inv) (hchecked : Checked s)
    (hfresh : inv.row.acceptedAt = none) : Renewed input inv s where
  one i := by
    constructor
    · rintro ⟨hi, hslug, hemail⟩
      exact Control.invite_eq hi h.mem (hslug.trans h.slug.symm) (hemail.trans h.email.symm)
    · rintro rfl
      exact ⟨h.mem, h.slug, h.email⟩
  role := h.role
  revokedAt := h.opened
  acceptedAt := hfresh
  status := by simp [inviteStatus, h.opened, hfresh]
  reported user later := by
    have hreport := reported_of_pending (s := s.setNow later) hchecked h.mem
      ⟨rfl, h.opened, hfresh⟩ user
    rwa [h.slug, h.email] at hreport

/-- In every state that any calls on invites lead to, from any store of checked invites. -/
theorem renewed_iff (actions : List InviteAction) (start : System) (hstart : Checked start)
    (input : NewInvite) (inv : InviteRecord) (s' : System)
    (h : (createInvite input).run (Trace.exec step actions start) = (.ok inv, s')) :
    Renewed input inv s' ↔ NeverAccepted input (Trace.exec step actions start) := by
  have hchecked : Checked (Trace.exec step actions start) :=
    Trace.exec_invariant checked_step actions hstart
  generalize Trace.exec step actions start = s at h hchecked
  have hreturned := createInvite_ok h
  have hafter := (moves_createInvite input).run s hchecked
  rw [h] at hafter
  rw [← unaccepted_iff, ← hreturned.accepted]
  exact ⟨Renewed.acceptedAt, renewed_of_returned hreturned hafter⟩

end Runs

/-! ## Bob is invited again -/

section Sample

attribute [local instance] Platform.sample

/-- An invite of Bob's by user 0. -/
def bobInvite (role : String) : NewInvite := ⟨"pool", "bob@pool.org", role, 0⟩

/-- The row of his first invite, with another role. -/
def bobRow (accepted : Option DateTime) : InviteRecord :=
  ⟨0, ⟨"pool", "bob@pool.org", "treasurer", 0, juneNoon, accepted, none⟩⟩

/-- He is invited, does something or other, and the invite is revoked. -/
def bobRevoked (between : List InviteAction) : System :=
  Trace.exec step
    (.createInvite (bobInvite "member") :: (between ++ [.revokeInvite "pool" "0"]))
    (System.empty juneNoon)

/-- Invited as treasurer before he has signed in, he has a pending invite. -/
theorem renewed_unaccepted : Renewed (bobInvite "treasurer") (bobRow none)
    ((createInvite (bobInvite "treasurer")).run (bobRevoked [])).2 := by
  have hstart : Checked (System.empty juneNoon) := by
    intro i hi
    cases hi
  refine (renewed_iff [.createInvite (bobInvite "member"), .revokeInvite "pool" "0"]
    (System.empty juneNoon) hstart _ (bobRow none) _ (Prod.ext ?_ rfl)).mpr ?_
  · decide +kernel
  · unfold NeverAccepted
    decide +kernel

/-- Invited again after he has accepted, he has an accepted invite, and his next sign-in reports
nothing. -/
theorem accepted_comes_back :
    ((createInvite (bobInvite "treasurer")).run
      (bobRevoked [.acceptPendingInvites "bob@pool.org" 1])).1 = .ok (bobRow (some juneNoon)) ∧
    inviteStatus (bobRow (some juneNoon)) = "accepted" ∧
    ((acceptPendingInvites "bob@pool.org" 1).run ((createInvite (bobInvite "treasurer")).run
      (bobRevoked [.acceptPendingInvites "bob@pool.org" 1])).2).1 = .ok [] ∧
    ¬ Renewed (bobInvite "treasurer") (bobRow (some juneNoon))
      ((createInvite (bobInvite "treasurer")).run
        (bobRevoked [.acceptPendingInvites "bob@pool.org" 1])).2 := by
  refine ⟨by decide +kernel, by decide, by decide +kernel, fun h => ?_⟩
  cases h.acceptedAt

end Sample

end Reinvite

end SharamLedger
