import SharamLedger.Gateway.SignIn
import SharamLedger.Sample

/-!
# An acceptance on its own

`accept_pending_invites` on an arbitrary control plane, without another call in between. One pass
of the loop says what it does to the invites and the memberships, the loop adds its passes up, and
a second call finds nothing left to do.
-/

namespace SharamLedger

open Lib

namespace AcceptAlone

/-- The invite is for the address, and neither revoked nor accepted. -/
def Pending (email : String) (i : InviteRecord) : Prop :=
  i.row.email = email ∧ i.row.revokedAt = none ∧ i.row.acceptedAt = none

/-- The invite with an acceptance mark. -/
def accepted (now : DateTime) (i : InviteRecord) : InviteRecord :=
  ⟨i.id, { i.row with acceptedAt := some now }⟩

/-! ## The loop -/

/-- What the invites of a list were turned into. -/
structure Materialized (user : Nat) (l : List InviteRecord) (s : System) (slugs : List String)
    (s' : System) : Prop where
  slugs : slugs = (l.filter fun i => i.row.acceptedAt.isNone).map fun i => i.row.tenantSlug
  checked : ∀ i ∈ l, matchesSlug i.row.tenantSlug = true ∧ isRole i.row.role = true
  invites : ∀ x, x ∈ s'.control.invite.rows ↔
    (x ∈ s.control.invite.rows ∧ ¬ (x ∈ l ∧ x.row.acceptedAt = none)) ∨
      ∃ i ∈ l, i.row.acceptedAt = none ∧ x = accepted s.now i
  memberships : ∀ m : MembershipRecord,
    (∀ i ∈ l, ¬ (m.row.user = user ∧ m.row.tenantSlug = i.row.tenantSlug)) →
      (m ∈ s'.control.membership.rows ↔ m ∈ s.control.membership.rows)

section Runs

variable [Platform] {user : Nat} {s s' s'' : System} {slugs : List String}

omit [Platform] in
theorem materialized_nil : Materialized user [] s [] s := by
  refine ⟨rfl, ?_, ?_, fun _ _ => Iff.rfl⟩
  · simp
  · simp

omit [Platform] in
/-- One invite after the other. -/
theorem Materialized.cons {inv : InviteRecord} {rest : List InviteRecord} {others : List String}
    (hfirst : Materialized user [inv] s slugs s') (hnow : s'.now = s.now)
    (hrest : Materialized user rest s' others s'') :
    Materialized user (inv :: rest) s (slugs ++ others) s'' where
  slugs := by
    rw [hfirst.slugs, hrest.slugs, ← List.map_append, ← List.filter_append, List.singleton_append]
  checked i hi := by
    rcases List.mem_cons.mp hi with rfl | hi
    · exact hfirst.checked i (by simp)
    · exact hrest.checked i hi
  invites x := by
    rw [hrest.invites, hfirst.invites, hnow]
    have hmarked : (accepted s.now inv).row.acceptedAt ≠ none := by simp [accepted]
    constructor
    · rintro (⟨⟨hx, hfresh⟩ | ⟨i, hi, hnone, rfl⟩, hlater⟩ | ⟨i, hi, hnone, rfl⟩)
      · refine .inl ⟨hx, fun ⟨hmem, hnone⟩ => ?_⟩
        rcases List.mem_cons.mp hmem with rfl | hmem
        · exact hfresh ⟨by simp, hnone⟩
        · exact hlater ⟨hmem, hnone⟩
      · exact .inr ⟨i, List.mem_cons.mpr (.inl (List.mem_singleton.mp hi)), hnone, rfl⟩
      · exact .inr ⟨i, List.mem_cons_of_mem inv hi, hnone, rfl⟩
    · rintro (⟨hx, hfresh⟩ | ⟨i, hi, hnone, rfl⟩)
      · refine .inl ⟨.inl ⟨hx, fun ⟨hmem, hnone⟩ => ?_⟩, fun ⟨hmem, hnone⟩ => ?_⟩
        · exact hfresh ⟨List.mem_cons.mpr (.inl (List.mem_singleton.mp hmem)), hnone⟩
        · exact hfresh ⟨List.mem_cons_of_mem inv hmem, hnone⟩
      · rcases List.mem_cons.mp hi with rfl | hi
        · exact .inl ⟨.inr ⟨i, by simp, hnone, rfl⟩, fun ⟨_, hnone'⟩ => hmarked hnone'⟩
        · exact .inr ⟨i, hi, hnone, rfl⟩
  memberships m hm := by
    rw [hrest.memberships m fun i hi => hm i (List.mem_cons_of_mem inv hi)]
    exact hfirst.memberships m fun i hi =>
      hm i (List.mem_cons.mpr (.inl (List.mem_singleton.mp hi)))

/-- A pass that goes through. -/
theorem acceptOne_materialized {inv : InviteRecord} (hinv : inv ∈ s.control.invite.rows)
    (h : (acceptOne user inv).run s = (.ok slugs, s')) : Materialized user [inv] s slugs s' := by
  obtain ⟨m, c, hset, hend⟩ := acceptOne_ok h
  obtain ⟨huser, hslug, hrole, hcheck, hput⟩ := Control.upsertMembership_put hset
  have hchecked : ∀ i ∈ [inv], matchesSlug i.row.tenantSlug = true ∧ isRole i.row.role = true := by
    intro i hi
    obtain rfl := List.mem_singleton.mp hi
    rw [← hslug, ← hrole]
    exact Membership.check_ok hcheck
  have hmemberships : ∀ x : MembershipRecord,
      (∀ i ∈ [inv], ¬ (x.row.user = user ∧ x.row.tenantSlug = i.row.tenantSlug)) →
        (x ∈ c.membership.rows ↔ x ∈ s.control.membership.rows) := by
    intro x hx
    have hx := hx inv (by simp)
    rw [hput.rows, huser, hslug]
    constructor
    · rintro (rfl | ⟨hmem, -⟩)
      · exact absurd ⟨huser, hslug⟩ hx
      · exact hmem
    · exact fun hmem => .inr ⟨hmem, hx⟩
  rcases hend with ⟨haccepted, rfl, rfl⟩ | ⟨found, c', haccepted, hmark, rfl, rfl⟩
  · have hsome : inv.row.acceptedAt ≠ none := Option.isSome_iff_ne_none.mp haccepted
    refine ⟨by simp [hsome], hchecked, fun x => ?_, hmemberships⟩
    simp only [hput.invites, List.mem_singleton]
    constructor
    · intro hx
      exact .inl ⟨hx, fun hfresh => hsome (hfresh.1 ▸ hfresh.2)⟩
    · rintro (⟨hx, -⟩ | ⟨i, rfl, hnone, -⟩)
      · exact hx
      · exact absurd hnone hsome
  · have hwrote := Control.markAccepted_ok (hput.invites ▸ hinv) hmark
    refine ⟨by simp [haccepted], hchecked, fun x => ?_, fun x hx => ?_⟩
    · simp only [hwrote.rows, hput.invites, List.mem_singleton]
      constructor
      · rintro (rfl | ⟨hx, hne⟩)
        · exact .inr ⟨inv, rfl, haccepted, rfl⟩
        · exact .inl ⟨hx, fun hfresh => hne hfresh.1⟩
      · rintro (⟨hx, hfresh⟩ | ⟨i, rfl, -, rfl⟩)
        · exact .inr ⟨hx, fun heq => hfresh ⟨heq, heq ▸ haccepted⟩⟩
        · exact .inl rfl
    · simp only [hwrote.memberships]
      exact hmemberships x hx

/-- A loop that goes through. -/
theorem acceptEach_materialized {l : List InviteRecord} (hdistinct : l.Nodup)
    (hl : ∀ i ∈ l, i ∈ s.control.invite.rows) (h : (acceptEach user l).run s = (.ok slugs, s')) :
    Materialized user l s slugs s' := by
  induction l generalizing s slugs with
  | nil =>
      simp only [acceptEach, Prog.run_pure, Prod.mk.injEq, Except.ok.injEq] at h
      obtain ⟨rfl, rfl⟩ := h
      exact materialized_nil
  | cons inv rest ih =>
      obtain ⟨hfresh, hrest⟩ := List.nodup_cons.mp hdistinct
      obtain ⟨first, s₁, others, hone, hloop, rfl⟩ := acceptEach_cons_ok h
      have hfirst := acceptOne_materialized (hl inv (by simp)) hone
      have hmoved : Accepts user [inv] s ((acceptOne user inv).run s).2 :=
        (moves_acceptOne (List.mem_singleton_self inv)).run s
      rw [hone] at hmoved
      refine hfirst.cons hmoved.now (ih hrest (fun i hi => ?_) hloop)
      -- an invite later in the list is as it was
      refine (hfirst.invites i).mpr (.inl ⟨hl i (by simp [hi]), fun hmem => ?_⟩)
      rw [List.mem_singleton.mp hmem.1] at hi
      exact hfresh hi

/-- When every invite is accepted and gave its role, the loop does nothing. -/
theorem acceptEach_again {l : List InviteRecord}
    (haccepted : ∀ i ∈ l, i.row.acceptedAt.isSome = true)
    (hchecked : ∀ i ∈ l, matchesSlug i.row.tenantSlug = true ∧ isRole i.row.role = true)
    (hroles : ∀ i ∈ l, s.control.roleOf user i.row.tenantSlug = some i.row.role) :
    (acceptEach user l).run s = (.ok [], s) := by
  induction l with
  | nil => rfl
  | cons inv rest ih =>
      obtain ⟨hslug, hrole⟩ := hchecked inv (by simp)
      obtain ⟨m, hsame⟩ :=
        Control.upsertMembership_same s.now hslug hrole (hroles inv (by simp))
      have hone : (acceptOne user inv).run s = (.ok [], s) := by
        simp [acceptOne, hsame, haccepted inv (by simp)]
      have hrest := ih (fun i hi => haccepted i (by simp [hi]))
        (fun i hi => hchecked i (by simp [hi])) fun i hi => hroles i (by simp [hi])
      simp [acceptEach, hone, hrest]

/-! ## The whole call -/

/-- What a call that goes through reports and leaves behind. -/
structure Outcome (email : String) (user : Nat) (s : System) (slugs : List String) (s' : System) :
    Prop where
  once : slugs.Nodup
  reported : ∀ slug, slug ∈ slugs ↔
    ∃ i ∈ s.control.invite.rows, i.row.tenantSlug = slug ∧ Pending email i
  joined : ∀ i ∈ s'.control.invite.rows, i.row.email = email → i.row.revokedAt = none →
    i.row.acceptedAt.isSome = true ∧ ∃ m : MembershipRecord, m.row.role = i.row.role ∧
      ∀ x, (x ∈ s'.control.membership.rows ∧ x.row.user = user ∧
        x.row.tenantSlug = i.row.tenantSlug) ↔ x = m
  invites : ∀ x, x ∈ s'.control.invite.rows ↔
    (x ∈ s.control.invite.rows ∧ ¬ Pending email x) ∨
      ∃ i ∈ s.control.invite.rows, Pending email i ∧ x = accepted s.now i
  memberships : ∀ m : MembershipRecord,
    (∀ i ∈ s.control.invite.rows, i.row.email = email → i.row.revokedAt = none →
      ¬ (m.row.user = user ∧ m.row.tenantSlug = i.row.tenantSlug)) →
        (m ∈ s'.control.membership.rows ↔ m ∈ s.control.membership.rows)
  rest : s' = { s with control :=
    { s.control with invite := s'.control.invite, membership := s'.control.membership } }
  again : ∀ later, (acceptPendingInvites email user).run (s'.setNow later) =
    (.ok [], s'.setNow later)

omit [Platform] in
/-- The open invites afterwards are those from before, each with a mark. -/
theorem mem_openInvites_after {email : String}
    (h : Materialized user (s.control.openInvites email) s slugs s') {i : InviteRecord} :
    i ∈ s'.control.openInvites email ↔
      (i ∈ s.control.openInvites email ∧ i.row.acceptedAt.isSome = true) ∨
        ∃ old ∈ s.control.openInvites email, old.row.acceptedAt = none ∧
          i = accepted s.now old := by
  rw [Control.mem_openInvites, h.invites]
  constructor
  · rintro ⟨⟨hi, hfresh⟩ | hmarked, hemail, hopen⟩
    · have hmem := Control.mem_openInvites.mpr ⟨hi, hemail, hopen⟩
      refine .inl ⟨hmem, ?_⟩
      rw [Option.isSome_iff_ne_none]
      exact fun hnone => hfresh ⟨hmem, hnone⟩
    · exact .inr hmarked
  · rintro (⟨hi, hsome⟩ | ⟨old, hold, hnone, rfl⟩)
    · obtain ⟨hmem, hopen⟩ := Control.mem_openInvites.mp hi
      refine ⟨.inl ⟨hmem, fun ⟨_, hnone⟩ => ?_⟩, hopen⟩
      simp [hnone] at hsome
    · exact ⟨.inr ⟨old, hold, hnone, rfl⟩, (Control.mem_openInvites.mp hold).2⟩

/-- Whatever the control plane, the address and the user. -/
theorem accepts_alone (email : String) (user : Nat) (s s' : System) (slugs : List String)
    (h : (acceptPendingInvites email user).run s = (.ok slugs, s')) :
    Outcome email user s slugs s' := by
  rw [run_acceptPendingInvites] at h
  have hdistinct := Control.openInvites_distinct s.control email
  have hnodup := s.control.openInvites_nodup email
  have hmade := acceptEach_materialized hnodup (fun i hi => (Control.mem_openInvites.mp hi).1) h
  have hroles := acceptEach_roles hdistinct h
  have hframe := accepts_acceptEach user (s.control.openInvites email) s
  rw [h] at hframe
  -- every open invite afterwards has its mark, and names what one from before named
  have hafter : ∀ i ∈ s'.control.openInvites email, i.row.acceptedAt.isSome = true ∧
      ∃ old ∈ s.control.openInvites email, old.row.tenantSlug = i.row.tenantSlug ∧
        old.row.role = i.row.role := by
    intro i hi
    rcases (mem_openInvites_after hmade).mp hi with ⟨hold, hsome⟩ | ⟨old, hold, -, rfl⟩
    · exact ⟨hsome, i, hold, rfl, rfl⟩
    · exact ⟨rfl, old, hold, rfl, rfl⟩
  have hrole : ∀ i ∈ s'.control.openInvites email,
      s'.control.roleOf user i.row.tenantSlug = some i.row.role := by
    intro i hi
    obtain ⟨-, old, hold, hslug, hsame⟩ := hafter i hi
    rw [← hslug, ← hsame]
    exact hroles old hold
  refine ⟨?_, fun slug => ?_, fun i hi hemail hopen => ?_, fun x => ?_, fun m hm => ?_, ?_,
    fun later => ?_⟩
  · rw [hmade.slugs]
    exact List.pairwise_map.mpr (hdistinct.filter _)
  · simp only [hmade.slugs, List.mem_map, List.mem_filter, Control.mem_openInvites,
      Option.isNone_iff_eq_none, Pending]
    exact exists_congr fun i => by tauto
  · have hmem := Control.mem_openInvites.mpr ⟨hi, hemail, hopen⟩
    obtain ⟨m, hm, huser, hslug, hmrole⟩ := Control.roleOf_eq_some.mp (hrole i hmem)
    refine ⟨(hafter i hmem).1, m, hmrole, fun x => ⟨fun ⟨hx, hxuser, hxslug⟩ => ?_, ?_⟩⟩
    · exact Control.membership_eq hx hm (hxuser.trans huser.symm) (hxslug.trans hslug.symm)
    · rintro rfl
      exact ⟨hm, huser, hslug⟩
  · rw [hmade.invites]
    simp only [Control.mem_openInvites, Pending]
    refine or_congr (and_congr_right fun hx => not_congr ?_) (exists_congr fun i => ?_)
    · tauto
    · tauto
  · refine hmade.memberships m fun i hi => ?_
    obtain ⟨hmem, hemail, hopen⟩ := Control.mem_openInvites.mp hi
    exact hm i hmem hemail hopen
  · show s' = ⟨s.now, ⟨s.control.user, s'.control.invite, s'.control.membership,
      s.control.tenantDirectory⟩, s.namespaces, s.proofs, s.outbox⟩
    rw [← hframe.now, ← hframe.namespaces, ← hframe.proofs, ← hframe.outbox, ← hframe.users,
      ← hframe.directory]
  · rw [run_acceptPendingInvites]
    refine acceptEach_again (fun i hi => (hafter i hi).1) (fun i hi => ?_) hrole
    obtain ⟨-, old, hold, hslug, hsame⟩ := hafter i hi
    rw [← hslug, ← hsame]
    exact hmade.checked old hold

end Runs

/-! ## Bob signs in -/

section Sample

attribute [local instance] Platform.sample

/-- Bob's invite to the pool is open. -/
theorem accepts_alone_bob : Outcome "bob@pool.org" 1 bobInvited ["pool"]
    ((acceptPendingInvites "bob@pool.org" 1).run bobInvited).2 := by
  refine accepts_alone "bob@pool.org" 1 bobInvited _ ["pool"] (Prod.ext ?_ rfl)
  decide

end Sample

end AcceptAlone

end SharamLedger
