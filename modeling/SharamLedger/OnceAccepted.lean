import Mathlib.Logic.Function.Basic
import SharamLedger.AcceptAlone
import SharamLedger.Lib.Pool

/-!
# Sign-ins of one address at once

Calls of `accept_pending_invites` for one address, interleaved query by query. Two calls whose
`SELECT` finds the same pending invite both mark it: the second one moves its timestamp, and both
report it. As long as no call selects while another has an invite left to mark, every pending
invite is marked once and reported by one call.
-/

namespace SharamLedger

open Lib AcceptAlone

namespace OnceAccepted

section Calls

variable [Platform] (email : String)

/-- The service of these calls, each for the user it is given. -/
def acceptances : Pool.Service System LedgerError Nat DateTime (List String) where
  program user := acceptPendingInvites email user
  world now s := s.setNow now

abbrev AcceptPool := Pool.State System LedgerError Nat (List String)

abbrev AcceptAction := Pool.Action LedgerError Nat DateTime

abbrev step (a : AcceptAction) (x : AcceptPool) : AcceptPool := Pool.step (acceptances email) a x

/-- The loop once it has reported `acc`. -/
def collect (user : Nat) (acc : List String) (left : List InviteRecord) :
    LedgerProg (List String) := do
  let slugs ← acceptEach user left
  return acc ++ slugs

/-- The loop when it is about to mark `inv`. -/
def mark (user : Nat) (acc : List String) (inv : InviteRecord) (left : List InviteRecord) :
    LedgerProg (List String) := do
  let _ ← onControl DbError.plain (Control.markAccepted inv.id)
  collect user (acc ++ [inv.row.tenantSlug]) left

omit [Platform] in
/-- How far a call has come. -/
inductive Progress where
  | idle
  | started (user : Nat)
  | collecting (user : Nat) (acc : List String) (left : List InviteRecord)
  | marking (user : Nat) (acc : List String) (inv : InviteRecord) (left : List InviteRecord)
  | failed (user : Nat) (error : LedgerError)

namespace Progress

/-- What is left of the call. -/
def call : Progress → Option (Nat × LedgerProg (List String))
  | idle => none
  | started user => some (user, acceptPendingInvites email user)
  | collecting user acc left => some (user, collect user acc left)
  | marking user acc inv left => some (user, mark user acc inv left)
  | failed user error => some (user, .err error)

omit [Platform] in
/-- The tenants whose invite it has marked. -/
def reported : Progress → List String
  | collecting _ acc _ => acc
  | marking _ acc _ _ => acc
  | _ => []

omit [Platform] in
/-- The invites it is still to mark. -/
def held : Progress → List InviteRecord
  | collecting _ _ left => left.filter fun i => i.row.acceptedAt.isNone
  | marking _ _ inv left => inv :: left.filter fun i => i.row.acceptedAt.isNone
  | _ => []

omit [Platform] in
/-- The user and the invites whose membership is still to be set, once it has selected them. -/
def selected : Progress → Option (Nat × List InviteRecord)
  | collecting user _ left => some (user, left)
  | marking user _ _ left => some (user, left)
  | _ => none

end Progress

/-- No call selects while another has an invite left to mark, and no query fails of a call that
has marked one. -/
def InTurn : AcceptAction → AcceptPool → Prop
  | .advance key, x => (∃ user, x.calls key = some (user, acceptPendingInvites email user)) →
      ∀ k g, k ≠ key → x.calls k = Progress.call email g → g.held = []
  | .fail key _, x => ∀ g, x.calls key = Progress.call email g → g.reported = []
  | _, _ => True

/-- Every call that was started has ended. -/
def Ended (x : AcceptPool) : Prop :=
  ∀ key user effect next, x.calls key ≠ some (user, .query effect next)

/-- The step is the `UPDATE` that marks the invite. -/
def Marks (i : InviteRecord) (a : AcceptAction) (x : AcceptPool) : Prop :=
  ∃ key user next, a = .advance key ∧
    x.calls key = some (user, onControl DbError.plain (Control.markAccepted i.id) >>= next)

/-- What a run from `store` leaves behind once its calls have ended. -/
structure Settled (actions : List AcceptAction) (store : System) : Prop where
  reported : ∀ i ∈ store.control.invite.rows, Pending email i → ∃! key, ∃ user slugs,
    (Trace.exec (step email) actions (.idle store)).Returned key user slugs ∧
      i.row.tenantSlug ∈ slugs
  once : ∀ key user slugs,
    (Trace.exec (step email) actions (.idle store)).Returned key user slugs → slugs.Nodup
  written : ∀ i ∈ store.control.invite.rows, Pending email i → ∃! earlier,
    Trace.TakesAfter (step email) (Marks i) actions (.idle store) earlier
  stamped : ∀ i ∈ store.control.invite.rows, Pending email i → ∀ earlier,
    Trace.TakesAfter (step email) (Marks i) actions (.idle store) earlier →
      accepted (Trace.exec (step email) earlier (.idle store)).store.now i ∈
        (Trace.exec (step email) actions (.idle store)).store.control.invite.rows
  joined : ∀ key user slugs,
    (Trace.exec (step email) actions (.idle store)).Returned key user slugs →
      ∀ i ∈ store.control.invite.rows, i.row.email = email → i.row.revokedAt = none →
        ∃! m, m ∈ (Trace.exec (step email) actions (.idle store)).store.control.membership.rows ∧
          m.row.user = user ∧ m.row.tenantSlug = i.row.tenantSlug

/-! ## The queries of a call -/

theorem acceptPendingInvites_eq (user : Nat) :
    acceptPendingInvites email user =
      .query id fun s => collect user [] (s.control.openInvites email) := by
  refine congrArg (Prog.query id) (funext fun s => ?_)
  show acceptEach user (s.control.openInvites email) =
    acceptEach user (s.control.openInvites email) >>= fun slugs => .ok slugs
  exact (Prog.bind_ok _).symm

theorem collect_nil (user : Nat) (acc : List String) : collect user acc [] = .ok acc :=
  congrArg Prog.ok (List.append_nil acc)

theorem collect_cons (user : Nat) (acc : List String) (inv : InviteRecord)
    (rest : List InviteRecord) : collect user acc (inv :: rest) =
      onControl mapDbError (Control.upsertMembership user inv.row.tenantSlug inv.row.role) >>=
        fun _ => if inv.row.acceptedAt.isSome then collect user acc rest
          else mark user acc inv rest := by
  simp only [collect, acceptEach, acceptOne, Prog.bind_assoc]
  refine congrArg (_ >>= ·) (funext fun _ => ?_)
  split
  · rfl
  · simp only [mark, collect, Prog.bind_assoc, List.append_assoc]
    rfl

/-! ## Where the calls stand -/

/-- No user loses a role. -/
def RolesKept (s s' : System) : Prop :=
  ∀ user slug role, s.control.roleOf user slug = some role →
    ∃ role, s'.control.roleOf user slug = some role

/-- What holds of one call in the state `s` of a run from `store`. -/
structure Progress.Fits (store s : System) (g : Progress) : Prop where
  pending : ∀ i ∈ g.held, i ∈ s.control.invite.rows ∧ Pending email i
  once : g.held.Nodup
  distinct : g.reported.Nodup
  checked : ∀ user left, g.selected = some (user, left) → ∀ i ∈ left, i.row.check = .ok ()
  covered : ∀ user left, g.selected = some (user, left) →
    ∀ i ∈ s.control.invite.rows, Pending email i → i ∈ g.held
  joined : ∀ user left, g.selected = some (user, left) → ∀ i ∈ store.control.openInvites email,
    (∃ j ∈ left, j.row.tenantSlug = i.row.tenantSlug) ∨
      ∃ role, s.control.roleOf user i.row.tenantSlug = some role

/-- What every run from `store` keeps. An invite that is still pending has been reported by
nobody, and one that is not, by one call. -/
structure Progressing (store : System) (stage : Nat → Progress) (x : AcceptPool) : Prop where
  calls : ∀ key, x.calls key = (stage key).call email
  fits : ∀ key, (stage key).Fits email store x.store
  back : ∀ r ∈ x.store.control.invite.rows, r ∈ store.control.invite.rows ∨
    ∃ i ∈ store.control.invite.rows, Pending email i ∧ ∃ t, r = accepted t i
  forth : ∀ i ∈ store.control.invite.rows, i ∈ x.store.control.invite.rows ∨
    Pending email i ∧ ∃ t, accepted t i ∈ x.store.control.invite.rows
  sole : ∀ key key' i, i ∈ (stage key).held → i ∈ (stage key').held → key = key'
  unmarked : ∀ i ∈ x.store.control.invite.rows, Pending email i →
    ∀ key, i.row.tenantSlug ∉ (stage key).reported
  marked : ∀ i ∈ store.control.invite.rows, Pending email i →
    i ∉ x.store.control.invite.rows → ∃! key, i.row.tenantSlug ∈ (stage key).reported

variable {email} {store s s' : System} {stage stage' : Nat → Progress} {x x' : AcceptPool}
  {g g' : Progress} {key : Nat}

omit [Platform] in
theorem not_pending_accepted (t : DateTime) (i : InviteRecord) : ¬ Pending email (accepted t i) :=
  fun h => by simpa [accepted] using h.2.2

omit [Platform] in
theorem mem_open_of_pending {c : Control} {i : InviteRecord} (hi : i ∈ c.invite.rows)
    (h : Pending email i) : i ∈ c.openInvites email :=
  Control.mem_openInvites.mpr ⟨hi, h.1, h.2.1⟩

/-- A call that has not selected anything holds and reports nothing. -/
theorem Progress.fits_of_empty (hheld : g.held = []) (hreported : g.reported = [])
    (hselected : g.selected = none) : g.Fits email store s where
  pending i hi := by
    rw [hheld] at hi
    cases hi
  once := hheld ▸ .nil
  distinct := hreported ▸ .nil
  checked user left h := by cases hselected.symm.trans h
  covered user left h := by cases hselected.symm.trans h
  joined user left h := by cases hselected.symm.trans h

theorem progressing_idle (store : System) :
    Progressing email store (fun _ => .idle) (.idle store) where
  calls _ := rfl
  fits _ := Progress.fits_of_empty rfl rfl rfl
  back r hr := .inl hr
  forth i hi := .inl hi
  sole _ _ _ h := by cases h
  unmarked _ _ _ _ h := by cases h
  marked i hi _ hnot := absurd hi hnot

/-- A pending invite of the store the run started from. -/
theorem Progressing.pending_start (h : Progressing email store stage x) {i : InviteRecord}
    (hi : i ∈ x.store.control.invite.rows) (hpending : Pending email i) :
    i ∈ store.control.invite.rows := by
  rcases h.back i hi with hi | ⟨j, -, -, t, rfl⟩
  · exact hi
  · exact absurd hpending (not_pending_accepted t j)

/-- A step that leaves the invites as they are and takes away no role. -/
theorem Progress.Fits.mono (h : g.Fits email store s)
    (hinvites : s'.control.invite = s.control.invite) (hroles : RolesKept s s') :
    g.Fits email store s' where
  pending := by
    rw [hinvites]
    exact h.pending
  once := h.once
  distinct := h.distinct
  checked := h.checked
  covered := by
    rw [hinvites]
    exact h.covered
  joined user left hleft i hi := by
    refine (h.joined user left hleft i hi).imp_right ?_
    rintro ⟨role, hrole⟩
    exact hroles user _ role hrole

/-- The stages once the call has come as far as `g'`. -/
theorem calls_update (key : Nat) (h : Progressing email store stage x)
    {entry : Nat × LedgerProg (List String)} (hentry : g'.call email = some entry) (k : Nat) :
    (x.setCall key entry).calls k = (Function.update stage key g' k).call email := by
  by_cases hk : k = key
  · subst hk
    rw [Pool.State.calls_setCall_self, Function.update_self, hentry]
  · rw [Pool.State.calls_setCall_of_ne _ hk, Function.update_of_ne hk, h.calls]

/-- One call gets on without touching an invite. -/
theorem Progressing.move (h : Progressing email store stage x)
    {entry : Nat × LedgerProg (List String)} (hentry : g'.call email = some entry)
    (hinvites : s'.control.invite = x.store.control.invite) (hroles : RolesKept x.store s')
    (hfits : g'.Fits email store s') (hreported : g'.reported = (stage key).reported)
    (hheld : ∀ i ∈ g'.held, i ∈ (stage key).held ∨ ∀ k, k ≠ key → i ∉ (stage k).held) :
    Progressing email store (Function.update stage key g')
      { x.setCall key entry with store := s' } := by
  have hcalls := calls_update key h hentry
  have hkey : Function.update stage key g' key = g' := Function.update_self key g' stage
  have hothers : ∀ k, k ≠ key → Function.update stage key g' k = stage k :=
    fun k hk => Function.update_of_ne hk g' stage
  generalize Function.update stage key g' = stage' at hcalls hkey hothers ⊢
  have hreports : ∀ k, (stage' k).reported = (stage k).reported := by
    intro k
    by_cases hk : k = key
    · rw [hk, hkey, hreported]
    · rw [hothers k hk]
  -- an invite that the call holds now is held by no other call
  have halone : ∀ k i, i ∈ g'.held → i ∈ (stage' k).held → key = k := by
    intro k i hi hik
    by_contra hne
    rw [hothers k (Ne.symm hne)] at hik
    rcases hheld i hi with hold | hnone
    · exact hne (h.sole key k i hold hik)
    · exact hnone k (Ne.symm hne) hik
  constructor
  · exact hcalls
  · intro k
    by_cases hk : k = key
    · rw [hk, hkey]
      exact hfits
    · rw [hothers k hk]
      exact (h.fits k).mono hinvites hroles
  · simp only [hinvites]
    exact h.back
  · simp only [hinvites]
    exact h.forth
  · intro k k' i hk hk'
    by_cases hkk : k = key
    · subst hkk
      exact halone k' i (hkey ▸ hk) hk'
    · by_cases hkk' : k' = key
      · subst hkk'
        exact (halone k i (hkey ▸ hk') hk).symm
      · rw [hothers k hkk] at hk
        rw [hothers k' hkk'] at hk'
        exact h.sole k k' i hk hk'
  · simp only [hinvites, hreports]
    exact h.unmarked
  · simp only [hinvites, hreports]
    exact h.marked

omit [Platform] in
/-- A pending invite that is marked is no longer among the pending ones. -/
theorem pending_mem_marked {c c' : Control} {inv : InviteRecord} {now : DateTime}
    (hset : Control.InviteSet c c' inv (accepted now inv).row) {i : InviteRecord}
    (hi : Pending email i) : i ∈ c'.invite.rows ↔ i ∈ c.invite.rows ∧ i ≠ inv := by
  rw [hset.rows]
  constructor
  · rintro (rfl | hmem)
    · exact absurd hi (not_pending_accepted now inv)
    · exact hmem
  · exact .inr

/-- A call that holds what it held, less the invite that was marked. -/
theorem Progress.Fits.without (h : g.Fits email store s) {inv : InviteRecord} {now : DateTime}
    (hset : Control.InviteSet s.control s'.control inv (accepted now inv).row)
    (hheld : ∀ i, i ∈ g'.held ↔ i ∈ g.held ∧ i ≠ inv) (honce : g'.held.Nodup)
    (hdistinct : g'.reported.Nodup) (hselected : g'.selected = g.selected) :
    g'.Fits email store s' where
  pending i hi := by
    obtain ⟨hold, hne⟩ := (hheld i).mp hi
    obtain ⟨hmem, hpending⟩ := h.pending i hold
    exact ⟨(pending_mem_marked hset hpending).mpr ⟨hmem, hne⟩, hpending⟩
  once := honce
  distinct := hdistinct
  checked := by
    rw [hselected]
    exact h.checked
  covered user left hleft i hi hpending := by
    obtain ⟨hmem, hne⟩ := (pending_mem_marked hset hpending).mp hi
    exact (hheld i).mpr ⟨h.covered user left (hselected ▸ hleft) i hmem hpending, hne⟩
  joined user left hleft i hi := by
    simp only [Control.roleOf, hset.memberships]
    exact h.joined user left (hselected ▸ hleft) i hi

omit [Platform] in
/-- The call that marks an invite holds the others as before. -/
theorem mem_held_marked {user : Nat} {acc acc' : List String} {inv : InviteRecord}
    {left : List InviteRecord} (honce : (Progress.marking user acc inv left).held.Nodup)
    (i : InviteRecord) : i ∈ (Progress.collecting user acc' left).held ↔
      i ∈ (Progress.marking user acc inv left).held ∧ i ≠ inv := by
  obtain ⟨hfresh, -⟩ := List.nodup_cons.mp honce
  constructor
  · intro hi
    exact ⟨List.mem_cons_of_mem inv hi, fun heq => hfresh (heq ▸ hi)⟩
  · rintro ⟨hi, hne⟩
    rcases List.mem_cons.mp hi with rfl | hi
    · exact absurd rfl hne
    · exact hi

/-- One invite is marked, and one call reports it from then on. -/
theorem Progressing.of_marked (h : Progressing email store stage x) {inv : InviteRecord}
    {now : DateTime} (hpending : Pending email inv)
    (hset : Control.InviteSet x.store.control x'.store.control inv (accepted now inv).row)
    (hcalls : ∀ k, x'.calls k = (stage' k).call email)
    (hfits : ∀ k, (stage' k).Fits email store x'.store)
    (hheld : ∀ k i, i ∈ (stage' k).held → i ∈ (stage k).held)
    (hreports : ∀ k slug, slug ≠ inv.row.tenantSlug →
      (slug ∈ (stage' k).reported ↔ slug ∈ (stage k).reported))
    (hone : ∃! k, inv.row.tenantSlug ∈ (stage' k).reported) :
    Progressing email store stage' x' := by
  have hstart := h.pending_start hset.mem hpending
  have hslug : ∀ i ∈ store.control.invite.rows, Pending email i → i ≠ inv →
      i.row.tenantSlug ≠ inv.row.tenantSlug := fun i hi hpend hne hslug =>
    hne (Control.invite_eq hi hstart hslug (hpend.1.trans hpending.1.symm))
  constructor
  · exact hcalls
  · exact hfits
  · intro r hr
    rcases (hset.rows r).mp hr with rfl | ⟨hr, -⟩
    · exact .inr ⟨inv, hstart, hpending, now, rfl⟩
    · exact h.back r hr
  · intro i hi
    by_cases hne : i = inv
    · rw [hne]
      exact .inr ⟨hpending, now, (hset.rows _).mpr (.inl rfl)⟩
    · rcases h.forth i hi with hmem | ⟨hpend, t, hmem⟩
      · exact .inl ((hset.rows i).mpr (.inr ⟨hmem, hne⟩))
      · refine .inr ⟨hpend, t, (hset.rows _).mpr (.inr ⟨hmem, ?_⟩)⟩
        intro heq
        exact not_pending_accepted t i (heq ▸ hpending)
  · intro k k' i hk hk'
    exact h.sole k k' i (hheld k i hk) (hheld k' i hk')
  · intro i hi hpend k
    obtain ⟨hmem, hne⟩ := (pending_mem_marked hset hpend).mp hi
    rw [hreports k _ (hslug i (h.pending_start hmem hpend) hpend hne)]
    exact h.unmarked i hmem hpend k
  · intro i hi hpend hnot
    by_cases hne : i = inv
    · rw [hne]
      exact hone
    · simp only [fun k => hreports k _ (hslug i hi hpend hne)]
      exact h.marked i hi hpend fun hmem =>
        hnot ((pending_mem_marked hset hpend).mpr ⟨hmem, hne⟩)

/-- The call marks its invite. -/
theorem Progressing.mark (h : Progressing email store stage x) {user : Nat} {acc : List String}
    {inv : InviteRecord} {left : List InviteRecord} {now : DateTime} {c : Control}
    (hstage : stage key = .marking user acc inv left)
    (hset : Control.InviteSet x.store.control c inv (accepted now inv).row) :
    Progressing email store
      (Function.update stage key (.collecting user (acc ++ [inv.row.tenantSlug]) left))
      { x.setCall key (user, collect user (acc ++ [inv.row.tenantSlug]) left) with
        store := { x.store with control := c } } := by
  have hfits := h.fits key
  rw [hstage] at hfits
  obtain ⟨-, hpending⟩ := hfits.pending inv List.mem_cons_self
  have hnobody := h.unmarked inv hset.mem hpending
  have hkey := Function.update_self key
    (.collecting user (acc ++ [inv.row.tenantSlug]) left) stage
  have hothers : ∀ k, k ≠ key → Function.update stage key
      (.collecting user (acc ++ [inv.row.tenantSlug]) left) k = stage k :=
    fun k hk => Function.update_of_ne hk _ stage
  refine h.of_marked hpending hset (calls_update key h rfl) (fun k => ?_) (fun k i hi => ?_)
    (fun k slug hslug => ?_) ⟨key, ?_, fun k hk => ?_⟩
  · by_cases hk : k = key
    · rw [hk, hkey]
      refine hfits.without hset (mem_held_marked hfits.once) hfits.once.of_cons ?_ rfl
      have hnot := hnobody key
      rw [hstage] at hnot
      exact hfits.distinct.append (List.nodup_singleton _) (List.disjoint_singleton.mpr hnot)
    · -- the invite is not one of the other call's
      rw [hothers k hk]
      refine (h.fits k).without hset (fun i => ⟨fun hi => ⟨hi, ?_⟩, And.left⟩) (h.fits k).once
        (h.fits k).distinct rfl
      rintro rfl
      exact hk (h.sole k key i hi (hstage ▸ List.mem_cons_self))
  · by_cases hk : k = key
    · rw [hk, hkey] at hi
      rw [hk, hstage]
      exact ((mem_held_marked hfits.once i).mp hi).1
    · rwa [hothers k hk] at hi
  · by_cases hk : k = key
    · rw [hk, hkey, hstage]
      simp [Progress.reported, hslug]
    · rw [hothers k hk]
  · dsimp only
    rw [hkey]
    exact List.mem_append_right acc (List.mem_singleton_self _)
  · by_contra hother
    exact hnobody k (hothers k hother ▸ hk)

/-! ## One step -/

/-- The `SELECT` of a call. -/
theorem Progressing.fits_select (h : Progressing email store stage x)
    (hchecked : ∀ i ∈ store.control.openInvites email, i.row.check = .ok ()) (user : Nat) :
    (Progress.collecting user [] (x.store.control.openInvites email)).Fits email store x.store where
  pending i hi := by
    obtain ⟨hi, hnone⟩ := List.mem_filter.mp hi
    obtain ⟨hmem, hemail, hopen⟩ := Control.mem_openInvites.mp hi
    exact ⟨hmem, hemail, hopen, Option.isNone_iff_eq_none.mp hnone⟩
  once := (x.store.control.openInvites_nodup email).filter _
  distinct := .nil
  checked u left hleft i hi := by
    cases hleft
    obtain ⟨hmem, hemail, hopen⟩ := Control.mem_openInvites.mp hi
    rcases h.back i hmem with hstart | ⟨j, hj, hpending, t, rfl⟩
    · exact hchecked i (Control.mem_openInvites.mpr ⟨hstart, hemail, hopen⟩)
    · -- the mark is in no assertion
      exact hchecked j (Control.mem_openInvites.mpr ⟨hj, hpending.1, hpending.2.1⟩)
  covered u left hleft i hi hpending := by
    refine List.mem_filter.mpr ⟨Control.mem_openInvites.mpr ⟨hi, hpending.1, hpending.2.1⟩, ?_⟩
    exact Option.isNone_iff_eq_none.mpr hpending.2.2
  joined u left hleft i hi := by
    cases hleft
    obtain ⟨hmem, hemail, hopen⟩ := Control.mem_openInvites.mp hi
    rcases h.forth i hmem with hmem | ⟨-, t, hmem⟩
    · exact .inl ⟨i, Control.mem_openInvites.mpr ⟨hmem, hemail, hopen⟩, rfl⟩
    · exact .inl ⟨accepted t i, Control.mem_openInvites.mpr ⟨hmem, hemail, hopen⟩, rfl⟩

/-- The `UPSERT` of a call sets the membership of the next invite. -/
theorem Progress.Fits.join (h : g.Fits email store s) {user : Nat} {inv : InviteRecord}
    {rest : List InviteRecord} {c : Control} (hselected : g.selected = some (user, inv :: rest))
    (hset : Control.RoleSet s.control c user inv.row.tenantSlug inv.row.role)
    (hheld : g'.held = g.held) (hreported : g'.reported = g.reported)
    (hrest : g'.selected = some (user, rest)) :
    g'.Fits email store { s with control := c } where
  pending := by
    simp only [hset.invites, hheld]
    exact h.pending
  once := hheld ▸ h.once
  distinct := hreported ▸ h.distinct
  checked u left hleft i hi := by
    cases hrest.symm.trans hleft
    exact h.checked user _ hselected i (List.mem_cons_of_mem inv hi)
  covered u left hleft := by
    simp only [hset.invites, hheld]
    exact h.covered user _ hselected
  joined u left hleft i hi := by
    cases hrest.symm.trans hleft
    rw [hset.role]
    rcases h.joined user _ hselected i hi with ⟨j, hj, hslug⟩ | ⟨role, hrole⟩
    · rcases List.mem_cons.mp hj with rfl | hj
      · exact .inr ⟨_, if_pos ⟨rfl, hslug.symm⟩⟩
      · exact .inl ⟨j, hj, hslug⟩
    · right
      split
      · exact ⟨_, rfl⟩
      · exact ⟨role, hrole⟩

omit [Platform] in
theorem rolesKept_of_set {c : Control} {user : Nat} {slug role : String}
    (hset : Control.RoleSet s.control c user slug role) : RolesKept s { s with control := c } := by
  intro user' slug' role' hrole
  rw [hset.role]
  split
  · exact ⟨_, rfl⟩
  · exact ⟨role', hrole⟩

/-- A step keeps the calls in line, and leaves alone every invite that it does not mark. -/
structure Moved (email : String) (store : System) (a : AcceptAction) (x x' : AcceptPool) :
    Prop where
  progressing : ∃ stage, Progressing email store stage x'
  kept : ∀ i ∈ x.store.control.invite.rows, i ∈ x'.store.control.invite.rows ∨ Marks i a x

theorem Progressing.moved (h : Progressing email store stage x) (g' : Progress)
    {a : AcceptAction} {entry : Nat × LedgerProg (List String)}
    (hentry : g'.call email = some entry)
    (hinvites : s'.control.invite = x.store.control.invite) (hroles : RolesKept x.store s')
    (hfits : g'.Fits email store s') (hreported : g'.reported = (stage key).reported)
    (hheld : ∀ i ∈ g'.held, i ∈ (stage key).held ∨ ∀ k, k ≠ key → i ∉ (stage k).held) :
    Moved email store a x { x.setCall key entry with store := s' } where
  progressing := ⟨_, h.move hentry hinvites hroles hfits hreported hheld⟩
  kept _ hi := .inl (hinvites ▸ hi)

/-- The `SELECT`, when nobody else has an invite left to mark. -/
theorem Progressing.select (h : Progressing email store stage x)
    (hchecked : ∀ i ∈ store.control.openInvites email, i.row.check = .ok ())
    (hturn : InTurn email (.advance key) x) {user : Nat} (hstage : stage key = .started user) :
    Moved email store (.advance key) x
      (x.setCall key (user, collect user [] (x.store.control.openInvites email))) := by
  have hselects : x.calls key = some (user, acceptPendingInvites email user) := by
    rw [h.calls, hstage]
    rfl
  refine h.moved (.collecting user [] (x.store.control.openInvites email)) rfl rfl
    (fun _ _ role hrole => ⟨role, hrole⟩) (h.fits_select hchecked user) (by rw [hstage]; rfl) ?_
  intro i _
  refine .inr fun k hk => ?_
  rw [hturn ⟨user, hselects⟩ k (stage k) hk (h.calls k)]
  exact List.not_mem_nil

/-- The `UPSERT` for the next invite. -/
theorem Progressing.join (h : Progressing email store stage x) {a : AcceptAction} {user : Nat}
    {acc : List String} {inv : InviteRecord} {rest : List InviteRecord} {c : Control}
    (hstage : stage key = .collecting user acc (inv :: rest))
    (hset : Control.RoleSet x.store.control c user inv.row.tenantSlug inv.row.role) :
    Moved email store a x
      { x.setCall key (user, if inv.row.acceptedAt.isSome then collect user acc rest
          else OnceAccepted.mark user acc inv rest) with
        store := { x.store with control := c } } := by
  have hfits := h.fits key
  have hmoved : ∀ (g' : Progress) (p : LedgerProg (List String)),
      g'.call email = some (user, p) → g'.held = (stage key).held →
      g'.reported = (stage key).reported → g'.selected = some (user, rest) →
      Moved email store a x
        { x.setCall key (user, p) with store := { x.store with control := c } } := by
    intro g' p hentry hheld hreported hrest
    have hselected : (stage key).selected = some (user, inv :: rest) := by
      rw [hstage]
      rfl
    refine h.moved g' hentry hset.invites (rolesKept_of_set hset)
      (hfits.join hselected hset hheld hreported hrest) hreported ?_
    exact fun i hi => .inl (hheld ▸ hi)
  cases haccepted : inv.row.acceptedAt with
  | some t =>
      refine hmoved (.collecting user acc rest) _ rfl ?_ (by rw [hstage]; rfl) rfl
      simp [hstage, Progress.held, haccepted]
  | none =>
      refine hmoved (.marking user acc inv rest) _ rfl ?_ (by rw [hstage]; rfl) rfl
      simp [hstage, Progress.held, haccepted]

/-- The next query of a call. -/
theorem Progressing.advance (h : Progressing email store stage x)
    (hchecked : ∀ i ∈ store.control.openInvites email, i.row.check = .ok ())
    (hturn : InTurn email (.advance key) x) {user : Nat} {effect : System → System}
    {next : System → LedgerProg (List String)}
    (hcall : x.calls key = some (user, .query effect next)) :
    Moved email store (.advance key) x
      { x.setCall key (user, next x.store) with store := effect x.store } := by
  have hfits := h.fits key
  have hstage := hcall.symm.trans (h.calls key)
  cases hg : stage key with
  | idle =>
      rw [hg] at hstage
      cases hstage
  | failed u e =>
      rw [hg] at hstage
      cases hstage
  | started u =>
      rw [hg, Progress.call, acceptPendingInvites_eq] at hstage
      obtain ⟨rfl, hquery⟩ := Prod.mk.inj (Option.some.inj hstage)
      obtain ⟨rfl, rfl⟩ := Prog.query.inj hquery
      exact h.select hchecked hturn hg
  | collecting u acc left =>
      rw [hg] at hstage hfits
      cases left with
      | nil =>
          rw [Progress.call, collect_nil] at hstage
          cases hstage
      | cons inv rest =>
          rw [Progress.call, collect_cons] at hstage
          obtain ⟨rfl, hquery⟩ := Prod.mk.inj (Option.some.inj hstage)
          obtain ⟨hslug, -, hrole⟩ :=
            Invite.check_ok (hfits.checked user _ rfl inv List.mem_cons_self)
          obtain ⟨m, c, hset⟩ : ∃ m c, x.store.control.upsertMembership user
              inv.row.tenantSlug inv.row.role x.store.now = .ok (m, c) :=
            Control.upsertMembership_of_check hslug hrole
          obtain ⟨heffect, hnext⟩ := query_onControl hquery.symm hset
          rw [heffect, hnext]
          exact h.join hg (Control.upsertMembership_ok hset)
  | marking u acc inv left =>
      rw [hg] at hstage hfits
      obtain ⟨rfl, hquery⟩ := Prod.mk.inj (Option.some.inj hstage)
      obtain ⟨hinv, hpending⟩ := hfits.pending inv List.mem_cons_self
      have hcheck := hchecked inv (mem_open_of_pending (h.pending_start hinv hpending) hpending)
      obtain ⟨c, hmark⟩ : ∃ c, x.store.control.markAccepted inv.id x.store.now =
        .ok (some (accepted x.store.now inv), c) := Control.markAccepted_of_mem hinv hcheck
      obtain ⟨heffect, hnext⟩ := query_onControl hquery.symm hmark
      have hset := Control.markAccepted_ok hinv hmark
      rw [heffect, hnext]
      refine ⟨⟨_, h.mark hg hset⟩, fun i hi => ?_⟩
      by_cases hne : i = inv
      · subst hne
        exact .inr ⟨key, user, _, rfl, hcall.trans (congrArg some (congrArg _ hquery))⟩
      · exact .inl ((hset.rows i).mpr (.inr ⟨hi, hne⟩))

/-- Any step. -/
theorem Progressing.step (h : Progressing email store stage x)
    (hchecked : ∀ i ∈ store.control.openInvites email, i.row.check = .ok ())
    {a : AcceptAction} (hturn : InTurn email a x) :
    Moved email store a x (OnceAccepted.step email a x) := by
  have hstep : Pool.Stepped (acceptances email) x a (OnceAccepted.step email a x) :=
    Pool.stepped a x
  generalize OnceAccepted.step email a x = x' at hstep ⊢
  cases hstep with
  | same => exact ⟨⟨stage, h⟩, fun i hi => .inl hi⟩
  | @started key user hkey =>
      have hidle : (stage key).reported = [] := by
        have hnone := hkey.symm.trans (h.calls key)
        cases hg : stage key with
        | idle => rfl
        | _ =>
            rw [hg] at hnone
            cases hnone
      exact h.moved (.started user) rfl rfl (fun _ _ role hrole => ⟨role, hrole⟩)
        (Progress.fits_of_empty rfl rfl rfl) hidle.symm (fun i hi => by cases hi)
  | advanced hkey => exact h.advance hchecked hturn hkey
  | @failed key user effect next error hkey =>
      exact h.moved (.failed user error) rfl rfl (fun _ _ role hrole => ⟨role, hrole⟩)
        (Progress.fits_of_empty rfl rfl rfl) (hturn (stage key) (h.calls key)).symm
        (fun i hi => by cases hi)
  | event =>
      refine ⟨⟨stage, h.calls, fun k => ?_, h.back, h.forth, h.sole, h.unmarked, h.marked⟩,
        fun i hi => .inl hi⟩
      exact (h.fits k).mono rfl fun _ _ role hrole => ⟨role, hrole⟩

/-- The next query of a call keeps every invite but the one that the call is about to mark. -/
theorem Progress.keeps {user : Nat} {effect : System → System}
    {next : System → LedgerProg (List String)} (hg : g.call email = some (user, .query effect next))
    {i : InviteRecord} (hi : i ∈ s.control.invite.rows) :
    i ∈ (effect s).control.invite.rows ∨
      ∃ acc inv left, g = .marking user acc inv left ∧ inv.id = i.id := by
  cases g with
  | idle => cases hg
  | failed u e => cases hg
  | started u =>
      rw [Progress.call, acceptPendingInvites_eq] at hg
      cases hg
      exact .inl hi
  | collecting u acc left =>
      cases left with
      | nil =>
          rw [Progress.call, collect_nil] at hg
          cases hg
      | cons inv rest =>
          rw [Progress.call, collect_cons] at hg
          cases hg
          left
          -- the `UPSERT` leaves the invites as they are
          cases hset : s.control.upsertMembership user inv.row.tenantSlug inv.row.role s.now with
          | error e => simpa only [hset] using hi
          | ok answer =>
              obtain ⟨-, -, -, -, hput⟩ := Control.upsertMembership_put hset
              simpa only [hset, hput.invites] using hi
  | marking u acc inv left =>
      cases hg
      by_cases hid : inv.id = i.id
      · exact .inr ⟨acc, inv, left, rfl, hid⟩
      · left
        cases hset : s.control.markAccepted inv.id s.now with
        | error e => simpa only [hset] using hi
        | ok answer =>
            obtain ⟨found, c⟩ := answer
            rcases Control.updateInvite_ok hset with ⟨-, rfl⟩ | ⟨r, hr, -, -, hwrote⟩
            · simpa only [hset] using hi
            · have hne : i ≠ r := by
                rintro rfl
                exact hid (beq_iff_eq.mp hr).symm
              simpa only [hset] using (hwrote.rows i).mpr (.inr ⟨hi, hne⟩)

/-- A step that marks a pending invite is a step of the call that holds it. -/
theorem Progressing.marks (h : Progressing email store stage x)
    (hchecked : ∀ i ∈ store.control.openInvites email, i.row.check = .ok ()) {i : InviteRecord}
    (hi : i ∈ store.control.invite.rows) (hpending : Pending email i) {user : Nat}
    {next : Option InviteRecord → LedgerProg (List String)}
    (hcall : x.calls key =
      some (user, onControl DbError.plain (Control.markAccepted i.id) >>= next)) :
    i ∈ (stage key).held := by
  -- in the store of the start, the statement replaces the invite
  have hcheck := hchecked i (mem_open_of_pending hi hpending)
  obtain ⟨c, hmark⟩ : ∃ c, store.control.markAccepted i.id store.now =
    .ok (some (accepted store.now i), c) := Control.markAccepted_of_mem hi hcheck
  have hset := Control.markAccepted_ok hi hmark
  rcases Progress.keeps ((h.calls key).symm.trans hcall) hi with hkept | ⟨acc, inv, left, hg, hid⟩
  · simp only [hmark] at hkept
    exact absurd rfl ((pending_mem_marked hset hpending).mp hkept).2
  · have hheld : inv ∈ (stage key).held := by
      rw [hg]
      exact List.mem_cons_self
    obtain ⟨hmem, hinv⟩ := (h.fits key).pending inv hheld
    have hsame : inv = i := Table.eq_of_id_eq (h.pending_start hmem hinv) hi hid
    exact hsame ▸ hheld

/-- What such a step does to the invite. -/
theorem Progressing.stamp (h : Progressing email store stage x)
    (hchecked : ∀ i ∈ store.control.openInvites email, i.row.check = .ok ()) {i : InviteRecord}
    (hi : i ∈ store.control.invite.rows) (hpending : Pending email i) {a : AcceptAction}
    (hmarks : Marks i a x) : i ∈ x.store.control.invite.rows ∧
      accepted x.store.now i ∈ (OnceAccepted.step email a x).store.control.invite.rows := by
  obtain ⟨key, user, next, rfl, hcall⟩ := hmarks
  obtain ⟨hmem, -⟩ := (h.fits key).pending i (h.marks hchecked hi hpending hcall)
  have hcheck := hchecked i (mem_open_of_pending hi hpending)
  obtain ⟨c, hmark⟩ : ∃ c, x.store.control.markAccepted i.id x.store.now =
    .ok (some (accepted x.store.now i), c) := Control.markAccepted_of_mem hmem hcheck
  refine ⟨hmem, ?_⟩
  have hstep : OnceAccepted.step email (.advance key) x = _ := Pool.step_advance hcall
  simp only [hstep, hmark]
  exact ((Control.markAccepted_ok hmem hmark).rows _).mpr (.inl rfl)

/-! ## Runs -/

/-- How often a run has marked a pending invite, and with what. -/
structure MarkedOnce (email : String) (store : System) (actions : List AcceptAction)
    (i : InviteRecord) : Prop where
  unmarked : i ∈ (Trace.exec (step email) actions (.idle store)).store.control.invite.rows →
    ∀ earlier, ¬ Trace.TakesAfter (step email) (Marks i) actions (.idle store) earlier
  marked : i ∉ (Trace.exec (step email) actions (.idle store)).store.control.invite.rows →
    ∃! earlier, Trace.TakesAfter (step email) (Marks i) actions (.idle store) earlier
  stamped : ∀ earlier, Trace.TakesAfter (step email) (Marks i) actions (.idle store) earlier →
    accepted (Trace.exec (step email) earlier (.idle store)).store.now i ∈
      (Trace.exec (step email) actions (.idle store)).store.control.invite.rows

theorem exec_snoc (earlier : List AcceptAction) (a : AcceptAction) :
    Trace.exec (step email) (earlier ++ [a]) (.idle store) =
      step email a (Trace.exec (step email) earlier (.idle store)) :=
  Trace.exec_append earlier [a] _

omit [Platform] in
/-- A marked invite is no longer there as it was. -/
theorem not_mem_of_accepted {c : Control} {i : InviteRecord} {t : DateTime}
    (hpending : Pending email i) (h : accepted t i ∈ c.invite.rows) : i ∉ c.invite.rows := by
  intro hi
  have hsame : accepted t i = i := Table.eq_of_id_eq h hi rfl
  exact not_pending_accepted t i (hsame ▸ hpending)

/-- The next step of a run. -/
theorem MarkedOnce.snoc {earlier : List AcceptAction} {a : AcceptAction} {i : InviteRecord}
    (hi : i ∈ store.control.invite.rows) (hpending : Pending email i)
    (hchecked : ∀ i ∈ store.control.openInvites email, i.row.check = .ok ())
    (h : Progressing email store stage (Trace.exec (step email) earlier (.idle store)))
    (hmoved : Moved email store a (Trace.exec (step email) earlier (.idle store))
      (step email a (Trace.exec (step email) earlier (.idle store))))
    (hmarked : MarkedOnce email store earlier i) : MarkedOnce email store (earlier ++ [a]) i := by
  obtain ⟨hnone, hone, hstamped⟩ := hmarked
  have hstamp := h.stamp (a := a) hchecked hi hpending
  -- a mark stays
  have hstays : ∀ t, accepted t i ∈ (Trace.exec (step email) earlier
      (.idle store)).store.control.invite.rows → accepted t i ∈ (step email a
        (Trace.exec (step email) earlier (.idle store))).store.control.invite.rows := by
    intro t ht
    rcases hmoved.kept _ ht with hkept | hagain
    · exact hkept
    · exact absurd (hstamp hagain).1 (not_mem_of_accepted hpending ht)
  constructor
  · rw [exec_snoc]
    intro hmem first hfirst
    rcases Trace.takesAfter_snoc.mp hfirst with hold | ⟨-, hmarks⟩
    · rcases h.forth i hi with hbefore | ⟨-, t, ht⟩
      · exact hnone hbefore first hold
      · exact not_mem_of_accepted hpending (hstays t ht) hmem
    · exact not_mem_of_accepted hpending (hstamp hmarks).2 hmem
  · rw [exec_snoc]
    intro hgone
    by_cases hbefore : i ∈ (Trace.exec (step email) earlier
        (.idle store)).store.control.invite.rows
    · have hmarks := (hmoved.kept i hbefore).resolve_left hgone
      refine ⟨earlier, Trace.takesAfter_snoc.mpr (.inr ⟨rfl, hmarks⟩), fun first hfirst => ?_⟩
      rcases Trace.takesAfter_snoc.mp hfirst with hold | ⟨heq, -⟩
      · exact absurd hold (hnone hbefore first)
      · exact heq
    · obtain ⟨first, hfirst, huniq⟩ := hone hbefore
      refine ⟨first, Trace.takesAfter_snoc.mpr (.inl hfirst), fun other hother => ?_⟩
      rcases Trace.takesAfter_snoc.mp hother with hold | ⟨-, hmarks⟩
      · exact huniq other hold
      · exact absurd (hstamp hmarks).1 hbefore
  · rw [exec_snoc]
    intro first hfirst
    rcases Trace.takesAfter_snoc.mp hfirst with hold | ⟨rfl, hmarks⟩
    · exact hstays _ (hstamped first hold)
    · exact (hstamp hmarks).2

/-- What holds after a run in which the calls take turns. -/
theorem run_progressing {actions : List AcceptAction}
    (hchecked : ∀ i ∈ store.control.openInvites email, i.row.check = .ok ())
    (hrun : Trace.Each (step email) (InTurn email) actions (.idle store)) :
    (∃ stage, Progressing email store stage (Trace.exec (step email) actions (.idle store))) ∧
      ∀ i ∈ store.control.invite.rows, Pending email i → MarkedOnce email store actions i := by
  refine hrun.eachAfter.induction (P := fun actions =>
    (∃ stage, Progressing email store stage (Trace.exec (step email) actions (.idle store))) ∧
      ∀ i ∈ store.control.invite.rows, Pending email i → MarkedOnce email store actions i) ?_ ?_
  · refine ⟨⟨_, progressing_idle store⟩, fun i hi _ => ⟨?_, ?_, ?_⟩⟩
    · exact fun _ => Trace.not_takesAfter_nil
    · exact fun hgone => absurd hi hgone
    · exact fun first hfirst => absurd hfirst (Trace.not_takesAfter_nil first)
  · rintro earlier a ⟨⟨stage, h⟩, hmarked⟩ hturn
    have hmoved := h.step hchecked hturn
    refine ⟨?_, fun i hi hpending => ?_⟩
    · rw [exec_snoc]
      exact hmoved.progressing
    · exact (hmarked i hi hpending).snoc hi hpending hchecked h hmoved

/-- A call that has ended with a value has reported it. -/
theorem Progressing.returned (h : Progressing email store stage x) {user : Nat}
    {slugs : List String} (hreturned : x.Returned key user slugs) :
    stage key = .collecting user slugs [] := by
  have hstage := hreturned.symm.trans (h.calls key)
  cases hg : stage key with
  | collecting u acc left =>
      rw [hg] at hstage
      cases left with
      | nil =>
          rw [Progress.call, collect_nil] at hstage
          cases hstage
          rfl
      | cons inv rest =>
          rw [Progress.call, collect_cons] at hstage
          cases hstage
  | _ =>
      rw [hg] at hstage
      cases hstage

/-- A call that has ended and reports something has ended with a value. -/
theorem Progressing.returned_of_reported (h : Progressing email store stage x) (hended : Ended x)
    {slug : String} (hslug : slug ∈ (stage key).reported) :
    ∃ user slugs, x.Returned key user slugs ∧ slug ∈ slugs := by
  have hcalls := h.calls key
  cases hg : stage key with
  | collecting u acc left =>
      rw [hg] at hcalls hslug
      cases left with
      | nil =>
          rw [Progress.call, collect_nil] at hcalls
          exact ⟨u, acc, hcalls, hslug⟩
      | cons inv rest =>
          rw [Progress.call, collect_cons] at hcalls
          exact absurd hcalls (hended key u _ _)
  | marking u acc inv left =>
      rw [hg] at hcalls
      exact absurd hcalls (hended key u _ _)
  | _ =>
      rw [hg] at hslug
      cases hslug

/-- A call that is the only one in flight may issue any query. -/
theorem inTurn_of_alone (h : ∀ k, k ≠ key → ∀ user effect next,
    x.calls k ≠ some (user, .query effect next)) : InTurn email (.advance key) x := by
  intro _ k g hk hcall
  have hended := h k hk
  rw [hcall] at hended
  cases g with
  | collecting u acc left =>
      cases left with
      | nil => rfl
      | cons inv rest =>
          rw [Progress.call, collect_cons] at hended
          exact absurd rfl (hended u _ _)
  | marking u acc inv left => exact absurd rfl (hended u _ _)
  | _ => rfl

/-- When no call selects while another has an invite left to mark, and none fails that has marked
one, then once all have ended and one has returned, every invite was accepted once. -/
theorem accepted_once {actions : List AcceptAction}
    (hchecked : ∀ i ∈ store.control.openInvites email, i.row.check = .ok ())
    (hrun : Trace.Each (step email) (InTurn email) actions (.idle store))
    (hended : Ended (Trace.exec (step email) actions (.idle store)))
    (hok : ∃ key user slugs,
      (Trace.exec (step email) actions (.idle store)).Returned key user slugs) :
    Settled email actions store := by
  obtain ⟨⟨stage, h⟩, hmarked⟩ := run_progressing hchecked hrun
  -- the call that has returned left nothing pending
  have hgone : ∀ i ∈ store.control.invite.rows, Pending email i →
      i ∉ (Trace.exec (step email) actions (.idle store)).store.control.invite.rows := by
    intro i _ hpending hmem
    obtain ⟨key, user, slugs, hreturned⟩ := hok
    have hfits := h.fits key
    rw [h.returned hreturned] at hfits
    have hheld := hfits.covered user [] rfl i hmem hpending
    cases hheld
  constructor
  · intro i hi hpending
    obtain ⟨key, hkey, huniq⟩ := h.marked i hi hpending (hgone i hi hpending)
    refine ⟨key, h.returned_of_reported hended hkey, ?_⟩
    rintro other ⟨user, slugs, hreturned, hslug⟩
    refine huniq other ?_
    show i.row.tenantSlug ∈ (stage other).reported
    rw [h.returned hreturned]
    exact hslug
  · intro key user slugs hreturned
    have hdistinct := (h.fits key).distinct
    rw [h.returned hreturned] at hdistinct
    exact hdistinct
  · exact fun i hi hpending => (hmarked i hi hpending).marked (hgone i hi hpending)
  · exact fun i hi hpending => (hmarked i hi hpending).stamped
  · intro key user slugs hreturned i hi hemail hopen
    have hfits := h.fits key
    rw [h.returned hreturned] at hfits
    have hmem := Control.mem_openInvites.mpr ⟨hi, hemail, hopen⟩
    rcases hfits.joined user [] rfl i hmem with ⟨j, hj, -⟩ | ⟨role, hrole⟩
    · cases hj
    · obtain ⟨m, hm, huser, hslug, -⟩ := Control.roleOf_eq_some.mp hrole
      refine ⟨m, ⟨hm, huser, hslug⟩, ?_⟩
      rintro m' ⟨hm', huser', hslug'⟩
      exact Control.membership_eq hm' hm (huser'.trans huser.symm) (hslug'.trans hslug.symm)

end Calls

/-! ## Bob signs in twice -/

section Sample

attribute [local instance] Platform.sample

/-- The second call starts when the first one has ended. -/
def oneByOne : List AcceptAction :=
  [.start 0 1, .advance 0, .advance 0, .advance 0, .start 1 1, .advance 1, .advance 1]

/-- Both calls select the invite before one of them marks it. -/
def atOnce : List AcceptAction :=
  [.start 0 1, .start 1 1, .advance 0, .advance 1, .advance 0, .advance 0, .world (juneNoon + 1),
    .advance 1, .advance 1]

theorem accepted_once_bob : Settled "bob@pool.org" oneByOne bobInvited := by
  have hchecked : ∀ i ∈ bobInvited.control.openInvites "bob@pool.org",
      i.row.check = .ok () := by decide +kernel
  have hrun : Trace.Each (step "bob@pool.org") (InTurn "bob@pool.org") oneByOne
      (.idle bobInvited) := by
    refine ⟨trivial, ?_, ?_, ?_, trivial, ?_, ?_, trivial⟩
    all_goals
      refine inTurn_of_alone fun k hk user effect next h => ?_
      rcases k with _ | _ | k
      all_goals first | exact absurd rfl hk | cases h
  have hended : Ended (Trace.exec (step "bob@pool.org") oneByOne (.idle bobInvited)) := by
    intro key user effect next h
    rcases key with _ | _ | key <;> cases h
  exact accepted_once hchecked hrun hended ⟨0, 1, ["pool"], rfl⟩

/-- Both calls report the invite. -/
theorem accepted_twice_bob :
    Ended (Trace.exec (step "bob@pool.org") atOnce (.idle bobInvited)) ∧
      (Trace.exec (step "bob@pool.org") atOnce (.idle bobInvited)).Returned 0 1 ["pool"] ∧
      (Trace.exec (step "bob@pool.org") atOnce (.idle bobInvited)).Returned 1 1 ["pool"] ∧
      ¬ Settled "bob@pool.org" atOnce bobInvited := by
  refine ⟨fun key user effect next h => ?_, rfl, rfl, fun hsettled => ?_⟩
  · rcases key with _ | _ | key <;> cases h
  · obtain ⟨i, hi, hslug, hpending⟩ : ∃ i ∈ bobInvited.control.invite.rows,
        i.row.tenantSlug = "pool" ∧ Pending "bob@pool.org" i := by
      unfold Pending
      decide
    obtain ⟨key, -, huniq⟩ := hsettled.reported i hi hpending
    have hfirst : 0 = key := huniq 0 ⟨1, ["pool"], rfl, by simp [hslug]⟩
    have hsecond : 1 = key := huniq 1 ⟨1, ["pool"], rfl, by simp [hslug]⟩
    omega

end Sample

end OnceAccepted

end SharamLedger
