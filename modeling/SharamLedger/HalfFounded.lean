import SharamLedger.Ledger.Founding
import SharamLedger.Sample

/-!
# Creations that fail half-way

A `create_tenant` call that fails before it writes leaves no trace, and so it can be repeated. Once
it has created the settings of the namespace, every later `CREATE` under their fixed record id
fails, while the directory still has no row of the slug.
-/

namespace SharamLedger

open Lib

namespace HalfFounded

/-- Settings, directory row and an owner of the slug are all there. -/
def Registered (slug : TenantSlug) (s : System) : Prop :=
  (s.namespaces slug.val).settings.isSome = true ∧
    (s.control.directoryEntry slug.val).isSome = true ∧
    ∃ m ∈ s.control.membership.rows, m.row.tenantSlug = slug.val ∧ m.row.role = "owner"

/-- There is no trace of the slug. -/
def Free (slug : TenantSlug) (s : System) : Prop :=
  (s.namespaces slug.val).settings = none ∧ s.control.directoryEntry slug.val = none ∧
    ∀ user, s.control.roleOf user slug.val = none

section Calls

variable [Platform]

/-- Every call for the slug whose settings pass their assertions succeeds, and leaves all three
with its inputs. -/
def Creatable (slug : TenantSlug) (s : System) : Prop :=
  ∀ init : NewTenant, init.slug = slug → init.Checked →
    ∃ s', (createTenant init).run s = (.ok (), s') ∧ HasSettings init s' ∧
      HasDirectory init s'.control ∧ HasOwner init s'.control

/-- If the call fails when its query number `n` does, the tenant is registered, or it can still be
created. A failure to connect or to apply the schema leaves no more behind than one of query 1. -/
def StaysUsable (init : NewTenant) (failure : LedgerError) (n : Nat) (s : System) : Prop :=
  ∀ error s', (createTenant init).runFailing failure n s = (.error error, s') →
    Registered init.slug s' ∨ Creatable init.slug s'

/-- The call gets as far as creating its settings. -/
def CreatesSettings (init : NewTenant) (n : Nat) (s : System) : Prop :=
  s.control.directoryEntry init.slug.val = none ∧
    (s.namespaces init.slug.val).settings = none ∧ init.Checked ∧ 2 ≤ n

/-- The state with the settings of the call. -/
def withSettings (init : NewTenant) (s : System) : System :=
  s.setNamespace init.slug.val
    { s.namespaces init.slug.val with
      settings := some { init.settings with createdAt := s.now, updatedAt := s.now } }

/-! ## One call -/

section Failing

variable {init : NewTenant} {failure : LedgerError} {n : Nat} {s : System}

theorem runFailing_providing_error {e : DbError}
    (h : (s.namespaces init.slug.val).createSettings init s.now = .error e) :
    (providing init).runFailing failure (n + 1) s = (.error e.plain, s) := by
  unfold providing
  show Prog.runFailing failure n (Prog.bind _ _) _ = _
  simp [h, Prog.bind]

theorem runFailing_providing_ok {ns : Namespace}
    (h : (s.namespaces init.slug.val).createSettings init s.now = .ok ((), ns)) :
    (providing init).runFailing failure (n + 1) s =
      (registering init).runFailing failure n (s.setNamespace init.slug.val ns) := by
  unfold providing
  show Prog.runFailing failure n (Prog.bind _ _) _ = _
  simp only [h]
  rfl

/-- A call that creates no settings fails and changes nothing. -/
theorem fails_before (failure : LedgerError) (h : ¬ CreatesSettings init n s) :
    ∃ error, (createTenant init).runFailing failure n s = (.error error, s) := by
  rcases n with - | n
  · exact ⟨failure, rfl⟩
  · show ∃ error, Prog.runFailing failure n (if (s.control.directoryEntry init.slug.val).isSome =
      true then .err (.tenantExists init.slug.val) else providing init) s = (.error error, s)
    by_cases hdirectory : (s.control.directoryEntry init.slug.val).isSome = true
    · rw [if_pos hdirectory]
      exact ⟨_, Prog.runFailing_err _ _ _ _⟩
    · rw [if_neg hdirectory]
      rcases n with - | n
      · exact ⟨failure, rfl⟩
      · cases hset : (s.namespaces init.slug.val).createSettings init s.now with
        | error e => exact ⟨e.plain, runFailing_providing_error hset⟩
        | ok answer =>
            obtain ⟨hnone, hcheck, -⟩ := Namespace.createSettings_creates hset
            rw [Option.not_isSome_iff_eq_none] at hdirectory
            exact absurd ⟨hdirectory, hnone, hcheck, by omega⟩ h

/-- A call that creates its settings goes on to the registration. -/
theorem runFailing_of_creates (h : CreatesSettings init (n + 2) s) :
    (createTenant init).runFailing failure (n + 2) s =
      (registering init).runFailing failure n (withSettings init s) := by
  obtain ⟨hdirectory, hnone, hcheck, -⟩ := h
  show Prog.runFailing failure (n + 1) (if (s.control.directoryEntry init.slug.val).isSome =
      true then .err (.tenantExists init.slug.val) else providing init) s = _
  rw [hdirectory]
  exact runFailing_providing_ok (Namespace.createSettings_of_none hnone hcheck)

/-- No query of the call is number 3. -/
theorem runFailing_beyond (failure : LedgerError) (n : Nat) :
    (createTenant init).runFailing failure (n + 3) s = (createTenant init).run s := by
  show Prog.runFailing failure (n + 2) (if (s.control.directoryEntry init.slug.val).isSome =
    true then .err (.tenantExists init.slug.val) else providing init) s = Prog.run
      (if (s.control.directoryEntry init.slug.val).isSome = true then
        .err (.tenantExists init.slug.val) else providing init) s
  split
  · rfl
  · cases hset : (s.namespaces init.slug.val).createSettings init s.now with
    | error e =>
        rw [runFailing_providing_error hset]
        simp [providing, hset]
    | ok answer =>
        rw [runFailing_providing_ok hset]
        refine (Prog.runFailing_exec failure n _ _).trans ?_
        show (registering init).run _ = _
        simp only [providing, registering, Prog.run_bind, run_onTenant, hset]

/-- A call that creates its settings succeeds when its creator is not yet a member. It leaves all
three behind. -/
theorem run_of_creates (h : CreatesSettings init 3 s)
    (hrole : s.control.roleOf init.createdBy init.slug.val = none) :
    ∃ s', (createTenant init).run s = (.ok (), s') ∧ HasSettings init s' ∧
      HasDirectory init s'.control ∧ HasOwner init s'.control := by
  obtain ⟨c, hc⟩ : ∃ c, s.control.registerTenant init s.now = .ok ((), c) :=
    Control.registerTenant_of_free h.1 hrole
  obtain ⟨d, m, hd, hm, hdirectory, hmemberships, -⟩ := Control.registerTenant_rows hc
  have hrun : (registering init).run (withSettings init s) =
      (.ok (), { withSettings init s with control := c }) := by
    simp [registering, withSettings, hc]
  refine ⟨{ withSettings init s with control := c }, ?_, ⟨_, by simp [withSettings]; rfl, rfl⟩,
    ⟨d, (hdirectory d).mpr (.inr rfl), by simp [hd]⟩,
    ⟨m, (hmemberships m).mpr (.inr rfl), by simp [NewTenant.IsOwner, hm]⟩⟩
  rw [← runFailing_beyond .notFound 0, runFailing_of_creates h]
  exact (Prog.runFailing_exec .notFound 0 _ _).trans hrun

/-- Otherwise it leaves its settings behind. -/
theorem run_of_member (h : CreatesSettings init 3 s)
    (hrole : s.control.roleOf init.createdBy init.slug.val ≠ none) :
    ∃ error, (createTenant init).run s = (.error error, withSettings init s) := by
  rw [← runFailing_beyond .notFound 0, runFailing_of_creates h]
  have hexec : (registering init).runFailing .notFound 1 (withSettings init s) =
      (registering init).run (withSettings init s) := Prog.runFailing_exec _ 0 _ _
  rw [hexec]
  cases hregister : s.control.registerTenant init s.now with
  | error e => exact ⟨e.plain, by simp [registering, withSettings, hregister]⟩
  | ok answer =>
      obtain ⟨_, _, _, _, _, _, _, _, _, hnone⟩ := Control.registerTenant_rows hregister
      exact absurd hnone hrole

theorem creates_of_run {s' : System} (h : (createTenant init).run s = (.ok (), s')) :
    CreatesSettings init 3 s ∧ s.control.roleOf init.createdBy init.slug.val = none := by
  by_cases hcreates : CreatesSettings init 3 s
  · by_cases hrole : s.control.roleOf init.createdBy init.slug.val = none
    · exact ⟨hcreates, hrole⟩
    · obtain ⟨error, hfailed⟩ := run_of_member hcreates hrole
      cases hfailed.symm.trans h
  · obtain ⟨error, hfailed⟩ := fails_before .notFound hcreates
    rw [runFailing_beyond .notFound 0] at hfailed
    cases hfailed.symm.trans h

end Failing

/-! ## Later calls -/

/-- A slug can be created exactly when there is no trace of it. -/
theorem creatable_iff_free (slug : TenantSlug) (s : System) : Creatable slug s ↔ Free slug s := by
  constructor
  · intro h
    -- a call of each user with settings that pass
    have hcreates : ∀ user, ∃ init : NewTenant, init.slug = slug ∧ CreatesSettings init 3 s ∧
        s.control.roleOf user slug.val = none := by
      intro user
      have hfits : I64.Fits 0 := by decide
      obtain ⟨s', hs', -⟩ := h ⟨slug, "", "UTC", "USD", "monthly", 0, user⟩ rfl
        ⟨rfl, hfits, le_refl _⟩
      exact ⟨_, rfl, creates_of_run hs'⟩
    obtain ⟨init, rfl, hinit, -⟩ := hcreates 0
    refine ⟨hinit.2.1, hinit.1, fun user => ?_⟩
    obtain ⟨_, _, _, hrole⟩ := hcreates user
    exact hrole
  · rintro ⟨hsettings, hdirectory, hroles⟩ init rfl hcheck
    exact run_of_creates ⟨hdirectory, hsettings, hcheck, by decide⟩ (hroles init.createdBy)

/-- A slug with settings and without a directory row is neither registered nor creatable. -/
theorem stuck_withSettings (init : NewTenant) {s : System}
    (hdirectory : s.control.directoryEntry init.slug.val = none) :
    ¬ (Registered init.slug (withSettings init s) ∨ Creatable init.slug (withSettings init s)) := by
  rintro (⟨-, hregistered, -⟩ | hcreatable)
  · have hnone : (withSettings init s).control.directoryEntry init.slug.val = none := hdirectory
    rw [hnone] at hregistered
    cases hregistered
  · obtain ⟨hnone, -⟩ := (creatable_iff_free _ _).mp hcreatable
    simp [withSettings] at hnone

/-- When the call creates its settings, its registration is not the query that fails, and its
creator is not yet a member. When it does not, the slug was registered or free before. -/
def GoesThrough (init : NewTenant) (n : Nat) (s : System) : Prop :=
  (CreatesSettings init n s → 3 ≤ n ∧ s.control.roleOf init.createdBy init.slug.val = none) ∧
    (¬ CreatesSettings init n s → Registered init.slug s ∨ Free init.slug s)

theorem stays_usable_iff (init : NewTenant) (failure : LedgerError) (n : Nat) (s : System) :
    StaysUsable init failure n s ↔ GoesThrough init n s := by
  unfold StaysUsable GoesThrough
  by_cases hcreates : CreatesSettings init n s
  · simp only [hcreates, not_true, false_implies, and_true, true_implies]
    obtain ⟨n, rfl⟩ : ∃ k, n = k + 2 := ⟨n - 2, by have := hcreates.2.2.2; omega⟩
    have hstuck := stuck_withSettings init hcreates.1
    rcases n with - | n
    · -- the registration is the query that fails
      rw [runFailing_of_creates hcreates]
      exact iff_of_false (fun h => hstuck (h failure _ rfl)) fun h => absurd h.1 (by omega)
    · rw [runFailing_beyond failure n]
      have hthree : CreatesSettings init 3 s := ⟨hcreates.1, hcreates.2.1, hcreates.2.2.1, by omega⟩
      by_cases hrole : s.control.roleOf init.createdBy init.slug.val = none
      · obtain ⟨s', hrun, -⟩ := run_of_creates hthree hrole
        exact iff_of_true (fun _ _ h => by cases hrun.symm.trans h) ⟨by omega, hrole⟩
      · obtain ⟨error, hrun⟩ := run_of_member hthree hrole
        exact iff_of_false (fun h => hstuck (h error _ hrun)) fun h => hrole h.2
  · obtain ⟨error, hrun⟩ := fails_before failure hcreates
    simp only [hcreates, false_implies, true_and, not_false_eq_true, true_implies, hrun,
      ← creatable_iff_free]
    constructor
    · exact fun h => h error s rfl
    · rintro h error' s' hs'
      obtain ⟨-, rfl⟩ := Prod.mk.inj hs'
      exact h

end Calls

/-! ## Ann's venture -/

section Sample

attribute [local instance] Platform.sample

/-- The registration of Ann's venture fails once, and nobody can create the venture any more. -/
theorem stuck_ann : ¬ StaysUsable (sampleTenant 10000) (.db "connection lost") 2
    (Trace.exec Roster.step [signIn "ann@pool.org"] (System.empty juneNoon)) := by
  have hcreates : CreatesSettings (sampleTenant 10000) 2
      (Trace.exec Roster.step [signIn "ann@pool.org"] (System.empty juneNoon)) :=
    ⟨by decide, rfl, ⟨rfl, by decide, by decide⟩, le_refl 2⟩
  intro h
  exact stuck_withSettings (sampleTenant 10000) hcreates.1
    (h (.db "connection lost") _ (runFailing_of_creates hcreates))

end Sample

end HalfFounded

end SharamLedger
