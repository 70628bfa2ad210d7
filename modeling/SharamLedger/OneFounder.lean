import SharamLedger.Ledger.Founding
import SharamLedger.Lib.Pool
import SharamLedger.Sample

/-!
# Tenants created at the same time

Several `create_tenant` calls may find a slug free. The `CREATE` of the settings under their fixed
record id lets one of them pass, and no other call ever writes what the registration of that one
leaves behind.
-/

namespace SharamLedger

open Lib

namespace OneFounder

/-- Settings that exist stay as they are, and directory rows and memberships stay. -/
structure Kept (s s' : System) : Prop where
  settings : ∀ slug row, (s.namespaces slug).settings = some row →
    (s'.namespaces slug).settings = some row
  directory : ∀ d ∈ s.control.tenantDirectory.rows, d ∈ s'.control.tenantDirectory.rows
  memberships : ∀ m ∈ s.control.membership.rows, m ∈ s'.control.membership.rows

theorem Kept.refl (s : System) : Kept s s := ⟨fun _ _ h => h, fun _ h => h, fun _ h => h⟩

theorem Kept.trans {s s' s'' : System} (h : Kept s s') (h' : Kept s' s'') : Kept s s'' where
  settings slug row hrow := h'.settings slug row (h.settings slug row hrow)
  directory d hd := h'.directory d (h.directory d hd)
  memberships m hm := h'.memberships m (h.memberships m hm)

theorem Kept.hasSettings {s s' : System} {init : NewTenant} (h : Kept s s')
    (hs : HasSettings init s) : HasSettings init s' := by
  obtain ⟨row, hrow, hinit⟩ := hs
  exact ⟨row, h.settings _ _ hrow, hinit⟩

theorem Kept.hasDirectory {s s' : System} {init : NewTenant} (h : Kept s s')
    (hs : HasDirectory init s.control) : HasDirectory init s'.control := by
  obtain ⟨d, hd, hinit⟩ := hs
  exact ⟨d, h.directory d hd, hinit⟩

theorem Kept.hasOwner {s s' : System} {init : NewTenant} (h : Kept s s')
    (hs : HasOwner init s.control) : HasOwner init s'.control := by
  obtain ⟨m, hm, hinit⟩ := hs
  exact ⟨m, h.memberships m hm, hinit⟩

section Runs

variable [Platform]

/-- The service of `create_tenant` calls. The one event of the world is a new clock reading. -/
def tenants : Pool.Service System LedgerError NewTenant DateTime Unit where
  program := createTenant
  world now s := s.setNow now

abbrev TenantPool := Pool.State System LedgerError NewTenant Unit

abbrev TenantAction := Pool.Action LedgerError NewTenant DateTime

abbrev step (a : TenantAction) (s : TenantPool) : TenantPool := Pool.step tenants a s

/-! ## One call -/

/-- How far a call has come, and what it has left behind. -/
inductive Stage (init : NewTenant) (s : System) (p : LedgerProg Unit) : Prop where
  | whole : p = createTenant init → Stage init s p
  | providing : p = SharamLedger.providing init → Stage init s p
  | registering : p = SharamLedger.registering init → HasSettings init s → Stage init s p
  | failed (error : LedgerError) : p = .err error → Stage init s p
  | returned : p = .ok () → HasSettings init s → HasDirectory init s.control →
      HasOwner init s.control → Stage init s p

/-- The call has created its settings. -/
def Passed (init : NewTenant) (p : LedgerProg Unit) : Prop := p = registering init ∨ p = .ok ()

variable {init : NewTenant} {s s' : System} {p : LedgerProg Unit}

theorem Stage.mono (h : Stage init s p) (hkept : Kept s s') : Stage init s' p := by
  cases h with
  | whole hp => exact .whole hp
  | providing hp => exact .providing hp
  | registering hp hsettings => exact .registering hp (hkept.hasSettings hsettings)
  | failed error hp => exact .failed error hp
  | returned hp hsettings hdirectory howner =>
      exact .returned hp (hkept.hasSettings hsettings) (hkept.hasDirectory hdirectory)
        (hkept.hasOwner howner)

theorem not_passed_whole : ¬ Passed init (createTenant init) := by
  rintro (h | h)
  · exact registering_effect h.symm rfl
  · cases h

theorem not_passed_providing : ¬ Passed init (providing init) := by
  rintro (h | h)
  · refine registering_effect h.symm ?_
    cases hset : ((System.empty 0).namespaces init.slug.val).createSettings init
        (System.empty 0).now with
    | error e => simp only [hset]; rfl
    | ok answer => simp only [hset]; rfl
  · cases h

theorem not_passed_err (error : LedgerError) : ¬ Passed init (.err error) := by
  rintro (h | h) <;> cases h

/-- What a query of the call does. -/
structure Founds (init : NewTenant) (s s' : System) (p p' : LedgerProg Unit) : Prop where
  stage : Stage init s' p'
  kept : Kept s s'
  passes : Passed init p' → Passed init p ∨ (s.namespaces init.slug.val).settings = none
  memberships : ∀ m ∈ s'.control.membership.rows, m ∈ s.control.membership.rows ∨
    (p' = .ok () ∧ init.IsOwner m)

/-- A query that writes nothing and does not pass. -/
theorem founds_same {p' : LedgerProg Unit} (h : Stage init s p') (hp' : ¬ Passed init p') :
    Founds init s s p p' :=
  ⟨h, .refl s, fun hpassed => absurd hpassed hp', fun _ hm => .inl hm⟩

theorem founds_of_query {effect : System → System} {next : System → LedgerProg Unit}
    (h : Stage init s (.query effect next)) :
    Founds init s (effect s) (.query effect next) (next s) := by
  cases h with
  | whole hp =>
      rw [createTenant_eq] at hp
      obtain ⟨rfl, rfl⟩ := Prog.query.inj hp
      show Founds init s s _ (if (s.control.directoryEntry init.slug.val).isSome = true then
        .err (.tenantExists init.slug.val) else providing init)
      split
      · exact founds_same (.failed _ rfl) (not_passed_err _)
      · exact founds_same (.providing rfl) not_passed_providing
  | providing hp =>
      obtain ⟨rfl, rfl⟩ := Prog.query.inj hp
      cases hset : (s.namespaces init.slug.val).createSettings init s.now with
      | error e =>
          simp only [hset]
          exact founds_same (.failed _ rfl) (not_passed_err _)
      | ok answer =>
          obtain ⟨u, ns⟩ := answer
          obtain ⟨hnone, -, row, hrow, rfl⟩ := Namespace.createSettings_creates hset
          simp only [hset]
          refine ⟨.registering rfl ⟨row, by simp, hrow⟩, ⟨fun slug old hold => ?_, fun _ hd => hd,
            fun _ hm => hm⟩, fun _ => .inr hnone, fun _ hm => .inl hm⟩
          -- the settings of the slug itself are new
          have hne : slug ≠ init.slug.val := by
            rintro rfl
            cases hnone.symm.trans hold
          rw [System.namespaces_setNamespace_of_ne s _ hne, hold]
  | registering hp hsettings =>
      have hpassed : Passed init (.query effect next) := .inl hp
      obtain ⟨rfl, rfl⟩ := Prog.query.inj hp
      cases hregister : s.control.registerTenant init s.now with
      | error e =>
          simp only [hregister]
          exact founds_same (.failed _ rfl) (not_passed_err _)
      | ok answer =>
          obtain ⟨u, c⟩ := answer
          obtain ⟨d, m, hd, hm, hdirectory, hmemberships, -⟩ :=
            Control.registerTenant_rows hregister
          simp only [hregister]
          refine ⟨.returned rfl hsettings ⟨d, (hdirectory d).mpr (.inr rfl), by simp [hd]⟩
            ⟨m, (hmemberships m).mpr (.inr rfl), by simp [NewTenant.IsOwner, hm]⟩,
            ⟨fun _ _ h => h, fun x hx => (hdirectory x).mpr (.inl hx),
              fun x hx => (hmemberships x).mpr (.inl hx)⟩,
            fun _ => .inl hpassed, fun x hx => ?_⟩
          rcases (hmemberships x).mp hx with hx | rfl
          · exact .inl hx
          · exact .inr ⟨rfl, by simp [NewTenant.IsOwner, hm]⟩
  | failed error hp => cases hp
  | returned hp => cases hp

/-- A call that has passed has its settings in place. -/
theorem Stage.settings (h : Stage init s p) (hpassed : Passed init p) : HasSettings init s := by
  cases h with
  | whole hp => exact absurd (hp ▸ hpassed) not_passed_whole
  | providing hp => exact absurd (hp ▸ hpassed) not_passed_providing
  | failed error hp => exact absurd (hp ▸ hpassed) (not_passed_err error)
  | registering _ hsettings | returned _ hsettings _ _ => exact hsettings

/-! ## Calls in flight -/

/-- What every run keeps: for each slug one call at most has passed, and every new membership is
the owner's of a call that has returned. -/
structure Founding (store : System) (s : TenantPool) : Prop where
  stages : Pool.Threads (fun init p s => Stage init s p) s
  sole : ∀ key key' init init' p p', s.calls key = some (init, p) →
    s.calls key' = some (init', p') → Passed init p → Passed init' p' →
    init.slug = init'.slug → key = key'
  kept : Kept store s.store
  memberships : ∀ m ∈ s.store.control.membership.rows, m ∈ store.control.membership.rows ∨
    ∃ key init, s.Returned key init () ∧ init.IsOwner m

theorem founding_idle (store : System) : Founding store (.idle store) where
  stages := Pool.threads_idle store
  sole _ _ _ _ _ _ h := by cases h
  kept := .refl store
  memberships _ hm := .inl hm

/-- One call gets as far as `p'` and moves the store with it. -/
theorem founding_setCall {store store' : System} {s : TenantPool} {key : Nat}
    {p' : LedgerProg Unit} (hs : Founding store s) (hstage : Stage init store' p')
    (hkept : Kept s.store store')
    (hpasses : Passed init p' → (∃ p, s.calls key = some (init, p) ∧ Passed init p) ∨
      (s.store.namespaces init.slug.val).settings = none)
    (hmemberships : ∀ m ∈ store'.control.membership.rows, m ∈ s.store.control.membership.rows ∨
      (p' = .ok () ∧ init.IsOwner m))
    (hrunning : ∀ init', ¬ s.Returned key init' ()) :
    Founding store { s.setCall key (init, p') with store := store' } := by
  -- nobody else has passed with the slug of a call that passes
  have hothers : ∀ k init' p'', k ≠ key → s.calls k = some (init', p'') → Passed init p' →
      Passed init' p'' → init.slug ≠ init'.slug := by
    intro k init' p'' hk hcall hpassed hpassed' hslug
    rcases hpasses hpassed with ⟨p, hkey, hbefore⟩ | hnone
    · exact hk (hs.sole key k init init' p p'' hkey hcall hbefore hpassed' hslug).symm
    · obtain ⟨row, hrow, -⟩ := (hs.stages k init' p'' hcall).settings hpassed'
      rw [← hslug, hnone] at hrow
      cases hrow
  refine ⟨fun k init' p'' hcall => ?_, fun k k' init₁ init₂ p₁ p₂ h₁ h₂ hp₁ hp₂ hslug => ?_,
    hs.kept.trans hkept, fun m hm => ?_⟩
  · rcases Pool.State.calls_setCall_cases hcall with ⟨-, hentry⟩ | ⟨-, hcall⟩
    · obtain ⟨rfl, rfl⟩ := Prod.mk.inj hentry
      exact hstage
    · exact (hs.stages k init' p'' hcall).mono hkept
  · rcases Pool.State.calls_setCall_cases h₁ with ⟨rfl, hentry⟩ | ⟨hk, hold₁⟩ <;>
      rcases Pool.State.calls_setCall_cases h₂ with ⟨rfl, hentry'⟩ | ⟨hk', hold₂⟩
    · rfl
    · obtain ⟨rfl, rfl⟩ := Prod.mk.inj hentry
      exact absurd hslug (hothers k' init₂ p₂ hk' hold₂ hp₁ hp₂)
    · obtain ⟨rfl, rfl⟩ := Prod.mk.inj hentry'
      exact absurd hslug.symm (hothers k init₁ p₁ hk hold₁ hp₂ hp₁)
    · exact hs.sole k k' init₁ init₂ p₁ p₂ hold₁ hold₂ hp₁ hp₂ hslug
  · rcases hmemberships m hm with hm | ⟨rfl, howner⟩
    · refine (hs.memberships m hm).imp_right fun ⟨k, init', hreturned, howner⟩ => ?_
      have hk : k ≠ key := by
        rintro rfl
        exact hrunning init' hreturned
      exact ⟨k, init', (s.calls_setCall_of_ne hk _).trans hreturned, howner⟩
    · exact .inr ⟨key, init, s.calls_setCall_self key _, howner⟩

theorem founding_step {store : System} {s : TenantPool} (a : TenantAction)
    (hs : Founding store s) : Founding store (step a s) := by
  have hstep : Pool.Stepped tenants s a (step a s) := Pool.stepped a s
  generalize step a s = s' at hstep ⊢
  cases hstep with
  | same => exact hs
  | started hkey =>
      exact founding_setCall hs (.whole rfl) (.refl _) (fun h => absurd h not_passed_whole)
        (fun _ hm => .inl hm) fun _ h => by cases hkey.symm.trans h
  | advanced hkey =>
      have hfounds := founds_of_query (hs.stages _ _ _ hkey)
      exact founding_setCall hs hfounds.stage hfounds.kept
        (fun h => (hfounds.passes h).imp_left fun hp => ⟨_, hkey, hp⟩) hfounds.memberships
        fun _ h => by cases hkey.symm.trans h
  | failed hkey =>
      exact founding_setCall hs (.failed _ rfl) (.refl _) (fun h => absurd h (not_passed_err _))
        (fun _ hm => .inl hm) fun _ h => by cases hkey.symm.trans h
  | @event now =>
      have hkept : Kept s.store (s.store.setNow now) := ⟨fun _ _ h => h, fun _ h => h, fun _ h => h⟩
      exact ⟨fun key init p h => (hs.stages key init p h).mono hkept, hs.sole,
        hs.kept.trans hkept, hs.memberships⟩

theorem kept_step {store : System} {s : TenantPool} (a : TenantAction) (hs : Founding store s) :
    Kept s.store (step a s).store := by
  have hstep : Pool.Stepped tenants s a (step a s) := Pool.stepped a s
  generalize step a s = s' at hstep ⊢
  cases hstep with
  | same | started | failed => exact .refl _
  | advanced hkey => exact (founds_of_query (hs.stages _ _ _ hkey)).kept
  | event => exact ⟨fun _ _ h => h, fun _ h => h, fun _ h => h⟩

/-! ## Runs -/

/-- Directory row, settings and the one new membership of the slug carry the inputs of the call. -/
structure Carries (init : NewTenant) (store s : System) : Prop where
  settings : HasSettings init s
  directory : HasDirectory init s.control
  owner : ∃ m ∈ s.control.membership.rows, init.IsOwner m ∧
    ∀ x ∈ s.control.membership.rows, x.row.tenantSlug = init.slug.val →
      x = m ∨ x ∈ store.control.membership.rows

/-- Nothing of the slug has changed: settings, directory row and memberships. -/
structure Unaltered (slug : TenantSlug) (s s' : System) : Prop where
  settings : (s'.namespaces slug.val).settings = (s.namespaces slug.val).settings
  directory : ∀ d, d.row.slug = slug.val →
    (d ∈ s'.control.tenantDirectory.rows ↔ d ∈ s.control.tenantDirectory.rows)
  memberships : ∀ m, m.row.tenantSlug = slug.val →
    (m ∈ s'.control.membership.rows ↔ m ∈ s.control.membership.rows)

/-- For each slug one call at most returns. The tenant carries its inputs from then on, and nothing
of it changes any more. -/
def OneReturns (actions : List TenantAction) (store : System) : Prop :=
  ∀ earlier later, actions = earlier ++ later →
    (∀ key key' init init', (Trace.exec step earlier (.idle store)).Returned key init () →
      (Trace.exec step earlier (.idle store)).Returned key' init' () →
      init.slug = init'.slug → key = key') ∧
    ∀ key init, (Trace.exec step earlier (.idle store)).Returned key init () →
      Carries init store (Trace.exec step earlier (.idle store)).store ∧
      Unaltered init.slug (Trace.exec step earlier (.idle store)).store
        (Trace.exec step actions (.idle store)).store

theorem Founding.carries {store : System} {s : TenantPool} {key : Nat} (hs : Founding store s)
    (hreturned : s.Returned key init ()) : Carries init store s.store := by
  cases hs.stages key init _ hreturned with
  | whole hp | providing hp => cases hp
  | registering hp | failed error hp => cases hp
  | returned _ hsettings hdirectory howner =>
      obtain ⟨m, hm, howner⟩ := howner
      refine ⟨hsettings, hdirectory, m, hm, howner, fun x hx hslug => ?_⟩
      rcases hs.memberships x hx with hx' | ⟨key', init', hreturned', howner'⟩
      · exact .inr hx'
      · have hslug' : init'.slug = init.slug :=
          TenantSlug.eq_of_val (howner'.2.1.symm.trans hslug)
        obtain rfl := hs.sole key' key init' init _ _ hreturned' hreturned (.inr rfl) (.inr rfl)
          hslug'
        obtain ⟨rfl, -⟩ := Prod.mk.inj (Option.some.inj (hreturned'.symm.trans hreturned))
        exact .inl (Control.membership_eq hx hm (howner'.1.trans howner.1.symm)
          (howner'.2.1.trans howner.2.1.symm))

/-- Nothing of a slug changes once a call for it has returned. -/
theorem unaltered_of_returned {store : System} {s s' : TenantPool} {key : Nat}
    (hs : Founding store s) (hs' : Founding store s') (hkept : Kept s.store s'.store)
    (hreturned : s.Returned key init ()) (hreturned' : s'.Returned key init ()) :
    Unaltered init.slug s.store s'.store := by
  have hcarries := hs.carries hreturned
  have hcarries' := hs'.carries hreturned'
  refine ⟨?_, fun d hslug => ⟨fun hd => ?_, hkept.directory d⟩,
    fun m hslug => ⟨fun hm => ?_, hkept.memberships m⟩⟩
  · obtain ⟨row, hrow, -⟩ := hcarries.settings
    rw [hrow, hkept.settings _ _ hrow]
  · obtain ⟨d', hd', hslug', -⟩ := hcarries.directory
    have hcollides : Indexed.collides d.row d'.row = true := by
      simp [Indexed.collides, hslug, hslug']
    rwa [Table.eq_of_collides hd (hkept.directory d' hd') hcollides]
  · obtain ⟨m₁, hm₁, howner₁, -⟩ := hcarries.owner
    obtain ⟨m₂, hm₂, howner₂, hothers⟩ := hcarries'.owner
    rcases hothers m hm hslug with rfl | hm
    · rwa [Control.membership_eq hm₂ (hkept.memberships m₁ hm₁)
        (howner₂.1.trans howner₁.1.symm) (howner₂.2.1.trans howner₁.2.1.symm)]
    · exact hs.kept.memberships m hm

/-- Whatever `create_tenant` calls interleave, from whatever store, and whichever of their queries
fail. -/
theorem one_returns (actions : List TenantAction) (store : System) : OneReturns actions store := by
  rintro earlier later rfl
  have hs : Founding store (Trace.exec step earlier (.idle store)) :=
    Trace.exec_invariant (fun a _ => founding_step a) earlier (founding_idle store)
  rw [Trace.exec_append]
  generalize Trace.exec step earlier (.idle store) = s at hs
  refine ⟨fun key key' init init' h h' =>
    hs.sole key key' init init' _ _ h h' (.inr rfl) (.inr rfl),
    fun key init hreturned => ⟨hs.carries hreturned, ?_⟩⟩
  obtain ⟨hs', hkept, hreturned'⟩ := Trace.exec_invariant
    (I := fun x => Founding store x ∧ Kept s.store x.store ∧ x.Returned key init ())
    (fun a x hx => ⟨founding_step a hx.1, hx.2.1.trans (kept_step a hx.1), hx.2.2.step⟩) later
    ⟨hs, .refl s.store, hreturned⟩
  exact unaltered_of_returned hs hs' hkept hreturned hreturned'

end Runs

/-! ## Two calls for one slug -/

section Sample

attribute [local instance] Platform.sample

/-- Both calls find the slug free, and the one that creates the settings first returns. -/
example : (Trace.exec step [.start 0 (sampleTenant 10000), .start 1 (sampleTenant 500), .advance 0,
    .advance 1, .advance 1, .advance 0, .advance 1] (.idle (System.empty juneNoon))).Returned 1
      (sampleTenant 500) () := rfl

end Sample

end OneFounder

end SharamLedger
