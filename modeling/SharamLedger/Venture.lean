import SharamLedger.CurrentPeriod
import SharamLedger.Gateway.Contributions
import SharamLedger.Gateway.Settings
import SharamLedger.Lib.Trace

/-!
# A venture over time

Runs in which time passes, owners change settings and members pay, through the gateway and on
any tenants. `step_cases` says all that one action does, and `recorded_row` what an accepted
payment writes.
-/

namespace SharamLedger

open Lib

/-- What happens to the ventures of a deployment. The clock never goes back. -/
inductive VentureAction where
  | tick (elapsed : Nat)
  | patchSettings (slug : String) (headers : Headers) (payload : Extracted PatchSettingsRequest)
  | postContribution (slug : String) (headers : Headers)
      (payload : Extracted PostContributionRequest)

namespace Venture

variable [Platform]

/-- The state after an action, whatever the response. -/
def step (a : VentureAction) (s : System) : System :=
  match a with
  | .tick elapsed => s.setNow (s.now + elapsed)
  | .patchSettings slug headers payload => ((patchSettings slug headers payload).run s).2
  | .postContribution slug headers payload => ((postContribution slug headers payload).run s).2

/-- An action changes nothing, moves the clock, patches the settings of one tenant, or records
one payment. -/
theorem step_cases (a : VentureAction) (s : System) :
    step a s = s ∨ (∃ elapsed, a = .tick elapsed ∧ step a s = s.setNow (s.now + elapsed)) ∨
      (∃ slug headers payload, a = .patchSettings slug headers payload ∧
        PatchApplied slug headers payload s (step a s)) ∨
      ∃ slug headers payload, a = .postContribution slug headers payload ∧
        PaymentRecorded slug headers payload s (step a s) := by
  cases a with
  | tick elapsed => exact .inr (.inl ⟨elapsed, rfl, rfl⟩)
  | patchSettings slug headers payload =>
      rcases patchSettings_spec slug headers payload s with ⟨e, he⟩ | hsame | happlied
      · exact .inl (by simp [step, he])
      · exact .inl hsame
      · exact .inr (.inr (.inl ⟨slug, headers, payload, rfl, happlied⟩))
  | postContribution slug headers payload =>
      rcases postContribution_spec slug headers payload s with ⟨e, he⟩ | ⟨-, hrecorded⟩
      · exact .inl (by simp [step, he])
      · exact .inr (.inr (.inr ⟨slug, headers, payload, rfl, hrecorded⟩))

/-- Actions do not turn the clock back. -/
theorem now_le_step (a : VentureAction) (s : System) : s.now ≤ (step a s).now := by
  rcases step_cases a s with h | ⟨elapsed, -, h⟩ | ⟨slug, headers, payload, -, h⟩ |
    ⟨slug, headers, payload, -, h⟩
  · rw [h]
  · rw [h]
    exact Nat.le_add_right _ _
  · obtain ⟨p, identity, row, ns', -, -, -, -, -, h⟩ := h
    rw [h]
    exact le_refl _
  · obtain ⟨p, identity, settings, period, record, ns', -, -, -, -, -, -, -, h⟩ := h
    rw [h]
    exact le_refl _

/-- Actions leave the control plane as it is. -/
@[simp] theorem control_step (a : VentureAction) (s : System) : (step a s).control = s.control := by
  rcases step_cases a s with h | ⟨elapsed, -, h⟩ | ⟨slug, headers, payload, -, h⟩ |
    ⟨slug, headers, payload, -, h⟩
  · rw [h]
  · rw [h]
    rfl
  · obtain ⟨p, identity, row, ns', -, -, -, -, -, h⟩ := h
    rw [h]
    rfl
  · obtain ⟨p, identity, settings, period, record, ns', -, -, -, -, -, -, -, h⟩ := h
    rw [h]
    rfl

/-- The gateway's current period is the one of the stored zone and cadence. -/
theorem currentPeriodOf_ok {now : DateTime} {settings : TenantSettings} {period : String}
    (h : currentPeriodOf now settings = .ok period) :
    ∃ tz c, parseTz settings.timezone = .ok tz ∧ settings.cadence = c.asStr ∧
      period = (Period.currentIn tz c now).render := by
  unfold currentPeriodOf at h
  cases htz : parseTz settings.timezone with
  | error e => simp [htz] at h
  | ok tz =>
      cases hc : Cadence.fromStr settings.cadence with
      | error e => simp [htz, hc] at h
      | ok c =>
          simp only [htz, hc, Except.ok.injEq] at h
          exact ⟨tz, c, rfl, Cadence.asStr_of_fromStr hc, h.symm⟩

/-- An accepted payment appends one row, for the period on the tenant's wall clock. -/
structure Recorded (s s' : System) (slug : String) (settings : Settings) (tz : Tz) (c : Cadence)
    (r : ContributionRecord) : Prop where
  stored : (s.namespaces slug).settings = some settings
  timezone : parseTz settings.timezone = .ok tz
  settingsCadence : settings.cadence = c.asStr
  rows : (s'.namespaces slug).contribution.rows = (s.namespaces slug).contribution.rows ++ [r]
  kept : (s'.namespaces slug).settings = some settings
  others : ∀ slug', slug' ≠ slug → s'.namespaces slug' = s.namespaces slug'
  control : s'.control = s.control
  now : s'.now = s.now
  cadence : r.row.cadence = c.asStr
  period : r.row.period = (Period.currentIn tz c s.now).render
  year : (Period.currentIn tz c s.now).year ≤ 9999
  notPast : ¬ r.row.Past s.now

theorem recorded_row {slug : String} {headers : Headers}
    {payload : Extracted PostContributionRequest} {s s' : System}
    (h : PaymentRecorded slug headers payload s s') :
    ∃ settings tz c r, Recorded s s' slug settings tz c r := by
  obtain ⟨p, identity, settings, period, r, ns', -, -, -, -, hstored, hperiod, hadd, rfl⟩ := h
  obtain ⟨tz, c, htz, hc, rfl⟩ := currentPeriodOf_ok hperiod
  obtain ⟨hcheck, hrow, hpast, -, hcreate, hsettings, -⟩ := Namespace.createContribution_ok hadd
  have htext : isPeriodText (Period.currentIn tz c s.now).render = true :=
    (Contribution.of_check hcheck).2.2.2
  exact ⟨settings, tz, c, r,
    { stored := hstored
      timezone := htz
      settingsCadence := hc
      rows := by simpa using (Table.create_some hcreate).2.1
      kept := by simpa [hstored] using hsettings
      others := fun slug' hne => System.namespaces_setNamespace_of_ne _ _ hne
      control := rfl
      now := rfl
      cadence := by rw [hrow]; exact hc
      period := by rw [hrow]; rfl
      year := (Period.isPeriodText_render c (localDay_ge tz s.now)).mp htext
      notPast := hpast }⟩

/-- An accepted patch changes the settings of a tenant and nothing else. -/
structure Patched (s s' : System) (slug : String) (headers : Headers) (p : PatchSettingsRequest)
    (old : Settings) : Prop where
  owner : ∃ identity, authResult headers s.now = .ok identity ∧
    s.control.roleFor identity.email slug = some "owner"
  checked : p.check = .ok ()
  stored : (s.namespaces slug).settings = some old
  asserted :
    Settings.check { Namespace.mergeSettings p.toPatch old with updatedAt := s.now } = .ok ()
  patched : (s'.namespaces slug).settings =
    some { Namespace.mergeSettings p.toPatch old with updatedAt := s.now }
  kept : (s'.namespaces slug).contribution = (s.namespaces slug).contribution
  now : s'.now = s.now

/-- What one action does to one tenant: nothing, or it moves the clock, changes the settings or
records a payment. -/
inductive Meets (s s' : System) (slug : String) : VentureAction → Prop
  | other {a : VentureAction} : s'.namespaces slug = s.namespaces slug → s'.now = s.now →
      Meets s s' slug a
  | tick (elapsed : Nat) : s' = s.setNow (s.now + elapsed) → Meets s s' slug (.tick elapsed)
  | patched {headers : Headers} {p : PatchSettingsRequest} {old : Settings} :
      Patched s s' slug headers p old → Meets s s' slug (.patchSettings slug headers (.ok p))
  | recorded {headers : Headers} {payload : Extracted PostContributionRequest}
      {settings : Settings} {tz : Tz} {c : Cadence} {r : ContributionRecord} :
      Recorded s s' slug settings tz c r → Meets s s' slug (.postContribution slug headers payload)

theorem meets_step (a : VentureAction) (s : System) (slug : String) :
    Meets s (step a s) slug a := by
  rcases step_cases a s with h | ⟨elapsed, rfl, h⟩ | ⟨path, headers, payload, rfl, h⟩ |
    ⟨path, headers, payload, rfl, h⟩
  · exact .other (by rw [h]) (by rw [h])
  · exact .tick elapsed h
  · obtain ⟨p, identity, row, ns', rfl, hcheck, hauth, howner, hpatch, h⟩ := h
    by_cases hpath : slug = path
    · subst hpath
      rcases Namespace.patchSettings_ok hpatch with ⟨-, habsurd, -⟩ | ⟨old, hold, hassert, -, rfl⟩
      · cases habsurd
      · exact .patched
          { owner := ⟨identity, hauth, howner⟩
            checked := hcheck
            stored := hold
            asserted := hassert
            patched := by rw [h, System.namespaces_setNamespace_same]
            kept := by rw [h, System.namespaces_setNamespace_same]
            now := by rw [h, System.now_setNamespace] }
    · refine .other ?_ (by rw [h, System.now_setNamespace])
      rw [h, System.namespaces_setNamespace_of_ne _ _ hpath]
  · obtain ⟨settings, tz, c, r, hr⟩ := recorded_row h
    by_cases hpath : slug = path
    · subst hpath
      exact .recorded hr
    · exact .other (hr.others slug hpath) hr.now

/-- A venture keeps having settings. -/
theorem settings_step (a : VentureAction) (s : System) (slug : String)
    (h : (s.namespaces slug).settings.isSome = true) :
    ((step a s).namespaces slug).settings.isSome = true := by
  generalize hstep : step a s = s'
  have hmeets : Meets s s' slug a := hstep ▸ meets_step a s slug
  cases hmeets with
  | other hsame _ => rw [hsame]; exact h
  | tick elapsed hclock => rw [hclock]; exact h
  | patched hp => rw [hp.patched]; rfl
  | recorded hr => rw [hr.kept]; rfl

/-- An action leaves the contributions of a tenant as they are, or appends one to them. -/
theorem contribution_step (a : VentureAction) (s : System) (slug : String) :
    ((step a s).namespaces slug).contribution = (s.namespaces slug).contribution ∨
      ∃ headers payload settings tz c r, a = .postContribution slug headers payload ∧
        Recorded s (step a s) slug settings tz c r := by
  generalize hstep : step a s = s'
  have hmeets : Meets s s' slug a := hstep ▸ meets_step a s slug
  cases hmeets with
  | other hsame _ => exact .inl (by rw [hsame])
  | tick elapsed hclock => exact .inl (by rw [hclock]; rfl)
  | patched hp => exact .inl hp.kept
  | recorded hr => exact .inr ⟨_, _, _, _, _, _, rfl, hr⟩

end Venture

end SharamLedger
