import SharamLedger.Lib.Trace
import SharamLedger.Sample

/-!
# The dues cap

With dues set, no member's non-rejected payments for a period exceed them, as long as no one
stores dues below what a member has already paid for some period, and no payment brings such a sum
beyond 64 bits, where the sum of the cap event wraps. Under the cap the roll-up of a period is
exact: what is paid and what remains add up to the dues.
-/

namespace SharamLedger

open Lib

/-- With dues set, what any member paid for any period is at most the dues. -/
def Namespace.CapHolds (ns : Namespace) : Prop :=
  ∀ settings, ns.settings = some settings → 0 < settings.duesAmountCents →
    ∀ email period, paidSum ns.contribution.rows email period ≤ settings.duesAmountCents

/-- The cap together with what the field assertions give: positive amounts, and dues that fit. -/
structure Namespace.Sound (ns : Namespace) : Prop where
  cap : ns.CapHolds
  amounts : ∀ r ∈ ns.contribution.rows, 0 < r.row.amountCents
  dues : ∀ settings, ns.settings = some settings → I64.Fits settings.duesAmountCents

theorem Namespace.sound_empty : Namespace.empty.Sound := by
  refine ⟨?_, ?_, ?_⟩
  · intro settings h
    cases h
  · intro r hr
    cases hr
  · intro settings h
    cases h

/-- With dues set, a payment leaves the sum that it counts towards within 64 bits. -/
def Namespace.RoomFor (ns : Namespace) (row : Contribution) : Prop :=
  ∀ settings, ns.settings = some settings → 0 < settings.duesAmountCents →
    paidSum ns.contribution.rows row.userEmail row.period + row.amountCents ≤ I64.maxValue

/-- A new row within the cap keeps it: it adds to one sum, and the event checked that one, which has
not wrapped. -/
theorem Namespace.CapHolds.append {ns ns' : Namespace} {r : ContributionRecord}
    (hns : ns.CapHolds) (hrows : ns'.contribution.rows = ns.contribution.rows ++ [r])
    (hsettings : ns'.settings = ns.settings) (hroom : ns.RoomFor r.row)
    (hcap : ns'.WithinCap r.row) : ns'.CapHolds := by
  intro settings hs hd email period
  by_cases hcounts : r.row.countsFor email period = true
  · -- the one sum that grows is the one the event looked at
    have hgrown : paidSum ns'.contribution.rows email period =
        paidSum ns.contribution.rows email period + r.row.amountCents := by
      rw [hrows, paidSum_append, if_pos hcounts]
    obtain ⟨rfl, rfl, hstatus⟩ := Contribution.countsFor_iff.mp hcounts
    have hchecked := (hcap.resolve_left hstatus) settings hs hd
    have hmax := hroom settings (by rw [← hsettings]; exact hs) hd
    by_contra hover
    rw [mathSum_of_fits ⟨by omega, by omega⟩] at hchecked
    exact hover hchecked
  · rw [hrows, paidSum_append, if_neg hcounts, add_zero]
    exact hns settings (by rw [← hsettings]; exact hs) hd email period

/-- An accepted payment that leaves its sum within 64 bits keeps the namespace sound. -/
theorem Namespace.Sound.create [Platform] {now : DateTime} {ns ns' : Namespace} {c : Contribution}
    {r : ContributionRecord} (hns : ns.Sound) (h : ns.createContribution now c = .ok (r, ns'))
    (hroom : ns.RoomFor (c.stamp now)) : ns'.Sound := by
  obtain ⟨hcheck, hrow, -, hcap, hcreate, hsettings, -⟩ := createContribution_ok h
  have hrows := (Table.create_some hcreate).2.1
  refine ⟨hns.cap.append hrows hsettings (hrow ▸ hroom) hcap, ?_, by rw [hsettings]; exact hns.dues⟩
  intro x hx
  rcases (Table.mem_create hcreate x).mp hx with hx | rfl
  · exact hns.amounts x hx
  · rw [hrow]
    exact (Contribution.of_check hcheck).1

/-- Storing settings keeps the cap when their dues cover what is already paid. -/
theorem Namespace.Sound.store {ns : Namespace} {row : Settings} (hns : ns.Sound)
    (hcheck : row.check = .ok ())
    (hcover : 0 < row.duesAmountCents →
      ∀ email period, paidSum ns.contribution.rows email period ≤ row.duesAmountCents) :
    Namespace.Sound { ns with settings := some row } := by
  refine ⟨?_, hns.amounts, ?_⟩
  · rintro settings hs hd email period
    obtain rfl := Option.some.inj hs
    exact hcover hd email period
  · intro settings hs
    obtain rfl := Option.some.inj hs
    exact (Settings.dues_of_check hcheck).2.1

/-- Under the cap a roll-up is exact. -/
theorem Namespace.Sound.summary {s : System} {slug : TenantSlug} {settings : Settings}
    (hns : (s.namespaces slug.val).Sound) (hs : (s.namespaces slug.val).settings = some settings)
    (hd : 0 < settings.duesAmountCents) (email period : String) :
    ∃ summary, (periodSummary slug email period).run s = (.ok summary, s) ∧
      summary.duesCents = settings.duesAmountCents ∧
      summary.paidCents + summary.remainingCents = summary.duesCents := by
  have hcap := hns.cap settings hs hd email period
  have hfits := hns.dues settings hs
  have hnonneg := paidSum_nonneg hns.amounts email period
  unfold paidSum at hcap hnonneg
  unfold I64.Fits at hfits
  -- sums below the dues do not wrap
  have hpaid : I64.sum (paidAmounts (s.namespaces slug.val).contribution.rows email period) =
      (paidAmounts (s.namespaces slug.val).contribution.rows email period).sum :=
    I64.sum_of_fits ⟨by omega, by omega⟩
  have hrest : I64.sub settings.duesAmountCents
      (paidAmounts (s.namespaces slug.val).contribution.rows email period).sum =
        settings.duesAmountCents -
          (paidAmounts (s.namespaces slug.val).contribution.rows email period).sum :=
    I64.sub_of_fits ⟨by omega, by omega⟩
  refine ⟨_, by rw [run_periodSummary, hs], rfl, ?_⟩
  simp only [summaryOf, hpaid, hrest]
  omega

/-! ## Runs of calls -/

/-- A call that writes a tenant's settings or contributions, or a new clock reading. -/
inductive DuesAction where
  | clock (now : DateTime)
  | createTenant (init : NewTenant)
  | addContribution (slug : TenantSlug) (input : NewContribution)
  | postContribution (slug : String) (headers : Headers)
      (payload : Extracted PostContributionRequest)
  | updateSettings (slug : TenantSlug) (patch : UpdateSettings)
  | patchSettings (slug : String) (headers : Headers) (payload : Extracted PatchSettingsRequest)

namespace DuesCap

section Runs

variable [Platform]

/-- The state after a call, whatever it answers. -/
def step (a : DuesAction) (s : System) : System :=
  match a with
  | .clock now => s.setNow now
  | .createTenant init => ((createTenant init).run s).2
  | .addContribution slug input => ((addContribution slug input).run s).2
  | .postContribution slug headers payload => ((postContribution slug headers payload).run s).2
  | .updateSettings slug patch => ((updateSettings slug patch).run s).2
  | .patchSettings slug headers payload => ((patchSettings slug headers payload).run s).2

/-- The tenant has settings, and the schema accepts the merge of the patch with them. -/
def Mergeable (patch : UpdateSettings) (ns : Namespace) : Prop :=
  patch.NullTaken ∧ ∃ old, ns.settings = some old ∧
    (Namespace.mergeSettings patch old).check = .ok ()

/-- The call is one that stores dues for a tenant: it creates the tenant, or a patch names them that
is allowed and meets the schema. -/
def StoresDues (a : DuesAction) (s : System) (slug : String) (dues : Int) : Prop :=
  match a with
  | .createTenant init =>
      init.slug.val = slug ∧ init.duesAmountCents = dues ∧ isCadence init.cadence = true ∧
        I64.Fits dues ∧ s.control.directoryEntry slug = none ∧ (s.namespaces slug).settings = none
  | .updateSettings tenant patch =>
      tenant.val = slug ∧ patch.duesAmountCents = some dues ∧ Mergeable patch (s.namespaces slug)
  | .patchSettings path headers payload =>
      path = slug ∧ (∃ p, payload = .ok p ∧ p.check = .ok () ∧ p.duesAmountCents = some dues ∧
        Mergeable p.toPatch (s.namespaces slug)) ∧ FromOwner headers slug s
  | _ => False

/-- The call is one that brings a payment for a tenant: a row that meets the schema, for a period
that is not over, from anywhere or from a signed-in member for the tenant's current period. -/
def BringsPayment (a : DuesAction) (s : System) (slug : String) (row : Contribution) : Prop :=
  row.check = .ok () ∧ ¬ row.Past s.now ∧
    match a with
    | .addContribution tenant input => tenant.val = slug ∧ row = input.row s.now
    | .postContribution path headers payload =>
        path = slug ∧ ∃ p identity settings period, payload = .ok p ∧
          authResult headers s.now = .ok identity ∧
          (s.control.roleFor identity.email slug).isSome = true ∧
          (s.namespaces slug).settings = some settings ∧
          currentPeriodOf s.now settings.toTenantSettings = .ok period ∧
          row = (paymentInput identity settings.toTenantSettings period p).row s.now
    | _ => False

/-- Positive dues are only stored when they cover what every member has paid for every period, and
with dues set no payment brings such a sum beyond 64 bits. -/
structure Covers (a : DuesAction) (s : System) : Prop where
  dues : ∀ slug dues, StoresDues a s slug dues → 0 < dues →
    ∀ email period, paidSum (s.namespaces slug).contribution.rows email period ≤ dues
  payments : ∀ slug row, BringsPayment a s slug row → (s.namespaces slug).RoomFor row

/-- Every tenant's namespace is sound. -/
def AllSound (s : System) : Prop := ∀ slug, (s.namespaces slug).Sound

omit [Platform] in
/-- Writing a sound namespace keeps all of them sound. -/
theorem AllSound.set {s : System} (hs : AllSound s) (slug : String) {ns : Namespace}
    (hns : ns.Sound) : AllSound (s.setNamespace slug ns) := by
  intro slug'
  by_cases h : slug' = slug
  · rw [h, System.namespaces_setNamespace_same]
    exact hns
  · rw [System.namespaces_setNamespace_of_ne _ _ h]
    exact hs slug'

/-- A stored patch keeps the namespace sound when the dues it names cover what is paid. -/
theorem sound_of_patch {patch : UpdateSettings} {now : DateTime} {ns ns' : Namespace}
    {answer : Option Settings} (hns : ns.Sound) (h : ns.patchSettings patch now = .ok (answer, ns'))
    (hcover : ∀ dues, patch.duesAmountCents = some dues → Mergeable patch ns → 0 < dues →
      ∀ email period, paidSum ns.contribution.rows email period ≤ dues) : ns'.Sound := by
  rcases Namespace.patchSettings_ok h with ⟨-, -, rfl⟩ | ⟨old, hold, hcheck, rfl, rfl⟩
  · exact hns
  · have hmerge : Mergeable patch ns :=
      ⟨Namespace.nullTaken_of_patchSettings h, old, hold, hcheck⟩
    refine hns.store hcheck fun hd email period => ?_
    cases hp : patch.duesAmountCents with
    | none =>
        -- the dues stay, and the cap held with them
        simp only [Namespace.mergeSettings, hp, Option.getD_none] at hd ⊢
        exact hns.cap old hold hd email period
    | some dues =>
        simp only [Namespace.mergeSettings, hp, Option.getD_some] at hd ⊢
        exact hcover dues hp hmerge hd email period

theorem createTenant_sound {init : NewTenant} {s : System} (hs : AllSound s)
    (hcover : Covers (.createTenant init) s) : AllSound ((createTenant init).run s).2 := by
  unfold createTenant
  cases hdir : s.control.directoryEntry init.slug.val with
  | some entry => simpa [hdir] using hs
  | none =>
      cases hcreate : (s.namespaces init.slug.val).createSettings init s.now with
      | error e => simpa [hdir, hcreate] using hs
      | ok answer =>
          obtain ⟨u, ns'⟩ := answer
          obtain ⟨hnone, row, hcheck, hdues, hcadence, rfl⟩ := Namespace.createSettings_ok hcreate
          obtain ⟨-, hfits, hkind⟩ := Settings.dues_of_check hcheck
          have hset := hs.set init.slug.val <| (hs init.slug.val).store hcheck
            fun hd email period => hcover.dues _ row.duesAmountCents
              ⟨rfl, hdues.symm, hcadence ▸ hkind, hfits, hdir, hnone⟩ hd email period
          -- whether the registration succeeds makes no difference to the namespaces
          cases hregister : s.control.registerTenant init s.now with
          | error e => simpa [hdir, hcreate, hregister] using hset
          | ok answer =>
              simp only [Prog.run_bind, run_readControl, hdir, Option.isSome_none,
                Bool.false_eq_true, if_false, run_onTenant, hcreate, run_onControl,
                System.control_setNamespace, System.now_setNamespace, hregister]
              exact hset

/-- Every call that covers what is paid keeps every namespace sound. -/
theorem step_sound {a : DuesAction} {s : System} (hs : AllSound s) (hcover : Covers a s) :
    AllSound (step a s) := by
  cases a with
  | clock now => exact hs
  | createTenant init => exact createTenant_sound hs hcover
  | addContribution slug input =>
      simp only [step, addContribution, run_onTenant]
      cases h : (s.namespaces slug.val).addContribution input s.now with
      | error e => exact hs
      | ok answer =>
          obtain ⟨hcheck, hrow, hopen, -⟩ := Namespace.createContribution_ok h
          rw [hrow] at hopen
          exact hs.set slug.val ((hs slug.val).create h
            (hcover.payments slug.val (input.row s.now) ⟨hcheck, hopen, rfl, rfl⟩))
  | postContribution slug headers payload =>
      rcases postContribution_spec slug headers payload s with ⟨e, he⟩ |
        ⟨-, p, identity, settings, period, record, ns', hp, hauth, hmember, -, hstored, hperiod, h,
          hs'⟩
      · simpa [step, he] using hs
      · obtain ⟨hcheck, hrow, hopen, -⟩ := Namespace.createContribution_ok h
        rw [hrow] at hopen
        simp only [step, hs']
        exact hs.set slug ((hs slug).create h (hcover.payments slug _ ⟨hcheck, hopen, rfl, p,
          identity, settings, period, hp, hauth, hmember, hstored, hperiod, rfl⟩))
  | updateSettings slug patch =>
      simp only [step, updateSettings]
      by_cases hempty : patch.isEmpty = true
      · simpa [hempty] using hs
      · cases h : (s.namespaces slug.val).patchSettings patch s.now with
        | error e => simpa [hempty, h] using hs
        | ok answer =>
            simpa [hempty, h] using hs.set slug.val (sound_of_patch (hs slug.val) h
              fun dues hp hmerge => hcover.dues slug.val dues ⟨rfl, hp, hmerge⟩)
  | patchSettings slug headers payload =>
      rcases patchSettings_spec slug headers payload s with ⟨e, he⟩ | h |
        ⟨p, identity, row, ns', hp, hcheck, hauth, howner, h, hs'⟩
      · simpa [step, he] using hs
      · simpa [step, h] using hs
      · simp only [step, hs']
        exact hs.set slug (sound_of_patch (hs slug) h fun dues hdues hmerge =>
          hcover.dues slug dues ⟨rfl, ⟨p, hp, hcheck, hdues, hmerge⟩, identity, hauth, howner⟩)

/-- For every tenant with dues, no member has paid more than the dues for a period, and every
roll-up adds up to them. -/
def CapKept (s : System) : Prop :=
  ∀ (slug : TenantSlug) (settings : Settings), (s.namespaces slug.val).settings = some settings →
    0 < settings.duesAmountCents → ∀ email period,
      paidSum (s.namespaces slug.val).contribution.rows email period ≤ settings.duesAmountCents ∧
        ∃ summary, (periodSummary slug email period).run s = (.ok summary, s) ∧
          summary.duesCents = settings.duesAmountCents ∧
          summary.paidCents + summary.remainingCents = summary.duesCents

end Runs

/-! ## One venture -/

section Sample

attribute [local instance] Platform.sample

/-- A patch of the dues only. -/
def duesPatch (dues : Int) : UpdateSettings where
  displayName := none
  timezone := none
  currency := none
  cadence := none
  duesAmountCents := some dues
  purpose := none

/-- The dues are raised from 100 to 150, and Ann pays them in two parts. -/
def raisedDues : List DuesAction :=
  [.createTenant (sampleTenant 10000), .updateSettings poolSlug (duesPatch 15000),
    .addContribution poolSlug (samplePayment 10000),
    .addContribution poolSlug (samplePayment 5000)]

/-- Ann pays her dues of 100, and then the dues are lowered to 50. -/
def loweredDues : List DuesAction :=
  [.createTenant (sampleTenant 10000), .addContribution poolSlug (samplePayment 10000),
    .updateSettings poolSlug (duesPatch 5000)]

/-- No one has paid yet when the dues are raised. -/
theorem rows_before_raise :
    ((step (.createTenant (sampleTenant 10000)) (System.empty juneNoon)).namespaces
      poolSlug.val).contribution.rows = [] := by
  decide

/-- Nor is the cap kept when a sum wraps: behind one cent, a payment of the largest amount makes it
negative. -/
example : ¬ CapKept (Trace.exec step
    [.createTenant (sampleTenant 10000), .addContribution poolSlug (samplePayment 1),
      .addContribution poolSlug (samplePayment I64.maxValue)] (System.empty juneNoon)) := by
  intro h
  have hcap := (h poolSlug (sampleSettings 10000) (by decide) (by decide)
    "ann@pool.org" "2026-06").1
  revert hcap
  decide

end Sample

end DuesCap

end SharamLedger
