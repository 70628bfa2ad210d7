import SharamLedger.CurrentPeriod
import SharamLedger.Ledger.Thrown
import SharamLedger.Registry
import SharamLedger.Sample
import SharamLedger.StoredSettings

/-!
# Settings that later requests rely on

Five endpoints on contributions read stored settings. The two handlers that store settings check
everything in them except the time zone. Where the requests name zones the gateway knows, stored
settings never make one of the five answer with 500.
-/

namespace SharamLedger

open Lib

namespace ZoneNames

section Statements

variable [Platform]

/-- Settings as those who read them expect them. -/
structure WellFormed (s : TenantSettings) : Prop where
  timezone : ∃ tz, parseTz s.timezone = .ok tz
  cadence : ∃ c, Cadence.fromStr s.cadence = .ok c
  dues : 0 ≤ s.duesAmountCents
  name : Text.trim s.displayName ≠ ""
  purpose : ∀ text, s.purpose = some text → text.length ≤ 600

omit [Platform] in
/-- A request to one of the five endpoints, past the extractors. -/
inductive ContributionsRequest where
  | post (payload : PostContributionRequest)
  | mine (period : Option String)
  | pool (period : Option String)
  | periods
  | accumulation (bucket : Option String)

def ContributionsRequest.route : ContributionsRequest → TenantRoute
  | .post payload => .postContribution (.ok payload)
  | .mine period => .myContributions (.ok period)
  | .pool period => .poolContributions (.ok period)
  | .periods => .activePeriods
  | .accumulation bucket => .accumulation (.ok bucket)

/-- What no setting decides about a payment: its amount is no 64-bit integer, or the year of the
period has more than the four digits of the schema. -/
def Unstorable (p : PostContributionRequest) (period : String) : Prop :=
  ¬ I64.Fits p.amountCents ∨ isPeriodText period = false

/-- Whoever reads the settings of the tenant can go on: they are well formed, at every instant they
have a current period, and none of the five endpoints answers with 500 because of them. -/
structure Serves (s : System) (slug : String) (settings : TenantSettings) : Prop where
  wellFormed : WellFormed settings
  period : ∀ now, ∃ period, currentPeriodOf now settings = .ok period
  answers : ∀ headers (request : ContributionsRequest) e,
    (TenantRequest.respond ⟨slug, headers, request.route⟩ s).1 = .error e → e.status = 500 →
      ∃ p period, request = .post p ∧ currentPeriodOf s.now settings = .ok period ∧
        Unstorable p period

/-- A request whose settings would be stored names a zone that `parse_tz` accepts. -/
def NamesZone (a : GatewayAction) (s : System) : Prop :=
  match a with
  | .createTenant headers (.ok p) =>
      (∃ identity, authResult headers s.now = .ok identity) →
        (s.namespaces (Text.trim p.slug)).settings = none → ∃ tz, parseTz p.timezone = .ok tz
  | .tenant ⟨slug, headers, .patchSettings (.ok p)⟩ =>
      FromOwner headers slug s → p.check = .ok () →
        ∀ zone, p.timezone = some zone → ∃ tz, parseTz zone = .ok tz
  | _ => True

end Statements

section Runs

variable [Platform]

/-! ## Stored settings -/

/-- Every stored zone is known. -/
def ZonesParse (s : System) : Prop :=
  ∀ slug row, (s.namespaces slug).settings = some row → ∃ tz, parseTz row.timezone = .ok tz

theorem zonesParse_step (a : GatewayAction) (s : System) (h : ZonesParse s)
    (hnames : NamesZone a s) : ZonesParse (Deployment.step a s) := by
  intro slug row hrow
  cases Deployment.settings_from a hrow with
  | kept hold => exact h slug row hold
  | founded hauth _ hpasses hslug _ hnone hstored =>
      rw [hpasses.slug] at hslug
      rw [hstored]
      exact hnames ⟨_, hauth⟩ (hslug ▸ hnone)
  | @patched _ p old howner hcheck hold hmerged =>
      rw [hmerged]
      cases hzone : p.timezone with
      | none =>
          simpa [Namespace.mergeSettings, PatchSettingsRequest.toPatch, hzone] using
            h slug old hold
      | some zone =>
          simpa [Namespace.mergeSettings, PatchSettingsRequest.toPatch, hzone] using
            hnames howner hcheck zone hzone

/-- Tidy settings whose zone parses are well formed. -/
theorem wellFormed_of_tidy {s : TenantSettings} (h : s.Tidy)
    (hzone : ∃ tz, parseTz s.timezone = .ok tz) : WellFormed s where
  timezone := hzone
  cadence := by
    obtain ⟨c, hc⟩ := h.cadence
    exact ⟨c, hc ▸ Cadence.fromStr_asStr c⟩
  dues := h.dues
  name := by
    rw [h.trimmed]
    exact h.named
  purpose text htext := (h.purpose text htext).2.2

/-- Well-formed settings have a current period, which is that of a cadence and a zone. -/
theorem currentPeriodOf_wellFormed {s : TenantSettings} (h : WellFormed s) (now : DateTime) :
    ∃ tz c, s.cadence = c.asStr ∧
      currentPeriodOf now s = .ok (Period.currentIn tz c now).render := by
  obtain ⟨tz, htz⟩ := h.timezone
  obtain ⟨c, hc⟩ := h.cadence
  exact ⟨tz, c, Cadence.asStr_of_fromStr hc, by simp [currentPeriodOf, htz, hc]⟩

/-! ## The five endpoints -/

section Endpoints

variable {s : System} {slug : String} {headers : Headers} {P : HttpError → Prop}

/-- The checks of a member's request fail with 400, 401 or 403. -/
theorem failsOnly_asMember {α : Type} {f : Identity → TenantSlug → Bool → Handler α}
    (hP : ∀ e : HttpError, e.status ≠ 500 → P e)
    (hf : ∀ identity tenantSlug isMember, authResult headers s.now = .ok identity →
      tenantSlug.val = slug → (s.control.roleFor identity.email slug).isSome = true →
      (f identity tenantSlug isMember).FailsOnly s P) :
    (authenticate headers >>= fun identity => tenantSlugOf slug >>= fun tenantSlug =>
      callerIsMember identity.email slug >>= fun isMember =>
        Prog.ensure isMember notAMember >>= fun _ => f identity tenantSlug isMember).FailsOnly s
          P := by
  refine Prog.failsOnly_bind (run_authenticate headers s) (fun e he => hP e ?_)
    fun identity hauth => ?_
  · have h401 := status_of_authResult he
    omega
  refine Prog.failsOnly_bind (run_tenantSlugOf slug s) (fun e he => hP e ?_)
    fun tenantSlug hslug => ?_
  · have h400 : e.status = 400 := status_of_mapError he fun _ => rfl
    omega
  refine Prog.failsOnly_bind (run_callerIsMember identity.email slug s) (fun e he => ?_)
    fun isMember hmember => ?_
  · cases he
  refine Prog.failsOnly_bind (Prog.run_ensure isMember notAMember s) (fun e he => hP e ?_)
    fun _ hcalled => ?_
  · cases isMember with
    | false =>
        obtain rfl := Except.error.inj he
        decide
    | true => cases he
  refine hf identity tenantSlug isMember hauth (tenantSlugOf_ok hslug) ?_
  cases isMember with
  | false => cases hcalled
  | true => exact Except.ok.inj hmember

variable {row : Settings} {period : String}

omit [Platform] in
theorem failsOnly_settingsFor {α : Type} {tenantSlug : TenantSlug}
    {f : TenantSettings → Handler α} (hs : (s.namespaces tenantSlug.val).settings = some row)
    (hf : (f row.toTenantSettings).FailsOnly s P) :
    (settingsFor tenantSlug >>= f).FailsOnly s P := by
  refine Prog.failsOnly_bind (run_settingsFor tenantSlug s) (fun e he => ?_) fun settings h => ?_
  · rw [hs] at he
    cases he
  · rw [hs] at h
    cases h
    exact hf

/-- A period that does not parse is answered with 400, and the current one is known. -/
theorem failsOnly_queriedPeriod {α : Type} {query : Option String} {settings : TenantSettings}
    {f : String → Handler α} (hP : ∀ e : HttpError, e.status ≠ 500 → P e)
    (hperiod : currentPeriodOf s.now settings = .ok period)
    (hf : ∀ text, (f text).FailsOnly s P) :
    (queriedPeriod query settings >>= f).FailsOnly s P := by
  cases query with
  | none =>
      refine Prog.failsOnly_bind (run_readCurrentPeriod settings s) (fun e he => ?_)
        fun text _ => hf text
      rw [hperiod] at he
      cases he
  | some text =>
      refine Prog.failsOnly_bind (run_queriedPeriod text settings s) (fun e he => hP e ?_)
        fun text _ => hf text
      split at he
      · cases he
      · obtain rfl := Except.error.inj he
        show (400 : Nat) ≠ 500
        decide

variable (headers)

theorem failsOnly_myContributions (hs : (s.namespaces slug).settings = some row)
    (hperiod : currentPeriodOf s.now row.toTenantSettings = .ok period) (query : Option String) :
    (myContributions slug (.ok query) headers).FailsOnly s fun e => e.status ≠ 500 := by
  refine Prog.failsOnly_bind (Prog.run_lift _ s) (fun e he => by cases he) fun q _ => ?_
  refine failsOnly_asMember (fun _ => id) fun identity tenantSlug _ _ hslug _ => ?_
  obtain rfl := hslug
  refine failsOnly_settingsFor hs ?_
  refine failsOnly_queriedPeriod (fun _ => id) hperiod fun text => ?_
  exact Prog.failsOnly_of_ok (by simp [listContributions, hs, Except.mapError]; rfl)

theorem failsOnly_poolContributions (hs : (s.namespaces slug).settings = some row)
    (hperiod : currentPeriodOf s.now row.toTenantSettings = .ok period) (query : Option String) :
    (poolContributions slug (.ok query) headers).FailsOnly s fun e => e.status ≠ 500 := by
  refine Prog.failsOnly_bind (Prog.run_lift _ s) (fun e he => by cases he) fun q _ => ?_
  refine failsOnly_asMember (fun _ => id) fun identity tenantSlug _ _ hslug _ => ?_
  obtain rfl := hslug
  refine failsOnly_settingsFor hs ?_
  refine failsOnly_queriedPeriod (fun _ => id) hperiod fun text => ?_
  exact Prog.failsOnly_of_ok (by simp [Except.mapError]; rfl)

theorem failsOnly_activePeriods (hs : (s.namespaces slug).settings = some row)
    (hperiod : currentPeriodOf s.now row.toTenantSettings = .ok period) :
    (activePeriods slug headers).FailsOnly s fun e => e.status ≠ 500 := by
  refine failsOnly_asMember (fun _ => id) fun identity tenantSlug _ _ hslug _ => ?_
  obtain rfl := hslug
  refine failsOnly_settingsFor hs ?_
  refine Prog.failsOnly_bind (run_readCurrentPeriod _ s) (fun e he => ?_) fun text _ => ?_
  · rw [hperiod] at he
    cases he
  · exact Prog.failsOnly_of_ok (by simp [Except.mapError]; rfl)

theorem failsOnly_accumulation (hs : (s.namespaces slug).settings = some row)
    (bucket : Option String) :
    (accumulation slug (.ok bucket) headers).FailsOnly s fun e => e.status ≠ 500 := by
  refine Prog.failsOnly_bind (Prog.run_lift _ s) (fun e he => by cases he) fun q _ => ?_
  refine failsOnly_asMember (fun _ => id) fun identity tenantSlug _ _ hslug _ => ?_
  obtain rfl := hslug
  refine failsOnly_settingsFor hs ?_
  exact Prog.failsOnly_of_ok (by simp [getCarryForward, Except.mapError]; rfl)

/-- The row of a member's payment passes the field assertions, unless it is not storable. -/
theorem check_payment {identity : Identity} {settings : TenantSettings}
    {p : PostContributionRequest} {c : Cadence} {now : DateTime}
    (hemail : Platform.isEmail identity.email = true)
    (hcadence : settings.cadence = c.asStr) (hamount : 0 < p.amountCents)
    (hstorable : ¬ Unstorable p period) :
    (((paymentInput identity settings period p).row now).stamp now).check = .ok () := by
  unfold Unstorable at hstorable
  rw [not_or, not_not, Bool.not_eq_false] at hstorable
  have hkind : isCadence settings.cadence = true := by
    rw [hcadence]
    cases c <;> decide
  have hfits : isInt p.amountCents = true := by simpa [isInt] using hstorable.1
  have hstatus : isStatus "submitted" = true := by decide
  simp [Contribution.check, Contribution.stamp, NewContribution.row, paymentInput, hemail, hkind,
    hstorable.2, hfits, hamount, hstatus]

/-- The refusals of the two events are answered with 422. -/
theorem status_of_refused (now : DateTime) (ns : Namespace) {after : Contribution} {e : DbError}
    (h : contributionLockCheck now after = .error e ∨ contributionDuesCap ns after = .error e) :
    (addContributionError (mapDbError e)).status = 422 := by
  rcases h with h | h
  · by_cases hpast : after.Past now
    · obtain ⟨e', period, hlock, hmap⟩ := mapDbError_lockCheck hpast
      obtain rfl := Except.error.inj (hlock.symm.trans h)
      rw [hmap]
      rfl
    · rw [contributionLockCheck_ok.mpr hpast] at h
      cases h
  · obtain ⟨settings, -, -, -, hmap⟩ := mapDbError_duesCap h
    rw [hmap]
    rfl

/-- A statement that creates a checked row is refused by one of the events only. -/
theorem refused_of_check {now : DateTime} {ns : Namespace} {c : Contribution} {e : DbError}
    (hcheck : (c.stamp now).check = .ok ()) (h : ns.createContribution now c = .error e) :
    (addContributionError (mapDbError e)).status = 422 := by
  obtain ⟨table, htable, heq⟩ := ns.createContribution_eq now c
  rw [heq, hcheck] at h
  cases hlock : contributionLockCheck now (c.stamp now) with
  | error e' =>
      simp only [hlock, Except.mapError, bind, Except.bind, Except.error.injEq] at h
      exact status_of_refused now ns (.inl (h ▸ hlock))
  | ok u =>
      cases hcap : contributionDuesCap { ns with contribution := table } (c.stamp now) with
      | error e' =>
          simp only [hlock, hcap, Except.mapError, bind, Except.bind, Except.error.injEq] at h
          exact status_of_refused now _ (.inr (h ▸ hcap))
      | ok u => simp [hlock, hcap, Except.mapError, bind, Except.bind, pure, Except.pure] at h

theorem failsOnly_postContribution (haddresses : s.control.ValidAddresses) {c : Cadence}
    (hs : (s.namespaces slug).settings = some row) (hcadence : row.cadence = c.asStr)
    (hperiod : currentPeriodOf s.now row.toTenantSettings = .ok period)
    (p : PostContributionRequest) :
    (postContribution slug headers (.ok p)).FailsOnly s fun e =>
      e.status = 500 → Unstorable p period := by
  refine Prog.failsOnly_bind (Prog.run_lift _ s) (fun e he => by cases he) fun payload hp => ?_
  obtain rfl := Except.ok.inj hp
  refine failsOnly_asMember (fun e he h => absurd h he)
    fun identity tenantSlug _ _ hslug hmember => ?_
  obtain rfl := hslug
  have hemail : Platform.isEmail identity.email = true := by
    obtain ⟨u, hu, hemail, -⟩ := roleFor_isSome_iff.mp hmember
    exact hemail ▸ haddresses u hu
  have h400 : ∀ {condition : Bool} {text : String} (e : HttpError),
      (if condition then .ok () else .error ⟨400, text⟩ : Except HttpError Unit) = .error e →
        e.status = 500 → Unstorable p period := by
    intro condition text e he h
    split at he
    · cases he
    · obtain rfl := Except.error.inj he
      exact absurd h (show ¬ (400 : Nat) = 500 by decide)
  refine Prog.failsOnly_bind (Prog.run_ensure _ _ s) h400 fun _ hamount => ?_
  refine Prog.failsOnly_bind (Prog.run_ensure _ _ s) h400 fun _ _ => ?_
  refine failsOnly_settingsFor hs ?_
  refine Prog.failsOnly_bind (run_readCurrentPeriod _ s) (fun e he => ?_) fun text htext => ?_
  · rw [hperiod] at he
    cases he
  obtain rfl : period = text := Except.ok.inj (hperiod.symm.trans htext)
  have hamount : 0 < p.amountCents := by
    by_contra hnot
    simp [hnot] at hamount
  cases hadd : (s.namespaces tenantSlug.val).addContribution
      (paymentInput identity row.toTenantSettings period p) s.now with
  | error e =>
      have hrefused : ¬ Unstorable p period →
          (addContributionError (mapDbError e)).status = 422 := fun hstorable =>
        refused_of_check (check_payment hemail hcadence hamount hstorable) hadd
      intro error herror hstatus
      simp only [paymentInput] at hadd
      simp only [addContribution, Prog.run_bind, run_ledgerCall, run_onTenant, hadd,
        Except.mapError, Except.error.injEq] at herror
      by_contra hstorable
      have h422 := hrefused hstorable
      rw [herror, hstatus] at h422
      cases h422
  | ok answer =>
      obtain ⟨record, ns'⟩ := answer
      obtain ⟨-, -, -, -, -, hkept, -⟩ := Namespace.createContribution_ok hadd
      simp only [paymentInput] at hadd
      exact Prog.failsOnly_of_ok (by
        simp [addContribution, hadd, hkept, hs, Except.mapError]; rfl)

end Endpoints

/-! ## Runs -/

/-- In a run whose requests name known zones, all stored settings serve their readers. -/
theorem settings_serve {actions : List GatewayAction} {now : DateTime}
    (hrun : Trace.Each Deployment.step NamesZone actions (System.empty now)) {slug : String}
    {row : Settings}
    (hrow : ((Trace.exec Deployment.step actions (System.empty now)).namespaces slug).settings =
      some row) :
    Serves (Trace.exec Deployment.step actions (System.empty now)) slug row.toTenantSettings := by
  obtain ⟨s, hs⟩ : ∃ s, s = Trace.exec Deployment.step actions (System.empty now) := ⟨_, rfl⟩
  have htidy := Deployment.tidy_exec actions now
  have hrefers := Deployment.refers_exec actions now
  have hzones : ZonesParse (Trace.exec Deployment.step actions (System.empty now)) :=
    hrun.invariant zonesParse_step fun _ _ h => by cases h
  rw [← hs] at htidy hrefers hzones hrow ⊢
  have hwell := wellFormed_of_tidy (htidy slug row hrow) (hzones slug row hrow)
  refine ⟨hwell, fun now => ?_, fun headers request e he hstatus => ?_⟩
  · obtain ⟨tz, c, -, hperiod⟩ := currentPeriodOf_wellFormed hwell now
    exact ⟨_, hperiod⟩
  · obtain ⟨tz, c, hcadence, hperiod⟩ := currentPeriodOf_wellFormed hwell s.now
    cases request with
    | post p =>
        have hfails := failsOnly_postContribution headers hrefers.addresses hrow hcadence hperiod p
        exact ⟨p, _, rfl, hperiod, hfails e (Prog.error_of_bind_pure he) hstatus⟩
    | mine query =>
        have hfails := failsOnly_myContributions headers hrow hperiod query
        exact absurd hstatus (hfails e (Prog.error_of_bind_pure he))
    | pool query =>
        have hfails := failsOnly_poolContributions headers hrow hperiod query
        exact absurd hstatus (hfails e (Prog.error_of_bind_pure he))
    | periods =>
        have hfails := failsOnly_activePeriods headers hrow hperiod
        exact absurd hstatus (hfails e (Prog.error_of_bind_pure he))
    | accumulation bucket =>
        have hfails := failsOnly_accumulation headers hrow bucket
        exact absurd hstatus (hfails e (Prog.error_of_bind_pure he))

end Runs

/-! ## A zone nobody knows -/

section Sample

attribute [local instance] Platform.sample

/-- Ann signs in and opens a venture in a zone. -/
def annFounds (timezone : String) : List GatewayAction :=
  [.auth (.google (.ok ⟨"google:ann@pool.org"⟩)),
    .createTenant (bearer "ann@pool.org" juneNoon)
      (.ok
        { slug := "pool"
          displayName := "Pool"
          timezone
          currency := "USD"
          duesAmountCents := 10000 })]

/-- In UTC her venture can be paid to. -/
theorem settings_serve_utc :
    Serves (Trace.exec Deployment.step (annFounds "UTC") (System.empty juneNoon)) "pool"
      (sampleSettings 10000).toTenantSettings :=
  have hrun : Trace.Each Deployment.step NamesZone (annFounds "UTC") (System.empty juneNoon) :=
    ⟨trivial, fun _ _ => ⟨.utc, rfl⟩, trivial⟩
  have hrow : ((Trace.exec Deployment.step (annFounds "UTC")
      (System.empty juneNoon)).namespaces "pool").settings = some (sampleSettings 10000) := by
    decide +kernel
  settings_serve hrun hrow

/-- A zone that no table has is accepted, and then no payment is. -/
theorem unknown_zone_fails :
    ((Trace.exec Deployment.step (annFounds "Not/AReal_Zone")
      (System.empty juneNoon)).namespaces "pool").settings =
        some { sampleSettings 10000 with timezone := "Not/AReal_Zone" } ∧
      (TenantRequest.respond ⟨"pool", bearer "ann@pool.org" juneNoon,
        .postContribution (.ok { amountCents := 100 })⟩
        (Trace.exec Deployment.step (annFounds "Not/AReal_Zone") (System.empty juneNoon))).1 =
          .error ⟨500, "invalid timezone: Not/AReal_Zone"⟩ ∧
      ¬ Serves (Trace.exec Deployment.step (annFounds "Not/AReal_Zone") (System.empty juneNoon))
        "pool" { sampleSettings 10000 with timezone := "Not/AReal_Zone" }.toTenantSettings := by
  refine ⟨by decide +kernel, by decide +kernel, ?_⟩
  intro h
  obtain ⟨period, hperiod⟩ := h.period juneNoon
  cases hperiod

end Sample

end ZoneNames

end SharamLedger
