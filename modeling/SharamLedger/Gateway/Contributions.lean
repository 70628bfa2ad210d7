import SharamLedger.Gateway.Http

/-!
# Contributions

The handlers of `crate/gateway/src/routes/contributions.rs`. A member pays for the period the
tenant considers current; everyone in the tenant may read the roll-ups.
-/

namespace SharamLedger

open Lib

/-! ## Wire shapes -/

structure PostContributionRequest where
  amountCents : Int
  note : Option String := none
  proofKey : Option String := none
  deriving DecidableEq, Repr

structure ContributionView where
  id : String
  userEmail : String
  cadence : String
  period : String
  amountCents : Int
  status : String
  note : Option String
  proofKey : Option String
  submittedAt : DateTime
  deriving DecidableEq, Repr

def contributionView (r : ContributionRecord) : ContributionView where
  id := toString r.id
  userEmail := r.row.userEmail
  cadence := r.row.cadence
  period := r.row.period
  amountCents := r.row.amountCents
  status := r.row.status
  note := r.row.note
  proofKey := r.row.proofKey
  submittedAt := r.row.submittedAt

structure PeriodSummaryView where
  period : String
  cadence : String
  currency : String
  duesCents : Int
  paidCents : Int
  remainingCents : Int
  deriving DecidableEq, Repr

def summaryView (period cadence currency : String) (s : PeriodSummary) : PeriodSummaryView where
  period := period
  cadence := cadence
  currency := currency
  duesCents := s.duesCents
  paidCents := s.paidCents
  remainingCents := s.remainingCents

structure PostContributionResponse where
  contribution : ContributionView
  summary : PeriodSummaryView
  deriving DecidableEq, Repr

structure ListContributionsResponse where
  summary : PeriodSummaryView
  contributions : List ContributionView
  deriving DecidableEq, Repr

structure PoolSummaryView where
  period : String
  cadence : String
  currency : String
  duesPerMemberCents : Int
  memberCount : Nat
  targetCents : Int
  paidCents : Int
  remainingCents : Int
  settledCount : Nat
  deriving DecidableEq, Repr

structure PoolResponse where
  summary : PoolSummaryView
  contributions : List ContributionView
  deriving DecidableEq, Repr

structure PeriodsResponse where
  currentPeriod : String
  cadence : String
  periods : List String
  deriving DecidableEq, Repr

structure AccumulationPointView where
  bucket : String
  periodCents : Int
  cumulativeCents : Int
  deriving DecidableEq, Repr

structure CarryForwardSeed where
  amountCents : Int
  fromDate : String
  toDate : String
  note : Option String
  deriving DecidableEq, Repr

structure AccumulationResponse where
  bucket : String
  currency : String
  carryForward : Option CarryForwardSeed
  series : List AccumulationPointView
  deriving DecidableEq, Repr

/-! ## Helpers -/

/-- `PROOF_KEY_PREFIX`. -/
def proofKeyPrefix : String := "tenants"

/-- Where the proofs of a tenant live. -/
def proofPrefix (slug : String) : String := proofKeyPrefix ++ "/" ++ slug ++ "/"

/-- `entry(key).or_default() += amount` on a map kept as a list of its entries. -/
def addEntry (key : String) (amount : Int) : List (String × Int) → List (String × Int)
  | [] => [(key, I64.add 0 amount)]
  | (k, v) :: rest =>
      if k = key then (k, I64.add v amount) :: rest else (k, v) :: addEntry key amount rest

/-- The gateway's `current_period_for`: the period on the tenant's wall clock. -/
def currentPeriodOf [Platform] (now : DateTime) (s : TenantSettings) : Except HttpError String :=
  match parseTz s.timezone with
  | .error e => .error ⟨500, e.message⟩
  | .ok tz =>
      match Cadence.fromStr s.cadence with
      | .error e => .error ⟨500, e.message⟩
      | .ok cadence => .ok (Period.currentIn tz cadence now).render

/-- `current_period_for` at the moment it is called. -/
def readCurrentPeriod [Platform] (s : TenantSettings) : Handler String := do
  let period ← .read fun state => currentPeriodOf state.now s
  .lift period

def settingsFor (slug : TenantSlug) : Handler TenantSettings :=
  ledgerCall settingsError (tenantSettings slug)

/-- The period of a query: the one it names, if that parses, or the current one. -/
def queriedPeriod [Platform] (period : Option String) (s : TenantSettings) : Handler String :=
  match period with
  | some p =>
      match Period.fromStr p with
      | .ok _ => pure p
      | .error e => .err ⟨400, "invalid period: " ++ e.message⟩
  | none => readCurrentPeriod s

/-- The errors of `add_contribution` on the wire. -/
def addContributionError : LedgerError → HttpError
  | .periodLocked period => ⟨422, "period " ++ period ++ " is locked"⟩
  | .duesCapExceeded paid dues =>
      ⟨422, "dues cap exceeded: would total " ++ toString paid ++ " cents (cap " ++ toString dues
        ++ ")"⟩
  | other => internalError other

/-! ## Roll-ups -/

/-- Non-rejected sums by member. -/
def byMember (rows : List ContributionRecord) : List (String × Int) :=
  rows.foldl
    (fun sums r =>
      if r.row.status != "rejected" then addEntry r.row.userEmail r.row.amountCents sums else sums)
    []

/-- The figures of `pool_contributions`. Without dues a member who paid anything counts as
settled. -/
def poolSummary (period : String) (settings : TenantSettings) (rows : List ContributionRecord)
    (members : List TenantMember) : PoolSummaryView :=
  let dues := settings.duesAmountCents
  let target := I64.saturatingMul dues members.length
  let sums := (byMember rows).map (·.2)
  let paid := I64.sum sums
  { period
    cadence := settings.cadence
    currency := settings.currency
    duesPerMemberCents := dues
    memberCount := members.length
    targetCents := target
    paidCents := paid
    remainingCents := max (I64.sub target paid) 0
    settledCount :=
      if 0 < dues then sums.countP fun v => dues ≤ v else sums.countP fun v => 0 < v }

/-- `decide_bucket`: by year once the first payment is 365 days old. -/
def decideBucket (now : DateTime) (points : List AccumulationPoint) : String :=
  match points with
  | [] => "month"
  | first :: _ =>
      if (365 * 86400 * 1000000000 : Int) ≤ (now : Int) - first.submittedAt then "year"
      else "month"

/-- The bucket of a payment. -/
def bucketKey (mode : String) (t : DateTime) : String :=
  let day := utcDay t
  if mode = "year" then (Period.ofDay .yearly day).render else (Period.ofDay .monthly day).render

/-- Walk the buckets with a running total. -/
def runningTotals (running : Int) : List (String × Int) → List AccumulationPointView
  | [] => []
  | (bucket, cents) :: rest =>
      let running := I64.add running cents
      ⟨bucket, cents, running⟩ :: runningTotals running rest

/-- `bucket_series`: sums by bucket in ascending order of the key, with running totals. -/
def bucketSeries (points : List AccumulationPoint) (mode : String) (initial : Int) :
    List AccumulationPointView :=
  let buckets := points.foldl
    (fun sums p => addEntry (bucketKey mode p.submittedAt) p.amountCents sums) []
  runningTotals initial (buckets.insertionSort fun a b => a.1 ≤ b.1)

/-! ## Handlers -/

variable [Platform]

/-- `post_contribution`. -/
def postContribution (slug : String) (headers : Headers)
    (payload : Extracted PostContributionRequest) : Handler PostContributionResponse := do
  let payload ← .lift payload
  let identity ← authenticate headers
  let tenantSlug ← tenantSlugOf slug
  let isMember ← callerIsMember identity.email slug
  .ensure isMember notAMember
  .ensure (0 < payload.amountCents) ⟨400, "amount_cents must be > 0"⟩
  .ensure (payload.proofKey.all fun pk => Text.startsWith pk (proofPrefix slug))
    ⟨400, "proof_key does not belong to this tenant"⟩
  let settings ← settingsFor tenantSlug
  -- the period is the tenant's own, the request does not name one
  let period ← readCurrentPeriod settings
  let row ← ledgerCall addContributionError
    (addContribution tenantSlug
      { userEmail := identity.email
        cadence := settings.cadence
        period
        amountCents := payload.amountCents
        proofKey := payload.proofKey
        note := payload.note })
  let summary ← ledgerCall internalError (periodSummary tenantSlug identity.email period)
  return {
    contribution := contributionView row
    summary := summaryView period settings.cadence settings.currency summary }

/-- The row a payment is recorded with. -/
def paymentInput (identity : Identity) (settings : TenantSettings) (period : String)
    (p : PostContributionRequest) : NewContribution where
  userEmail := identity.email
  cadence := settings.cadence
  period := period
  amountCents := p.amountCents
  proofKey := p.proofKey
  note := p.note

/-- What an accepted payment did: a member's row for the tenant's current period was created. -/
def PaymentRecorded (slug : String) (headers : Headers)
    (payload : Extracted PostContributionRequest) (s s' : System) : Prop :=
  ∃ p identity settings period record ns', payload = .ok p ∧
    authResult headers s.now = .ok identity ∧
    (s.control.roleFor identity.email slug).isSome = true ∧ 0 < p.amountCents ∧
    (s.namespaces slug).settings = some settings ∧
    currentPeriodOf s.now settings.toTenantSettings = .ok period ∧
    (s.namespaces slug).addContribution (paymentInput identity settings.toTenantSettings period p)
      s.now = .ok (record, ns') ∧
    s' = s.setNamespace slug ns'

@[simp] theorem run_readCurrentPeriod (settings : TenantSettings) (s : System) :
    (readCurrentPeriod settings).run s = (currentPeriodOf s.now settings, s) := by
  simp [readCurrentPeriod]

omit [Platform] in
@[simp] theorem run_settingsFor (slug : TenantSlug) (s : System) :
    (settingsFor slug).run s =
      (match (s.namespaces slug.val).settings with
        | some settings => .ok settings.toTenantSettings
        | none => .error ⟨404, "settings not found"⟩, s) := by
  unfold settingsFor
  cases h : (s.namespaces slug.val).settings <;> simp [h, Except.mapError, settingsError]

/-- The roll-up of a member's payments for a period against dues. -/
def summaryOf (rows : List ContributionRecord) (dues : Int) (email period : String) :
    PeriodSummary where
  duesCents := dues
  paidCents := I64.sum (paidAmounts rows email period)
  remainingCents := max (I64.sub dues (I64.sum (paidAmounts rows email period))) 0

omit [Platform] in
@[simp] theorem run_periodSummary (slug : TenantSlug) (email period : String) (s : System) :
    (periodSummary slug email period).run s =
      (match (s.namespaces slug.val).settings with
        | some settings => .ok (summaryOf (s.namespaces slug.val).contribution.rows
            settings.duesAmountCents email period)
        | none => .error .notFound, s) := by
  unfold periodSummary summaryOf
  cases h : (s.namespaces slug.val).settings <;> simp [h]

theorem postContribution_spec (slug : String) (headers : Headers)
    (payload : Extracted PostContributionRequest) (s : System) :
    (postContribution slug headers payload).StopsOr s fun result s' =>
      (∃ response, result = .ok response) ∧ PaymentRecorded slug headers payload s s' := by
  unfold postContribution
  refine Prog.stopsOr_bind (Prog.run_lift payload s) fun p hp => ?_
  refine Prog.stopsOr_bind (run_authenticate headers s) fun identity hauth => ?_
  refine Prog.stopsOr_bind (run_tenantSlugOf slug s) fun tenantSlug hslug => ?_
  refine Prog.stopsOr_bind (run_callerIsMember identity.email slug s) fun isMember hmember => ?_
  refine Prog.stopsOr_bind (Prog.run_ensure isMember notAMember s) fun _ hcalled => ?_
  refine Prog.stopsOr_bind (Prog.run_ensure _ _ s) fun _ hamount => ?_
  refine Prog.stopsOr_bind (Prog.run_ensure _ _ s) fun _ _ => ?_
  refine Prog.stopsOr_bind (run_settingsFor tenantSlug s) fun settings hsettings => ?_
  refine Prog.stopsOr_bind (run_readCurrentPeriod settings s) fun period hperiod => ?_
  obtain rfl := tenantSlugOf_ok hslug
  cases hs : (s.namespaces tenantSlug.val).settings with
  | none => simp [hs] at hsettings
  | some stored =>
      obtain rfl : stored.toTenantSettings = settings := by simpa [hs] using hsettings
      cases hadd : (s.namespaces tenantSlug.val).addContribution
          (paymentInput identity stored.toTenantSettings period p) s.now with
      | error e =>
          refine .inl ⟨addContributionError (mapDbError e), ?_⟩
          simp only [paymentInput] at hadd
          simp [addContribution, hadd, Except.mapError]
      | ok answer =>
          obtain ⟨record, ns'⟩ := answer
          obtain ⟨-, -, -, -, -, hkept, -⟩ := Namespace.createContribution_ok hadd
          refine .inr ⟨?_, p, identity, stored, period, record, ns', hp, hauth, ?_, ?_, hs, hperiod,
            hadd, ?_⟩
          all_goals simp only [paymentInput] at hadd
          · simp [addContribution, hadd, hkept, hs, Except.mapError]
          · simp_all
          · simp_all
          · simp [addContribution, hadd, hkept, hs, Except.mapError]

/-- `my_contributions`. -/
def myContributions (slug : String) (period : Extracted (Option String)) (headers : Headers) :
    Handler ListContributionsResponse := do
  let query ← .lift period
  let identity ← authenticate headers
  let tenantSlug ← tenantSlugOf slug
  let isMember ← callerIsMember identity.email slug
  .ensure isMember notAMember
  let settings ← settingsFor tenantSlug
  let period ← queriedPeriod query settings
  let rows ← ledgerCall internalError (listContributions tenantSlug identity.email period)
  let summary ← ledgerCall internalError (periodSummary tenantSlug identity.email period)
  return {
    summary := summaryView period settings.cadence settings.currency summary
    contributions := rows.map contributionView }

theorem run_queriedPeriod (period : String) (settings : TenantSettings) (s : System) :
    (queriedPeriod (some period) settings).run s =
      (match Period.fromStr period with
        | .ok _ => .ok period
        | .error e => .error ⟨400, "invalid period: " ++ e.message⟩, s) := by
  cases hp : Period.fromStr period <;> simp [queriedPeriod, hp]

omit [Platform] in
/-- A period that the query names is the one that is reported. -/
theorem queriedPeriod_ok {period text : String}
    (h : (match Period.fromStr period with
      | .ok _ => .ok period
      | .error e => .error ⟨400, "invalid period: " ++ e.message⟩ : Except HttpError String) =
        .ok text) : text = period := by
  cases hp : Period.fromStr period with
  | error e => simp [hp] at h
  | ok p =>
      rw [hp] at h
      cases h
      rfl

omit [Platform] in
theorem settingsFor_ok {found : Option Settings} {settings : TenantSettings}
    (h : (match found with
      | some settings => .ok settings.toTenantSettings
      | none => .error ⟨404, "settings not found"⟩ : Except HttpError TenantSettings) =
        .ok settings) : ∃ stored, found = some stored ∧ settings = stored.toTenantSettings := by
  cases found with
  | none => cases h
  | some stored =>
      cases h
      exact ⟨stored, rfl, rfl⟩

/-- What `my_contributions` reports to a member for a period that the query names. -/
def MyReport (slug period : String) (headers : Headers) (s : System)
    (response : ListContributionsResponse) : Prop :=
  ∃ identity settings, authResult headers s.now = .ok identity ∧
    (s.namespaces slug).settings = some settings ∧
    response.summary = summaryView period settings.cadence settings.currency
      (summaryOf (s.namespaces slug).contribution.rows settings.duesAmountCents identity.email
        period) ∧
    response.contributions = (oldestFirst ((s.namespaces slug).contribution.select fun r =>
      r.row.userEmail == identity.email && r.row.period == period)).map contributionView

theorem myContributions_spec (slug period : String) (headers : Headers) (s : System) :
    (myContributions slug (.ok (some period)) headers).StopsOr s fun result s' =>
      s' = s ∧ ∃ response, result = .ok response ∧ MyReport slug period headers s response := by
  unfold myContributions
  refine Prog.stopsOr_bind (Prog.run_lift _ s) fun query hquery => ?_
  refine Prog.stopsOr_bind (run_authenticate headers s) fun identity hauth => ?_
  refine Prog.stopsOr_bind (run_tenantSlugOf slug s) fun tenantSlug hslug => ?_
  refine Prog.stopsOr_bind (run_callerIsMember identity.email slug s) fun isMember _ => ?_
  refine Prog.stopsOr_bind (Prog.run_ensure isMember notAMember s) fun _ _ => ?_
  refine Prog.stopsOr_bind (run_settingsFor tenantSlug s) fun settings hsettings => ?_
  obtain rfl := Except.ok.inj hquery
  refine Prog.stopsOr_bind (run_queriedPeriod period settings s) fun text htext => ?_
  obtain rfl := queriedPeriod_ok htext
  obtain rfl := tenantSlugOf_ok hslug
  obtain ⟨stored, hstored, rfl⟩ := settingsFor_ok hsettings
  refine .inr ⟨?_, { summary := _, contributions := _ }, ?_, identity, stored, hauth, hstored, rfl,
    rfl⟩
  all_goals simp [listContributions, hstored, summaryView, Except.mapError]

/-- `pool_contributions`. -/
def poolContributions (slug : String) (period : Extracted (Option String)) (headers : Headers) :
    Handler PoolResponse := do
  let query ← .lift period
  let identity ← authenticate headers
  let tenantSlug ← tenantSlugOf slug
  let isMember ← callerIsMember identity.email slug
  .ensure isMember notAMember
  let settings ← settingsFor tenantSlug
  let period ← queriedPeriod query settings
  let rows ← ledgerCall internalError (listPoolContributions tenantSlug period)
  let members ← ledgerCall internalError (listTenantMembers slug)
  return {
    summary := poolSummary period settings rows members
    contributions := rows.map contributionView }

/-- What `pool_contributions` reports for a period that the query names. -/
def PoolReport (slug period : String) (s : System) (response : PoolResponse) : Prop :=
  ∃ settings, (s.namespaces slug).settings = some settings ∧
    response.summary = poolSummary period settings.toTenantSettings
      (oldestFirst ((s.namespaces slug).contribution.select fun r => r.row.period == period))
      (s.control.membersOf slug) ∧
    response.contributions = (oldestFirst ((s.namespaces slug).contribution.select fun r =>
      r.row.period == period)).map contributionView

theorem poolContributions_spec (slug period : String) (headers : Headers) (s : System) :
    (poolContributions slug (.ok (some period)) headers).StopsOr s fun result s' =>
      s' = s ∧ ∃ response, result = .ok response ∧ PoolReport slug period s response := by
  unfold poolContributions
  refine Prog.stopsOr_bind (Prog.run_lift _ s) fun query hquery => ?_
  refine Prog.stopsOr_bind (run_authenticate headers s) fun identity _ => ?_
  refine Prog.stopsOr_bind (run_tenantSlugOf slug s) fun tenantSlug hslug => ?_
  refine Prog.stopsOr_bind (run_callerIsMember identity.email slug s) fun isMember _ => ?_
  refine Prog.stopsOr_bind (Prog.run_ensure isMember notAMember s) fun _ _ => ?_
  refine Prog.stopsOr_bind (run_settingsFor tenantSlug s) fun settings hsettings => ?_
  obtain rfl := Except.ok.inj hquery
  refine Prog.stopsOr_bind (run_queriedPeriod period settings s) fun text htext => ?_
  obtain rfl := queriedPeriod_ok htext
  obtain rfl := tenantSlugOf_ok hslug
  obtain ⟨stored, hstored, rfl⟩ := settingsFor_ok hsettings
  refine .inr ⟨?_, { summary := _, contributions := _ }, ?_, stored, hstored, rfl, rfl⟩
  all_goals simp [listPoolContributions, poolSummary, Except.mapError]

/-- The request names a period, and a member of a venture that has settings sends it. -/
structure AsksFor (slug period : String) (headers : Headers) (s : System) (identity : Identity) :
    Prop where
  authenticated : authResult headers s.now = .ok identity
  slug_valid : ∃ tenantSlug, TenantSlug.new slug = .ok tenantSlug
  member : (s.control.roleFor identity.email slug).isSome = true
  settings : (s.namespaces slug).settings.isSome = true
  parses : ∃ p, Period.fromStr period = .ok p

/-- The gate of both roll-ups. -/
theorem answered_iff {α : Type} {slug period : String} {headers : Headers} {s : System}
    (rollUp : Identity → TenantSlug → TenantSettings → String → Handler α)
    (htotal : (s.namespaces slug).settings.isSome = true →
      ∀ identity tenantSlug settings, tenantSlug.val = slug →
        ∃ answer, ((rollUp identity tenantSlug settings period).run s).1 = .ok answer) :
    (∃ answer, ((do
      let query ← .lift (.ok (some period))
      let identity ← authenticate headers
      let tenantSlug ← tenantSlugOf slug
      let isMember ← callerIsMember identity.email slug
      .ensure isMember notAMember
      let settings ← settingsFor tenantSlug
      let period ← queriedPeriod query settings
      rollUp identity tenantSlug settings period : Handler α).run s).1 = .ok answer) ↔
      ∃ identity, AsksFor slug period headers s identity := by
  constructor
  · rintro ⟨answer, hanswer⟩
    cases hauth : authResult headers s.now with
    | error e => simp [hauth] at hanswer
    | ok identity =>
        cases hslug : TenantSlug.new slug with
        | error e => simp [hauth, hslug, Except.mapError] at hanswer
        | ok tenantSlug =>
            obtain rfl := TenantSlug.val_of_new hslug
            cases hmember : (s.control.roleFor identity.email tenantSlug.val).isSome with
            | false => simp [hauth, hslug, hmember, Except.mapError] at hanswer
            | true =>
                cases hstored : (s.namespaces tenantSlug.val).settings with
                | none => simp [hauth, hslug, hmember, hstored, Except.mapError] at hanswer
                | some settings =>
                    cases hp : Period.fromStr period with
                    | error e =>
                        simp [hauth, hslug, hmember, hstored, hp, run_queriedPeriod,
                          Except.mapError] at hanswer
                    | ok p =>
                        exact ⟨identity, hauth, ⟨tenantSlug, hslug⟩, hmember,
                          by rw [hstored, Option.isSome_some], p, hp⟩
  · rintro ⟨identity, hauth, ⟨tenantSlug, hslug⟩, hmember, hstored, p, hp⟩
    obtain rfl := TenantSlug.val_of_new hslug
    obtain ⟨settings, hsome⟩ := Option.isSome_iff_exists.mp hstored
    obtain ⟨answer, hanswer⟩ :=
      htotal hstored identity tenantSlug settings.toTenantSettings rfl
    exact ⟨answer, by
      simpa [hauth, hslug, hmember, hsome, hp, run_queriedPeriod, Except.mapError] using hanswer⟩

theorem myContributions_answers {slug period : String} {headers : Headers} {s : System} :
    (∃ response, ((myContributions slug (.ok (some period)) headers).run s).1 = .ok response) ↔
      ∃ identity, AsksFor slug period headers s identity := by
  refine answered_iff _ fun hstored identity tenantSlug settings hslug => ?_
  obtain ⟨stored, hsome⟩ := Option.isSome_iff_exists.mp hstored
  subst hslug
  simp [listContributions, hsome, Except.mapError]

theorem poolContributions_answers {slug period : String} {headers : Headers} {s : System} :
    (∃ response, ((poolContributions slug (.ok (some period)) headers).run s).1 = .ok response) ↔
      ∃ identity, AsksFor slug period headers s identity := by
  refine answered_iff _ fun _ identity tenantSlug settings hslug => ?_
  simp [listPoolContributions, Except.mapError]

/-- `active_periods`: the current period heads the list unless it has a row. -/
def activePeriods (slug : String) (headers : Headers) : Handler PeriodsResponse := do
  let identity ← authenticate headers
  let tenantSlug ← tenantSlugOf slug
  let isMember ← callerIsMember identity.email slug
  .ensure isMember notAMember
  let settings ← settingsFor tenantSlug
  let currentPeriod ← readCurrentPeriod settings
  let periods ← ledgerCall internalError (listActivePeriods tenantSlug)
  return {
    currentPeriod
    cadence := settings.cadence
    periods := if periods.contains currentPeriod then periods else currentPeriod :: periods }

/-- `accumulation`. -/
def accumulation (slug : String) (bucket : Extracted (Option String)) (headers : Headers) :
    Handler AccumulationResponse := do
  let query ← .lift bucket
  let identity ← authenticate headers
  let tenantSlug ← tenantSlugOf slug
  let isMember ← callerIsMember identity.email slug
  .ensure isMember notAMember
  let settings ← settingsFor tenantSlug
  let points ← ledgerCall internalError (accumulationPoints tenantSlug)
  let carry ← ledgerCall internalError (getCarryForward tenantSlug)
  let auto ← .read fun s => decideBucket s.now points
  -- any other value counts as auto
  let mode := match query.getD "auto" with
    | "year" => "year"
    | "month" => "month"
    | _ => auto
  let seed := (carry.map (·.amountCents)).getD 0
  return {
    bucket := mode
    currency := settings.currency
    carryForward := carry.map fun c =>
      { amountCents := c.amountCents
        fromDate := c.fromDate
        toDate := c.toDate
        note := c.note }
    series := bucketSeries points mode seed }

end SharamLedger
