import SharamLedger.CurrentPeriod
import SharamLedger.Sample

/-!
# Two clocks, one period

A payment is recorded for the period on the tenant's wall clock, and the database locks what is
older than its own period in UTC. West of UTC the wall clock enters a period later than UTC does,
and in between a payment for the tenant's current period is refused as locked.
-/

namespace SharamLedger

open Lib

namespace PeriodSkew

section Payments

variable [Platform]

/-- A payment by a member that nothing but the lock could refuse: the request is well formed and
allowed, and the sum that the dues cap adds up stays within the dues. -/
structure MemberPayment (s : System) (slug : String) (headers : Headers)
    (p : PostContributionRequest) (identity : Identity) (settings : Settings) (tz : Tz)
    (c : Cadence) : Prop where
  validSlug : isValidSlug slug = true
  session : authResult headers s.now = .ok identity
  member : (s.control.roleFor identity.email slug).isSome = true
  email : Platform.isEmail identity.email = true
  positive : 0 < p.amountCents
  fits : I64.Fits p.amountCents
  proof : (p.proofKey.all fun pk => Text.startsWith pk (proofPrefix slug)) = true
  stored : (s.namespaces slug).settings = some settings
  timezone : parseTz settings.timezone = .ok tz
  cadence : settings.cadence = c.asStr
  underCap : 0 < settings.duesAmountCents →
    I64.wrap (paidSum (s.namespaces slug).contribution.rows identity.email
      (Period.currentIn tz c s.now).render + p.amountCents) ≤ settings.duesAmountCents

/-- The response is the one for `PeriodLocked`. -/
def Rejected (slug : String) (headers : Headers) (p : PostContributionRequest) (s : System) :
    Prop :=
  ∃ period, ((postContribution slug headers (.ok p)).run s).1 =
    .error ⟨422, "period " ++ period ++ " is locked"⟩

variable {s : System} {slug : String} {headers : Headers} {p : PostContributionRequest}
  {identity : Identity} {settings : Settings} {tz : Tz} {c : Cadence}

/-- The row the payment is to be recorded with. -/
def paymentOf (s : System) (identity : Identity) (tz : Tz) (c : Cadence)
    (p : PostContributionRequest) : Contribution :=
  (NewContribution.row
    { userEmail := identity.email
      cadence := c.asStr
      period := (Period.currentIn tz c s.now).render
      amountCents := p.amountCents
      proofKey := p.proofKey
      note := p.note } s.now).stamp s.now

/-- The handler gets as far as the `CREATE`, and its error decides the response. -/
theorem run_payment (h : MemberPayment s slug headers p identity settings tz c) :
    match (s.namespaces slug).createContribution s.now (paymentOf s identity tz c p) with
    | .error e => ((postContribution slug headers (.ok p)).run s).1 =
        .error (addContributionError (mapDbError e))
    | .ok _ => ∃ response, ((postContribution slug headers (.ok p)).run s).1 = .ok response := by
  have hslug : TenantSlug.new slug = .ok ⟨slug, h.validSlug⟩ := by
    simp [TenantSlug.new, h.validSlug]
  have hperiod : currentPeriodOf s.now settings.toTenantSettings =
      .ok (Period.currentIn tz c s.now).render := by
    simp [currentPeriodOf, h.timezone, h.cadence]
  have hcreate : (s.namespaces slug).addContribution
      { userEmail := identity.email
        cadence := c.asStr
        period := (Period.currentIn tz c s.now).render
        amountCents := p.amountCents
        proofKey := p.proofKey
        note := p.note } s.now =
      (s.namespaces slug).createContribution s.now (paymentOf s identity tz c p) := rfl
  have hproof := h.proof
  cases hc : (s.namespaces slug).createContribution s.now (paymentOf s identity tz c p) with
  | error e =>
      simp [postContribution, addContribution, h.session, hslug, h.member, h.positive, hproof,
        h.stored, hperiod, h.cadence, hcreate, hc, Except.mapError]
  | ok answer =>
      obtain ⟨-, -, -, -, -, hsettings, -⟩ := Namespace.createContribution_ok hc
      simp [postContribution, addContribution, h.session, hslug, h.member, h.positive, hproof,
        h.stored, hperiod, h.cadence, hcreate, hc, hsettings, Except.mapError]

/-- The only field assertion the row of a member's payment can fail is the one on its period. -/
theorem check_paymentOf (h : MemberPayment s slug headers p identity settings tz c) :
    (paymentOf s identity tz c p).check =
      if (Period.currentIn tz c s.now).year ≤ 9999 then .ok ()
      else .error (.field "contribution" "period" (Period.currentIn tz c s.now).render) := by
  have hperiod := Period.isPeriodText_render c (localDay_ge tz s.now)
  have hcadence : isCadence c.asStr = true := by cases c <;> decide
  have hfits : isInt p.amountCents = true := by simpa [isInt] using h.fits
  have hstatus : isStatus "submitted" = true := by decide
  unfold Contribution.check
  simp only [paymentOf, NewContribution.row, Contribution.stamp, h.email, hcadence, hfits,
    h.positive, hstatus]
  by_cases hyear : (Period.currentIn tz c s.now).year ≤ 9999
  · have htext : isPeriodText (Period.currentIn tz c s.now).render = true := hperiod.mpr hyear
    simp [htext, hyear]
  · have htext : isPeriodText (Period.currentIn tz c s.now).render = false :=
      Bool.eq_false_iff.mpr (hperiod.not.mpr hyear)
    simp [htext, hyear]

/-- A period text that the field assertion rejects is reported as it is, not as a lock. -/
theorem mapDbError_period (tz : Tz) (c : Cadence) (now : DateTime) :
    ∃ text, mapDbError (.fault (.field "contribution" "period"
      (Period.currentIn tz c now).render)) = .db text := by
  have hlower := Period.isLower_render c (localDay_ge tz now)
  have hne : (Period.currentIn tz c now).render ≠ "carry_forward:current" := by
    intro heq
    have hc := hlower 'c'
    rw [← Period.currentIn, heq] at hc
    exact absurd (hc (by decide)) (by decide)
  exact ⟨_, mapDbError_of_unmarked
    (Platform.faultText_unmarked (.field "contribution" "period" _) hne
      (unmarked_of_no_lower hlower))⟩

/-- The payment passes the dues cap. -/
theorem cap_of_payment (h : MemberPayment s slug headers p identity settings tz c)
    {r : ContributionRecord} {table : Table Contribution}
    (htable : (s.namespaces slug).contribution.create (paymentOf s identity tz c p) =
      some (r, table)) :
    contributionDuesCap { s.namespaces slug with contribution := table }
      (paymentOf s identity tz c p) = .ok () := by
  obtain ⟨rfl, hrows, -⟩ := Table.create_some htable
  refine contributionDuesCap_ok.mpr (.inr fun found hfound hdues => ?_)
  obtain rfl : settings = found := Option.some.inj (h.stored.symm.trans hfound)
  have hcounts : (paymentOf s identity tz c p).countsFor (paymentOf s identity tz c p).userEmail
      (paymentOf s identity tz c p).period = true := by
    have hstatus : (paymentOf s identity tz c p).status = "submitted" := rfl
    rw [Contribution.countsFor_iff, hstatus]
    exact ⟨rfl, rfl, by decide⟩
  dsimp only
  rw [hrows, mathSum_eq_wrap, paidSum_append, if_pos hcounts]
  exact h.underCap hdues

/-- A payment the lock alone could refuse is refused exactly while the tenant's local date is
behind the database's current period. -/
theorem rejected_iff (h : MemberPayment s slug headers p identity settings tz c) :
    Rejected slug headers p s ↔
      (Period.ofDay c (utcDay s.now)).year ≤ 9999 ∧ Period.Behind tz c s.now := by
  have hrun := run_payment h
  obtain ⟨table, htable, heq⟩ := (s.namespaces slug).createContribution_eq s.now
    (paymentOf s identity tz c p)
  have hstamp : (paymentOf s identity tz c p).stamp s.now = paymentOf s identity tz c p := rfl
  rw [hstamp] at heq htable
  rw [heq, check_paymentOf h] at hrun
  by_cases hyear : (Period.currentIn tz c s.now).year ≤ 9999
  · have hpast : (paymentOf s identity tz c p).Past s.now ↔
        (Period.ofDay c (utcDay s.now)).year ≤ 9999 ∧ Period.Behind tz c s.now := by
      have hlt := Period.currentIn_lt_iff tz c s.now
      simp only [not_lt.mpr hyear, or_false] at hlt
      exact hlt
    by_cases hbehind : (paymentOf s identity tz c p).Past s.now
    · obtain ⟨e, period, hlock, he⟩ := mapDbError_lockCheck hbehind
      simp only [hyear, if_true, hlock, Except.mapError, bind, Except.bind, he,
        addContributionError] at hrun
      exact iff_of_true ⟨period, hrun⟩ (hpast.mp hbehind)
    · have hcap : contributionDuesCap { s.namespaces slug with contribution := table }
          (paymentOf s identity tz c p) = .ok () :=
        cap_of_payment h htable
      simp only [hyear, if_true, contributionLockCheck_ok.mpr hbehind, hcap, Except.mapError, bind,
        Except.bind, pure, Except.pure] at hrun
      obtain ⟨response, hresponse⟩ := hrun
      refine iff_of_false ?_ (hpast.not.mp hbehind)
      rintro ⟨period, hrejected⟩
      rw [hresponse] at hrejected
      cases hrejected
  · obtain ⟨text, htext⟩ := mapDbError_period tz c s.now
    simp only [hyear, if_false, Except.mapError, bind, Except.bind, htext] at hrun
    refine iff_of_false ?_ ?_
    · rintro ⟨period, hrejected⟩
      rw [hrun] at hrejected
      cases hrejected
    · -- behind the database, the local period has the smaller year
      rintro ⟨hutc, hbehind⟩
      have hord := (Period.ord_lt_iff c _ _).mpr hbehind
      have hsub := Period.sub_lt c (utcDay s.now)
      unfold Period.ord at hord
      unfold Period.currentIn at hyear
      omega

/-- The gateway and the database agree that the tenant's current period is open: the payment is
not refused as locked, and the gateway's period does not come before the database's. -/
def InStep (slug : String) (headers : Headers) (p : PostContributionRequest) (tz : Tz)
    (c : Cadence) (s : System) : Prop :=
  ¬ Rejected slug headers p s ∧
    ¬ (Period.currentIn tz c s.now).render < currentPeriodFor s.now c.asStr

/-- The two agree exactly while the tenant's local date has reached the database's current
period and has a four-digit year, or once the database's period has none. -/
theorem in_step_iff (h : MemberPayment s slug headers p identity settings tz c) :
    InStep slug headers p tz c s ↔
      (Period.start c (utcDay s.now) ≤ localDay tz s.now ∧
          (Period.currentIn tz c s.now).year ≤ 9999) ∨
        9999 < (Period.ofDay c (utcDay s.now)).year := by
  unfold InStep
  rw [rejected_iff h, Period.currentIn_lt_iff, Period.Behind]
  omega

end Payments

/-! ## The first of a month in Honolulu -/

section Sample

attribute [local instance] Platform.sample

/-- Seven in the evening of 30 June in Honolulu, five in the morning of 1 July in UTC. -/
def juneEvening : DateTime := juneNoon + 15 * oneDay + 17 * 3600000000000

/-- Ann pays her dues of 100 to a venture in Honolulu that opened just before. -/
def AnnPays (now : DateTime) : Prop :=
  MemberPayment (openVenture "Pacific/Honolulu" 10000 now) "pool" (bearer "ann@pool.org" now)
    { amountCents := 10000 } ⟨"ann@pool.org", none, none⟩
    { sampleSettings 10000 with
      timezone := "Pacific/Honolulu"
      createdAt := now
      updatedAt := now }
    honolulu .monthly

theorem ann_pays {now : DateTime} (hnow : now = juneNoon ∨ now = juneEvening) :
    AnnPays now := by
  rcases hnow with rfl | rfl <;> exact
    { validSlug := by decide
      session := by decide
      member := by decide
      email := by decide
      positive := by decide
      fits := by decide
      proof := by decide
      stored := by decide
      timezone := by rfl
      cadence := by decide
      underCap := by decide }

/-- At noon of 15 June the gateway and the database agree. -/
theorem in_step_june :
    InStep "pool" (bearer "ann@pool.org" juneNoon) { amountCents := 10000 }
      honolulu .monthly (openVenture "Pacific/Honolulu" 10000 juneNoon) :=
  (in_step_iff (ann_pays (.inl rfl))).mpr (.inl ⟨by decide, by decide⟩)

/-- On the evening of 30 June the period is still June in Honolulu, and locked in the database. -/
theorem june_locked_in_honolulu :
    AnnPays juneEvening ∧
      ((postContribution "pool" (bearer "ann@pool.org" juneEvening)
        (.ok { amountCents := 10000 })).run
          (openVenture "Pacific/Honolulu" 10000 juneEvening)).1 =
            .error ⟨422, "period 2026-06 is locked"⟩ ∧
      ¬ InStep "pool" (bearer "ann@pool.org" juneEvening) { amountCents := 10000 }
        honolulu .monthly
        (openVenture "Pacific/Honolulu" 10000 juneEvening) := by
  have hresponse : ((postContribution "pool" (bearer "ann@pool.org" juneEvening)
      (.ok { amountCents := 10000 })).run (openVenture "Pacific/Honolulu" 10000 juneEvening)).1 =
        .error ⟨422, "period 2026-06 is locked"⟩ := by decide
  exact ⟨ann_pays (.inr rfl), hresponse, fun h => h.1 ⟨"2026-06", hresponse⟩⟩

end Sample

end PeriodSkew

end SharamLedger
