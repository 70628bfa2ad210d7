import SharamLedger.Gateway.Checked
import SharamLedger.Lifetime
import SharamLedger.PoolAgreement

/-!
# Totals of 64 bits

Nothing bounds what a tenant collects: the cap binds one member in one period, and not at all
without dues. The roll-ups add across members, periods and the seed, and are exact as long as
all of it together fits 64 bits.
-/

namespace SharamLedger

open Lib

namespace Overflow

/-- The summary of an address. -/
def summary (s : System) (slug : String) (settings : Settings) (email period : String) :
    PeriodSummary :=
  summaryOf (s.namespaces slug).contribution.rows settings.duesAmountCents email period

/-- The accumulation series. -/
def series (s : System) (slug mode : String) : List AccumulationPointView :=
  bucketSeries (s.namespaces slug).points mode (s.namespaces slug).seedCents

/-- No operation leaves 64 bits: with every operation checked, the figures are the reported
ones. -/
structure NoOverflow (s : System) (slug : String) (settings : Settings) : Prop where
  summaries : ∀ email period, summaryOfChecked (s.namespaces slug).contribution.rows
    settings.duesAmountCents email period = some (summary s slug settings email period)
  pools : ∀ period, poolSummaryChecked period settings.toTenantSettings
    ((s.namespaces slug).poolRows period) (s.control.membersOf slug) =
      some (PoolAgreement.pool s slug settings period)
  series : ∀ mode, bucketSeriesChecked (s.namespaces slug).points mode
    (s.namespaces slug).seedCents = some (series s slug mode)

/-- Every total is the sum it stands for. -/
structure Exact (s : System) (slug : String) (settings : Settings) : Prop where
  paid : ∀ email period, (summary s slug settings email period).paidCents =
    paidSum (s.namespaces slug).contribution.rows email period
  remaining : ∀ email period, (summary s slug settings email period).remainingCents =
    max (settings.duesAmountCents -
      paidSum (s.namespaces slug).contribution.rows email period) 0
  target : ∀ period, (PoolAgreement.pool s slug settings period).targetCents =
    settings.duesAmountCents * (s.control.membersOf slug).length
  poolPaid : ∀ period, (PoolAgreement.pool s slug settings period).paidCents =
    (((s.namespaces slug).countedFor period).map cents).sum
  poolRemaining : ∀ period, (PoolAgreement.pool s slug settings period).remainingCents =
    max (settings.duesAmountCents * (s.control.membersOf slug).length -
      (((s.namespaces slug).countedFor period).map cents).sum) 0
  bucket : ∀ mode, ∀ p ∈ series s slug mode, p.periodCents =
    (((s.namespaces slug).counted.filter fun r =>
      bucketKey mode r.row.submittedAt == p.bucket).map cents).sum
  cumulative : ∀ mode, ∀ p ∈ series s slug mode, p.cumulativeCents =
    (s.namespaces slug).seedCents + (((s.namespaces slug).counted.filter fun r =>
      bucketKey mode r.row.submittedAt ≤ p.bucket).map cents).sum

/-- No total is below zero. -/
structure NonNegative (s : System) (slug : String) (settings : Settings) : Prop where
  summaries : ∀ email period, 0 ≤ (summary s slug settings email period).paidCents ∧
    0 ≤ (summary s slug settings email period).remainingCents
  pools : ∀ period, 0 ≤ (PoolAgreement.pool s slug settings period).targetCents ∧
    0 ≤ (PoolAgreement.pool s slug settings period).paidCents ∧
    0 ≤ (PoolAgreement.pool s slug settings period).remainingCents
  series : ∀ mode, ∀ p ∈ series s slug mode, 0 ≤ p.periodCents ∧ 0 ≤ p.cumulativeCents

/-- What the dashboards report is right. -/
structure Faithful (s : System) (slug : String) (settings : Settings) : Prop where
  noOverflow : NoOverflow s slug settings
  exact : Exact s slug settings
  nonNegative : NonNegative s slug settings

/-- The seed and all payments that count, and the dues of all members, fit 64 bits. -/
structure Room (s : System) (slug : String) (settings : Settings) : Prop where
  lifetime : (s.namespaces slug).seedCents + ((s.namespaces slug).counted.map cents).sum ≤
    I64.maxValue
  target : settings.duesAmountCents * (s.control.membersOf slug).length ≤ I64.maxValue

/-- The buckets up to one hold the payments in them. -/
theorem cumulative_eq {ns : Namespace} (h : Lifetime.TotalsFit ns) (hseed : 0 ≤ ns.seedCents)
    {mode : String} {p : AccumulationPointView}
    (hp : p ∈ bucketSeries ns.points mode ns.seedCents) :
    p.cumulativeCents = ns.seedCents +
      ((ns.counted.filter fun r => bucketKey mode r.row.submittedAt ≤ p.bucket).map cents).sum := by
  have hupto := ((ns.series_sums mode ns.seedCents).filter fun k => k ≤ p.bucket).tallies fun _ =>
    h.selection (List.filter_sublist.trans List.filter_sublist)
  have htotal : ((((bucketSeries ns.points mode ns.seedCents).map fun p =>
      (p.bucket, p.periodCents)).filter fun e => e.1 ≤ p.bucket).map (·.2)).sum =
        ((ns.counted.filter fun r =>
          bucketKey mode r.row.submittedAt ≤ p.bucket).map cents).sum := by
    have htotal := hupto.total
    rwa [List.map_map] at htotal
  obtain ⟨hlow, hhigh⟩ := sum_selection (fun r hr => h.amounts r (Namespace.mem_counted hr))
    (List.filter_sublist (l := ns.counted)
      (p := fun r => bucketKey mode r.row.submittedAt ≤ p.bucket))
  have hlifetime := h.lifetime.2
  rw [bucketSeries_cumulative hp, htotal, I64.wrap_of_fits ⟨by omega, by omega⟩]

section Runs

variable [Platform] {s : System} {slug : String} {settings : Settings}

theorem seed_bounds (h : Deployment.Accountable s) :
    0 ≤ (s.namespaces slug).seedCents ∧ (s.namespaces slug).seedCents ≤ I64.maxValue := by
  unfold Namespace.seedCents
  cases hseed : (s.namespaces slug).carryForward with
  | none => exact ⟨le_rfl, by decide⟩
  | some row =>
      obtain ⟨hpos, hfits⟩ := CarryForward.amount_of_check (h.seed slug row hseed)
      exact ⟨hpos.le, hfits.2⟩

theorem Room.totals (h : Deployment.Accountable s) (hroom : Room s slug settings) :
    Lifetime.TotalsFit (s.namespaces slug) := by
  obtain ⟨hlow, hhigh⟩ := seed_bounds h
  obtain ⟨hpaid, -⟩ := sum_selection
    (fun r hr => h.amounts slug r (Namespace.mem_counted hr))
    (List.Sublist.refl (s.namespaces slug).counted)
  have hlifetime := hroom.lifetime
  exact
    { amounts := h.amounts slug
      seed := ⟨by omega, hhigh⟩
      paid := ⟨by omega, by omega⟩
      lifetime := ⟨by omega, hlifetime⟩ }

/-- With room for everything, every checked operation has a result. -/
theorem Room.noOverflow (h : Deployment.Accountable s)
    (hs : (s.namespaces slug).settings = some settings) (hroom : Room s slug settings) :
    NoOverflow s slug settings := by
  obtain ⟨hdues, hduesFit, -⟩ := Settings.dues_of_check (h.settings slug settings hs)
  have hperiod := (hroom.totals h).period
  constructor
  · intro email period
    exact summaryOfChecked_of_room (hperiod period) hdues hduesFit.2 email
  · intro period
    exact poolSummaryChecked_of_room (hperiod period) hdues hroom.target
  · intro mode
    refine bucketSeriesChecked_of_room ?_ (seed_bounds h).1 ?_ mode
    · intro p hp
      obtain ⟨r, hr, rfl⟩ := List.mem_map.mp hp
      exact (h.amounts slug r
        (Namespace.mem_counted ((oldestFirst_perm _).mem_iff.mp hr))).le
    · rw [Namespace.sum_points]
      exact hroom.lifetime

theorem Room.exact (h : Deployment.Accountable s)
    (hs : (s.namespaces slug).settings = some settings) (hroom : Room s slug settings) :
    Exact s slug settings := by
  obtain ⟨hdues, hduesFit, -⟩ := Settings.dues_of_check (h.settings slug settings hs)
  have htotals := hroom.totals h
  have htarget : 0 ≤ settings.duesAmountCents * ((s.control.membersOf slug).length : Int) :=
    Int.mul_nonneg hdues (Int.natCast_nonneg _)
  constructor
  · intro email period
    exact summaryOf_paid (htotals.period period) _ email
  · intro email period
    exact summaryOf_remaining (htotals.period period) hdues hduesFit.2 email
  · intro period
    exact I64.saturatingMul_of_fits ⟨by omega, hroom.target⟩
  · intro period
    exact poolSummary_paid (htotals.period period) _ _
  · intro period
    exact poolSummary_remaining (htotals.period period) hdues hroom.target
  · intro mode p hp
    exact (Lifetime.tallies_byBucket htotals mode).exact _ (List.mem_map.mpr ⟨p, hp, rfl⟩)
  · intro mode p hp
    exact cumulative_eq htotals (seed_bounds h).1 hp

/-- Sums of payments, and a seed, are not below zero. -/
theorem Exact.nonNegative (h : Deployment.Accountable s)
    (hs : (s.namespaces slug).settings = some settings) (hexact : Exact s slug settings) :
    NonNegative s slug settings := by
  obtain ⟨hdues, -, -⟩ := Settings.dues_of_check (h.settings slug settings hs)
  have hsum : ∀ l : List ContributionRecord, l.Sublist (s.namespaces slug).counted →
      0 ≤ (l.map cents).sum := by
    intro l hl
    exact (sum_selection (fun r hr => h.amounts slug r (Namespace.mem_counted hr)) hl).1
  constructor
  · intro email period
    rw [hexact.paid, hexact.remaining]
    exact ⟨paidSum_nonneg (h.amounts slug) _ _, le_max_right _ _⟩
  · intro period
    rw [hexact.target, hexact.poolPaid, hexact.poolRemaining]
    exact ⟨Int.mul_nonneg hdues (Int.natCast_nonneg _), hsum _ List.filter_sublist,
      le_max_right _ _⟩
  · intro mode p hp
    rw [hexact.bucket mode p hp, hexact.cumulative mode p hp]
    exact ⟨hsum _ List.filter_sublist,
      Int.add_nonneg (seed_bounds h).1 (hsum _ List.filter_sublist)⟩

/-- Checked operations with a result leave room for everything. -/
theorem NoOverflow.room (h : Deployment.Accountable s) (hok : NoOverflow s slug settings) :
    Room s slug settings := by
  obtain ⟨hlow, hhigh⟩ := seed_bounds h
  constructor
  · have hfits := bucketSeriesChecked_fits ⟨by omega, hhigh⟩ (hok.series "month")
    rw [Namespace.sum_points] at hfits
    exact hfits.2
  · -- the target of any period will do
    obtain ⟨target, htarget, -⟩ := Option.bind_eq_some_iff.mp (hok.pools "")
    exact (I64.checked_eq_some.mp htarget).1.2

/-- Room is all that is needed, and it is needed. -/
theorem faithful_iff {actions : List GatewayAction} {now : DateTime}
    (hs : ((Trace.exec Deployment.step actions (System.empty now)).namespaces slug).settings =
      some settings) :
    Faithful (Trace.exec Deployment.step actions (System.empty now)) slug settings ↔
      Room (Trace.exec Deployment.step actions (System.empty now)) slug settings := by
  have h := Deployment.accountable_exec actions now
  constructor
  · intro hfaithful
    exact hfaithful.noOverflow.room h
  · intro hroom
    have hexact := hroom.exact h hs
    exact ⟨hroom.noOverflow h hs, hexact, hexact.nonNegative h hs⟩

end Runs

/-! ## Two donations -/

section Sample

attribute [local instance] Platform.sample

open PoolAgreement

/-- Ann and Bob have both paid their dues. -/
theorem faithful_pool :
    Faithful (Trace.exec Deployment.step (bobJoins 10000 ++
      [pays "ann@pool.org" 10000, pays "bob@pool.org" 10000]) (System.empty juneNoon))
      "pool" (sampleSettings 10000) :=
  (faithful_iff (by decide +kernel)).mpr ⟨by decide +kernel, by decide +kernel⟩

/-- Without dues Ann and Bob each give the largest amount there is. -/
def donations : System :=
  Trace.exec Deployment.step (bobJoins 0 ++
    [pays "ann@pool.org" I64.maxValue, pays "bob@pool.org" I64.maxValue]) (System.empty juneNoon)

/-- The pool then reports that they have paid minus two cents. -/
theorem donations_overflow :
    (donations.namespaces "pool").settings = some (sampleSettings 0) ∧
      (pool donations "pool" (sampleSettings 0) "2026-06").paidCents = -2 ∧
      ¬ Faithful donations "pool" (sampleSettings 0) := by
  have hpaid : (pool donations "pool" (sampleSettings 0) "2026-06").paidCents = -2 := by
    decide +kernel
  refine ⟨by decide +kernel, hpaid, ?_⟩
  intro h
  have hnonneg := (h.nonNegative.pools "2026-06").2.1
  rw [hpaid] at hnonneg
  exact absurd hnonneg (by decide)

end Sample

end Overflow

end SharamLedger
