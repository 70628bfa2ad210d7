import SharamLedger.Gateway.Rollups
import SharamLedger.Sample

/-!
# The lifetime total

The same payments are added up by bucket of their submission time, by period and member in the
pool, and for one member and one period in the summaries. Each way counts every payment that is
not rejected once, and all three come to the same total.
-/

namespace SharamLedger

open Lib

namespace Lifetime

/-- `lifetime_cents`: the last running total of the series, or the seed when it is empty. -/
def lifetimeCents (ns : Namespace) (mode : String) : Int :=
  ((bucketSeries ns.points mode ns.seedCents).getLast?.map (·.cumulativeCents)).getD ns.seedCents

/-- The addresses with a row. -/
def contributors (ns : Namespace) : List String :=
  (ns.contribution.rows.map fun r => r.row.userEmail).dedup

/-- Amounts as the schema asserts them, a seed of 64 bits, and totals that fit 64 bits too. -/
structure TotalsFit (ns : Namespace) : Prop where
  amounts : ∀ r ∈ ns.contribution.rows, 0 < cents r
  seed : I64.Fits ns.seedCents
  paid : I64.Fits (ns.counted.map cents).sum
  lifetime : I64.Fits (ns.seedCents + (ns.counted.map cents).sum)

instance (ns : Namespace) : Decidable (TotalsFit ns) :=
  decidable_of_iff ((∀ r ∈ ns.contribution.rows, 0 < cents r) ∧ I64.Fits ns.seedCents ∧
      I64.Fits (ns.counted.map cents).sum ∧
      I64.Fits (ns.seedCents + (ns.counted.map cents).sum))
    ⟨fun ⟨ha, hs, hp, hl⟩ => ⟨ha, hs, hp, hl⟩, fun h => ⟨h.amounts, h.seed, h.paid, h.lifetime⟩⟩

/-- The payments of each bucket of the series, with the figure of the bucket. -/
def byBucket (ns : Namespace) (mode : String) : List (List ContributionRecord × Int) :=
  (bucketSeries ns.points mode ns.seedCents).map fun p =>
    (ns.counted.filter fun r => bucketKey mode r.row.submittedAt == p.bucket, p.periodCents)

/-- The payments of each period and member in the maps of the pool, with the entry of the map. -/
def byPool (ns : Namespace) : List (List ContributionRecord × Int) :=
  ns.periods.flatMap fun period => (byMember (ns.poolRows period)).map fun e =>
    ((ns.countedFor period).filter fun r => r.row.userEmail == e.1, e.2)

/-- The payments of each period and contributor, with the figure of their summary. -/
def bySummary (ns : Namespace) (dues : Int) : List (List ContributionRecord × Int) :=
  ns.periods.flatMap fun period => (contributors ns).map fun email =>
    ((ns.countedFor period).filter fun r => r.row.userEmail == email,
      (summaryOf ns.contribution.rows dues email period).paidCents)

/-- The three ways of adding up a tenant's payments agree. -/
structure Agree (ns : Namespace) (mode : String) : Prop where
  pool : ∀ settings members, lifetimeCents ns mode - ns.seedCents =
    (ns.periods.map fun period =>
      (poolSummary period settings (ns.poolRows period) members).paidCents).sum
  summaries : ∀ dues, lifetimeCents ns mode - ns.seedCents =
    (ns.periods.map fun period => ((contributors ns).map fun email =>
      (summaryOf ns.contribution.rows dues email period).paidCents).sum).sum
  bucketsOnce : Tallies cents ns.counted (byBucket ns mode)
  poolOnce : Tallies cents ns.counted (byPool ns)
  summariesOnce : ∀ dues, Tallies cents ns.counted (bySummary ns dues)

variable {ns : Namespace}

theorem TotalsFit.selection (h : TotalsFit ns) {l : List ContributionRecord}
    (hl : l.Sublist ns.counted) : I64.Fits (l.map cents).sum := by
  obtain ⟨hlow, hhigh⟩ := sum_selection (fun r hr => h.amounts r (Namespace.mem_counted hr)) hl
  exact ⟨by omega, hhigh.trans h.paid.2⟩

theorem TotalsFit.period (h : TotalsFit ns) (period : String) : ns.PeriodFits period :=
  ⟨h.amounts, h.selection List.filter_sublist⟩

/-! ## The accumulation series -/

theorem tallies_byBucket (h : TotalsFit ns) (mode : String) :
    Tallies cents ns.counted (byBucket ns mode) := by
  have hseries := (ns.series_sums mode ns.seedCents).tallies fun _ =>
    h.selection List.filter_sublist
  rw [List.map_map] at hseries
  exact hseries

theorem lifetimeCents_eq (h : TotalsFit ns) (mode : String) :
    lifetimeCents ns mode = ns.seedCents + (ns.counted.map cents).sum := by
  have htotal := (tallies_byBucket h mode).total
  have hfigures : (byBucket ns mode).map (·.2) =
      (bucketSeries ns.points mode ns.seedCents).map (·.periodCents) := by
    rw [byBucket, List.map_map]
    rfl
  rw [hfigures] at htotal
  rw [lifetimeCents, bucketSeries_last, I64.foldl_add h.seed, htotal, I64.wrap_of_fits h.lifetime]

/-! ## Periods -/

theorem mem_periods_of_counted {r : ContributionRecord} (hr : r ∈ ns.counted) :
    r.row.period ∈ ns.periods :=
  Namespace.mem_periods.mpr ⟨r, Namespace.mem_counted hr, rfl⟩

theorem mem_contributors {period : String} {r : ContributionRecord}
    (hr : r ∈ ns.countedFor period) : r.row.userEmail ∈ contributors ns :=
  List.mem_dedup.mpr (List.mem_map_of_mem (Namespace.mem_countedFor hr))

theorem tallies_byPool (h : TotalsFit ns) : Tallies cents ns.counted (byPool ns) :=
  Tallies.flatMap ns.nodup_periods (fun _ hr => mem_periods_of_counted hr) fun period _ =>
    tallies_pool (h.period period)

theorem tallies_bySummary (h : TotalsFit ns) (dues : Int) :
    Tallies cents ns.counted (bySummary ns dues) :=
  Tallies.flatMap ns.nodup_periods (fun _ hr => mem_periods_of_counted hr) fun period _ =>
    tallies_summaries (h.period period) dues (List.nodup_dedup _) fun _ => mem_contributors

/-! ## The totals -/

/-- Exact figures of the periods add up to all that was paid. -/
theorem sum_periods {figure : String → Int} (hfigure : ∀ period ∈ ns.periods, figure period =
    ((ns.countedFor period).map cents).sum) :
    (ns.periods.map figure).sum = (ns.counted.map cents).sum := by
  have htotal := (Tallies.of_keys ns.nodup_periods (fun _ hr => mem_periods_of_counted hr)
    hfigure).total
  rwa [List.map_map] at htotal

/-- For every tenant whose totals fit 64 bits, and in both bucket modes, the three ways of adding
up its payments agree. -/
theorem rollups_agree (h : TotalsFit ns) (mode : String) : Agree ns mode := by
  have hlifetime : lifetimeCents ns mode - ns.seedCents = (ns.counted.map cents).sum := by
    rw [lifetimeCents_eq h]
    omega
  refine ⟨fun settings members => ?_, fun dues => ?_, tallies_byBucket h mode, tallies_byPool h,
    tallies_bySummary h⟩
  · rw [hlifetime, sum_periods fun period _ =>
      poolSummary_paid (h.period period) settings members]
  · rw [hlifetime, sum_periods fun period _ => ?_]
    have htotal := (tallies_summaries (h.period period) dues (List.nodup_dedup _)
      fun _ => mem_contributors).total
    rwa [List.map_map] at htotal

/-! ## A tenant of mixed cadences -/

/-- A payment, and a status for it. -/
def paid (id : Nat) (email cadence period status : String) (amountCents : Int) (t : DateTime) :
    ContributionRecord :=
  ⟨id, { paymentRow email cadence period amountCents t with status := status }⟩

/-- Ann and Bob have paid by month and by year, one payment of Ann's was rejected, and there is a
seed. -/
def mixedTenant : Namespace where
  settings := some (sampleSettings 10000)
  contribution :=
    { rows :=
        [paid 0 "ann@pool.org" "monthly" "2026-06" "submitted" 6000 juneNoon,
          paid 1 "bob@pool.org" "monthly" "2026-06" "verified" 4000 juneNoon,
          paid 2 "ann@pool.org" "monthly" "2026-06" "rejected" 9000 juneNoon,
          paid 3 "ann@pool.org" "yearly" "2026" "verified" 2500 (juneNoon + 40 * oneDay)]
      nextId := 4
      fresh := by decide
      distinct := by decide
      unique := by decide }
  carryForward := some ⟨"2025-01-01", "2025-12-31", 7000, none, "ann@pool.org", juneNoon⟩

theorem rollups_agree_mixed : Agree mixedTenant "year" := rollups_agree (by decide) "year"

end Lifetime

end SharamLedger
