import SharamLedger.Gateway.Rollups
import SharamLedger.PeriodText
import SharamLedger.Sample

/-!
# The accumulation series

`bucket_series` fills a map of sums under text keys and walks it with a running total. Free of the
order of the points: there is one entry for each bucket that occurs, in the order of the calendar,
with the sum of its amounts, and its running total is the seed and all that is not later. The
months of a year add up to it. Clock readings have a sign here, so that payments before 1970 are
covered.
-/

namespace SharamLedger

open Lib

namespace Buckets

/-- An accumulation point with a signed clock reading, in nanoseconds since the Unix epoch. -/
structure Point where
  submittedAt : Int
  amountCents : Int
  deriving DecidableEq, Repr

/-- The granularity of a mode: all modes but `year` are by month. -/
def unit (mode : String) : Cadence := if mode = "year" then .yearly else .monthly

namespace Point

/-- A point that the gateway has read. -/
def ofRead (p : AccumulationPoint) : Point := ⟨p.submittedAt, p.amountCents⟩

/-- The calendar day in UTC. -/
def day (p : Point) : Int := Calendar.unixEpoch + p.submittedAt / 1000000000 / 86400

/-- The year, or the year and the month. -/
def period (c : Cadence) (p : Point) : Period := Period.ofDay c p.day

/-- The bucket: `{:04}` of the year, or `{:04}-{:02}` of the year and the month. -/
def key (c : Cadence) (p : Point) : String := (p.period c).render

/-- The point lies in the years 0 to 9999. -/
def InEra (p : Point) : Prop :=
  0 ≤ Calendar.yearOf p.day ∧ Calendar.yearOf p.day ≤ 9999

instance (p : Point) : Decidable p.InEra := inferInstanceAs (Decidable (_ ∧ _))

end Point

/-- `bucket_series`. -/
def bucketSeries (points : List Point) (mode : String) (initial : Int) :
    List AccumulationPointView :=
  let buckets := points.foldl (fun sums p => addEntry (p.key (unit mode)) p.amountCents sums) []
  runningTotals initial (buckets.insertionSort fun a b => a.1 ≤ b.1)

/-- The amounts of some of the points, together. -/
def total (points : List Point) (select : Point → Bool) : Int :=
  ((points.filter select).map (·.amountCents)).sum

/-- The point's bucket is not a later one. -/
def notLater (c : Cadence) (q p : Point) : Bool := (p.period c).ord ≤ (q.period c).ord

/-- The sums of the series stay within 64 bits. -/
structure Within (points : List Point) (c : Cadence) (seed : Int) : Prop where
  sums : ∀ q ∈ points, I64.Fits (total points fun p => p.key c == q.key c)
  totals : ∀ q ∈ points, I64.Fits (seed + total points (notLater c q))

/-- The figures of the points, free of their order. -/
structure Reports (points : List Point) (c : Cadence) (seed : Int)
    (series : List AccumulationPointView) : Prop where
  occur : ∀ key, key ∈ series.map (·.bucket) ↔ ∃ p ∈ points, p.key c = key
  ascending : series.Pairwise fun a b => a.bucket < b.bucket
  chronological : series.Pairwise fun a b => ∀ p ∈ points, ∀ q ∈ points, p.key c = a.bucket →
    q.key c = b.bucket → (p.period c).ord < (q.period c).ord ∧ p.submittedAt < q.submittedAt
  sums : ∀ v ∈ series, v.periodCents = total points fun p => p.key c == v.bucket
  totals : ∀ v ∈ series, ∀ q ∈ points, q.key c = v.bucket →
    v.cumulativeCents = seed + total points (notLater c q)

/-- The months of a year in a series by month. -/
def monthsOf (year : String) (months : List AccumulationPointView) : List AccumulationPointView :=
  months.filter fun m => year.toList.isPrefixOf m.bucket.toList

/-- A year is its months: their sum, and the running total of the last of them. -/
structure YearOfMonths (v : AccumulationPointView) (months : List AccumulationPointView) :
    Prop where
  sum : v.periodCents = ((monthsOf v.bucket months).map (·.periodCents)).sum
  last : ((monthsOf v.bucket months).getLast?).map (·.cumulativeCents) = some v.cumulativeCents

/-! ## Keys and periods -/

theorem unit_year : unit "year" = .yearly := rfl

theorem unit_month : unit "month" = .monthly := rfl

theorem unit_cases (mode : String) : unit mode = .yearly ∨ unit mode = .monthly := by
  unfold unit
  split
  · exact .inl rfl
  · exact .inr rfl

namespace Point

variable {p q : Point} {c : Cadence}

theorem printable (h : p.InEra) (hc : c = .yearly ∨ c = .monthly) : (p.period c).Printable := by
  obtain ⟨h0, h1⟩ := h
  refine ⟨?_, ?_, Period.sub_lt c p.day⟩ <;> rcases hc with rfl | rfl <;> assumption

theorem cadence_period : (p.period c).cadence = c := Period.cadence_ofDay c p.day

theorem key_lt_iff (hp : p.InEra) (hq : q.InEra) (hc : c = .yearly ∨ c = .monthly) :
    p.key c < q.key c ↔ (p.period c).ord < (q.period c).ord :=
  Period.render_lt_iff (cadence_period.trans cadence_period.symm) (printable hp hc)
    (printable hq hc)

theorem key_le_iff (hp : p.InEra) (hq : q.InEra) (hc : c = .yearly ∨ c = .monthly) :
    p.key c ≤ q.key c ↔ (p.period c).ord ≤ (q.period c).ord := by
  rw [← String.not_lt, key_lt_iff hq hp hc, Int.not_lt]

/-- A point of an earlier bucket is an earlier point. -/
theorem earlier_of_ord_lt (h : (p.period c).ord < (q.period c).ord) :
    p.submittedAt < q.submittedAt := by
  have hstart := (Period.ord_lt_iff c p.day q.day).mp h
  have hself : ¬ q.day < Period.start c q.day :=
    fun hlt => Int.lt_irrefl _ ((Period.ord_lt_iff c q.day q.day).mpr hlt)
  have hday : p.day < q.day := by omega
  unfold day at hday
  omega

theorem toList_key_yearly (h : p.InEra) :
    (p.key .yearly).toList = Decimal.padded 4 (Calendar.yearOf p.day).toNat := by
  have htext := Period.toList_render (p := p.period .yearly) h.1
  exact htext.trans (List.append_nil _)

theorem length_key_yearly (h : p.InEra) : (p.key .yearly).toList.length = 4 := by
  rw [toList_key_yearly h]
  obtain ⟨h0, h1⟩ := h
  exact Decimal.length_padded (by omega) (by omega)

/-- A month begins with its year. -/
theorem toList_key_monthly (h : p.InEra) : (p.key .monthly).toList =
    (p.key .yearly).toList ++ (p.period .monthly).tailChars := by
  rw [toList_key_yearly h]
  exact Period.toList_render (p := p.period .monthly) h.1

/-- The months that begin with the text of a year are those of the year. -/
theorem prefix_key_iff (hp : p.InEra) (hq : q.InEra) :
    (q.key .yearly).toList.isPrefixOf (p.key .monthly).toList =
      (p.key .yearly == q.key .yearly) := by
  rw [Bool.eq_iff_iff, List.isPrefixOf_iff_prefix, beq_iff_eq, toList_key_monthly hp]
  constructor
  · intro hprefix
    have hlen : (q.key .yearly).toList.length = (p.key .yearly).toList.length := by
      rw [length_key_yearly hp, length_key_yearly hq]
    have hsame := (List.prefix_of_prefix_length_le hprefix (List.prefix_append _ _)
      hlen.le).eq_of_length hlen
    exact (String.toList_inj.mp hsame).symm
  · intro hsame
    rw [hsame]
    exact List.prefix_append _ _

end Point

/-- The series of the gateway, whose clock starts in 1970. -/
theorem bucketSeries_ofRead (points : List AccumulationPoint) (mode : String) (initial : Int) :
    SharamLedger.bucketSeries points mode initial =
      bucketSeries (points.map .ofRead) mode initial := by
  have hkey : ∀ p : AccumulationPoint,
      bucketKey mode p.submittedAt = (Point.ofRead p).key (unit mode) := by
    intro p
    have hday : utcDay p.submittedAt = (Point.ofRead p).day := by
      show Calendar.unixEpoch + ((p.submittedAt / 1000000000 : Nat) : Int) / 86400 =
        Calendar.unixEpoch + (p.submittedAt : Int) / 1000000000 / 86400
      omega
    unfold bucketKey unit Point.key Point.period
    rw [hday]
    split <;> rfl
  rw [SharamLedger.bucketSeries, bucketSeries, List.foldl_map]
  simp only [hkey]
  rfl

/-! ## One mode -/

section Series

variable {points : List Point} {c : Cadence} {seed : Int}

theorem Within.fits (h : Within points c seed) (key : String) :
    I64.Fits (total points fun p => p.key c == key) := by
  by_cases hoccurs : ∃ q ∈ points, q.key c = key
  · obtain ⟨q, hq, rfl⟩ := hoccurs
    exact h.sums q hq
  · have hnone : (points.filter fun p => p.key c == key) = [] :=
      List.filter_eq_nil_iff.mpr fun p hp heq => hoccurs ⟨p, hp, beq_iff_eq.mp heq⟩
    rw [total, hnone]
    decide

/-- Of the points that a choice of keys selects, the sums are in range with all others. -/
theorem Within.fits_filter (h : Within points c seed) (choice : String → Bool) (key : String) :
    I64.Fits (((points.filter fun p => choice (p.key c)).filter
      fun p => p.key c == key).map (·.amountCents)).sum := by
  have hfits := h.fits key
  rw [List.filter_filter]
  by_cases hchosen : choice key = true
  · have hsame : (points.filter fun p => p.key c == key && choice (p.key c)) =
        points.filter fun p => p.key c == key := by
      refine List.filter_congr fun p _ => ?_
      by_cases hkey : p.key c = key <;> simp [hkey, hchosen]
    rw [hsame]
    exact hfits
  · have hnone : (points.filter fun p => p.key c == key && choice (p.key c)) = [] := by
      refine List.filter_eq_nil_iff.mpr fun p _ hboth => hchosen ?_
      rw [Bool.and_eq_true, beq_iff_eq] at hboth
      exact hboth.1 ▸ hboth.2
    rw [hnone]
    decide

variable {mode : String}

/-- The map of sums that the loop fills. -/
theorem map_sums (points : List Point) (mode : String) :
    SumsOf (Point.key (unit mode)) (·.amountCents) points (points.foldl
      (fun sums p => addEntry (p.key (unit mode)) p.amountCents sums) []) :=
  .foldl points

/-- The entries of the series, without the running totals. -/
theorem series_sums (points : List Point) (mode : String) (seed : Int) :
    SumsOf (Point.key (unit mode)) (·.amountCents) points
      ((bucketSeries points mode seed).map fun v => (v.bucket, v.periodCents)) := by
  rw [bucketSeries, runningTotals_entries]
  exact (map_sums points mode).perm (.refl _) (List.perm_insertionSort _ _).symm

theorem series_ascending (points : List Point) (mode : String) (seed : Int) :
    (bucketSeries points mode seed).Pairwise fun a b => a.bucket < b.bucket := by
  have hsorted := sorted_buckets (map_sums points mode).nodup
  rw [← runningTotals_entries seed (List.insertionSort _ _), List.pairwise_map] at hsorted
  exact hsorted

/-- The chosen entries of the series add up to the points of the chosen buckets. -/
theorem series_total (h : Within points (unit mode) seed) (choice : String → Bool) :
    (((bucketSeries points mode seed).filter fun v => choice v.bucket).map (·.periodCents)).sum =
      total points fun p => choice (p.key (unit mode)) := by
  have hsum := ((series_sums points mode seed).filter choice).total (h.fits_filter choice)
  rw [List.filter_map, List.map_map] at hsum
  exact hsum

theorem series_occur (points : List Point) (mode : String) (seed : Int) (key : String) :
    key ∈ (bucketSeries points mode seed).map (·.bucket) ↔
      ∃ p ∈ points, p.key (unit mode) = key := by
  rw [← (series_sums points mode seed).keys key, List.map_map]
  rfl

/-- A running total is the seed and all points of buckets up to its own. -/
theorem series_cumulative (h : Within points (unit mode) seed)
    {v : AccumulationPointView} (hv : v ∈ bucketSeries points mode seed) :
    v.cumulativeCents =
      I64.wrap (seed + total points fun p => p.key (unit mode) ≤ v.bucket) := by
  have hsorted := sorted_buckets (map_sums points mode).nodup
  have hentries := runningTotals_entries seed ((points.foldl (fun sums p =>
    addEntry (p.key (unit mode)) p.amountCents sums) []).insertionSort fun a b => a.1 ≤ b.1)
  have htotal := series_total h fun key => key ≤ v.bucket
  rw [runningTotals_cumulative hsorted hv, ← hentries, List.filter_map, List.map_map, ← htotal]
  rfl

/-- For one mode, the series reports the points. -/
theorem reports (mode : String) (h : Within points (unit mode) seed)
    (hera : ∀ p ∈ points, p.InEra) :
    Reports points (unit mode) seed (bucketSeries points mode seed) where
  occur := series_occur points mode seed
  ascending := series_ascending points mode seed
  chronological := by
    refine (series_ascending points mode seed).imp fun hlt p hp q hq hkeyp hkeyq => ?_
    rw [← hkeyp, ← hkeyq, Point.key_lt_iff (hera p hp) (hera q hq) (unit_cases mode)] at hlt
    exact ⟨hlt, Point.earlier_of_ord_lt hlt⟩
  sums v hv := by
    have hsum := (series_sums points mode seed).sums (v.bucket, v.periodCents)
      (List.mem_map_of_mem hv)
    exact hsum.trans (I64.wrap_of_fits (h.fits v.bucket))
  totals v hv q hq hkey := by
    have hsame : (total points fun p => p.key (unit mode) ≤ v.bucket) =
        total points (notLater (unit mode) q) := by
      unfold total notLater
      rw [List.filter_congr fun p hp => ?_]
      rw [← hkey, decide_eq_decide]
      exact Point.key_le_iff (hera p hp) (hera q hq) (unit_cases mode)
    rw [series_cumulative h hv, hsame, I64.wrap_of_fits (h.totals q hq)]

/-- The order of the points makes no difference. -/
theorem series_perm {points' : List Point} (hperm : points.Perm points') (mode : String)
    (seed : Int) : bucketSeries points' mode seed = bucketSeries points mode seed := by
  have hsums := (map_sums points' mode).perm hperm.symm (.refl _)
  rw [bucketSeries, bucketSeries,
    sorted_buckets_eq hsums.nodup (hsums.entries_perm (map_sums points mode))]

end Series

/-! ## Years and their months -/

/-- In a list in strict order all before the last are less. -/
theorem le_last {l : List AccumulationPointView} {last v : AccumulationPointView}
    (hsorted : l.Pairwise fun a b => a.bucket < b.bucket) (hlast : l.getLast? = some last)
    (hv : v ∈ l) : v.bucket ≤ last.bucket := by
  obtain ⟨before, rfl⟩ := List.getLast?_eq_some_iff.mp hlast
  rcases List.mem_append.mp hv with hv | hv
  · have hlt := (List.pairwise_append.mp hsorted).2.2 v hv last (List.mem_singleton_self last)
    exact String.not_lt.mp (String.lt_asymm hlt)
  · obtain rfl := List.mem_singleton.mp hv
    exact String.le_refl _

/-- A month that is not later lies in a year that is not later. -/
theorem year_le_of_month_le {p q : Point}
    (h : (p.period .monthly).ord ≤ (q.period .monthly).ord) :
    Calendar.yearOf p.day ≤ Calendar.yearOf q.day := by
  have hp := Calendar.monthOf_bounds p.day
  have hq := Calendar.monthOf_bounds q.day
  rw [Point.period, Point.period, Period.ord_ofDay, Period.ord_ofDay] at h
  simp only [Calendar.monthOrd] at h
  omega

/-- A month of an earlier year is not later. -/
theorem month_le_of_year_lt {p q : Point}
    (h : Calendar.yearOf p.day < Calendar.yearOf q.day) :
    (p.period .monthly).ord ≤ (q.period .monthly).ord := by
  have hp := Calendar.monthOf_bounds p.day
  have hq := Calendar.monthOf_bounds q.day
  rw [Point.period, Point.period, Period.ord_ofDay, Period.ord_ofDay]
  simp only [Calendar.monthOrd]
  omega

theorem key_yearly_eq_iff {p q : Point} (hq : q.InEra) :
    p.key .yearly = q.key .yearly ↔ Calendar.yearOf p.day = Calendar.yearOf q.day := by
  constructor
  · intro h
    exact Period.yearly.inj (Period.eq_of_render_eq (Point.printable hq (.inl rfl)).1 h)
  · intro h
    rw [Point.key, Point.key, Point.period, Point.period, Period.ofDay, Period.ofDay, h]

theorem notLater_yearly {p q : Point} :
    notLater .yearly q p = decide (Calendar.yearOf p.day ≤ Calendar.yearOf q.day) := by
  unfold notLater Point.period
  rw [Period.ord_ofDay, Period.ord_ofDay, decide_eq_decide]
  simp only
  omega

section Years

variable {points : List Point} {seed : Int} {v : AccumulationPointView} {q : Point}

/-- The months of a point's year are the points of that year. -/
theorem mem_monthsOf (hera : ∀ p ∈ points, p.InEra) (hq : q ∈ points)
    {m : AccumulationPointView} :
    m ∈ monthsOf (q.key .yearly) (bucketSeries points "month" seed) ↔
      m ∈ bucketSeries points "month" seed ∧
        ∃ p ∈ points, p.key .monthly = m.bucket ∧ p.key .yearly = q.key .yearly := by
  rw [monthsOf, List.mem_filter]
  refine and_congr_right fun hm => ?_
  obtain ⟨p, hp, hkey⟩ := (series_occur points "month" seed m.bucket).mp (List.mem_map_of_mem hm)
  constructor
  · intro hprefix
    rw [← hkey, unit_month, Point.prefix_key_iff (hera p hp) (hera q hq), beq_iff_eq] at hprefix
    exact ⟨p, hp, hkey, hprefix⟩
  · rintro ⟨p, hp, hkey, hyear⟩
    rw [← hkey, Point.prefix_key_iff (hera p hp) (hera q hq), beq_iff_eq]
    exact hyear

theorem sum_monthsOf (hera : ∀ p ∈ points, p.InEra) (hmonths : Within points .monthly seed)
    (hq : q ∈ points) :
    ((monthsOf (q.key .yearly) (bucketSeries points "month" seed)).map (·.periodCents)).sum =
      total points fun p => p.key .yearly == q.key .yearly := by
  have hunit : Within points (unit "month") seed := hmonths
  have hsum := series_total hunit fun key => (q.key .yearly).toList.isPrefixOf key.toList
  rw [monthsOf, hsum, unit_month]
  unfold total
  rw [List.filter_congr fun p hp => Point.prefix_key_iff (hera p hp) (hera q hq)]

/-- The points up to the last month of a year are those up to the year. -/
theorem notLater_last (hera : ∀ p ∈ points, p.InEra) (hq : q ∈ points)
    {last : AccumulationPointView}
    (hlast : (monthsOf (q.key .yearly) (bucketSeries points "month" seed)).getLast? = some last)
    {r : Point} (hr : r ∈ points) (hkey : r.key .monthly = last.bucket) :
    total points (notLater .monthly r) = total points (notLater .yearly q) := by
  have hsame : Calendar.yearOf r.day = Calendar.yearOf q.day := by
    obtain ⟨-, p, hp, hbucket, hyear⟩ :=
      (mem_monthsOf hera hq).mp (List.mem_of_getLast? hlast)
    have hperiod := Period.eq_of_render_eq (Point.printable (hera r hr) (.inr rfl)).1
      (hbucket.trans hkey.symm)
    rw [key_yearly_eq_iff (hera q hq)] at hyear
    rw [← hyear]
    exact (Period.monthly.inj hperiod).1.symm
  unfold total
  rw [List.filter_congr fun p hp => ?_]
  rw [notLater_yearly, notLater, decide_eq_decide]
  constructor
  · intro hle
    have hyear := year_le_of_month_le hle
    omega
  · intro hle
    rcases Int.lt_or_eq_of_le hle with hlt | heq
    · exact month_le_of_year_lt (by omega)
    · -- the point's own month is one of the year, so the last is not before it
      have hoccurs : p.key .monthly ∈ (bucketSeries points "month" seed).map (·.bucket) :=
        (series_occur points "month" seed _).mpr ⟨p, hp, rfl⟩
      obtain ⟨m, hm, hmkey⟩ := List.mem_map.mp hoccurs
      have hmem : m ∈ monthsOf (q.key .yearly) (bucketSeries points "month" seed) :=
        (mem_monthsOf hera hq).mpr
          ⟨hm, p, hp, hmkey.symm, (key_yearly_eq_iff (hera q hq)).mpr heq⟩
      have hle := le_last ((series_ascending points "month" seed).sublist List.filter_sublist)
        hlast hmem
      rw [hmkey, ← hkey, Point.key_le_iff (hera p hp) (hera r hr) (.inr rfl)] at hle
      exact hle

theorem year_of_months (hera : ∀ p ∈ points, p.InEra) (hyear : Within points .yearly seed)
    (hmonths : Within points .monthly seed) (hv : v ∈ bucketSeries points "year" seed) :
    YearOfMonths v (bucketSeries points "month" seed) := by
  obtain ⟨q, hq, hkey⟩ :=
    (series_occur points "year" seed v.bucket).mp (List.mem_map_of_mem hv)
  have hkey : q.key .yearly = v.bucket := hkey
  have hyears := reports "year" hyear hera
  have hlist := reports "month" hmonths hera
  constructor
  · rw [← hkey, sum_monthsOf hera hmonths hq, hkey]
    exact hyears.sums v hv
  · -- the month of the point itself is there, so there is a last one
    have hoccurs : q.key .monthly ∈ (bucketSeries points "month" seed).map (·.bucket) :=
      (series_occur points "month" seed _).mpr ⟨q, hq, rfl⟩
    obtain ⟨m, hm, hmkey⟩ := List.mem_map.mp hoccurs
    have hmem : m ∈ monthsOf (q.key .yearly) (bucketSeries points "month" seed) :=
      (mem_monthsOf hera hq).mpr ⟨hm, q, hq, hmkey.symm, rfl⟩
    cases hlast : (monthsOf (q.key .yearly) (bucketSeries points "month" seed)).getLast? with
    | none =>
        rw [List.getLast?_eq_none_iff.mp hlast] at hmem
        cases hmem
    | some last =>
        obtain ⟨hmonth, r, hr, hrkey, -⟩ := (mem_monthsOf hera hq).mp (List.mem_of_getLast? hlast)
        have hcumulative : last.cumulativeCents = v.cumulativeCents := by
          rw [hlist.totals last hmonth r hr hrkey, hyears.totals v hv q hq hkey, unit_month,
            unit_year, notLater_last hera hq hlast hr hrkey]
        rw [← hkey, hlast, Option.map_some, hcumulative]

end Years

/-! ## The series -/

/-- For all points of the years 0 to 9999 and every seed. What the gateway makes of points it has
read is this series. -/
theorem series_lawful (points : List Point) (seed : Int) (hera : ∀ p ∈ points, p.InEra) :
    (∀ mode, Within points (unit mode) seed →
      Reports points (unit mode) seed (bucketSeries points mode seed)) ∧
    (∀ mode points', points.Perm points' →
      bucketSeries points' mode seed = bucketSeries points mode seed) ∧
    (Within points .yearly seed → Within points .monthly seed →
      ∀ v ∈ bucketSeries points "year" seed,
        YearOfMonths v (bucketSeries points "month" seed)) ∧
    ∀ mode (read : List AccumulationPoint), read.map .ofRead = points →
      SharamLedger.bucketSeries read mode seed = bucketSeries points mode seed := by
  refine ⟨fun mode hsums => reports mode hsums hera, fun mode points' hperm => ?_,
    fun hyears hmonths v hv => ?_, fun mode read hread => ?_⟩
  · exact series_perm hperm mode seed
  · exact year_of_months hera hyears hmonths hv
  · rw [bucketSeries_ofRead, hread]

/-- Payments of 2026 and of the last months of 1969. -/
def somePoints : List Point :=
  [⟨juneNoon, 500⟩, ⟨-1, 300⟩, ⟨-2764800000000000, -40⟩, ⟨-2, 60⟩]

theorem series_lawful_some :
    bucketSeries somePoints "month" 1000 =
        [⟨"1969-11", -40, 960⟩, ⟨"1969-12", 360, 1320⟩, ⟨"2026-06", 500, 1820⟩] ∧
      Reports somePoints .monthly 1000 (bucketSeries somePoints "month" 1000) ∧
      YearOfMonths ⟨"1969", 320, 1320⟩ (bucketSeries somePoints "month" 1000) := by
  obtain ⟨hreports, -, hyears, -⟩ := series_lawful somePoints 1000 (by decide)
  have hmonth : Within somePoints .monthly 1000 := ⟨by decide +kernel, by decide +kernel⟩
  have hyear : Within somePoints .yearly 1000 := ⟨by decide +kernel, by decide +kernel⟩
  exact ⟨by decide +kernel, hreports "month" hmonth, hyears hyear hmonth _ (by decide +kernel)⟩

end Buckets

end SharamLedger
