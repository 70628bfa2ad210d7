import SharamLedger.Gateway.Rollups

/-!
# The roll-ups, with every operation checked

The same figures computed with operations that give nothing when the result leaves 64 bits. A
checked roll-up with a result is one that runs without overflow.
-/

namespace SharamLedger

open Lib

/-- `addEntry`, checked. -/
def addEntryChecked (key : String) (amount : Int) :
    List (String × Int) → Option (List (String × Int))
  | [] => (I64.checkedAdd 0 amount).map fun v => [(key, v)]
  | (k, v) :: rest =>
      if k = key then (I64.checkedAdd v amount).map fun v => (k, v) :: rest
      else (addEntryChecked key amount rest).map fun rest => (k, v) :: rest

/-- `byMember`, checked. -/
def byMemberChecked (rows : List ContributionRecord) : Option (List (String × Int)) :=
  rows.foldlM
    (fun sums r =>
      if r.row.status != "rejected" then addEntryChecked r.row.userEmail r.row.amountCents sums
      else pure sums)
    []

/-- `poolSummary`, checked: its product too must be exact, not saturated. -/
def poolSummaryChecked (period : String) (settings : TenantSettings)
    (rows : List ContributionRecord) (members : List TenantMember) : Option PoolSummaryView := do
  let dues := settings.duesAmountCents
  let target ← I64.checkedMul dues members.length
  let entries ← byMemberChecked rows
  let sums := entries.map (·.2)
  let paid ← I64.checkedSum sums
  let remaining ← I64.checkedSub target paid
  return {
    period
    cadence := settings.cadence
    currency := settings.currency
    duesPerMemberCents := dues
    memberCount := members.length
    targetCents := target
    paidCents := paid
    remainingCents := max remaining 0
    settledCount :=
      if 0 < dues then sums.countP fun v => dues ≤ v else sums.countP fun v => 0 < v }

/-- `summaryOf`, checked. -/
def summaryOfChecked (rows : List ContributionRecord) (dues : Int) (email period : String) :
    Option PeriodSummary := do
  let paid ← I64.checkedSum (paidAmounts rows email period)
  let remaining ← I64.checkedSub dues paid
  return { duesCents := dues, paidCents := paid, remainingCents := max remaining 0 }

/-- `runningTotals`, checked. -/
def runningTotalsChecked (running : Int) :
    List (String × Int) → Option (List AccumulationPointView)
  | [] => some []
  | (bucket, cents) :: rest => do
      let running ← I64.checkedAdd running cents
      let rest ← runningTotalsChecked running rest
      return ⟨bucket, cents, running⟩ :: rest

/-- `bucketSeries`, checked. -/
def bucketSeriesChecked (points : List AccumulationPoint) (mode : String) (initial : Int) :
    Option (List AccumulationPointView) := do
  let buckets ← points.foldlM
    (fun sums p => addEntryChecked (bucketKey mode p.submittedAt) p.amountCents sums) []
  runningTotalsChecked initial (buckets.insertionSort fun a b => a.1 ≤ b.1)

/-! ## One pass -/

/-- All entries together. -/
def entriesTotal (entries : List (String × Int)) : Int := (entries.map (·.2)).sum

@[simp] theorem entriesTotal_nil : entriesTotal [] = 0 := rfl

@[simp] theorem entriesTotal_cons (e : String × Int) (rest : List (String × Int)) :
    entriesTotal (e :: rest) = e.2 + entriesTotal rest := List.sum_cons

theorem entriesTotal_nonneg {entries : List (String × Int)} (h : ∀ e ∈ entries, 0 ≤ e.2) :
    0 ≤ entriesTotal entries :=
  List.sum_nonneg (List.forall_mem_map.mpr h)

/-- A checked entry makes the total grow by the amount. -/
theorem addEntryChecked_total {k : String} {v : Int} {entries entries' : List (String × Int)}
    (h : addEntryChecked k v entries = some entries') :
    entriesTotal entries' = entriesTotal entries + v := by
  induction entries generalizing entries' with
  | nil =>
      obtain ⟨w, hw, rfl⟩ := Option.map_eq_some_iff.mp h
      obtain ⟨-, rfl⟩ := I64.checked_eq_some.mp hw
      simp
  | cons e rest ih =>
      rw [addEntryChecked] at h
      split at h
      · obtain ⟨w, hw, rfl⟩ := Option.map_eq_some_iff.mp h
        obtain ⟨-, rfl⟩ := I64.checked_eq_some.mp hw
        simp only [entriesTotal_cons]
        omega
      · obtain ⟨rest', hrest, rfl⟩ := Option.map_eq_some_iff.mp h
        have htotal := ih hrest
        simp only [entriesTotal_cons]
        omega

/-- While the total has room for the amount, the checked entry is the plain one. -/
theorem addEntryChecked_of_room {k : String} {v : Int} {entries : List (String × Int)}
    (hentries : ∀ e ∈ entries, 0 ≤ e.2) (hv : 0 ≤ v)
    (hroom : entriesTotal entries + v ≤ I64.maxValue) :
    addEntryChecked k v entries = some (addEntry k v entries) ∧
      ∀ e ∈ addEntry k v entries, 0 ≤ e.2 := by
  induction entries with
  | nil =>
      have hfits : I64.Fits (0 + v) := ⟨by omega, by simpa using hroom⟩
      rw [addEntryChecked, addEntry, I64.checkedAdd, I64.checked_of_fits hfits,
        I64.add_of_fits hfits]
      refine ⟨rfl, fun e he => ?_⟩
      rw [List.mem_singleton.mp he]
      omega
  | cons e rest ih =>
      obtain ⟨he, hrest⟩ := List.forall_mem_cons.mp hentries
      rw [entriesTotal_cons] at hroom
      have htotal := entriesTotal_nonneg hrest
      rw [addEntryChecked, addEntry]
      split
      · have hfits : I64.Fits (e.2 + v) := ⟨by omega, by omega⟩
        rw [I64.checkedAdd, I64.checked_of_fits hfits, I64.add_of_fits hfits]
        exact ⟨rfl, List.forall_mem_cons.mpr ⟨Int.add_nonneg he hv, hrest⟩⟩
      · obtain ⟨hchecked, hnext⟩ := ih hrest (by omega)
        rw [hchecked]
        exact ⟨rfl, List.forall_mem_cons.mpr ⟨he, hnext⟩⟩

section Pass

variable {α : Type} {key : α → String} {amount : α → Int} {l : List α}
  {sums : List (String × Int)}

/-- A checked pass makes the total grow by all amounts. -/
theorem foldlM_addEntryChecked_total {entries : List (String × Int)}
    (h : l.foldlM (fun sums a => addEntryChecked (key a) (amount a) sums) sums = some entries) :
    entriesTotal entries = entriesTotal sums + (l.map amount).sum := by
  induction l generalizing sums with
  | nil =>
      obtain rfl := Option.some.inj h
      simp
  | cons a l ih =>
      rw [List.foldlM_cons] at h
      obtain ⟨next, hnext, hrest⟩ := Option.bind_eq_some_iff.mp h
      rw [ih hrest, addEntryChecked_total hnext, List.map_cons, List.sum_cons]
      omega

/-- While the total has room for all amounts, the checked pass is the plain one. -/
theorem foldlM_addEntryChecked_of_room (key : α → String) (hl : ∀ a ∈ l, 0 ≤ amount a)
    (hsums : ∀ e ∈ sums, 0 ≤ e.2)
    (hroom : entriesTotal sums + (l.map amount).sum ≤ I64.maxValue) :
    l.foldlM (fun sums a => addEntryChecked (key a) (amount a) sums) sums =
        some (l.foldl (fun sums a => addEntry (key a) (amount a) sums) sums) ∧
      ∀ e ∈ l.foldl (fun sums a => addEntry (key a) (amount a) sums) sums, 0 ≤ e.2 := by
  induction l generalizing sums with
  | nil => exact ⟨rfl, hsums⟩
  | cons a l ih =>
      obtain ⟨ha, hl⟩ := List.forall_mem_cons.mp hl
      have hrest : 0 ≤ (l.map amount).sum := List.sum_nonneg (List.forall_mem_map.mpr hl)
      rw [List.map_cons, List.sum_cons] at hroom
      obtain ⟨hchecked, hnext⟩ := addEntryChecked_of_room (k := key a) hsums ha (by omega)
      have htotal := addEntryChecked_total hchecked
      rw [List.foldlM_cons, hchecked, List.foldl_cons]
      exact ih hl hnext (by omega)

/-- A checked pass from the start. -/
theorem addEntryChecked_pass (key : α → String) (amount : α → Int) (hl : ∀ a ∈ l, 0 ≤ amount a)
    (hroom : (l.map amount).sum ≤ I64.maxValue) :
    ∃ entries, l.foldlM (fun sums a => addEntryChecked (key a) (amount a) sums) [] = some entries ∧
      l.foldl (fun sums a => addEntry (key a) (amount a) sums) [] = entries ∧
      (∀ e ∈ entries, 0 ≤ e.2) ∧ entriesTotal entries = (l.map amount).sum := by
  obtain ⟨hpass, hentries⟩ := foldlM_addEntryChecked_of_room key hl
    (List.forall_mem_nil (fun e : String × Int => 0 ≤ e.2)) (by simpa using hroom)
  have htotal := foldlM_addEntryChecked_total hpass
  rw [entriesTotal_nil, Int.zero_add] at htotal
  exact ⟨_, hpass, rfl, hentries, htotal⟩

end Pass

/-! ## The running totals -/

/-- Checked running totals never leave the range. -/
theorem runningTotalsChecked_fits {running : Int} {entries : List (String × Int)}
    {points : List AccumulationPointView} (hrunning : I64.Fits running)
    (h : runningTotalsChecked running entries = some points) :
    I64.Fits (running + entriesTotal entries) := by
  induction entries generalizing running points with
  | nil => simpa using hrunning
  | cons e rest ih =>
      obtain ⟨next, hnext, hrest⟩ := Option.bind_eq_some_iff.mp h
      obtain ⟨hfits, rfl⟩ := I64.checked_eq_some.mp hnext
      obtain ⟨points, hpoints, -⟩ := Option.bind_eq_some_iff.mp hrest
      rw [entriesTotal_cons, ← Int.add_assoc]
      exact ih hfits hpoints

/-- While the last total fits, the checked running totals are the plain ones. -/
theorem runningTotalsChecked_of_room {running : Int} {entries : List (String × Int)}
    (hrunning : 0 ≤ running) (hentries : ∀ e ∈ entries, 0 ≤ e.2)
    (hroom : running + entriesTotal entries ≤ I64.maxValue) :
    runningTotalsChecked running entries = some (runningTotals running entries) := by
  induction entries generalizing running with
  | nil => rfl
  | cons e rest ih =>
      obtain ⟨he, hrest⟩ := List.forall_mem_cons.mp hentries
      have htotal := entriesTotal_nonneg hrest
      rw [entriesTotal_cons] at hroom
      have hfits : I64.Fits (running + e.2) := ⟨by omega, by omega⟩
      have hnext : runningTotalsChecked (running + e.2) rest = some _ :=
        ih (by omega) hrest (by omega)
      rw [runningTotalsChecked, runningTotals, I64.checkedAdd, I64.checked_of_fits hfits,
        I64.add_of_fits hfits, Option.bind_eq_bind, Option.bind_some, hnext]
      rfl

/-! ## The figures -/

/-- A checked series never leaves the range, so all payments and the seed together fit. -/
theorem bucketSeriesChecked_fits {points : List AccumulationPoint} {mode : String} {initial : Int}
    {series : List AccumulationPointView} (hinitial : I64.Fits initial)
    (h : bucketSeriesChecked points mode initial = some series) :
    I64.Fits (initial + (points.map (·.amountCents)).sum) := by
  obtain ⟨buckets, hbuckets, hseries⟩ := Option.bind_eq_some_iff.mp h
  have htotal := foldlM_addEntryChecked_total hbuckets
  have hsorted : entriesTotal (buckets.insertionSort fun a b => a.1 ≤ b.1) =
      entriesTotal buckets :=
    ((List.perm_insertionSort _ buckets).map _).sum_eq
  have hfits := runningTotalsChecked_fits hinitial hseries
  rw [hsorted, htotal, entriesTotal_nil, Int.zero_add] at hfits
  exact hfits

theorem bucketSeriesChecked_of_room {points : List AccumulationPoint} {initial : Int}
    (hpoints : ∀ p ∈ points, 0 ≤ p.amountCents) (hinitial : 0 ≤ initial)
    (hroom : initial + (points.map (·.amountCents)).sum ≤ I64.maxValue) (mode : String) :
    bucketSeriesChecked points mode initial = some (bucketSeries points mode initial) := by
  have hnonneg : 0 ≤ (points.map (·.amountCents)).sum :=
    List.sum_nonneg (List.forall_mem_map.mpr hpoints)
  obtain ⟨buckets, hpass, hplain, hbuckets, htotal⟩ := addEntryChecked_pass
    (fun p : AccumulationPoint => bucketKey mode p.submittedAt) (·.amountCents) hpoints (by omega)
  have hsorted := List.perm_insertionSort (fun a b : String × Int => a.1 ≤ b.1) buckets
  rw [bucketSeriesChecked, bucketSeries, hpass, hplain]
  refine runningTotalsChecked_of_room hinitial (fun e he => hbuckets e (hsorted.mem_iff.mp he)) ?_
  have hsum : entriesTotal (buckets.insertionSort fun a b => a.1 ≤ b.1) = entriesTotal buckets :=
    (hsorted.map _).sum_eq
  omega

theorem summaryOfChecked_of_room {ns : Namespace} {period : String} (h : ns.PeriodFits period)
    {dues : Int} (hdues : 0 ≤ dues) (hduesRoom : dues ≤ I64.maxValue) (email : String) :
    summaryOfChecked ns.contribution.rows dues email period =
      some (summaryOf ns.contribution.rows dues email period) := by
  have hamounts : ∀ v ∈ paidAmounts ns.contribution.rows email period, 0 ≤ v := by
    intro v hv
    obtain ⟨r, hr, rfl⟩ := List.mem_map.mp hv
    exact (h.amounts r (List.mem_filter.mp hr).1).le
  have hroom : (paidAmounts ns.contribution.rows email period).sum ≤ I64.maxValue := by
    show paidSum ns.contribution.rows email period ≤ _
    rw [paidSum_eq]
    exact (h.selection List.filter_sublist).2
  have hexact := I64.sum_of_fits ⟨by have := List.sum_nonneg hamounts; omega, hroom⟩
  have hsub := I64.checkedSub_of_nonneg hdues (hexact ▸ List.sum_nonneg hamounts) hduesRoom
    (hexact ▸ hroom)
  rw [summaryOfChecked, I64.checkedSum_of_nonneg hamounts hroom, Option.bind_eq_bind,
    Option.bind_some, hsub]
  rfl

theorem byMemberChecked_of_room {ns : Namespace} {period : String} (h : ns.PeriodFits period) :
    byMemberChecked (ns.poolRows period) = some (byMember (ns.poolRows period)) ∧
      (∀ e ∈ byMember (ns.poolRows period), 0 ≤ e.2) ∧
      entriesTotal (byMember (ns.poolRows period)) = ((ns.countedFor period).map cents).sum := by
  have hrows := ns.poolRows_counted period
  have hsum := (hrows.map cents).sum_eq
  obtain ⟨entries, hpass, hplain, hentries, htotal⟩ := addEntryChecked_pass
    (fun r : ContributionRecord => r.row.userEmail) cents
    (fun r hr => (h.amounts r (Namespace.mem_countedFor (hrows.mem_iff.mp hr))).le)
    (hsum ▸ h.total.2)
  rw [byMemberChecked, byMember, ← List.foldlM_filter, ← List.foldl_filter]
  subst hplain
  exact ⟨hpass, hentries, htotal.trans hsum⟩

theorem poolSummaryChecked_of_room {ns : Namespace} {period : String} (h : ns.PeriodFits period)
    {settings : TenantSettings} {members : List TenantMember} (hdues : 0 ≤ settings.duesAmountCents)
    (htarget : settings.duesAmountCents * members.length ≤ I64.maxValue) :
    poolSummaryChecked period settings (ns.poolRows period) members =
      some (poolSummary period settings (ns.poolRows period) members) := by
  obtain ⟨hpass, hentries, htotal⟩ := byMemberChecked_of_room h
  have hnonneg : 0 ≤ settings.duesAmountCents * (members.length : Int) :=
    Int.mul_nonneg hdues (Int.natCast_nonneg _)
  have hfits : I64.Fits (settings.duesAmountCents * (members.length : Int)) :=
    ⟨by omega, htarget⟩
  have hsums : I64.checkedSum ((byMember (ns.poolRows period)).map (·.2)) = some _ :=
    I64.checkedSum_of_nonneg (List.forall_mem_map.mpr hentries) (htotal.trans_le h.total.2)
  have hpaid : I64.sum ((byMember (ns.poolRows period)).map (·.2)) = _ :=
    poolSummary_paid h settings members
  have hpaidNonneg : 0 ≤ ((ns.countedFor period).map cents).sum :=
    htotal ▸ entriesTotal_nonneg hentries
  have hsub := I64.checkedSub_of_nonneg hnonneg (hpaid ▸ hpaidNonneg) htarget (hpaid ▸ h.total.2)
  simp only [poolSummaryChecked, poolSummary, I64.checkedMul, I64.checked_of_fits hfits, hpass,
    hsums, hsub, I64.saturatingMul_of_fits hfits, Option.bind_eq_bind, Option.bind_some]
  rfl

end SharamLedger
