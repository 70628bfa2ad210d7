import SharamLedger.Gateway.Contributions
import SharamLedger.Lib.Grouping
import Mathlib.Algebra.Order.BigOperators.Group.List
import Mathlib.Data.List.Dedup

/-!
# What the roll-ups add up

`by_member` and the buckets of the accumulation series are maps of sums, filled in one pass over
the rows. After the pass there is one entry for each key that occurs, with the machine sum of the
amounts under that key.
-/

namespace SharamLedger

open Lib

/-- An entry for each key among the items, with the sum of the amounts under it. -/
structure SumsOf {α : Type} (key : α → String) (amount : α → Int) (l : List α)
    (entries : List (String × Int)) : Prop where
  nodup : (entries.map (·.1)).Nodup
  keys : ∀ k, k ∈ entries.map (·.1) ↔ ∃ a ∈ l, key a = k
  sums : ∀ e ∈ entries, e.2 = I64.wrap ((l.filter fun a => key a == e.1).map amount).sum

/-! ## One entry -/

theorem keys_addEntry (k : String) (v : Int) (entries : List (String × Int)) (k' : String) :
    k' ∈ (addEntry k v entries).map (·.1) ↔ k' = k ∨ k' ∈ entries.map (·.1) := by
  induction entries with
  | nil => simp [addEntry]
  | cons e rest ih =>
      rw [addEntry]
      split
      · next heq => simp [heq]
      · rw [List.map_cons, List.mem_cons, ih, List.map_cons, List.mem_cons]
        exact or_left_comm

theorem nodup_addEntry {k : String} {v : Int} {entries : List (String × Int)}
    (h : (entries.map (·.1)).Nodup) : ((addEntry k v entries).map (·.1)).Nodup := by
  induction entries with
  | nil => simp [addEntry]
  | cons e rest ih =>
      rw [List.map_cons, List.nodup_cons] at h
      rw [addEntry]
      split
      · simpa using h
      · next hne =>
          rw [List.map_cons, List.nodup_cons, keys_addEntry]
          refine ⟨?_, ih h.2⟩
          rintro (heq | hmem)
          · exact hne heq
          · exact h.1 hmem

/-- The entry of the key has grown by the amount, and the others are as they were. -/
theorem mem_addEntry {k : String} {v : Int} {entries : List (String × Int)}
    (h : (entries.map (·.1)).Nodup) {e : String × Int} (he : e ∈ addEntry k v entries) :
    (e.1 ≠ k ∧ e ∈ entries) ∨
      (e.1 = k ∧ ((∃ old, (k, old) ∈ entries ∧ e.2 = I64.add old v) ∨
        (k ∉ entries.map (·.1) ∧ e.2 = I64.add 0 v))) := by
  induction entries with
  | nil =>
      obtain rfl : e = (k, I64.add 0 v) := by simpa [addEntry] using he
      exact .inr ⟨rfl, .inr ⟨by simp, rfl⟩⟩
  | cons first rest ih =>
      rw [List.map_cons, List.nodup_cons] at h
      rw [addEntry] at he
      split at he
      · next heq =>
          rcases List.mem_cons.mp he with rfl | hrest
          · exact .inr ⟨heq, .inl ⟨first.2, by simp [← heq], rfl⟩⟩
          · refine .inl ⟨fun hkey => h.1 ?_, List.mem_cons_of_mem _ hrest⟩
            rw [heq, ← hkey]
            exact List.mem_map_of_mem hrest
      · next hne =>
          rcases List.mem_cons.mp he with rfl | hrest
          · exact .inl ⟨hne, by simp⟩
          · rcases ih h.2 hrest with ⟨hkey, hmem⟩ | ⟨hkey, ⟨old, hmem, hold⟩ | ⟨hnew, hvalue⟩⟩
            · exact .inl ⟨hkey, List.mem_cons_of_mem _ hmem⟩
            · exact .inr ⟨hkey, .inl ⟨old, List.mem_cons_of_mem _ hmem, hold⟩⟩
            · refine .inr ⟨hkey, .inr ⟨?_, hvalue⟩⟩
              rw [List.map_cons, List.mem_cons]
              rintro (heq | hmem)
              · exact hne heq.symm
              · exact hnew hmem

namespace SumsOf

variable {α : Type} {key : α → String} {amount : α → Int} {l : List α}
  {entries : List (String × Int)}

theorem nil : SumsOf key amount [] [] := ⟨by simp, by simp, by simp⟩

/-- One more item. -/
theorem add (h : SumsOf key amount l entries) (a : α) :
    SumsOf key amount (l ++ [a]) (addEntry (key a) (amount a) entries) where
  nodup := nodup_addEntry h.nodup
  keys k := by
    rw [keys_addEntry, h.keys]
    simp [or_and_right, exists_or, or_comm, eq_comm]
  sums e he := by
    rcases mem_addEntry h.nodup he with ⟨hkey, hmem⟩ | ⟨hkey, ⟨old, hmem, hold⟩ | ⟨hnew, hvalue⟩⟩
    · have hne : ¬ key a = e.1 := fun heq => hkey heq.symm
      simpa [hne] using h.sums e hmem
    · have hsum : old = _ := h.sums _ hmem
      rw [hold, hsum, I64.add_wrap_sum, hkey]
      simp
    · -- no earlier item has the key
      have hnone : l.filter (fun x => key x == key a) = [] :=
        List.filter_eq_nil_iff.mpr fun x hx heq =>
          hnew ((h.keys _).mpr ⟨x, hx, beq_iff_eq.mp heq⟩)
      have hzero : (0 : Int) = I64.wrap ([] : List Int).sum := rfl
      rw [hvalue, hzero, I64.add_wrap_sum, hkey]
      simp [hnone]

/-- A pass over the items. -/
theorem foldl (l : List α) :
    SumsOf key amount l (l.foldl (fun sums a => addEntry (key a) (amount a) sums) []) := by
  have hpass : ∀ (rest : List α) {done : List α} {sums : List (String × Int)},
      SumsOf key amount done sums → SumsOf key amount (done ++ rest)
        (rest.foldl (fun sums a => addEntry (key a) (amount a) sums) sums) := by
    intro rest
    induction rest with
    | nil =>
        intro done sums h
        simpa using h
    | cons a rest ih =>
        intro done sums h
        simpa using ih (h.add a)
  exact hpass l nil

/-- The order of the items makes no difference, nor does that of the entries. -/
theorem perm {l' : List α} {entries' : List (String × Int)} (h : SumsOf key amount l entries)
    (hl : l.Perm l') (hentries : entries.Perm entries') : SumsOf key amount l' entries' where
  nodup := (hentries.map _).nodup_iff.mp h.nodup
  keys k := by
    rw [← (hentries.map (·.1)).mem_iff, h.keys]
    exact exists_congr fun a => and_congr_left fun _ => hl.mem_iff
  sums e he := by
    rw [h.sums e (hentries.mem_iff.mpr he), (((hl.filter _).map amount).sum_eq)]

/-- Sums over images are sums over the items themselves. -/
theorem of_map {β : Type} {f : β → α} {l : List β} (h : SumsOf key amount (l.map f) entries) :
    SumsOf (fun b => key (f b)) (fun b => amount (f b)) l entries where
  nodup := h.nodup
  keys k := by
    rw [h.keys]
    simp
  sums e he := by
    rw [h.sums e he, List.filter_map, List.map_map]
    rfl

/-- Some of the keys only. -/
theorem filter (h : SumsOf key amount l entries) (p : String → Bool) :
    SumsOf key amount (l.filter fun a => p (key a)) (entries.filter fun e => p e.1) where
  nodup := h.nodup.sublist (List.filter_sublist.map _)
  keys k := by
    have hkeys := h.keys k
    simp only [List.mem_map, List.mem_filter] at hkeys ⊢
    constructor
    · rintro ⟨e, ⟨he, hp⟩, rfl⟩
      obtain ⟨a, ha, hkey⟩ := hkeys.mp ⟨e, he, rfl⟩
      exact ⟨a, ⟨ha, hkey ▸ hp⟩, hkey⟩
    · rintro ⟨a, ⟨ha, hp⟩, rfl⟩
      obtain ⟨e, he, hkey⟩ := hkeys.mpr ⟨a, ha, rfl⟩
      exact ⟨e, ⟨he, hkey ▸ hp⟩, hkey⟩
  sums e he := by
    obtain ⟨he, hp⟩ := List.mem_filter.mp he
    have hsame : ((l.filter fun a => p (key a)).filter fun a => key a == e.1) =
        l.filter fun a => key a == e.1 := by
      rw [List.filter_filter]
      refine List.filter_congr fun a _ => ?_
      by_cases hkey : key a = e.1 <;> simp [hkey, hp]
    rw [h.sums e he, hsame]

theorem mem_iff (h : SumsOf key amount l entries) (e : String × Int) :
    e ∈ entries ↔ (∃ a ∈ l, key a = e.1) ∧
      e.2 = I64.wrap ((l.filter fun a => key a == e.1).map amount).sum := by
  rw [← h.keys]
  constructor
  · intro he
    exact ⟨List.mem_map_of_mem he, h.sums e he⟩
  · rintro ⟨hkey, hsum⟩
    obtain ⟨e', he', hsame⟩ := List.mem_map.mp hkey
    have hsum' := h.sums e' he'
    rw [hsame, ← hsum] at hsum'
    rwa [← Prod.ext hsame hsum']

/-- Two maps of the same sums hold the same entries. -/
theorem entries_perm {entries' : List (String × Int)} (h : SumsOf key amount l entries)
    (h' : SumsOf key amount l entries') : entries.Perm entries' := by
  refine (List.perm_ext_iff_of_nodup (.of_map _ h.nodup) (.of_map _ h'.nodup)).mpr fun e => ?_
  rw [h.mem_iff, h'.mem_iff]

/-- When the sums fit 64 bits, the entries tally the items. -/
theorem tallies (h : SumsOf key amount l entries)
    (hfits : ∀ k, I64.Fits ((l.filter fun a => key a == k).map amount).sum) :
    Tallies amount l (entries.map fun e => (l.filter fun a => key a == e.1, e.2)) where
  once := by
    have hgroups : (entries.map fun e => (l.filter fun a => key a == e.1, e.2)).flatMap (·.1) =
        (entries.map (·.1)).flatMap fun k => l.filter fun a => key a == k := by
      rw [List.flatMap_map, List.flatMap_map]
    rw [hgroups]
    exact flatMap_filter_perm h.nodup key fun a ha => (h.keys _).mpr ⟨a, ha, rfl⟩
  exact g hg := by
    obtain ⟨e, he, rfl⟩ := List.mem_map.mp hg
    rw [h.sums e he, I64.wrap_of_fits (hfits e.1)]

/-- So together they are the sum of all items. -/
theorem total (h : SumsOf key amount l entries)
    (hfits : ∀ k, I64.Fits ((l.filter fun a => key a == k).map amount).sum) :
    (entries.map (·.2)).sum = (l.map amount).sum := by
  rw [← (h.tallies hfits).total, List.map_map]
  rfl

end SumsOf

/-! ## What the calls read -/

namespace Namespace

/-- The payments that count. -/
def counted (ns : Namespace) : List ContributionRecord :=
  ns.contribution.select fun r => r.row.status != "rejected"

/-- Those for one period. -/
def countedFor (ns : Namespace) (period : String) : List ContributionRecord :=
  ns.counted.filter fun r => r.row.period == period

/-- The rows of `list_pool_contributions`. -/
def poolRows (ns : Namespace) (period : String) : List ContributionRecord :=
  oldestFirst (ns.contribution.select fun r => r.row.period == period)

/-- The periods of `list_active_periods`. -/
def periods (ns : Namespace) : List String :=
  ((ns.contribution.rows.map fun r => r.row.period).dedup.insertionSort (· ≤ ·)).reverse

/-- The points of `accumulation_points`. -/
def points (ns : Namespace) : List AccumulationPoint :=
  (oldestFirst ns.counted).map fun r => ⟨r.row.submittedAt, r.row.amountCents⟩

/-- Where the accumulation series starts. -/
def seedCents (ns : Namespace) : Int := (ns.carryForward.map (·.amountCents)).getD 0

end Namespace

@[simp] theorem run_listPoolContributions (slug : TenantSlug) (period : String) (s : System) :
    (listPoolContributions slug period).run s =
      (.ok ((s.namespaces slug.val).poolRows period), s) := rfl

@[simp] theorem run_listActivePeriods (slug : TenantSlug) (s : System) :
    (listActivePeriods slug).run s = (.ok (s.namespaces slug.val).periods, s) := rfl

@[simp] theorem run_accumulationPoints (slug : TenantSlug) (s : System) :
    (accumulationPoints slug).run s = (.ok (s.namespaces slug.val).points, s) := rfl

theorem oldestFirst_perm (rows : List ContributionRecord) : (oldestFirst rows).Perm rows :=
  List.perm_insertionSort _ rows

namespace Namespace

theorem nodup_periods (ns : Namespace) : ns.periods.Nodup := by
  rw [periods, List.nodup_reverse, (List.perm_insertionSort _ _).nodup_iff]
  exact List.nodup_dedup _

theorem mem_periods {ns : Namespace} {period : String} :
    period ∈ ns.periods ↔ ∃ r ∈ ns.contribution.rows, r.row.period = period := by
  rw [periods, List.mem_reverse, (List.perm_insertionSort _ _).mem_iff, List.mem_dedup,
    List.mem_map]

end Namespace

/-! ## The pool of a period -/

theorem byMember_sums (rows : List ContributionRecord) :
    SumsOf (fun r => r.row.userEmail) (fun r => r.row.amountCents)
      (rows.filter fun r => r.row.status != "rejected") (byMember rows) := by
  rw [byMember, ← List.foldl_filter]
  exact .foldl (rows.filter fun r => r.row.status != "rejected")

/-- The rows of a period that are not rejected. -/
theorem Namespace.poolRows_counted (ns : Namespace) (period : String) :
    ((ns.poolRows period).filter fun r => r.row.status != "rejected").Perm
      (ns.countedFor period) := by
  have hrows := (oldestFirst_perm (ns.contribution.select fun r => r.row.period == period)).filter
    fun r => r.row.status != "rejected"
  rwa [Table.select, List.filter_comm] at hrows

/-- The map of a period holds the counted payments for it by member. -/
theorem Namespace.pool_sums (ns : Namespace) (period : String) :
    SumsOf (fun r => r.row.userEmail) (fun r => r.row.amountCents)
      (ns.countedFor period) (byMember (ns.poolRows period)) :=
  (byMember_sums (ns.poolRows period)).perm (ns.poolRows_counted period) (.refl _)

/-- The amount of a payment. -/
def cents (r : ContributionRecord) : Int := r.row.amountCents

/-- Amounts as the schema asserts them, and a total of the period that fits 64 bits. -/
structure Namespace.PeriodFits (ns : Namespace) (period : String) : Prop where
  amounts : ∀ r ∈ ns.contribution.rows, 0 < cents r
  total : I64.Fits ((ns.countedFor period).map cents).sum

section Period

variable {ns : Namespace} {period : String}

/-- A selection of payments comes to no less than nothing and no more than all of them. -/
theorem sum_selection {l l' : List ContributionRecord} (hpos : ∀ r ∈ l', 0 < cents r)
    (hl : l.Sublist l') : 0 ≤ (l.map cents).sum ∧ (l.map cents).sum ≤ (l'.map cents).sum := by
  have hnonneg : ∀ n ∈ l'.map cents, 0 ≤ n := by
    intro n hn
    obtain ⟨r, hr, rfl⟩ := List.mem_map.mp hn
    exact (hpos r hr).le
  exact ⟨List.sum_nonneg fun n hn => hnonneg n ((hl.map cents).subset hn),
    (hl.map cents).sum_le_sum hnonneg⟩

theorem Namespace.mem_counted {r : ContributionRecord} (hr : r ∈ ns.counted) :
    r ∈ ns.contribution.rows :=
  (Table.mem_select.mp hr).1

theorem Namespace.mem_countedFor {r : ContributionRecord} (hr : r ∈ ns.countedFor period) :
    r ∈ ns.contribution.rows :=
  mem_counted (List.mem_filter.mp hr).1

theorem Namespace.PeriodFits.selection (h : ns.PeriodFits period) {l : List ContributionRecord}
    (hl : l.Sublist (ns.countedFor period)) : I64.Fits (l.map cents).sum := by
  obtain ⟨hlow, hhigh⟩ := sum_selection (fun r hr => h.amounts r (mem_countedFor hr)) hl
  exact ⟨by omega, hhigh.trans h.total.2⟩

/-- The entries of the pool's map are exact. -/
theorem tallies_pool (h : ns.PeriodFits period) :
    Tallies cents (ns.countedFor period) ((byMember (ns.poolRows period)).map fun e =>
      ((ns.countedFor period).filter fun r => r.row.userEmail == e.1, e.2)) :=
  (ns.pool_sums period).tallies fun _ => h.selection List.filter_sublist

/-- So is `paid_cents` of the pool. -/
theorem poolSummary_paid (h : ns.PeriodFits period) (settings : TenantSettings)
    (members : List TenantMember) :
    (poolSummary period settings (ns.poolRows period) members).paidCents =
      ((ns.countedFor period).map cents).sum := by
  have htotal := (tallies_pool h).total
  rw [List.map_map] at htotal
  show I64.sum ((byMember (ns.poolRows period)).map (·.2)) = _
  rw [I64.sum_eq_wrap]
  exact (congrArg I64.wrap htotal).trans (I64.wrap_of_fits h.total)

/-- What a member paid for a period, as the cap event adds it up. -/
theorem paidSum_eq (ns : Namespace) (email period : String) :
    paidSum ns.contribution.rows email period =
      (((ns.countedFor period).filter fun r => r.row.userEmail == email).map cents).sum := by
  have hrows : (ns.contribution.rows.filter fun r => r.row.countsFor email period) =
      (ns.countedFor period).filter fun r => r.row.userEmail == email := by
    rw [Namespace.countedFor, Namespace.counted, Table.select, List.filter_filter,
      List.filter_filter]
    rfl
  rw [paidSum, paidAmounts, hrows]
  rfl

/-- So is `paid_cents` of a summary. -/
theorem summaryOf_paid (h : ns.PeriodFits period) (dues : Int) (email : String) :
    (summaryOf ns.contribution.rows dues email period).paidCents =
      paidSum ns.contribution.rows email period := by
  refine I64.sum_of_fits ?_
  show I64.Fits (paidSum ns.contribution.rows email period)
  rw [paidSum_eq]
  exact h.selection List.filter_sublist

theorem paidSum_bounds (h : ns.PeriodFits period) (email : String) :
    0 ≤ paidSum ns.contribution.rows email period ∧
      paidSum ns.contribution.rows email period ≤ I64.maxValue := by
  rw [paidSum_eq]
  exact ⟨(sum_selection (fun r hr => h.amounts r (Namespace.mem_countedFor hr))
    List.filter_sublist).1, (h.selection List.filter_sublist).2⟩

/-- What is left of dues is clamped at zero, and otherwise exact. -/
theorem summaryOf_remaining (h : ns.PeriodFits period) {dues : Int} (hdues : 0 ≤ dues)
    (hroom : dues ≤ I64.maxValue) (email : String) :
    (summaryOf ns.contribution.rows dues email period).remainingCents =
      max (dues - paidSum ns.contribution.rows email period) 0 := by
  obtain ⟨hlow, hhigh⟩ := paidSum_bounds h email
  show max (I64.sub dues (summaryOf ns.contribution.rows dues email period).paidCents) 0 = _
  rw [summaryOf_paid h, I64.sub_of_nonneg hdues hlow hroom hhigh]

/-- So is what is left of the target. -/
theorem poolSummary_remaining (h : ns.PeriodFits period) {settings : TenantSettings}
    {members : List TenantMember} (hdues : 0 ≤ settings.duesAmountCents)
    (hroom : settings.duesAmountCents * members.length ≤ I64.maxValue) :
    (poolSummary period settings (ns.poolRows period) members).remainingCents =
      max (settings.duesAmountCents * members.length -
        ((ns.countedFor period).map cents).sum) 0 := by
  have htarget : 0 ≤ settings.duesAmountCents * (members.length : Int) :=
    Int.mul_nonneg hdues (Int.natCast_nonneg _)
  have hpaid := (sum_selection (fun r hr => h.amounts r (Namespace.mem_countedFor hr))
    (List.Sublist.refl (ns.countedFor period))).1
  show max (I64.sub (I64.saturatingMul settings.duesAmountCents members.length)
    (poolSummary period settings (ns.poolRows period) members).paidCents) 0 = _
  rw [poolSummary_paid h, I64.saturatingMul_of_fits ⟨by omega, hroom⟩,
    I64.sub_of_nonneg htarget hpaid hroom h.total.2]

/-- The summaries of all who paid tally the period. -/
theorem tallies_summaries (h : ns.PeriodFits period) (dues : Int) {emails : List String}
    (hnodup : emails.Nodup) (hpayers : ∀ r ∈ ns.countedFor period, r.row.userEmail ∈ emails) :
    Tallies cents (ns.countedFor period) (emails.map fun email =>
      ((ns.countedFor period).filter fun r => r.row.userEmail == email,
        (summaryOf ns.contribution.rows dues email period).paidCents)) :=
  Tallies.of_keys hnodup hpayers fun email _ => by rw [summaryOf_paid h, paidSum_eq]

end Period

/-! ## The series -/

/-- The running totals leave the buckets as they are. -/
theorem runningTotals_entries (running : Int) (entries : List (String × Int)) :
    (runningTotals running entries).map (fun p => (p.bucket, p.periodCents)) = entries := by
  induction entries generalizing running with
  | nil => rfl
  | cons e rest ih => simp [runningTotals, ih]

/-- The last running total is what was there at the start and all buckets together. -/
theorem runningTotals_last (running : Int) (entries : List (String × Int)) :
    (((runningTotals running entries).getLast?).map (·.cumulativeCents)).getD running =
      (entries.map (·.2)).foldl I64.add running := by
  induction entries generalizing running with
  | nil => rfl
  | cons e rest ih =>
      rw [List.map_cons, List.foldl_cons, ← ih, runningTotals, List.getLast?_cons]
      cases (runningTotals (I64.add running e.2) rest).getLast? <;> rfl

/-- A running total is what was there at the start and all buckets up to its own. -/
theorem runningTotals_cumulative {running : Int} {entries : List (String × Int)}
    (hsorted : entries.Pairwise fun a b => a.1 < b.1) {p : AccumulationPointView}
    (hp : p ∈ runningTotals running entries) :
    p.cumulativeCents =
      I64.wrap (running + ((entries.filter fun e => e.1 ≤ p.bucket).map (·.2)).sum) := by
  induction entries generalizing running with
  | nil => cases hp
  | cons e rest ih =>
      obtain ⟨hfirst, hrest⟩ := List.pairwise_cons.mp hsorted
      rcases List.mem_cons.mp hp with rfl | hp
      · have hlater : (rest.filter fun x => x.1 ≤ e.1) = [] :=
          List.filter_eq_nil_iff.mpr fun x hx => by simpa using hfirst x hx
        simp [hlater, I64.add]
      · have hbucket : p.bucket ∈ rest.map (·.1) := by
          rw [← runningTotals_entries (I64.add running e.2) rest, List.map_map]
          exact List.mem_map_of_mem hp
        obtain ⟨x, hx, hkey⟩ := List.mem_map.mp hbucket
        have hle : e.1 ≤ p.bucket := hkey ▸ String.not_lt.mp (String.lt_asymm (hfirst x hx))
        rw [ih hrest hp, List.filter_cons_of_pos (by simpa using hle), List.map_cons,
          List.sum_cons, I64.add, I64.wrap, I64.wrap, Int.bmod_add_bmod, Int.add_assoc, I64.wrap]

/-- The buckets come in ascending order. -/
theorem sorted_buckets {entries : List (String × Int)} (h : (entries.map (·.1)).Nodup) :
    (entries.insertionSort fun a b => a.1 ≤ b.1).Pairwise fun a b => a.1 < b.1 := by
  have : Std.Total fun a b : String × Int => a.1 ≤ b.1 := ⟨fun a b => String.le_total a.1 b.1⟩
  have : IsTrans (String × Int) fun a b => a.1 ≤ b.1 := ⟨fun _ _ _ => String.le_trans⟩
  have hle := List.pairwise_insertionSort (fun a b : String × Int => a.1 ≤ b.1) entries
  have hne : (entries.insertionSort fun a b => a.1 ≤ b.1).Pairwise fun a b => a.1 ≠ b.1 :=
    List.pairwise_map.mp (((List.perm_insertionSort _ entries).map Prod.fst).nodup_iff.mpr h)
  refine (hle.and hne).imp fun ⟨hab, hne⟩ => ?_
  by_contra hlt
  exact hne (String.le_antisymm hab (String.not_lt.mp hlt))

/-- The order in which the entries were made is lost in them. -/
theorem sorted_buckets_eq {entries entries' : List (String × Int)} (h : (entries.map (·.1)).Nodup)
    (hperm : entries.Perm entries') :
    entries.insertionSort (fun a b => a.1 ≤ b.1) = entries'.insertionSort fun a b => a.1 ≤ b.1 := by
  have h' := (hperm.map (·.1)).nodup_iff.mp h
  refine List.Perm.eq_of_pairwise (fun a b _ _ hab hba => ?_) (sorted_buckets h)
    (sorted_buckets h') ?_
  · exact absurd hba (String.lt_asymm hab)
  · exact (List.perm_insertionSort _ _).trans (hperm.trans (List.perm_insertionSort _ _).symm)

theorem bucketSeries_last (points : List AccumulationPoint) (mode : String) (initial : Int) :
    (((bucketSeries points mode initial).getLast?).map (·.cumulativeCents)).getD initial =
      ((bucketSeries points mode initial).map (·.periodCents)).foldl I64.add initial := by
  have hcents : ∀ (running : Int) (entries : List (String × Int)),
      (runningTotals running entries).map (·.periodCents) = entries.map (·.2) := by
    intro running entries
    rw [← congrArg (List.map Prod.snd) (runningTotals_entries running entries), List.map_map]
    rfl
  rw [bucketSeries, runningTotals_last, hcents]

/-- The buckets before they are put in order. -/
theorem buckets_sums (points : List AccumulationPoint) (mode : String) :
    SumsOf (fun p => bucketKey mode p.submittedAt) (·.amountCents) points
      (points.foldl
        (fun sums p => addEntry (bucketKey mode p.submittedAt) p.amountCents sums) []) :=
  .foldl points

theorem Namespace.sum_points (ns : Namespace) :
    (ns.points.map (·.amountCents)).sum = (ns.counted.map cents).sum := by
  rw [points, List.map_map]
  exact ((oldestFirst_perm ns.counted).map cents).sum_eq

/-- The series holds the counted payments by bucket. -/
theorem Namespace.series_sums (ns : Namespace) (mode : String) (initial : Int) :
    SumsOf (fun r => bucketKey mode r.row.submittedAt) (fun r => r.row.amountCents) ns.counted
      ((bucketSeries ns.points mode initial).map fun p => (p.bucket, p.periodCents)) := by
  rw [bucketSeries, runningTotals_entries]
  exact ((buckets_sums ns.points mode).perm (.refl _)
    (List.perm_insertionSort _ _).symm).of_map.perm (oldestFirst_perm _) (.refl _)

/-- A running total of the series is the seed and all buckets up to its own. -/
theorem bucketSeries_cumulative {points : List AccumulationPoint} {mode : String} {initial : Int}
    {p : AccumulationPointView} (hp : p ∈ bucketSeries points mode initial) :
    p.cumulativeCents = I64.wrap (initial +
      ((((bucketSeries points mode initial).map fun p => (p.bucket, p.periodCents)).filter
        fun e => e.1 ≤ p.bucket).map (·.2)).sum) := by
  rw [bucketSeries] at hp ⊢
  rw [runningTotals_entries]
  exact runningTotals_cumulative (sorted_buckets (buckets_sums points mode).nodup) hp

/-! ## What the route reports -/

/-- What `active_periods` reports: the periods that have a payment, and the current one. -/
def PeriodsReport [Platform] (slug : String) (s : System) (response : PeriodsResponse) : Prop :=
  ∃ settings, (s.namespaces slug).settings = some settings ∧
    currentPeriodOf s.now settings.toTenantSettings = .ok response.currentPeriod ∧
    response.periods = if (s.namespaces slug).periods.contains response.currentPeriod
      then (s.namespaces slug).periods
      else response.currentPeriod :: (s.namespaces slug).periods

theorem activePeriods_spec [Platform] (slug : String) (headers : Headers) (s : System) :
    (activePeriods slug headers).StopsOr s fun result s' =>
      s' = s ∧ ∃ response, result = .ok response ∧ PeriodsReport slug s response := by
  unfold activePeriods
  refine Prog.stopsOr_bind (run_authenticate headers s) fun identity _ => ?_
  refine Prog.stopsOr_bind (run_tenantSlugOf slug s) fun tenantSlug hslug => ?_
  refine Prog.stopsOr_bind (run_callerIsMember identity.email slug s) fun isMember _ => ?_
  refine Prog.stopsOr_bind (Prog.run_ensure isMember notAMember s) fun _ _ => ?_
  refine Prog.stopsOr_bind (run_settingsFor tenantSlug s) fun settings hsettings => ?_
  refine Prog.stopsOr_bind (run_readCurrentPeriod settings s) fun current hcurrent => ?_
  refine Prog.stopsOr_bind (run_ledgerCall _ _ s) fun periods hperiods => ?_
  obtain rfl := tenantSlugOf_ok hslug
  obtain ⟨stored, hstored, rfl⟩ := settingsFor_ok hsettings
  obtain rfl := Except.ok.inj hperiods
  exact .inr ⟨rfl, _, rfl, stored, hstored, hcurrent, rfl⟩

theorem decideBucket_modes (now : DateTime) (points : List AccumulationPoint) :
    decideBucket now points = "year" ∨ decideBucket now points = "month" := by
  unfold decideBucket
  split
  · exact .inr rfl
  · split
    · exact .inl rfl
    · exact .inr rfl

/-- What `accumulation` reports: the series of the tenant in one of the two modes. -/
def AccumulationReport (slug : String) (s : System) (response : AccumulationResponse) : Prop :=
  (response.bucket = "year" ∨ response.bucket = "month") ∧
    response.series = bucketSeries (s.namespaces slug).points response.bucket
      (s.namespaces slug).seedCents

theorem accumulation_spec [Platform] (slug : String) (bucket : Extracted (Option String))
    (headers : Headers) (s : System) :
    (accumulation slug bucket headers).StopsOr s fun result s' =>
      s' = s ∧ ∃ response, result = .ok response ∧ AccumulationReport slug s response := by
  unfold accumulation
  refine Prog.stopsOr_bind (Prog.run_lift _ s) fun query _ => ?_
  refine Prog.stopsOr_bind (run_authenticate headers s) fun identity _ => ?_
  refine Prog.stopsOr_bind (run_tenantSlugOf slug s) fun tenantSlug hslug => ?_
  refine Prog.stopsOr_bind (run_callerIsMember identity.email slug s) fun isMember _ => ?_
  refine Prog.stopsOr_bind (Prog.run_ensure isMember notAMember s) fun _ _ => ?_
  refine Prog.stopsOr_bind (run_settingsFor tenantSlug s) fun settings _ => ?_
  refine Prog.stopsOr_bind (run_ledgerCall _ _ s) fun points hpoints => ?_
  refine Prog.stopsOr_bind (run_ledgerCall _ _ s) fun carry hcarry => ?_
  refine Prog.stopsOr_bind (Prog.run_read _ s) fun auto hauto => ?_
  obtain rfl := tenantSlugOf_ok hslug
  obtain rfl := Except.ok.inj hpoints
  obtain rfl := Except.ok.inj hcarry
  obtain rfl := Except.ok.inj hauto
  refine .inr ⟨rfl, _, rfl, ?_, rfl⟩
  dsimp only
  split
  · exact .inl rfl
  · exact .inr rfl
  · exact decideBucket_modes s.now _

end SharamLedger
