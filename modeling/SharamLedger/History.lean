import SharamLedger.Sample
import SharamLedger.Venture

/-!
# The history of a venture

Once a period is locked, no payment for it is recorded any more, so the contributions and the
paid figures that the gateway reports for it stay as they are. The dues it reports beside them are
the tenant's dues at the moment of the request.
-/

namespace SharamLedger

open Lib

/-- The text stands for a period of the cadence that the database has locked. -/
def LockedPeriod (c : Cadence) (period : String) (s : System) : Prop :=
  (∃ p : Period, p.Printable ∧ p.cadence = c ∧ p.render = period) ∧
    period < currentPeriodFor s.now c.asStr

/-- A tenant's rows for a period. -/
def Namespace.paymentsFor (ns : Namespace) (period : String) : List ContributionRecord :=
  ns.contribution.select fun r => r.row.period == period

theorem paidAmounts_paymentsFor (ns : Namespace) (email period : String) :
    paidAmounts ns.contribution.rows email period = paidAmounts (ns.paymentsFor period) email
      period := by
  unfold paidAmounts Namespace.paymentsFor Table.select
  rw [List.filter_filter]
  congr 2
  funext r
  simp only [Contribution.countsFor]
  cases r.row.period == period <;> simp

theorem select_paymentsFor (ns : Namespace) (email period : String) :
    (ns.contribution.select fun r => r.row.userEmail == email && r.row.period == period) =
      (ns.paymentsFor period).filter fun r => r.row.userEmail == email := by
  unfold Namespace.paymentsFor Table.select
  rw [List.filter_filter]

namespace History

section Runs

variable [Platform]

/-- What `my_contributions` answers a member who asks for the period. -/
def ReportedTo (slug email period : String) (s : System) (response : ListContributionsResponse) :
    Prop :=
  ∃ headers identity, authResult headers s.now = .ok identity ∧ identity.email = email ∧
    ((myContributions slug (.ok (some period)) headers).run s).1 = .ok response

/-- What `pool_contributions` answers a member who asks for the period. -/
def ReportedPool (slug period : String) (s : System) (response : PoolResponse) : Prop :=
  ∃ headers, ((poolContributions slug (.ok (some period)) headers).run s).1 = .ok response

/-- Between two states the history of a period is kept: what was reported before is reported after,
the contributions and what is paid are the same, and so is what the dues are compared with, as long
as the dues are the same. -/
structure Kept (slug period : String) (s s' : System) : Prop where
  mineAnswered : ∀ email before, ReportedTo slug email period s before →
    ∀ headers identity, authResult headers s'.now = .ok identity → identity.email = email →
      ∃ after, ((myContributions slug (.ok (some period)) headers).run s').1 = .ok after
  poolAnswered : ∀ before, ReportedPool slug period s before →
    ∀ headers identity, authResult headers s'.now = .ok identity →
      (s'.control.roleFor identity.email slug).isSome = true →
        ∃ after, ((poolContributions slug (.ok (some period)) headers).run s').1 = .ok after
  mine : ∀ email before after, ReportedTo slug email period s before →
    ReportedTo slug email period s' after →
      after.contributions = before.contributions ∧
      after.summary.paidCents = before.summary.paidCents ∧
      (after.summary.duesCents = before.summary.duesCents →
        after.summary.remainingCents = before.summary.remainingCents)
  pool : ∀ before after, ReportedPool slug period s before →
    ReportedPool slug period s' after →
      after.contributions = before.contributions ∧
      after.summary.paidCents = before.summary.paidCents ∧
      after.summary.memberCount = before.summary.memberCount ∧
      (after.summary.duesPerMemberCents = before.summary.duesPerMemberCents →
        after.summary.targetCents = before.summary.targetCents ∧
        after.summary.remainingCents = before.summary.remainingCents ∧
        after.summary.settledCount = before.summary.settledCount)
  dues : ∀ settings, (s'.namespaces slug).settings = some settings →
    (∀ email after, ReportedTo slug email period s' after →
      after.summary.duesCents = settings.duesAmountCents) ∧
    ∀ after, ReportedPool slug period s' after →
      after.summary.duesPerMemberCents = settings.duesAmountCents

variable {slug email period : String} {s s' : System}

/-- A member's report is made of the tenant's rows for the period and its dues. -/
theorem ReportedTo.of_rows {response : ListContributionsResponse}
    (h : ReportedTo slug email period s response) :
    ∃ settings, (s.namespaces slug).settings = some settings ∧
      response.summary = summaryView period settings.cadence settings.currency
        (summaryOf ((s.namespaces slug).paymentsFor period) settings.duesAmountCents email
          period) ∧
      response.contributions = (oldestFirst (((s.namespaces slug).paymentsFor period).filter
        fun r => r.row.userEmail == email)).map contributionView := by
  obtain ⟨headers, identity, hauth, rfl, hresponse⟩ := h
  obtain ⟨-, response', hok, hreport⟩ :=
    (myContributions_spec slug period headers s).of_ok hresponse
  obtain rfl : response = response' := Except.ok.inj hok
  obtain ⟨identity', settings, hauth', hstored, hsummary, hcontributions⟩ := hreport
  obtain rfl : identity = identity' := Except.ok.inj (hauth.symm.trans hauth')
  rw [summaryOf, paidAmounts_paymentsFor] at hsummary
  rw [select_paymentsFor] at hcontributions
  exact ⟨settings, hstored, hsummary, hcontributions⟩

/-- So is the report on all members. -/
theorem ReportedPool.of_rows {response : PoolResponse} (h : ReportedPool slug period s response) :
    ∃ settings, (s.namespaces slug).settings = some settings ∧
      response.summary = poolSummary period settings.toTenantSettings
        (oldestFirst ((s.namespaces slug).paymentsFor period)) (s.control.membersOf slug) ∧
      response.contributions =
        (oldestFirst ((s.namespaces slug).paymentsFor period)).map contributionView := by
  obtain ⟨headers, hresponse⟩ := h
  obtain ⟨-, response', hok, hreport⟩ :=
    (poolContributions_spec slug period headers s).of_ok hresponse
  obtain rfl : response = response' := Except.ok.inj hok
  exact hreport

/-- The first state lies no later than the second, the rows for the period and the members are
the same, and the venture still has settings. -/
structure SameRows (slug period : String) (s s' : System) : Prop where
  now : s.now ≤ s'.now
  rows : (s'.namespaces slug).paymentsFor period = (s.namespaces slug).paymentsFor period
  control : s'.control = s.control
  settings : (s.namespaces slug).settings.isSome = true →
    (s'.namespaces slug).settings.isSome = true

/-! ## One action -/

/-- A payment that is accepted after the period was locked is for another period. -/
theorem period_ne_of_locked {slug : String} {settings : Settings} {tz : Tz} {c c' : Cadence}
    {period : String} {r : ContributionRecord} {s₀ s s' : System}
    (hlocked : LockedPeriod c period s₀) (hnow : s₀.now ≤ s.now)
    (hr : Venture.Recorded s s' slug settings tz c' r) : r.row.period ≠ period := by
  obtain ⟨⟨p, hp, rfl, rfl⟩, hpast⟩ := hlocked
  intro heq
  have htext : (Period.currentIn tz c' s.now).render = p.render := hr.period.symm.trans heq
  have hsame : Period.currentIn tz c' s.now = p := Period.eq_of_render_eq hp.1 htext
  obtain rfl : p.cadence = c' := by
    rw [← hsame]
    simp [Period.currentIn]
  have hopen : ¬ (Period.currentIn tz p.cadence s.now).render <
      currentPeriodFor s.now p.cadence.asStr := by
    rw [← hr.period, ← hr.cadence]
    exact hr.notPast
  -- the same text would be both before the first UTC period and not before it
  obtain ⟨hyear, hlt⟩ := (Period.render_lt_currentPeriodFor hp s₀.now).mp hpast
  have hle := Period.utc_le_currentIn hnow hyear hopen
  rw [hsame] at hle
  omega

/-- An action after the period was locked leaves its rows and the members as they are. -/
theorem same_rows_step {slug : String} {c : Cadence} {period : String} {s₀ : System}
    (hlocked : LockedPeriod c period s₀) (a : VentureAction) (s : System)
    (h : SameRows slug period s₀ s) : SameRows slug period s₀ (Venture.step a s) := by
  refine ⟨h.now.trans (Venture.now_le_step a s), ?_, by rw [Venture.control_step, h.control],
    fun hsome => Venture.settings_step a s slug (h.settings hsome)⟩
  rw [← h.rows]
  rcases Venture.contribution_step a s slug with hsame |
    ⟨headers, payload, settings, tz, c', r, -, hr⟩
  · unfold Namespace.paymentsFor
    rw [hsame]
  · -- a row was appended, and the filter drops it
    have hne : (r.row.period == period) = false :=
      beq_eq_false_iff_ne.mpr (period_ne_of_locked hlocked h.now hr)
    unfold Namespace.paymentsFor Table.select
    rw [hr.rows, List.filter_append, List.filter_singleton, hne]
    simp

/-! ## Runs -/

/-- Two states with the same rows for a period report the same history of it. -/
theorem kept_of_rows (h : SameRows slug period s s') : Kept slug period s s' where
  mineAnswered email before hbefore headers identity hauth hemail := by
    obtain ⟨headers₀, identity₀, hauth₀, rfl, hanswer⟩ := hbefore
    obtain ⟨identity₁, hasks⟩ := myContributions_answers.mp ⟨before, hanswer⟩
    obtain rfl : identity₀ = identity₁ :=
      Except.ok.inj (hauth₀.symm.trans hasks.authenticated)
    refine myContributions_answers.mpr ⟨identity, hauth, hasks.slug_valid, ?_,
      h.settings hasks.settings, hasks.parses⟩
    rw [h.control, hemail]
    exact hasks.member
  poolAnswered before hbefore headers identity hauth hmember := by
    obtain ⟨headers₀, hanswer⟩ := hbefore
    obtain ⟨identity₁, hasks⟩ := poolContributions_answers.mp ⟨before, hanswer⟩
    exact poolContributions_answers.mpr ⟨identity, hauth, hasks.slug_valid, hmember,
      h.settings hasks.settings, hasks.parses⟩
  mine email before after hbefore hafter := by
    obtain ⟨settings, -, hsummary, hcontributions⟩ := hbefore.of_rows
    obtain ⟨settings', -, hsummary', hcontributions'⟩ := hafter.of_rows
    rw [h.rows] at hsummary' hcontributions'
    rw [hsummary, hsummary']
    refine ⟨hcontributions'.trans hcontributions.symm, rfl, fun hdues => ?_⟩
    simp only [summaryView, summaryOf] at hdues ⊢
    rw [hdues]
  pool before after hbefore hafter := by
    obtain ⟨settings, -, hsummary, hcontributions⟩ := hbefore.of_rows
    obtain ⟨settings', -, hsummary', hcontributions'⟩ := hafter.of_rows
    rw [h.rows, h.control] at hsummary'
    rw [h.rows] at hcontributions'
    rw [hsummary, hsummary']
    refine ⟨hcontributions'.trans hcontributions.symm, rfl, rfl, fun hdues => ?_⟩
    simp only [poolSummary] at hdues ⊢
    rw [hdues]
    exact ⟨rfl, rfl, rfl⟩
  dues settings hstored := by
    constructor
    · intro email after hafter
      obtain ⟨settings', hstored', hsummary, -⟩ := hafter.of_rows
      obtain rfl : settings = settings' := Option.some.inj (hstored.symm.trans hstored')
      rw [hsummary]
      rfl
    · intro after hafter
      obtain ⟨settings', hstored', hsummary, -⟩ := hafter.of_rows
      obtain rfl : settings = settings' := Option.some.inj (hstored.symm.trans hstored')
      rw [hsummary]
      rfl

/-- From the moment a period is locked, every later run keeps its history. -/
theorem history_kept {slug : String} {c : Cadence} {period : String} {s : System}
    (hlocked : LockedPeriod c period s) (actions : List VentureAction) :
    Kept slug period s (Trace.exec Venture.step actions s) :=
  kept_of_rows (Trace.exec_invariant (same_rows_step hlocked) actions
    ⟨le_refl _, rfl, rfl, id⟩)

end Runs

/-! ## June after the dues were lowered -/

section Sample

attribute [local instance] Platform.sample

/-- Noon of 15 July 2026, UTC. -/
def julyNoon : DateTime := juneNoon + 30 * oneDay

/-- Ann paid 60 of her dues of 100 in June, and now it is July. -/
def juneLocked : System :=
  Trace.exec Venture.step
    [.postContribution "pool" (bearer "ann@pool.org" juneNoon) (.ok { amountCents := 6000 }),
      .tick (30 * oneDay)]
    (openVenture "UTC" 10000 juneNoon)

/-- The owner lowers the dues to 50. -/
def lowerDues : VentureAction :=
  .patchSettings "pool" (bearer "ann@pool.org" julyNoon) (.ok { duesAmountCents := some 5000 })

/-- What Ann sees of June. -/
def juneReport (duesCents remainingCents : Int) : ListContributionsResponse where
  summary :=
    { period := "2026-06"
      cadence := "monthly"
      currency := "USD"
      duesCents
      paidCents := 6000
      remainingCents }
  contributions :=
    [contributionView ⟨0, paymentRow "ann@pool.org" "monthly" "2026-06" 6000 juneNoon⟩]

theorem june_is_locked : LockedPeriod .monthly "2026-06" juneLocked :=
  ⟨⟨.monthly 2026 6, ⟨by decide, by decide, by decide⟩, rfl, by decide⟩, by decide⟩

/-- Lowering the dues keeps the payments of June. -/
theorem history_kept_june :
    Kept "pool" "2026-06" juneLocked (Trace.exec Venture.step [lowerDues] juneLocked) :=
  history_kept june_is_locked [lowerDues]

/-- The dues and the remaining amount reported for June follow the new dues. -/
theorem june_restated :
    LockedPeriod .monthly "2026-06" juneLocked ∧
      ¬ ∀ before after, ReportedTo "pool" "ann@pool.org" "2026-06" juneLocked before →
        ReportedTo "pool" "ann@pool.org" "2026-06"
          (Trace.exec Venture.step [lowerDues] juneLocked) after →
            after.summary.duesCents = before.summary.duesCents ∧
              after.summary.remainingCents = before.summary.remainingCents := by
  refine ⟨june_is_locked, fun h => ?_⟩
  have hbefore : ReportedTo "pool" "ann@pool.org" "2026-06" juneLocked (juneReport 10000 4000) :=
    ⟨bearer "ann@pool.org" julyNoon, ⟨"ann@pool.org", none, none⟩, by decide, rfl,
      by decide +kernel⟩
  have hafter : ReportedTo "pool" "ann@pool.org" "2026-06"
      (Trace.exec Venture.step [lowerDues] juneLocked) (juneReport 5000 0) :=
    ⟨bearer "ann@pool.org" julyNoon, ⟨"ann@pool.org", none, none⟩, by decide, rfl,
      by decide +kernel⟩
  have hsame := (h _ _ hbefore hafter).1
  revert hsame
  decide

end Sample

end History

end SharamLedger
