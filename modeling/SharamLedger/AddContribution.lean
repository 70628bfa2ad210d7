import SharamLedger.Ledger.Thrown
import SharamLedger.Sample

/-!
# What becomes of a payment

`add_contribution` on an arbitrary tenant. Two events judge the row after it is written, the client
decodes the text of the one that threw, and the three outcomes exclude each other: the row is added,
its period is locked, or it breaks the cap.
-/

namespace SharamLedger

open Lib

namespace AddContribution

/-- `dues_amount_cents` of the tenant, 0 without settings. -/
def duesOf (ns : Namespace) : Int :=
  match ns.settings with
  | some settings => settings.duesAmountCents
  | none => 0

/-- What the member has paid for the period. -/
def paidFor (ns : Namespace) (input : NewContribution) : Int :=
  paidSum ns.contribution.rows input.userEmail input.period

section Outcomes

variable [Platform]

/-- The payment and the settings pass the assertions of the schema, and the sum that the cap is
compared with fits 64 bits. -/
structure Admissible (ns : Namespace) (input : NewContribution) (now : DateTime) : Prop where
  fields : (input.row now).check = .ok ()
  settings : ∀ row, ns.settings = some row → row.check = .ok ()
  sum : I64.Fits (paidFor ns input + input.amountCents)

omit [Platform] in
/-- The period is not over and the payment keeps the cap. -/
def Accepts (ns : Namespace) (input : NewContribution) (now : DateTime) : Prop :=
  currentPeriodFor now input.cadence ≤ input.period ∧
    (duesOf ns = 0 ∨ paidFor ns input + input.amountCents ≤ duesOf ns)

/-- What `add_contribution` answers and leaves behind. -/
structure Outcome (slug : TenantSlug) (input : NewContribution) (s : System)
    (result : Except LedgerError ContributionRecord) (s' : System) : Prop where
  accepted : (∃ record, result = .ok record) ↔ Accepts (s.namespaces slug.val) input s.now
  added : ∀ record, result = .ok record → record.row = input.row s.now ∧
    ∃ table : Table Contribution,
      table.rows = (s.namespaces slug.val).contribution.rows ++ [record] ∧
      s' = s.setNamespace slug.val { s.namespaces slug.val with contribution := table }
  refused : ∀ e, result = .error e → s' = s
  locked : ∀ period, result = .error (.periodLocked period) →
    input.period < currentPeriodFor s.now input.cadence ∧ period = input.period
  capped : ∀ paid dues, result = .error (.duesCapExceeded paid dues) →
    0 < duesOf (s.namespaces slug.val) ∧
      duesOf (s.namespaces slug.val) <
        paidFor (s.namespaces slug.val) input + input.amountCents ∧
      paid = paidFor (s.namespaces slug.val) input + input.amountCents ∧
      dues = duesOf (s.namespaces slug.val)

variable {slug : TenantSlug} {input : NewContribution} {s : System}

omit [Platform] in
/-- The sum that the cap reads counts the new row. -/
theorem paidSum_new {ns : Namespace} {table : Table Contribution} {r : ContributionRecord}
    {now : DateTime} (hrow : r.row = input.row now)
    (htable : table.rows = ns.contribution.rows ++ [r]) :
    paidSum table.rows input.userEmail input.period = paidFor ns input + input.amountCents := by
  have hcounts : r.row.countsFor input.userEmail input.period = true := by
    rw [hrow]
    simp [Contribution.countsFor, NewContribution.row]
  rw [htable, paidSum_append, if_pos hcounts, hrow]
  rfl

omit [Platform] in
/-- The event compares the machine sum. -/
theorem mathSum_new {ns : Namespace} {table : Table Contribution} {r : ContributionRecord}
    {now : DateTime} (hrow : r.row = input.row now)
    (htable : table.rows = ns.contribution.rows ++ [r]) :
    mathSum table.rows input.userEmail input.period =
      I64.wrap (paidFor ns input + input.amountCents) := by
  rw [mathSum_eq_wrap, paidSum_new hrow htable]

omit [Platform] in
/-- Dues are never negative. -/
theorem duesOf_nonneg {ns : Namespace}
    (hsettings : ∀ row, ns.settings = some row → row.check = .ok ()) : 0 ≤ duesOf ns := by
  unfold duesOf
  cases hs : ns.settings with
  | none => exact le_refl _
  | some settings => exact (Settings.dues_of_check (hsettings settings hs)).1

omit [Platform] in
/-- So the cap binds just when there are dues. -/
theorem withinCap_iff {ns : Namespace} {table : Table Contribution} {r : ContributionRecord}
    {now : DateTime} (hsettings : ∀ row, ns.settings = some row → row.check = .ok ())
    (hrow : r.row = input.row now) (htable : table.rows = ns.contribution.rows ++ [r]) :
    ({ ns with contribution := table } : Namespace).WithinCap (input.row now) ↔
      duesOf ns = 0 ∨ I64.wrap (paidFor ns input + input.amountCents) ≤ duesOf ns := by
  have hsum := mathSum_new hrow htable
  unfold Namespace.WithinCap duesOf
  cases hs : ns.settings with
  | none => simp
  | some settings =>
      obtain ⟨hdues, -, -⟩ := Settings.dues_of_check (hsettings settings hs)
      have hstatus : (input.row now).status ≠ "rejected" := by
        show "submitted" ≠ "rejected"
        decide
      constructor
      · rintro (hrejected | hcap)
        · exact absurd hrejected hstatus
        · by_cases hzero : settings.duesAmountCents = 0
          · exact .inl hzero
          · have hpaid := hcap settings rfl (by omega)
            exact .inr (hsum ▸ hpaid)
      · intro hcap
        refine .inr fun settings' hs' hpositive => ?_
        obtain rfl := Option.some.inj hs'
        rcases hcap with (hzero : settings.duesAmountCents = 0) | hpaid
        · omega
        · exact hsum.trans_le hpaid

/-- Past its field assertions the statement is up to the two events. -/
theorem addContribution_eq (ns : Namespace) {now : DateTime}
    (hfields : (input.row now).check = .ok ()) :
    ∃ (record : ContributionRecord) (table : Table Contribution),
      record.row = input.row now ∧ table.rows = ns.contribution.rows ++ [record] ∧
      ns.addContribution input now = do
        contributionLockCheck now (input.row now)
        contributionDuesCap { ns with contribution := table } (input.row now)
        return (record, { ns with contribution := table }) := by
  obtain ⟨table, htable, heq⟩ := ns.createContribution_eq now (input.row now)
  have hchecked : ((input.row now).stamp now).check = .ok () := hfields
  obtain ⟨hrecord, hrows, -⟩ := Table.create_some htable
  refine ⟨⟨ns.contribution.nextId, input.row now⟩, table, rfl, hrows, ?_⟩
  rw [Namespace.addContribution, heq, hchecked]
  rfl

/-! ## The three outcomes -/

theorem run_locked (h : Admissible (s.namespaces slug.val) input s.now)
    (hpast : input.period < currentPeriodFor s.now input.cadence) :
    (addContribution slug input).run s = (.error (.periodLocked input.period), s) := by
  obtain ⟨record, table, -, -, heq⟩ := addContribution_eq (s.namespaces slug.val) h.fields
  have hperiod : isPeriodText (input.row s.now).period = true :=
    (Contribution.of_check h.fields).2.2.2
  cases hlock : contributionLockCheck s.now (input.row s.now) with
  | ok u => exact absurd hpast (contributionLockCheck_ok.mp hlock)
  | error e =>
      have hmap : mapDbError e = .periodLocked input.period := (mapDbError_lock hlock hperiod).2
      have hadd : (s.namespaces slug.val).addContribution input s.now = .error e := by
        simp only [heq, hlock, bind, Except.bind]
      rw [addContribution, run_onTenant, hadd]
      simp only [hmap]

theorem run_capped (h : Admissible (s.namespaces slug.val) input s.now)
    (hopen : currentPeriodFor s.now input.cadence ≤ input.period)
    (hcap : ¬ (duesOf (s.namespaces slug.val) = 0 ∨
      paidFor (s.namespaces slug.val) input + input.amountCents ≤
        duesOf (s.namespaces slug.val))) :
    (addContribution slug input).run s =
      (.error (.duesCapExceeded (paidFor (s.namespaces slug.val) input + input.amountCents)
        (duesOf (s.namespaces slug.val))), s) := by
  obtain ⟨record, table, hrow, hrows, heq⟩ :=
    addContribution_eq (s.namespaces slug.val) h.fields
  have hlock : contributionLockCheck s.now (input.row s.now) = .ok () :=
    contributionLockCheck_ok.mpr (String.not_lt.mpr hopen)
  have hexact := I64.wrap_of_fits h.sum
  cases hdues : contributionDuesCap { s.namespaces slug.val with contribution := table }
      (input.row s.now) with
  | ok u =>
      rw [← hexact] at hcap
      exact absurd ((withinCap_iff h.settings hrow hrows).mp (contributionDuesCap_ok.mp hdues)) hcap
  | error e =>
      obtain ⟨settings, hs, -, -, hmap⟩ := mapDbError_duesCap hdues
      have hpaid : mathSum table.rows input.userEmail input.period =
          paidFor (s.namespaces slug.val) input + input.amountCents :=
        (mathSum_new hrow hrows).trans hexact
      change mapDbError e = .duesCapExceeded (mathSum table.rows input.userEmail input.period)
        settings.duesAmountCents at hmap
      have hstored : (s.namespaces slug.val).settings = some settings := hs
      have hduesOf : duesOf (s.namespaces slug.val) = settings.duesAmountCents := by
        unfold duesOf
        rw [hstored]
      have hadd : (s.namespaces slug.val).addContribution input s.now = .error e := by
        simp only [heq, hlock, hdues, bind, Except.bind]
      rw [addContribution, run_onTenant, hadd]
      simp only [hmap, hduesOf, hpaid]

theorem run_added (h : Admissible (s.namespaces slug.val) input s.now)
    (haccepts : Accepts (s.namespaces slug.val) input s.now) :
    ∃ (record : ContributionRecord) (table : Table Contribution),
      record.row = input.row s.now ∧
      table.rows = (s.namespaces slug.val).contribution.rows ++ [record] ∧
      (addContribution slug input).run s =
        (.ok record, s.setNamespace slug.val
          { s.namespaces slug.val with contribution := table }) := by
  obtain ⟨record, table, hrow, hrows, heq⟩ :=
    addContribution_eq (s.namespaces slug.val) h.fields
  have hlock : contributionLockCheck s.now (input.row s.now) = .ok () :=
    contributionLockCheck_ok.mpr (String.not_lt.mpr haccepts.1)
  have hdues : contributionDuesCap { s.namespaces slug.val with contribution := table }
      (input.row s.now) = .ok () :=
    contributionDuesCap_ok.mpr ((withinCap_iff h.settings hrow hrows).mpr
      ((I64.wrap_of_fits h.sum).symm ▸ haccepts.2))
  have hadd : (s.namespaces slug.val).addContribution input s.now =
      .ok (record, { s.namespaces slug.val with contribution := table }) := by
    simp only [heq, hlock, hdues, bind, Except.bind, pure, Except.pure]
  refine ⟨record, table, hrow, hrows, ?_⟩
  rw [addContribution, run_onTenant, hadd]

/-- Whatever the tenant, the clock and the payment. -/
theorem outcome (slug : TenantSlug) (input : NewContribution) (s : System)
    (h : Admissible (s.namespaces slug.val) input s.now) :
    Outcome slug input s ((addContribution slug input).run s).1
      ((addContribution slug input).run s).2 := by
  by_cases hpast : input.period < currentPeriodFor s.now input.cadence
  · rw [run_locked h hpast]
    refine ⟨⟨fun ⟨_, hr⟩ => ?_, fun haccepts => ?_⟩, fun _ hr => ?_, fun _ _ => rfl,
      fun period hr => ?_, fun _ _ hr => ?_⟩
    · cases hr
    · exact absurd hpast (String.not_lt.mpr haccepts.1)
    · cases hr
    · cases hr
      exact ⟨hpast, rfl⟩
    · cases hr
  · have hopen := String.not_lt.mp hpast
    by_cases hcap : duesOf (s.namespaces slug.val) = 0 ∨
        paidFor (s.namespaces slug.val) input + input.amountCents ≤
          duesOf (s.namespaces slug.val)
    · obtain ⟨record, table, hrow, hrows, hrun⟩ := run_added h ⟨hopen, hcap⟩
      rw [hrun]
      refine ⟨⟨fun _ => ⟨hopen, hcap⟩, fun _ => ⟨record, rfl⟩⟩, fun _ hr => ?_, fun _ hr => ?_,
        fun _ hr => ?_, fun _ _ hr => ?_⟩
      · cases hr
        exact ⟨hrow, table, hrows, rfl⟩
      · cases hr
      · cases hr
      · cases hr
    · rw [run_capped h hopen hcap]
      have hdues := duesOf_nonneg h.settings
      refine ⟨⟨fun ⟨_, hr⟩ => ?_, fun haccepts => absurd haccepts.2 hcap⟩, fun _ hr => ?_,
        fun _ _ => rfl, fun _ hr => ?_, fun paid dues hr => ?_⟩
      · cases hr
      · cases hr
      · cases hr
      · cases hr
        rw [not_or] at hcap
        exact ⟨by omega, by omega, rfl, rfl⟩

end Outcomes

/-! ## Three payments -/

section Sample

attribute [local instance] Platform.sample

/-- Ann has paid 4000 of her 10000 cents for June. -/
def partlyPaid : System :=
  ((addContribution poolSlug (samplePayment 4000)).run (openVenture "UTC" 10000 juneNoon)).2

/-- She pays the rest. -/
theorem outcome_rest : Outcome poolSlug (samplePayment 6000) partlyPaid
    ((addContribution poolSlug (samplePayment 6000)).run partlyPaid).1
    ((addContribution poolSlug (samplePayment 6000)).run partlyPaid).2 := by
  refine outcome poolSlug (samplePayment 6000) partlyPaid ⟨by decide +kernel, ?_, by decide +kernel⟩
  intro row hrow
  have hstored : (partlyPaid.namespaces poolSlug.val).settings = some (sampleSettings 10000) := by
    decide +kernel
  obtain rfl := Option.some.inj (hstored.symm.trans hrow)
  decide +kernel

/-- One cent more breaks the cap, and May is over. -/
example : (((addContribution poolSlug (samplePayment 6001)).run partlyPaid).1 =
      .error (.duesCapExceeded 10001 10000)) ∧
    ((addContribution poolSlug { samplePayment 6000 with period := "2026-05" }).run partlyPaid).1 =
      .error (.periodLocked "2026-05") := by
  decide +kernel

end Sample

end AddContribution

end SharamLedger
