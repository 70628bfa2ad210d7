import SharamLedger.CurrentPeriod
import SharamLedger.Lib.Trace
import SharamLedger.Sample

/-!
# Locked contributions stay as they are

Runs of statements on one tenant's `contribution` table under a clock that never goes back. A row
whose period is past can neither be removed nor, as long as no `UPDATE` takes it out of its past
period in one that the schema accepts, changed; and no statement brings a row into a past period.
-/

namespace SharamLedger

open Lib

/-- One tenant's namespace at a moment. -/
structure Moment where
  now : DateTime
  ns : Namespace

/-- What can happen to the table: time passes, the settings are rewritten, or a statement is
issued. -/
inductive TableAction where
  | tick (elapsed : Nat)
  | settings (settings : Option Settings)
  | create (row : Contribution)
  | update (sel : ContributionRecord → Bool) (set : Contribution → Contribution)
  | delete (sel : ContributionRecord → Bool)

namespace PeriodLock

section Runs

variable [Platform]

/-- The namespace after a statement, if the events accept it. -/
def attempt (a : TableAction) (m : Moment) : Except DbError Moment :=
  match a with
  | .tick elapsed => .ok { m with now := m.now + elapsed }
  | .settings settings => .ok { m with ns := { m.ns with settings := settings } }
  | .create row => (m.ns.createContribution m.now row).map fun (_, ns) => { m with ns }
  | .update sel set => (m.ns.updateContributions m.now sel set).map fun ns => { m with ns }
  | .delete sel => (m.ns.deleteContributions m.now sel).map fun ns => { m with ns }

/-- A rejected statement leaves everything as it was. -/
def step (a : TableAction) (m : Moment) : Moment :=
  match attempt a m with
  | .ok m' => m'
  | .error _ => m

/-- Rows that are locked at some point of the run are there unchanged at its end. -/
def LockedRowsStay (actions : List TableAction) (m : Moment) : Prop :=
  ∀ earlier later, actions = earlier ++ later →
    ∀ r ∈ (Trace.exec step earlier m).ns.contribution.rows,
      r.row.Past (Trace.exec step earlier m).now →
        r ∈ (Trace.exec step actions m).ns.contribution.rows

/-- No action of the run creates a row in a past period or moves one there. -/
def NothingEntersThePast (actions : List TableAction) (m : Moment) : Prop :=
  ∀ earlier a later, actions = earlier ++ a :: later →
    ∀ r ∈ (step a (Trace.exec step earlier m)).ns.contribution.rows,
      r ∉ (Trace.exec step earlier m).ns.contribution.rows →
        ¬ r.row.Past (Trace.exec step earlier m).now

/-- The clock stays before the year 10000, and an `UPDATE` that selects a locked row makes of one of
the rows it selects what may not replace it: a row that is past or that the schema refuses. -/
def Keeps (a : TableAction) (m : Moment) : Prop :=
  match a with
  | .tick elapsed => utcDay (m.now + elapsed) < Calendar.yearStart 10000
  | .update sel set =>
      ∀ r ∈ m.ns.contribution.rows, sel r = true → r.row.Past m.now →
        ∃ r' ∈ m.ns.contribution.rows, sel r' = true ∧
          ¬ ((set r'.row).stamp m.now).MayReplace m.now r'.row
  | _ => True

/-- The table holds the record, and it is locked. -/
def Locked (r : ContributionRecord) (m : Moment) : Prop :=
  r ∈ m.ns.contribution.rows ∧ r.row.Past m.now

/-! ## One action -/

/-- What an action does to the rows: nothing, one new row, a rewrite, or a removal. -/
theorem step_cases (a : TableAction) (m : Moment) :
    ((step a m).ns.contribution = m.ns.contribution ∧
      ((step a m).now = m.now ∨ ∃ d, a = .tick d ∧ (step a m).now = m.now + d)) ∨
    ((step a m).now = m.now ∧
      ((∃ r, ¬ r.row.Past m.now ∧
        (step a m).ns.contribution.rows = m.ns.contribution.rows ++ [r]) ∨
      (∃ sel set, a = .update sel set ∧
        (∀ r ∈ m.ns.contribution.rows, sel r = true →
          ((set r.row).stamp m.now).MayReplace m.now r.row) ∧
        ∀ x, x ∈ (step a m).ns.contribution.rows ↔
          (x ∈ m.ns.contribution.rows ∧ sel x = false) ∨
            ∃ r ∈ m.ns.contribution.rows, sel r = true ∧ x = ⟨r.id, (set r.row).stamp m.now⟩) ∨
      (∃ sel, (∀ r ∈ m.ns.contribution.rows, sel r = true → ¬ r.row.Past m.now) ∧
        (step a m).ns.contribution = m.ns.contribution.delete sel))) := by
  unfold step
  cases h : attempt a m with
  | error e => exact .inl ⟨rfl, .inl rfl⟩
  | ok m' =>
      cases a with
      | tick elapsed =>
          simp only [attempt, Except.ok.injEq] at h
          exact .inl ⟨by rw [← h], .inr ⟨elapsed, rfl, by rw [← h]⟩⟩
      | settings settings =>
          simp only [attempt, Except.ok.injEq] at h
          exact .inl ⟨by rw [← h], .inl (by rw [← h])⟩
      | create row =>
          cases hc : m.ns.createContribution m.now row with
          | error e => simp [attempt, hc, Except.map] at h
          | ok answer =>
              simp only [attempt, hc, Except.map, Except.ok.injEq] at h
              obtain ⟨-, -, hpast, -, hcreate, -, -⟩ := Namespace.createContribution_ok hc
              have hrows := (Table.create_some hcreate).2.1
              exact .inr ⟨by rw [← h], .inl ⟨answer.1, hpast, by rw [← h, hrows]⟩⟩
      | update sel set =>
          cases hu : m.ns.updateContributions m.now sel set with
          | error e => simp [attempt, hu, Except.map] at h
          | ok ns =>
              simp only [attempt, hu, Except.map, Except.ok.injEq] at h
              obtain ⟨hmay, hrows, -⟩ := Namespace.updateContributions_ok hu
              exact .inr ⟨by rw [← h], .inr (.inl ⟨sel, set, rfl, hmay, by rw [← h]; exact hrows⟩)⟩
      | delete sel =>
          cases hd : m.ns.deleteContributions m.now sel with
          | error e => simp [attempt, hd, Except.map] at h
          | ok ns =>
              simp only [attempt, hd, Except.map, Except.ok.injEq] at h
              obtain ⟨hpast, rfl⟩ := Namespace.deleteContributions_ok hd
              exact .inr ⟨by rw [← h], .inr (.inr ⟨sel, hpast, by rw [← h]⟩)⟩

/-- An action that keeps to the condition leaves a locked row in place and locked. -/
theorem locked_step {a : TableAction} {m : Moment} {r : ContributionRecord}
    (hr : Locked r m) (hkeeps : Keeps a m) : Locked r (step a m) := by
  obtain ⟨hmem, hpast⟩ := hr
  rcases step_cases a m with ⟨hrows, hnow⟩ | ⟨hnow, hrows⟩
  · refine ⟨by rw [hrows]; exact hmem, ?_⟩
    rcases hnow with hnow | ⟨elapsed, rfl, hnow⟩
    · rwa [hnow]
    · rw [hnow]
      exact hpast.mono (Nat.le_add_right _ _) hkeeps
  · refine ⟨?_, by rwa [hnow]⟩
    rcases hrows with ⟨new, -, hrows⟩ | ⟨sel, set, rfl, hafter, hrows⟩ | ⟨sel, hbefore, hrows⟩
    · simp [hrows, hmem]
    · -- an UPDATE that selected the row would have made a row that the database rejects
      refine (hrows r).mpr (.inl ⟨hmem, ?_⟩)
      by_contra hsel
      have hsel : sel r = true := by simpa using hsel
      obtain ⟨r', hmem', hsel', hrejected⟩ := hkeeps r hmem hsel hpast
      exact hrejected (hafter r' hmem' hsel')
    · rw [hrows, Table.mem_delete]
      refine ⟨hmem, ?_⟩
      by_contra hsel
      exact hbefore r hmem (by simpa using hsel) hpast

/-- A record that an action brought into the table is not locked. -/
theorem entering_step {a : TableAction} {m : Moment} {r : ContributionRecord}
    (hr : r ∈ (step a m).ns.contribution.rows) (hnew : r ∉ m.ns.contribution.rows) :
    ¬ r.row.Past m.now := by
  rcases step_cases a m with ⟨hrows, -⟩ | ⟨-, hrows⟩
  · rw [hrows] at hr
    exact absurd hr hnew
  · rcases hrows with ⟨new, hpast, hrows⟩ | ⟨sel, set, -, hafter, hrows⟩ | ⟨sel, -, hrows⟩
    · rw [hrows] at hr
      rcases List.mem_append.mp hr with hr | hr
      · exact absurd hr hnew
      · rw [List.mem_singleton.mp hr]
        exact hpast
    · rcases (hrows r).mp hr with ⟨hr, -⟩ | ⟨old, hold, hsel, rfl⟩
      · exact absurd hr hnew
      · exact (hafter old hold hsel).notPast
    · rw [hrows, Table.mem_delete] at hr
      exact absurd hr.1 hnew

/-! ## Runs -/

/-- In every run whose actions keep to the condition, locked rows stay as they are; and in
every run at all, nothing enters the past. -/
theorem locked_rows_stay {actions : List TableAction} {m : Moment}
    (hrun : Trace.Each step Keeps actions m) :
    LockedRowsStay actions m ∧ NothingEntersThePast actions m := by
  constructor
  · rintro earlier later rfl r hr hpast
    have hlater := (Trace.each_append.mp hrun).2
    have hlocked : Locked r (Trace.exec step earlier m) := ⟨hr, hpast⟩
    rw [Trace.exec_append]
    exact (hlater.invariant (I := Locked r) (fun _ _ => locked_step) hlocked).1
  · rintro earlier a later rfl r hr hnew
    exact entering_step hr hnew

end Runs

/-! ## A payment for June -/

section Sample

attribute [local instance] Platform.sample

/-- Ann's row for June 2026. -/
def junePayment : Contribution := paymentRow "ann@pool.org" "monthly" "2026-06" 10000 juneNoon

/-- The payment is recorded and July begins. The member's note is corrected, which is rejected
because it leaves the row locked, and the row is moved to December with no amount, which is rejected
because the schema wants one. -/
def noteCorrected : List TableAction :=
  [.create junePayment, .tick (30 * oneDay),
    .update (fun _ => true) fun c => { c with note := some "paid" },
    .update (fun _ => true) fun c => { c with period := "2026-12", amountCents := 0 },
    .delete fun _ => true]

/-- The payment is recorded, July begins, and the row is moved to December. -/
def movedAway : List TableAction :=
  [.create junePayment, .tick (30 * oneDay),
    .update (fun _ => true) fun c => { c with period := "2026-12" }]

theorem locked_rows_stay_july :
    LockedRowsStay noteCorrected ⟨juneNoon, .empty⟩ ∧
      NothingEntersThePast noteCorrected ⟨juneNoon, .empty⟩ :=
  locked_rows_stay ⟨trivial, by unfold Keeps; decide, by unfold Keeps; decide,
    by unfold Keeps; decide, trivial, trivial⟩

/-- The lock event looks at the row after the write only: an `UPDATE` that moves a locked row of
June to December is accepted. -/
theorem locked_row_moves_away : ¬ LockedRowsStay movedAway ⟨juneNoon, .empty⟩ := by
  intro h
  have hstays := h [.create junePayment, .tick (30 * oneDay)]
    [.update (fun _ => true) fun c => { c with period := "2026-12" }] rfl ⟨0, junePayment⟩
    (by decide) (by decide)
  revert hstays
  decide

end Sample

end PeriodLock

end SharamLedger
