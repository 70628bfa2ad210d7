import SharamLedger.Ledger.Thrown
import SharamLedger.Sample

/-!
# What the events throw and what the client reads

An event of the tenant schema puts its finding into a text, and `map_db_error` takes the text
apart. Both lock events throw under one marker, but only `contribution_lock_check` writes the period
where the reader looks for it.
-/

namespace SharamLedger

open Lib

namespace EventMessages

/-- An event of the tenant schema on what it looks at. -/
inductive EventRun where
  | lockCheck (now : DateTime) (after : Contribution)
  | duesCap (ns : Namespace) (after : Contribution)
  | deleteLock (now : DateTime) (before : Contribution)
  | carryForwardImmutable (event : RowEvent)

namespace EventRun

def outcome : EventRun → Except DbError Unit
  | lockCheck now after => contributionLockCheck now after
  | duesCap ns after => contributionDuesCap ns after
  | deleteLock now before => contributionDeleteLock now before
  | carryForwardImmutable event => SharamLedger.carryForwardImmutable event

/-- The rows have passed the `ASSERT` on their period. -/
def Admitted : EventRun → Prop
  | lockCheck _ row | deleteLock _ row => isPeriodText row.period = true
  | duesCap .. | carryForwardImmutable _ => True

/-- The error that belongs to the event, with the data of the event. -/
def intended : EventRun → LedgerError
  | lockCheck _ row | deleteLock _ row => .periodLocked row.period
  | duesCap ns after =>
      .duesCapExceeded (mathSum ns.contribution.rows after.userEmail after.period)
        ((ns.settings.map (·.duesAmountCents)).getD 0)
  | carryForwardImmutable _ => .carryForwardExists

/-- It is the event `contribution_delete_lock`. -/
def isDeleteLock : EventRun → Bool
  | deleteLock .. => true
  | _ => false

end EventRun

/-! ## The lock on deletions -/

/-- The reader takes the whole text of the event for the period. -/
theorem periodOfThrow_delete {period : String} (h : isPeriodText period = true) :
    periodOfThrow (" cannot delete locked contribution " ++ period) =
      "cannot delete locked contribution " ++ period := by
  have hchars := plain_of_period h
  have hnone : period.toList ≠ [] := by
    intro hnil
    have hempty : period = "" := String.toList_inj.mp hnil
    rw [hempty] at h
    cases h
  have htext : (" cannot delete locked contribution " ++ period).toList =
      ' ' :: ("cannot delete locked contribution " ++ period).toList := by
    rw [String.toList_append, String.toList_append]
    rfl
  have hwhole : (" cannot delete locked contribution " ++ period).toList.takeWhile (· != '<') =
      (" cannot delete locked contribution " ++ period).toList := by
    refine List.takeWhile_eq_self_iff.mpr fun c hc => ?_
    rw [String.toList_append, List.mem_append] at hc
    rw [bne_iff_ne]
    rcases hc with hc | hc
    · rintro rfl
      exact absurd hc (by decide)
    · exact (hchars c hc).2
  have hframed := (trimChars_framed (l := ("cannot delete locked contribution " ++
    period).toList) ?_ ?_).2
  · rw [periodOfThrow, hwhole, htext, hframed, String.ofList_toList]
  · intro c hc
    rw [String.toList_append] at hc
    obtain rfl : 'c' = c := Option.some.inj hc
    decide
  · intro c hc
    rw [String.toList_append, List.getLast?_append_of_ne_nil _ hnone] at hc
    exact (hchars c (List.mem_of_getLast? hc)).1

section Reading

variable [Platform]

theorem mapDbError_deleteLock {now : DateTime} {before : Contribution} {e : DbError}
    (hperiod : isPeriodText before.period = true)
    (h : contributionDeleteLock now before = .error e) :
    mapDbError e = .periodLocked ("cannot delete locked contribution " ++ before.period) := by
  unfold contributionDeleteLock at h
  dsimp only at h
  split at h
  · rw [← Except.error.inj h, show "period_locked: cannot delete locked contribution " =
      "period_locked:" ++ " cannot delete locked contribution " by decide, String.append_assoc,
      mapDbError_periodLocked, periodOfThrow_delete hperiod]
  · cases h

/-! ## All events -/

/-- For every event, all rows it may look at and all that it throws. -/
theorem read_back_iff (run : EventRun) (e : DbError) (hadmitted : run.Admitted)
    (hthrown : run.outcome = .error e) :
    mapDbError e = run.intended ↔ run.isDeleteLock = false := by
  cases run with
  | lockCheck now after =>
      exact iff_of_true (mapDbError_lock hthrown hadmitted).2 rfl
  | duesCap ns after =>
      obtain ⟨settings, hs, -, -, hmap⟩ := mapDbError_duesCap hthrown
      refine iff_of_true ?_ rfl
      rw [hmap, EventRun.intended, hs]
      rfl
  | deleteLock now before =>
      refine iff_of_false ?_ Bool.noConfusion
      rw [mapDbError_deleteLock hadmitted hthrown]
      intro hsame
      have hperiod := LedgerError.periodLocked.inj hsame
      have hlen := congrArg String.length hperiod
      rw [String.length_append] at hlen
      have hword : "cannot delete locked contribution ".length = 34 := by decide
      omega
  | carryForwardImmutable event =>
      cases event with
      | create => cases hthrown
      | update | delete =>
          refine iff_of_true ?_ rfl
          rw [← Except.error.inj hthrown]
          exact mapDbError_immutable (" the carry-forward seed is set once at venture " ++
            "creation and cannot be modified") (by decide)

end Reading

section Sample

attribute [local instance] Platform.sample

/-- A payment of Ann's for March 2026. -/
def marchPayment : Contribution := paymentRow "ann@pool.org" "monthly" "2026-03" 5000 juneNoon

theorem read_back_march : ∃ e, contributionLockCheck juneNoon marchPayment = .error e ∧
    mapDbError e = .periodLocked "2026-03" := by
  have hthrown : (EventRun.lockCheck juneNoon marchPayment).outcome =
      .error (.thrown .contributionLockCheck "period_locked: 2026-03 < 2026-06") := by
    decide +kernel
  have hperiod : (EventRun.lockCheck juneNoon marchPayment).Admitted :=
    (by decide : isPeriodText "2026-03" = true)
  exact ⟨_, hthrown, (read_back_iff _ _ hperiod hthrown).mpr rfl⟩

/-- On a deletion the event's whole text is reported as the period. -/
theorem delete_lock_misread : ∃ e, contributionDeleteLock juneNoon marchPayment = .error e ∧
    mapDbError e = .periodLocked "cannot delete locked contribution 2026-03" ∧
    mapDbError e ≠ (EventRun.deleteLock juneNoon marchPayment).intended := by
  refine ⟨.thrown .contributionDeleteLock
    "period_locked: cannot delete locked contribution 2026-03", ?_, ?_, ?_⟩ <;>
    decide +kernel

end Sample

end EventMessages

end SharamLedger
