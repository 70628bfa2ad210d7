import SharamLedger.DuesCap
import SharamLedger.Lib.Snapshot

/-!
# Payments that overlap

`add_contribution` calls on one tenant as transactions under snapshot isolation. Each call
creates a record of its own and touches no unique index, so no two of them ever conflict. The cap
event of a call adds up what was committed when the call started: calls for one member and one
period that overlap do not see each other. Its sum is a machine sum, so a payment that takes it out
of 64 bits is not stopped either.
-/

namespace SharamLedger

open Lib

/-- An `add_contribution` call and the clock its transaction reads. -/
structure AddCall where
  now : DateTime
  input : NewContribution

namespace CapRace

section Runs

variable [Platform]

/-- The transaction of an `add_contribution` call: it writes one row under a fresh id. -/
def addCalls : Snapshot.Kind Namespace AddCall Contribution where
  body call ns :=
    match ns.addContribution call.input call.now with
    | .ok (record, _) => some record.row
    | .error _ => none
  conflict _ committed row := committed.contribution.rows.any fun r => Indexed.collides r.row row
  commit row ns :=
    match ns.contribution.create row with
    | some (_, table) => { ns with contribution := table }
    | none => ns

/-- The rows of a member and a period. -/
def paymentsOf (ns : Namespace) (email period : String) : List ContributionRecord :=
  ns.contribution.rows.filter fun r => r.row.userEmail == email && r.row.period == period

/-- No row of the call's member and period was committed since the call started. -/
def NoOverlap : Snapshot.Action AddCall → Snapshot.State Namespace AddCall → Prop
  | .start .., _ => True
  | .finish key, s => ∀ call snapshot, s.running key = some (call, snapshot) →
      paymentsOf s.committed call.input.userEmail call.input.period =
        paymentsOf snapshot call.input.userEmail call.input.period

/-- The call's row, when nothing but the cap stands against it, leaves the sum that it counts
towards within 64 bits. -/
def RoomLeft (call : AddCall) (ns : Namespace) : Prop :=
  (call.input.row call.now).check = .ok () → ¬ (call.input.row call.now).Past call.now →
    ns.RoomFor (call.input.row call.now)

omit [Platform] in
theorem paidAmounts_of_paymentsOf {ns ns' : Namespace} {email period : String}
    (h : paymentsOf ns email period = paymentsOf ns' email period) :
    paidAmounts ns.contribution.rows email period =
      paidAmounts ns'.contribution.rows email period := by
  have hamounts : ∀ ns : Namespace, paidAmounts ns.contribution.rows email period =
      ((paymentsOf ns email period).filter fun r => r.row.status != "rejected").map
        fun r => r.row.amountCents := by
    intro ns
    rw [paymentsOf, List.filter_filter]
    simp only [paidAmounts, Contribution.countsFor, Bool.and_comm]
  rw [hamounts, hamounts, h]

/-- What a call writes depends on the settings and on its own member's payments for its period. -/
theorem body_congr {call : AddCall} {ns ns' : Namespace} (hsettings : ns.settings = ns'.settings)
    (hpayments : paymentsOf ns call.input.userEmail call.input.period =
      paymentsOf ns' call.input.userEmail call.input.period) :
    addCalls.body call ns = addCalls.body call ns' := by
  obtain ⟨table, hcreate, heq⟩ := ns.createContribution_eq call.now (call.input.row call.now)
  obtain ⟨table', hcreate', heq'⟩ := ns'.createContribution_eq call.now (call.input.row call.now)
  obtain ⟨row, hrow⟩ : ∃ row, (call.input.row call.now).stamp call.now = row := ⟨_, rfl⟩
  rw [hrow] at hcreate hcreate' heq heq'
  have hsum : paidSum ns.contribution.rows row.userEmail row.period =
      paidSum ns'.contribution.rows row.userEmail row.period := by
    rw [← hrow]
    exact congrArg List.sum (paidAmounts_of_paymentsOf hpayments)
  have hcap : contributionDuesCap { ns with contribution := table } row =
      contributionDuesCap { ns' with contribution := table' } row := by
    refine contributionDuesCap_congr hsettings ?_
    dsimp only
    rw [(Table.create_some hcreate).2.1, (Table.create_some hcreate').2.1, mathSum_eq_wrap,
      mathSum_eq_wrap, paidSum_append, paidSum_append, hsum]
  simp only [addCalls, Namespace.addContribution, heq, heq', hcap]
  cases row.check with
  | error f => rfl
  | ok u =>
      cases contributionLockCheck call.now row with
      | error e => rfl
      | ok u => cases contributionDuesCap { ns' with contribution := table' } row <;> rfl

/-- Committing a row appends it. -/
theorem commit_eq (ns : Namespace) (row : Contribution) :
    ∃ table, ns.contribution.create row = some (⟨ns.contribution.nextId, row⟩, table) ∧
      addCalls.commit row ns = { ns with contribution := table } := by
  obtain ⟨table, htable⟩ := ns.create_contribution row
  exact ⟨table, htable, by simp [addCalls, htable]⟩

/-- The settings are the same in the committed state and in every snapshot. -/
def SettingsFixed (settings : Settings) (s : Snapshot.State Namespace AddCall) : Prop :=
  s.committed.settings = some settings ∧
    Snapshot.Snapshots (fun ns => ns.settings = some settings) s

/-- A call that runs alone keeps the cap and the settings, when it leaves room. -/
theorem serial_cap {settings : Option Settings} (call : AddCall) {ns : Namespace}
    (h : ns.CapHolds ∧ ns.settings = settings) (hroom : RoomLeft call ns) :
    (Snapshot.serial addCalls call ns).CapHolds ∧
      (Snapshot.serial addCalls call ns).settings = settings := by
  unfold Snapshot.serial
  cases hadd : ns.addContribution call.input call.now with
  | error e => simpa [addCalls, hadd] using h
  | ok answer =>
      obtain ⟨record, ns'⟩ := answer
      obtain ⟨hcheck, hrow, hopen, hcap, hcreate, hsettings, hcarry⟩ :=
        Namespace.createContribution_ok hadd
      have hroom : ns.RoomFor record.row := by
        rw [hrow] at hopen ⊢
        exact hroom hcheck hopen
      have hserial : addCalls.commit record.row ns = ns' := by
        obtain ⟨table, htable, hcommit⟩ := commit_eq ns record.row
        rw [hrow, hcreate, Option.some.injEq, Prod.mk.injEq] at htable
        rw [hcommit, ← htable.2, ← hsettings, ← hcarry]
      have hbody : addCalls.body call ns = some record.row := by simp [addCalls, hadd]
      simp only [hbody, hserial]
      exact ⟨h.1.append (Table.create_some hcreate).2.1 hsettings hroom hcap, hsettings.trans h.2⟩

/-- Without overlap on one member's period, the calls commit what some serial run of them commits.
When each of them leaves room for its sum, the cap holds at the end. -/
theorem cap_kept_without_overlap {actions : List (Snapshot.Action AddCall)} {ns : Namespace}
    {settings : Settings} (hsettings : ns.settings = some settings)
    (hdues : 0 < settings.duesAmountCents)
    (hcap : ∀ email period,
      paidSum ns.contribution.rows email period ≤ settings.duesAmountCents)
    (hrun : Trace.Each (Snapshot.step addCalls)
      (fun a s => NoOverlap a s ∧ Snapshot.Finishes RoomLeft a s) actions (.idle ns))
    (email period : String) :
    paidSum (Trace.exec (Snapshot.step addCalls) actions (.idle ns)).committed.contribution.rows
      email period ≤ settings.duesAmountCents := by
  have hcommit : ∀ row x, x.settings = some settings →
      (addCalls.commit row x).settings = some settings := by
    intro row x hx
    obtain ⟨table, -, hrow⟩ := commit_eq x row
    rw [hrow]
    exact hx
  have hstable : Trace.Each (Snapshot.step addCalls)
      (fun a s => Snapshot.Stable addCalls a s ∧ Snapshot.Finishes RoomLeft a s) actions
      (.idle ns) := by
    refine hrun.of_invariant (I := SettingsFixed settings)
      (fun _ _ hs => Snapshot.snapshots_step hcommit hs) ?_ ⟨hsettings, fun _ _ _ h => by cases h⟩
    rintro a s hs ⟨hoverlap, hroom⟩
    refine ⟨?_, hroom⟩
    cases a with
    | start key call => trivial
    | finish key =>
        -- from its snapshot on, nothing the call reads has changed
        intro call snapshot hrunning
        exact body_congr ((hs.2 key call snapshot hrunning).trans hs.1.symm)
          (hoverlap call snapshot hrunning).symm
  obtain ⟨calls, hcalls, hrooms⟩ := Snapshot.serial_of_stable hstable
  have hserial := hrooms.invariant (I := fun ns => ns.CapHolds ∧ ns.settings = some settings)
    (fun call _ hx hroom => serial_cap call hx hroom)
    ⟨fun found hfound _ => by rw [Option.some.inj (hfound.symm.trans hsettings)]; exact hcap,
      hsettings⟩
  rw [hcalls]
  exact hserial.1 settings hserial.2 hdues email period

end Runs

/-! ## Two payments of one member -/

section Sample

attribute [local instance] Platform.sample

/-- A tenant with dues of 100 and no payments. -/
def unpaid : Namespace := { Namespace.empty with settings := some (sampleSettings 10000) }

/-- A payment of Ann's for June. -/
def annPays (amountCents : Int) : AddCall := ⟨juneNoon, samplePayment amountCents⟩

/-- Ann pays her dues in two calls, the second one after the first. -/
def oneByOne : List (Snapshot.Action AddCall) :=
  [.start 0 (annPays 6000), .finish 0, .start 1 (annPays 4000), .finish 1]

theorem cap_kept_one_by_one :
    paidSum (Trace.exec (Snapshot.step addCalls) oneByOne
      (.idle unpaid)).committed.contribution.rows "ann@pool.org" "2026-06" ≤ 10000 := by
  have hrun : Trace.Each (Snapshot.step addCalls)
      (fun a s => NoOverlap a s ∧ Snapshot.Finishes RoomLeft a s) oneByOne (.idle unpaid) := by
    refine ⟨⟨trivial, trivial⟩, ⟨?_, ?_⟩, ⟨trivial, trivial⟩, ⟨?_, ?_⟩, trivial⟩
    all_goals
      rintro call snapshot h
      obtain ⟨rfl, rfl⟩ := Prod.mk.inj (Option.some.inj h)
    · rfl
    · exact fun _ _ _ _ _ => by decide
    · rfl
    · exact fun _ _ _ _ _ => by decide
  have hnone : ∀ email period, paidSum unpaid.contribution.rows email period ≤ 10000 :=
    fun _ _ => (by decide : (0 : Int) ≤ 10000)
  have hsettings : unpaid.settings = some (sampleSettings 10000) := rfl
  exact cap_kept_without_overlap hsettings (by decide) hnone hrun _ _

/-- Two payments of the full dues that overlap are both committed. -/
theorem cap_broken_by_overlap :
    ¬ ∀ email period, paidSum (Trace.exec (Snapshot.step addCalls)
      [.start 0 (annPays 10000), .start 1 (annPays 10000), .finish 0, .finish 1]
      (.idle unpaid)).committed.contribution.rows email period ≤ 10000 := by
  intro h
  have hcap := h "ann@pool.org" "2026-06"
  revert hcap
  decide

/-- Nor is one of the largest amount stopped that comes behind a payment of one cent. -/
example : ¬ paidSum (Trace.exec (Snapshot.step addCalls)
    [.start 0 (annPays 1), .finish 0, .start 1 (annPays I64.maxValue), .finish 1]
    (.idle unpaid)).committed.contribution.rows "ann@pool.org" "2026-06" ≤ 10000 := by
  decide

end Sample

end CapRace

end SharamLedger
