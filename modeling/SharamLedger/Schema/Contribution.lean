import SharamLedger.Schema.Tenant

/-!
# Statements on `contribution`

`CREATE`, `UPDATE` and `DELETE` on the table `contribution`. A statement checks the field
assertions, writes, and then runs the schema's events; whatever an event throws undoes the
statement. The `_ok` lemmas say all that an accepted statement can have done.
-/

namespace SharamLedger

open Lib

/-- The row's period is older than the current period of its cadence: the row is locked. -/
def Contribution.Past (now : DateTime) (c : Contribution) : Prop :=
  c.period < currentPeriodFor now c.cadence

instance (now : DateTime) (c : Contribution) : Decidable (c.Past now) :=
  inferInstanceAs (Decidable (_ < _))

/-- `updated_at` always takes the clock. -/
def Contribution.stamp (now : DateTime) (c : Contribution) : Contribution :=
  { c with updatedAt := now }

/-- The dues cap as the event reads it: no bound without dues, and none on rejected rows. -/
def Namespace.WithinCap (ns : Namespace) (after : Contribution) : Prop :=
  after.status = "rejected" ∨
    ∀ settings, ns.settings = some settings → 0 < settings.duesAmountCents →
      mathSum ns.contribution.rows after.userEmail after.period ≤ settings.duesAmountCents

/-- One more row adds its amount to the sum it counts towards and leaves every other sum. -/
theorem paidSum_append (rows : List ContributionRecord) (r : ContributionRecord)
    (email period : String) :
    paidSum (rows ++ [r]) email period = paidSum rows email period +
      if r.row.countsFor email period then r.row.amountCents else 0 := by
  unfold paidSum paidAmounts
  by_cases h : r.row.countsFor email period = true <;> simp [List.filter_append, h]

/-- Sums of positive amounts are not negative. -/
theorem paidSum_nonneg {rows : List ContributionRecord} (h : ∀ r ∈ rows, 0 < r.row.amountCents)
    (email period : String) : 0 ≤ paidSum rows email period := by
  refine List.sum_nonneg fun n hn => ?_
  obtain ⟨r, hr, rfl⟩ := List.mem_map.mp hn
  exact (h r (List.mem_filter.mp hr).1).le

/-- The machine sum is the sum modulo `2 ^ 64`. -/
theorem mathSum_eq_wrap (rows : List ContributionRecord) (email period : String) :
    mathSum rows email period = I64.wrap (paidSum rows email period) :=
  I64.sum_eq_wrap _

/-- It is exact as long as the sum fits. -/
theorem mathSum_of_fits {rows : List ContributionRecord} {email period : String}
    (h : I64.Fits (paidSum rows email period)) :
    mathSum rows email period = paidSum rows email period :=
  I64.sum_of_fits h

theorem Contribution.countsFor_iff {c : Contribution} {email period : String} :
    c.countsFor email period = true ↔
      c.userEmail = email ∧ c.period = period ∧ c.status ≠ "rejected" := by
  simp [Contribution.countsFor, and_assoc]

/-- The cap event only looks at the settings and at the sum the row counts towards. -/
theorem contributionDuesCap_congr {ns ns' : Namespace} {after : Contribution}
    (hsettings : ns.settings = ns'.settings)
    (hpaid : mathSum ns.contribution.rows after.userEmail after.period =
      mathSum ns'.contribution.rows after.userEmail after.period) :
    contributionDuesCap ns after = contributionDuesCap ns' after := by
  unfold contributionDuesCap
  rw [hsettings, hpaid]

theorem contributionLockCheck_ok {now : DateTime} {after : Contribution} :
    contributionLockCheck now after = .ok () ↔ ¬ after.Past now := by
  simp only [contributionLockCheck, Contribution.Past]
  split <;> simp_all

theorem contributionDeleteLock_ok {now : DateTime} {before : Contribution} :
    contributionDeleteLock now before = .ok () ↔ ¬ before.Past now := by
  simp only [contributionDeleteLock, Contribution.Past]
  split <;> simp_all

theorem contributionDuesCap_ok {ns : Namespace} {after : Contribution} :
    contributionDuesCap ns after = .ok () ↔ ns.WithinCap after := by
  unfold contributionDuesCap Namespace.WithinCap
  split
  · simp_all
  · cases hs : ns.settings with
    | none => simp
    | some settings =>
        simp only [Option.some.injEq, forall_eq']
        split <;> simp_all

/-- Settings that pass their assertions have dues of zero or more that fit 64 bits. -/
theorem Settings.dues_of_check {s : Settings} (h : s.check = .ok ()) :
    0 ≤ s.duesAmountCents ∧ I64.Fits s.duesAmountCents ∧ isCadence s.cadence = true := by
  unfold Settings.check at h
  split at h
  · cases h
  · split at h
    · cases h
    · simp_all [isInt]

section Statements

variable [Platform]

/-- A contribution that passes its assertions has a positive amount that fits 64 bits, a known
cadence and a period of one of the three shapes. -/
theorem Contribution.of_check {c : Contribution} (h : c.check = .ok ()) :
    0 < c.amountCents ∧ I64.Fits c.amountCents ∧ isCadence c.cadence = true ∧
      isPeriodText c.period = true := by
  unfold Contribution.check at h
  repeat' split at h
  all_goals simp_all [isInt]

/-- A recorded carry-forward has such an amount too. -/
theorem CarryForward.amount_of_check {c : CarryForward} (h : c.check = .ok ()) :
    0 < c.amountCents ∧ I64.Fits c.amountCents := by
  unfold CarryForward.check at h
  repeat' split at h
  all_goals simp_all [isInt]

/-- The row may take the place of another in an `UPDATE`: it keeps the read-only field, meets the
assertions and is not locked. -/
structure Contribution.MayReplace (now : DateTime) (after before : Contribution) : Prop where
  kept : after.submittedAt = before.submittedAt
  asserted : after.check = .ok ()
  notPast : ¬ after.Past now

instance (now : DateTime) (after before : Contribution) : Decidable (after.MayReplace now before) :=
  decidable_of_iff
    (after.submittedAt = before.submittedAt ∧ after.check = .ok () ∧ ¬ after.Past now)
    ⟨fun ⟨h₁, h₂, h₃⟩ => ⟨h₁, h₂, h₃⟩, fun h => ⟨h.kept, h.asserted, h.notPast⟩⟩

/-- `CREATE contribution`. -/
def Namespace.createContribution (now : DateTime) (ns : Namespace) (c : Contribution) :
    Except DbError (ContributionRecord × Namespace) := do
  let after := c.stamp now
  after.check.mapError .fault
  match ns.contribution.create after with
  | none => .error (.fault (.index "contribution" ""))
  | some (record, table) =>
      -- the events read the table with the new row in it
      let ns := { ns with contribution := table }
      contributionLockCheck now after
      contributionDuesCap ns after
      return (record, ns)

/-- `UPDATE` of one selected record. `submitted_at` is `READONLY`. -/
def Namespace.updateRecord (now : DateTime) (set : Contribution → Contribution)
    (ns : Namespace) (r : ContributionRecord) : Except DbError Namespace := do
  let after := (set r.row).stamp now
  if after.submittedAt ≠ r.row.submittedAt then
    .error (.fault (.readonly "contribution" "submitted_at"))
  else
    after.check.mapError .fault
    match ns.contribution.replace r after with
    | none => .error (.fault (.index "contribution" ""))
    | some table =>
        let ns := { ns with contribution := table }
        contributionLockCheck now after
        contributionDuesCap ns after
        return ns

/-- `UPDATE contribution SET .. WHERE ..`: record after record, all or nothing. -/
def Namespace.updateContributions (now : DateTime) (ns : Namespace)
    (sel : ContributionRecord → Bool) (set : Contribution → Contribution) :
    Except DbError Namespace :=
  (ns.contribution.select sel).foldlM (Namespace.updateRecord now set) ns

omit [Platform] in
/-- `DELETE contribution WHERE ..`. -/
def Namespace.deleteContributions (now : DateTime) (ns : Namespace)
    (sel : ContributionRecord → Bool) : Except DbError Namespace := do
  (ns.contribution.select sel).forM fun r => contributionDeleteLock now r.row
  return { ns with contribution := ns.contribution.delete sel }

/-! ## What accepted statements did -/

omit [Platform] in
/-- No unique index stands in the way of a contribution. -/
theorem Namespace.create_contribution (ns : Namespace) (c : Contribution) :
    ∃ table, ns.contribution.create c = some (⟨ns.contribution.nextId, c⟩, table) :=
  Table.create_of_free fun _ _ => rfl

/-- `CREATE` answers with the first of its three checks that fails, or else adds the row. -/
theorem Namespace.createContribution_eq (now : DateTime) (ns : Namespace) (c : Contribution) :
    ∃ table, ns.contribution.create (c.stamp now) =
        some (⟨ns.contribution.nextId, c.stamp now⟩, table) ∧
      ns.createContribution now c = do
        (c.stamp now).check.mapError .fault
        contributionLockCheck now (c.stamp now)
        contributionDuesCap { ns with contribution := table } (c.stamp now)
        return (⟨ns.contribution.nextId, c.stamp now⟩, { ns with contribution := table }) := by
  obtain ⟨table, htable⟩ := ns.create_contribution (c.stamp now)
  exact ⟨table, htable, by simp only [createContribution, htable]⟩

/-- An accepted `CREATE` appended its row, which is not locked and keeps the cap. -/
theorem Namespace.createContribution_ok {now : DateTime} {ns ns' : Namespace} {c : Contribution}
    {r : ContributionRecord} (h : ns.createContribution now c = .ok (r, ns')) :
    (c.stamp now).check = .ok () ∧ r.row = c.stamp now ∧ ¬ r.row.Past now ∧ ns'.WithinCap r.row ∧
      ns.contribution.create (c.stamp now) = some (r, ns'.contribution) ∧
      ns'.settings = ns.settings ∧ ns'.carryForward = ns.carryForward := by
  obtain ⟨table, htable, heq⟩ := ns.createContribution_eq now c
  rw [heq] at h
  cases hcheck : (c.stamp now).check with
  | error e => simp [hcheck, Except.mapError, bind, Except.bind] at h
  | ok u =>
      cases hlock : contributionLockCheck now (c.stamp now) with
      | error e => simp [hcheck, hlock, Except.mapError, bind, Except.bind] at h
      | ok u =>
          cases hcap : contributionDuesCap { ns with contribution := table } (c.stamp now) with
          | error e => simp [hcheck, hlock, hcap, Except.mapError, bind, Except.bind] at h
          | ok u =>
              simp only [hcheck, hlock, hcap, Except.mapError, bind, Except.bind, pure,
                Except.pure, Except.ok.injEq, Prod.mk.injEq] at h
              obtain ⟨rfl, rfl⟩ := h
              exact ⟨rfl, rfl, contributionLockCheck_ok.mp hlock, contributionDuesCap_ok.mp hcap,
                htable, rfl, rfl⟩

/-- An accepted `UPDATE` of one record put a row in its place that may replace it and keeps the
cap. -/
theorem Namespace.updateRecord_ok {now : DateTime} {set : Contribution → Contribution}
    {ns ns' : Namespace} {r : ContributionRecord} (h : ns.updateRecord now set r = .ok ns') :
    ((set r.row).stamp now).MayReplace now r.row ∧ ns'.WithinCap ((set r.row).stamp now) ∧
      ns.contribution.replace r ((set r.row).stamp now) = some ns'.contribution ∧
      ns'.settings = ns.settings ∧ ns'.carryForward = ns.carryForward := by
  dsimp only [updateRecord] at h
  split at h
  · cases h
  · next hkept =>
    cases hcheck : ((set r.row).stamp now).check with
    | error e => simp [hcheck, Except.mapError, bind, Except.bind] at h
    | ok u =>
        cases hreplace : ns.contribution.replace r ((set r.row).stamp now) with
        | none => simp [hcheck, hreplace, Except.mapError, bind, Except.bind] at h
        | some table =>
            simp only [hcheck, hreplace, Except.mapError, bind, Except.bind] at h
            cases hlock : contributionLockCheck now ((set r.row).stamp now) with
            | error e => simp [hlock] at h
            | ok u =>
                simp only [hlock] at h
                cases hcap : contributionDuesCap { ns with contribution := table }
                    ((set r.row).stamp now) with
                | error e => simp [hcap] at h
                | ok u =>
                    simp only [hcap, pure, Except.pure, Except.ok.injEq] at h
                    obtain rfl := h
                    exact ⟨⟨not_not.mp hkept, hcheck, contributionLockCheck_ok.mp hlock⟩,
                      contributionDuesCap_ok.mp hcap, rfl, rfl, rfl⟩

/-- Updating selected records one after another rewrites those records and keeps the others. -/
theorem Namespace.foldlM_updateRecord_ok {now : DateTime} {set : Contribution → Contribution}
    {selected : List ContributionRecord} {ns ns' : Namespace}
    (hmem : ∀ r ∈ selected, r ∈ ns.contribution.rows)
    (hdistinct : selected.Pairwise fun a b => a.id ≠ b.id)
    (h : selected.foldlM (Namespace.updateRecord now set) ns = .ok ns') :
    (∀ r ∈ selected, ((set r.row).stamp now).MayReplace now r.row) ∧
      (∀ x, x ∈ ns'.contribution.rows ↔ (x ∈ ns.contribution.rows ∧ x ∉ selected) ∨
        ∃ r ∈ selected, x = ⟨r.id, (set r.row).stamp now⟩) ∧
      ns'.settings = ns.settings := by
  induction selected generalizing ns with
  | nil =>
      simp only [List.foldlM_nil, pure, Except.pure, Except.ok.injEq] at h
      obtain rfl := h
      simp
  | cons r selected ih =>
      obtain ⟨hne, hdistinct⟩ := List.pairwise_cons.mp hdistinct
      rw [List.foldlM_cons] at h
      cases hr : ns.updateRecord now set r with
      | error e => simp [hr, bind, Except.bind] at h
      | ok ns₁ =>
          simp only [hr, bind, Except.bind] at h
          obtain ⟨hmay, -, hreplace, hsettings, -⟩ := updateRecord_ok hr
          have hreplaced := Table.mem_replace hreplace (hmem r (by simp))
          have hkept : ∀ r' ∈ selected, r' ∈ ns₁.contribution.rows := by
            intro r' hr'
            refine (hreplaced r').mpr (.inr ⟨hmem r' (by simp [hr']), ?_⟩)
            rintro rfl
            exact hne r' hr' rfl
          obtain ⟨hmays, hrows, hsettings'⟩ := ih hkept hdistinct h
          refine ⟨by simpa using ⟨hmay, hmays⟩, fun x => ?_, hsettings'.trans hsettings⟩
          -- the record just written is none of those still to come
          have hnew : (⟨r.id, (set r.row).stamp now⟩ : ContributionRecord) ∉ selected :=
            fun hin => hne _ hin rfl
          rw [hrows, hreplaced]
          simp only [List.mem_cons, exists_eq_or_imp]
          constructor
          · rintro (⟨rfl | ⟨hx, hxr⟩, hxs⟩ | hx)
            · exact .inr (.inl rfl)
            · exact .inl ⟨hx, by simp [hxr, hxs]⟩
            · exact .inr (.inr hx)
          · rintro (⟨hx, hxs⟩ | rfl | hx)
            · exact .inl ⟨.inr ⟨hx, fun h => hxs (.inl h)⟩, fun h => hxs (.inr h)⟩
            · exact .inl ⟨.inl rfl, hnew⟩
            · exact .inr hx

/-- An accepted `UPDATE` rewrote the selected records, each into a row that may replace it, and kept
the others. -/
theorem Namespace.updateContributions_ok {now : DateTime} {ns ns' : Namespace}
    {sel : ContributionRecord → Bool} {set : Contribution → Contribution}
    (h : ns.updateContributions now sel set = .ok ns') :
    (∀ r ∈ ns.contribution.rows, sel r = true →
        ((set r.row).stamp now).MayReplace now r.row) ∧
      (∀ x, x ∈ ns'.contribution.rows ↔ (x ∈ ns.contribution.rows ∧ sel x = false) ∨
        ∃ r ∈ ns.contribution.rows, sel r = true ∧ x = ⟨r.id, (set r.row).stamp now⟩) ∧
      ns'.settings = ns.settings := by
  obtain ⟨hmay, hrows, hsettings⟩ := foldlM_updateRecord_ok
    (fun r hr => (Table.mem_select.mp hr).1) (ns.contribution.distinct.filter _) h
  refine ⟨fun r hr hsel => hmay r (Table.mem_select.mpr ⟨hr, hsel⟩), fun x => ?_, hsettings⟩
  rw [hrows x]
  simp only [Table.mem_select, and_assoc]
  constructor
  · rintro (⟨hx, hsel⟩ | hx)
    · exact .inl ⟨hx, by simpa [hx] using hsel⟩
    · exact .inr hx
  · rintro (⟨hx, hsel⟩ | hx)
    · exact .inl ⟨hx, by simp [hsel]⟩
    · exact .inr hx

omit [Platform] in
/-- An accepted `DELETE` removed the selected records, none of them locked. -/
theorem Namespace.deleteContributions_ok {now : DateTime} {ns ns' : Namespace}
    {sel : ContributionRecord → Bool} (h : ns.deleteContributions now sel = .ok ns') :
    (∀ r ∈ ns.contribution.rows, sel r = true → ¬ r.row.Past now) ∧
      ns' = { ns with contribution := ns.contribution.delete sel } := by
  have hall : ∀ l : List ContributionRecord,
      l.forM (fun r => contributionDeleteLock now r.row) = .ok () →
        ∀ r ∈ l, ¬ r.row.Past now := by
    intro l hl
    induction l with
    | nil => simp
    | cons a l ih =>
        rw [List.forM_eq_forM, List.forM_cons] at hl
        simp only [bind, Except.bind] at hl
        cases ha : contributionDeleteLock now a.row with
        | error e => simp [ha] at hl
        | ok u =>
            simp only [ha] at hl
            simpa using ⟨contributionDeleteLock_ok.mp ha, ih hl⟩
  unfold deleteContributions at h
  cases hlock : (ns.contribution.select sel).forM fun r => contributionDeleteLock now r.row with
  | error e => simp [hlock, bind, Except.bind] at h
  | ok u =>
      simp only [hlock, bind, Except.bind, pure, Except.pure, Except.ok.injEq] at h
      exact ⟨fun r hr hsel => hall _ hlock r (Table.mem_select.mpr ⟨hr, hsel⟩), h.symm⟩

end Statements

end SharamLedger
