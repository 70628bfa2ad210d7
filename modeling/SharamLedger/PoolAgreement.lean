import SharamLedger.Deployment
import SharamLedger.Gateway.Rollups
import SharamLedger.Sample

/-!
# The pool and its members

`pool_contributions` clamps what remains of the whole target, `period_summary` what remains of
each member's dues. The two agree when no member has paid more than the dues, or none less.
-/

namespace SharamLedger

open Lib

namespace PoolAgreement

/-- The summary of a member. -/
def own (s : System) (slug : String) (settings : Settings) (period : String)
    (member : TenantMember) : PeriodSummary :=
  summaryOf (s.namespaces slug).contribution.rows settings.duesAmountCents member.email period

/-- The summary of the pool. -/
def pool (s : System) (slug : String) (settings : Settings) (period : String) :
    PoolSummaryView :=
  poolSummary period settings.toTenantSettings ((s.namespaces slug).poolRows period)
    (s.control.membersOf slug)

/-- The pool reports the totals of its members. -/
structure Agrees (s : System) (slug : String) (settings : Settings) (period : String) :
    Prop where
  paid : (pool s slug settings period).paidCents =
    ((s.control.membersOf slug).map fun m => (own s slug settings period m).paidCents).sum
  remaining : (pool s slug settings period).remainingCents =
    ((s.control.membersOf slug).map fun m => (own s slug settings period m).remainingCents).sum
  settled : 0 < settings.duesAmountCents → (pool s slug settings period).settledCount =
    (s.control.membersOf slug).countP fun m => (own s slug settings period m).remainingCents = 0

/-- What a member has paid for the period. -/
def paidBy (s : System) (slug period : String) (member : TenantMember) : Int :=
  paidSum (s.namespaces slug).contribution.rows member.email period

/-- No member has paid more than the dues, or none less. -/
def OneSided (s : System) (slug : String) (settings : Settings) (period : String) : Prop :=
  (∀ m ∈ s.control.membersOf slug, paidBy s slug period m ≤ settings.duesAmountCents) ∨
    ∀ m ∈ s.control.membersOf slug, settings.duesAmountCents ≤ paidBy s slug period m

/-- The totals of the period fit 64 bits. -/
structure Fits (s : System) (slug : String) (settings : Settings) (period : String) : Prop where
  paid : I64.Fits (((s.namespaces slug).countedFor period).map cents).sum
  target : I64.Fits (settings.duesAmountCents * (s.control.membersOf slug).length)

section Runs

variable [Platform] {s : System} {slug : String} {settings : Settings} {period : String}

theorem periodFits (h : Deployment.Accountable s) (hfits : Fits s slug settings period) :
    (s.namespaces slug).PeriodFits period :=
  ⟨h.amounts slug, hfits.paid⟩

/-- Whoever paid is a member. -/
theorem payers (h : Deployment.Accountable s) {r : ContributionRecord}
    (hr : r ∈ (s.namespaces slug).countedFor period) :
    r.row.userEmail ∈ (s.control.membersOf slug).map (·.email) :=
  (Control.mem_membersOf h.joined).mpr
    (h.contributors slug r (Namespace.mem_countedFor hr))

theorem own_paid (h : Deployment.Accountable s) (hfits : Fits s slug settings period)
    (m : TenantMember) : (own s slug settings period m).paidCents = paidBy s slug period m :=
  summaryOf_paid (periodFits h hfits) _ _

theorem own_remaining (h : Deployment.Accountable s)
    (hs : (s.namespaces slug).settings = some settings) (hfits : Fits s slug settings period)
    (m : TenantMember) : (own s slug settings period m).remainingCents =
      max (settings.duesAmountCents - paidBy s slug period m) 0 := by
  obtain ⟨hdues, hduesFit, -⟩ := Settings.dues_of_check (h.settings slug settings hs)
  exact summaryOf_remaining (periodFits h hfits) hdues hduesFit.2 m.email

/-- The payments of the period are those of the members. -/
theorem sum_paidBy (h : Deployment.Accountable s) (hfits : Fits s slug settings period) :
    ((s.control.membersOf slug).map (paidBy s slug period)).sum =
      (((s.namespaces slug).countedFor period).map cents).sum := by
  have htotal := (tallies_summaries (periodFits h hfits) 0
    (Control.nodup_membersOf h.joined slug) fun _ => payers h).total
  simp only [List.map_map] at htotal
  rw [← htotal]
  congr 1
  exact List.map_congr_left fun m _ => (summaryOf_paid (periodFits h hfits) 0 m.email).symm

theorem pool_paid (h : Deployment.Accountable s) (hfits : Fits s slug settings period) :
    (pool s slug settings period).paidCents =
      ((s.control.membersOf slug).map (paidBy s slug period)).sum := by
  rw [sum_paidBy h hfits]
  exact poolSummary_paid (periodFits h hfits) _ _

/-- What remains of the target is what all members together have left of their dues. -/
theorem pool_remaining (h : Deployment.Accountable s)
    (hs : (s.namespaces slug).settings = some settings) (hfits : Fits s slug settings period) :
    (pool s slug settings period).remainingCents =
      max ((s.control.membersOf slug).map fun m =>
        settings.duesAmountCents - paidBy s slug period m).sum 0 := by
  obtain ⟨hdues, -, -⟩ := Settings.dues_of_check (h.settings slug settings hs)
  have hshare : ∀ l : List TenantMember,
      (l.map fun m => settings.duesAmountCents - paidBy s slug period m).sum =
        settings.duesAmountCents * l.length - (l.map (paidBy s slug period)).sum := by
    intro l
    induction l with
    | nil => simp
    | cons m l ih =>
        simp only [List.map_cons, List.sum_cons, List.length_cons, ih, Nat.cast_add, Nat.cast_one,
          Int.mul_add, Int.mul_one]
        omega
  rw [hshare, sum_paidBy h hfits]
  exact poolSummary_remaining (periodFits h hfits) hdues hfits.target.2

/-- Both clamp the same way just when the members are all on one side of the dues. -/
theorem remaining_iff (h : Deployment.Accountable s)
    (hs : (s.namespaces slug).settings = some settings) (hfits : Fits s slug settings period) :
    (pool s slug settings period).remainingCents =
        ((s.control.membersOf slug).map fun m =>
          (own s slug settings period m).remainingCents).sum ↔
      OneSided s slug settings period := by
  have hown : ((s.control.membersOf slug).map fun m =>
      (own s slug settings period m).remainingCents) =
        ((s.control.membersOf slug).map fun m =>
          settings.duesAmountCents - paidBy s slug period m).map fun v => max v 0 := by
    rw [List.map_map]
    exact List.map_congr_left fun m _ => own_remaining h hs hfits m
  rw [pool_remaining h hs hfits, hown, max_sum_eq_iff, List.forall_mem_map, List.forall_mem_map]
  refine or_congr (forall₂_congr fun m _ => ?_) (forall₂_congr fun m _ => ?_) <;> omega

/-- The address has paid the dues. -/
def paidUp (s : System) (slug : String) (settings : Settings) (period email : String) : Bool :=
  decide (settings.duesAmountCents ≤
    paidSum (s.namespaces slug).contribution.rows email period)

/-- With dues set, the pool counts the payers who have paid them. -/
theorem pool_settled (h : Deployment.Accountable s) (hfits : Fits s slug settings period)
    (hdues : 0 < settings.duesAmountCents) : (pool s slug settings period).settledCount =
      ((byMember ((s.namespaces slug).poolRows period)).map (·.1)).countP
        (paidUp s slug settings period) := by
  have hcount : (pool s slug settings period).settledCount =
      ((byMember ((s.namespaces slug).poolRows period)).map (·.2)).countP
        fun v => settings.duesAmountCents ≤ v := if_pos hdues
  rw [hcount, List.countP_map, List.countP_map]
  refine List.countP_congr fun e he => ?_
  have hexact : e.2 = paidSum (s.namespaces slug).contribution.rows e.1 period := by
    rw [paidSum_eq]
    exact (tallies_pool (periodFits h hfits)).exact _ (List.mem_map.mpr ⟨e, he, rfl⟩)
  simp only [paidUp, Function.comp_apply, hexact]

/-- Members with nothing left to pay are those who have paid the dues. -/
theorem members_settled (h : Deployment.Accountable s)
    (hs : (s.namespaces slug).settings = some settings) (hfits : Fits s slug settings period) :
    ((s.control.membersOf slug).countP fun m =>
      (own s slug settings period m).remainingCents = 0) =
        ((s.control.membersOf slug).map (·.email)).countP (paidUp s slug settings period) := by
  rw [List.countP_map]
  refine List.countP_congr fun m _ => ?_
  simp only [paidUp, Function.comp_apply, decide_eq_true_eq]
  rw [own_remaining h hs hfits, paidBy]
  omega

omit [Platform] in
/-- Whoever has paid the dues has a payment. -/
theorem payment_of_paidUp (hdues : 0 < settings.duesAmountCents) {email : String}
    (hpaid : paidUp s slug settings period email = true) :
    ∃ r ∈ (s.namespaces slug).countedFor period, r.row.userEmail = email := by
  by_contra hnone
  have hzero : paidSum (s.namespaces slug).contribution.rows email period = 0 := by
    rw [paidSum_eq, List.filter_eq_nil_iff.mpr fun r hr heq =>
      hnone ⟨r, hr, beq_iff_eq.mp heq⟩]
    rfl
  simp only [paidUp, hzero, decide_eq_true_eq] at hpaid
  omega

/-- With dues set, the pool counts the members who have nothing left to pay. -/
theorem settled (h : Deployment.Accountable s)
    (hs : (s.namespaces slug).settings = some settings) (hfits : Fits s slug settings period)
    (hdues : 0 < settings.duesAmountCents) : (pool s slug settings period).settledCount =
      (s.control.membersOf slug).countP fun m =>
        (own s slug settings period m).remainingCents = 0 := by
  have hsums := (s.namespaces slug).pool_sums period
  have hsame : (((byMember ((s.namespaces slug).poolRows period)).map (·.1)).filter
      (paidUp s slug settings period)).Perm
        (((s.control.membersOf slug).map (·.email)).filter (paidUp s slug settings period)) := by
    refine (List.perm_ext_iff_of_nodup (hsums.nodup.filter _)
      ((Control.nodup_membersOf h.joined slug).filter _)).mpr fun email => ?_
    rw [List.mem_filter, List.mem_filter]
    refine and_congr_left fun hpaid => ?_
    rw [hsums.keys]
    constructor
    · rintro ⟨r, hr, rfl⟩
      exact payers h hr
    · intro _
      exact payment_of_paidUp hdues hpaid
  rw [pool_settled h hfits hdues, members_settled h hs hfits, List.countP_eq_length_filter,
    List.countP_eq_length_filter, hsame.length_eq]

/-- In every reachable state whose totals fit 64 bits, the pool agrees with its members exactly
when no member has paid more than the dues, or none less. -/
theorem agrees_iff {actions : List GatewayAction} {now : DateTime}
    (hs : ((Trace.exec Deployment.step actions (System.empty now)).namespaces slug).settings =
      some settings)
    (hfits : Fits (Trace.exec Deployment.step actions (System.empty now)) slug settings period) :
    Agrees (Trace.exec Deployment.step actions (System.empty now)) slug settings period ↔
      OneSided (Trace.exec Deployment.step actions (System.empty now)) slug settings period := by
  have h := Deployment.accountable_exec actions now
  constructor
  · intro hagrees
    exact (remaining_iff h hs hfits).mp hagrees.remaining
  · intro hside
    refine ⟨?_, (remaining_iff h hs hfits).mpr hside, settled h hs hfits⟩
    rw [pool_paid h hfits]
    exact congrArg List.sum (List.map_congr_left fun m _ => (own_paid h hfits m).symm)

end Runs

/-! ## Two members -/

section Sample

attribute [local instance] Platform.sample

/-- Ann opens her venture, and Bob joins it. -/
def bobJoins (dues : Int) : List GatewayAction :=
  [.auth (.google (.ok ⟨"google:ann@pool.org"⟩)),
    .createTenant (bearer "ann@pool.org" juneNoon)
      (.ok
        { slug := "pool"
          displayName := "Pool"
          timezone := "UTC"
          currency := "USD"
          duesAmountCents := dues }),
    .tenant ⟨"pool", bearer "ann@pool.org" juneNoon,
      .createInvite (.ok ⟨"bob@pool.org", .member⟩)⟩,
    .auth (.google (.ok ⟨"google:bob@pool.org"⟩))]

/-- A member pays. -/
def pays (email : String) (amountCents : Int) : GatewayAction :=
  .tenant ⟨"pool", bearer email juneNoon, .postContribution (.ok { amountCents })⟩

/-- Ann sets the dues. -/
def annSetsDues (dues : Int) : GatewayAction :=
  .tenant ⟨"pool", bearer "ann@pool.org" juneNoon,
    .patchSettings (.ok { duesAmountCents := some dues })⟩

/-- Ann has paid in full and Bob in part. -/
theorem agrees_pool :
    Agrees (Trace.exec Deployment.step (bobJoins 10000 ++
      [pays "ann@pool.org" 10000, pays "bob@pool.org" 4000]) (System.empty juneNoon))
      "pool" (sampleSettings 10000) "2026-06" :=
  (agrees_iff (by decide) ⟨by decide, by decide⟩).mpr (.inl (by decide))

/-- Ann pays in full and then lowers the dues. -/
def duesLowered : System :=
  Trace.exec Deployment.step (bobJoins 10000 ++
    [pays "ann@pool.org" 10000, annSetsDues 5000]) (System.empty juneNoon)

/-- Bob still owes half of what Ann paid, and the pool reports that nothing remains. -/
theorem lowered_dues_disagree :
    (duesLowered.namespaces "pool").settings = some (sampleSettings 5000) ∧
      (pool duesLowered "pool" (sampleSettings 5000) "2026-06").remainingCents = 0 ∧
      ¬ Agrees duesLowered "pool" (sampleSettings 5000) "2026-06" := by
  refine ⟨by decide +kernel, by decide +kernel, ?_⟩
  intro h
  exact absurd h.remaining (by decide +kernel)

end Sample

end PoolAgreement

end SharamLedger
