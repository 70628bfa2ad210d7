import SharamLedger.PoolAgreement

/-!
# Who counts as settled

The payments of a tenant are in its own namespace and its members in the control plane. In every
reachable state each payment is one member's, so that no more addresses count as settled than there
are members.
-/

namespace SharamLedger

open Lib

namespace SettledMembers

/-- The membership is one of the address in the tenant. -/
def MemberAs (c : Control) (email slug : String) (m : MembershipRecord) : Prop :=
  m ∈ c.membership.rows ∧ m.row.tenantSlug = slug ∧
    ∃ u ∈ c.user.rows, u.id = m.row.user ∧ u.row.email = email

section Runs

variable [Platform]

/-- Every payment belongs to one member, who is listed once, and what `pool_contributions` reports
as settled is within the number of members, for every period and whatever the dues. -/
structure Bounded (s : System) (slug : String) : Prop where
  member : ∀ r ∈ (s.namespaces slug).contribution.rows,
    ∃! m, MemberAs s.control r.row.userEmail slug m
  listed : ∀ r ∈ (s.namespaces slug).contribution.rows,
    (s.control.membersOf slug).countP (fun m => m.email == r.row.userEmail) = 1
  summaries : ∀ (settings : TenantSettings) period,
    (poolSummary period settings ((s.namespaces slug).poolRows period)
      (s.control.membersOf slug)).settledCount ≤ (s.control.membersOf slug).length
  reports : ∀ headers query response,
    ((poolContributions slug query headers).run s).1 = .ok response →
      response.summary.settledCount ≤ response.summary.memberCount

variable {s : System} {slug : String}

omit [Platform] in
theorem member_unique {c : Control} {email : String} (h : c.HasMembership email slug) :
    ∃! m, MemberAs c email slug m := by
  obtain ⟨u, hu, hemail, m, hm, huser, hslug⟩ := h
  refine ⟨m, ⟨hm, hslug, u, hu, huser.symm, hemail⟩, fun m' hm' => ?_⟩
  obtain ⟨hm', hslug', u', hu', huser', hemail'⟩ := hm'
  -- one address, one user; one user and one slug, one membership
  obtain rfl := Control.user_eq hu' hu (hemail'.trans hemail.symm)
  exact Control.membership_eq hm' hm (huser'.symm.trans huser.symm) (hslug'.trans hslug.symm)

omit [Platform] in
theorem listed_once (h : s.control.Joined) {email : String}
    (hmember : s.control.HasMembership email slug) :
    (s.control.membersOf slug).countP (fun m => m.email == email) = 1 := by
  have hcount : ((s.control.membersOf slug).map (·.email)).count email = 1 :=
    List.count_eq_one_of_mem (Control.nodup_membersOf h slug)
      ((Control.mem_membersOf h).mpr hmember)
  rw [List.count, List.countP_map] at hcount
  exact hcount

/-- Whoever has a payment in the period is a member, so there are no more of them. -/
theorem payers_le (h : Deployment.Accountable s) (period : String) :
    (byMember ((s.namespaces slug).poolRows period)).length ≤
      (s.control.membersOf slug).length := by
  have hsums := (s.namespaces slug).pool_sums period
  have hsub : (byMember ((s.namespaces slug).poolRows period)).map (·.1) ⊆
      (s.control.membersOf slug).map (·.email) := by
    intro email hemail
    obtain ⟨r, hr, rfl⟩ := (hsums.keys email).mp hemail
    exact PoolAgreement.payers h hr
  simpa using (List.subperm_of_subset hsums.nodup hsub).length_le

theorem settled_le (h : Deployment.Accountable s) (settings : TenantSettings) (period : String) :
    (poolSummary period settings ((s.namespaces slug).poolRows period)
      (s.control.membersOf slug)).settledCount ≤ (s.control.membersOf slug).length := by
  have hcount : ∀ p : Int → Bool,
      ((byMember ((s.namespaces slug).poolRows period)).map (·.2)).countP p ≤
        (s.control.membersOf slug).length := by
    intro p
    refine List.countP_le_length.trans ?_
    rw [List.length_map]
    exact payers_le h period
  unfold poolSummary
  dsimp only
  split
  · exact hcount _
  · exact hcount _

/-- `pool_contributions` reports on a period, whether the query names it or not. -/
theorem poolContributions_reports (slug : String) (query : Extracted (Option String))
    (headers : Headers) (s : System) :
    (poolContributions slug query headers).StopsOr s fun result _ =>
      ∃ period response, result = .ok response ∧ PoolReport slug period s response := by
  cases query with
  | error e => exact .inl ⟨_, rfl⟩
  | ok text =>
      cases text with
      | some period =>
          refine (poolContributions_spec slug period headers s).imp fun result s' h => ?_
          obtain ⟨-, response, hresult, hreport⟩ := h
          exact ⟨period, response, hresult, hreport⟩
      | none =>
          unfold poolContributions
          refine Prog.stopsOr_bind (Prog.run_lift _ s) fun query hquery => ?_
          refine Prog.stopsOr_bind (run_authenticate headers s) fun identity _ => ?_
          refine Prog.stopsOr_bind (run_tenantSlugOf slug s) fun tenantSlug hslug => ?_
          refine Prog.stopsOr_bind (run_callerIsMember identity.email slug s) fun isMember _ => ?_
          refine Prog.stopsOr_bind (Prog.run_ensure isMember notAMember s) fun _ _ => ?_
          refine Prog.stopsOr_bind (run_settingsFor tenantSlug s) fun settings hsettings => ?_
          obtain rfl := Except.ok.inj hquery
          refine Prog.stopsOr_bind (run_readCurrentPeriod settings s) fun period _ => ?_
          obtain rfl := tenantSlugOf_ok hslug
          obtain ⟨stored, hstored, rfl⟩ := settingsFor_ok hsettings
          refine .inr ⟨period, { summary := _, contributions := _ }, ?_, stored, hstored, rfl, rfl⟩
          simp [listPoolContributions, poolSummary, Except.mapError]

/-- Every reachable state, for every tenant. -/
theorem bounded_exec (actions : List GatewayAction) (now : DateTime) (slug : String) :
    Bounded (Trace.exec Deployment.step actions (System.empty now)) slug := by
  have h := Deployment.accountable_exec actions now
  generalize Trace.exec Deployment.step actions (System.empty now) = s at h
  refine ⟨fun r hr => member_unique (h.contributors slug r hr),
    fun r hr => listed_once h.joined (h.contributors slug r hr), settled_le h,
    fun headers query response hresponse => ?_⟩
  obtain ⟨period, r, hr, hreport⟩ :=
    (poolContributions_reports slug query headers s).of_ok hresponse
  obtain rfl := Except.ok.inj hr
  obtain ⟨settings, -, hsummary, -⟩ := hreport
  rw [hsummary]
  exact settled_le h settings.toTenantSettings period

end Runs

end SettledMembers

end SharamLedger
