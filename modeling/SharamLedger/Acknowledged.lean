import SharamLedger.Effects
import SharamLedger.SettledMembers

/-!
# Acknowledged payments

A payment is acknowledged by the response to its request. Over any run the table of a venture holds
exactly the acknowledged payments, and the two lists of payments that members see show exactly
those of the period they are asked for.

That the rows stand in the order of the responses is a fact about the model, whose tables are lists
that `CREATE` appends to. A table of the database has no order, and the lists sort what they read.
-/

namespace SharamLedger

open Lib

namespace Acknowledged

section Runs

variable [Platform]

/-- The payment that the response to an action names, if it is one on the venture. -/
def answered (slug : String) : GatewayAction → System → List ContributionView
  | .tenant ⟨path, headers, .postContribution payload⟩, s =>
      match ((postContribution path headers payload).run s).1 with
      | .ok response => if path = slug then [response.contribution] else []
      | .error _ => []
  | _, _ => []

/-- The payments on the venture that the responses of a run name. -/
def acknowledged (slug : String) : List GatewayAction → System → List ContributionView
  | [], _ => []
  | a :: actions, s => answered slug a s ++ acknowledged slug actions (Deployment.step a s)

/-- The payments of the venture as they are stored. -/
def stored (slug : String) (s : System) : List ContributionView :=
  (s.namespaces slug).contribution.rows.map contributionView

/-- The action is a request for a payment. -/
def IsPayment (a : GatewayAction) : Prop :=
  ∃ path headers payload, a = .tenant ⟨path, headers, .postContribution payload⟩

/-! ## One request -/

theorem answered_of_not {slug : String} {a : GatewayAction} (h : ¬ IsPayment a) (s : System) :
    answered slug a s = [] := by
  unfold answered
  split
  · exact absurd ⟨_, _, _, rfl⟩ h
  · rfl

/-- A payment that is answered is appended as the response names it. -/
theorem postContribution_answers (slug : String) (headers : Headers)
    (payload : Extracted PostContributionRequest) (s : System) :
    (postContribution slug headers payload).StopsOr s fun result s' =>
      ∃ response r ns, result = .ok response ∧ response.contribution = contributionView r ∧
        ns.contribution.rows = (s.namespaces slug).contribution.rows ++ [r] ∧
        s' = s.setNamespace slug ns := by
  unfold postContribution
  refine Prog.stopsOr_bind (Prog.run_lift payload s) fun p hp => ?_
  refine Prog.stopsOr_bind (run_authenticate headers s) fun identity hauth => ?_
  refine Prog.stopsOr_bind (run_tenantSlugOf slug s) fun tenantSlug hslug => ?_
  refine Prog.stopsOr_bind (run_callerIsMember identity.email slug s) fun isMember _ => ?_
  refine Prog.stopsOr_bind (Prog.run_ensure isMember notAMember s) fun _ _ => ?_
  refine Prog.stopsOr_bind (Prog.run_ensure _ _ s) fun _ _ => ?_
  refine Prog.stopsOr_bind (Prog.run_ensure _ _ s) fun _ _ => ?_
  refine Prog.stopsOr_bind (run_settingsFor tenantSlug s) fun settings hsettings => ?_
  refine Prog.stopsOr_bind (run_readCurrentPeriod settings s) fun period _ => ?_
  obtain rfl := tenantSlugOf_ok hslug
  obtain ⟨row, hrow, rfl⟩ := settingsFor_ok hsettings
  cases hadd : (s.namespaces tenantSlug.val).addContribution
      (paymentInput identity row.toTenantSettings period p) s.now with
  | error e =>
      simp only [paymentInput] at hadd
      exact .inl ⟨addContributionError (mapDbError e), by
        simp [addContribution, hadd, Except.mapError]⟩
  | ok answer =>
      obtain ⟨r, ns⟩ := answer
      obtain ⟨-, -, -, -, hcreate, hkept, -⟩ := Namespace.createContribution_ok hadd
      simp only [paymentInput] at hadd
      exact .inr ⟨_, r, ns, by simp [addContribution, hadd, hkept, hrow, Except.mapError]; rfl, rfl,
        (Table.create_some hcreate).2.1, by
          simp [addContribution, hadd, hkept, hrow, Except.mapError]⟩

omit [Platform] in
theorem stored_of_same {slug path : String} {s : System} {ns : Namespace}
    (h : ns.contribution = (s.namespaces path).contribution) :
    stored slug (s.setNamespace path ns) = stored slug s := by
  have hfield := System.field_setNamespace (·.contribution) h slug
  exact congrArg (fun t : Table Contribution => t.rows.map contributionView) hfield

/-- Every other action leaves the payments as they are. -/
theorem stored_of_effect {slug : String} {a : GatewayAction} {s s' : System}
    (h : Deployment.Effect s a s') :
    IsPayment a ∨ stored slug s' = stored slug s := by
  cases h with
  | nothing => exact .inr rfl
  | clock => exact .inr rfl
  | signedIn haddress hsign => exact .inr (by rw [stored, hsign.accepts.namespaces]; rfl)
  | founded hfounded _ =>
      obtain ⟨p, identity, r, tenantSlug, ns, -, -, -, -, -, hsettings, -, hnamespaces⟩ := hfounded
      obtain ⟨-, row, -, -, -, rfl⟩ := Namespace.createSettings_ok hsettings
      right
      rw [stored, hnamespaces]
      exact stored_of_same rfl
  | @paid path headers payload _ _ => exact .inl ⟨path, headers, payload, rfl⟩
  | patched hpatched =>
      obtain ⟨p, identity, row, ns, -, -, -, -, hpatch, rfl⟩ := hpatched
      refine .inr (stored_of_same ?_)
      rcases Namespace.patchSettings_ok hpatch with ⟨-, -, rfl⟩ | ⟨old, -, -, -, rfl⟩
      · rfl
      · rfl
  | seeded hseeded =>
      obtain ⟨p, identity, row, ns, -, -, -, hcreate, rfl⟩ := hseeded
      obtain ⟨-, -, rfl⟩ := Namespace.createCarryForward_ok hcreate
      exact .inr (stored_of_same rfl)
  | invited hinvited =>
      obtain ⟨p, identity, tenantSlug, caller, c, -, -, -, -, -, -, rfl⟩ := hinvited
      exact .inr rfl
  | revoked hrevoked =>
      obtain ⟨answer, c, -, -, rfl⟩ := hrevoked
      exact .inr rfl
  | deleted hdeleted =>
      obtain ⟨rows, c, -, -, rfl⟩ := hdeleted
      exact .inr rfl
  | uploaded hproof =>
      obtain ⟨bytes, identity, ext, -, -, -, -, -, rfl⟩ := hproof
      exact .inr rfl

/-- An action appends the payment that its response names, and no other. -/
theorem stored_step (slug : String) (a : GatewayAction) (s : System) :
    stored slug (Deployment.step a s) = stored slug s ++ answered slug a s := by
  by_cases hpayment : IsPayment a
  · obtain ⟨path, headers, payload, rfl⟩ := hpayment
    have hstep : Deployment.step (.tenant ⟨path, headers, .postContribution payload⟩) s =
        ((postContribution path headers payload).run s).2 := by
      rw [Deployment.step, TenantRequest.respond, TenantRequest.handle, Prog.run_bind_pure]
    rw [hstep]
    rcases postContribution_answers path headers payload s with
      ⟨e, he⟩ | ⟨response, r, ns, hresult, hview, hrows, hstate⟩
    · simp [answered, he]
    · by_cases hslug : path = slug
      · subst hslug
        simp [answered, hresult, hview, hstate, stored, hrows]
      · have hother := s.namespaces_setNamespace_of_ne ns (Ne.symm hslug)
        simp [answered, hresult, hstate, stored, hother, hslug]
  · rw [answered_of_not hpayment, List.append_nil]
    exact (stored_of_effect (Deployment.step_effect a s)).resolve_left hpayment

/-! ## Runs -/

theorem stored_exec (slug : String) (actions : List GatewayAction) (s : System) :
    stored slug (Trace.exec Deployment.step actions s) =
      stored slug s ++ acknowledged slug actions s := by
  induction actions generalizing s with
  | nil => simp [Trace.exec, acknowledged]
  | cons a actions ih => rw [Trace.exec, ih, stored_step, acknowledged, List.append_assoc]

/-- Every acknowledged payment is stored once, as its response named it, and no other payment is
stored. -/
theorem payments_acknowledged (slug : String) (actions : List GatewayAction) (now : DateTime) :
    stored slug (Trace.exec Deployment.step actions (System.empty now)) =
      acknowledged slug actions (System.empty now) :=
  stored_exec slug actions (System.empty now)

omit [Platform] in
/-- Selecting rows and rendering them is selecting rendered rows, up to the order. -/
theorem perm_oldestFirst {t : Table Contribution} {sel : ContributionRecord → Bool}
    {shown : ContributionView → Bool} (h : ∀ r, shown (contributionView r) = sel r) :
    ((oldestFirst (t.select sel)).map contributionView).Perm
      ((t.rows.map contributionView).filter shown) := by
  have hselect : (t.rows.map contributionView).filter shown =
      (t.select sel).map contributionView := by
    rw [List.filter_map, Table.select]
    exact congrArg (List.map contributionView) (List.filter_congr fun r _ => h r)
  rw [hselect]
  exact (List.perm_insertionSort _ _).map contributionView

/-- The period of a query is found without changing anything. -/
theorem queriedPeriod_runs (query : Option String) (settings : TenantSettings) (s : System) :
    ∃ result, (queriedPeriod query settings).run s = (result, s) := by
  cases query with
  | some period => exact ⟨_, run_queriedPeriod period settings s⟩
  | none => exact ⟨_, run_readCurrentPeriod settings s⟩

/-- `my_contributions` reports on a period, whether the query names it or not. -/
theorem myContributions_reports (slug : String) (query : Extracted (Option String))
    (headers : Headers) (s : System) :
    (myContributions slug query headers).StopsOr s fun result _ =>
      ∃ response, result = .ok response ∧
        MyReport slug response.summary.period headers s response := by
  unfold myContributions
  refine Prog.stopsOr_bind (Prog.run_lift _ s) fun text _ => ?_
  refine Prog.stopsOr_bind (run_authenticate headers s) fun identity hauth => ?_
  refine Prog.stopsOr_bind (run_tenantSlugOf slug s) fun tenantSlug hslug => ?_
  refine Prog.stopsOr_bind (run_callerIsMember identity.email slug s) fun isMember _ => ?_
  refine Prog.stopsOr_bind (Prog.run_ensure isMember notAMember s) fun _ _ => ?_
  refine Prog.stopsOr_bind (run_settingsFor tenantSlug s) fun settings hsettings => ?_
  obtain ⟨result, hresult⟩ := queriedPeriod_runs text settings s
  refine Prog.stopsOr_bind hresult fun period _ => ?_
  obtain rfl := tenantSlugOf_ok hslug
  obtain ⟨row, hrow, rfl⟩ := settingsFor_ok hsettings
  let summary := summaryView period row.cadence row.currency (summaryOf
    (s.namespaces tenantSlug.val).contribution.rows row.duesAmountCents identity.email period)
  let list := (oldestFirst ((s.namespaces tenantSlug.val).contribution.select fun r =>
    r.row.userEmail == identity.email && r.row.period == period)).map contributionView
  refine .inr ⟨⟨summary, list⟩, ?_, identity, row, hauth, hrow, rfl, rfl⟩
  simp [listContributions, hrow, summary, list, Except.mapError]

/-- At any moment, the pool's list shows the acknowledged payments of the period it reports on, and
a member's own list those that are the member's, each once. -/
theorem lists_acknowledged (slug : String) (query : Extracted (Option String))
    (headers : Headers) (actions : List GatewayAction) (now : DateTime) :
    (∀ response, ((poolContributions slug query headers).run
        (Trace.exec Deployment.step actions (System.empty now))).1 = .ok response →
      response.contributions.Perm ((acknowledged slug actions (System.empty now)).filter
        fun view => view.period == response.summary.period)) ∧
    ∀ response, ((myContributions slug query headers).run
        (Trace.exec Deployment.step actions (System.empty now))).1 = .ok response →
      ∃ identity, authResult headers
          (Trace.exec Deployment.step actions (System.empty now)).now = .ok identity ∧
        response.contributions.Perm ((acknowledged slug actions (System.empty now)).filter
          fun view => view.userEmail == identity.email &&
            view.period == response.summary.period) := by
  have hstored : stored slug (Trace.exec Deployment.step actions (System.empty now)) =
      acknowledged slug actions (System.empty now) := stored_exec slug actions (System.empty now)
  generalize Trace.exec Deployment.step actions (System.empty now) = s at hstored
  rw [← hstored]
  constructor
  · intro response hresponse
    obtain ⟨period, found, hfound, settings, -, hsummary, hlist⟩ :=
      (SettledMembers.poolContributions_reports slug query headers s).of_ok hresponse
    obtain rfl := Except.ok.inj hfound
    rw [hlist, hsummary]
    exact perm_oldestFirst fun r => rfl
  · intro response hresponse
    obtain ⟨found, hfound, identity, settings, hauth, -, -, hlist⟩ :=
      (myContributions_reports slug query headers s).of_ok hresponse
    obtain rfl := Except.ok.inj hfound
    refine ⟨identity, hauth, ?_⟩
    rw [hlist]
    exact perm_oldestFirst fun r => rfl

end Runs

end Acknowledged

end SharamLedger
