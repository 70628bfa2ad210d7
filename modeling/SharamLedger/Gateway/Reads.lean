import SharamLedger.Gateway.Routes

/-!
# Handlers that only read

Nine of the handlers under `/api/tenants/{slug}/` issue no writing query: whatever the state, each
of their queries moves it along every reflexive relation.
-/

namespace SharamLedger

open Lib

variable [Platform]

variable {R : System → System → Prop} [Std.Refl R] {α : Type}

/-! ## Shared steps -/

theorem moves_authenticate (headers : Headers) : (authenticate headers).Moves R :=
  .bind (Prog.moves_okOr _ _) fun _ => .bind (Prog.moves_read _) fun _ => Prog.moves_lift _

omit [Platform] [Std.Refl R] in
theorem moves_ledgerRead {onError : LedgerError → HttpError} {p : LedgerProg α} (hp : p.Moves R) :
    (ledgerCall onError p).Moves R :=
  hp.mapErr _

omit [Platform] in
theorem moves_callerRole (email slug : String) : (callerRole email slug).Moves R :=
  .bind (moves_ledgerRead (moves_readControl _)) fun _ => Prog.moves_pure _

omit [Platform] in
theorem moves_callerIsMember (email slug : String) : (callerIsMember email slug).Moves R :=
  .bind (moves_ledgerRead (moves_readControl _)) fun _ => Prog.moves_pure _

omit [Platform] [Std.Refl R] in
theorem moves_ensureOwner (role : Option String) : (ensureOwner role).Moves R := by
  cases role with
  | none => exact Prog.moves_err _
  | some role => exact Prog.moves_ensure _ _

theorem moves_requireOwner (headers : Headers) (slug : String) :
    (requireOwner headers slug).Moves R := by
  refine .bind (moves_authenticate headers) fun _ => ?_
  refine .bind (moves_callerRole _ _) fun role => ?_
  refine .bind (moves_ensureOwner role) fun _ => ?_
  refine .bind (moves_ledgerRead (moves_readControl _)) fun _ => ?_
  exact .bind (Prog.moves_okOr _ _) fun _ => Prog.moves_pure _

/-- The checks of a member's request read only. -/
theorem moves_asMember {headers : Headers} {slug : String}
    {f : Identity → TenantSlug → Bool → Handler α}
    (hf : ∀ identity tenantSlug isMember, (f identity tenantSlug isMember).Moves R) :
    (authenticate headers >>= fun identity => tenantSlugOf slug >>= fun tenantSlug =>
      callerIsMember identity.email slug >>= fun isMember =>
        Prog.ensure isMember notAMember >>= fun _ => f identity tenantSlug isMember).Moves R := by
  refine .bind (moves_authenticate headers) fun _ => ?_
  refine .bind (Prog.moves_lift _) fun _ => ?_
  refine .bind (moves_callerIsMember _ _) fun _ => ?_
  exact .bind (Prog.moves_ensure _ _) fun _ => hf _ _ _

/-- So do the checks that look at the role. -/
theorem moves_withRole {headers : Headers} {slug : String}
    {f : TenantSlug → Option String → Handler α}
    (hf : ∀ tenantSlug role, (f tenantSlug role).Moves R) :
    (authenticate headers >>= fun identity => tenantSlugOf slug >>= fun tenantSlug =>
      callerRole identity.email slug >>= fun role =>
        Prog.ensure role.isSome notAMember >>= fun _ => f tenantSlug role).Moves R := by
  refine .bind (moves_authenticate headers) fun _ => ?_
  refine .bind (Prog.moves_lift _) fun _ => ?_
  refine .bind (moves_callerRole _ _) fun _ => ?_
  exact .bind (Prog.moves_ensure _ _) fun _ => hf _ _

omit [Platform] in
theorem moves_tenantSettings (slug : TenantSlug) : (tenantSettings slug).Moves R :=
  .bind (moves_readTenant _ _) fun _ => Prog.moves_okOr _ _

theorem moves_readCurrentPeriod (settings : TenantSettings) :
    (readCurrentPeriod settings).Moves R :=
  .bind (Prog.moves_read _) fun _ => Prog.moves_lift _

theorem moves_queriedPeriod (period : Option String) (settings : TenantSettings) :
    (queriedPeriod period settings).Moves R := by
  cases period with
  | none => exact moves_readCurrentPeriod settings
  | some text =>
      unfold queriedPeriod
      cases hp : Period.fromStr text with
      | error e => simp [hp]
      | ok p => simp [hp]

omit [Platform] in
theorem moves_periodSummary (slug : TenantSlug) (email period : String) :
    (periodSummary slug email period).Moves R :=
  .bind (moves_tenantSettings slug) fun _ =>
    .bind (moves_readTenant _ _) fun _ => Prog.moves_pure _

omit [Platform] in
theorem moves_listTenantMembers (slug : String) : (listTenantMembers slug).Moves R := by
  refine .bind (moves_readControl _) fun memberships => ?_
  split
  · exact Prog.moves_pure _
  · exact .bind (moves_readControl _) fun _ => Prog.moves_pure _

/-! ## Handlers -/

theorem moves_myContributions (slug : String) (period : Extracted (Option String))
    (headers : Headers) : (myContributions slug period headers).Moves R := by
  refine .bind (Prog.moves_lift _) fun _ => moves_asMember fun _ _ _ => ?_
  refine .bind (moves_ledgerRead (moves_tenantSettings _)) fun _ => ?_
  refine .bind (moves_queriedPeriod _ _) fun _ => ?_
  refine .bind (moves_ledgerRead (moves_readTenant _ _)) fun _ => ?_
  exact .bind (moves_ledgerRead (moves_periodSummary _ _ _)) fun _ => Prog.moves_pure _

theorem moves_poolContributions (slug : String) (period : Extracted (Option String))
    (headers : Headers) : (poolContributions slug period headers).Moves R := by
  refine .bind (Prog.moves_lift _) fun _ => moves_asMember fun _ _ _ => ?_
  refine .bind (moves_ledgerRead (moves_tenantSettings _)) fun _ => ?_
  refine .bind (moves_queriedPeriod _ _) fun _ => ?_
  refine .bind (moves_ledgerRead (moves_readTenant _ _)) fun _ => ?_
  exact .bind (moves_ledgerRead (moves_listTenantMembers _)) fun _ => Prog.moves_pure _

theorem moves_activePeriods (slug : String) (headers : Headers) :
    (activePeriods slug headers).Moves R := by
  refine moves_asMember fun _ _ _ => ?_
  refine .bind (moves_ledgerRead (moves_tenantSettings _)) fun _ => ?_
  refine .bind (moves_readCurrentPeriod _) fun _ => ?_
  exact .bind (moves_ledgerRead (moves_readTenant _ _)) fun _ => Prog.moves_pure _

theorem moves_accumulation (slug : String) (bucket : Extracted (Option String))
    (headers : Headers) : (accumulation slug bucket headers).Moves R := by
  refine .bind (Prog.moves_lift _) fun _ => moves_asMember fun _ _ _ => ?_
  refine .bind (moves_ledgerRead (moves_tenantSettings _)) fun _ => ?_
  refine .bind (moves_ledgerRead (moves_readTenant _ _)) fun _ => ?_
  refine .bind (moves_ledgerRead (moves_readTenant _ _)) fun _ => ?_
  exact .bind (Prog.moves_read _) fun _ => Prog.moves_pure _

theorem moves_getSettings (slug : String) (headers : Headers) :
    (getSettings slug headers).Moves R := by
  refine moves_withRole fun _ _ => ?_
  exact .bind (moves_ledgerRead (moves_tenantSettings _)) fun _ => Prog.moves_read _

theorem moves_listMembers (slug : String) (headers : Headers) :
    (listMembers slug headers).Moves R :=
  moves_asMember fun _ _ _ =>
    .bind (moves_ledgerRead (moves_listTenantMembers _)) fun _ => Prog.moves_pure _

theorem moves_getCarryForwardHandler (slug : String) (headers : Headers) :
    (getCarryForwardHandler slug headers).Moves R :=
  moves_withRole fun _ _ => .bind (moves_ledgerRead (moves_readTenant _ _)) fun _ =>
    Prog.moves_pure _

theorem moves_listInvites (slug : String) (headers : Headers) :
    (listInvites slug headers).Moves R := by
  refine .bind (Prog.moves_lift _) fun _ => ?_
  refine .bind (moves_requireOwner headers slug) fun _ => ?_
  exact .bind (moves_ledgerRead (moves_readControl _)) fun _ => Prog.moves_pure _

theorem moves_getProofUrl (slug : String) (key : Extracted String) (headers : Headers) :
    (getProofUrl slug key headers).Moves R := by
  refine .bind (Prog.moves_lift _) fun _ => ?_
  refine .bind (moves_authenticate headers) fun _ => ?_
  refine .bind (Prog.moves_lift _) fun _ => ?_
  refine .bind (Prog.moves_ensure _ _) fun _ => ?_
  refine .bind (moves_callerIsMember _ _) fun _ => ?_
  refine .bind (Prog.moves_ensure _ _) fun _ => ?_
  refine .bind (Prog.moves_read _) fun _ => ?_
  exact .bind (Prog.moves_lift _) fun _ => Prog.moves_pure _

end SharamLedger
