import SharamLedger.Gateway.Settings
import SharamLedger.Gateway.Invites
import SharamLedger.Gateway.Proofs

/-!
# The routes of one tenant

Every request under `/api/tenants/{slug}/`, and the response it gets. A request carries its
headers, what the extractors made of its body or query, and the random values the server draws
while it answers.
-/

namespace SharamLedger

open Lib

/-- A route under `/api/tenants/{slug}/`. -/
inductive TenantRoute where
  | postContribution (payload : Extracted PostContributionRequest)
  | myContributions (period : Extracted (Option String))
  | poolContributions (period : Extracted (Option String))
  | activePeriods
  | accumulation (bucket : Extracted (Option String))
  | getSettings
  | patchSettings (payload : Extracted PatchSettingsRequest)
  | createInvite (payload : Extracted CreateInviteRequest)
  | listInvites
  | revokeInvite (key : String)
  | deleteInvitePermanent (key : String)
  | listMembers
  | getCarryForward
  | setCarryForward (payload : Extracted SetCarryForwardRequest)
  | postProof (uuid : String) (body : Extracted (List UInt8))
  | getProofUrl (key : Extracted String)

/-- The body of a successful response. -/
inductive TenantReply where
  | posted (response : PostContributionResponse)
  | contributions (response : ListContributionsResponse)
  | pool (response : PoolResponse)
  | periods (response : PeriodsResponse)
  | accumulation (response : AccumulationResponse)
  | settings (response : SettingsView)
  | invite (response : InviteView)
  | invites (response : List InviteView)
  | deleted
  | members (response : List MemberView)
  | carryForward (response : Option CarryForwardView)
  | seeded (response : CarryForwardView)
  | proof (response : PostProofResponse)
  | proofUrl (response : GetProofUrlResponse)
  deriving DecidableEq, Repr

/-- A request on the tenant `slug`. -/
structure TenantRequest where
  slug : String
  headers : Headers
  route : TenantRoute

variable [Platform]

/-- The handler a request is routed to. -/
def TenantRequest.handle (r : TenantRequest) : Handler TenantReply :=
  match r.route with
  | .postContribution payload => return .posted (← postContribution r.slug r.headers payload)
  | .myContributions period => return .contributions (← myContributions r.slug period r.headers)
  | .poolContributions period => return .pool (← poolContributions r.slug period r.headers)
  | .activePeriods => return .periods (← activePeriods r.slug r.headers)
  | .accumulation bucket => return .accumulation (← accumulation r.slug bucket r.headers)
  | .getSettings => return .settings (← getSettings r.slug r.headers)
  | .patchSettings payload => return .settings (← patchSettings r.slug r.headers payload)
  | .createInvite payload => return .invite (← createInviteHandler r.slug r.headers payload)
  | .listInvites => return .invites (← listInvites r.slug r.headers)
  | .revokeInvite key => return .invite (← revokeInviteHandler r.slug key r.headers)
  | .deleteInvitePermanent key => do
      deleteInvitePermanent r.slug key r.headers
      return .deleted
  | .listMembers => return .members (← listMembers r.slug r.headers)
  | .getCarryForward => return .carryForward (← getCarryForwardHandler r.slug r.headers)
  | .setCarryForward payload => return .seeded (← setCarryForwardHandler r.slug r.headers payload)
  | .postProof uuid body => return .proof (← postProof r.slug uuid r.headers body)
  | .getProofUrl key => return .proofUrl (← getProofUrl r.slug key r.headers)

/-- The response to a request and the state after it. -/
def TenantRequest.respond (r : TenantRequest) (s : System) :
    Except HttpError TenantReply × System :=
  r.handle.run s

end SharamLedger
