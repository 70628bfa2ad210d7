import SharamLedger.Bookkeeping
import SharamLedger.ManagePage
import SharamLedger.TwoViews

/-!
# The pages of a venture

`GET /api/me/ventures` of `crate/gateway/src/routes/me.rs`, and the pages of `sharam-ui` that
decide from its answer what to show for a venture: `api.rs`, `pages/admin.rs`, `pages/sidenav.rs`
and the loader of `pages/venture.rs`. The gateway decides again on each request that a page sends.
What a stored token and a list of ventures amount to in a reachable state is settled here, for
every token and every slug in the path.
-/

namespace SharamLedger

open Lib

/-! ## `GET /api/me/ventures` -/

structure VentureView where
  slug : String
  displayName : String
  role : String
  createdAt : String
  deriving DecidableEq, Repr

section Handler

variable [Platform]

def ventureView (v : VentureSummary) : VentureView where
  slug := v.slug
  displayName := v.displayName
  role := v.role
  createdAt := Platform.toRfc3339 v.createdAt

/-- `list_my_ventures`. -/
def listMyVentures (headers : Headers) : Handler (List VentureView) := do
  let identity ← authenticate headers
  let ventures ← ledgerCall internalError (listUserVentures identity.email)
  return ventures.map ventureView

end Handler

namespace Pages

/-! ## Requests of the browser -/

inductive ApiError where
  | notSignedIn
  | unauthorized
  | conflict (message : String)
  | badRequest (message : String)
  | other (message : String)
  deriving DecidableEq, Repr

/-- `Display`. -/
def ApiError.message : ApiError → String
  | .notSignedIn => "Not signed in. Please sign in first."
  | .unauthorized => "Your session expired. Please sign in again."
  | .conflict message | .badRequest message | .other message => message

/-- `into_api_error`: by the status of the response. -/
def intoApiError (e : HttpError) : ApiError :=
  match e.status with
  | 401 => .unauthorized
  | 400 => .badRequest e.error
  | 409 => .conflict e.error
  | _ => .other e.error

/-- What runs in the browser, one request after the other. -/
abbrev PageProg := Prog System ApiError

section Runs

/-- `authed`: a request with the stored token. The slug stands in the path as it is; a page sends
such a request for a venture on the list only. -/
def authed {α : Type} (token : Option String) (request : Headers → Handler α) : PageProg α :=
  match token with
  | none => .err .notSignedIn
  | some token => (request ⟨some ("Bearer " ++ token), none⟩).mapErr intoApiError

variable [Platform]

/-! ## The invites page -/

/-- `fetch_owner_context`: the venture of the page, if the caller is an owner of it. -/
def fetchOwnerContext (token : Option String) (slug : String) : PageProg (Option VentureView) := do
  let ventures ← authed token listMyVentures
  return ventures.find? fun v => v.slug == slug && v.role == "owner"

def fetchInvites (token : Option String) (slug : String) : PageProg (List InviteView) :=
  authed token (listInvites slug)

omit [Platform] in
/-- What the page shows. -/
inductive InvitesPage where
  | signIn
  | failed (message : String)
  | forbidden
  | body (displayName : String) (invites : Except ApiError (List InviteView))

/-- `AdminInvites`, once everything has loaded. -/
def adminInvites (token : Option String) (slug : String) : PageProg InvitesPage := do
  let context ← (fetchOwnerContext token slug).attempt
  match context with
  | .error .notSignedIn | .error .unauthorized => return .signIn
  | .error e => return .failed e.message
  | .ok none => return .forbidden
  | .ok (some v) =>
      let invites ← (fetchInvites token slug).attempt
      return .body v.displayName invites

/-- `revoke_invite`, behind a button of the page. -/
def revokeInvite (token : Option String) (slug key : String) : PageProg Unit := do
  let _ ← authed token (revokeInviteHandler slug key)
  return ()

/-- `delete_invite_permanent`, behind the other one. -/
def deleteInvitePermanent (token : Option String) (slug key : String) : PageProg Unit :=
  authed token (SharamLedger.deleteInvitePermanent slug key)

omit [Platform] in
/-- `InviteRow` has a button to revoke the invite. -/
def showsRevoke (v : InviteView) : Bool := v.status == "pending"

omit [Platform] in
/-- `InviteRow` has a button to delete the invite. -/
def showsDelete (v : InviteView) : Bool := v.status == "pending" || v.status == "revoked"

/-! ## The venture pages -/

omit [Platform] in
/-- `VentureDetail`, less the placeholders for what no endpoint serves yet. -/
structure VentureDetail where
  slug : String
  displayName : String
  role : String
  purpose : Option String
  cadence : String
  currency : String
  timezone : String
  duesAmountCents : Int
  currentPeriod : String
  memberCount : Nat
  createdAt : String
  members : List MemberView
  deriving DecidableEq, Repr

omit [Platform] in
/-- Put together from the three answers. -/
def ventureDetail (row : VentureView) (s : SettingsView) (members : List MemberView) :
    VentureDetail where
  slug := row.slug
  displayName := s.displayName
  role := row.role
  purpose := s.purpose
  cadence := s.cadence
  currency := s.currency
  timezone := s.timezone
  duesAmountCents := s.duesAmountCents
  currentPeriod := s.currentPeriod
  memberCount := members.length
  createdAt := row.createdAt
  members := members

/-- `fetch_venture`: three requests, one after the other. -/
def fetchVenture (token : Option String) (slug : String) : PageProg VentureDetail := do
  let ventures ← authed token listMyVentures
  let row ← .okOr (.other "venture not found in your memberships")
    (ventures.find? fun v => v.slug == slug)
  let s ← authed token (getSettings slug)
  let members ← authed token (listMembers slug)
  return ventureDetail row s members

omit [Platform] in
/-- What a venture page shows. -/
inductive VenturePage where
  | signIn
  | failed (message : String)
  | notAdmin (slug : String)
  | body (venture : VentureDetail)

omit [Platform] in
/-- Owners and treasurers are shown the links and the page of an administrator. -/
def isAdmin (role : String) : Bool := role == "owner" || role == "treasurer"

/-- `OverviewPage` and `ContributePage`. -/
def overviewPage (token : Option String) (slug : String) : PageProg VenturePage := do
  let venture ← (fetchVenture token slug).attempt
  match venture with
  | .error .notSignedIn | .error .unauthorized => return .signIn
  | .error e => return .failed e.message
  | .ok v => return .body v

/-- `ManagePage`. -/
def managePage (token : Option String) (slug : String) : PageProg VenturePage := do
  let venture ← (fetchVenture token slug).attempt
  match venture with
  | .error .notSignedIn | .error .unauthorized => return .signIn
  | .error e => return .failed e.message
  | .ok v => return if isAdmin v.role then .body v else .notAdmin v.slug

/-- `save_settings`, behind the button of the manage page. -/
def saveSettings (rejection : HttpError) (token : Option String) (slug : String)
    (req : UpdateSettingsRequest) : PageProg Unit := do
  let _ ← authed token fun headers => patchSettings slug headers (req.body rejection)
  return ()

/-! ## The side navigation -/

omit [Platform] in
/-- `VentureCtx`, once the list has loaded. -/
structure VentureCtx where
  selected : Option String
  ventures : List VentureView
  error : Option ApiError

omit [Platform] in
/-- A stored selection that is not on the list gives way to the first venture. -/
def validSelection (selected : Option String) (list : List VentureView) : Option String :=
  let stillValid := match selected with
    | some s => list.any fun v => v.slug == s
    | none => false
  if stillValid then selected else list.head?.map (·.slug)

/-- `Sidenav` loads the list of ventures under the stored selection. -/
def sidenav (token : Option String) (stored : Option String) : PageProg VentureCtx := do
  let ventures ← (authed token listMyVentures).attempt
  match ventures with
  | .error e => return { selected := stored, ventures := [], error := some e }
  | .ok list =>
      return { selected := validSelection stored list, ventures := list, error := none }

omit [Platform] in
/-- The venture that is selected, if it is on the list. -/
def VentureCtx.active (ctx : VentureCtx) : Option VentureView :=
  ctx.selected.bind fun s => ctx.ventures.find? fun v => v.slug == s

omit [Platform] in
/-- The links of `VentureNav`. -/
inductive NavItem where
  | overview
  | contribute
  | manage
  | invites
  deriving DecidableEq, Repr

omit [Platform] in
/-- `VentureNav`. -/
def ventureNav (ctx : VentureCtx) : List NavItem :=
  match ctx.active with
  | none => []
  | some v =>
      if isAdmin v.role then [.overview, .contribute, .manage, .invites]
      else [.overview, .contribute]

/-! ## The caller of a page -/

/-- The identity that a stored token stands for at an instant. -/
def session (token : Option String) (now : DateTime) : Option Identity :=
  token.bind fun token => (verifySession now token).toOption

/-- The headers of a request with the token. -/
def tokenHeaders (token : String) : Headers := ⟨some ("Bearer " ++ token), none⟩

variable {token : Option String} {slug : String} {s : System} {identity : Identity}

theorem authResult_tokenHeaders (token : String) (now : DateTime) :
    authResult (tokenHeaders token) now =
      (verifySession now token).mapError fun e => ⟨401, e⟩ := by
  have hbearer : extractBearer (tokenHeaders token) = some token := by
    simp [extractBearer, tokenHeaders, Text.stripPrefix, Text.startsWith]
  rw [authResult, hbearer]

/-- With a session, there is a token, and the gateway accepts it. -/
theorem of_session (h : session token s.now = some identity) :
    ∃ text, token = some text ∧ authResult (tokenHeaders text) s.now = .ok identity := by
  obtain ⟨text, htoken, hverify⟩ := Option.bind_eq_some_iff.mp h
  refine ⟨text, htoken, ?_⟩
  rw [authResult_tokenHeaders]
  cases hresult : verifySession s.now text with
  | error e =>
      rw [hresult] at hverify
      cases hverify
  | ok found =>
      rw [hresult] at hverify
      obtain rfl := Option.some.inj hverify
      rfl

omit [Platform] in
/-- A request of somebody who is signed in. -/
theorem run_authed {α : Type} (text : String) (request : Headers → Handler α) (s : System) :
    (authed (some text) request).run s =
      ((((request (tokenHeaders text)).run s).1.mapError intoApiError),
        ((request (tokenHeaders text)).run s).2) :=
  Prog.run_mapErr intoApiError _ s

/-- Without a session, a page that starts with the list of ventures gets no further. -/
theorem ventures_signedOut (h : session token s.now = none) :
    (authed token listMyVentures).run s = (.error .notSignedIn, s) ∨
      (authed token listMyVentures).run s = (.error .unauthorized, s) := by
  cases token with
  | none => exact .inl rfl
  | some text =>
      right
      cases hverify : verifySession s.now text with
      | ok found =>
          rw [session, Option.bind_some, hverify] at h
          cases h
      | error e =>
          have hauth : authResult (tokenHeaders text) s.now = .error ⟨401, e⟩ := by
            rw [authResult_tokenHeaders, hverify]
            rfl
          simp [run_authed, listMyVentures, hauth, Except.mapError, intoApiError]

/-- With one, it gets the ventures of the address. -/
theorem ventures_signedIn (h : session token s.now = some identity) :
    (authed token listMyVentures).run s =
      (.ok ((s.control.venturesOf identity.email).map ventureView), s) := by
  obtain ⟨text, rfl, hauth⟩ := of_session h
  simp [run_authed, listMyVentures, hauth, Except.mapError]

/-! ## Tenants have settings -/

omit [Platform] in
/-- A registered tenant has a slug that requests may name, and settings. -/
def Furnished (s : System) : Prop :=
  ∀ d ∈ s.control.tenantDirectory.rows, isValidSlug d.row.slug = true ∧
    ∃ row, (s.namespaces d.row.slug).settings = some row

omit [Platform] in
theorem furnished_of_settings {s' : System}
    (hdirectory : s'.control.tenantDirectory = s.control.tenantDirectory)
    (hsettings : ∀ slug row, (s.namespaces slug).settings = some row →
      ∃ row', (s'.namespaces slug).settings = some row') (h : Furnished s) : Furnished s' := by
  intro d hd
  rw [hdirectory] at hd
  obtain ⟨hvalid, row, hrow⟩ := h d hd
  exact ⟨hvalid, hsettings d.row.slug row hrow⟩

/-- Settings are stored before the tenant is registered. -/
theorem furnished_founded {headers : Headers} {payload : Extracted CreateTenantRequest}
    {s' : System} (hfounded : TenantFounded headers payload s s') (h : Furnished s) :
    Furnished s' := by
  obtain ⟨p, identity, r, slug, ns, -, -, -, -, hfree, hsettings, hregisters, hnamespaces⟩ :=
    hfounded
  obtain ⟨-, -, stored, hstored, rfl⟩ := Namespace.createSettings_creates hsettings
  have hnew : (s'.namespaces slug.val).settings = some stored := by
    rw [hnamespaces, System.namespaces_setNamespace_same]
  have hold : ∀ d ∈ s.control.tenantDirectory.rows, isValidSlug d.row.slug = true ∧
      ∃ row, (s'.namespaces d.row.slug).settings = some row := by
    intro d hd
    obtain ⟨hvalid, row, hrow⟩ := h d hd
    refine ⟨hvalid, ?_⟩
    by_cases hslug : d.row.slug = slug.val
    · exact ⟨stored, by rw [hslug, hnew]⟩
    · exact ⟨row, by rw [hnamespaces, System.namespaces_setNamespace_of_ne _ _ hslug, hrow]⟩
  intro d hd
  rcases hregisters with ⟨-, hsame⟩ | hregister
  · rw [hsame] at hd
    exact hold d hd
  · obtain ⟨d', -, hd', -, hdirectory, -⟩ := Control.registerTenant_rows hregister
    rcases (hdirectory d).mp hd with hd | rfl
    · exact hold d hd
    · have hslug : d.row.slug = slug.val := congrArg TenantDirectory.slug hd'
      rw [hslug]
      exact ⟨slug.valid, stored, hnew⟩

theorem furnished_step (a : GatewayAction) (s : System) (h : Furnished s) :
    Furnished (Deployment.step a s) := by
  cases a with
  | clock now => exact h
  | auth request =>
      rcases handleAuth_spec request s with ⟨e, he⟩ | ⟨email, r, c, -, hsign⟩
      · rw [Deployment.step, he]
        exact h
      · refine furnished_of_settings (hsign.accepts.directory.trans hsign.put.directory)
          (fun slug row hrow => ⟨row, ?_⟩) h
        rw [Deployment.step, hsign.accepts.namespaces]
        exact hrow
  | createTenant headers payload =>
      rcases createTenantHandler_spec headers payload s with ⟨e, he⟩ | hfounded
      · rw [Deployment.step, he]
        exact h
      · exact furnished_founded hfounded h
  | tenant request =>
      refine furnished_of_settings (respond_confined request s).directory
        (fun slug row hrow => ?_) h
      rcases Deployment.settings_moved (.tenant request) s slug with hsame | ⟨row', hrow', -⟩
      · exact ⟨row, hsame.trans hrow⟩
      · exact ⟨row', hrow'⟩

/-- What the pages rely on in a reachable state. -/
structure Reachable (s : System) : Prop where
  booked : Bookkeeping.Booked s
  accountable : Deployment.Accountable s
  furnished : Furnished s

theorem reachable_step (a : GatewayAction) (h : Reachable s) :
    Reachable (Deployment.step a s) where
  booked := Bookkeeping.booked_step a s h.booked
  accountable := Deployment.accountable_step a s h.accountable
  furnished := furnished_step a s h.furnished

theorem reachable_exec (actions : List GatewayAction) (now : DateTime) :
    Reachable (Trace.exec Deployment.step actions (System.empty now)) where
  booked := Trace.exec_invariant Bookkeeping.booked_step actions (Bookkeeping.booked_empty now)
  accountable := Deployment.accountable_exec actions now
  furnished := Trace.exec_invariant furnished_step actions fun _ hd => by cases hd

/-! ## The list of ventures -/

/-- A venture is listed with the role that the caller has in it. -/
theorem role_of_listed (h : s.control.Refers) {email : String} {v : VentureSummary}
    (hv : v ∈ s.control.venturesOf email) : s.control.roleFor email v.slug = some v.role := by
  obtain ⟨u, hu, hemail, m, hm, huser, d, -, -, rfl⟩ :=
    (TwoViews.dashboard h.members email).sound v hv
  rw [Control.roleFor_eq, Control.userByEmail_eq_some.mpr ⟨hu, hemail⟩]
  exact Control.roleOf_eq_some.mpr ⟨m, hm, huser, rfl, rfl⟩

/-- Whoever has a role finds the venture on the list, with its name in the directory. -/
theorem listed_of_role (h : s.control.Refers) {email role : String}
    (hrole : s.control.roleFor email slug = some role) :
    ∃ v ∈ s.control.venturesOf email, v.slug = slug ∧ v.role = role ∧
      ∃ d ∈ s.control.tenantDirectory.rows, d.row.slug = slug ∧
        d.row.displayName = v.displayName := by
  rw [Control.roleFor_eq] at hrole
  obtain ⟨u, huser, hrole⟩ := Option.bind_eq_some_iff.mp hrole
  obtain ⟨hu, hemail⟩ := Control.userByEmail_eq_some.mp huser
  obtain ⟨m, hm, hid, rfl, rfl⟩ := Control.roleOf_eq_some.mp hrole
  obtain ⟨d, hd, hslug, hlisted⟩ :=
    (TwoViews.dashboard h.members email).complete u hu hemail m hm hid
  exact ⟨TwoViews.venture m d, hlisted, rfl, rfl, d, hd, hslug, rfl⟩

/-- A search of the list by slug and role. -/
theorem find_listed (h : s.control.Refers) (email slug : String) (p : String → Bool) :
    ((∀ role, s.control.roleFor email slug = some role → p role = false) ∧
      ((s.control.venturesOf email).map ventureView).find?
        (fun v => v.slug == slug && p v.role) = none) ∨
    ∃ v ∈ s.control.venturesOf email, v.slug = slug ∧ p v.role = true ∧
      s.control.roleFor email slug = some v.role ∧
      (∃ d ∈ s.control.tenantDirectory.rows, d.row.slug = slug ∧
        d.row.displayName = v.displayName) ∧
      ((s.control.venturesOf email).map ventureView).find?
        (fun v => v.slug == slug && p v.role) = some (ventureView v) := by
  rw [List.find?_map]
  cases hfind : (s.control.venturesOf email).find?
      ((fun v : VentureView => v.slug == slug && p v.role) ∘ ventureView) with
  | none =>
      left
      refine ⟨fun role hrole => ?_, rfl⟩
      obtain ⟨v, hv, hslug, rfl, -⟩ := listed_of_role h hrole
      have hskipped := List.find?_eq_none.mp hfind v hv
      simpa [ventureView, hslug] using hskipped
  | some v =>
      right
      have hv := List.mem_of_find?_eq_some hfind
      have hsel := List.find?_some hfind
      simp only [Function.comp_apply, Bool.and_eq_true, beq_iff_eq] at hsel
      obtain ⟨hslug, hp⟩ := hsel
      have hslug : v.slug = slug := hslug
      have hrole : s.control.roleFor email slug = some v.role := by
        rw [← hslug]
        exact role_of_listed h hv
      -- one slug has one line
      obtain ⟨w, hw, hwslug, -, hd⟩ := listed_of_role h hrole
      obtain rfl : w = v := List.inj_on_of_nodup_map (TwoViews.dashboard h.members email).once
        hw hv (hwslug.trans hslug.symm)
      exact ⟨w, hv, hslug, hp, hrole, hd, rfl⟩
/-- The gateway takes the slug of a venture that somebody has a role in. -/
theorem slug_of_role (h : Reachable s) {email role : String}
    (hrole : s.control.roleFor email slug = some role) :
    ∃ tenantSlug : TenantSlug, tenantSlug.val = slug ∧
      TenantSlug.new slug = .ok tenantSlug := by
  obtain ⟨-, -, -, -, d, hd, hslug, -⟩ := listed_of_role h.booked.refers hrole
  obtain ⟨hvalid, -⟩ := h.furnished d hd
  exact ⟨⟨slug, hslug ▸ hvalid⟩, rfl, dif_pos (hslug ▸ hvalid)⟩

end Runs

end Pages

end SharamLedger
