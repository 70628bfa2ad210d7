import SharamLedger.Bookkeeping
import SharamLedger.Takeover

/-!
# Sessions

A sign-in answers with a token for its address, and the token passes for seven days of the clock.
When no request carries a token that no sign-in answered, whoever acts as an address has signed in
as it within the last seven days.
-/

namespace SharamLedger

open Lib

namespace Sessions

section Runs

variable [Platform]

/-! ## How long a token passes -/

/-- A token passes for the user who signed in, up to the last second of the session. Later, whoever
shows it is refused by every route of every venture, and nothing changes. -/
theorem session_window {request : AuthRequest} {s : System} {response : AuthResponse}
    (hanswer : ((handleAuth request).run s).1 = .ok response)
    (hdecodes : Decodes)
    {headers : Headers} (hbearer : extractBearer headers = some response.token) (x : System) :
    (timestamp x.now ≤ lastSecond s.now →
      authResult headers x.now = .ok (identityOf response.user)) ∧
    (lastSecond s.now < timestamp x.now →
      (∀ r : TenantRequest, r.headers = headers → ∃ e, r.respond x = (.error e, x)) ∧
      ∀ payload, ∃ e, (createTenantHandler headers payload).run x = (.error e, x)) := by
  have hclaims := hdecodes _ _ (handleAuth_signed request s response hanswer)
  have hauth : authResult headers x.now = if lastSecond s.now < timestamp x.now
      then .error ⟨401, invalidSession "session expired"⟩
      else .ok (identityOf response.user) := by
    unfold authResult
    rw [hbearer]
    simp only [verifySession_of_decoded hclaims]
    split <;> rfl
  constructor
  · intro hopen
    rw [hauth, if_neg (not_lt.mpr hopen)]
  · intro hover
    rw [if_pos hover] at hauth
    constructor
    · intro r hr
      rcases handle_gated r x with ⟨e, he⟩ | ⟨identity, hmember, -⟩
      · exact ⟨e, he x rfl⟩
      · rw [hr, hauth] at hmember
        cases hmember
    · intro payload
      rcases createTenantHandler_spec headers payload x with hfails | hfounded
      · exact hfails
      · obtain ⟨p, identity, r, slug, ns, -, hpassed, -⟩ := hfounded
        rw [hauth] at hpassed
        cases hpassed

/-! ## Who acts -/

/-- The headers of a request that a bearer token is read from. -/
def headersOf : GatewayAction → Option Headers
  | .createTenant headers _ => some headers
  | .tenant request => some request.headers
  | .clock _ | .auth _ => none

/-- The bearer token of a request. -/
def tokenOf (a : GatewayAction) : Option String := (headersOf a).bind extractBearer

/-- The tokens that the answer to an action hands out. -/
def handsOut : GatewayAction → System → List String
  | .auth request, s =>
      match ((handleAuth request).run s).1 with
      | .ok response => [response.token]
      | .error _ => []
  | _, _ => []

/-- Signatures are not forged. A request may carry any text, and a token whose signature is genuine
was handed out before, in the run or among those of `issued`. -/
def Unforged : List String → List GatewayAction → System → Prop
  | _, [], _ => True
  | issued, a :: actions, s =>
      (∀ token ∈ tokenOf a, (Platform.decodeSession token).isOk = true → token ∈ issued) ∧
      Unforged (issued ++ handsOut a s) actions (Deployment.step a s)

instance decidableUnforged : (issued : List String) → (actions : List GatewayAction) →
    (s : System) → Decidable (Unforged issued actions s)
  | _, [], _ => inferInstanceAs (Decidable True)
  | issued, a :: actions, s =>
      have := decidableUnforged (issued ++ handsOut a s) actions (Deployment.step a s)
      inferInstanceAs (Decidable (_ ∧ _))

/-- Earlier in the run a sign-in was answered with the token. -/
def HandedOut (actions : List GatewayAction) (s : System) (token : String) (a : GatewayAction)
    (x : System) (request : AuthRequest) (y : System) (response : AuthResponse) : Prop :=
  Trace.TakesThen Deployment.step actions s (.auth request) y a x ∧
    ((handleAuth request).run y).1 = .ok response ∧ response.token = token

theorem handedOut_of_unforged {issued : List String} {actions : List GatewayAction} {s : System}
    (hrun : Unforged issued actions s) {a : GatewayAction} {x : System}
    (htakes : Trace.Takes Deployment.step actions s a x) {token : String}
    (htoken : token ∈ tokenOf a) (hgenuine : (Platform.decodeSession token).isOk = true) :
    token ∈ issued ∨ ∃ request y response, HandedOut actions s token a x request y response := by
  obtain ⟨earlier, later, rfl, hx⟩ := htakes
  induction earlier generalizing issued s with
  | nil => exact .inl (hrun.1 token htoken hgenuine)
  | cons b earlier ih =>
      rcases ih hx hrun.2 with hissued | ⟨request, y, response, hthen, hanswer⟩
      · rcases List.mem_append.mp hissued with hissued | hnew
        · exact .inl hissued
        · -- the token is that of the first action, which is a sign-in
          unfold handsOut at hnew
          split at hnew
          · next request =>
              split at hnew
              · next response hresponse =>
                  exact .inr ⟨request, s, response, ⟨[], earlier, later, rfl, rfl, hx⟩, hresponse,
                    (List.mem_singleton.mp hnew).symm⟩
              · cases hnew
          · cases hnew
      · obtain ⟨first, middle, last, hsplit, hy, hmiddle⟩ := hthen
        have hcons : b :: earlier ++ a :: later =
            b :: first ++ .auth request :: (middle ++ a :: last) :=
          congrArg (List.cons b) hsplit
        exact .inr ⟨request, y, response, ⟨b :: first, middle, last, hcons, hy, hmiddle⟩, hanswer⟩

/-- Earlier in the run, at most seven days before, the address has signed in and got the token. -/
def SignedInWith (actions : List GatewayAction) (s : System) (token email : String)
    (a : GatewayAction) (x : System) : Prop :=
  ∃ request y response, HandedOut actions s token a x request y response ∧
    response.user.email = email ∧ timestamp x.now ≤ lastSecond y.now

/-- Earlier in the run, at most seven days before, the address has signed in and got a session. -/
def SignedInBefore (actions : List GatewayAction) (s : System) (email : String)
    (a : GatewayAction) (x : System) : Prop :=
  ∃ request y response, Trace.TakesThen Deployment.step actions s (.auth request) y a x ∧
    ((handleAuth request).run y).1 = .ok response ∧ response.user.email = email ∧
    timestamp x.now ≤ lastSecond y.now

theorem SignedInWith.before {actions : List GatewayAction} {s : System} {token email : String}
    {a : GatewayAction} {x : System} (h : SignedInWith actions s token email a x) :
    SignedInBefore actions s email a x := by
  obtain ⟨request, y, response, ⟨hthen, hanswer, -⟩, hemail, hopen⟩ := h
  exact ⟨request, y, response, hthen, hanswer, hemail, hopen⟩

/-- Whoever is authenticated as an address has signed in as it within the last seven days, and shows
the token of that sign-in. -/
theorem signedIn_of_authenticated
    (hdecodes : Decodes)
    {actions : List GatewayAction} {s : System} (hrun : Unforged [] actions s) {a : GatewayAction}
    {x : System} (htakes : Trace.Takes Deployment.step actions s a x) {headers : Headers}
    {identity : Identity} (hheaders : headersOf a = some headers)
    (hauth : authResult headers x.now = .ok identity) :
    ∃ token, extractBearer headers = some token ∧
      SignedInWith actions s token identity.email a x := by
  cases hbearer : extractBearer headers with
  | none => simp [authResult, hbearer] at hauth
  | some token =>
      cases hgenuine : Platform.decodeSession token with
      | error e => simp [authResult, verifySession, hbearer, hgenuine, Except.mapError] at hauth
      | ok claims =>
          have htoken : token ∈ tokenOf a := by
            rw [tokenOf, hheaders]
            exact hbearer
          have hhanded := handedOut_of_unforged hrun htakes htoken (by rw [hgenuine]; rfl)
          obtain ⟨request, y, response, hthen, hanswer, rfl⟩ :=
            hhanded.resolve_left List.not_mem_nil
          have hclaims := hdecodes _ _ (handleAuth_signed request y response hanswer)
          simp only [authResult, hbearer, verifySession_of_decoded hclaims] at hauth
          split at hauth
          · cases hauth
          · next hopen =>
              obtain rfl := Except.ok.inj hauth
              exact ⟨_, rfl, request, y, response, ⟨hthen, hanswer, rfl⟩, rfl, not_lt.mp hopen⟩

/-- An act that is not a sign-in is that of the address in the token of its request. -/
theorem actor_of_performs {s : System} {a : GatewayAction}
    {act : Act String String String Settings ContributionRecord CarryForward}
    (h : Bookkeeping.Performs s a act) : (∃ request, a = .auth request) ∨
      ∃ headers identity, headersOf a = some headers ∧
        authResult headers s.now = .ok identity ∧
        Bookkeeping.houseRules.actor act = identity.email := by
  cases h with
  | founds hauth hslug => exact .inr ⟨_, _, rfl, hauth, rfl⟩
  | amends hauth hold => exact .inr ⟨_, _, rfl, hauth, rfl⟩
  | invites hauth => exact .inr ⟨_, _, rfl, hauth, rfl⟩
  | revokes hauth hi hkey hslug => exact .inr ⟨_, _, rfl, hauth, rfl⟩
  | deletes hauth hi hkey hslug => exact .inr ⟨_, _, rfl, hauth, rfl⟩
  | joins haddress => exact .inl ⟨_, rfl⟩
  | pays hauth hsettings hrow =>
      exact .inr ⟨_, _, rfl, hauth, congrArg Contribution.userEmail hrow⟩
  | seeds hauth => exact .inr ⟨_, _, rfl, hauth, rfl⟩

/-- A request of the run added the row: it is what the request asked for, by the address of its
token, and the token is that of a sign-in as the payer within the seven days before. -/
def PaidSignedIn (actions : List GatewayAction) (s : System) (slug : String)
    (r : ContributionRecord) : Prop :=
  ∃ headers p identity settings token x,
    authResult headers x.now = .ok identity ∧ (x.namespaces slug).settings = some settings ∧
    r.row = (paymentInput identity settings.toTenantSettings r.row.period p).row x.now ∧
    ((Deployment.step (.tenant ⟨slug, headers, .postContribution (.ok p)⟩) x).namespaces
      slug).contribution.rows = (x.namespaces slug).contribution.rows ++ [r] ∧
    extractBearer headers = some token ∧
    SignedInWith actions s token r.row.userEmail
      (.tenant ⟨slug, headers, .postContribution (.ok p)⟩) x

/-- Every stored payment was made by someone who had signed in as the payer within the seven days
before. -/
theorem payer_signed_in (hdecodes : Decodes) {actions : List GatewayAction} {now : DateTime}
    (hrun : Unforged [] actions (System.empty now)) {slug : String} {r : ContributionRecord}
    (h : r ∈ ((Trace.exec Deployment.step actions (System.empty now)).namespaces
      slug).contribution.rows) :
    PaidSignedIn actions (System.empty now) slug r := by
  obtain ⟨a, x, htakes, hperforms, -, hrows⟩ := Bookkeeping.payment_brought h
  cases hperforms with
  | @pays _ headers p identity settings _ hauth hsettings hrow =>
      have hpayer : r.row.userEmail = identity.email := by rw [hrow]; rfl
      obtain ⟨token, hbearer, hsigned⟩ :=
        signedIn_of_authenticated hdecodes hrun htakes rfl hauth
      exact ⟨headers, p, identity, settings, token, x, hauth, hsettings, hrow, hrows, hbearer,
        hpayer ▸ hsigned⟩

end Runs

/-! ## Bob's session -/

section Sample

attribute [local instance] Platform.careful

open PoolAgreement

/-- A week later, Ann is refused wherever she shows her token. -/
theorem ann_session_over :
    (∀ r : TenantRequest, r.headers = bearer "ann@pool.org" juneNoon →
      ∃ e, r.respond (System.empty (juneNoon + 8 * oneDay)) =
        (.error e, System.empty (juneNoon + 8 * oneDay))) ∧
    ∀ payload, ∃ e,
      (createTenantHandler (bearer "ann@pool.org" juneNoon) payload).run
        (System.empty (juneNoon + 8 * oneDay)) =
          (.error e, System.empty (juneNoon + 8 * oneDay)) := by
  have hanswer : ((handleAuth (.google (.ok ⟨"google:ann@pool.org"⟩))).run
      (System.empty juneNoon)).1 = .ok Takeover.annSession := by decide
  have hbearer : extractBearer (bearer "ann@pool.org" juneNoon) =
      some Takeover.annSession.token := by decide
  exact (session_window hanswer careful_decodes hbearer _).2 (by decide)

/-- Bob joins Ann's venture and pays. -/
def bobPays : List GatewayAction := bobJoins 10000 ++ [pays "bob@pool.org" 4000]

theorem bobPays_unforged : Unforged [] bobPays (System.empty juneNoon) := by decide

theorem bob_payer_signed_in :
    PaidSignedIn bobPays (System.empty juneNoon) "pool"
      ⟨0, paymentRow "bob@pool.org" "monthly" "2026-06" 4000 juneNoon⟩ := by
  have hrow : ⟨0, paymentRow "bob@pool.org" "monthly" "2026-06" 4000 juneNoon⟩ ∈
      ((Trace.exec Deployment.step bobPays (System.empty juneNoon)).namespaces
        "pool").contribution.rows := by decide
  exact payer_signed_in careful_decodes bobPays_unforged hrow

end Sample

end Sessions

end SharamLedger
