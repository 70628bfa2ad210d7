import SharamLedger.Gateway.SignIn

/-!
# The tokens of a sign-in

A sign-in answers with a token that it signed for its user, at the time of the sign-in. What the
token is verified as later is that user, until the session is over.
-/

namespace SharamLedger

open Lib

namespace Sessions

section Tokens

variable [Platform]

/-! ## What a sign-in signs -/

/-- The claims of the session that a sign-in opens for a user at an instant. -/
def sessionClaims (now : DateTime) (user : AuthUser) : SessionClaims where
  iss := sessionIssuer
  sub := user.email
  email := user.email
  name := user.name
  picture := user.picture
  exp := timestamp (now + defaultSessionTtl)
  iat := timestamp now

/-- The token of the response is a signature of its user's claims. -/
def Signed (now : DateTime) (response : AuthResponse) : Prop :=
  Platform.encodeSession (sessionClaims now response.user) = .ok response.token

/-- The clock stands still. -/
def SameNow (s s' : System) : Prop := s'.now = s.now

instance : Std.Refl SameNow := ⟨fun _ => rfl⟩

instance : IsTrans System SameNow := ⟨fun _ _ _ h h' => h'.trans h⟩

theorem signed_openSession (email : String) (user : UserRecord) (name picture : Option String)
    (s : System) : (openSession email user name picture).Yields s (Signed s.now) := by
  have haccept : (acceptPendingInvites email user.id).Moves SameNow :=
    .bind (moves_readControl _) fun pending =>
      (moves_acceptEach pending fun _ h => h).imp fun _ _ h => h.now
  refine Prog.Moves.yields_bind (haccept.mapErr _) fun accepted s' hnow => ?_
  refine Prog.yields_bind (run_issue _ s') fun token htoken => Prog.yields_pure ?_
  have hnow : s'.now = s.now := hnow
  rw [hnow] at htoken
  unfold Signed sessionClaims
  cases hsigned : Platform.encodeSession
      ⟨sessionIssuer, email, email, name, picture, timestamp (s.now + defaultSessionTtl),
        timestamp s.now⟩ with
  | error e => simp [issueSession, hsigned, Except.mapError] at htoken
  | ok found =>
      simp only [issueSession, hsigned, Except.mapError, Except.ok.injEq] at htoken
      rw [htoken]

section

-- keeps the checks of the handlers from being evaluated while their steps are matched
attribute [local irreducible] Prog.Moves

/-- The steps before `openSession` take no time. -/
theorem signed_of_opened {s s' : System} (hnow : SameNow s s') {email : String} {user : UserRecord}
    {name picture : Option String} :
    (openSession email user name picture).Yields s' (Signed s.now) := by
  have hnow : s'.now = s.now := hnow
  rw [← hnow]
  exact signed_openSession email user name picture s'

theorem sameNow_upsertUser (input : UpsertUser) : (upsertUser input).Moves SameNow :=
  moves_onControl fun _ _ _ _ => rfl

theorem sameNow_createPasswordUser (input : RegisterPassword) :
    (createPasswordUser input).Moves SameNow := by
  refine .bind (moves_readControl _) fun found => ?_
  cases found with
  | none => exact moves_onControl fun _ _ _ _ => rfl
  | some existing =>
      dsimp only
      split
      · exact Prog.moves_err _
      · exact .bind (moves_onControl fun _ _ _ _ => rfl) fun row => Prog.moves_okOr _ row

/-- The token that a sign-in answers with is signed for its user, at the time of the sign-in. -/
theorem handleAuth_signed (request : AuthRequest) (s : System) :
    (handleAuth request).Yields s (Signed s.now) := by
  cases request with
  | google payload =>
      refine Prog.yields_bind (Prog.run_lift payload s) fun p _ => ?_
      refine Prog.yields_bind (Prog.run_read _ s) fun verified _ => ?_
      refine Prog.yields_bind (Prog.run_lift _ s) fun claims _ => ?_
      exact Prog.Moves.yields_bind ((sameNow_upsertUser _).mapErr _) fun user s' hnow =>
        signed_of_opened hnow
  | register salt payload =>
      refine Prog.yields_bind (Prog.run_lift payload s) fun p _ => ?_
      refine Prog.yields_bind (Prog.run_ensure _ _ s) fun _ _ => ?_
      refine Prog.yields_bind (Prog.run_ensure _ _ s) fun _ _ => ?_
      refine Prog.yields_bind (Prog.run_lift _ s) fun hash _ => ?_
      exact Prog.Moves.yields_bind ((sameNow_createPasswordUser _).mapErr _) fun user s' hnow =>
        signed_of_opened hnow
  | login payload =>
      have hfind : ∀ email, (getUserByEmail email).Moves SameNow := fun _ => moves_readControl _
      refine Prog.yields_bind (Prog.run_lift payload s) fun p _ => ?_
      refine Prog.yields_bind (Prog.run_ensure _ _ s) fun _ _ => ?_
      refine Prog.Moves.yields_bind ((hfind _).mapErr _) fun row s' hnow => ?_
      refine Prog.yields_bind (Prog.run_okOr _ _ s') fun user _ => ?_
      refine Prog.yields_bind (Prog.run_okOr _ _ s') fun hash _ => ?_
      refine Prog.yields_bind (Prog.run_ensure _ _ s') fun _ _ => ?_
      exact signed_of_opened hnow

end

/-! ## What a token passes for -/

/-- The identity of a user who has signed in. -/
def identityOf (user : AuthUser) : Identity where
  email := user.email
  name := user.name
  picture := user.picture

/-- The last second of a session that was opened at an instant. -/
def lastSecond (opened : DateTime) : Int := timestamp (opened + defaultSessionTtl)

theorem verifySession_of_decoded {token : String} {opened now : DateTime} {user : AuthUser}
    (h : Platform.decodeSession token = .ok (sessionClaims opened user)) :
    verifySession now token =
      if lastSecond opened < timestamp now then .error (invalidSession "session expired")
      else .ok (identityOf user) := by
  simp only [verifySession, h]
  rfl

/-- The documented behaviour of the token library: a token that it signed is read back as the
claims it was signed for. -/
def Decodes : Prop :=
  ∀ claims token, Platform.encodeSession claims = .ok token →
    Platform.decodeSession token = .ok claims

/-- A token passes for the user of the sign-in that answered with it, and for nobody else. -/
theorem identity_of_token {request : AuthRequest} {s : System} {response : AuthResponse}
    (hanswer : ((handleAuth request).run s).1 = .ok response)
    (hdecodes : Decodes) {now : DateTime} {identity : Identity}
    (hpasses : verifySession now response.token = .ok identity) :
    identity = identityOf response.user := by
  rw [verifySession_of_decoded (hdecodes _ _ (handleAuth_signed request s response hanswer))]
    at hpasses
  split at hpasses
  · cases hpasses
  · exact (Except.ok.inj hpasses).symm

end Tokens

end Sessions

end SharamLedger
