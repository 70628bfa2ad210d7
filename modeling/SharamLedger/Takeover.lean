import SharamLedger.Gateway.Tokens
import SharamLedger.Lib.Trace
import SharamLedger.Sample

/-!
# Whose session it is

Runs of sign-in requests by many principals, one of whom holds an address. Registering an
address whose user has no password attaches the password to that user. As long as no one else
does so before the holder has a password, no one else gets a session for the address, and no one
else's requests change the roles of its user.
-/

namespace SharamLedger

open Lib

/-- A principal sends a request, or the clock is set. -/
inductive AuthAction (Principal : Type) where
  | clock (now : DateTime)
  | visit (who : Principal) (request : AuthRequest)

namespace Takeover

section Runs

variable [Platform] {Principal : Type}

/-- The state after an action, whatever the response. -/
def step (a : AuthAction Principal) (s : System) : System :=
  match a with
  | .clock now => s.setNow now
  | .visit _ request => ((handleAuth request).run s).2

/-- The holder keeps the secrets: the passwords the holder registers for the address are secret,
no one else logs in to it with one of them, and no one else has a credential for it that the
verifier accepts. -/
def KeepsSecrets (holder : Principal) (email : String) (secret : String → Prop)
    (a : AuthAction Principal) (s : System) : Prop :=
  match a with
  | .clock _ => True
  | .visit who (.google payload) => who ≠ holder → ∀ p claims, payload = .ok p →
      Platform.verifyGoogle s.now p.credential = .ok claims → claims.email ≠ email
  | .visit who (.register _ payload) => who = holder → ∀ p, payload = .ok p →
      normalizeEmail p.email = email → secret p.password
  | .visit who (.login payload) => who ≠ holder → ∀ p, payload = .ok p →
      normalizeEmail p.email = email → ¬ secret p.password

/-- No one else registers the address while its user has no password. -/
def NotRegisteredFirst (holder : Principal) (email : String) (a : AuthAction Principal)
    (s : System) : Prop :=
  match a with
  | .visit who (.register _ payload) => who ≠ holder → ∀ p, payload = .ok p →
      normalizeEmail p.email = email → validEmail email = true →
        minPasswordLen ≤ p.password.utf8ByteSize →
          ∀ r, s.control.userByEmail email = some r → r.row.passwordHash ≠ none
  | _ => True

/-- A request with the token is authenticated as the address at some instant. -/
def PassesFor (token email : String) : Prop :=
  ∃ now identity, verifySession now token = .ok identity ∧ identity.email = email

/-- What the request of someone else must not do: answer with a token that passes for the address
or with its user, or change the roles of that user. -/
def LeavesAlone (email : String) (request : AuthRequest) (s : System) : Prop :=
  (∀ response, ((handleAuth request).run s).1 = .ok response →
    ¬ PassesFor response.token email ∧ response.user.email ≠ email) ∧
    ∀ r, s.control.userByEmail email = some r → ∀ slug,
      ((handleAuth request).run s).2.control.roleOf r.id slug = s.control.roleOf r.id slug

/-- All through the run, everyone but the holder leaves the address alone. -/
def OnlyHolder (holder : Principal) (email : String) (actions : List (AuthAction Principal))
    (s : System) : Prop :=
  ∀ earlier who request later, actions = earlier ++ .visit who request :: later → who ≠ holder →
    LeavesAlone email request (Trace.exec step earlier s)

/-- The address has a user, and a password of that user is one of the holder's. -/
def Held (email : String) (secret : String → Prop) (s : System) : Prop :=
  ∃ r, s.control.userByEmail email = some r ∧ ∀ hash, r.row.passwordHash = some hash →
    ∃ salt password, secret password ∧ Platform.hashPassword salt password = .ok hash

/-- The documented behaviour of the password hash: it verifies the hashed password only. -/
def HashSound : Prop :=
  ∀ salt password hash other, Platform.hashPassword salt password = .ok hash →
    Platform.verifyPassword other hash = true → other = password

/-! ## One request -/

variable {holder who : Principal} {email : String} {secret : String → Prop} {s : System}
  {request : AuthRequest}

/-- Someone else cannot sign in to the address. -/
theorem address_ne (hash : HashSound) (hheld : Held email secret s) (hwho : who ≠ holder)
    (hkeeps : KeepsSecrets holder email secret (.visit who request) s)
    (hfirst : NotRegisteredFirst holder email (.visit who request) s) :
    (∃ e, (handleAuth request).run s = (.error e, s)) ∨ ∃ address r c, address ≠ email ∧
      SignIn s address r c ((handleAuth request).run s).1 ((handleAuth request).run s).2 := by
  obtain ⟨held, hfind, hpassword⟩ := hheld
  cases request with
  | google payload =>
      refine (google_spec payload s).imp_right ?_
      rintro ⟨p, claims, r, c, hp, hclaims, -, h⟩
      exact ⟨_, r, c, hkeeps hwho p claims hp hclaims, h⟩
  | register salt payload =>
      refine (register_spec salt payload s).imp_right ?_
      rintro ⟨p, stored, r, c, hp, hvalid, hlen, -, hnone, -, h⟩
      refine ⟨_, r, c, ?_, h⟩
      -- a registration that goes through found no password
      rintro rfl
      exact hfirst hwho p hp rfl hvalid hlen held hfind (hnone held hfind)
  | login payload =>
      refine (login_spec payload s).imp_right ?_
      rintro ⟨p, stored, r, hp, hr, hstored, hverify, h⟩
      refine ⟨_, r, s.control, ?_, h⟩
      rintro rfl
      obtain rfl := Option.some.inj (hr.symm.trans hfind)
      -- the password that verified is one the holder keeps
      obtain ⟨salt, password, hsecret, hhash⟩ := hpassword stored hstored
      rw [← hash salt password stored p.password hhash hverify] at hsecret
      exact hkeeps hwho p hp rfl hsecret

/-- Someone else's request leaves the address alone: the token of its answer passes for the address
that has signed in, and that is another. -/
theorem leaves_alone (hash : HashSound) (hdecodes : Sessions.Decodes)
    (hheld : Held email secret s) (hwho : who ≠ holder)
    (hkeeps : KeepsSecrets holder email secret (.visit who request) s)
    (hfirst : NotRegisteredFirst holder email (.visit who request) s) :
    LeavesAlone email request s := by
  rcases address_ne hash hheld hwho hkeeps hfirst with ⟨e, he⟩ | ⟨address, r, c, hne, h⟩
  · rw [LeavesAlone, he]
    exact ⟨fun _ h => by (cases h), fun _ _ _ => rfl⟩
  · refine ⟨fun response hresponse => ?_, fun old hold slug => ?_⟩
    · have hother : response.user.email ≠ email := by
        rw [h.answer response hresponse]
        exact hne
      refine ⟨?_, hother⟩
      rintro ⟨now, identity, hpasses, hemail⟩
      rw [Sessions.identity_of_token hresponse hdecodes hpasses] at hemail
      exact hother hemail
    · exact h.roleOf_other hold hne.symm slug

/-- The holder's requests put none but the holder's passwords in place. -/
theorem held_of_holder (hheld : Held email secret s)
    (hkeeps : KeepsSecrets holder email secret (.visit holder request) s) :
    Held email secret ((handleAuth request).run s).2 := by
  have hother : ∀ {address r c}, address ≠ email →
      SignIn s address r c ((handleAuth request).run s).1 ((handleAuth request).run s).2 →
        Held email secret ((handleAuth request).run s).2 := by
    intro address r c hne h
    obtain ⟨held, hfind, hpassword⟩ := hheld
    exact ⟨held, by rw [h.userByEmail, if_neg hne.symm, hfind], hpassword⟩
  cases request with
  | google payload =>
      rcases google_spec payload s with ⟨e, he⟩ | ⟨p, claims, r, c, -, -, hkept, h⟩
      · simpa [handleAuth, he] using hheld
      · by_cases hne : claims.email = email
        · subst hne
          obtain ⟨held, hfind, hpassword⟩ := hheld
          refine ⟨r, by rw [handleAuth, h.userByEmail, if_pos rfl], fun hash hr => ?_⟩
          rw [hkept, hfind] at hr
          exact hpassword hash hr
        · exact hother hne h
  | register salt payload =>
      rcases register_spec salt payload s with ⟨e, he⟩ |
        ⟨p, stored, r, c, hp, -, -, hhash, -, hr, h⟩
      · simpa [handleAuth, he] using hheld
      · by_cases hne : normalizeEmail p.email = email
        · refine ⟨r, by rw [handleAuth, h.userByEmail, if_pos hne.symm], fun hash hr' => ?_⟩
          obtain rfl := Option.some.inj (hr.symm.trans hr')
          exact ⟨salt, p.password, hkeeps rfl p hp hne, hhash⟩
        · exact hother hne h
  | login payload =>
      rcases login_spec payload s with ⟨e, he⟩ | ⟨p, stored, r, -, hr, -, -, h⟩
      · simpa [handleAuth, he] using hheld
      · by_cases hne : normalizeEmail p.email = email
        · obtain ⟨held, hfind, hpassword⟩ := hheld
          subst hne
          obtain rfl := Option.some.inj (hr.symm.trans hfind)
          exact ⟨r, by rw [handleAuth, h.userByEmail, if_pos rfl], hpassword⟩
        · exact hother hne h

/-- Every allowed action leaves the address with a user and none but the holder's passwords. -/
theorem held_step (hash : HashSound) (a : AuthAction Principal) (s : System)
    (hheld : Held email secret s)
    (ha : KeepsSecrets holder email secret a s ∧ NotRegisteredFirst holder email a s) :
    Held email secret (step a s) := by
  cases a with
  | clock now => exact hheld
  | visit who request =>
      by_cases hwho : who = holder
      · subst hwho
        exact held_of_holder hheld ha.1
      · obtain ⟨held, hfind, hpassword⟩ := hheld
        rcases address_ne hash ⟨held, hfind, hpassword⟩ hwho ha.1 ha.2 with ⟨e, he⟩ |
          ⟨address, r, c, hne, h⟩
        · exact ⟨held, by rw [step, he, hfind], hpassword⟩
        · exact ⟨held, by rw [step, h.userByEmail, if_neg hne.symm, hfind], hpassword⟩

/-! ## Runs -/

/-- From a moment at which the address has a user without a password, everyone but the holder
leaves it alone. -/
theorem only_holder_of_find (hash : HashSound) (hdecodes : Sessions.Decodes) {r : UserRecord}
    (hfind : s.control.userByEmail email = some r) (hnone : r.row.passwordHash = none)
    {actions : List (AuthAction Principal)}
    (hrun : Trace.Each step (fun a s => KeepsSecrets holder email secret a s ∧
      NotRegisteredFirst holder email a s) actions s) : OnlyHolder holder email actions s := by
  rintro earlier who request later rfl hwho
  obtain ⟨hearlier, hvisit, -⟩ := Trace.each_append.mp hrun
  have hheld : Held email secret (Trace.exec step earlier s) :=
    hearlier.invariant (I := Held email secret) (held_step hash)
      ⟨r, hfind, fun hash hr => by rw [hnone] at hr; cases hr⟩
  exact leaves_alone hash hdecodes hheld hwho hvisit.1 hvisit.2

/-- Once the holder has signed in with Google to an address without a password, only the holder
gets tokens that pass for it, and only the holder's sign-ins change the roles of its user, in every
run in which no one else registers the address first. -/
theorem only_holder_signs_in (hash : HashSound) (hdecodes : Sessions.Decodes)
    (hnone : ∀ r, s.control.userByEmail email = some r → r.row.passwordHash = none)
    {payload : Extracted GoogleRequest} {response : AuthResponse}
    (hsigned : ((google payload).run s).1 = .ok response) (hemail : response.user.email = email)
    {actions : List (AuthAction Principal)}
    (hrun : Trace.Each step (fun a s => KeepsSecrets holder email secret a s ∧
      NotRegisteredFirst holder email a s) actions ((google payload).run s).2) :
    OnlyHolder holder email actions ((google payload).run s).2 := by
  obtain ⟨p, claims, r, c, -, -, hkept, h⟩ := (google_spec payload s).of_ok hsigned
  obtain rfl : claims.email = email := (h.answer response rfl).symm.trans hemail
  refine only_holder_of_find hash hdecodes (r := r) (by rw [h.userByEmail, if_pos rfl]) ?_ hrun
  rw [hkept]
  cases hold : s.control.userByEmail claims.email with
  | none => rfl
  | some old => exact hnone old hold

end Runs

/-! ## A stranger registers first -/

section Sample

attribute [local instance] Platform.careful

theorem careful_hash_sound : HashSound := by
  intro salt password hash other hhash hverify
  have hmarker : "$".toList = [] ++ ['$'] := by decide
  change spellHash salt password = .ok hash at hhash
  change matchesHash other hash = true at hverify
  unfold spellHash at hhash
  split at hhash
  · cases hhash
  · next hsalt =>
      obtain rfl := Except.ok.inj hhash
      have hfree : ¬ "$".toList <:+: salt.toList := fun hin =>
        hsalt (by simpa using hin.subset (by decide : '$' ∈ "$".toList))
      rw [matchesHash, splitOnce_marker hmarker (by simp) hfree] at hverify
      exact (beq_iff_eq.mp hverify).symm

/-- Ann's sign-in with Google to a fresh deployment. -/
def annSignsIn : Extracted GoogleRequest := .ok ⟨"google:ann@pool.org"⟩

/-- Someone registers Ann's address. -/
def registerAnn (who password : String) : AuthAction String :=
  .visit who (.register "salt" (.ok ⟨"ann@pool.org", password, none⟩))

/-- Someone logs in to Ann's address. -/
def loginAnn (who password : String) : AuthAction String :=
  .visit who (.login (.ok ⟨"ann@pool.org", password⟩))

/-- What she gets. -/
def annSession : AuthResponse where
  token := "sharam|ann@pool.org|ann@pool.org|||1782129600|1781524800"
  user :=
    { sub := "ann@pool.org"
      email := "ann@pool.org"
      name := none
      picture := none }
  acceptedInvites := []

/-- Ann registers a password, and Sam tries to register and to log in with his own. -/
theorem only_holder_ann :
    OnlyHolder "ann" "ann@pool.org"
      [registerAnn "ann" "correct horse", registerAnn "sam" "password", loginAnn "sam" "password"]
      ((google annSignsIn).run (System.empty juneNoon)).2 := by
  have hnone : ∀ r, (System.empty juneNoon).control.userByEmail "ann@pool.org" = some r →
      r.row.passwordHash = none := by
    intro r hr
    cases hr
  have hrun : Trace.Each step (fun a s =>
      KeepsSecrets "ann" "ann@pool.org" (fun password => password = "correct horse") a s ∧
        NotRegisteredFirst "ann" "ann@pool.org" a s)
      [registerAnn "ann" "correct horse", registerAnn "sam" "password", loginAnn "sam" "password"]
      ((google annSignsIn).run (System.empty juneNoon)).2 := by
    refine ⟨⟨?_, ?_⟩, ⟨?_, ?_⟩, ⟨?_, trivial⟩, trivial⟩
    · rintro - p ⟨⟩ -
      rfl
    · exact fun h => absurd rfl h
    · exact fun h => absurd h (by decide)
    · rintro - p ⟨⟩ - - - r hr
      have hset : ((step (registerAnn "ann" "correct horse")
          ((google annSignsIn).run (System.empty juneNoon)).2).control.userByEmail
            "ann@pool.org").map (fun r => r.row.passwordHash.isSome) = some true := by decide
      rw [hr] at hset
      intro hnone
      simp [hnone] at hset
    · rintro - p ⟨⟩ -
      decide
  have hsigned : ((google annSignsIn).run (System.empty juneNoon)).1 = .ok annSession := by decide
  exact only_holder_signs_in careful_hash_sound careful_decodes hnone hsigned rfl hrun

/-- Sam registers Ann's address after her sign-in with Google, and gets a token that passes for
her. -/
theorem stranger_registers_first :
    HashSound ∧ Sessions.Decodes ∧
      Trace.Each step (KeepsSecrets "ann" "ann@pool.org" fun _ => False)
        [registerAnn "sam" "password"] ((google annSignsIn).run (System.empty juneNoon)).2 ∧
      ¬ OnlyHolder "ann" "ann@pool.org" [registerAnn "sam" "password"]
        ((google annSignsIn).run (System.empty juneNoon)).2 := by
  refine ⟨careful_hash_sound, careful_decodes,
    ⟨fun h => absurd h (by decide), trivial⟩, fun h => ?_⟩
  have hleft := (h [] "sam" _ [] rfl (by decide)).1
  exact (hleft annSession (by decide)).1
    ⟨juneNoon, ⟨"ann@pool.org", none, none⟩, by decide, rfl⟩

end Sample

end Takeover

end SharamLedger
