import SharamLedger.Lib.Ascii
import SharamLedger.Sample

/-!
# Spellings of an address

Registration, login and invites trim and lower-case an address. A sign-in with Google takes the
address of the token as it stands. In runs in which such addresses are in lower case already, all
spellings of an address lead to one user, and an invite for one of them reaches every other.
-/

namespace SharamLedger

open Lib

/-- The role that the gates of the tenant routes find is the one of the address's user. -/
theorem Control.roleFor_of_user {c : Control} {u : UserRecord} (hu : u ∈ c.user.rows)
    (slug : String) : c.roleFor u.row.email slug = c.roleOf u.id slug := by
  have hids : ∀ m ∈ c.membership.rows, m ∈ c.membershipsFor u.row.email ↔ m.row.user = u.id := by
    intro m hm
    rw [Control.mem_membershipsFor]
    constructor
    · rintro ⟨-, x, hx, hemail, huser⟩
      rw [huser, Control.user_eq hx hu hemail]
    · exact fun huser => ⟨hm, u, hu, rfl, huser⟩
  refine Option.ext fun role => ?_
  rw [Control.roleOf_eq_some, Control.roleFor, Option.map_eq_some_iff]
  constructor
  · rintro ⟨m, hfind, hrole⟩
    have hmem := List.mem_of_find?_eq_some hfind
    have hm := (Table.mem_select.mp hmem).1
    have hslug := List.find?_some hfind
    exact ⟨m, hm, (hids m hm).mp hmem, beq_iff_eq.mp hslug, hrole⟩
  · rintro ⟨m, hm, huser, hslug, hrole⟩
    cases hfind : (c.membershipsFor u.row.email).find? fun x => x.row.tenantSlug == slug with
    | none =>
        have hnone := List.find?_eq_none.mp hfind m ((hids m hm).mpr huser)
        simp [hslug] at hnone
    | some x =>
        have hmem := List.mem_of_find?_eq_some hfind
        have hx := (Table.mem_select.mp hmem).1
        have hxslug := List.find?_some hfind
        obtain rfl := Control.membership_eq hx hm (((hids x hx).mp hmem).trans huser.symm)
          ((beq_iff_eq.mp hxslug).trans hslug.symm)
        exact ⟨x, rfl, hrole⟩

namespace Spelling

/-- The owner's invite is stored and open. -/
def IsOpen (view : InviteView) (i : InviteRecord) (s : System) : Prop :=
  i ∈ s.control.invite.rows ∧ i.row.tenantSlug = view.tenantSlug ∧ i.row.email = view.email ∧
    i.row.revokedAt = none

section Runs

variable [Platform]

/-- Equal after trimming and lower-casing. -/
def SameAddress (x y : String) : Prop := normalizeEmail x = normalizeEmail y

/-- The documented behaviour of trimming and lower-casing: done again, they change nothing. -/
def NormalizesOnce : Prop := ∀ x, normalizeEmail (normalizeEmail x) = normalizeEmail x

/-- The request carries the address in this spelling, in its payload or in the claims of its
token. -/
def Spelled (request : AuthRequest) (now : DateTime) (x : String) : Prop :=
  match request with
  | .google payload => ∃ p claims, payload = .ok p ∧
      Platform.verifyGoogle now p.credential = .ok claims ∧ claims.email = x
  | .register _ payload => ∃ p, payload = .ok p ∧ p.email = x
  | .login payload => ∃ p, payload = .ok p ∧ p.email = x

/-- The request is answered with a session, and the user is the one of the session's address. -/
def SignsIn (request : AuthRequest) (s : System) (r : UserRecord) : Prop :=
  ∃ response, ((handleAuth request).run s).1 = .ok response ∧
    ((handleAuth request).run s).2.control.userByEmail response.user.email = some r

/-- A token that Google issued spells its address without blanks around it and in lower case. -/
def LowerCaseClaims (a : AccountAction) (s : System) : Prop :=
  match a with
  | .signIn (.google payload) => ∀ p claims, payload = .ok p →
      Platform.verifyGoogle s.now p.credential = .ok claims →
        normalizeEmail claims.email = claims.email
  | _ => True

/-- One account for all spellings of an address, all through a run. -/
structure OneAccount (actions : List AccountAction) (s : System) : Prop where
  /-- An address has at most one row. -/
  row : ∀ x, Trace.Visits Roster.step actions s x → ∀ u ∈ x.control.user.rows,
    ∀ v ∈ x.control.user.rows, SameAddress u.row.email v.row.email → u = v
  /-- A session is one for the row of its address. -/
  session : ∀ request x, Trace.Takes Roster.step actions s (.signIn request) x →
    ∀ response, ((handleAuth request).run x).1 = .ok response →
      ∃ r, SignsIn request x r ∧
        ∀ a, Spelled request x.now a → SameAddress r.row.email a
  /-- Two sessions for one address are sessions of one user. -/
  user : ∀ first x second y,
    Trace.TakesThen Roster.step actions s (.signIn first) x (.signIn second) y →
      ∀ a b, Spelled first x.now a → Spelled second y.now b → SameAddress a b →
        ∀ r r', SignsIn first x r → SignsIn second y r' → r'.id = r.id
  /-- An invite is open once it is created. -/
  invite : ∀ slug headers p x,
    Trace.Takes Roster.step actions s (.createInvite slug headers (.ok p)) x →
      ∀ view, ((createInviteHandler slug headers (.ok p)).run x).1 = .ok view →
        ∃ i, IsOpen view i (Roster.step (.createInvite slug headers (.ok p)) x)
  /-- While it is open, the next session for the address turns it into a membership. -/
  member : ∀ slug headers p x request y,
    Trace.TakesThen Roster.step actions s (.createInvite slug headers (.ok p)) x
      (.signIn request) y →
      ∀ view i a r, ((createInviteHandler slug headers (.ok p)).run x).1 = .ok view →
        IsOpen view i y → Spelled request y.now a → SameAddress p.email a →
        SignsIn request y r →
          (Roster.step (.signIn request) y).control.roleOf r.id slug = some i.row.role ∧
            (Roster.step (.signIn request) y).control.roleFor r.row.email slug =
              some i.row.role

/-! ## One sign-in -/

variable {request : AuthRequest} {s : System}

/-- The address of a request is its spelling in normal form. -/
theorem address_eq {email x : String} (haddress : AddressedTo request s.now email)
    (hclaims : LowerCaseClaims (.signIn request) s) (hspelled : Spelled request s.now x) :
    email = normalizeEmail x := by
  cases request with
  | google payload =>
      obtain ⟨p, claims, hp, hverify, rfl⟩ := haddress
      obtain ⟨p', claims', hp', hverify', rfl⟩ := hspelled
      obtain rfl := Except.ok.inj (hp.symm.trans hp')
      obtain rfl := Except.ok.inj (hverify.symm.trans hverify')
      exact (hclaims p claims hp hverify).symm
  | register salt payload =>
      obtain ⟨p, hp, rfl⟩ := haddress
      obtain ⟨p', hp', rfl⟩ := hspelled
      rw [Except.ok.inj (hp.symm.trans hp')]
  | login payload =>
      obtain ⟨p, hp, rfl⟩ := haddress
      obtain ⟨p', hp', rfl⟩ := hspelled
      rw [Except.ok.inj (hp.symm.trans hp')]

theorem address_normal (once : NormalizesOnce) {email : String}
    (haddress : AddressedTo request s.now email)
    (hclaims : LowerCaseClaims (.signIn request) s) : normalizeEmail email = email := by
  cases request with
  | google payload =>
      obtain ⟨p, claims, hp, hverify, rfl⟩ := haddress
      exact hclaims p claims hp hverify
  | register salt payload =>
      obtain ⟨p, -, rfl⟩ := haddress
      exact once p.email
  | login payload =>
      obtain ⟨p, -, rfl⟩ := haddress
      exact once p.email

/-- A request that is answered with a session has signed in to its address. -/
theorem signIn_of_ok {response : AuthResponse}
    (h : ((handleAuth request).run s).1 = .ok response) :
    ∃ r c, AddressedTo request s.now response.user.email ∧
      SignIn s response.user.email r c (.ok response) (Roster.step (.signIn request) s) ∧
      SignsIn request s r := by
  obtain ⟨email, r, c, haddress, hsign⟩ := (handleAuth_spec request s).of_ok h
  obtain rfl := hsign.answer response rfl
  refine ⟨r, c, haddress, hsign, response, h, ?_⟩
  rw [hsign.userByEmail, if_pos rfl]

/-- The user of a session. -/
theorem signIn_of_signsIn {r : UserRecord} (h : SignsIn request s r) :
    ∃ response c, AddressedTo request s.now r.row.email ∧
      SignIn s r.row.email r c (.ok response) (Roster.step (.signIn request) s) := by
  obtain ⟨response, hresponse, hfind⟩ := h
  obtain ⟨r', c, haddress, hsign, response', hresponse', hfind'⟩ := signIn_of_ok hresponse
  obtain rfl := Except.ok.inj (hresponse.symm.trans hresponse')
  obtain rfl := Option.some.inj (hfind.symm.trans hfind')
  obtain ⟨-, hemail⟩ := Control.userByEmail_eq_some.mp hfind
  rw [hemail]
  exact ⟨response, c, haddress, hsign⟩

/-! ## Runs -/

/-- Every user is stored under an address in normal form. -/
def Normal (s : System) : Prop :=
  ∀ u ∈ s.control.user.rows, normalizeEmail u.row.email = u.row.email

theorem normal_step (once : NormalizesOnce) (a : AccountAction) (s : System) (h : Normal s)
    (hclaims : LowerCaseClaims a s) : Normal (Roster.step a s) := by
  rcases (Roster.step_effect a s).users with husers |
    ⟨request, email, r, c, result, rfl, haddress, hsign⟩
  · rw [Normal, husers]
    exact h
  · intro u hu
    rw [hsign.accepts.users] at hu
    rcases (hsign.put.rows u).mp hu with rfl | ⟨hu, -⟩
    · rw [hsign.address]
      exact address_normal once haddress hclaims
    · exact h u hu

/-- Rows of one address are one row. -/
theorem row_eq {u v : UserRecord} (h : Normal s) (hu : u ∈ s.control.user.rows)
    (hv : v ∈ s.control.user.rows) (hsame : SameAddress u.row.email v.row.email) : u = v := by
  refine Control.user_eq hu hv ?_
  calc u.row.email = normalizeEmail u.row.email := (h u hu).symm
    _ = normalizeEmail v.row.email := hsame
    _ = v.row.email := h v hv

/-- In every run from a fresh deployment in which the tokens of Google spell their addresses in
normal form, all spellings of an address have one account. -/
theorem one_account (once : NormalizesOnce) {actions : List AccountAction} {now : DateTime}
    (hrun : Trace.Each Roster.step LowerCaseClaims actions (System.empty now)) :
    OneAccount actions (System.empty now) := by
  have hempty : Normal (System.empty now) := fun u hu => by cases hu
  constructor
  · intro x hx u hu v hv hsame
    exact row_eq (hx.invariant (normal_step once) hempty hrun) hu hv hsame
  · intro request x hx response hresponse
    obtain ⟨r, c, haddress, hsign, hr⟩ := signIn_of_ok hresponse
    refine ⟨r, hr, fun a ha => ?_⟩
    rw [hsign.address, SameAddress, address_eq haddress (hx.meets hrun) ha, once]
  · intro first x second y hxy a b ha hb hsame r r' hr hr'
    obtain ⟨_, c, haddress, hsign⟩ := signIn_of_signsIn hr
    obtain ⟨_, c', haddress', hsign'⟩ := signIn_of_signsIn hr'
    have hemail : r.row.email = normalizeEmail a := address_eq haddress (hxy.fst.meets hrun) ha
    have hemail' : r'.row.email = normalizeEmail b :=
      address_eq haddress' (hxy.snd.meets hrun) hb
    -- the user of the first session is still there when the second one is opened
    obtain ⟨u, hu, hid, huemail⟩ := hxy.relates Roster.usersKept_step r hsign.mem_user
    have hrow : u.row.email = r'.row.email := by
      rw [huemail, hemail, hemail']
      exact hsame
    rw [← hsign'.put.kept u hu hrow, hid]
  · intro slug headers p x hx view hview
    obtain ⟨-, -, i, hmem, hopen⟩ := createInviteHandler_ok hview
    exact ⟨i, hmem, hopen⟩
  · intro slug headers p x request y hxy view i a r hview hopen ha hsame hr
    obtain ⟨response, c, haddress, hsign⟩ := signIn_of_signsIn hr
    obtain ⟨hslug, hemail, -⟩ := createInviteHandler_ok hview
    obtain ⟨hmem, hislug, hiemail, hrevoked⟩ := hopen
    have hreached : i ∈ y.control.openInvites r.row.email := by
      have hspelling := address_eq haddress (hxy.snd.meets hrun) ha
      refine Table.mem_select.mpr ⟨hmem, ?_⟩
      simp only [hrevoked, Option.isNone_none, Bool.and_true, beq_iff_eq]
      rw [hiemail, hemail, hspelling]
      exact hsame
    have hrole := hsign.roleOf_invite hreached
    rw [hislug, hslug] at hrole
    exact ⟨hrole, by rw [Control.roleFor_of_user hsign.mem_user, hrole]⟩

end Runs

/-! ## Bob's invite -/

section Sample

attribute [local instance] Platform.sample

theorem isWhitespace_toLower (c : Char) :
    Text.isWhitespace c.toLower = Text.isWhitespace c := by
  rcases Ascii.toLower_cases c with ⟨-, hsame⟩ | ⟨hupper, hlower⟩
  · rw [hsame]
  · -- there are no blanks among the letters
    have hnone : ∀ d : Char, 65 ≤ d.toNat → d.toNat ≤ 122 → Text.isWhitespace d = false := by
      intro d hlow hhigh
      simp only [Text.isWhitespace, Bool.or_eq_false_iff, Bool.and_eq_false_iff,
        beq_eq_false_iff_ne, decide_eq_false_iff_not]
      omega
    obtain ⟨hlow, hhigh⟩ := Ascii.isUpper_iff.mp hupper
    rw [hnone c.toLower (by omega) (by omega), hnone c hlow (by omega)]

theorem toLower_toLower (c : Char) : c.toLower.toLower = c.toLower := by
  rcases Ascii.toLower_cases c.toLower with ⟨-, hsame⟩ | ⟨hupper, -⟩
  · exact hsame
  · rw [Ascii.isUpper_toLower] at hupper
    cases hupper

theorem sample_normalizes_once : NormalizesOnce := by
  intro x
  have hform : ∀ y, normalizeEmail y =
      String.ofList ((Text.trimChars y.toList).map Char.toLower) := fun y => by
    show String.ofList ((Text.trim y).toList.map Char.toLower) = _
    rw [Text.trim, String.toList_ofList]
  rw [hform, hform x, String.toList_ofList, Text.trimChars_map isWhitespace_toLower,
    Text.trimChars_trimChars, List.map_map]
  congr 1
  exact List.map_congr_left fun c _ => toLower_toLower c

theorem lowerCaseClaims_signIn {email : String} (h : normalizeEmail email = email) (s : System) :
    LowerCaseClaims (signIn email) s := by
  intro p claims hp hverify
  obtain rfl := Except.ok.inj hp
  have hprefix : Text.stripPrefix "google:" ("google:" ++ email) = some email := by
    simp [Text.stripPrefix, Text.startsWith]
  simp only [Platform.verifyGoogle, hprefix, Except.ok.injEq] at hverify
  rw [← hverify]
  exact h

/-- Ann invites Bob in upper case. He signs in with Google, registers and logs in. -/
theorem one_account_bob :
    OneAccount (annOpens "UTC" 10000 juneNoon ++
      [annInvites " BOB@pool.org" .member, signIn "bob@pool.org",
        .signIn (.register "salt" (.ok ⟨"Bob@Pool.org", "password", none⟩)),
        .signIn (.login (.ok ⟨"bob@POOL.org ", "password"⟩))]) (System.empty juneNoon) := by
  refine one_account sample_normalizes_once ⟨?_, trivial, trivial, ?_, trivial, trivial, trivial⟩
  · exact lowerCaseClaims_signIn (by decide) _
  · exact lowerCaseClaims_signIn (by decide) _

/-- Ann invites Bob. The token of his Google account spells his address with a capital. -/
def capitalBob : List AccountAction :=
  annOpens "UTC" 10000 juneNoon ++ [annInvites "bob@pool.org" .member, signIn "Bob@pool.org"]

/-- Then he registers. -/
def registerBob : AccountAction :=
  .signIn (.register "salt" (.ok ⟨"bob@pool.org", "password", none⟩))

/-- His session with Google has no role in the venture, and his registration makes a second row. -/
theorem capital_splits_account :
    NormalizesOnce ∧
      (Trace.exec Roster.step capitalBob (System.empty juneNoon)).control.roleFor
        "Bob@pool.org" "pool" = none ∧
      ¬ OneAccount (capitalBob ++ [registerBob]) (System.empty juneNoon) := by
  refine ⟨sample_normalizes_once, by decide, fun h => ?_⟩
  have hgoogle : (⟨1, ⟨"Bob@pool.org", some "google:Bob@pool.org", none, none, "UTC", juneNoon⟩⟩ :
      UserRecord) ∈ (Trace.exec Roster.step (capitalBob ++ [registerBob])
        (System.empty juneNoon)).control.user.rows := by decide
  have hpassword : (⟨2, ⟨"bob@pool.org", none, some "salt$password", none, "UTC", juneNoon⟩⟩ :
      UserRecord) ∈ (Trace.exec Roster.step (capitalBob ++ [registerBob])
        (System.empty juneNoon)).control.user.rows := by decide
  have hsame : SameAddress "Bob@pool.org" "bob@pool.org" := by
    unfold SameAddress
    decide +kernel
  have hone := h.row _ ⟨_, [], (List.append_nil _).symm, rfl⟩ _ hgoogle _ hpassword hsame
  cases hone

end Sample

end Spelling

end SharamLedger
