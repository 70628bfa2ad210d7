import SharamLedger.Gateway.Routes
import SharamLedger.Roster

/-!
# A small platform

A `Platform` that can be evaluated: ASCII case mapping, four time zones, tokens that spell out
their claims and password hashes that spell out the password. Runs on fixed inputs use it.
-/

namespace SharamLedger

open Lib

/-- A zone with one offset, in hours. -/
def fixedZone (hours : Int) (h : -24 < hours ∧ hours < 24) : Tz :=
  ⟨fun _ => 3600 * hours, fun _ => by omega⟩

/-- The zone of Honolulu. -/
def honolulu : Tz := fixedZone (-10) (by decide)

/-- The claims of a token in a row. -/
def spellClaims (claims : SessionClaims) : String :=
  String.intercalate "|"
    [claims.iss, claims.sub, claims.email, claims.name.getD "", claims.picture.getD "",
      toString claims.exp, toString claims.iat]

/-- An optional text, blank when absent. -/
def ofBlank (l : List Char) : Option String :=
  if l.isEmpty then none else some (String.ofList l)

/-- Read a token's claims back. -/
def readClaims (token : String) : Except String SessionClaims :=
  match token.toList.splitOn '|' with
  | [iss, sub, email, name, picture, exp, iat] =>
      match Text.parseSigned (2 ^ 63 - 1) exp, Text.parseSigned (2 ^ 63 - 1) iat with
      | some exp, some iat =>
          .ok
            { iss := String.ofList iss
              sub := String.ofList sub
              email := String.ofList email
              name := ofBlank name
              picture := ofBlank picture
              exp
              iat }
      | _, _ => .error "InvalidToken"
  | _ => .error "InvalidToken"

/-- A password behind its salt, which holds no separator. -/
def spellHash (salt password : String) : Except String String :=
  if salt.toList.contains '$' then .error "salt invalid" else .ok (salt ++ ("$" ++ password))

/-- Whether the part behind the salt is the password. -/
def matchesHash (password hash : String) : Bool :=
  match Text.splitOnce "$" hash with
  | some (_, stored) => stored == password
  | none => false

/-- The text in front of a throw, which names the event. -/
def eventPrefix (event : SchemaEvent) : String :=
  "Error while processing event " ++ event.name ++ ": An error occurred: "

theorem eventPrefix_unmarked (event : SchemaEvent) : ∀ m ∈ throwMarkers, m ≠ event.name →
    ¬ m.toList <:+: (eventPrefix event).toList := by
  cases event <;> unfold throwMarkers <;> decide +kernel

@[reducible] def Platform.sample : Platform where
  isEmail := validEmail
  throwPrefix := eventPrefix
  faultText _ := "The statement failed"
  throwPrefix_unmarked := eventPrefix_unmarked
  faultText_unmarked _ _ _ := by unfold Unmarked throwMarkers; decide
  nullClears := false
  tzOfName name :=
    if name = "UTC" then some .utc
    else if name = "Pacific/Kiritimati" then some (fixedZone 14 (by decide))
    else if name = "Asia/Kolkata" then some (fixedZone 5 (by decide))
    else if name = "Pacific/Honolulu" then some honolulu
    else none
  toLowercase s := String.ofList (s.toList.map Char.toLower)
  verifyGoogle _ credential :=
    match Text.stripPrefix "google:" credential with
    | some email => .ok { sub := credential, email, name := none, picture := none }
    | none => .error "invalid id token: unknown kid"
  hashPassword := spellHash
  verifyPassword := matchesHash
  encodeSession claims := .ok (spellClaims claims)
  decodeSession := readClaims
  toRfc3339 t := toString t
  presign key _ _ := .ok key
  putObject _ := .ok ()

/-- The sample platform, with tokens for those claims only that can be read back from them. -/
@[reducible] def Platform.careful : Platform :=
  { Platform.sample with
    encodeSession := fun claims =>
      if readClaims (spellClaims claims) = .ok claims then .ok (spellClaims claims)
      else .error "unreadable claims" }

theorem careful_decodes (claims : SessionClaims) (token : String)
    (h : Platform.careful.encodeSession claims = .ok token) :
    Platform.careful.decodeSession token = .ok claims := by
  change (if readClaims (spellClaims claims) = .ok claims then Except.ok (spellClaims claims)
    else .error "unreadable claims") = .ok token at h
  split at h
  · next hread =>
      obtain rfl := Except.ok.inj h
      exact hread
  · cases h

/-! ## Fixed inputs -/

/-- Noon of 15 June 2026, UTC. -/
def juneNoon : DateTime := 1781524800000000000

/-- One day in nanoseconds. -/
def oneDay : Nat := 86400000000000

/-- A payment as `CREATE` stores it. -/
def paymentRow (email cadence period : String) (amountCents : Int) (t : DateTime) :
    Contribution where
  userEmail := email
  cadence := cadence
  period := period
  amountCents := amountCents
  status := "submitted"
  proofKey := none
  note := none
  submittedAt := t
  updatedAt := t
  lockedAt := none

/-- The slug of the sample venture. -/
def poolSlug : TenantSlug := ⟨"pool", by decide⟩

/-- A venture of Ann's, user 0, with monthly dues. -/
def sampleTenant (dues : Int) : NewTenant where
  slug := poolSlug
  displayName := "Pool"
  timezone := "UTC"
  currency := "USD"
  cadence := "monthly"
  duesAmountCents := dues
  createdBy := 0

/-- Ann pays for June 2026. -/
def samplePayment (amountCents : Int) : NewContribution where
  userEmail := "ann@pool.org"
  cadence := "monthly"
  period := "2026-06"
  amountCents := amountCents
  proofKey := none
  note := none

/-- The settings of that venture. -/
def sampleSettings (dues : Int) : Settings where
  timezone := "UTC"
  currency := "USD"
  displayName := "Pool"
  cadence := "monthly"
  duesAmountCents := dues
  purpose := none
  createdAt := juneNoon
  updatedAt := juneNoon

section Requests

attribute [local instance] Platform.sample

/-- The headers of a request with the token that a sign-in at `now` hands out. -/
def bearer (email : String) (now : DateTime) : Headers where
  authorization := some ("Bearer " ++ spellClaims
    { iss := sessionIssuer
      sub := email
      email
      name := none
      picture := none
      exp := timestamp (now + defaultSessionTtl)
      iat := timestamp now })
  contentType := none

/-- A sign-in with Google. -/
def signIn (email : String) : AccountAction := .signIn (.google (.ok ⟨"google:" ++ email⟩))

/-- Ann signs in and creates a venture with monthly dues. -/
def annOpens (timezone : String) (dues : Int) (now : DateTime) : List AccountAction :=
  [signIn "ann@pool.org",
    .createTenant (bearer "ann@pool.org" now)
      (.ok
        { slug := "pool"
          displayName := "Pool"
          timezone
          currency := "USD"
          duesAmountCents := dues })]

/-- Ann's venture in a fresh deployment. -/
def openVenture (timezone : String) (dues : Int) (now : DateTime) : System :=
  Trace.exec Roster.step (annOpens timezone dues now) (System.empty now)

/-- Ann invites an address to her venture. -/
def annInvites (email : String) (role : Role) : AccountAction :=
  .createInvite "pool" (bearer "ann@pool.org" juneNoon) (.ok { email, role })

/-- Bob has signed in, and then Ann has invited him to her venture. -/
def bobInvited : System :=
  Trace.exec Roster.step
    (annOpens "UTC" 10000 juneNoon ++
      [signIn "bob@pool.org", annInvites "bob@pool.org" .member]) (System.empty juneNoon)

end Requests

end SharamLedger
