import SharamLedger.Gateway.Http

/-!
# Sign-in

The handlers of `crate/gateway/src/routes/auth.rs`. All three end the same way: pending invites of
the address become memberships, and a session token for the address is issued.
-/

namespace SharamLedger

open Lib

structure GoogleRequest where
  credential : String
  deriving DecidableEq, Repr

structure RegisterRequest where
  email : String
  password : String
  displayName : Option String
  deriving DecidableEq, Repr

structure LoginRequest where
  email : String
  password : String
  deriving DecidableEq, Repr

structure AuthUser where
  sub : String
  email : String
  name : Option String
  picture : Option String
  deriving DecidableEq, Repr

structure AuthResponse where
  token : String
  user : AuthUser
  acceptedInvites : List String
  deriving DecidableEq, Repr

def minPasswordLen : Nat := 8

/-- Something before the first `@`, and behind it a domain with an inner dot. -/
def validEmail (s : String) : Bool :=
  match Text.splitOnceChars ['@'] s.toList with
  | some (before, domain) =>
      !before.isEmpty && !domain.isEmpty && domain.contains '.' &&
        domain.head? != some '.' && domain.getLast? != some '.'
  | none => false

variable [Platform]

def normalizeEmail (s : String) : String := Platform.toLowercase (Text.trim s)

/-- The common end of the three handlers. -/
def openSession (email : String) (user : UserRecord) (name picture : Option String) :
    Handler AuthResponse := do
  let acceptedInvites ← ledgerCall internalError (acceptPendingInvites email user.id)
  let token ← issue { email, name, picture }
  return { token, user := { sub := email, email, name, picture }, acceptedInvites }

/-- `POST /api/auth/google`. -/
def google (payload : Extracted GoogleRequest) : Handler AuthResponse := do
  let payload ← .lift payload
  let verified ← .read fun s => Platform.verifyGoogle s.now payload.credential
  let claims ← .lift (verified.mapError fun e => ⟨401, e⟩)
  let user ← ledgerCall internalError
    (upsertUser { email := claims.email, googleSub := claims.sub, displayName := claims.name })
  openSession claims.email user claims.name claims.picture

/-- `display_name` of a registration: trimmed, and dropped when blank. -/
def registerName (displayName : Option String) : Option String :=
  (displayName.map Text.trim).filter fun s => !s.isEmpty

/-- `POST /api/auth/register`. The salt is the one the hash draws. -/
def register (salt : String) (payload : Extracted RegisterRequest) : Handler AuthResponse := do
  let payload ← .lift payload
  let email := normalizeEmail payload.email
  .ensure (validEmail email) ⟨400, "invalid email"⟩
  .ensure (minPasswordLen ≤ payload.password.utf8ByteSize)
    ⟨400, "password must be at least " ++ toString minPasswordLen ++ " characters"⟩
  let displayName := registerName payload.displayName
  let hash ← .lift ((Platform.hashPassword salt payload.password).mapError
    fun _ => ⟨500, "hash failed"⟩)
  let user ← ledgerCall
    (fun
      | .userExists _ => ⟨409, "an account with that email already exists — try signing in"⟩
      | other => internalError other)
    (createPasswordUser { email, passwordHash := hash, displayName })
  openSession email user user.row.displayName none

/-- `POST /api/auth/login`. -/
def login (payload : Extracted LoginRequest) : Handler AuthResponse := do
  let payload ← .lift payload
  let email := normalizeEmail payload.email
  .ensure (!(email.isEmpty || payload.password.isEmpty)) ⟨400, "email and password required"⟩
  let row ← ledgerCall internalError (getUserByEmail email)
  -- an unknown address gets the answer of a wrong password
  let user ← .okOr ⟨401, "invalid email or password"⟩ row
  let hash ← .okOr ⟨401, "this account doesn't have a password — use Google sign-in"⟩
    user.row.passwordHash
  .ensure (Platform.verifyPassword payload.password hash) ⟨401, "invalid email or password"⟩
  openSession email user user.row.displayName none

end SharamLedger
