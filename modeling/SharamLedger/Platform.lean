import SharamLedger.Domain

/-!
# What the program takes from outside the repository

The gateway calls an e-mail check and error texts of the database, a time zone table, a password
hash, token signatures, Unicode case mapping and an object store. `Platform` holds these
functions; nothing is assumed of them beyond the fields that are propositions.
-/

namespace SharamLedger

/-- `GoogleClaims`, as far as the gateway reads it. -/
structure GoogleClaims where
  sub : String
  email : String
  name : Option String
  picture : Option String
  deriving DecidableEq, Repr

/-- Identity carried by a session token. -/
structure Identity where
  email : String
  name : Option String
  picture : Option String
  deriving DecidableEq, Repr

/-- The claims of a session JWT. -/
structure SessionClaims where
  iss : String
  sub : String
  email : String
  name : Option String
  picture : Option String
  exp : Int
  iat : Int
  deriving DecidableEq, Repr

/-- A database error that no event of the schema throws. -/
inductive DbFault where
  /-- A field value that its `TYPE` or `ASSERT` rejects. -/
  | field (table field : String) (value : String)
  /-- A value that a unique index already holds. -/
  | index (name : String) (value : String)
  /-- `CREATE` on a record id that exists. -/
  | recordExists (id : String)
  /-- An assignment that changes a `READONLY` field. -/
  | readonly (table field : String)
  deriving DecidableEq, Repr

/-- An event of the tenant schema. -/
inductive SchemaEvent where
  | contributionLockCheck
  | contributionDuesCap
  | contributionDeleteLock
  | carryForwardImmutable
  deriving DecidableEq, Repr

/-- Its name in the schema. -/
def SchemaEvent.name : SchemaEvent → String
  | .contributionLockCheck => "contribution_lock_check"
  | .contributionDuesCap => "contribution_dues_cap"
  | .contributionDeleteLock => "contribution_delete_lock"
  | .carryForwardImmutable => "carry_forward_immutable"

/-- An error a statement ends with: an event's text, or a fault of the database. -/
inductive DbError where
  | thrown (event : SchemaEvent) (text : String)
  | fault (fault : DbFault)
  deriving DecidableEq, Repr

/-- The marker words by which `map_db_error` recognises what an event threw. -/
def throwMarkers : List String :=
  ["period_locked:", "dues_cap_exceeded:", "carry_forward_immutable",
    "Database record `carry_forward:current` already exists"]

/-- The text holds none of the marker words. -/
def Unmarked (s : String) : Prop := ∀ m ∈ throwMarkers, ¬ m.toList <:+: s.toList

/-- The value a fault reports back to the client. -/
def DbFault.value : DbFault → String
  | .field _ _ value => value
  | .index _ value => value
  | .recordExists id => id
  | .readonly .. => ""

class Platform where
  /-- `string::is_email` of the database. -/
  isEmail : String → Bool
  /-- The text in front of what an event threw, which may name the event. -/
  throwPrefix : SchemaEvent → String
  /-- The text of a fault. -/
  faultText : DbFault → String
  throwPrefix_unmarked : ∀ event, ∀ m ∈ throwMarkers, m ≠ event.name →
    ¬ m.toList <:+: (throwPrefix event).toList
  faultText_unmarked : ∀ fault, fault.value ≠ "carry_forward:current" → Unmarked fault.value →
    Unmarked (faultText fault)
  /-- Whether `MERGE` takes a JSON null for an optional field as clearing it. If not, the null is a
  value that the type of the field refuses. -/
  nullClears : Bool
  /-- The zone of an IANA name. -/
  tzOfName : String → Option Tz
  /-- Unicode lower-casing. -/
  toLowercase : String → String
  /-- Verification of a Google ID token at an instant. -/
  verifyGoogle : DateTime → String → Except String GoogleClaims
  /-- Argon2id with the given salt. -/
  hashPassword : String → String → Except String String
  /-- Whether a password matches a stored hash. -/
  verifyPassword : String → String → Bool
  /-- Signature of session claims. -/
  encodeSession : SessionClaims → Except String String
  /-- Claims of a token whose signature is genuine. -/
  decodeSession : String → Except String SessionClaims
  /-- RFC 3339 rendering of an instant. -/
  toRfc3339 : DateTime → String
  /-- A presigned download link, given the key, the lifetime in seconds and the instant. -/
  presign : String → Nat → DateTime → Except String String
  /-- Whether the object store takes an upload, given the key. -/
  putObject : String → Except String Unit

variable [Platform]

/-- `parse_tz`. -/
def parseTz (name : String) : Except DomainError Tz :=
  match Platform.tzOfName name with
  | some tz => .ok tz
  | none => .error (.invalidTimezone name)

end SharamLedger
