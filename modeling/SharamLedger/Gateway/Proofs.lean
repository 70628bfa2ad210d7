import SharamLedger.Gateway.Contributions

/-!
# Proofs of payment

The handlers of `crate/gateway/src/routes/proofs.rs` over the proof store of
`crate/storage/src/proof.rs`. Keys are made by the server and lie under the tenant's prefix.
-/

namespace SharamLedger

open Lib

structure PostProofResponse where
  proofKey : String
  contentType : String
  sizeBytes : Nat
  deriving DecidableEq, Repr

structure GetProofUrlResponse where
  url : String
  expiresInSecs : Nat
  deriving DecidableEq, Repr

/-- `PRESIGN_TTL` in seconds. -/
def presignTtl : Nat := 300

/-- The file extension of an accepted content type. -/
def extFor (contentType : String) : Option String :=
  if contentType = "image/jpeg" then some "jpg"
  else if contentType = "image/png" then some "png"
  else if contentType = "image/webp" then some "webp"
  else if contentType = "application/pdf" then some "pdf"
  else none

/-- `c.is_ascii_alphanumeric() || c == '.' || c == '_' || c == '-'`. -/
def isFragChar (c : Char) : Bool :=
  c.isAlphanum || c == '.' || c == '_' || c == '-'

/-- Keep the allowed characters; a run of others becomes one dash. -/
def collapseRuns (prevDash : Bool) : List Char → List Char
  | [] => []
  | c :: rest =>
      if isFragChar c then c :: collapseRuns false rest
      else if prevDash then collapseRuns true rest
      else '-' :: collapseRuns true rest

/-- `trim_matches('-')`. -/
def trimDashes (l : List Char) : List Char :=
  ((l.dropWhile (· == '-')).reverse.dropWhile (· == '-')).reverse

variable [Platform]

/-- A path fragment for an e-mail address. -/
def sanitizeEmailFrag (email : String) : String :=
  let lower := Platform.toLowercase email
  let merged := match Text.splitOnce "@" lower with
    | some (local_, domain) => local_ ++ "_at_" ++ domain
    | none => lower
  String.ofList (trimDashes (collapseRuns false merged.toList))

/-- The key `ProofStore::put` makes, given the UUID it draws. -/
def proofKeyFor (slug userEmail ext uuid : String) : String :=
  proofPrefix slug ++ sanitizeEmailFrag userEmail ++ "/" ++ uuid ++ "." ++ ext

/-- `Error::S3`. -/
def s3Error (text : String) : HttpError := ⟨500, "s3: " ++ text⟩

/-- `ProofStore::put`. -/
def putProof (slug userEmail contentType ext uuid : String) (bytes : List UInt8) :
    Handler String :=
  let key := proofKeyFor slug userEmail ext uuid
  .exec fun s =>
    match Platform.putObject key with
    | .ok _ =>
        .ok (key, { s with
          proofs := fun k => if k = key then some ⟨contentType, bytes⟩ else s.proofs k })
    | .error e => .error (s3Error e)

/-- The bare content type of a request, lower-cased. -/
def bareContentType (headers : Headers) : String :=
  (headers.contentType.map fun v =>
    Platform.toLowercase
      (String.ofList (Text.trimChars (v.toList.takeWhile (· != ';'))))).getD ""

/-- `post_proof`. -/
def postProof (slug uuid : String) (headers : Headers) (body : Extracted (List UInt8)) :
    Handler PostProofResponse := do
  let body ← .lift body
  let identity ← authenticate headers
  let tenantSlug ← tenantSlugOf slug
  let isMember ← callerIsMember identity.email slug
  .ensure isMember notAMember
  .ensure (!body.isEmpty) ⟨400, "empty body"⟩
  let contentType := bareContentType headers
  let ext ← .okOr
    ⟨415, "only image/jpeg, image/png, image/webp, application/pdf are accepted"⟩
    (extFor contentType)
  let proofKey ← putProof tenantSlug.val identity.email contentType ext uuid body
  return { proofKey, contentType, sizeBytes := body.length }

omit [Platform] in
/-- The state with an object under a key of the store. -/
def System.withProof (s : System) (key : String) (proof : StoredProof) : System :=
  { s with proofs := fun k => if k = key then some proof else s.proofs k }

/-- What an accepted upload did: the object lies under the key that the response names. -/
def ProofUploaded (slug uuid : String) (headers : Headers) (body : Extracted (List UInt8))
    (s : System) (result : Except HttpError PostProofResponse) (s' : System) : Prop :=
  ∃ bytes identity ext, body = .ok bytes ∧ authResult headers s.now = .ok identity ∧
    (s.control.roleFor identity.email slug).isSome = true ∧
    extFor (bareContentType headers) = some ext ∧
    result = .ok
      { proofKey := proofKeyFor slug identity.email ext uuid
        contentType := bareContentType headers
        sizeBytes := bytes.length } ∧
    s' = s.withProof (proofKeyFor slug identity.email ext uuid) ⟨bareContentType headers, bytes⟩

theorem postProof_spec (slug uuid : String) (headers : Headers) (body : Extracted (List UInt8))
    (s : System) : (postProof slug uuid headers body).StopsOr s fun result s' =>
      ProofUploaded slug uuid headers body s result s' := by
  unfold postProof
  refine Prog.stopsOr_bind (Prog.run_lift body s) fun bytes hbody => ?_
  refine Prog.stopsOr_bind (run_authenticate headers s) fun identity hauth => ?_
  refine Prog.stopsOr_bind (run_tenantSlugOf slug s) fun tenantSlug hslug => ?_
  refine Prog.stopsOr_bind (run_callerIsMember identity.email slug s) fun isMember hmember => ?_
  refine Prog.stopsOr_bind (Prog.run_ensure isMember notAMember s) fun _ hcalled => ?_
  refine Prog.stopsOr_bind (Prog.run_ensure _ _ s) fun _ _ => ?_
  refine Prog.stopsOr_bind (Prog.run_okOr _ _ s) fun ext hext => ?_
  obtain rfl := tenantSlugOf_ok hslug
  have hmember : (s.control.roleFor identity.email tenantSlug.val).isSome = true := by simp_all
  have hext : extFor (bareContentType headers) = some ext := by
    cases h : extFor (bareContentType headers) with
    | none => simp [h] at hext
    | some found => simpa [h] using hext
  cases hput : Platform.putObject (proofKeyFor tenantSlug.val identity.email ext uuid) with
  | error e => exact .inl ⟨s3Error e, by simp [putProof, hput]⟩
  | ok u =>
      right
      exact ⟨bytes, identity, ext, hbody, hauth, hmember, hext, by simp [putProof, hput],
        by simp [putProof, hput, System.withProof]⟩

/-- `get_proof_url`. -/
def getProofUrl (slug : String) (key : Extracted String) (headers : Headers) :
    Handler GetProofUrlResponse := do
  let key ← .lift key
  let identity ← authenticate headers
  let _ ← tenantSlugOf slug
  -- here the key is checked before the membership
  .ensure (Text.startsWith key (proofPrefix slug)) ⟨400, "key does not belong to this tenant"⟩
  let isMember ← callerIsMember identity.email slug
  .ensure isMember notAMember
  let url ← .read fun s => Platform.presign key presignTtl s.now
  let url ← .lift (url.mapError s3Error)
  return { url, expiresInSecs := presignTtl }

end SharamLedger
