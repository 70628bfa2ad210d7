import SharamLedger.Acknowledged
import SharamLedger.AddContribution
import SharamLedger.Money
import SharamLedger.Uploads
import SharamLedger.UrlEncode
import SharamLedger.VenturePages
import SharamLedger.ZoneNames

/-!
# The form for payments

`MyPeriodPanel` of `sharam-ui/src/pages/venture.rs`: what the caller has paid this period, a form
with a receipt for the next payment, and the list of payments. In every reachable state the form
records a payment that the gateway takes, and the panel then shows it; after any other attempt the
panel is as it was.
-/

namespace SharamLedger

open Lib

/-- `MAX_PROOF_BYTES` of `routes/proofs.rs`, the body limit of the upload route. -/
def proofBodyLimit : Nat := 10 * 1024 * 1024

namespace Pages

/-! ## The receipt -/

/-- `MAX_PROOF_BYTES` of the page. -/
def maxProofBytes : Nat := 10 * 1024 * 1024

/-- The types that the page sends. -/
def proofTypes : List String := ["image/jpeg", "image/png", "image/webp", "application/pdf"]

/-- A file that was picked, with the type that the browser reports. -/
structure PickedFile where
  name : String
  contentType : Option String
  bytes : List UInt8

/-- A staged receipt. -/
structure StagedProof where
  contentType : String
  bytes : List UInt8
  known : contentType ∈ proofTypes
  small : bytes.length ≤ maxProofBytes

def endsWith (s suffix : String) : Bool := suffix.toList.isSuffixOf s.toList

section Stage

variable [Platform]

/-- `proof_content_type`. -/
def proofContentType (filename : String) : Option String :=
  let lower := Platform.toLowercase filename
  if endsWith lower ".jpg" || endsWith lower ".jpeg" then some "image/jpeg"
  else if endsWith lower ".png" then some "image/png"
  else if endsWith lower ".webp" then some "image/webp"
  else if endsWith lower ".pdf" then some "application/pdf"
  else none

/-- The type of the browser if it is one of the four, or else by the name. -/
def stagedType (file : PickedFile) : Option String :=
  match file.contentType.filter (· ∈ proofTypes) with
  | some contentType => some contentType
  | none => proofContentType file.name

theorem stagedType_known {file : PickedFile} {contentType : String}
    (h : stagedType file = some contentType) : contentType ∈ proofTypes := by
  unfold stagedType at h
  split at h
  · next heq =>
      obtain rfl := Option.some.inj h
      exact decide_eq_true_iff.mp (Option.filter_eq_some_iff.mp heq).2
  · unfold proofContentType at h
    dsimp only at h
    split at h
    · obtain rfl := Option.some.inj h
      decide
    split at h
    · obtain rfl := Option.some.inj h
      decide
    split at h
    · obtain rfl := Option.some.inj h
      decide
    split at h
    · obtain rfl := Option.some.inj h
      decide
    · cases h

/-- Picking a file stages it or shows an error. -/
def stage (file : PickedFile) : Except String StagedProof :=
  match h : stagedType file with
  | none => .error "Receipt must be JPG, PNG, WebP, or PDF."
  | some contentType =>
      if hsize : file.bytes.length ≤ maxProofBytes then
        .ok ⟨contentType, file.bytes, stagedType_known h, hsize⟩
      else
        .error ("Receipt is too large (" ++ toString (file.bytes.length / (1024 * 1024)) ++
          " MB). Max 10 MB.")

end Stage

/-! ## The form -/

/-- How a text in the amount field is read as cents. It goes through a floating-point number, which
is rounded to 64 bits in the end; there is no result without a number above zero. -/
structure AmountReader where
  read : String → Option Int
  fits : ∀ text cents, read text = some cents → I64.Fits cents

/-- What is in the form. The file is the one picked last, if it was not removed. -/
structure PaymentForm where
  amount : String
  note : String
  file : Option PickedFile

/-- A note of blanks is no note. -/
def PaymentForm.sentNote (form : PaymentForm) : Option String :=
  let note := Text.trim form.note
  if note = "" then none else some note

/-- What the Max button puts in the amount field. -/
def maxMajor (remain : Int) : String :=
  if remain % 100 = 0 then toString (remain / 100)
  else toString (remain / 100) ++ "." ++ String.ofList (Decimal.paddedInt 2 (remain % 100))

/-- The panel says that the caller is paid up, and has no form. -/
def settled (summary : PeriodSummaryView) : Bool :=
  summary.remainingCents == 0 && 0 < summary.duesCents

section Requests

variable [Platform]

/-- A file that cannot be staged clears the receipt. -/
def PaymentForm.staged (form : PaymentForm) : Option StagedProof :=
  form.file.bind fun file => (stage file).toOption

def fetchMyContributions (token : Option String) (slug : String) :
    PageProg ListContributionsResponse :=
  authed token fun headers => myContributions slug (.ok none) headers

/-- `upload_proof`. A body over the limit of the route is rejected before the handler runs. -/
def uploadProof (rejection : HttpError) (token : Option String) (slug uuid : String)
    (proof : StagedProof) : PageProg String := do
  let response ← authed token fun headers =>
    postProof slug uuid { headers with contentType := some proof.contentType }
      (if proof.bytes.length ≤ proofBodyLimit then .ok proof.bytes else .error rejection)
  return response.proofKey

def submitContribution (token : Option String) (slug : String) (req : PostContributionRequest) :
    PageProg Unit := do
  let _ ← authed token fun headers => postContribution slug headers (.ok req)
  return ()

/-- `fetch_proof_url`, behind the button of a payment with a receipt. The key goes through the
query of the request. -/
def fetchProofUrl (rejection : HttpError) (token : Option String) (slug proofKey : String) :
    PageProg String := do
  let response ← authed token fun headers =>
    getProofUrl slug
      (match queryField "key" (queryOf (proofUrlTarget slug proofKey)) with
        | some key => .ok key
        | none => .error rejection)
      headers
  return response.url

/-- The key of the staged receipt, which is uploaded first. -/
def uploadStaged (rejection : HttpError) (token : Option String) (slug uuid : String) :
    Option StagedProof → Prog System String (Option String)
  | none => return none
  | some proof => do
      let key ← (uploadProof rejection token slug uuid proof).mapErr fun e =>
        "Proof upload failed: " ++ e.message
      return some key

/-- `on_submit`. -/
def recordPayment (reader : AmountReader) (rejection : HttpError) (token : Option String)
    (slug uuid : String) (form : PaymentForm) : Prog System String Unit := do
  let cents ← .okOr "Enter an amount greater than zero." (reader.read (Text.trim form.amount))
  .ensure (0 < cents) "Amount rounds to zero."
  let proofKey ← uploadStaged rejection token slug uuid form.staged
  (submitContribution token slug
    { amountCents := cents, note := form.sentNote, proofKey }).mapErr ApiError.message

end Requests

section Runs

variable [Platform]

variable {reader : AmountReader} {rejection : HttpError} {token : Option String} {uuid : String}
  {s : System} {identity : Identity} {form : PaymentForm}

/-! ## The upload -/

omit [Platform] in
theorem extFor_of_known {contentType : String} (h : contentType ∈ proofTypes) :
    ∃ ext, extFor contentType = some ext := by
  simp only [proofTypes, List.mem_cons, List.not_mem_nil, or_false] at h
  rcases h with rfl | rfl | rfl | rfl
  · exact ⟨"jpg", rfl⟩
  · exact ⟨"png", rfl⟩
  · exact ⟨"webp", rfl⟩
  · exact ⟨"pdf", rfl⟩

/-- Lower-casing leaves the four types alone. -/
def TypesStay : Prop := ∀ contentType ∈ proofTypes, Platform.toLowercase contentType = contentType

/-- The gateway reads the type that the page sent. -/
theorem bareContentType_sent (htypes : TypesStay) (headers : Headers) {contentType : String}
    (h : contentType ∈ proofTypes) :
    bareContentType { headers with contentType := some contentType } = contentType := by
  have htrim : String.ofList (Text.trimChars (contentType.toList.takeWhile (· != ';'))) =
      contentType := by
    simp only [proofTypes, List.mem_cons, List.not_mem_nil, or_false] at h
    rcases h with rfl | rfl | rfl | rfl <;> decide
  rw [bareContentType, Option.map_some, Option.getD_some, htrim]
  exact htypes contentType h

/-- The store of the gateway takes the receipt. -/
def Storable (email slug uuid : String) (proof : StagedProof) : Prop :=
  proof.bytes ≠ [] ∧ ∀ ext, extFor proof.contentType = some ext →
    Platform.putObject (proofKeyFor slug email ext uuid) = .ok ()

/-- A member's receipt that the store takes. Neither its type nor its size is in the way. -/
theorem run_uploadProof (rejection : HttpError) {slug : TenantSlug} {proof : StagedProof}
    (htypes : TypesStay)
    (hsession : session token s.now = some identity)
    (hmember : (s.control.roleFor identity.email slug.val).isSome = true)
    (hproof : Storable identity.email slug.val uuid proof) :
    ∃ ext, extFor proof.contentType = some ext ∧
      (uploadProof rejection token slug.val uuid proof).run s =
        (.ok (proofKeyFor slug.val identity.email ext uuid),
          s.withProof (proofKeyFor slug.val identity.email ext uuid)
            ⟨proof.contentType, proof.bytes⟩) := by
  obtain ⟨ext, hext⟩ := extFor_of_known proof.known
  obtain ⟨text, rfl, hauth⟩ := of_session hsession
  have hauth : authResult { tokenHeaders text with contentType := some proof.contentType } s.now =
      .ok identity := hauth
  have hslug : TenantSlug.new slug.val = .ok slug := dif_pos slug.valid
  have hput := hproof.2 ext hext
  have hsmall : proof.bytes.length ≤ proofBodyLimit := proof.small
  refine ⟨ext, hext, ?_⟩
  simp [uploadProof, run_authed, postProof, putProof, hauth, hslug, hmember, hproof.1, hput, hext,
    hsmall, bareContentType_sent htypes _ proof.known, Except.mapError, System.withProof]

/-- Any other receipt is refused, and nothing changes. -/
theorem run_uploadProof_refused (rejection : HttpError) {slug : String} {proof : StagedProof}
    (htypes : TypesStay)
    (hsession : session token s.now = some identity)
    (hproof : ¬ ((s.control.roleFor identity.email slug).isSome = true ∧
      Storable identity.email slug uuid proof)) :
    ∃ e, (uploadProof rejection token slug uuid proof).run s = (.error e, s) := by
  obtain ⟨ext, hext⟩ := extFor_of_known proof.known
  obtain ⟨text, rfl, hauth⟩ := of_session hsession
  have hauth : authResult { tokenHeaders text with contentType := some proof.contentType } s.now =
      .ok identity := hauth
  have hsmall : proof.bytes.length ≤ proofBodyLimit := proof.small
  cases hnew : TenantSlug.new slug with
  | error e => simp [uploadProof, run_authed, postProof, hauth, hnew, hsmall, Except.mapError]
  | ok tenantSlug =>
      obtain rfl := TenantSlug.val_of_new hnew
      by_cases hmember : (s.control.roleFor identity.email tenantSlug.val).isSome = true
      · by_cases hempty : proof.bytes = []
        · simp [uploadProof, run_authed, postProof, hauth, hnew, hmember, hempty, Except.mapError]
        · cases hput : Platform.putObject
              (proofKeyFor tenantSlug.val identity.email ext uuid) with
          | ok u =>
              refine absurd ⟨hmember, hempty, fun ext' hext' => ?_⟩ hproof
              obtain rfl := Option.some.inj (hext.symm.trans hext')
              exact hput
          | error e => simp [uploadProof, run_authed, postProof, putProof, hauth, hnew, hmember,
              hempty, hext, hput, hsmall, bareContentType_sent htypes _ proof.known,
              Except.mapError]
      · simp [uploadProof, run_authed, postProof, hauth, hnew, hmember, hsmall, Except.mapError]

/-! ## The payment -/

/-- The gateway takes a payment of the cents: the caller is a member, the venture has a current
period that the database has not locked, and the dues leave room for the sum that the cap adds
up. -/
structure Due (s : System) (email slug : String) (cents : Int) (row : Settings)
    (period : String) : Prop where
  member : (s.control.roleFor email slug).isSome = true
  settings : (s.namespaces slug).settings = some row
  current : currentPeriodOf s.now row.toTenantSettings = .ok period
  printable : isPeriodText period = true
  unlocked : currentPeriodFor s.now row.cadence ≤ period
  room : row.duesAmountCents = 0 ∨
    I64.wrap (paidSum (s.namespaces slug).contribution.rows email period + cents) ≤
      row.duesAmountCents

section Payment

variable {slug period : String} {headers : Headers} {p : PostContributionRequest} {row : Settings}

/-- The address of a member is one. -/
theorem email_of_role (h : Reachable s) {email : String}
    (hmember : (s.control.roleFor email slug).isSome = true) : Platform.isEmail email = true := by
  obtain ⟨u, hu, hemail, -⟩ := roleFor_isSome_iff.mp hmember
  exact hemail ▸ h.booked.refers.addresses u hu

/-- Settings with a current period have a known cadence. -/
theorem cadence_of_current {now : DateTime} {settings : TenantSettings}
    (h : currentPeriodOf now settings = .ok period) :
    ∃ c : Cadence, settings.cadence = c.asStr := by
  unfold currentPeriodOf at h
  split at h
  · cases h
  · split at h
    · cases h
    · next c hc => exact ⟨c, Cadence.asStr_of_fromStr hc⟩

/-- A payment that the gateway takes is recorded. -/
theorem run_paid (h : Reachable s) (hauth : authResult headers s.now = .ok identity)
    (hpositive : 0 < p.amountCents) (hfits : I64.Fits p.amountCents)
    (hproof : (p.proofKey.all fun pk => Text.startsWith pk (proofPrefix slug)) = true)
    (hdue : Due s identity.email slug p.amountCents row period) :
    ∃ (response : PostContributionResponse) (record : ContributionRecord)
      (table : Table Contribution),
      record.row = (paymentInput identity row.toTenantSettings period p).row s.now ∧
      table.rows = (s.namespaces slug).contribution.rows ++ [record] ∧
      (postContribution slug headers (.ok p)).run s = (.ok response,
        s.setNamespace slug { s.namespaces slug with contribution := table }) := by
  have hsettings := h.accountable.settings slug
  obtain ⟨c, hc⟩ := cadence_of_current hdue.current
  have hcheck : ((paymentInput identity row.toTenantSettings period p).row s.now).check = .ok () :=
    ZoneNames.check_payment (email_of_role h hdue.member) hc hpositive
      (by simp [ZoneNames.Unstorable, hfits, hdue.printable])
  obtain ⟨record, table, hrow, hrows, hadd⟩ :=
    AddContribution.addContribution_eq (s.namespaces slug) hcheck
  have hlock : contributionLockCheck s.now
      ((paymentInput identity row.toTenantSettings period p).row s.now) = .ok () :=
    contributionLockCheck_ok.mpr (String.not_lt.mpr hdue.unlocked)
  have hduesOf : AddContribution.duesOf (s.namespaces slug) = row.duesAmountCents := by
    rw [AddContribution.duesOf, hdue.settings]
  have hcap : contributionDuesCap { s.namespaces slug with contribution := table }
      ((paymentInput identity row.toTenantSettings period p).row s.now) = .ok () := by
    refine contributionDuesCap_ok.mpr ((AddContribution.withinCap_iff hsettings hrow hrows).mpr ?_)
    rw [hduesOf]
    exact hdue.room
  simp only [hlock, hcap, bind, Except.bind, pure, Except.pure] at hadd
  obtain ⟨role, hrole⟩ := Option.isSome_iff_exists.mp hdue.member
  obtain ⟨tenantSlug, rfl, hnew⟩ := slug_of_role h hrole
  refine ⟨⟨contributionView record, summaryView period row.cadence row.currency (summaryOf
    table.rows row.duesAmountCents identity.email period)⟩, record, table, hrow, hrows, ?_⟩
  simp only [paymentInput] at hadd
  simp [postContribution, addContribution, hauth, hnew, hdue.member, hpositive, hproof,
    hdue.settings, hdue.current, hadd, Except.mapError, summaryView]

/-- No other payment is. -/
theorem run_paid_refused (h : Reachable s) (hauth : authResult headers s.now = .ok identity)
    (hdue : ∀ row period, ¬ Due s identity.email slug p.amountCents row period) :
    ∃ e, (postContribution slug headers (.ok p)).run s = (.error e, s) := by
  rcases postContribution_spec slug headers (.ok p) s with ⟨e, he⟩ | ⟨-, hrecorded⟩
  · exact ⟨e, he⟩
  obtain ⟨p', caller, row, period, record, ns, hp, hcaller, hmember, -, hrow, hperiod, hadd, -⟩ :=
    hrecorded
  obtain rfl := Except.ok.inj hp
  obtain rfl := Except.ok.inj (hauth.symm.trans hcaller)
  obtain ⟨hcheck, hstored, hpast, hcap, hcreate, hkept, hseed⟩ :=
    Namespace.createContribution_ok hadd
  have hrows : ns.contribution.rows = (s.namespaces slug).contribution.rows ++ [record] :=
    (Table.create_some hcreate).2.1
  have hns : { s.namespaces slug with contribution := ns.contribution } = ns := by
    show Namespace.mk (s.namespaces slug).settings ns.contribution
      (s.namespaces slug).carryForward = ns
    rw [← hkept, ← hseed]
  have hstored : record.row = (paymentInput identity row.toTenantSettings period p).row s.now :=
    hstored
  have hroom := (AddContribution.withinCap_iff (h.accountable.settings slug) hstored hrows).mp
    (by rwa [hns, ← hstored])
  rw [AddContribution.duesOf, hrow] at hroom
  refine absurd ⟨hmember, hrow, hperiod, (Contribution.of_check hcheck).2.2.2, ?_, hroom⟩
    (hdue row period)
  rw [hstored] at hpast
  exact String.not_lt.mp hpast

/-- The panel of a member whose venture has a current period. -/
def panelOf (s : System) (email slug : String) (row : Settings) (period : String) :
    ListContributionsResponse where
  summary := summaryView period row.cadence row.currency
    (summaryOf (s.namespaces slug).contribution.rows row.duesAmountCents email period)
  contributions := (oldestFirst ((s.namespaces slug).contribution.select fun r =>
    r.row.userEmail == email && r.row.period == period)).map contributionView

theorem run_fetchMyContributions {slug : TenantSlug}
    (hsession : session token s.now = some identity)
    (hmember : (s.control.roleFor identity.email slug.val).isSome = true)
    (hrow : (s.namespaces slug.val).settings = some row)
    (hperiod : currentPeriodOf s.now row.toTenantSettings = .ok period) :
    (fetchMyContributions token slug.val).run s =
      (.ok (panelOf s identity.email slug.val row period), s) := by
  obtain ⟨text, rfl, hauth⟩ := of_session hsession
  have hslug : TenantSlug.new slug.val = .ok slug := dif_pos slug.valid
  simp [fetchMyContributions, run_authed, myContributions, hauth, hslug, hmember, hrow, hperiod,
    queriedPeriod, listContributions, panelOf, summaryView, Except.mapError]

/-- An upload is not on the panel. -/
theorem fetchMyContributions_withProof (hsession : session token s.now = some identity)
    (slug key : String) (proof : StoredProof) :
    ((fetchMyContributions token slug).run (s.withProof key proof)).1 =
      ((fetchMyContributions token slug).run s).1 := by
  obtain ⟨text, rfl, hauth⟩ := of_session hsession
  cases hnew : TenantSlug.new slug with
  | error e => simp [fetchMyContributions, run_authed, myContributions, System.withProof, hauth,
      hnew, Except.mapError]
  | ok tenantSlug =>
      cases hrow : (s.namespaces tenantSlug.val).settings with
      | none =>
          by_cases hmember : (s.control.roleFor identity.email slug).isSome = true <;>
            simp [fetchMyContributions, run_authed, myContributions, System.withProof, hauth, hnew,
              hmember, hrow, Except.mapError]
      | some row =>
          by_cases hmember : (s.control.roleFor identity.email slug).isSome = true <;>
            cases hperiod : currentPeriodOf s.now row.toTenantSettings <;>
              simp [fetchMyContributions, run_authed, myContributions, System.withProof, hauth,
                hnew, hmember, hrow, hperiod, queriedPeriod, listContributions, Except.mapError]

end Payment

/-! ## The receipt before the payment -/

/-- What is left behind by the upload of a receipt, if there is one. -/
inductive Uploaded (s : System) (email slug uuid : String) :
    Option StagedProof → Option String → System → Prop where
  | nothing : Uploaded s email slug uuid none none s
  | stored {proof : StagedProof} {ext : String} : extFor proof.contentType = some ext →
      Uploaded s email slug uuid (some proof) (some (proofKeyFor slug email ext uuid))
        (s.withProof (proofKeyFor slug email ext uuid) ⟨proof.contentType, proof.bytes⟩)

section Receipt

variable {slug email : String} {staged : Option StagedProof} {proofKey : Option String}
  {s₁ : System}

theorem Uploaded.proofs (h : Uploaded s email slug uuid staged proofKey s₁) :
    ∃ proofs, s₁ = { s with proofs := proofs } := by
  cases h with
  | nothing => exact ⟨s.proofs, rfl⟩
  | stored => exact ⟨_, rfl⟩

/-- The key is under the prefix of the venture. -/
theorem Uploaded.inside {slug : TenantSlug}
    (h : Uploaded s email slug.val uuid staged proofKey s₁) :
    (proofKey.all fun pk => Text.startsWith pk (proofPrefix slug.val)) = true := by
  cases h with
  | nothing => rfl
  | stored => exact (startsWith_proofKeyFor slug slug email _ uuid).mpr rfl

theorem Uploaded.fetch (h : Uploaded s email slug uuid staged proofKey s₁)
    (hsession : session token s.now = some identity) (path : String) :
    ((fetchMyContributions token path).run s₁).1 = ((fetchMyContributions token path).run s).1 := by
  cases h with
  | nothing => rfl
  | stored => exact fetchMyContributions_withProof hsession path _ _

theorem reachable_uploaded (h : Reachable s)
    (huploaded : Uploaded s email slug uuid staged proofKey s₁) : Reachable s₁ := by
  obtain ⟨proofs, rfl⟩ := huploaded.proofs
  exact
    { booked := ⟨h.booked.joined, h.booked.refers, h.booked.checked⟩
      accountable := ⟨h.accountable.joined, h.accountable.contributors, h.accountable.amounts,
        h.accountable.settings, h.accountable.seed⟩
      furnished := h.furnished }

/-- A member's receipt goes to the store. -/
theorem run_uploadStaged (rejection : HttpError) (h : Reachable s) (htypes : TypesStay)
    (hsession : session token s.now = some identity)
    (hall : ∀ proof, staged = some proof →
      (s.control.roleFor identity.email slug).isSome = true ∧
        Storable identity.email slug uuid proof) :
    ∃ proofKey s₁, (uploadStaged rejection token slug uuid staged).run s = (.ok proofKey, s₁) ∧
      Uploaded s identity.email slug uuid staged proofKey s₁ := by
  cases staged with
  | none => exact ⟨none, s, rfl, .nothing⟩
  | some proof =>
      obtain ⟨hmember, hproof⟩ := hall proof rfl
      obtain ⟨role, hrole⟩ := Option.isSome_iff_exists.mp hmember
      obtain ⟨tenantSlug, rfl, -⟩ := slug_of_role h hrole
      obtain ⟨ext, hext, hrun⟩ := run_uploadProof rejection htypes hsession hmember hproof
      refine ⟨_, _, ?_, .stored hext⟩
      simp only [uploadStaged, Prog.run_bind, Prog.run_mapErr, hrun, Except.mapError,
        Prog.run_pure]

/-- A receipt that the store does not take ends the attempt. -/
theorem run_uploadStaged_refused (rejection : HttpError) {proof : StagedProof}
    (htypes : TypesStay)
    (hsession : session token s.now = some identity)
    (hproof : ¬ ((s.control.roleFor identity.email slug).isSome = true ∧
      Storable identity.email slug uuid proof)) :
    ∃ e, (uploadStaged rejection token slug uuid (some proof)).run s = (.error e, s) := by
  obtain ⟨e, he⟩ := run_uploadProof_refused rejection htypes hsession hproof
  refine ⟨"Proof upload failed: " ++ e.message, ?_⟩
  simp only [uploadStaged, Prog.run_bind, Prog.run_mapErr, he, Except.mapError]

end Receipt

/-! ## Record payment -/

/-- What has to hold for the payment to be recorded. -/
structure Payable (reader : AmountReader) (s : System) (email slug uuid : String)
    (form : PaymentForm) (cents : Int) (row : Settings) (period : String) : Prop where
  read : reader.read (Text.trim form.amount) = some cents
  positive : 0 < cents
  due : Due s email slug cents row period
  receipt : ∀ proof, form.staged = some proof → Storable email slug uuid proof

omit [Platform] in
/-- The payment as the list shows it. -/
structure Listed (now : DateTime) (email period : String) (form : PaymentForm) (cents : Int)
    (v : ContributionView) : Prop where
  userEmail : v.userEmail = email
  period : v.period = period
  amount : v.amountCents = cents
  note : v.note = form.sentNote
  status : v.status = "submitted"
  submittedAt : v.submittedAt = now

/-- The receipt of a payment lies in the store, and its button opens it as long as the store signs
links. -/
def Opening (rejection : HttpError) (s : System) (token : Option String) (slug : String)
    (staged : Option StagedProof) (v : ContributionView) : Prop :=
  match staged with
  | none => v.proofKey = none
  | some proof => ∃ key, v.proofKey = some key ∧
      s.proofs key = some ⟨proof.contentType, proof.bytes⟩ ∧
      (fetchProofUrl rejection token slug key).run s =
        ((Platform.presign key presignTtl s.now).mapError fun e => intoApiError (s3Error e), s)

omit [Platform] in
/-- The summary with one more payment. -/
def withPayment (summary : PeriodSummaryView) (cents : Int) : PeriodSummaryView :=
  let paid := I64.add summary.paidCents cents
  { summary with
    paidCents := paid
    remainingCents := max (I64.sub summary.duesCents paid) 0 }

/-- A payment that the gateway takes is recorded, and the panel then shows one payment more. Any
other attempt leaves a receipt in the store at most, and the panel as it was. -/
inductive Records (reader : AmountReader) (rejection : HttpError) (s : System)
    (token : Option String) (slug uuid email : String) (form : PaymentForm) : Prop where
  | recorded {cents : Int} {row : Settings} {period : String} {s' : System}
      {before after : ListContributionsResponse} {v : ContributionView} :
      Payable reader s email slug uuid form cents row period →
      (recordPayment reader rejection token slug uuid form).run s = (.ok (), s') →
      (fetchMyContributions token slug).run s = (.ok before, s) →
      (fetchMyContributions token slug).run s' = (.ok after, s') →
      after.contributions.Perm (before.contributions ++ [v]) →
      Listed s.now email period form cents v →
      after.summary = withPayment before.summary cents →
      Opening rejection s' token slug form.staged v →
      Records reader rejection s token slug uuid email form
  | refused {e : String} {s' : System} {proofs : String → Option StoredProof} :
      (∀ cents row period, ¬ Payable reader s email slug uuid form cents row period) →
      (recordPayment reader rejection token slug uuid form).run s = (.error e, s') →
      s' = { s with proofs := proofs } →
      ((fetchMyContributions token slug).run s').1 =
        ((fetchMyContributions token slug).run s).1 →
      Records reader rejection s token slug uuid email form

section Press

variable {slug period : String} {row : Settings}

omit [Platform] in
/-- The key arrives at the gateway as it was. -/
theorem queryField_proofUrlTarget (slug : TenantSlug) (key : String) :
    queryField "key" (queryOf (proofUrlTarget slug.val key)) = some key := by
  have hname : "key=".toList = Percent.encode isSafeByte (Text.bytes "key".toList) ++ ['='] := by
    decide
  rw [queryOf_proofUrlTarget, hname, List.append_assoc, List.singleton_append, urlencode_toList,
    queryField, Percent.formFields_encode isSafeByte_unreserved]
  simp [Text.textOf_bytes]

theorem run_fetchProofUrl {slug : TenantSlug} {key : String}
    (hsession : session token s.now = some identity)
    (hmember : (s.control.roleFor identity.email slug.val).isSome = true)
    (hkey : Text.startsWith key (proofPrefix slug.val) = true) :
    (fetchProofUrl rejection token slug.val key).run s =
      ((Platform.presign key presignTtl s.now).mapError fun e => intoApiError (s3Error e), s) := by
  obtain ⟨text, rfl, hauth⟩ := of_session hsession
  have hslug : TenantSlug.new slug.val = .ok slug := dif_pos slug.valid
  cases hurl : Platform.presign key presignTtl s.now <;>
    simp [fetchProofUrl, run_authed, queryField_proofUrlTarget, getProofUrl, hauth, hslug, hkey,
      hmember, hurl, Except.mapError]

omit [Platform] in
theorem sum_append_one (values : List Int) (v : Int) :
    I64.sum (values ++ [v]) = I64.add (I64.sum values) v := by
  rw [I64.sum, List.foldl_append]
  rfl

omit [Platform] in
/-- The panel with one more payment of the caller. -/
theorem panelOf_added {s' : System} {email : String} {record : ContributionRecord}
    (hrows : (s'.namespaces slug).contribution.rows =
      (s.namespaces slug).contribution.rows ++ [record])
    (hemail : record.row.userEmail = email) (hperiod : record.row.period = period)
    (hstatus : record.row.status = "submitted") :
    (panelOf s' email slug row period).contributions.Perm
        ((panelOf s email slug row period).contributions ++ [contributionView record]) ∧
      (panelOf s' email slug row period).summary =
        withPayment (panelOf s email slug row period).summary record.row.amountCents := by
  constructor
  · let shown : ContributionView → Bool := fun view =>
      view.userEmail == email && view.period == period
    have hshown : ∀ r : ContributionRecord, shown (contributionView r) =
        (r.row.userEmail == email && r.row.period == period) := fun _ => rfl
    have hnew : [contributionView record].filter shown = [contributionView record] := by
      simp [shown, contributionView, hemail, hperiod]
    refine (Acknowledged.perm_oldestFirst hshown).trans ?_
    rw [hrows, List.map_append, List.filter_append, List.map_singleton, hnew]
    exact (Acknowledged.perm_oldestFirst hshown).symm.append_right _
  · have hcounts : record.row.countsFor email period = true := by
      rw [Contribution.countsFor_iff, hstatus]
      exact ⟨hemail, hperiod, by decide⟩
    have hpaid : paidAmounts (s'.namespaces slug).contribution.rows email period =
        paidAmounts (s.namespaces slug).contribution.rows email period ++
          [record.row.amountCents] := by
      simp [paidAmounts, hrows, List.filter_append, hcounts]
    simp only [panelOf, summaryView, summaryOf, withPayment, hpaid, sum_append_one]

/-- The attempt, past the amount and the receipt. -/
theorem run_recordPayment {cents : Int} {proofKey : Option String} {s₁ : System}
    (hread : reader.read (Text.trim form.amount) = some cents) (hpositive : 0 < cents)
    (hupload : (uploadStaged rejection token slug uuid form.staged).run s = (.ok proofKey, s₁)) :
    (recordPayment reader rejection token slug uuid form).run s =
      ((submitContribution token slug ⟨cents, form.sentNote, proofKey⟩).mapErr
        ApiError.message).run s₁ := by
  simp only [recordPayment, Prog.run_bind, hread, Prog.run_okOr, Prog.run_ensure, hpositive,
    decide_true, if_true, hupload]

/-- A payment that meets every condition. -/
theorem records_payable (h : Reachable s) (htypes : TypesStay)
    (hsession : session token s.now = some identity) {cents : Int}
    (hpayable : Payable reader s identity.email slug uuid form cents row period) :
    Records reader rejection s token slug uuid identity.email form := by
  have hdue := hpayable.due
  obtain ⟨role, hrole⟩ := Option.isSome_iff_exists.mp hdue.member
  obtain ⟨tenantSlug, rfl, -⟩ := slug_of_role h hrole
  obtain ⟨proofKey, s₁, hupload, huploaded⟩ := run_uploadStaged rejection h htypes hsession
    fun proof hproof => ⟨hdue.member, hpayable.receipt proof hproof⟩
  have hreached := reachable_uploaded h huploaded
  obtain ⟨proofs, hs₁⟩ := huploaded.proofs
  obtain ⟨text, rfl, hauth⟩ := of_session hsession
  let p : PostContributionRequest := ⟨cents, form.sentNote, proofKey⟩
  have hdue₁ : Due s₁ identity.email tenantSlug.val p.amountCents row period := by
    rw [hs₁]
    exact ⟨hdue.member, hdue.settings, hdue.current, hdue.printable, hdue.unlocked, hdue.room⟩
  have hauth₁ : authResult (tokenHeaders text) s₁.now = .ok identity := by rwa [hs₁]
  obtain ⟨response, record, table, hrow, hrows, hrun⟩ := run_paid hreached hauth₁
    hpayable.positive (reader.fits _ _ hpayable.read) huploaded.inside hdue₁
  let s' := s₁.setNamespace tenantSlug.val
    { s₁.namespaces tenantSlug.val with contribution := table }
  have hnamespace : s'.namespaces tenantSlug.val =
      { s₁.namespaces tenantSlug.val with contribution := table } :=
    System.namespaces_setNamespace_same ..
  have hnow : s'.now = s.now := by
    show s₁.now = s.now
    rw [hs₁]
  have hmember' : (s'.control.roleFor identity.email tenantSlug.val).isSome = true := hdue₁.member
  have hsession' : session (some text) s'.now = some identity := by rwa [hnow]
  have hbefore := run_fetchMyContributions hsession hdue.member hdue.settings hdue.current
  have hsettings' : (s'.namespaces tenantSlug.val).settings = some row := by
    rw [hnamespace]
    exact hdue₁.settings
  have hafter := run_fetchMyContributions hsession' hmember' hsettings' (hnow ▸ hdue.current)
  have hstored : (s'.namespaces tenantSlug.val).contribution.rows =
      (s.namespaces tenantSlug.val).contribution.rows ++ [record] := by
    rw [hnamespace, hrows, hs₁]
  have hemail : record.row.userEmail = identity.email := congrArg Contribution.userEmail hrow
  have hperiod : record.row.period = period := congrArg Contribution.period hrow
  have hstatus : record.row.status = "submitted" := congrArg Contribution.status hrow
  obtain ⟨hlist, hsummary⟩ := panelOf_added hstored hemail hperiod hstatus
  refine .recorded (v := contributionView record) hpayable ?_ hbefore hafter hlist ?_ ?_ ?_
  · rw [run_recordPayment hpayable.read hpayable.positive hupload]
    simp only [submitContribution, Prog.run_mapErr, Prog.run_bind, run_authed, hrun, p,
      Except.mapError, Prog.run_pure, s']
  · exact
      { userEmail := hemail
        period := hperiod
        amount := congrArg Contribution.amountCents hrow
        note := congrArg Contribution.note hrow
        status := hstatus
        submittedAt := (congrArg Contribution.submittedAt hrow).trans hnow }
  · rw [hsummary, hrow]
    rfl
  · have hkey : (contributionView record).proofKey = proofKey :=
      congrArg Contribution.proofKey hrow
    have hfetch : ∀ key, proofKey = some key →
        (fetchProofUrl rejection (some text) tenantSlug.val key).run s' =
          ((Platform.presign key presignTtl s'.now).mapError fun e => intoApiError (s3Error e),
            s') := by
      intro key hproofKey
      refine run_fetchProofUrl hsession' hmember' ?_
      have hinside := huploaded.inside
      rwa [hproofKey] at hinside
    cases hstaged : form.staged with
    | none =>
        rw [hstaged] at huploaded
        cases huploaded
        exact hkey
    | some proof =>
        rw [hstaged] at huploaded
        cases huploaded with
        | stored hext => exact ⟨_, hkey, if_pos rfl, hfetch _ rfl⟩

/-- Any other attempt. -/
theorem records_refused (h : Reachable s) (htypes : TypesStay)
    (hsession : session token s.now = some identity)
    (hpayable : ∀ cents row period,
      ¬ Payable reader s identity.email slug uuid form cents row period) :
    Records reader rejection s token slug uuid identity.email form := by
  cases hread : reader.read (Text.trim form.amount) with
  | none =>
      refine .refused hpayable (e := "Enter an amount greater than zero.") ?_ rfl rfl
      simp only [recordPayment, Prog.run_bind, hread, Prog.run_okOr]
  | some cents =>
      by_cases hpositive : 0 < cents
      swap
      · refine .refused hpayable (e := "Amount rounds to zero.") ?_ rfl rfl
        simp only [recordPayment, Prog.run_bind, hread, Prog.run_okOr, Prog.run_ensure, hpositive,
          decide_false, Bool.false_eq_true, if_false]
      by_cases hall : ∀ proof, form.staged = some proof →
          (s.control.roleFor identity.email slug).isSome = true ∧
            Storable identity.email slug uuid proof
      · obtain ⟨proofKey, s₁, hupload, huploaded⟩ := run_uploadStaged rejection h htypes
          hsession hall
        obtain ⟨proofs, hs₁⟩ := huploaded.proofs
        obtain ⟨text, rfl, hauth⟩ := of_session hsession
        have hauth₁ : authResult (tokenHeaders text) s₁.now = .ok identity := by rwa [hs₁]
        let p : PostContributionRequest := ⟨cents, form.sentNote, proofKey⟩
        have hdue : ∀ row period, ¬ Due s₁ identity.email slug p.amountCents row period := by
          intro row period hdue
          rw [hs₁] at hdue
          exact hpayable cents row period ⟨hread, hpositive,
            ⟨hdue.member, hdue.settings, hdue.current, hdue.printable, hdue.unlocked, hdue.room⟩,
            fun proof hproof => (hall proof hproof).2⟩
        obtain ⟨e, he⟩ := run_paid_refused (reachable_uploaded h huploaded) hauth₁ hdue
        have he : (postContribution slug (tokenHeaders text)
            (.ok ⟨cents, form.sentNote, proofKey⟩)).run s₁ = (.error e, s₁) := he
        refine .refused hpayable (e := (intoApiError e).message) ?_ hs₁
          (huploaded.fetch hsession slug)
        rw [run_recordPayment hread hpositive hupload]
        simp only [submitContribution, Prog.run_mapErr, Prog.run_bind, run_authed, he,
          Except.mapError]
      · -- the payment is not sent when its receipt is not taken
        obtain ⟨proof, hproof⟩ := not_forall.mp hall
        obtain ⟨hstaged, hproof⟩ := Classical.not_imp.mp hproof
        obtain ⟨e, he⟩ := run_uploadStaged_refused rejection htypes hsession hproof
        refine .refused hpayable (e := e) ?_ rfl rfl
        simp only [recordPayment, Prog.run_bind, hread, Prog.run_okOr, Prog.run_ensure, hpositive,
          decide_true, if_true, hstaged, he]

theorem records (h : Reachable s) (htypes : TypesStay)
    (hsession : session token s.now = some identity) (reader : AmountReader)
    (rejection : HttpError) (slug uuid : String) (form : PaymentForm) :
    Records reader rejection s token slug uuid identity.email form := by
  by_cases hpayable : ∃ cents row period,
      Payable reader s identity.email slug uuid form cents row period
  · obtain ⟨cents, row, period, hpayable⟩ := hpayable
    exact records_payable h htypes hsession hpayable
  · exact records_refused h htypes hsession fun cents row period hpays =>
      hpayable ⟨cents, row, period, hpays⟩

end Press

/-! ## What is left to pay -/

omit [Platform] in
/-- Decimals with two places come through the floating-point number as they are, up to a size. -/
def Precise (reader : AmountReader) : Prop :=
  ∀ text cents, CreatePage.Plain text.toList cents → 0 < cents → cents ≤ 10 ^ 15 →
    reader.read text = some cents

omit [Platform] in
/-- The Max button writes the amount out. -/
theorem plain_maxMajor {remain : Int} (h : 0 ≤ remain) :
    CreatePage.Plain (maxMajor remain).toList remain := by
  obtain ⟨n, rfl⟩ := Int.eq_ofNat_of_zero_le h
  have hmajor : (toString ((n : Int) / 100)).toList = majorDigits n :=
    Decimal.toList_toString_natCast (n / 100)
  have hdigits := (isDigits_majorDigits n).2
  unfold maxMajor
  split
  · next hwhole =>
      have hplain := CreatePage.Plain.whole _ hdigits
      rw [value_majorDigits] at hplain
      rw [hmajor]
      convert hplain using 1
      omega
  · have hminor : Decimal.paddedInt 2 ((n : Int) % 100) = Decimal.padded 2 (n % 100) :=
      Decimal.paddedInt_natCast 2 (n % 100)
    have hlength : (Decimal.padded 2 (n % 100)).length = 2 :=
      Decimal.length_padded (by decide) (by omega)
    have hplain := CreatePage.Plain.point _ _ hdigits (Text.isDigits_padded 2 (n % 100)).2
      hlength.le
    rw [value_majorDigits, Text.value_padded, hlength] at hplain
    rw [String.toList_append, String.toList_append, hmajor, String.toList_ofList, hminor]
    convert hplain using 1
    · simp
    · omega

omit [Platform] in
theorem trim_plain {text : String} {cents : Int} (h : CreatePage.Plain text.toList cents) :
    Text.trim text = text := by
  have hchars : ∀ {l : List Char}, CreatePage.Plain l cents →
      ∀ c ∈ l, Text.isWhitespace c = false := by
    intro l hl c hc
    cases hl with
    | whole _ hw => exact isWhitespace_of_isDigit (hw c hc)
    | point w f hw hf hlen =>
        rcases List.mem_append.mp hc with hc | hc
        · exact isWhitespace_of_isDigit (hw c hc)
        · rcases List.mem_cons.mp hc with rfl | hc
          · decide
          · exact isWhitespace_of_isDigit (hf c hc)
  rw [Text.trim, ManagePage.trimChars_self (hchars h), String.ofList_toList]

/-- A panel that has loaded. -/
theorem of_fetched {slug : String} {before : ListContributionsResponse}
    (hsession : session token s.now = some identity)
    (h : (fetchMyContributions token slug).run s = (.ok before, s)) :
    ∃ row period, (s.control.roleFor identity.email slug).isSome = true ∧
      (s.namespaces slug).settings = some row ∧
      currentPeriodOf s.now row.toTenantSettings = .ok period ∧
      before = panelOf s identity.email slug row period := by
  obtain ⟨text, rfl, hauth⟩ := of_session hsession
  have hanswer : ((myContributions slug (.ok none) (tokenHeaders text)).run s).1 = .ok before := by
    rw [fetchMyContributions, run_authed] at h
    cases hrun : ((myContributions slug (.ok none) (tokenHeaders text)).run s).1 with
    | error e =>
        rw [hrun] at h
        cases h
    | ok found =>
        rw [hrun] at h
        exact congrArg Except.ok (Except.ok.inj (Prod.mk.inj h).1)
  have hspec : (myContributions slug (.ok none) (tokenHeaders text)).StopsOr s fun result _ =>
      ∃ row period, (s.control.roleFor identity.email slug).isSome = true ∧
        (s.namespaces slug).settings = some row ∧
        currentPeriodOf s.now row.toTenantSettings = .ok period ∧
        result = .ok (panelOf s identity.email slug row period) := by
    unfold myContributions
    refine Prog.stopsOr_bind (Prog.run_lift _ s) fun query hquery => ?_
    obtain rfl := Except.ok.inj hquery
    refine Prog.stopsOr_bind (run_authenticate _ s) fun caller hcaller => ?_
    obtain rfl := Except.ok.inj (hauth.symm.trans hcaller)
    refine Prog.stopsOr_bind (run_tenantSlugOf slug s) fun tenantSlug hslug => ?_
    obtain rfl := tenantSlugOf_ok hslug
    refine Prog.stopsOr_bind (run_callerIsMember identity.email tenantSlug.val s)
      fun isMember hmember => ?_
    refine Prog.stopsOr_bind (Prog.run_ensure isMember notAMember s) fun _ hcalled => ?_
    have hmember : (s.control.roleFor identity.email tenantSlug.val).isSome = true := by simp_all
    refine Prog.stopsOr_bind (run_settingsFor tenantSlug s) fun settings hsettings => ?_
    obtain ⟨row, hrow, rfl⟩ := settingsFor_ok hsettings
    refine Prog.stopsOr_bind (run_readCurrentPeriod _ s) fun period hperiod => ?_
    refine .inr ⟨row, period, hmember, hrow, hperiod, ?_⟩
    simp [listContributions, hrow, panelOf, summaryView, Except.mapError]
  obtain ⟨row, period, hmember, hrow, hperiod, hresult⟩ := hspec.of_ok hanswer
  exact ⟨row, period, hmember, hrow, hperiod, Except.ok.inj hresult⟩

omit [Platform] in
/-- The form after the Max button. -/
def maxForm (summary : PeriodSummaryView) (note : String) : PaymentForm :=
  ⟨maxMajor summary.remainingCents, note, none⟩

/-- On a panel that says the caller is paid up, no payment would be recorded that keeps the sum
within 64 bits. On any other one with dues, the Max button pays them up while the period is
open. -/
structure PaysUp (reader : AmountReader) (rejection : HttpError) (s : System)
    (token : Option String) (slug uuid : String) (summary : PeriodSummaryView) : Prop where
  full : settled summary = true → ∀ form,
    (∀ cents, reader.read (Text.trim form.amount) = some cents →
      summary.paidCents + cents ≤ I64.maxValue) → ∃ e s',
    (recordPayment reader rejection token slug uuid form).run s = (.error e, s') ∧
      s'.namespaces = s.namespaces
  max : settled summary = false → 0 < summary.duesCents → summary.remainingCents ≤ 10 ^ 15 →
    isPeriodText summary.period = true → currentPeriodFor s.now summary.cadence ≤ summary.period →
    ∀ note, ∃ s' after,
      (recordPayment reader rejection token slug uuid (maxForm summary note)).run s =
        (.ok (), s') ∧
      (fetchMyContributions token slug).run s' = (.ok after, s') ∧
      settled after.summary = true ∧ after.summary.paidCents = summary.duesCents

section PaidUp

variable {slug period : String} {row : Settings}

/-- The figures of the panel when the payments of the period fit 64 bits. -/
theorem panelOf_figures (h : Reachable s) {email : String}
    (hrow : (s.namespaces slug).settings = some row)
    (hfits : I64.Fits (paidSum (s.namespaces slug).contribution.rows email period)) :
    0 ≤ row.duesAmountCents ∧ row.duesAmountCents ≤ I64.maxValue ∧
      0 ≤ paidSum (s.namespaces slug).contribution.rows email period ∧
      (panelOf s email slug row period).summary.paidCents =
        paidSum (s.namespaces slug).contribution.rows email period ∧
      (panelOf s email slug row period).summary.remainingCents =
        max (row.duesAmountCents - paidSum (s.namespaces slug).contribution.rows email period)
          0 := by
  obtain ⟨hdues, hroom, -⟩ := Settings.dues_of_check (h.accountable.settings slug row hrow)
  have hpaid := paidSum_nonneg (h.accountable.amounts slug) email period
  have hsum : I64.sum (paidAmounts (s.namespaces slug).contribution.rows email period) =
      paidSum (s.namespaces slug).contribution.rows email period := I64.sum_of_fits hfits
  refine ⟨hdues, hroom.2, hpaid, hsum, ?_⟩
  show max (I64.sub row.duesAmountCents (I64.sum (paidAmounts
    (s.namespaces slug).contribution.rows email period))) 0 = _
  rw [hsum, I64.sub_of_nonneg hdues hpaid hroom.2 hfits.2]

/-- A settled panel leaves no room for a payment. -/
theorem not_payable_of_settled (h : Reachable s)
    (hrow : (s.namespaces slug).settings = some row)
    (hperiod : currentPeriodOf s.now row.toTenantSettings = .ok period) {email : String}
    (hfits : I64.Fits (paidSum (s.namespaces slug).contribution.rows email period))
    (hsettled : settled (panelOf s email slug row period).summary = true) {cents : Int}
    (hsmall : (panelOf s email slug row period).summary.paidCents + cents ≤ I64.maxValue)
    (row' : Settings) (period' : String) :
    ¬ Payable reader s email slug uuid form cents row' period' := by
  intro hpayable
  have hdue := hpayable.due
  obtain rfl : row = row' := Option.some.inj (hrow.symm.trans hdue.settings)
  obtain rfl : period = period' := Except.ok.inj (hperiod.symm.trans hdue.current)
  obtain ⟨-, -, hnonneg, hpaid, hremaining⟩ := panelOf_figures h hrow hfits
  rw [hpaid] at hsmall
  simp only [settled, hremaining, Bool.and_eq_true, beq_iff_eq, decide_eq_true_eq] at hsettled
  obtain ⟨hnothing, hdues⟩ := hsettled
  have hdues : 0 < row.duesAmountCents := hdues
  have hpositive := hpayable.positive
  rcases hdue.room with hzero | hroom
  · omega
  · rw [I64.wrap_of_fits ⟨by omega, hsmall⟩] at hroom
    omega

/-- The amount of the Max button is payable. -/
theorem payable_max (h : Reachable s) (hprecise : Precise reader) {email note : String}
    (hmember : (s.control.roleFor email slug).isSome = true)
    (hrow : (s.namespaces slug).settings = some row)
    (hperiod : currentPeriodOf s.now row.toTenantSettings = .ok period)
    (hfits : I64.Fits (paidSum (s.namespaces slug).contribution.rows email period))
    (hopen : settled (panelOf s email slug row period).summary = false)
    (hdues : 0 < row.duesAmountCents)
    (hsmall : (panelOf s email slug row period).summary.remainingCents ≤ 10 ^ 15)
    (hprintable : isPeriodText period = true)
    (hunlocked : currentPeriodFor s.now row.cadence ≤ period) :
    Payable reader s email slug uuid (maxForm (panelOf s email slug row period).summary note)
      (panelOf s email slug row period).summary.remainingCents row period := by
  obtain ⟨hnonneg, hmax, -, -, hremaining⟩ := panelOf_figures h hrow hfits
  have hpositive : 0 < (panelOf s email slug row period).summary.remainingCents := by
    have hduesCents : 0 < (panelOf s email slug row period).summary.duesCents := hdues
    simp only [settled, hduesCents, decide_true, Bool.and_true, beq_eq_false_iff_ne] at hopen
    omega
  have hplain := plain_maxMajor hpositive.le
  refine ⟨?_, hpositive, ⟨hmember, hrow, hperiod, hprintable, hunlocked, .inr ?_⟩, fun _ h => ?_⟩
  · show reader.read (Text.trim (maxMajor _)) = _
    rw [trim_plain hplain]
    exact hprecise _ _ hplain hpositive hsmall
  · -- the sum comes to the dues, which fit
    have hsum : paidSum (s.namespaces slug).contribution.rows email period +
        (panelOf s email slug row period).summary.remainingCents = row.duesAmountCents := by
      omega
    have hdue : I64.Fits row.duesAmountCents := ⟨by omega, hmax⟩
    rw [hsum, I64.wrap_of_fits hdue]
  · cases h

theorem paysUp (h : Reachable s) (htypes : TypesStay) (hprecise : Precise reader)
    (hsession : session token s.now = some identity)
    {before : ListContributionsResponse}
    (hfetched : (fetchMyContributions token slug).run s = (.ok before, s))
    (hfits : I64.Fits (paidSum (s.namespaces slug).contribution.rows identity.email
      before.summary.period)) (rejection : HttpError) (uuid : String) :
    PaysUp reader rejection s token slug uuid before.summary := by
  obtain ⟨row, period, hmember, hrow, hperiod, rfl⟩ := of_fetched hsession hfetched
  have hfits : I64.Fits (paidSum (s.namespaces slug).contribution.rows identity.email period) :=
    hfits
  obtain ⟨hnonneg, hroom, -, hpaid, hremaining⟩ := panelOf_figures h hrow hfits
  constructor
  · intro hsettled form hsmall
    have hnever : ∀ cents row' period',
        ¬ Payable reader s identity.email slug uuid form cents row' period' := by
      intro cents row' period' hpayable
      exact not_payable_of_settled h hrow hperiod hfits hsettled (hsmall cents hpayable.read) row'
        period' hpayable
    cases records h htypes hsession reader rejection slug uuid form with
    | recorded hpayable => exact absurd hpayable (hnever _ _ _)
    | refused _ hrun hs' _ => exact ⟨_, _, hrun, by rw [hs']⟩
  · intro hopen hdues hsmall hprintable hunlocked note
    have hdues : 0 < row.duesAmountCents := hdues
    have hpays : Payable reader s identity.email slug uuid
        (maxForm (panelOf s identity.email slug row period).summary note)
        (panelOf s identity.email slug row period).summary.remainingCents row period :=
      payable_max h hprecise hmember hrow hperiod hfits hopen hdues hsmall hprintable hunlocked
    cases records h htypes hsession reader rejection slug uuid
        (maxForm (panelOf s identity.email slug row period).summary note) with
    | refused hnever => exact absurd hpays (hnever _ _ _)
    | recorded hpayable hrun hbefore hafter _ _ hsummary _ =>
        obtain rfl := Option.some.inj (hpayable.read.symm.trans hpays.read)
        obtain rfl := Except.ok.inj (Prod.mk.inj (hfetched.symm.trans hbefore)).1
        have hpositive := hpays.positive
        have hsum : (panelOf s identity.email slug row period).summary.paidCents +
            (panelOf s identity.email slug row period).summary.remainingCents =
              row.duesAmountCents := by
          rw [hpaid]
          omega
        have hdue : I64.Fits row.duesAmountCents := ⟨by omega, hroom⟩
        have htotal : I64.add (panelOf s identity.email slug row period).summary.paidCents
            (panelOf s identity.email slug row period).summary.remainingCents =
              row.duesAmountCents := by
          rw [I64.add_of_fits (hsum ▸ hdue), hsum]
        have hnothing : I64.sub row.duesAmountCents row.duesAmountCents = 0 := by
          rw [I64.sub_of_nonneg hnonneg hnonneg hroom hroom, Int.sub_self]
        refine ⟨_, _, hrun, hafter, ?_, ?_⟩
        · rw [hsummary]
          show ((max (I64.sub row.duesAmountCents (I64.add _ _)) 0 == 0) &&
            decide (0 < row.duesAmountCents)) = true
          rw [htotal, hnothing]
          simp [hdues]
        · rw [hsummary]
          exact htotal

end PaidUp

end Runs

/-! ## Ann pays her dues -/

section Sample

attribute [local instance] Platform.sample

/-- A reader that takes decimals only, as the form of the dues does. -/
def decimalReader : AmountReader where
  read text := (CreatePage.parseDuesToCents text).toOption
  fits text cents h := by
    cases hparsed : CreatePage.parseDuesToCents text with
    | error e =>
        rw [hparsed] at h
        cases h
    | ok c =>
        rw [hparsed] at h
        obtain rfl := Option.some.inj h
        exact (CreatePage.parseDuesToCents_eq_ok.mp hparsed).2

theorem precise_decimalReader : Precise decimalReader := by
  intro text cents hplain hpositive hsmall
  have hfits : I64.Fits cents := by
    unfold I64.Fits I64.maxValue
    omega
  show (CreatePage.parseDuesToCents text).toOption = some cents
  rw [CreatePage.parseDuesToCents_eq_ok.mpr ⟨hplain.amount, hfits⟩]
  rfl

theorem types_stay : TypesStay := by
  intro contentType h
  simp only [proofTypes, List.mem_cons, List.not_mem_nil, or_false] at h
  rcases h with rfl | rfl | rfl | rfl <;> decide

/-- Forty of her hundred, with a photograph. -/
def receiptForm : PaymentForm where
  amount := " 40 "
  note := ""
  file := some ⟨"Receipt.PNG", none, [137, 80, 78, 71]⟩

/-- Its type is read off the name. -/
example : receiptForm.staged.map (fun proof => (proof.contentType, proof.bytes)) =
    some ("image/png", [137, 80, 78, 71]) := by
  decide +kernel

/-- The panel of Ann in her venture. -/
def annPanel : ListContributionsResponse :=
  panelOf poolInvited "ann@pool.org" "pool" (sampleSettings 10000) "2026-06"

end Sample

end Pages

end SharamLedger
