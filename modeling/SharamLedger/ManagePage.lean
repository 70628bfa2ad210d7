import SharamLedger.Ledger.Thrown
import SharamLedger.StoredSettings
import SharamLedger.Sample

/-!
# Saving a form that nobody edited

The Manage page of `sharam-ui/src/pages/venture.rs` holds the settings of a venture as form text and
sends all of them when an owner presses Save. Five of the six fields come back as they were. The
dues come back as they were when they are whole units of the currency.
-/

namespace SharamLedger

open Lib

/-! ## The page -/

/-- The texts that `ManageBody` keeps. -/
structure ManageBody where
  name : String
  cad : String
  duesMajor : String
  tz : String
  cur : String
  purpose : String
  deriving DecidableEq, Repr

/-- The form as it opens, on the settings that `fetch_venture` hands over. -/
def ManageBody.load (v : SettingsView) : ManageBody where
  name := v.displayName
  cad := v.cadence
  duesMajor := toString (v.duesAmountCents.tdiv 100)
  tz := v.timezone
  cur := v.currency
  purpose := v.purpose.getD ""

/-- `UpdateSettingsRequest` of the page. A field that is `none` is left out of the body. -/
structure UpdateSettingsRequest where
  displayName : Option String
  timezone : Option String
  currency : Option String
  cadence : Option String
  duesAmountCents : Option Int
  purpose : Option String
  deriving DecidableEq, Repr

/-- What Save sends. -/
def ManageBody.save (form : ManageBody) : UpdateSettingsRequest :=
  let duesCents := I64.saturatingMul
    ((Text.parseSigned (2 ^ 63 - 1) (Text.trimChars form.duesMajor.toList)).getD 0) 100
  { displayName := some form.name
    timezone := some form.tz
    currency := some form.cur
    cadence := some form.cad
    duesAmountCents := some duesCents
    purpose := some form.purpose }

/-- The body as the handler receives it. A cadence that is none of the three is rejected by the
extractor, whatever its answer is. -/
def UpdateSettingsRequest.body (rejection : HttpError) (req : UpdateSettingsRequest) :
    Extracted PatchSettingsRequest :=
  let cadence : Extracted (Option Cadence) := match req.cadence with
    | none => .ok none
    | some text => ((Cadence.fromStr text).map some).mapError fun _ => rejection
  cadence.map fun cadence =>
    { displayName := req.displayName
      timezone := req.timezone
      currency := req.currency
      cadence
      duesAmountCents := req.duesAmountCents
      purpose := req.purpose }

namespace ManagePage

/-- The six fields of the form are the same in both rows. -/
structure SameFields (row row' : Settings) : Prop where
  displayName : row'.displayName = row.displayName
  timezone : row'.timezone = row.timezone
  currency : row'.currency = row.currency
  cadence : row'.cadence = row.cadence
  dues : row'.duesAmountCents = row.duesAmountCents
  purpose : row'.purpose = row.purpose

/-! ## What is sent back -/

/-- A text without blanks is trimmed to itself. -/
theorem trimChars_self {l : List Char} (h : ∀ c ∈ l, Text.isWhitespace c = false) :
    Text.trimChars l = l := by
  have hpadded := (trimChars_padded h).2
  rwa [Text.trimChars, List.dropWhile_cons_of_pos (by decide)] at hpadded

/-- The dues come back without their part below a whole unit. -/
theorem dues_sent {dues : Int} (h : 0 ≤ dues) (hfits : I64.Fits dues) :
    I64.saturatingMul ((Text.parseSigned (2 ^ 63 - 1)
      (Text.trimChars (toString (dues.tdiv 100)).toList)).getD 0) 100 = dues / 100 * 100 := by
  obtain ⟨n, rfl⟩ := Int.eq_ofNat_of_zero_le h
  have hmajor : (n : Int).tdiv 100 = ((n / 100 : Nat) : Int) := by
    rw [Int.tdiv_eq_ediv_of_nonneg h]
    rfl
  have hdigits : ∀ c ∈ (toString ((n / 100 : Nat) : Int)).toList, Text.isWhitespace c = false :=
    fun c hc => isWhitespace_of_isDigit (isDigit_of_mem_toString hc)
  unfold I64.Fits I64.maxValue at hfits
  rw [hmajor, trimChars_self hdigits, parseSigned_toString (by omega), Option.getD_some,
    I64.saturatingMul_of_fits]
  · rfl
  · unfold I64.Fits I64.maxValue
    omega

/-- The patch that the handler receives for a form that nobody edited. -/
def unedited (row : Settings) (c : Cadence) : PatchSettingsRequest where
  displayName := some row.displayName
  timezone := some row.timezone
  currency := some row.currency
  cadence := some c
  duesAmountCents := some (row.duesAmountCents / 100 * 100)
  purpose := some (row.purpose.getD "")

/-- The cents that Save sends for a text in the dues field. -/
def sentDues (duesMajor : String) : Int :=
  I64.saturatingMul ((Text.parseSigned (2 ^ 63 - 1) (Text.trimChars duesMajor.toList)).getD 0) 100

/-- The patch for a form in which only the dues were edited. -/
def edited (row : Settings) (c : Cadence) (dues : Int) : PatchSettingsRequest :=
  { unedited row c with duesAmountCents := some dues }

section Runs

variable [Platform]

/-- Loading settings with a known cadence, typing dues and saving sends that patch. -/
theorem body_edited (rejection : HttpError) (now : DateTime) (duesMajor : String) {row : Settings}
    {c : Cadence} (hc : row.cadence = c.asStr) :
    ({ ManageBody.load (settingsView now row.toTenantSettings) with duesMajor } :
        ManageBody).save.body rejection = .ok (edited row c (sentDues duesMajor)) := by
  simp only [ManageBody.load, settingsView, ManageBody.save, UpdateSettingsRequest.body, hc,
    Cadence.fromStr_asStr, Except.map, Except.mapError, edited, unedited, sentDues]

/-- Saving at once sends the dues without their part below a whole unit. -/
theorem body_unedited (rejection : HttpError) (now : DateTime) {row : Settings} {c : Cadence}
    (hdues : 0 ≤ row.duesAmountCents) (hfits : I64.Fits row.duesAmountCents)
    (hc : row.cadence = c.asStr) :
    (ManageBody.load (settingsView now row.toTenantSettings)).save.body rejection =
      .ok (edited row c (row.duesAmountCents / 100 * 100)) := by
  have hsent : sentDues (toString (row.duesAmountCents.tdiv 100)) =
      row.duesAmountCents / 100 * 100 := dues_sent hdues hfits
  rw [← hsent]
  exact body_edited rejection now _ hc

omit [Platform] in
/-- The handler's checks have nothing against the fields that were not edited. -/
theorem edited_check {row : Settings} {c : Cadence} {dues : Int} (h : row.Tidy) :
    (edited row c dues).check =
      if dues < 0 then .error ⟨400, "dues_amount_cents must be >= 0"⟩ else .ok () := by
  have hname : Text.trim row.displayName ≠ "" := by
    rw [h.trimmed]
    exact h.named
  have hpurpose : ¬ 600 < (row.purpose.getD "").length := by
    cases hp : row.purpose with
    | none => decide
    | some text => exact Nat.not_lt.mpr (h.purpose text hp).2.2
  simp [PatchSettingsRequest.check, edited, unedited, hname, hpurpose]

omit [Platform] in
/-- The merge changes nothing but the dues. -/
theorem merge_edited {row : Settings} {c : Cadence} {dues : Int} (h : row.Tidy)
    (hc : row.cadence = c.asStr) :
    Namespace.mergeSettings (edited row c dues).toPatch row =
      { row with duesAmountCents := dues } := by
  have hpurpose : (if Text.trim (row.purpose.getD "") = "" then none
      else some (Text.trim (row.purpose.getD ""))) = row.purpose := by
    cases hp : row.purpose with
    | none => rfl
    | some text =>
        obtain ⟨htrim, hne, -⟩ := h.purpose text hp
        rw [Option.getD_some, htrim, if_neg hne]
  simp [Namespace.mergeSettings, PatchSettingsRequest.toPatch, edited, unedited, h.trimmed,
    hpurpose, ← hc]

/-- The database takes the blank purpose that the form of a venture without one sends. -/
def BlankTaken (row : Settings) : Prop := row.purpose = none → Platform.nullClears = true

theorem nullTaken_edited {row : Settings} {c : Cadence} {dues : Int} (h : row.Tidy) :
    (edited row c dues).toPatch.NullTaken ↔ BlankTaken row := by
  have hpatch : (edited row c dues).toPatch.purpose = some (row.purpose.getD "") := rfl
  unfold UpdateSettings.NullTaken UpdateSettings.clearsPurpose BlankTaken
  rw [hpatch]
  cases hp : row.purpose with
  | none =>
      have hblank : (Text.trim "").isEmpty = true := by decide
      simp [hblank]
  | some text =>
      obtain ⟨htrim, hne, -⟩ := h.purpose text hp
      simp [htrim, hne]

/-! ## Save -/

/-- The state after Save, whatever the response. -/
def pressSave (rejection : HttpError) (slug : String) (headers : Headers) (form : ManageBody)
    (s : System) : System :=
  ((patchSettings slug headers (form.save.body rejection)).run s).2

omit [Platform] in
/-- The tenant has settings with the same six fields. -/
def Kept (slug : String) (row : Settings) (s : System) : Prop :=
  ∃ row', (s.namespaces slug).settings = some row' ∧ SameFields row row'

variable {rejection : HttpError} {slug : TenantSlug} {headers : Headers} {row : Settings}
  {c : Cadence} {s : System}

/-- Nobody but an owner writes settings. -/
theorem save_refused {p : PatchSettingsRequest} (h : ¬ FromOwner headers slug.val s) :
    ((patchSettings slug.val headers (.ok p)).run s).2 = s := by
  rcases patchSettings_spec slug.val headers (.ok p) s with
    ⟨e, he⟩ | hsame | ⟨_, identity, _, _, _, _, hauth, howner, _⟩
  · rw [he]
  · exact hsame
  · exact absurd ⟨identity, hauth, howner⟩ h

/-- The statement of an owner's Save, for dues that are none below zero. -/
theorem patch_by_owner {dues : Int} (hrow : (s.namespaces slug.val).settings = some row)
    (htidy : row.Tidy) (hvalid : row.check = .ok ()) (hc : row.cadence = c.asStr)
    (hdues : 0 ≤ dues) (hfits : I64.Fits dues) :
    (s.namespaces slug.val).patchSettings (edited row c dues).toPatch s.now =
      if (edited row c dues).toPatch.NullTaken then
        .ok (some { row with duesAmountCents := dues, updatedAt := s.now },
          { s.namespaces slug.val with
            settings := some { row with duesAmountCents := dues, updatedAt := s.now } })
      else .error (.fault (.field "settings" "purpose" "NULL")) := by
  obtain ⟨-, -, hcadence⟩ := Settings.dues_of_check hvalid
  have hpurpose : ∀ text, row.purpose = some text → text.length ≤ 600 :=
    fun text htext => (htidy.purpose text htext).2.2
  have hcheck : ({ row with duesAmountCents := dues, updatedAt := s.now } : Settings).check =
      .ok () := by
    have hint : isInt dues = true := by simpa [isInt] using hfits
    unfold Settings.check
    cases hp : row.purpose with
    | none => simp [hcadence, hint, hdues]
    | some text => simp [hcadence, hint, hdues, hpurpose text hp]
  simp only [Namespace.patchSettings, hrow, merge_edited htidy hc, hcheck]

/-- It stores the dues, unless there is a null that the database refuses. -/
theorem save_by_owner {dues : Int} (howner : FromOwner headers slug.val s)
    (hrow : (s.namespaces slug.val).settings = some row) (htidy : row.Tidy)
    (hvalid : row.check = .ok ()) (hc : row.cadence = c.asStr) (hdues : 0 ≤ dues)
    (hfits : I64.Fits dues) (hblank : BlankTaken row) :
    ∃ view ns', (patchSettings slug.val headers (.ok (edited row c dues))).run s =
        (.ok view, s.setNamespace slug.val ns') ∧
      ns'.settings = some { row with duesAmountCents := dues, updatedAt := s.now } := by
  have hpatch := patch_by_owner hrow htidy hvalid hc hdues hfits
  rw [if_pos ((nullTaken_edited htidy).mpr hblank)] at hpatch
  have hpass : (edited row c dues).check = .ok () := by
    rw [edited_check htidy, if_neg (by omega)]
  exact ⟨_, _, run_patchSettings howner hpass rfl hpatch, rfl⟩

/-- Otherwise nothing is stored. -/
theorem save_not_taken {dues : Int} (howner : FromOwner headers slug.val s)
    (hrow : (s.namespaces slug.val).settings = some row) (htidy : row.Tidy)
    (hvalid : row.check = .ok ()) (hc : row.cadence = c.asStr) (hdues : 0 ≤ dues)
    (hfits : I64.Fits dues) (hblank : ¬ BlankTaken row) :
    ∃ e, (patchSettings slug.val headers (.ok (edited row c dues))).run s = (.error e, s) := by
  have hpatch := patch_by_owner hrow htidy hvalid hc hdues hfits
  rw [if_neg fun hnull => hblank ((nullTaken_edited htidy).mp hnull)] at hpatch
  have hpass : (edited row c dues).check = .ok () := by
    rw [edited_check htidy, if_neg (by omega)]
  exact ⟨_, run_patchSettings_error howner hpass rfl hpatch⟩

/-- In every reachable state, whenever the page was loaded and whoever presses Save: the settings
stay as they are just when the dues are whole units, or the caller is no owner, or the database
refuses the null that is sent for a purpose that is not there. -/
theorem saved_iff (rejection : HttpError) (actions : List GatewayAction) (now later : DateTime)
    (slug : TenantSlug) (headers : Headers) (row : Settings) (view : SettingsView)
    (hrow : ((Trace.exec Deployment.step actions (System.empty now)).namespaces
      slug.val).settings = some row)
    (hload : ((getSettings slug.val headers).run
      (Trace.exec Deployment.step actions (System.empty now))).1 = .ok view) :
    Kept slug.val row (pressSave rejection slug.val headers (ManageBody.load view)
        ((Trace.exec Deployment.step actions (System.empty now)).setNow later)) ↔
      (FromOwner headers slug.val
          ((Trace.exec Deployment.step actions (System.empty now)).setNow later) →
        BlankTaken row → 100 ∣ row.duesAmountCents) := by
  have htidy := Deployment.tidy_exec actions now slug.val row hrow
  have hvalid := (Deployment.accountable_exec actions now).settings slug.val row hrow
  generalize Trace.exec Deployment.step actions (System.empty now) = s at hrow hload
  obtain ⟨hdues, hfits, -⟩ := Settings.dues_of_check hvalid
  obtain ⟨c, hc⟩ := htidy.cadence
  obtain rfl := getSettings_view hrow hload
  unfold pressSave
  rw [body_unedited rejection s.now hdues hfits hc]
  by_cases howner : FromOwner headers slug.val (s.setNow later)
  · have hwhole : 0 ≤ row.duesAmountCents / 100 * 100 ∧
        I64.Fits (row.duesAmountCents / 100 * 100) := by
      unfold I64.Fits I64.maxValue at hfits ⊢
      omega
    by_cases hblank : BlankTaken row
    swap
    · obtain ⟨e, hrun⟩ := save_not_taken howner hrow htidy hvalid hc hwhole.1 hwhole.2 hblank
      rw [hrun]
      refine ⟨fun _ _ h => absurd h hblank, fun _ => ?_⟩
      exact ⟨row, hrow, rfl, rfl, rfl, rfl, rfl, rfl⟩
    obtain ⟨view, ns', hrun, hsettings⟩ :=
      save_by_owner howner hrow htidy hvalid hc hwhole.1 hwhole.2 hblank
    have hsaved : (((s.setNow later).setNamespace slug.val ns').namespaces slug.val).settings =
        some { row with
          duesAmountCents := row.duesAmountCents / 100 * 100
          updatedAt := (s.setNow later).now } := by
      rw [System.namespaces_setNamespace_same, hsettings]
    rw [hrun]
    constructor
    · rintro ⟨row', hrow', hsame⟩ - -
      obtain rfl := Option.some.inj (hsaved.symm.trans hrow')
      have hkept : row.duesAmountCents / 100 * 100 = row.duesAmountCents := hsame.dues
      omega
    · intro hwhole
      have hwhole := hwhole howner hblank
      refine ⟨_, hsaved, rfl, rfl, rfl, rfl, ?_, rfl⟩
      show row.duesAmountCents / 100 * 100 = row.duesAmountCents
      omega
  · rw [save_refused howner]
    refine ⟨fun _ h => absurd h howner, fun _ => ?_⟩
    exact ⟨row, hrow, rfl, rfl, rfl, rfl, rfl, rfl⟩

end Runs

/-! ## Two ventures of Ann -/

section Sample

attribute [local instance] Platform.sample

/-- Ann signs in, opens a venture with these dues and says what it is for. -/
def annFounds (dues : Int) : List GatewayAction :=
  [.auth (.google (.ok ⟨"google:ann@pool.org"⟩)),
    .createTenant (bearer "ann@pool.org" juneNoon)
      (.ok
        { slug := "pool"
          displayName := "Pool"
          timezone := "UTC"
          currency := "USD"
          duesAmountCents := dues }),
    .tenant ⟨"pool", bearer "ann@pool.org" juneNoon,
      .patchSettings (.ok { purpose := some "Rent" })⟩]

/-- The settings of that venture. -/
def rentSettings (dues : Int) : Settings := { sampleSettings dues with purpose := some "Rent" }

/-- She opens the Manage page and presses Save. -/
def annSaves (dues : Int) : System :=
  pressSave ⟨422, "unknown variant"⟩ "pool" (bearer "ann@pool.org" juneNoon)
    (ManageBody.load (settingsView juneNoon (rentSettings dues).toTenantSettings))
    ((Trace.exec Deployment.step (annFounds dues) (System.empty juneNoon)).setNow juneNoon)

/-- Dues of 100.00 stay. -/
theorem saved_whole : Kept "pool" (rentSettings 10000) (annSaves 10000) := by
  have hrow : ((Trace.exec Deployment.step (annFounds 10000)
      (System.empty juneNoon)).namespaces "pool").settings = some (rentSettings 10000) := by
    decide +kernel
  have hload : ((getSettings "pool" (bearer "ann@pool.org" juneNoon)).run
      (Trace.exec Deployment.step (annFounds 10000) (System.empty juneNoon))).1 =
        .ok (settingsView juneNoon (rentSettings 10000).toTenantSettings) := by
    decide +kernel
  exact (saved_iff ⟨422, "unknown variant"⟩ (annFounds 10000) juneNoon juneNoon poolSlug
    (bearer "ann@pool.org" juneNoon) _ _ hrow hload).mpr fun _ _ => by decide

/-- Dues of 12.50 become dues of 12.00. -/
theorem saved_half : ((Trace.exec Deployment.step (annFounds 1250)
      (System.empty juneNoon)).namespaces "pool").settings = some (rentSettings 1250) ∧
    ((annSaves 1250).namespaces "pool").settings = some (rentSettings 1200) ∧
    ¬ Kept "pool" (rentSettings 1250) (annSaves 1250) := by
  have hsaved : ((annSaves 1250).namespaces "pool").settings = some (rentSettings 1200) := by
    decide +kernel
  refine ⟨by decide +kernel, hsaved, ?_⟩
  rintro ⟨row', hrow', hsame⟩
  obtain rfl := Option.some.inj (hsaved.symm.trans hrow')
  have hdues := hsame.dues
  revert hdues
  decide

end Sample

end ManagePage

end SharamLedger
