import SharamLedger.CreatePage
import SharamLedger.ManagePage

/-!
# Two forms for the dues

The create page and the Manage page read the dues from a text field, each in its own way: the one
as a decimal, with an error for any other text, the other as a whole number, with 0 for any other
text. They come to the same for whole numbers that fit, for numbers below zero and for texts that
spell zero. Where the database refuses the null that the Manage page sends for a purpose that is not
there, that page stores nothing, whatever the text.
-/

namespace SharamLedger

open Lib Lib.Text

namespace DuesForms

/-- The Manage page with another text in its dues field. -/
def typed (view : SettingsView) (dues : String) : ManageBody :=
  { ManageBody.load view with duesMajor := dues }

/-- A trimmed text that both forms take for the same cents, or that both refuse. -/
inductive Alike : List Char → Prop
  | whole (l d : List Char) : (l = d ∨ l = '+' :: d) → IsDigits d →
      100 * (value d : Int) ≤ I64.maxValue → Alike l
  | negative (d : List Char) : IsDigits d → 1 ≤ value d → value d ≤ 2 ^ 63 → Alike ('-' :: d)
  | empty : Alike []
  | zero (w f : List Char) : CreatePage.Whole w 0 → CreatePage.Frac f 0 → Alike (w ++ '.' :: f)

/-! ## What the Manage page makes of a text -/

theorem saturatingMul_neg_iff {n : Int} : I64.saturatingMul n 100 < 0 ↔ n < 0 := by
  unfold I64.saturatingMul I64.maxValue
  omega

theorem fits_saturatingMul (a b : Int) : I64.Fits (I64.saturatingMul a b) := by
  unfold I64.Fits I64.saturatingMul I64.maxValue
  omega

/-- A whole number has no point. -/
theorem no_point_of_parseSigned {hi : Nat} {n : Int} {l : List Char}
    (h : parseSigned hi l = some n) : '.' ∉ l := by
  have hpoint : ∀ {d : List Char}, IsDigits d → '.' ∉ d :=
    fun hd hmem => absurd (hd.2 '.' hmem) (by decide)
  rcases parseSigned_eq_some.mp h with ⟨d, rfl | rfl, hd, -⟩ | ⟨d, rfl, hd, -⟩
  · exact hpoint hd
  · simp [hpoint hd]
  · simp [hpoint hd]

theorem sentDues_of_some {dues : String} {n : Int}
    (h : parseSigned (2 ^ 63 - 1) (trimChars dues.toList) = some n) :
    ManagePage.sentDues dues = I64.saturatingMul n 100 := by
  rw [ManagePage.sentDues, h, Option.getD_some]

theorem sentDues_of_none {dues : String}
    (h : parseSigned (2 ^ 63 - 1) (trimChars dues.toList) = none) :
    ManagePage.sentDues dues = 0 := by
  rw [ManagePage.sentDues, h]
  rfl

theorem sentDues_of_point {dues : String} (h : '.' ∈ trimChars dues.toList) :
    ManagePage.sentDues dues = 0 := by
  refine sentDues_of_none ?_
  cases hparse : parseSigned (2 ^ 63 - 1) (trimChars dues.toList) with
  | none => rfl
  | some n => exact absurd h (no_point_of_parseSigned hparse)

/-- The create page on the trimmed text. -/
theorem duesCents_eq_ok {dues : String} {c : Int} : CreatePage.duesCents dues = .ok c ↔
    CreatePage.Amount (trimChars dues.toList) c ∧ I64.Fits c := by
  rw [CreatePage.duesCents, CreatePage.parseDuesToCents_eq_ok, trim, String.toList_ofList]

/-! ## When they come to the same -/

/-- Save sends dues below zero, which the handler refuses, or the cents of the create page. -/
def Matching (dues : String) : Prop :=
  ManagePage.sentDues dues < 0 ∨ CreatePage.duesCents dues = .ok (ManagePage.sentDues dues)

theorem alike_of_matching {dues : String} (h : Matching dues) :
    Alike (trimChars dues.toList) := by
  rcases h with hneg | hsame
  · cases hparse : parseSigned (2 ^ 63 - 1) (trimChars dues.toList) with
    | none =>
        rw [sentDues_of_none hparse] at hneg
        cases hneg
    | some n =>
        rw [sentDues_of_some hparse, saturatingMul_neg_iff] at hneg
        rcases parseSigned_eq_some.mp hparse with ⟨d, -, -, -, rfl⟩ | ⟨d, hd, hdigits, hle, rfl⟩
        · omega
        · rw [hd]
          exact .negative d hdigits (by omega) hle
  · obtain ⟨hamount, hfits⟩ := duesCents_eq_ok.mp hsame
    generalize hsent : ManagePage.sentDues dues = sent at hamount hfits
    generalize hl : trimChars dues.toList = l at hamount
    cases hamount with
    | whole _ n hw =>
        cases hw with
        | digits _ hdigits =>
            cases l with
            | nil => exact .empty
            | cons d l => exact .whole _ _ (.inl rfl) ⟨by simp, hdigits⟩ hfits.2
        | plus w hdigits => exact .whole _ w (.inr rfl) hdigits hfits.2
    | point w f n m hw hf =>
        -- behind a point the Manage page finds no number and sends 0
        have hzero : ManagePage.sentDues dues = 0 := sentDues_of_point (by rw [hl]; simp)
        have hbounds := hf.bounds
        have hnonneg := hw.nonneg
        obtain rfl : n = 0 := by omega
        obtain rfl : m = 0 := by omega
        exact .zero w f hw hf

theorem matching_of_alike {dues : String} (h : Alike (trimChars dues.toList)) :
    Matching dues := by
  generalize hl : trimChars dues.toList = l at h
  cases h with
  | whole _ d hd hdigits hle =>
      right
      have hsmall : value d ≤ 2 ^ 63 - 1 := by
        unfold I64.maxValue at hle
        omega
      have hfits : I64.Fits ((value d : Int) * 100) := by
        unfold I64.Fits
        omega
      have hwhole : CreatePage.Whole l (value d) := by
        rcases hd with rfl | rfl
        · exact .digits _ hdigits.2
        · exact .plus d hdigits
      rw [sentDues_of_some (hl ▸ parseSigned_eq_some.mpr (.inl ⟨d, hd, hdigits, hsmall, rfl⟩)),
        I64.saturatingMul_of_fits hfits, duesCents_eq_ok, hl, Int.mul_comm]
      exact ⟨.whole l _ hwhole, by rwa [Int.mul_comm]⟩
  | negative d hdigits hpos hle =>
      left
      rw [sentDues_of_some (hl ▸ parseSigned_eq_some.mpr (.inr ⟨d, rfl, hdigits, hle, rfl⟩)),
        saturatingMul_neg_iff]
      omega
  | empty =>
      right
      have hsent : ManagePage.sentDues dues = 0 := by
        refine sentDues_of_none ?_
        rw [hl]
        decide
      rw [hsent, duesCents_eq_ok, hl]
      exact ⟨.whole [] 0 (.digits [] (by simp)), by decide⟩
  | zero w f hw hf =>
      right
      rw [sentDues_of_point (by rw [hl]; simp), duesCents_eq_ok, hl]
      exact ⟨.point w f 0 0 hw hf, by decide⟩

theorem matching_iff {dues : String} : Matching dues ↔ Alike (trimChars dues.toList) :=
  ⟨alike_of_matching, matching_of_alike⟩

/-- What the create page takes does not lead Save below zero. -/
theorem not_ok_of_neg {dues : String} {c : Int} (hneg : ManagePage.sentDues dues < 0) :
    CreatePage.duesCents dues ≠ .ok c := by
  intro hok
  obtain ⟨hamount, -⟩ := duesCents_eq_ok.mp hok
  cases hparse : parseSigned (2 ^ 63 - 1) (trimChars dues.toList) with
  | none =>
      rw [sentDues_of_none hparse] at hneg
      cases hneg
  | some n =>
      rw [sentDues_of_some hparse, saturatingMul_neg_iff] at hneg
      rcases parseSigned_eq_some.mp hparse with ⟨d, -, -, -, rfl⟩ | ⟨d, hd, -⟩
      · omega
      · exact hamount.no_minus hd

section Runs

variable [Platform]

/-- Save is accepted and stores what the create page makes of the text, and when that is an error
Save reports one and stores nothing. -/
structure Agrees (rejection : HttpError) (slug : String) (headers : Headers) (view : SettingsView)
    (dues : String) (s : System) : Prop where
  accepted : ∀ c, CreatePage.duesCents dues = .ok c →
    (∃ answer, ((patchSettings slug headers ((typed view dues).save.body rejection)).run s).1 =
      .ok answer) ∧
    ∃ row, ((ManagePage.pressSave rejection slug headers (typed view dues) s).namespaces
      slug).settings = some row ∧ row.duesAmountCents = c
  rejected : ∀ msg, CreatePage.duesCents dues = .error msg →
    (∃ e, ((patchSettings slug headers ((typed view dues).save.body rejection)).run s).1 =
      .error e) ∧ ManagePage.pressSave rejection slug headers (typed view dues) s = s

/-- The forms agree on a text for a venture. -/
def AlikeFor (row : Settings) (l : List Char) : Prop :=
  (ManagePage.BlankTaken row ∧ Alike l) ∨
    (¬ ManagePage.BlankTaken row ∧ ∀ c, CreatePage.Amount l c → ¬ I64.Fits c)

section Save

variable {rejection : HttpError} {slug : String} {headers : Headers} {view : SettingsView}
  {dues : String} {s : System}

/-- A refused Save agrees just with an error of the create page. -/
theorem agrees_iff_of_refused {e : HttpError}
    (hrun : (patchSettings slug headers ((typed view dues).save.body rejection)).run s =
      (.error e, s)) :
    Agrees rejection slug headers view dues s ↔ ∀ c, CreatePage.duesCents dues ≠ .ok c := by
  constructor
  · intro h c hok
    obtain ⟨⟨answer, hanswer⟩, -⟩ := h.accepted c hok
    rw [hrun] at hanswer
    cases hanswer
  · intro hdues
    refine ⟨fun c hok => absurd hok (hdues c), fun msg herror => ?_⟩
    unfold ManagePage.pressSave
    rw [hrun]
    exact ⟨⟨e, rfl⟩, rfl⟩

/-- An accepted one agrees when the create page makes the same cents of the text. -/
theorem agrees_iff_of_saved {answer : SettingsView} {s' : System} {row : Settings}
    (hrun : (patchSettings slug headers ((typed view dues).save.body rejection)).run s =
      (.ok answer, s')) (hrow : (s'.namespaces slug).settings = some row) :
    Agrees rejection slug headers view dues s ↔
      CreatePage.duesCents dues = .ok row.duesAmountCents := by
  have hsaved : ((ManagePage.pressSave rejection slug headers (typed view dues) s).namespaces
      slug).settings = some row := by
    unfold ManagePage.pressSave
    rw [hrun, hrow]
  constructor
  · intro h
    cases hcents : CreatePage.duesCents dues with
    | ok cents =>
        obtain ⟨-, row', hrow', rfl⟩ := h.accepted cents hcents
        obtain rfl := Option.some.inj (hsaved.symm.trans hrow')
        rfl
    | error msg =>
        obtain ⟨⟨e, he⟩, -⟩ := h.rejected msg hcents
        rw [hrun] at he
        cases he
  · intro hsame
    refine ⟨fun cents hok => ⟨⟨answer, by rw [hrun]⟩, row, hsaved, ?_⟩, fun msg herror => ?_⟩
    · exact Except.ok.inj (hsame.symm.trans hok)
    · rw [hsame] at herror
      cases herror

end Save

/-- In every reachable state, for every text that an owner types into the page and saves. -/
theorem forms_agree_iff (rejection : HttpError) (actions : List GatewayAction)
    (now later : DateTime) (slug : TenantSlug) (headers : Headers) (row : Settings)
    (view : SettingsView) (dues : String)
    (hrow : ((Trace.exec Deployment.step actions (System.empty now)).namespaces
      slug.val).settings = some row)
    (hload : ((getSettings slug.val headers).run
      (Trace.exec Deployment.step actions (System.empty now))).1 = .ok view)
    (howner : FromOwner headers slug.val
      ((Trace.exec Deployment.step actions (System.empty now)).setNow later)) :
    Agrees rejection slug.val headers view dues
        ((Trace.exec Deployment.step actions (System.empty now)).setNow later) ↔
      AlikeFor row (trimChars dues.toList) := by
  have htidy := Deployment.tidy_exec actions now slug.val row hrow
  have hvalid := (Deployment.accountable_exec actions now).settings slug.val row hrow
  generalize Trace.exec Deployment.step actions (System.empty now) = s at hrow hload howner
  obtain ⟨c, hc⟩ := htidy.cadence
  obtain rfl := getSettings_view hrow hload
  have hbody : (typed (settingsView s.now row.toTenantSettings) dues).save.body rejection =
      .ok (ManagePage.edited row c (ManagePage.sentDues dues)) :=
    ManagePage.body_edited rejection s.now dues hc
  have hrefused : (∀ cents, CreatePage.duesCents dues ≠ .ok cents) ↔
      ∀ cents, CreatePage.Amount (trimChars dues.toList) cents → ¬ I64.Fits cents :=
    forall_congr' fun cents => by rw [Ne, duesCents_eq_ok, not_and]
  unfold AlikeFor
  rw [← matching_iff, ← hrefused]
  by_cases hneg : ManagePage.sentDues dues < 0
  · -- the handler refuses dues below zero
    have hrun := run_patchSettings_refused howner
      ((ManagePage.edited_check (c := c) htidy).trans (if_pos hneg))
    have hnone : ∀ cents, CreatePage.duesCents dues ≠ .ok cents := fun cents => not_ok_of_neg hneg
    refine iff_of_true ((agrees_iff_of_refused (hbody ▸ hrun)).mpr hnone) ?_
    by_cases hblank : ManagePage.BlankTaken row
    · exact .inl ⟨hblank, .inl hneg⟩
    · exact .inr ⟨hblank, hnone⟩
  · have hdues := Int.not_lt.mp hneg
    by_cases hblank : ManagePage.BlankTaken row
    · obtain ⟨answer, ns', hrun, hsettings⟩ := ManagePage.save_by_owner howner hrow htidy hvalid hc
        hdues (fits_saturatingMul _ _) hblank
      rw [← hbody] at hrun
      rw [agrees_iff_of_saved hrun ((congrArg (·.settings)
        (System.namespaces_setNamespace_same _ _ _)).trans hsettings)]
      simp [hblank, Matching, hneg]
    · obtain ⟨e, hrun⟩ := ManagePage.save_not_taken howner hrow htidy hvalid hc hdues
        (fits_saturatingMul _ _) hblank
      rw [agrees_iff_of_refused (hbody ▸ hrun)]
      simp [hblank]

end Runs

/-! ## Ann types -/

section Sample

attribute [local instance] Platform.sample

/-- The state in which Ann's venture has dues of 100.00. -/
def annOpened : System :=
  Trace.exec Deployment.step (ManagePage.annFounds 10000) (System.empty juneNoon)

/-- The Manage page of that venture. -/
def annView : SettingsView := settingsView juneNoon (ManagePage.rentSettings 10000).toTenantSettings

/-- She types these dues and presses Save. -/
def annTypes (dues : String) : System :=
  ManagePage.pressSave ⟨422, "unknown variant"⟩ "pool" (bearer "ann@pool.org" juneNoon)
    (typed annView dues) (annOpened.setNow juneNoon)

/-- A whole number is the same to both forms. -/
theorem forms_agree_whole : Agrees ⟨422, "unknown variant"⟩ "pool" (bearer "ann@pool.org" juneNoon)
    annView " 25 " (annOpened.setNow juneNoon) := by
  have hrow : (annOpened.namespaces "pool").settings = some (ManagePage.rentSettings 10000) := by
    decide +kernel
  have hload : ((getSettings "pool" (bearer "ann@pool.org" juneNoon)).run annOpened).1 =
      .ok annView := by
    decide +kernel
  have howner : FromOwner (bearer "ann@pool.org" juneNoon) "pool" (annOpened.setNow juneNoon) :=
    ⟨⟨"ann@pool.org", none, none⟩, by decide +kernel, by decide +kernel⟩
  refine (forms_agree_iff ⟨422, "unknown variant"⟩ (ManagePage.annFounds 10000) juneNoon juneNoon
    poolSlug (bearer "ann@pool.org" juneNoon) _ _ " 25 " hrow hload howner).mpr ?_
  exact .inl ⟨nofun, .whole _ "25".toList (.inl (by decide)) ⟨by decide, by simp⟩ (by decide)⟩

/-- Save stores dues of 12.50 as 0, and it stores 0 for a text that is no amount. -/
theorem half_switches_off :
    CreatePage.duesCents "12.50" = .ok 1250 ∧
    ((annTypes "12.50").namespaces "pool").settings = some (ManagePage.rentSettings 0) ∧
    CreatePage.duesCents "ten" = .error "Dues amount must be a number." ∧
    ((annTypes "ten").namespaces "pool").settings = some (ManagePage.rentSettings 0) ∧
    ¬ Agrees ⟨422, "unknown variant"⟩ "pool" (bearer "ann@pool.org" juneNoon) annView "12.50"
      (annOpened.setNow juneNoon) := by
  have hstored : ((annTypes "12.50").namespaces "pool").settings =
      some (ManagePage.rentSettings 0) := by decide +kernel
  have hcents : CreatePage.duesCents "12.50" = .ok 1250 := by decide +kernel
  refine ⟨hcents, hstored, by decide +kernel, by decide +kernel, ?_⟩
  intro h
  obtain ⟨-, row, hrow, hdues⟩ := h.accepted 1250 hcents
  obtain rfl := Option.some.inj (hstored.symm.trans hrow)
  revert hdues
  decide

end Sample

end DuesForms

end SharamLedger
