import SharamLedger.DuesForms
import SharamLedger.InvitesPage
import SharamLedger.SettingsPatch

/-!
# The venture pages

The loader of `sharam-ui/src/pages/venture.rs` and the pages that it feeds, and the links of
`sidenav.rs` to them. In every reachable state a venture opens for its members, the links that a
member is shown lead to open pages, and a form that an owner saves is the one that the page then
shows.
-/

namespace SharamLedger

open Lib

namespace Pages

section Runs

variable [Platform]

variable {token : Option String} {slug : String} {s : System} {identity : Identity}

/-! ## What the venture pages show -/

section Member

variable {headers : Headers} {role : String} {row : Settings}

theorem run_getSettings (h : Reachable s) (hauth : authResult headers s.now = .ok identity)
    (hrole : s.control.roleFor identity.email slug = some role)
    (hrow : (s.namespaces slug).settings = some row) :
    (getSettings slug headers).run s = (.ok (settingsView s.now row.toTenantSettings), s) := by
  obtain ⟨tenantSlug, rfl, hnew⟩ := slug_of_role h hrole
  simp [getSettings, hauth, hnew, hrole, hrow, Except.mapError]

theorem run_listMembers (h : Reachable s) (hauth : authResult headers s.now = .ok identity)
    (hrole : s.control.roleFor identity.email slug = some role) :
    (listMembers slug headers).run s = (.ok ((s.control.membersOf slug).map memberView), s) := by
  obtain ⟨tenantSlug, rfl, hnew⟩ := slug_of_role h hrole
  simp [listMembers, hauth, hnew, hrole, Except.mapError]

/-- What a member is shown of a venture: their line of the dashboard, the stored settings, and the
member list. -/
inductive DetailShown (s : System) (email slug : String) : VentureDetail → Prop where
  | intro {v : VentureSummary} {row : Settings} : v ∈ s.control.venturesOf email → v.slug = slug →
      s.control.roleFor email slug = some v.role → (s.namespaces slug).settings = some row →
      DetailShown s email slug (ventureDetail (ventureView v)
        (settingsView s.now row.toTenantSettings) ((s.control.membersOf slug).map memberView))

/-- A venture loads just for its members. -/
theorem run_fetchVenture (h : Reachable s) (hsession : session token s.now = some identity)
    (slug : String) :
    (s.control.roleFor identity.email slug = none ∧
      (fetchVenture token slug).run s =
        (.error (.other "venture not found in your memberships"), s)) ∨
    ∃ v, DetailShown s identity.email slug v ∧ (fetchVenture token slug).run s = (.ok v, s) := by
  have hlisted := find_listed h.booked.refers identity.email slug fun _ => true
  simp only [Bool.and_true] at hlisted
  rcases hlisted with ⟨hnone, hfind⟩ | ⟨v, hv, hslug, -, hrole, ⟨d, hd, hdslug, -⟩, hfind⟩
  · left
    constructor
    · cases hrole : s.control.roleFor identity.email slug with
      | none => rfl
      | some role => exact absurd (hnone role hrole) (by decide)
    · simp only [fetchVenture, Prog.run_bind, ventures_signedIn hsession, hfind, Prog.run_okOr]
  · right
    obtain ⟨-, row, hrow⟩ := h.furnished d hd
    rw [hdslug] at hrow
    obtain ⟨text, rfl, hauth⟩ := of_session hsession
    refine ⟨_, .intro hv hslug hrole hrow, ?_⟩
    simp only [fetchVenture, Prog.run_bind, ventures_signedIn hsession, hfind, Prog.run_okOr,
      run_authed, run_getSettings h hauth hrole hrow, run_listMembers h hauth hrole,
      Except.mapError, Prog.run_pure]

end Member

/-- What the overview and the form for payments decide. -/
inductive VentureShown (s : System) (token : Option String) (slug : String) :
    VenturePage → Prop where
  | signIn : session token s.now = none → VentureShown s token slug .signIn
  | failed {identity : Identity} : session token s.now = some identity →
      s.control.roleFor identity.email slug = none →
      VentureShown s token slug (.failed "venture not found in your memberships")
  | body {identity : Identity} {v : VentureDetail} : session token s.now = some identity →
      DetailShown s identity.email slug v → VentureShown s token slug (.body v)

/-- What the page for administrators decides. -/
inductive ManageShown (s : System) (token : Option String) (slug : String) :
    VenturePage → Prop where
  | signIn : session token s.now = none → ManageShown s token slug .signIn
  | failed {identity : Identity} : session token s.now = some identity →
      s.control.roleFor identity.email slug = none →
      ManageShown s token slug (.failed "venture not found in your memberships")
  | notAdmin {identity : Identity} {role : String} : session token s.now = some identity →
      s.control.roleFor identity.email slug = some role → role ≠ "owner" → role ≠ "treasurer" →
      ManageShown s token slug (.notAdmin slug)
  | body {identity : Identity} {v : VentureDetail} : session token s.now = some identity →
      DetailShown s identity.email slug v → v.role = "owner" ∨ v.role = "treasurer" →
      ManageShown s token slug (.body v)

/-- Both pages load, change nothing, and decide so. -/
structure PagesLoaded (s : System) (token : Option String) (slug : String) : Prop where
  overview : ∃ page, (overviewPage token slug).run s = (.ok page, s) ∧
    VentureShown s token slug page
  manage : ∃ page, (managePage token slug).run s = (.ok page, s) ∧ ManageShown s token slug page

omit [Platform] in
theorem isAdmin_iff {role : String} :
    isAdmin role = true ↔ role = "owner" ∨ role = "treasurer" := by
  simp [isAdmin]

theorem fetchVenture_signedOut (h : session token s.now = none) (slug : String) :
    (fetchVenture token slug).run s = (.error .notSignedIn, s) ∨
      (fetchVenture token slug).run s = (.error .unauthorized, s) := by
  rcases ventures_signedOut h with hrun | hrun
  · exact .inl (by simp only [fetchVenture, Prog.run_bind, hrun])
  · exact .inr (by simp only [fetchVenture, Prog.run_bind, hrun])

theorem DetailShown.role {email : String} {v : VentureDetail} (h : DetailShown s email slug v) :
    v.slug = slug ∧ s.control.roleFor email slug = some v.role := by
  cases h with
  | intro hv hslug hrole hrow => exact ⟨hslug, hrole⟩

theorem pagesLoaded (h : Reachable s) (token : Option String) (slug : String) :
    PagesLoaded s token slug := by
  cases hsession : session token s.now with
  | none =>
      constructor
      · refine ⟨.signIn, ?_, .signIn hsession⟩
        rcases fetchVenture_signedOut hsession slug with hrun | hrun <;>
          simp only [overviewPage, Prog.run_bind, Prog.run_attempt, hrun, Prog.run_pure]
      · refine ⟨.signIn, ?_, .signIn hsession⟩
        rcases fetchVenture_signedOut hsession slug with hrun | hrun <;>
          simp only [managePage, Prog.run_bind, Prog.run_attempt, hrun, Prog.run_pure]
  | some identity =>
      rcases run_fetchVenture h hsession slug with ⟨hnone, hrun⟩ | ⟨v, hshown, hrun⟩
      · constructor
        · refine ⟨_, ?_, .failed hsession hnone⟩
          simp only [overviewPage, Prog.run_bind, Prog.run_attempt, hrun, Prog.run_pure,
            ApiError.message]
        · refine ⟨_, ?_, .failed hsession hnone⟩
          simp only [managePage, Prog.run_bind, Prog.run_attempt, hrun, Prog.run_pure,
            ApiError.message]
      · obtain ⟨hslug, hrole⟩ := hshown.role
        constructor
        · refine ⟨_, ?_, .body hsession hshown⟩
          simp only [overviewPage, Prog.run_bind, Prog.run_attempt, hrun, Prog.run_pure]
        · by_cases hadmin : isAdmin v.role = true
          · refine ⟨_, ?_, .body hsession hshown (isAdmin_iff.mp hadmin)⟩
            simp only [managePage, Prog.run_bind, Prog.run_attempt, hrun, hadmin, if_true,
              Prog.run_pure]
          · obtain ⟨howner, htreasurer⟩ := not_or.mp (mt isAdmin_iff.mpr hadmin)
            refine ⟨_, ?_, .notAdmin hsession hrole howner htreasurer⟩
            simp only [managePage, Prog.run_bind, Prog.run_attempt, hrun, hadmin, hslug,
              Bool.false_eq_true, if_false, Prog.run_pure]

/-- The pages of a venture open for its members just as the gateway serves them. -/
theorem venture_pages (actions : List GatewayAction) (now : DateTime) (token : Option String)
    (slug : String) :
    PagesLoaded (Trace.exec Deployment.step actions (System.empty now)) token slug :=
  pagesLoaded (reachable_exec actions now) token slug

/-! ## Where the links lead -/

/-- The page behind a link opens with a body. Only the invites are closed to a treasurer. -/
def Opens (s : System) (token : Option String) (v : VentureView) : NavItem → Prop
  | .overview | .contribute => ∃ d, (overviewPage token v.slug).run s = (.ok (.body d), s)
  | .manage => ∃ d, (managePage token v.slug).run s = (.ok (.body d), s)
  | .invites =>
      (v.role = "owner" ∧ ∃ name invites,
        (adminInvites token v.slug).run s = (.ok (.body name (.ok invites)), s)) ∨
      (v.role = "treasurer" ∧ (adminInvites token v.slug).run s = (.ok .forbidden, s))

/-- The navigation of somebody who is signed in: a venture of theirs is selected unless they have
none, the stored one if it is theirs, and its links lead to open pages. -/
structure Navigates (s : System) (token stored : Option String) (identity : Identity)
    (ctx : VentureCtx) : Prop where
  loaded : ctx.error = none
  selects : ctx.active.isSome = true ↔
    ∃ slug, (s.control.roleFor identity.email slug).isSome = true
  keeps : ∀ slug, stored = some slug → (s.control.roleFor identity.email slug).isSome = true →
    ctx.selected = some slug
  links : ∀ v, ctx.active = some v → ctx.selected = some v.slug ∧
    s.control.roleFor identity.email v.slug = some v.role ∧
    ∀ item ∈ ventureNav ctx, Opens s token v item

theorem opens_links (h : Reachable s) (hsession : session token s.now = some identity)
    {v : VentureView} (hrole : s.control.roleFor identity.email v.slug = some v.role) :
    ∀ item ∈ (if isAdmin v.role then [NavItem.overview, .contribute, .manage, .invites]
      else [.overview, .contribute]), Opens s token v item := by
  obtain ⟨d, hd, hrun⟩ : ∃ d : VentureDetail, d.role = v.role ∧
      (fetchVenture token v.slug).run s = (.ok d, s) := by
    rcases run_fetchVenture h hsession v.slug with ⟨hnone, -⟩ | ⟨d, hshown, hrun⟩
    · rw [hnone] at hrole
      cases hrole
    · exact ⟨d, Option.some.inj (hshown.role.2.symm.trans hrole), hrun⟩
  have hoverview : Opens s token v .overview :=
    ⟨d, by simp only [overviewPage, Prog.run_bind, Prog.run_attempt, hrun, Prog.run_pure]⟩
  split
  · next hadmin =>
      have hmanage : Opens s token v .manage :=
        ⟨d, by simp only [managePage, Prog.run_bind, Prog.run_attempt, hrun, hd, hadmin, if_true,
          Prog.run_pure]⟩
      have hinvites : Opens s token v .invites := by
        rcases run_fetchOwnerContext h hsession v.slug with
          ⟨hother, hcontext⟩ | ⟨w, howner, -, hcontext⟩
        · right
          rcases isAdmin_iff.mp hadmin with howner | htreasurer
          · exact absurd (hrole.trans (congrArg some howner)) hother
          · exact ⟨htreasurer, by simp only [adminInvites, Prog.run_bind, Prog.run_attempt,
              hcontext, Prog.run_pure]⟩
        · left
          refine ⟨Option.some.inj (hrole.symm.trans howner), w.displayName,
            (invitesOf s.control v.slug).map inviteView, ?_⟩
          simp only [adminInvites, Prog.run_bind, Prog.run_attempt, hcontext, Prog.run_pure,
            run_fetchInvites h hsession howner]
      intro item hitem
      cases item with
      | overview => exact hoverview
      | contribute => exact hoverview
      | manage => exact hmanage
      | invites => exact hinvites
  · intro item hitem
    cases item with
    | overview => exact hoverview
    | contribute => exact hoverview
    | manage => simp at hitem
    | invites => simp at hitem

omit [Platform] in
/-- The selection is on the list unless the list is empty, and the stored one stays if it is. -/
theorem validSelection_cases (stored : Option String) (list : List VentureView) :
    (list = [] ∧ validSelection stored list = none) ∨
      ∃ v ∈ list, validSelection stored list = some v.slug ∧
        ∀ slug, stored = some slug → (∃ w ∈ list, w.slug = slug) → v.slug = slug := by
  unfold validSelection
  cases stored with
  | none =>
      cases list with
      | nil => exact .inl ⟨rfl, rfl⟩
      | cons v rest => exact .inr ⟨v, List.mem_cons_self, rfl, fun _ h => by cases h⟩
  | some s =>
      by_cases hvalid : (list.any fun v => v.slug == s) = true
      · obtain ⟨v, hv, hslug⟩ := List.any_eq_true.mp hvalid
        obtain rfl := beq_iff_eq.mp hslug
        refine .inr ⟨v, hv, by simp only [hvalid, if_true], fun slug h _ => Option.some.inj h⟩
      · cases list with
        | nil => exact .inl ⟨rfl, rfl⟩
        | cons v rest =>
            refine .inr ⟨v, List.mem_cons_self, ?_, fun slug h hlisted => ?_⟩
            · simp only [hvalid, Bool.false_eq_true, if_false, List.head?_cons, Option.map_some]
            · obtain rfl := Option.some.inj h
              obtain ⟨w, hw, hslug⟩ := hlisted
              refine absurd (List.any_eq_true.mpr ⟨w, hw, ?_⟩) hvalid
              exact beq_iff_eq.mpr hslug

/-- What the loaded list and a stored selection make of the navigation. -/
theorem navigates (h : Reachable s) (stored : Option String)
    (hsession : session token s.now = some identity) :
    ∃ ctx, (sidenav token stored).run s = (.ok ctx, s) ∧ Navigates s token stored identity ctx := by
  have hlisted : ∀ v ∈ (s.control.venturesOf identity.email).map ventureView,
      s.control.roleFor identity.email v.slug = some v.role := by
    intro v hv
    obtain ⟨x, hx, rfl⟩ := List.mem_map.mp hv
    exact role_of_listed h.booked.refers hx
  have hroles : ∀ slug, (s.control.roleFor identity.email slug).isSome = true →
      ∃ v ∈ (s.control.venturesOf identity.email).map ventureView, v.slug = slug := by
    intro slug hsome
    obtain ⟨role, hrole⟩ := Option.isSome_iff_exists.mp hsome
    obtain ⟨x, hx, hslug, -⟩ := listed_of_role h.booked.refers hrole
    exact ⟨ventureView x, List.mem_map_of_mem hx, hslug⟩
  have hrun : (sidenav token stored).run s = (.ok
      { selected := validSelection stored ((s.control.venturesOf identity.email).map ventureView)
        ventures := (s.control.venturesOf identity.email).map ventureView
        error := none }, s) := by
    simp only [sidenav, Prog.run_bind, Prog.run_attempt, ventures_signedIn hsession, Prog.run_pure]
  generalize (s.control.venturesOf identity.email).map ventureView = list at hlisted hroles hrun
  have hactive : ∀ v, VentureCtx.active ⟨validSelection stored list, list, none⟩ = some v →
      v ∈ list ∧ validSelection stored list = some v.slug := by
    intro v hv
    obtain ⟨slug, hselected, hfind⟩ := Option.bind_eq_some_iff.mp hv
    have hslug := List.find?_some hfind
    refine ⟨List.mem_of_find?_eq_some hfind, ?_⟩
    rw [beq_iff_eq.mp hslug]
    exact hselected
  refine ⟨_, hrun, rfl, ⟨fun hsome => ?_, fun hrole => ?_⟩, fun slug hstored hrole => ?_,
    fun v hv => ?_⟩
  · obtain ⟨v, hv⟩ := Option.isSome_iff_exists.mp hsome
    exact ⟨v.slug, by rw [hlisted v (hactive v hv).1]; rfl⟩
  · obtain ⟨slug, hrole⟩ := hrole
    obtain ⟨w, hw, -⟩ := hroles slug hrole
    rcases validSelection_cases stored list with ⟨rfl, -⟩ | ⟨v, hv, hselected, -⟩
    · cases hw
    · rw [VentureCtx.active, hselected, Option.bind_some, List.find?_isSome]
      exact ⟨v, hv, beq_self_eq_true _⟩
  · obtain ⟨w, hw, hslug⟩ := hroles slug hrole
    rcases validSelection_cases stored list with ⟨rfl, -⟩ | ⟨v, hv, hselected, hkept⟩
    · cases hw
    · rw [← hkept slug hstored ⟨w, hw, hslug⟩]
      exact hselected
  · obtain ⟨hmem, hselected⟩ := hactive v hv
    refine ⟨hselected, hlisted v hmem, ?_⟩
    rw [ventureNav, hv]
    exact opens_links h hsession (hlisted v hmem)

/-- A page of somebody who is not signed in has no links of a venture. -/
theorem navigates_signedOut (stored : Option String) (h : session token s.now = none) :
    ∃ ctx, (sidenav token stored).run s = (.ok ctx, s) ∧ ventureNav ctx = [] ∧
      (ctx.error = some .notSignedIn ∨ ctx.error = some .unauthorized) := by
  have hnav : ∀ e, ventureNav ⟨stored, [], some e⟩ = [] := by
    intro e
    cases stored <;> rfl
  rcases ventures_signedOut h with hrun | hrun
  · exact ⟨⟨stored, [], some .notSignedIn⟩, by simp only [sidenav, Prog.run_bind,
      Prog.run_attempt, hrun, Prog.run_pure], hnav _, .inl rfl⟩
  · exact ⟨⟨stored, [], some .unauthorized⟩, by simp only [sidenav, Prog.run_bind,
      Prog.run_attempt, hrun, Prog.run_pure], hnav _, .inr rfl⟩

/-- In every reachable state, whatever selection the browser has stored. -/
theorem links_open (actions : List GatewayAction) (now : DateTime) (token stored : Option String) :
    ∃ ctx, (sidenav token stored).run (Trace.exec Deployment.step actions (System.empty now)) =
        (.ok ctx, Trace.exec Deployment.step actions (System.empty now)) ∧
      ((session token (Trace.exec Deployment.step actions (System.empty now)).now = none ∧
          ventureNav ctx = []) ∨
        ∃ identity,
          session token (Trace.exec Deployment.step actions (System.empty now)).now =
            some identity ∧
          Navigates (Trace.exec Deployment.step actions (System.empty now)) token stored identity
            ctx) := by
  have hreached := reachable_exec actions now
  generalize Trace.exec Deployment.step actions (System.empty now) = s at hreached ⊢
  cases hsession : session token s.now with
  | none =>
      obtain ⟨ctx, hrun, hnav, -⟩ := navigates_signedOut stored hsession
      exact ⟨ctx, hrun, .inl ⟨rfl, hnav⟩⟩
  | some identity =>
      obtain ⟨ctx, hrun, hnavigates⟩ := navigates hreached stored hsession
      exact ⟨ctx, hrun, .inr ⟨identity, rfl, hnavigates⟩⟩

/-! ## Save -/

/-- What the gateway and the database ask of the form. A blank purpose is sent as a null. -/
structure Acceptable (form : ManageBody) : Prop where
  cadence : ∃ c, Cadence.fromStr form.cad = .ok c
  name : Text.trim form.name ≠ ""
  dues : 0 ≤ ManagePage.sentDues form.duesMajor
  purpose : form.purpose.length ≤ 600
  blank : Text.trim form.purpose = "" → Platform.nullClears = true

omit [Platform] in
/-- The page shows what the form sent, name and purpose without the blanks around them. -/
structure SavedAs (form : ManageBody) (v : VentureDetail) : Prop where
  displayName : v.displayName = Text.trim form.name
  timezone : v.timezone = form.tz
  currency : v.currency = form.cur
  cadence : v.cadence = form.cad
  dues : v.duesAmountCents = ManagePage.sentDues form.duesMajor
  purpose : v.purpose = SettingsPatch.cleaned form.purpose

/-- Save works for an owner with an acceptable form, and the page then shows the form. Otherwise
nothing changes. -/
inductive Saves (rejection : HttpError) (s : System) (token : Option String) (slug : String)
    (email : String) (form : ManageBody) : Prop where
  | saved {s' : System} {v : VentureDetail} :
      s.control.roleFor email slug = some "owner" → Acceptable form →
      (saveSettings rejection token slug form.save).run s = (.ok (), s') →
      (fetchVenture token slug).run s' = (.ok v, s') → SavedAs form v →
      Saves rejection s token slug email form
  | refused {e : ApiError} : ¬ (s.control.roleFor email slug = some "owner" ∧ Acceptable form) →
      (saveSettings rejection token slug form.save).run s = (.error e, s) →
      Saves rejection s token slug email form

omit [Platform] in
/-- The body of a form with a known cadence. -/
def sentBody (form : ManageBody) (c : Cadence) : PatchSettingsRequest where
  displayName := some form.name
  timezone := some form.tz
  currency := some form.cur
  cadence := some c
  duesAmountCents := some (ManagePage.sentDues form.duesMajor)
  purpose := some form.purpose

omit [Platform] in
theorem body_save {form : ManageBody} {c : Cadence} (hc : Cadence.fromStr form.cad = .ok c)
    (rejection : HttpError) : form.save.body rejection = .ok (sentBody form c) := by
  simp only [ManageBody.save, UpdateSettingsRequest.body, hc, Except.map, Except.mapError, sentBody,
    ManagePage.sentDues]

omit [Platform] in
theorem check_sentBody (form : ManageBody) (c : Cadence) :
    (sentBody form c).check = .ok () ↔ Text.trim form.name ≠ "" ∧
      0 ≤ ManagePage.sentDues form.duesMajor ∧ form.purpose.length ≤ 600 := by
  constructor
  · intro h
    obtain ⟨hdues, hname, hpurpose⟩ := PatchSettingsRequest.of_check h
    exact ⟨hname _ rfl, hdues _ rfl, hpurpose _ rfl⟩
  · intro h
    obtain ⟨hname, hdues, hpurpose⟩ := h
    simp [PatchSettingsRequest.check, sentBody, hname, Int.not_lt.mpr hdues,
      Nat.not_lt.mpr hpurpose]

theorem nullTaken_sentBody (form : ManageBody) (c : Cadence) :
    (sentBody form c).toPatch.NullTaken ↔
      (Text.trim form.purpose = "" → Platform.nullClears = true) := by
  have hpatch : (sentBody form c).toPatch.purpose = some form.purpose := rfl
  simp [UpdateSettings.NullTaken, UpdateSettings.clearsPurpose, hpatch]

theorem asserted_sentBody {form : ManageBody} (h : Acceptable form) (c : Cadence) :
    SettingsPatch.Asserted (sentBody form c).toPatch where
  cadence text htext := by
    obtain rfl := Option.some.inj htext
    cases c <;> decide
  dues cents hcents := by
    obtain rfl := Option.some.inj hcents
    exact ⟨DuesForms.fits_saturatingMul _ _, h.dues⟩
  purpose text htext := by
    obtain rfl := Option.some.inj htext
    exact (length_trim_le form.purpose).trans h.purpose
  null := (nullTaken_sentBody form c).mpr h.blank

/-- An owner's form that is acceptable is stored. -/
theorem run_save {text : String} {form : ManageBody} {row : Settings} (c : Cadence)
    (h : Reachable s) (hauth : authResult (tokenHeaders text) s.now = .ok identity)
    (howner : s.control.roleFor identity.email slug = some "owner") (hform : Acceptable form)
    (hrow : (s.namespaces slug).settings = some row) :
    ∃ view s', (patchSettings slug (tokenHeaders text) (.ok (sentBody form c))).run s =
        (.ok view, s') ∧ s'.now = s.now ∧ s'.control = s.control ∧
      (s'.namespaces slug).settings =
        some (SettingsPatch.patched (sentBody form c).toPatch s.now row) := by
  obtain ⟨tenantSlug, rfl, hnew⟩ := slug_of_role h howner
  have hcheck := (check_sentBody form c).mpr ⟨hform.name, hform.dues, hform.purpose⟩
  have hrun := SettingsPatch.run_updateSettings hrow
    (h.accountable.settings tenantSlug.val row hrow) (asserted_sentBody hform c)
  let row' := SettingsPatch.patched (sentBody form c).toPatch s.now row
  refine ⟨settingsView s.now row'.toTenantSettings, SettingsPatch.withSettings tenantSlug s row',
    ?_, rfl, rfl, SettingsPatch.settings_withSettings tenantSlug s row'⟩
  simp [patchSettings, hauth, hnew, howner, hcheck, hrun, Except.mapError, row',
    SettingsPatch.withSettings]

/-- A venture with a member has settings. -/
theorem settings_of_role {email role : String} (h : Reachable s)
    (hrole : s.control.roleFor email slug = some role) :
    ∃ row, (s.namespaces slug).settings = some row := by
  obtain ⟨-, -, -, -, d, hd, hslug, -⟩ := listed_of_role h.booked.refers hrole
  obtain ⟨-, row, hrow⟩ := h.furnished d hd
  exact ⟨row, hslug ▸ hrow⟩

/-- Any other form is refused, and so is anybody else. -/
theorem run_save_refused {text : String} {form : ManageBody} (h : Reachable s)
    (rejection : HttpError) (hauth : authResult (tokenHeaders text) s.now = .ok identity)
    (hform : ¬ (s.control.roleFor identity.email slug = some "owner" ∧ Acceptable form)) :
    ∃ e, (patchSettings slug (tokenHeaders text) (form.save.body rejection)).run s =
      (.error e, s) := by
  cases hc : Cadence.fromStr form.cad with
  | error e =>
      have hbody : form.save.body rejection = .error rejection := by
        simp only [ManageBody.save, UpdateSettingsRequest.body, hc, Except.map, Except.mapError]
      exact ⟨rejection, by simp [patchSettings, hbody]⟩
  | ok c =>
      rw [body_save hc]
      cases hnew : TenantSlug.new slug with
      | error e => exact ⟨⟨400, e.message⟩, by simp [patchSettings, hauth, hnew, Except.mapError]⟩
      | ok tenantSlug =>
          obtain rfl := TenantSlug.val_of_new hnew
          by_cases howner : s.control.roleFor identity.email tenantSlug.val = some "owner"
          · cases hcheck : (sentBody form c).check with
            | error e => exact ⟨e, run_patchSettings_refused ⟨identity, hauth, howner⟩ hcheck⟩
            | ok u =>
                obtain ⟨hname, hdues, hpurpose⟩ := (check_sentBody form c).mp hcheck
                -- the one thing left is a null that the database refuses
                have hnull : ¬ (sentBody form c).toPatch.NullTaken := fun hnull =>
                  hform ⟨howner, ⟨c, hc⟩, hname, hdues, hpurpose,
                    (nullTaken_sentBody form c).mp hnull⟩
                obtain ⟨row, hrow⟩ := settings_of_role h howner
                obtain ⟨e, hrun⟩ := SettingsPatch.run_updateSettings_refused hrow
                  (h.accountable.settings tenantSlug.val row hrow) fun hasserted =>
                    hnull hasserted.null
                exact ⟨settingsError e,
                  by simp [patchSettings, hauth, hnew, howner, hcheck, hrun, Except.mapError]⟩
          · cases hrole : s.control.roleFor identity.email tenantSlug.val with
            | none =>
                exact ⟨notAMember, by simp [patchSettings, hauth, hnew, hrole, Except.mapError]⟩
            | some role =>
                have hother : role ≠ "owner" := fun heq => howner (heq ▸ hrole)
                exact ⟨⟨403, "owner role required"⟩,
                  by simp [patchSettings, hauth, hnew, hrole, hother, Except.mapError]⟩

/-- The page after the settings have become those of the form. -/
theorem savedAs_of_shown {email : String} {form : ManageBody} {c : Cadence} {row : Settings}
    {now : DateTime} {v : VentureDetail} (hc : Cadence.fromStr form.cad = .ok c)
    (hrow : (s.namespaces slug).settings =
      some (SettingsPatch.patched (sentBody form c).toPatch now row))
    (h : DetailShown s email slug v) : SavedAs form v := by
  cases h with
  | intro hv hslug hrole hstored =>
      obtain rfl := Option.some.inj (hrow.symm.trans hstored)
      have hpurpose : (Namespace.mergeSettings (sentBody form c).toPatch row).purpose =
          SettingsPatch.cleaned form.purpose :=
        congrFun (SettingsPatch.record_merge _ row) .purpose
      rw [SettingsPatch.patched_settings]
      exact ⟨rfl, rfl, rfl, (Cadence.asStr_of_fromStr hc).symm, rfl, hpurpose⟩

theorem saves (h : Reachable s) (hsession : session token s.now = some identity)
    (rejection : HttpError) (slug : String) (form : ManageBody) :
    Saves rejection s token slug identity.email form := by
  obtain ⟨text, rfl, hauth⟩ := of_session hsession
  by_cases hform : s.control.roleFor identity.email slug = some "owner" ∧ Acceptable form
  · obtain ⟨howner, haccepted⟩ := hform
    obtain ⟨c, hc⟩ := haccepted.cadence
    obtain ⟨row, hrow⟩ := settings_of_role h howner
    obtain ⟨view, s', hrun, hnow, hcontrol, hsettings⟩ := run_save c h hauth howner haccepted hrow
    have hreached : Reachable s' := by
      have hstep : Deployment.step
          (.tenant ⟨slug, tokenHeaders text, .patchSettings (.ok (sentBody form c))⟩) s = s' := by
        rw [Deployment.step, TenantRequest.respond, TenantRequest.handle, Prog.run_bind_pure, hrun]
      exact hstep ▸ reachable_step _ h
    rcases run_fetchVenture hreached (hnow ▸ hsession) slug with ⟨hnone, -⟩ | ⟨v, hshown, hloaded⟩
    · rw [hcontrol, howner] at hnone
      cases hnone
    · refine .saved howner haccepted ?_ hloaded (savedAs_of_shown hc hsettings hshown)
      simp only [saveSettings, Prog.run_bind, run_authed, body_save hc, hrun, Except.mapError,
        Prog.run_pure]
  · obtain ⟨e, hrun⟩ := run_save_refused h rejection hauth hform
    refine .refused hform (e := intoApiError e) ?_
    simp only [saveSettings, Prog.run_bind, run_authed, hrun, Except.mapError]

/-- In every reachable state, for every form, Save does what the page promises, for owners only. -/
theorem save_shows {actions : List GatewayAction} {now : DateTime}
    (hsession : session token (Trace.exec Deployment.step actions (System.empty now)).now =
      some identity) (rejection : HttpError) (slug : String) (form : ManageBody) :
    Saves rejection (Trace.exec Deployment.step actions (System.empty now)) token slug
      identity.email form :=
  saves (reachable_exec actions now) hsession rejection slug form
end Runs

/-! ## Ann saves her settings -/

section Sample

attribute [local instance] Platform.sample

/-- Ann has typed a new name, new dues and a purpose. -/
def lakeForm : ManageBody where
  name := " Lake "
  cad := "monthly"
  duesMajor := "12"
  tz := "UTC"
  cur := "USD"
  purpose := " Rent "

/-- She presses Save. -/
theorem lake_saved : Saves ⟨422, "rejected"⟩ poolInvited (some annToken) "pool" "ann@pool.org"
    lakeForm := by
  have hsession : session (some annToken) poolInvited.now =
      some ⟨"ann@pool.org", none, none⟩ := by decide +kernel
  exact save_shows hsession ⟨422, "rejected"⟩ "pool" lakeForm
end Sample

end Pages

end SharamLedger
