import SharamLedger.SeedDates
import SharamLedger.Slugs
import SharamLedger.VenturePages

/-!
# The form for a new venture

The button of `sharam-ui/src/pages/create_tenant.rs` sends up to two requests: one founds the
venture, and the other one seeds it with a kitty from before. A slug that is not registered has left
nothing behind in a reachable state, so the first request fails for reasons that its sender can see.
The second one fails just for dates that are not on the calendar, and then the venture is there
without its seed.
-/

namespace SharamLedger

open Lib

namespace Pages

/-! ## The form -/

/-- The fields of a seed. -/
structure SeedForm where
  fromDate : String
  toDate : String
  amount : String
  note : String

/-- What is in the form. The seed is there when its box is ticked. -/
structure VentureForm where
  displayName : String
  slug : String
  timezone : String
  currency : String
  cadence : String
  dues : String
  seed : Option SeedForm

/-- `CreateTenantRequest` of the page. -/
structure CreateTenantRequest where
  slug : String
  displayName : String
  timezone : String
  currency : String
  cadence : String
  duesAmountCents : Int

/-- The body as the handler receives it. -/
def CreateTenantRequest.body (rejection : HttpError) (req : CreateTenantRequest) :
    Extracted SharamLedger.CreateTenantRequest :=
  ((Cadence.fromStr req.cadence).mapError fun _ => rejection).map fun cadence =>
    { slug := req.slug
      displayName := req.displayName
      timezone := req.timezone
      currency := req.currency
      cadence
      duesAmountCents := req.duesAmountCents }

/-- The checks of the page for the venture. -/
def VentureForm.request (form : VentureForm) : Except String CreateTenantRequest :=
  let name := Text.trim form.displayName
  let slug := Text.trim form.slug
  if name.isEmpty then .error "Display name is required."
  else
    match validateSlug slug with
    | .error message => .error message
    | .ok () =>
        (CreatePage.duesCents form.dues).map fun duesAmountCents =>
          { slug
            displayName := name
            timezone := form.timezone
            currency := form.currency
            cadence := form.cadence
            duesAmountCents }

/-- The checks of the page for a seed, so that a bad one does not get as far as a venture. -/
def SeedForm.request (form : SeedForm) : Except String SetCarryForwardRequest :=
  let fromDate := Text.trim form.fromDate
  let toDate := Text.trim form.toDate
  let note := Text.trim form.note
  if !(CreatePage.isIsoDate fromDate && CreatePage.isIsoDate toDate) then
    .error "Carry-forward dates must be in YYYY-MM-DD format."
  else if toDate < fromDate then
    .error "Carry-forward 'from' date must be on or before 'to' date."
  else
    match CreatePage.duesCents form.amount with
    | .error message => .error ("Carry-forward: " ++ message)
    | .ok amountCents =>
        if 0 < amountCents then
          .ok { fromDate, toDate, amountCents, note := if note.isEmpty then none else some note }
        else .error "Carry-forward amount must be greater than zero."

def VentureForm.seedRequest (form : VentureForm) : Except String (Option SetCarryForwardRequest) :=
  match form.seed with
  | none => .ok none
  | some seed => seed.request.map some

section Requests

variable [Platform]

def submitTenant (rejection : HttpError) (token : Option String) (req : CreateTenantRequest) :
    PageProg CreateTenantResponse :=
  authed token fun headers => createTenantHandler headers (req.body rejection)

def submitCarryForward (token : Option String) (slug : String) (req : SetCarryForwardRequest) :
    PageProg Unit := do
  let _ ← authed token fun headers => setCarryForwardHandler slug headers (.ok req)
  return ()

omit [Platform] in
/-- What the page says of a venture that it has created. -/
def createdMessage (req : CreateTenantRequest) (slug : String) : String :=
  "Created '" ++ req.displayName ++ "' (slug: " ++ slug ++ "). You are the owner."

omit [Platform] in
/-- What it adds for a seed. -/
def seededMessage (cf : SetCarryForwardRequest) : String :=
  " Carry-forward seeded: " ++ toString cf.amountCents ++ " cents covering " ++ cf.fromDate ++
    " → " ++ cf.toDate ++ "."

/-- `submit`: the message of the page. The venture stays when its seed fails. -/
def submitVenture (rejection : HttpError) (token : Option String) (form : VentureForm) :
    Prog System String String := do
  let req ← .lift form.request
  let seed ← .lift form.seedRequest
  let response ← (submitTenant rejection token req).mapErr ApiError.message
  match seed with
  | none => return createdMessage req response.slug
  | some cf =>
      (submitCarryForward token response.slug cf).mapErr fun e =>
        "Tenant created but carry-forward seed failed: " ++ e.message
      return createdMessage req response.slug ++ seededMessage cf

end Requests

section Runs

variable [Platform]

variable {token : Option String} {slug : String} {s : System} {identity : Identity}

/-! ## Slugs that are free -/

omit [Platform] in
/-- The namespace of a slug that is not registered is empty. -/
def Blank (s : System) : Prop :=
  ∀ slug, ¬ s.control.Registered slug → s.namespaces slug = .empty

theorem registered_of_role (h : s.control.Refers) {email : String}
    (hrole : (s.control.roleFor email slug).isSome = true) : s.control.Registered slug := by
  obtain ⟨u, -, -, role, hrole⟩ := Control.hasMembership_iff.mp (roleFor_isSome_iff.mp hrole)
  exact h.members u.id slug role hrole

omit [Platform] in
theorem directoryEntry_of_free (h : ¬ s.control.Registered slug) :
    s.control.directoryEntry slug = none := by
  cases hfind : s.control.directoryEntry slug with
  | none => rfl
  | some d => exact absurd (Control.registered_iff.mpr ⟨d, hfind⟩) h

/-- Settings are stored for a tenant that is registered by the next query. -/
theorem blank_founded {headers : Headers} {payload : Extracted SharamLedger.CreateTenantRequest}
    {s' : System} (hrefers : s.control.Refers) (hfounded : TenantFounded headers payload s s')
    (h : Blank s) : Blank s' := by
  obtain ⟨p, identity, r, tenantSlug, ns, -, -, -, -, hfree, -, hregisters, hnamespaces⟩ := hfounded
  rcases hregisters with ⟨⟨e, hfails⟩, -⟩ | hregister
  · obtain ⟨c, hc⟩ : ∃ c, s.control.registerTenant (p.toTenant tenantSlug r.id) s.now =
        .ok ((), c) :=
      Control.registerTenant_of_free hfree ((hrefers.free hfree).1 r.id)
    cases hfails.symm.trans hc
  · obtain ⟨d, -, hd, -, hdirectory, -⟩ := Control.registerTenant_rows hregister
    intro slug hslug
    have hne : slug ≠ tenantSlug.val := by
      intro heq
      exact hslug ⟨d, (hdirectory d).mpr (.inr rfl), by rw [hd]; exact heq.symm⟩
    rw [hnamespaces, System.namespaces_setNamespace_of_ne _ _ hne]
    exact h slug fun hregistered =>
      hslug (Deployment.registered_mono hregistered fun d hd => (hdirectory d).mpr (.inl hd))

theorem blank_step (a : GatewayAction) (s : System) (hrefers : s.control.Refers) (h : Blank s) :
    Blank (Deployment.step a s) := by
  cases a with
  | clock now => exact h
  | auth request =>
      rcases handleAuth_spec request s with ⟨e, he⟩ | ⟨email, r, c, -, hsign⟩
      · rw [Deployment.step, he]
        exact h
      · intro slug hslug
        rw [Deployment.step, hsign.accepts.namespaces]
        refine h slug fun hregistered =>
          hslug (Deployment.registered_mono hregistered fun d hd => ?_)
        rw [Deployment.step, hsign.accepts.directory.trans hsign.put.directory]
        exact hd
  | createTenant headers payload =>
      rcases createTenantHandler_spec headers payload s with ⟨e, he⟩ | hfounded
      · rw [Deployment.step, he]
        exact h
      · exact blank_founded hrefers hfounded h
  | tenant request =>
      have hconfined := respond_confined request s
      rcases handle_gated request s with ⟨e, he⟩ | ⟨identity, -, hmember⟩
      · rw [Deployment.step, TenantRequest.respond, he s rfl]
        exact h
      · intro slug hslug
        have hfree : ¬ s.control.Registered slug := fun hregistered =>
          hslug (Deployment.registered_mono hregistered fun d hd => hconfined.directory ▸ hd)
        -- the venture of the request has a member, so it is another one
        have hne : slug ≠ request.slug := fun heq =>
          hfree (heq ▸ registered_of_role hrefers hmember)
        exact (hconfined.namespaces slug hne).trans (h slug hfree)

theorem blank_exec (actions : List GatewayAction) (now : DateTime) :
    Blank (Trace.exec Deployment.step actions (System.empty now)) := by
  have hboth : Bookkeeping.Booked (Trace.exec Deployment.step actions (System.empty now)) ∧
      Blank (Trace.exec Deployment.step actions (System.empty now)) :=
    Trace.exec_invariant (I := fun s => Bookkeeping.Booked s ∧ Blank s)
      (fun a s h => ⟨Bookkeeping.booked_step a s h.1, blank_step a s h.1.refers h.2⟩) actions
      ⟨Bookkeeping.booked_empty now, fun _ _ => rfl⟩
  exact hboth.2

/-! ## The first request -/

omit [Platform] in
/-- What the gateway asks of the first request: the sender has a user row, the cadence is known, the
dues are not negative and the slug is free. -/
structure Foundable (s : System) (email : String) (req : CreateTenantRequest) : Prop where
  user : ∃ r, s.control.userByEmail email = some r
  cadence : ∃ c, Cadence.fromStr req.cadence = .ok c
  dues : 0 ≤ req.duesAmountCents
  free : ¬ s.control.Registered req.slug

omit [Platform] in
/-- What the page has checked before it sends anything. -/
structure Sendable (req : CreateTenantRequest) : Prop where
  slug : ∃ tenantSlug : TenantSlug, tenantSlug.val = req.slug
  trimmed : Text.trim req.slug = req.slug
  name : Text.trim req.displayName = req.displayName ∧ req.displayName.isEmpty = false
  fits : I64.Fits req.duesAmountCents

omit [Platform] in
theorem sendable_of_request {form : VentureForm} {req : CreateTenantRequest}
    (h : form.request = .ok req) : Sendable req := by
  unfold VentureForm.request at h
  dsimp only at h
  split at h
  · cases h
  · next hname =>
      cases hslug : validateSlug (Text.trim form.slug) with
      | error message =>
          rw [hslug] at h
          cases h
      | ok u =>
          cases hdues : CreatePage.duesCents form.dues with
          | error message =>
              rw [hslug, hdues] at h
              cases h
          | ok c =>
              rw [hslug, hdues] at h
              obtain rfl := Except.ok.inj h
              obtain ⟨tenantSlug, hnew⟩ :=
                (tenantSlug_new_iff _).mpr ((validateSlug_iff _).mp hslug)
              exact
                { slug := ⟨tenantSlug, TenantSlug.val_of_new hnew⟩
                  trimmed := trim_trim _
                  name := ⟨trim_trim _, Bool.not_eq_true _ ▸ hname⟩
                  fits := (DuesForms.duesCents_eq_ok.mp hdues).2 }

omit [Platform] in
/-- The settings that it asks for. -/
def CreateTenantRequest.settings (req : CreateTenantRequest) : TenantSettings where
  timezone := req.timezone
  currency := req.currency
  displayName := req.displayName
  cadence := req.cadence
  duesAmountCents := req.duesAmountCents
  purpose := none

omit [Platform] in
/-- The state with the new venture: its founder is its only member, nothing has been paid, and
nothing has happened to any other venture. -/
structure Founded (s s' : System) (email : String) (req : CreateTenantRequest) : Prop where
  now : s'.now = s.now
  roles : ∀ a, s'.control.roleFor a req.slug = if a = email then some "owner" else none
  settings : ∃ row, (s'.namespaces req.slug).settings = some row ∧
    row.toTenantSettings = req.settings
  payments : (s'.namespaces req.slug).contribution.rows = []
  others : ∀ slug, slug ≠ req.slug → s'.namespaces slug = s.namespaces slug ∧
    ∀ a, s'.control.roleFor a slug = s.control.roleFor a slug

section First

variable {req : CreateTenantRequest}

omit [Platform] in
theorem body_of_cadence {c : Cadence} (hc : Cadence.fromStr req.cadence = .ok c)
    (rejection : HttpError) :
    req.body rejection = .ok ⟨req.slug, req.displayName, req.timezone, req.currency, c,
      req.duesAmountCents⟩ := by
  simp only [CreateTenantRequest.body, hc, Except.map, Except.mapError]

omit [Platform] in
theorem Sendable.parses (h : Sendable req) :
    ∃ tenantSlug : TenantSlug, tenantSlug.val = req.slug ∧
      TenantSlug.new req.slug = .ok tenantSlug := by
  obtain ⟨tenantSlug, hslug⟩ := h.slug
  refine ⟨tenantSlug, hslug, ?_⟩
  rw [← hslug]
  exact dif_pos tenantSlug.valid

/-- Settings in an empty namespace and the registration of the slug found the venture. -/
theorem founded_registered {init : NewTenant} {r : UserRecord} {control : Control} {row : Settings}
    {email : String} (hrefers : s.control.Refers)
    (hdirectory : s.control.directoryEntry req.slug = none)
    (hempty : s.namespaces req.slug = .empty) (hslug : init.slug.val = req.slug)
    (huser : s.control.userByEmail email = some r) (hcreator : init.createdBy = r.id)
    (hregister : s.control.registerTenant init s.now = .ok ((), control))
    (hrow : row.toTenantSettings = req.settings) :
    Founded s { s.setNamespace req.slug { s.namespaces req.slug with settings := some row } with
      control := control } email req := by
  have hspace : (s.setNamespace req.slug
      { s.namespaces req.slug with settings := some row }).namespaces req.slug =
        { s.namespaces req.slug with settings := some row } :=
    System.namespaces_setNamespace_same ..
  have hroles := Control.roleFor_registered hregister huser hcreator
  have hnobody : ∀ a, s.control.roleFor a req.slug = none := by
    intro a
    rw [Control.roleFor_eq, Option.bind_eq_none_iff]
    exact fun u _ => (hrefers.free hdirectory).1 u.id
  exact
    { now := rfl
      roles := fun a => by
        show control.roleFor a req.slug = _
        rw [hroles, hnobody, hslug]
        simp
      settings := ⟨row, by rw [hspace], hrow⟩
      payments := by
        rw [hspace, hempty]
        rfl
      others := fun slug hne => by
        refine ⟨System.namespaces_setNamespace_of_ne _ _ hne, fun a => ?_⟩
        show control.roleFor a slug = _
        rw [hroles, hslug, if_neg fun hnew => hne hnew.2] }

/-- A request that the gateway takes. -/
theorem run_submitTenant (h : Reachable s) (hblank : Blank s) (rejection : HttpError)
    (hsession : session token s.now = some identity) (hsent : Sendable req)
    (hfoundable : Foundable s identity.email req) :
    ∃ s', (submitTenant rejection token req).run s =
        (.ok ⟨req.slug, req.displayName, "owner"⟩, s') ∧
      Reachable s' ∧ Founded s s' identity.email req ∧
      (s'.namespaces req.slug).carryForward = none := by
  obtain ⟨text, rfl, hauth⟩ := of_session hsession
  obtain ⟨r, huser⟩ := hfoundable.user
  obtain ⟨c, hc⟩ := hfoundable.cadence
  obtain ⟨tenantSlug, hslug, hnew⟩ := hsent.parses
  have hdirectory : s.control.directoryEntry tenantSlug.val = none :=
    directoryEntry_of_free (hslug ▸ hfoundable.free)
  have hempty : s.namespaces tenantSlug.val = .empty := hblank _ (hslug ▸ hfoundable.free)
  let p : SharamLedger.CreateTenantRequest := ⟨req.slug, req.displayName, req.timezone,
    req.currency, c, req.duesAmountCents⟩
  let init : NewTenant := ⟨tenantSlug, req.displayName, req.timezone, req.currency, c.asStr,
    req.duesAmountCents, r.id⟩
  let row : Settings := { init.settings with createdAt := s.now, updatedAt := s.now }
  have hsettings : (s.namespaces tenantSlug.val).createSettings init s.now =
      .ok ((), { s.namespaces tenantSlug.val with settings := some row }) := by
    refine Namespace.createSettings_of_none ?_ ⟨?_, hsent.fits, hfoundable.dues⟩
    · rw [hempty]
      rfl
    · show isCadence c.asStr = true
      cases c <;> decide
  obtain ⟨control, hregister⟩ : ∃ control, s.control.registerTenant init s.now =
      .ok ((), control) :=
    Control.registerTenant_of_free hdirectory ((h.booked.refers.free hdirectory).1 r.id)
  have hrow : row.toTenantSettings = req.settings := by
    show init.settings = req.settings
    rw [CreateTenantRequest.settings, Cadence.asStr_of_fromStr hc]
    rfl
  let s' : System := { s.setNamespace tenantSlug.val
    { s.namespaces tenantSlug.val with settings := some row } with control := control }
  have hrun : (createTenantHandler (tokenHeaders text) (.ok p)).run s =
      (.ok ⟨tenantSlug.val, req.displayName, "owner"⟩, s') := by
    simp only [init] at hsettings hregister
    simp [createTenantHandler, p, hauth, hsent.trimmed, hnew, hsent.name.1, hsent.name.2,
      hfoundable.dues, getUserByEmail, huser, createTenant, hdirectory, hsettings, hregister,
      Except.mapError, s', row, init]
  have hreached : Reachable s' := by
    have hstep : Deployment.step (.createTenant (tokenHeaders text) (.ok p)) s = s' := by
      rw [Deployment.step, hrun]
    exact hstep ▸ reachable_step _ h
  have hfounded : Founded s s' identity.email req := by
    have hfounded := founded_registered h.booked.refers (hslug ▸ hdirectory) (hslug ▸ hempty)
      hslug huser rfl hregister hrow
    rwa [← hslug] at hfounded
  refine ⟨s', ?_, hreached, hfounded, ?_⟩
  · rw [submitTenant, run_authed, body_of_cadence hc, hrun, hslug]
    rfl
  · have hspace : s'.namespaces tenantSlug.val =
        { s.namespaces tenantSlug.val with settings := some row } :=
      System.namespaces_setNamespace_same ..
    rw [← hslug, hspace, hempty]
    rfl

/-- Any other request is refused, and nothing changes. -/
theorem run_submitTenant_refused (rejection : HttpError)
    (hsession : session token s.now = some identity) (hsent : Sendable req)
    (hfoundable : ¬ Foundable s identity.email req) :
    ∃ e, (submitTenant rejection token req).run s = (.error e, s) := by
  obtain ⟨text, rfl, hauth⟩ := of_session hsession
  obtain ⟨tenantSlug, hslug, hnew⟩ := hsent.parses
  suffices hrefused : ∃ e, (createTenantHandler (tokenHeaders text) (req.body rejection)).run s =
      (.error e, s) by
    obtain ⟨e, he⟩ := hrefused
    exact ⟨intoApiError e, by rw [submitTenant, run_authed, he]; rfl⟩
  cases hc : Cadence.fromStr req.cadence with
  | error e =>
      exact ⟨rejection, by simp [createTenantHandler, CreateTenantRequest.body, hc, Except.map,
        Except.mapError]⟩
  | ok c =>
      rw [body_of_cadence hc]
      by_cases hdues : 0 ≤ req.duesAmountCents
      swap
      · exact ⟨⟨400, "dues_amount_cents must be >= 0"⟩, by simp [createTenantHandler, hauth,
          hsent.trimmed, hnew, hsent.name.1, hsent.name.2, hdues, Except.mapError]⟩
      cases huser : s.control.userByEmail identity.email with
      | none =>
          exact ⟨⟨401, "session refers to unknown user"⟩, by simp [createTenantHandler, hauth,
            hsent.trimmed, hnew, hsent.name.1, hsent.name.2, hdues, getUserByEmail, huser,
            Except.mapError]⟩
      | some r =>
          cases hdirectory : s.control.directoryEntry tenantSlug.val with
          | none =>
              refine absurd ⟨⟨r, huser⟩, ⟨c, hc⟩, hdues, fun hregistered => ?_⟩ hfoundable
              obtain ⟨d, hd⟩ := Control.registered_iff.mp (hslug ▸ hregistered)
              cases hdirectory.symm.trans hd
          | some d =>
              exact ⟨⟨409, "tenant '" ++ tenantSlug.val ++ "' already exists"⟩, by
                simp [createTenantHandler, hauth, hsent.trimmed, hnew, hsent.name.1, hsent.name.2,
                  hdues, getUserByEmail, huser, createTenant, hdirectory, Except.mapError]⟩

end First

/-! ## The second request -/

omit [Platform] in
/-- Both dates are on the calendar. -/
def Dated (cf : SetCarryForwardRequest) : Prop :=
  ¬ SeedDates.OffCalendar cf.fromDate ∧ ¬ SeedDates.OffCalendar cf.toDate

omit [Platform] in
/-- What the page has checked of a seed is what the handler checks. -/
theorem check_of_request {form : SeedForm} {cf : SetCarryForwardRequest}
    (h : form.request = .ok cf) : cf.check = .ok () ∧ I64.Fits cf.amountCents := by
  unfold SeedForm.request at h
  dsimp only at h
  split at h
  · cases h
  · next hdates =>
      split at h
      · cases h
      · next horder =>
          cases hamount : CreatePage.duesCents form.amount with
          | error message =>
              rw [hamount] at h
              cases h
          | ok c =>
              rw [hamount] at h
              dsimp only at h
              split at h
              · next hpositive =>
                  obtain rfl := Except.ok.inj h
                  rw [SeedDates.page_eq_gateway, SeedDates.page_eq_gateway] at hdates
                  refine ⟨?_, (DuesForms.duesCents_eq_ok.mp hamount).2⟩
                  rw [SetCarryForwardRequest.check, if_neg hdates, if_neg horder,
                    if_neg (Int.not_le.mpr hpositive)]
              · cases h

omit [Platform] in
theorem isDateText_of_check {cf : SetCarryForwardRequest} (h : cf.check = .ok ()) :
    (isDateText cf.fromDate = true ∧ isDateText cf.toDate = true) ↔ Dated cf := by
  obtain ⟨hfrom, hto, -⟩ := SeedDates.check_ok h
  rw [Dated, ← SeedDates.agree_iff, ← SeedDates.agree_iff, hfrom, hto]
  simp

section Second

variable {cf : SetCarryForwardRequest} {tenantSlug : TenantSlug}

/-- The owner's seed on the calendar is stored. -/
theorem run_submitCarryForward (hsession : session token s.now = some identity)
    (howner : s.control.roleFor identity.email tenantSlug.val = some "owner")
    (hemail : Platform.isEmail identity.email = true) (hcheck : cf.check = .ok ())
    (hfits : I64.Fits cf.amountCents) (hdated : Dated cf)
    (hfree : (s.namespaces tenantSlug.val).carryForward = none) :
    (submitCarryForward token tenantSlug.val cf).run s =
      (.ok (), s.setNamespace tenantSlug.val { s.namespaces tenantSlug.val with
        carryForward := some ((seedInput identity cf).row s.now) }) := by
  obtain ⟨text, rfl, hauth⟩ := of_session hsession
  have hslug : TenantSlug.new tenantSlug.val = .ok tenantSlug := dif_pos tenantSlug.valid
  obtain ⟨hfrom, hto⟩ := (isDateText_of_check hcheck).mpr hdated
  obtain ⟨row, ns, hcreate⟩ := SeedDates.createCarryForward_of_dates (seedInput identity cf) s.now
    hfrom hto hfits (SeedDates.check_ok hcheck).2.2 hemail hfree
  obtain ⟨rfl, -, -, rfl⟩ := Namespace.createCarryForward_row hcreate
  simp only [seedInput] at hcreate ⊢
  simp [submitCarryForward, run_authed, setCarryForwardHandler, hauth, hslug, howner, hcheck,
    setCarryForward, getCarryForward, hfree, hcreate, Except.mapError]

/-- One off the calendar is refused by the database. -/
theorem run_submitCarryForward_refused (hsession : session token s.now = some identity)
    (howner : s.control.roleFor identity.email tenantSlug.val = some "owner")
    (hcheck : cf.check = .ok ()) (hdated : ¬ Dated cf)
    (hfree : (s.namespaces tenantSlug.val).carryForward = none) :
    ∃ e, (submitCarryForward token tenantSlug.val cf).run s = (.error e, s) := by
  obtain ⟨text, rfl, hauth⟩ := of_session hsession
  have hslug : TenantSlug.new tenantSlug.val = .ok tenantSlug := dif_pos tenantSlug.valid
  cases hcreate : (s.namespaces tenantSlug.val).createCarryForward (seedInput identity cf)
      s.now with
  | ok answer =>
      obtain ⟨row, ns⟩ := answer
      obtain ⟨rfl, -, hstored, -⟩ := Namespace.createCarryForward_row hcreate
      refine absurd ((isDateText_of_check hcheck).mp ?_) hdated
      unfold CarryForward.check at hstored
      split at hstored
      · cases hstored
      · next hfrom =>
          split at hstored
          · cases hstored
          · next hto =>
              simp only [Bool.not_eq_true', Bool.not_eq_false] at hfrom hto
              exact ⟨hfrom, hto⟩
  | error e =>
      simp only [seedInput] at hcreate
      exact ⟨_, by
        simp [submitCarryForward, run_authed, setCarryForwardHandler, hauth, hslug, howner, hcheck,
          setCarryForward, getCarryForward, hfree, hcreate, Except.mapError]
        rfl⟩

/-- The second request is one that the gateway serves. -/
theorem reachable_submitCarryForward (h : Reachable s) (token : Option String) (slug : String)
    (cf : SetCarryForwardRequest) : Reachable ((submitCarryForward token slug cf).run s).2 := by
  cases token with
  | none => exact h
  | some text =>
      have hstep : Deployment.step
          (.tenant ⟨slug, tokenHeaders text, .setCarryForward (.ok cf)⟩) s =
            ((submitCarryForward (some text) slug cf).run s).2 := by
        rw [Deployment.step, TenantRequest.respond, TenantRequest.handle, Prog.run_bind_pure,
          submitCarryForward, Prog.run_bind, run_authed]
        cases hrun : ((setCarryForwardHandler slug (tokenHeaders text) (.ok cf)).run s).1 <;> rfl
      exact hstep ▸ reachable_step _ h

end Second

/-! ## Create -/

/-- The page of the new venture shows the form, and the caller as the owner and the only member.
Nobody has paid, and nothing has happened to any other venture. -/
structure Opened (s s' : System) (token : Option String) (email : String)
    (req : CreateTenantRequest) (v : VentureDetail) : Prop where
  page : (fetchVenture token req.slug).run s' = (.ok v, s')
  slug : v.slug = req.slug
  role : v.role = "owner"
  displayName : v.displayName = req.displayName
  timezone : v.timezone = req.timezone
  currency : v.currency = req.currency
  cadence : v.cadence = req.cadence
  dues : v.duesAmountCents = req.duesAmountCents
  purpose : v.purpose = none
  members : v.members.map (·.email) = [email]
  payments : (s'.namespaces req.slug).contribution.rows = []
  others : ∀ slug, slug ≠ req.slug → s'.namespaces slug = s.namespaces slug ∧
    ∀ a, s'.control.roleFor a slug = s.control.roleFor a slug

/-- What the button does. What its own checks turn away the page does not send: its program ends
with an error before the first query. The gateway refuses the venture as a whole, or takes it; then
the seed is stored if its dates are on the calendar, and otherwise the page says that the venture
is there without it. -/
inductive Creates (rejection : HttpError) (s : System) (token : Option String)
    (identity : Identity) (form : VentureForm) : Prop where
  | unsent {e : String} :
      (∀ req seed, form.request = .ok req → form.seedRequest ≠ .ok seed) →
      submitVenture rejection token form = .err e →
      Creates rejection s token identity form
  | refused {req : CreateTenantRequest} {seed : Option SetCarryForwardRequest} {e : String} :
      form.request = .ok req → form.seedRequest = .ok seed → ¬ Foundable s identity.email req →
      (submitVenture rejection token form).run s = (.error e, s) →
      Creates rejection s token identity form
  | created {req : CreateTenantRequest} {seed : Option SetCarryForwardRequest} {e : String}
      {s' : System} {v : VentureDetail} :
      form.request = .ok req → form.seedRequest = .ok seed → Foundable s identity.email req →
      (∀ cf, seed = some cf → Dated cf) →
      (submitVenture rejection token form).run s = (.ok e, s') →
      Opened s s' token identity.email req v →
      (s'.namespaces req.slug).carryForward =
        (seed.map fun cf => (seedInput identity cf).row s.now) →
      Creates rejection s token identity form
  | unseeded {req : CreateTenantRequest} {cf : SetCarryForwardRequest} {e : String}
      {s' : System} {v : VentureDetail} :
      form.request = .ok req → form.seedRequest = .ok (some cf) →
      Foundable s identity.email req → ¬ Dated cf →
      (submitVenture rejection token form).run s =
        (.error ("Tenant created but carry-forward seed failed: " ++ e), s') →
      Opened s s' token identity.email req v →
      (s'.namespaces req.slug).carryForward = none →
      Creates rejection s token identity form

section Press

variable {req : CreateTenantRequest} {s' : System}

theorem opened_of_founded (h : Reachable s') (hsession : session token s.now = some identity)
    (hfounded : Founded s s' identity.email req) :
    ∃ v, Opened s s' token identity.email req v := by
  have howner : s'.control.roleFor identity.email req.slug = some "owner" := by
    rw [hfounded.roles, if_pos rfl]
  have hmembers : (s'.control.membersOf req.slug).map (·.email) = [identity.email] := by
    have hjoined := h.accountable.joined
    refine List.perm_singleton.mp ((List.perm_ext_iff_of_nodup
      (Control.nodup_membersOf hjoined _) (List.nodup_singleton _)).mpr fun a => ?_)
    rw [Control.mem_membersOf hjoined, ← roleFor_isSome_iff, hfounded.roles, List.mem_singleton]
    by_cases ha : a = identity.email <;> simp [ha]
  rcases run_fetchVenture h (hfounded.now ▸ hsession) req.slug with
    ⟨hnone, -⟩ | ⟨v, hshown, hloaded⟩
  · rw [howner] at hnone
    cases hnone
  · obtain ⟨row, hrow, hsettings⟩ := hfounded.settings
    cases hshown with
    | intro hv hslug hrole hstored =>
        obtain rfl := Option.some.inj (hrow.symm.trans hstored)
        exact ⟨_,
          { page := hloaded
            slug := hslug
            role := Option.some.inj (hrole.symm.trans howner)
            displayName := congrArg TenantSettings.displayName hsettings
            timezone := congrArg TenantSettings.timezone hsettings
            currency := congrArg TenantSettings.currency hsettings
            cadence := congrArg TenantSettings.cadence hsettings
            dues := congrArg TenantSettings.duesAmountCents hsettings
            purpose := congrArg TenantSettings.purpose hsettings
            members := by
              show ((s'.control.membersOf req.slug).map memberView).map (·.email) = _
              rw [List.map_map]
              exact hmembers
            payments := hfounded.payments
            others := hfounded.others }⟩

omit [Platform] in
/-- A seed leaves the rest of the venture as it is. -/
theorem founded_seeded {email : String} (row : CarryForward) (h : Founded s s' email req) :
    Founded s (s'.setNamespace req.slug { s'.namespaces req.slug with carryForward := some row })
      email req := by
  have hspace : (s'.setNamespace req.slug
      { s'.namespaces req.slug with carryForward := some row }).namespaces req.slug =
        { s'.namespaces req.slug with carryForward := some row } :=
    System.namespaces_setNamespace_same ..
  exact
    { now := h.now
      roles := h.roles
      settings := by
        rw [hspace]
        exact h.settings
      payments := by
        rw [hspace]
        exact h.payments
      others := fun slug hne => by
        rw [System.namespaces_setNamespace_of_ne _ _ hne]
        exact h.others slug hne }

omit [Platform] in
theorem check_of_seedRequest {form : VentureForm} {cf : SetCarryForwardRequest}
    (h : form.seedRequest = .ok (some cf)) : cf.check = .ok () ∧ I64.Fits cf.amountCents := by
  unfold VentureForm.seedRequest at h
  cases hseed : form.seed with
  | none =>
      rw [hseed] at h
      cases h
  | some seedForm =>
      cases hrequest : seedForm.request with
      | error message =>
          rw [hseed] at h
          simp only [hrequest] at h
          cases h
      | ok found =>
          rw [hseed] at h
          simp only [hrequest] at h
          obtain rfl := Option.some.inj (Except.ok.inj h)
          exact check_of_request hrequest

/-- A venture that the gateway takes. -/
theorem creates_of_foundable {form : VentureForm} {seed : Option SetCarryForwardRequest}
    (h : Reachable s) (hblank : Blank s) (rejection : HttpError)
    (hsession : session token s.now = some identity) (hreq : form.request = .ok req)
    (hseed : form.seedRequest = .ok seed) (hfoundable : Foundable s identity.email req) :
    Creates rejection s token identity form := by
  have hsent := sendable_of_request hreq
  obtain ⟨s', hrun, hreached, hfounded, hfree⟩ :=
    run_submitTenant h hblank rejection hsession hsent hfoundable
  cases seed with
  | none =>
      obtain ⟨v, hopened⟩ := opened_of_founded hreached hsession hfounded
      refine .created (e := createdMessage req req.slug) hreq hseed hfoundable
        (fun _ hcf => by cases hcf) ?_ hopened hfree
      simp only [submitVenture, Prog.run_bind, Prog.run_lift, Prog.run_mapErr, hreq, hseed, hrun,
        Except.mapError, Prog.run_pure]
  | some cf =>
      obtain ⟨hcheck, hfits⟩ := check_of_seedRequest hseed
      obtain ⟨tenantSlug, hslug⟩ := hsent.slug
      have hsession' : session token s'.now = some identity := by rwa [hfounded.now]
      have howner : s'.control.roleFor identity.email tenantSlug.val = some "owner" := by
        rw [hslug, hfounded.roles, if_pos rfl]
      have hunset : (s'.namespaces tenantSlug.val).carryForward = none := by rwa [hslug]
      by_cases hdated : Dated cf
      · have hemail : Platform.isEmail identity.email = true := by
          obtain ⟨r, huser⟩ := hfoundable.user
          obtain ⟨hr, hemail⟩ := Control.userByEmail_eq_some.mp huser
          exact hemail ▸ h.booked.refers.addresses r hr
        have hseeded := run_submitCarryForward hsession' howner hemail hcheck hfits hdated hunset
        rw [hslug] at hseeded
        have hreached' := reachable_submitCarryForward hreached token req.slug cf
        rw [hseeded] at hreached'
        obtain ⟨v, hopened⟩ := opened_of_founded hreached' hsession (founded_seeded _ hfounded)
        refine .created (e := createdMessage req req.slug ++ seededMessage cf) hreq hseed
          hfoundable (fun cf' hcf => ?_) ?_ hopened ?_
        · obtain rfl := Option.some.inj hcf
          exact hdated
        · simp only [submitVenture, Prog.run_bind, Prog.run_lift, Prog.run_mapErr, hreq, hseed,
            hrun, hseeded, Except.mapError, Prog.run_pure]
        · rw [System.namespaces_setNamespace_same, hfounded.now]
          rfl
      · -- the venture is there, and its owner has to seed it again
        obtain ⟨e, he⟩ := run_submitCarryForward_refused hsession' howner hcheck hdated hunset
        rw [hslug] at he
        obtain ⟨v, hopened⟩ := opened_of_founded hreached hsession hfounded
        refine .unseeded (e := e.message) hreq hseed hfoundable hdated ?_ hopened hfree
        simp only [submitVenture, Prog.run_bind, Prog.run_lift, Prog.run_mapErr, hreq, hseed, hrun,
          he, Except.mapError]

theorem creates (h : Reachable s) (hblank : Blank s)
    (hsession : session token s.now = some identity) (rejection : HttpError)
    (form : VentureForm) : Creates rejection s token identity form := by
  cases hreq : form.request with
  | error message =>
      refine .unsent (e := message) (fun req seed hok => ?_) ?_
      · rw [hreq] at hok
        cases hok
      · rw [submitVenture, hreq]
        rfl
  | ok req =>
      cases hseed : form.seedRequest with
      | error message =>
          refine .unsent (e := message) (fun req seed _ hok => ?_) ?_
          · rw [hseed] at hok
            cases hok
          · rw [submitVenture, hreq, hseed]
            rfl
      | ok seed =>
          by_cases hfoundable : Foundable s identity.email req
          · exact creates_of_foundable h hblank rejection hsession hreq hseed hfoundable
          · obtain ⟨e, he⟩ := run_submitTenant_refused rejection hsession
              (sendable_of_request hreq) hfoundable
            refine .refused hreq hseed hfoundable (e := e.message) ?_
            simp only [submitVenture, Prog.run_bind, Prog.run_lift, Prog.run_mapErr, hreq, hseed,
              he, Except.mapError]

/-- In every reachable state, for everything that may be in the form. -/
theorem create_opens {actions : List GatewayAction} {now : DateTime}
    (hsession : session token (Trace.exec Deployment.step actions (System.empty now)).now =
      some identity) (rejection : HttpError) (form : VentureForm) :
    Creates rejection (Trace.exec Deployment.step actions (System.empty now)) token identity
      form :=
  creates (reachable_exec actions now) (blank_exec actions now) hsession rejection form

end Press

end Runs

/-! ## Ann opens a second venture -/

section Sample

attribute [local instance] Platform.sample

/-- It had a kitty before. -/
def lakeHouse (toDate : String) : VentureForm where
  displayName := "Lake house "
  slug := "lake_house"
  timezone := "UTC"
  currency := "USD"
  cadence := "monthly"
  dues := "12.50"
  seed := some ⟨"2026-01-01", toDate, "300", ""⟩

theorem lake_house_opens : Creates ⟨422, "rejected"⟩ poolInvited (some annToken)
    ⟨"ann@pool.org", none, none⟩ (lakeHouse "2026-05-31") := by
  have hsession : session (some annToken) poolInvited.now =
      some ⟨"ann@pool.org", none, none⟩ := by decide +kernel
  exact create_opens hsession ⟨422, "rejected"⟩ (lakeHouse "2026-05-31")

/-- A day that no month has passes both checks of dates, and the venture stays without its seed. -/
example : ((submitVenture ⟨422, "rejected"⟩ (some annToken) (lakeHouse "2026-05-41")).run
    poolInvited).1 =
      .error "Tenant created but carry-forward seed failed: database: The statement failed" := by
  decide +kernel

end Sample

end Pages

end SharamLedger
