import SharamLedger.Deployment
import SharamLedger.Gateway.Tenants

/-!
# Where the settings of a tenant come from

Stored settings are those of a request that founded the tenant, or the merge of an owner's patch
with older ones. `settings_from` says so of one request, and `tidy_exec` is what the checks of
the two handlers make of it in every run.
-/

namespace SharamLedger

open Lib

/-- What the checks of the handlers leave: a trimmed name, a cadence of the three, dues that are not
negative, and a purpose that is absent, or trimmed and within its limit. -/
structure TenantSettings.Tidy (s : TenantSettings) : Prop where
  trimmed : Text.trim s.displayName = s.displayName
  named : s.displayName ≠ ""
  cadence : ∃ c : Cadence, s.cadence = c.asStr
  dues : 0 ≤ s.duesAmountCents
  purpose : ∀ text, s.purpose = some text →
    Text.trim text = text ∧ text ≠ "" ∧ text.length ≤ 600

theorem trim_trim (s : String) : Text.trim (Text.trim s) = Text.trim s := by
  unfold Text.trim
  rw [String.toList_ofList, Text.trimChars_trimChars]

/-- Trimming makes no text longer. -/
theorem length_trim_le (s : String) : (Text.trim s).length ≤ s.length := by
  have hfront : (s.toList.dropWhile Text.isWhitespace).length ≤ s.toList.length :=
    (List.dropWhile_suffix _).length_le
  have hback : ((s.toList.dropWhile Text.isWhitespace).reverse.dropWhile
      Text.isWhitespace).length ≤ (s.toList.dropWhile Text.isWhitespace).reverse.length :=
    (List.dropWhile_suffix _).length_le
  rw [List.length_reverse] at hback
  rw [← String.length_toList, ← String.length_toList, Text.trim, String.toList_ofList,
    Text.trimChars, List.length_reverse]
  omega

/-- A founding request that passes its checks has tidy settings. -/
theorem tidy_toTenant {p : CreateTenantRequest} {slug : TenantSlug} (h : p.Passes slug)
    (user : Nat) : (p.toTenant slug user).settings.Tidy where
  trimmed := trim_trim p.displayName
  named := h.name
  cadence := ⟨p.cadence, rfl⟩
  dues := h.dues
  purpose _ hnone := by cases hnone

theorem PatchSettingsRequest.of_check {p : PatchSettingsRequest} (h : p.check = .ok ()) :
    (∀ dues, p.duesAmountCents = some dues → 0 ≤ dues) ∧
      (∀ name, p.displayName = some name → Text.trim name ≠ "") ∧
      ∀ text, p.purpose = some text → text.length ≤ 600 := by
  unfold check at h
  split at h
  · cases h
  · next hdues =>
      split at h
      · cases h
      · next hname =>
          split at h
          · cases h
          · next hpurpose =>
              refine ⟨fun dues hp => ?_, fun name hp => ?_, fun text hp => ?_⟩
              · simpa [hp] using hdues
              · simpa [hp] using hname
              · simpa [hp] using hpurpose

/-- A patch that passes its checks keeps settings tidy. -/
theorem tidy_merge {p : PatchSettingsRequest} (h : p.check = .ok ()) {old : Settings}
    (hold : old.Tidy) : (Namespace.mergeSettings p.toPatch old).Tidy := by
  obtain ⟨hdues, hname, hpurpose⟩ := PatchSettingsRequest.of_check h
  refine ⟨?_, ?_, ?_, ?_, fun text htext => ?_⟩
  · cases hp : p.displayName with
    | none => simpa [Namespace.mergeSettings, PatchSettingsRequest.toPatch, hp] using hold.trimmed
    | some name => simp [Namespace.mergeSettings, PatchSettingsRequest.toPatch, hp, trim_trim]
  · cases hp : p.displayName with
    | none => simpa [Namespace.mergeSettings, PatchSettingsRequest.toPatch, hp] using hold.named
    | some name =>
        simpa [Namespace.mergeSettings, PatchSettingsRequest.toPatch, hp] using hname name hp
  · cases hp : p.cadence with
    | none => simpa [Namespace.mergeSettings, PatchSettingsRequest.toPatch, hp] using hold.cadence
    | some c => exact ⟨c, by simp [Namespace.mergeSettings, PatchSettingsRequest.toPatch, hp]⟩
  · cases hp : p.duesAmountCents with
    | none => simpa [Namespace.mergeSettings, PatchSettingsRequest.toPatch, hp] using hold.dues
    | some dues =>
        simpa [Namespace.mergeSettings, PatchSettingsRequest.toPatch, hp] using hdues dues hp
  · cases hp : p.purpose with
    | none =>
        have hkept : old.purpose = some text := by
          simpa [Namespace.mergeSettings, PatchSettingsRequest.toPatch, hp] using htext
        exact hold.purpose text hkept
    | some v =>
        -- what is stored is the trimmed text, unless nothing is left of it
        have hmerged : (if (Text.trim v).isEmpty then none else some (Text.trim v)) =
            some text := by
          simpa [Namespace.mergeSettings, PatchSettingsRequest.toPatch, hp] using htext
        split at hmerged
        · cases hmerged
        · next hblank =>
            cases hmerged
            exact ⟨trim_trim v, by simpa using hblank,
              (length_trim_le v).trans (hpurpose v hp)⟩

variable [Platform]

/-- Where the settings of a tenant after a request come from. -/
inductive SettingsFrom (s : System) (slug : String) (row : Settings) : GatewayAction → Prop where
  | kept {a : GatewayAction} :
      (s.namespaces slug).settings = some row → SettingsFrom s slug row a
  | founded {headers : Headers} {p : CreateTenantRequest} {identity : Identity} {r : UserRecord}
      {tenantSlug : TenantSlug} :
      authResult headers s.now = .ok identity → s.control.userByEmail identity.email = some r →
      p.Passes tenantSlug → tenantSlug.val = slug → s.control.directoryEntry slug = none →
      (s.namespaces slug).settings = none →
      row.toTenantSettings = (p.toTenant tenantSlug r.id).settings →
      SettingsFrom s slug row (.createTenant headers (.ok p))
  | patched {headers : Headers} {p : PatchSettingsRequest} {old : Settings} :
      FromOwner headers slug s → p.check = .ok () → (s.namespaces slug).settings = some old →
      row.toTenantSettings = (Namespace.mergeSettings p.toPatch old).toTenantSettings →
      SettingsFrom s slug row (.tenant ⟨slug, headers, .patchSettings (.ok p)⟩)

namespace Deployment

/-! ## One request -/

/-- No setting of any tenant was written. -/
def SettingsKept (s s' : System) : Prop :=
  ∀ slug, (s'.namespaces slug).settings = (s.namespaces slug).settings

omit [Platform] in
theorem settingsKept_of_same {s s' : System} (h : s'.namespaces = s.namespaces) :
    SettingsKept s s' :=
  fun slug => by rw [h]

omit [Platform] in
theorem settingsKept_setNamespace {s : System} {slug : String} {ns : Namespace}
    (h : ns.settings = (s.namespaces slug).settings) :
    SettingsKept s (s.setNamespace slug ns) :=
  System.field_setNamespace Namespace.settings h

theorem settingsKept_payment {slug : String} {headers : Headers}
    {payload : Extracted PostContributionRequest} {s s' : System}
    (h : PaymentRecorded slug headers payload s s') : SettingsKept s s' := by
  obtain ⟨p, identity, settings, period, r, ns', -, -, -, -, -, -, hadd, rfl⟩ := h
  obtain ⟨-, -, -, -, -, hsettings, -⟩ := Namespace.createContribution_ok hadd
  exact settingsKept_setNamespace hsettings

theorem settingsKept_seed {s : System} {slug : String} {input : NewCarryForward}
    {row : CarryForward} {ns : Namespace}
    (h : (s.namespaces slug).createCarryForward input s.now = .ok (row, ns)) :
    SettingsKept s (s.setNamespace slug ns) := by
  obtain ⟨-, -, rfl⟩ := Namespace.createCarryForward_ok h
  exact settingsKept_setNamespace rfl

/-- The settings of the tenant stayed as they were, or come from the request. -/
def SettingsMoved (s s' : System) (slug : String) (a : GatewayAction) : Prop :=
  (s'.namespaces slug).settings = (s.namespaces slug).settings ∨
    ∃ row, (s'.namespaces slug).settings = some row ∧ SettingsFrom s slug row a

/-- What a founding request leaves in its namespace. -/
theorem settings_founded {headers : Headers} {payload : Extracted CreateTenantRequest}
    {s s' : System} (slug : String) (h : TenantFounded headers payload s s') :
    SettingsMoved s s' slug (.createTenant headers payload) := by
  obtain ⟨p, identity, r, tenantSlug, ns, rfl, hauth, huser, hpasses, hfree, hsettings, -,
    hnamespaces⟩ := h
  obtain ⟨hnone, -, stored, hstored, rfl⟩ := Namespace.createSettings_creates hsettings
  unfold SettingsMoved
  rw [hnamespaces]
  by_cases hslug : slug = tenantSlug.val
  · subst hslug
    rw [System.namespaces_setNamespace_same]
    exact .inr ⟨stored, rfl, .founded hauth huser hpasses rfl hfree hnone hstored⟩
  · rw [System.namespaces_setNamespace_of_ne _ _ hslug]
    exact .inl rfl

/-- What an owner's patch leaves in the namespace. -/
theorem settings_patched {slug' : String} {headers : Headers}
    {payload : Extracted PatchSettingsRequest} {s s' : System} (slug : String)
    (h : PatchApplied slug' headers payload s s') :
    SettingsMoved s s' slug (.tenant ⟨slug', headers, .patchSettings payload⟩) := by
  obtain ⟨p, identity, answer, ns', rfl, hcheck, hauth, howner, hpatch, rfl⟩ := h
  unfold SettingsMoved
  by_cases hslug : slug = slug'
  · subst hslug
    rw [System.namespaces_setNamespace_same]
    rcases Namespace.patchSettings_ok hpatch with ⟨-, -, rfl⟩ | ⟨old, hold, -, -, rfl⟩
    · exact .inl rfl
    · exact .inr ⟨_, rfl, .patched ⟨identity, hauth, howner⟩ hcheck hold rfl⟩
  · rw [System.namespaces_setNamespace_of_ne _ _ hslug]
    exact .inl rfl

/-- One request leaves the settings of a tenant alone, or founds the tenant, or patches them. -/
theorem settings_moved (a : GatewayAction) (s : System) (slug : String) :
    SettingsMoved s (step a s) slug a := by
  cases a with
  | clock now => exact .inl rfl
  | auth request =>
      rcases handleAuth_spec request s with ⟨e, he⟩ | ⟨email, r, c, -, hsign⟩
      · exact .inl (by rw [step, he])
      · exact .inl (by rw [step, hsign.accepts.namespaces])
  | createTenant headers payload =>
      rcases createTenantHandler_spec headers payload s with ⟨e, he⟩ | h
      · exact .inl (by rw [step, he])
      · exact settings_founded slug h
  | tenant request =>
      obtain ⟨slug', headers, route⟩ := request
      cases respond_wrote ⟨slug', headers, route⟩ s with
      | nothing hsame => exact .inl (settingsKept_of_same hsame slug)
      | payment _ h => exact .inl (settingsKept_payment h slug)
      | settings hroute h =>
          obtain rfl := hroute
          exact settings_patched slug h
      | seed _ hcreate hs' =>
          left
          rw [step, hs']
          exact settingsKept_seed hcreate slug

/-- Stored settings were there before, or come from the request. -/
theorem settings_from (a : GatewayAction) {s : System} {slug : String} {row : Settings}
    (hrow : ((step a s).namespaces slug).settings = some row) : SettingsFrom s slug row a := by
  rcases settings_moved a s slug with hsame | ⟨row', hrow', hfrom⟩
  · exact .kept (hsame.symm.trans hrow)
  · obtain rfl := Option.some.inj (hrow.symm.trans hrow')
    exact hfrom

/-! ## Runs -/

/-- All stored settings are tidy. -/
def Tidy (s : System) : Prop :=
  ∀ slug row, (s.namespaces slug).settings = some row → row.Tidy

theorem tidy_step (a : GatewayAction) (s : System) (h : Tidy s) : Tidy (step a s) := by
  intro slug row hrow
  cases settings_from a hrow with
  | kept hold => exact h slug row hold
  | founded _ _ hpasses _ _ _ hstored => rw [hstored]; exact tidy_toTenant hpasses _
  | patched _ hcheck hold hmerged => rw [hmerged]; exact tidy_merge hcheck (h slug _ hold)

theorem tidy_exec (actions : List GatewayAction) (now : DateTime) :
    Tidy (Trace.exec step actions (System.empty now)) :=
  Trace.exec_invariant tidy_step actions fun _ _ hrow => by cases hrow

end Deployment

end SharamLedger
