import SharamLedger.Registry
import SharamLedger.StoredSettings
import SharamLedger.ZoneNames

/-!
# The display name of a venture

The directory keeps a copy of the name that the settings of a tenant hold. The dashboard and the
invite mails read the copy, and a patch writes the settings only. As long as no owner renames a
venture, both hold one name.
-/

namespace SharamLedger

open Lib

namespace DisplayNames

/-- What members read for a slug is the name in the settings: on the dashboard of every address, and
where an invite mail takes it from. -/
def Shown (s : System) (slug : String) : Prop :=
  ∃ row, (s.namespaces slug).settings = some row ∧
    ((tenantDisplayName slug).run s).1 = .ok (some row.displayName) ∧
    ∀ email ventures, ((listUserVentures email).run s).1 = .ok ventures →
      ∀ v ∈ ventures, v.slug = slug → v.displayName = row.displayName

/-- Every directory row has the name of the settings. -/
def Agree (s : System) : Prop :=
  ∀ d ∈ s.control.tenantDirectory.rows, ∃ row,
    (s.namespaces d.row.slug).settings = some row ∧ row.displayName = d.row.displayName

theorem shown_of_agree {s : System} (h : Agree s) {slug : String}
    (hregistered : s.control.Registered slug) : Shown s slug := by
  obtain ⟨d, hd⟩ := Control.registered_iff.mp hregistered
  obtain ⟨hmem, hslug⟩ := Table.find_some hd
  obtain rfl : d.row.slug = slug := beq_iff_eq.mp hslug
  obtain ⟨row, hrow, hname⟩ := h d hmem
  refine ⟨row, hrow, ?_, fun email ventures hread v hv hslug => ?_⟩
  · show Except.ok ((s.control.directoryEntry d.row.slug).map fun r => r.row.displayName) = _
    rw [hd, hname]
    rfl
  · rw [run_listUserVentures, Control.venturesOf_eq] at hread
    obtain rfl := Except.ok.inj hread
    rw [List.mem_insertionSort] at hv
    obtain ⟨m, -, rfl⟩ := List.mem_map.mp hv
    have hentry : s.control.directoryEntry m.row.tenantSlug = some d := by
      rw [← hd]
      exact congrArg _ hslug
    show ((s.control.directoryEntry m.row.tenantSlug).map fun r => r.row.displayName).getD _ = _
    rw [hentry, hname]
    rfl

section Runs

variable [Platform]

/-- The request does not rename a venture: an owner's patch that passes its checks sends no name, or
the one that is stored. -/
def KeepsName (a : GatewayAction) (s : System) : Prop :=
  ∀ slug headers p, a = .tenant ⟨slug, headers, .patchSettings (.ok p)⟩ →
    FromOwner headers slug s → p.check = .ok () → ∀ name, p.displayName = some name →
      ∀ row, (s.namespaces slug).settings = some row → Text.trim name = row.displayName

omit [Platform] in
/-- Directory rows stay in agreement where they and the name in the settings stay. -/
theorem agree_of_names {s s' : System}
    (hdirectory : s'.control.tenantDirectory = s.control.tenantDirectory)
    (hnames : ∀ slug row, (s.namespaces slug).settings = some row →
      ∃ row', (s'.namespaces slug).settings = some row' ∧ row'.displayName = row.displayName)
    (h : Agree s) : Agree s' := by
  intro d hd
  rw [hdirectory] at hd
  obtain ⟨row, hrow, hname⟩ := h d hd
  obtain ⟨row', hrow', hname'⟩ := hnames d.row.slug row hrow
  exact ⟨row', hrow', hname'.trans hname⟩

/-- The new tenant has its name in both places, and the others keep theirs. -/
theorem agree_founded {headers : Headers} {payload : Extracted CreateTenantRequest}
    {s s' : System} (hfounded : TenantFounded headers payload s s') (h : Agree s) : Agree s' := by
  obtain ⟨p, identity, r, slug, ns, -, -, -, -, hfree, hsettings, hregisters, hnamespaces⟩ :=
    hfounded
  obtain ⟨-, -, stored, hstored, rfl⟩ := Namespace.createSettings_creates hsettings
  have hold : ∀ d ∈ s.control.tenantDirectory.rows, ∃ row,
      (s'.namespaces d.row.slug).settings = some row ∧ row.displayName = d.row.displayName := by
    intro d hd
    have hne : d.row.slug ≠ slug.val := by
      intro heq
      have hnone := Table.find_none hfree d hd
      simp [heq] at hnone
    rw [hnamespaces, System.namespaces_setNamespace_of_ne _ _ hne]
    exact h d hd
  intro d hd
  rcases hregisters with ⟨-, hsame⟩ | hregister
  · rw [hsame] at hd
    exact hold d hd
  · obtain ⟨d', -, hd', -, hdirectory, -⟩ := Control.registerTenant_rows hregister
    rcases (hdirectory d).mp hd with hd | rfl
    · exact hold d hd
    · have hslug : d.row.slug = slug.val := congrArg TenantDirectory.slug hd'
      have hname : d.row.displayName = stored.displayName :=
        (congrArg TenantDirectory.displayName hd').trans
          (congrArg TenantSettings.displayName hstored).symm
      rw [hslug, hnamespaces, System.namespaces_setNamespace_same]
      exact ⟨stored, rfl, hname.symm⟩

theorem agree_tenant (request : TenantRequest) {s : System}
    (hkeeps : KeepsName (.tenant request) s) (h : Agree s) : Agree (request.respond s).2 := by
  refine agree_of_names (respond_confined request s).directory (fun slug row hrow => ?_) h
  rcases Deployment.settings_moved (.tenant request) s slug with hsame | ⟨row', hrow', hfrom⟩
  · exact ⟨row, hsame.trans hrow, rfl⟩
  · refine ⟨row', hrow', ?_⟩
    cases hfrom with
    | kept hold =>
        obtain rfl := Option.some.inj (hrow.symm.trans hold)
        rfl
    | @patched headers p old howner hcheck hold hmerged =>
        obtain rfl := Option.some.inj (hrow.symm.trans hold)
        have hname := congrArg TenantSettings.displayName hmerged
        refine hname.trans ?_
        cases hp : p.displayName with
        | none => simp [Namespace.mergeSettings, PatchSettingsRequest.toPatch, hp]
        | some name =>
            have hkept := hkeeps slug headers p rfl howner hcheck name hp row hrow
            simp [Namespace.mergeSettings, PatchSettingsRequest.toPatch, hp, hkept]

theorem agree_step (a : GatewayAction) (s : System) (h : Agree s) (hkeeps : KeepsName a s) :
    Agree (Deployment.step a s) := by
  cases a with
  | clock now => exact h
  | auth request =>
      rcases handleAuth_spec request s with ⟨e, he⟩ | ⟨email, r, c, -, hsign⟩
      · rw [Deployment.step, he]
        exact h
      · refine agree_of_names (hsign.accepts.directory.trans hsign.put.directory)
          (fun slug row hrow => ⟨row, ?_, rfl⟩) h
        rw [Deployment.step, hsign.accepts.namespaces]
        exact hrow
  | createTenant headers payload =>
      rcases createTenantHandler_spec headers payload s with ⟨e, he⟩ | hfounded
      · rw [Deployment.step, he]
        exact h
      · exact agree_founded hfounded h
  | tenant request => exact agree_tenant request hkeeps h

/-- In a run that renames no venture, members of every tenant read the name of its settings. -/
theorem name_shown {actions : List GatewayAction} {now : DateTime}
    (hrun : Trace.Each Deployment.step KeepsName actions (System.empty now)) {slug : String}
    (hregistered :
      (Trace.exec Deployment.step actions (System.empty now)).control.Registered slug) :
    Shown (Trace.exec Deployment.step actions (System.empty now)) slug := by
  have hagree : Agree (Trace.exec Deployment.step actions (System.empty now)) :=
    hrun.invariant agree_step fun _ hd => by cases hd
  exact shown_of_agree hagree hregistered

end Runs

/-! ## A venture that is renamed -/

section Sample

attribute [local instance] Platform.sample

/-- Ann sends a name for her venture. -/
def annNames (name : String) : GatewayAction :=
  .tenant ⟨"pool", bearer "ann@pool.org" juneNoon,
    .patchSettings (.ok { displayName := some name })⟩

/-- A patch with the stored name shows it. -/
theorem name_shown_kept :
    Shown (Trace.exec Deployment.step (ZoneNames.annFounds "UTC" ++ [annNames " Pool "])
      (System.empty juneNoon)) "pool" := by
  have hkeeps : KeepsName (annNames " Pool ") (Trace.exec Deployment.step
      (ZoneNames.annFounds "UTC") (System.empty juneNoon)) := by
    intro slug headers p hp _ _ name hname row hrow
    cases hp
    cases hname
    have hstored : ((Trace.exec Deployment.step (ZoneNames.annFounds "UTC")
        (System.empty juneNoon)).namespaces "pool").settings = some (sampleSettings 10000) := by
      decide +kernel
    obtain rfl := Option.some.inj (hstored.symm.trans hrow)
    decide +kernel
  have hauth : ∀ request s, KeepsName (.auth request) s := fun _ _ _ _ _ ha => by cases ha
  have hcreate : ∀ headers payload s, KeepsName (.createTenant headers payload) s :=
    fun _ _ _ _ _ _ ha => by cases ha
  have hrun : Trace.Each Deployment.step KeepsName
      (ZoneNames.annFounds "UTC" ++ [annNames " Pool "]) (System.empty juneNoon) :=
    ⟨hauth _ _, hcreate _ _ _, hkeeps, trivial⟩
  exact name_shown hrun ⟨⟨0, ⟨"pool", "Pool", 0, juneNoon⟩⟩, by decide +kernel, rfl⟩

/-- Ann renames her venture: the settings have the new name, and everyone reads the old one. -/
def renamed : System :=
  Trace.exec Deployment.step (ZoneNames.annFounds "UTC" ++ [annNames "Lake"])
    (System.empty juneNoon)

theorem renamed_not_shown :
    renamed.control.Registered "pool" ∧
      (renamed.namespaces "pool").settings =
        some { sampleSettings 10000 with displayName := "Lake" } ∧
      ((tenantDisplayName "pool").run renamed).1 = .ok (some "Pool") ∧
      ((listUserVentures "ann@pool.org").run renamed).1 =
        .ok [⟨"pool", "Pool", "owner", juneNoon⟩] ∧ ¬ Shown renamed "pool" := by
  have hname : ((tenantDisplayName "pool").run renamed).1 = .ok (some "Pool") := by
    decide +kernel
  have hstored : (renamed.namespaces "pool").settings =
      some { sampleSettings 10000 with displayName := "Lake" } := by
    decide +kernel
  refine ⟨⟨⟨0, ⟨"pool", "Pool", 0, juneNoon⟩⟩, by decide +kernel, rfl⟩, hstored, hname,
    by decide +kernel, ?_⟩
  intro h
  obtain ⟨row, hrow, hshown, -⟩ := h
  obtain rfl := Option.some.inj (hstored.symm.trans hrow)
  rw [hname] at hshown
  have heq : "Pool" = "Lake" := Option.some.inj (Except.ok.inj hshown)
  exact absurd heq (by decide)

end Sample

end DisplayNames

end SharamLedger
