import SharamLedger.Ledger.Accounts
import SharamLedger.Ledger.Tenant

/-!
# The steps of `create_tenant`

A new tenant comes about in three queries: the lookup in the directory, the `CREATE` of its
settings, and the transaction that registers it. Each is stated with what it needs and what it
leaves behind.
-/

namespace SharamLedger

open Lib

/-- The settings a new tenant is given. -/
def NewTenant.settings (init : NewTenant) : TenantSettings where
  timezone := init.timezone
  currency := init.currency
  displayName := init.displayName
  cadence := init.cadence
  duesAmountCents := init.duesAmountCents
  purpose := none

/-- `settings:current` carries the inputs of the call. -/
def HasSettings (init : NewTenant) (s : System) : Prop :=
  ∃ row, (s.namespaces init.slug.val).settings = some row ∧ row.toTenantSettings = init.settings

/-- The directory row of the slug carries the inputs of the call. -/
def HasDirectory (init : NewTenant) (c : Control) : Prop :=
  ∃ d ∈ c.tenantDirectory.rows, d.row.slug = init.slug.val ∧
    d.row.displayName = init.displayName ∧ d.row.createdBy = init.createdBy

/-- The membership makes the creator of the call an owner of the tenant. -/
def NewTenant.IsOwner (init : NewTenant) (m : MembershipRecord) : Prop :=
  m.row.user = init.createdBy ∧ m.row.tenantSlug = init.slug.val ∧ m.row.role = "owner"

/-- The creator of the call is an owner of the tenant. -/
def HasOwner (init : NewTenant) (c : Control) : Prop := ∃ m ∈ c.membership.rows, init.IsOwner m

/-! ## Settings -/

/-- The settings pass their assertions. The text fields of a new tenant have none. -/
def NewTenant.Checked (init : NewTenant) : Prop :=
  isCadence init.cadence = true ∧ I64.Fits init.duesAmountCents ∧ 0 ≤ init.duesAmountCents

namespace Namespace

/-- Settings are created where there were none. -/
theorem createSettings_creates {init : NewTenant} {now : DateTime} {ns ns' : Namespace} {u : Unit}
    (h : ns.createSettings init now = .ok (u, ns')) :
    ns.settings = none ∧ init.Checked ∧ ∃ row : Settings, row.toTenantSettings = init.settings ∧
      ns' = { ns with settings := some row } := by
  dsimp only [createSettings] at h
  split at h
  · cases h
  · cases h
  · next hcheck hnone =>
      cases h
      refine ⟨hnone, ?_, _, rfl, rfl⟩
      unfold Settings.check at hcheck
      split at hcheck
      · cases hcheck
      · next hcadence =>
          split at hcheck
          · cases hcheck
          · next hdues => simpa [NewTenant.Checked, isInt] using And.intro hcadence hdues

/-- Checked settings are created wherever there are none. -/
theorem createSettings_of_none {init : NewTenant} {now : DateTime} {ns : Namespace}
    (hnone : ns.settings = none) (hcheck : init.Checked) :
    ns.createSettings init now = .ok ((), { ns with
      settings := some { init.settings with createdAt := now, updatedAt := now } }) := by
  obtain ⟨hcadence, hfits, hpos⟩ := hcheck
  simp [createSettings, Settings.check, NewTenant.settings, hcadence, isInt, hfits, hpos, hnone]

end Namespace

/-! ## Registration -/

namespace Control

variable {c c' : Control}

/-- The registration adds a directory row and an owner, where there was neither. -/
theorem registerTenant_rows {init : NewTenant} {now : DateTime} {u : Unit}
    (h : c.registerTenant init now = .ok (u, c')) :
    ∃ (d : TenantDirectoryRecord) (m : MembershipRecord),
      d.row = ⟨init.slug.val, init.displayName, init.createdBy, now⟩ ∧
      m.row = ⟨init.createdBy, init.slug.val, "owner", now⟩ ∧
      (∀ x, x ∈ c'.tenantDirectory.rows ↔ x ∈ c.tenantDirectory.rows ∨ x = d) ∧
      (∀ x, x ∈ c'.membership.rows ↔ x ∈ c.membership.rows ∨ x = m) ∧
      c'.user = c.user ∧ c'.invite = c.invite ∧ c.directoryEntry init.slug.val = none ∧
      c.roleOf init.createdBy init.slug.val = none := by
  unfold registerTenant at h
  cases hd : createRow
      { slug := init.slug.val
        displayName := init.displayName
        createdBy := init.createdBy
        createdAt := now : TenantDirectory } c.tenantDirectory with
  | error e => simp [hd, bind, Except.bind] at h
  | ok directory =>
      obtain ⟨d, directory⟩ := directory
      cases hm : createRow
          { user := init.createdBy
            tenantSlug := init.slug.val
            role := "owner"
            createdAt := now : Membership } c.membership with
      | error e => simp [hd, hm, bind, Except.bind] at h
      | ok membership =>
          obtain ⟨m, membership⟩ := membership
          simp only [hd, hm, bind, Except.bind, pure, Except.pure, Except.ok.injEq,
            Prod.mk.injEq] at h
          obtain ⟨-, rfl⟩ := h
          obtain ⟨-, hdcreate⟩ := createRow_ok hd
          obtain ⟨-, hmcreate⟩ := createRow_ok hm
          obtain ⟨rfl, -, hdfree⟩ := Table.create_some hdcreate
          obtain ⟨rfl, -, hmfree⟩ := Table.create_some hmcreate
          refine ⟨_, _, rfl, rfl, Table.mem_create hdcreate, Table.mem_create hmcreate, rfl, rfl,
            List.find?_eq_none.mpr fun x hx => ?_,
            Option.map_eq_none_iff.mpr (List.find?_eq_none.mpr fun x hx => ?_)⟩
          · simpa [Indexed.collides] using hdfree x hx
          · simpa [Indexed.collides] using hmfree x hx

/-- A free slug in which the creator has no membership can be registered. -/
theorem registerTenant_of_free {init : NewTenant} {now : DateTime}
    (hdirectory : c.directoryEntry init.slug.val = none)
    (hmember : c.roleOf init.createdBy init.slug.val = none) :
    ∃ c', c.registerTenant init now = .ok ((), c') := by
  have hslug := matchesSlug_of_valid init.slug.valid
  obtain ⟨d, hd⟩ : ∃ d : TenantDirectory,
      d = ⟨init.slug.val, init.displayName, init.createdBy, now⟩ := ⟨_, rfl⟩
  obtain ⟨m, hm⟩ : ∃ m : Membership, m = ⟨init.createdBy, init.slug.val, "owner", now⟩ := ⟨_, rfl⟩
  obtain ⟨directory, hdirectory'⟩ : ∃ t, c.tenantDirectory.create d =
      some (⟨c.tenantDirectory.nextId, d⟩, t) :=
    Table.create_of_free fun x hx => by
      rw [hd]
      exact Table.find_none hdirectory x hx
  obtain ⟨membership, hmembership⟩ : ∃ t, c.membership.create m =
      some (⟨c.membership.nextId, m⟩, t) :=
    Table.create_of_free fun x hx => by
      rw [hm]
      exact Table.find_none (Option.map_eq_none_iff.mp hmember) x hx
  have hdcheck : d.check = .ok () := by simp [TenantDirectory.check, hd, hslug]
  have hmcheck : m.check = .ok () := by simp [Membership.check, hm, hslug, isRole]
  have hdrow := createRow_of hdcheck hdirectory'
  have hmrow := createRow_of hmcheck hmembership
  rw [hd] at hdrow
  rw [hm] at hmrow
  simp only [registerTenant, hdrow, hmrow, bind, Except.bind, pure, Except.pure]
  exact ⟨_, rfl⟩

end Control

/-! ## The points of the call -/

variable [Platform]

/-- The call has found the slug free: its settings are next. -/
def providing (init : NewTenant) : LedgerProg Unit := do
  onTenant init.slug DbError.plain (Namespace.createSettings init)
  onControl DbError.plain (Control.registerTenant init)

/-- The call has created its settings: its registration is next. -/
def registering (init : NewTenant) : LedgerProg Unit :=
  onControl DbError.plain (Control.registerTenant init)

theorem createTenant_eq (init : NewTenant) :
    createTenant init = readControl (fun c => c.directoryEntry init.slug.val) >>= fun existing =>
      if existing.isSome then .err (.tenantExists init.slug.val) else providing init := rfl

/-- The registration is the one query that writes the directory. -/
theorem registering_effect {init : NewTenant} {effect : System → System}
    {next : System → LedgerProg Unit} (h : registering init = .query effect next) :
    (effect (.empty 0)).control.tenantDirectory.rows ≠ [] := by
  obtain ⟨rfl, -⟩ := Prog.query.inj h
  obtain ⟨c, hc⟩ : ∃ c, (System.empty 0).control.registerTenant init (System.empty 0).now =
      .ok ((), c) := Control.registerTenant_of_free rfl rfl
  obtain ⟨d, m, -, -, hdirectory, -⟩ := Control.registerTenant_rows hc
  simp only [hc]
  exact List.ne_nil_of_mem ((hdirectory d).mpr (.inr rfl))

end SharamLedger
