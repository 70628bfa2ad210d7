import SharamLedger.Ledger.Tenant
import SharamLedger.Lib.Patch
import SharamLedger.Sample

/-!
# The algebra of settings patches

`update_settings` writes the fields of a patch that are there. On stored settings, patches that
meet the assertions of the schema compose like patches of a record, up to the time stamp; one that
does not meet them is refused as a whole.
-/

namespace SharamLedger

open Lib

namespace SettingsPatch

/-! ## Settings as records -/

/-- The fields of the settings that a patch may have. -/
inductive Field where
  | displayName | timezone | currency | cadence | duesAmountCents | purpose
  deriving DecidableEq, Repr

def Field.Value : Field → Type
  | .displayName | .timezone | .currency | .cadence => String
  | .duesAmountCents => Int
  | .purpose => Option String

/-- The settings as a record. -/
def record (s : TenantSettings) : ∀ f : Field, f.Value
  | .displayName => s.displayName
  | .timezone => s.timezone
  | .currency => s.currency
  | .cadence => s.cadence
  | .duesAmountCents => s.duesAmountCents
  | .purpose => s.purpose

/-- What a purpose becomes: the trimmed text, or nothing when that is blank. -/
def cleaned (text : String) : Option String :=
  if Text.trim text = "" then none else some (Text.trim text)

/-- The patch, field by field. -/
def fields (p : UpdateSettings) : Patch Field.Value
  | .displayName => p.displayName
  | .timezone => p.timezone
  | .currency => p.currency
  | .cadence => p.cadence
  | .duesAmountCents => p.duesAmountCents
  | .purpose => p.purpose.map cleaned

/-- The single patch in which the fields of `q` override those of `p`. -/
def override (p q : UpdateSettings) : UpdateSettings where
  displayName := q.displayName.or p.displayName
  timezone := q.timezone.or p.timezone
  currency := q.currency.or p.currency
  cadence := q.cadence.or p.cadence
  duesAmountCents := q.duesAmountCents.or p.duesAmountCents
  purpose := q.purpose.or p.purpose

/-- The fields of the patch meet the types and the `ASSERT`s of the schema. The null of a blank
purpose meets the type of the field where `MERGE` takes it as clearing the field. -/
structure Asserted [Platform] (p : UpdateSettings) : Prop where
  cadence : ∀ c, p.cadence = some c → isCadence c = true
  dues : ∀ cents, p.duesAmountCents = some cents → I64.Fits cents ∧ 0 ≤ cents
  purpose : ∀ text, p.purpose = some text → (Text.trim text).length ≤ 600
  null : p.NullTaken

theorem record_inj {a b : TenantSettings} (h : record a = record b) : a = b := by
  have hfield := fun f => congrFun h f
  cases a
  cases b
  congr
  · exact hfield .timezone
  · exact hfield .currency
  · exact hfield .displayName
  · exact hfield .cadence
  · exact hfield .duesAmountCents
  · exact hfield .purpose

/-- Merging is applying the patch to the record. -/
theorem record_merge (p : UpdateSettings) (row : Settings) :
    record (Namespace.mergeSettings p row).toTenantSettings =
      (fields p).apply (record row.toTenantSettings) := by
  funext f
  cases f with
  | displayName | timezone | currency | cadence | duesAmountCents => rfl
  | purpose =>
      show (Namespace.mergeSettings p row).purpose = (p.purpose.map cleaned).getD row.purpose
      unfold Namespace.mergeSettings
      cases p.purpose with
      | none => rfl
      | some text =>
          simp only [Option.map_some, Option.getD_some, cleaned, String.isEmpty_iff]

theorem fields_override (p q : UpdateSettings) :
    fields (override p q) = (fields p).override (fields q) := by
  funext f
  cases f with
  | displayName | timezone | currency | cadence | duesAmountCents => rfl
  | purpose => exact Option.map_or

theorem isEmpty_iff {p : UpdateSettings} : p.isEmpty = true ↔ ∀ f, fields p f = none := by
  constructor
  · intro h f
    simp only [UpdateSettings.isEmpty, Bool.and_eq_true, Option.isNone_iff_eq_none] at h
    obtain ⟨⟨⟨⟨⟨hname, hzone⟩, hcurrency⟩, hcadence⟩, hdues⟩, hpurpose⟩ := h
    cases f with
    | displayName => exact hname
    | timezone => exact hzone
    | currency => exact hcurrency
    | cadence => exact hcadence
    | duesAmountCents => exact hdues
    | purpose => exact Option.map_eq_none_iff.mpr hpurpose
  · intro h
    have hpurpose : p.purpose = none := Option.map_eq_none_iff.mp (h .purpose)
    simp only [UpdateSettings.isEmpty, Bool.and_eq_true, Option.isNone_iff_eq_none]
    exact ⟨⟨⟨⟨⟨h .displayName, h .timezone⟩, h .currency⟩, h .cadence⟩, h .duesAmountCents⟩,
      hpurpose⟩

/-! ## Assertions -/

theorem check_iff {s : Settings} : s.check = .ok () ↔ isCadence s.cadence = true ∧
    (I64.Fits s.duesAmountCents ∧ 0 ≤ s.duesAmountCents) ∧
      ∀ text, s.purpose = some text → text.length ≤ 600 := by
  unfold Settings.check
  by_cases hcadence : isCadence s.cadence = true
  · by_cases hdues : I64.Fits s.duesAmountCents ∧ 0 ≤ s.duesAmountCents
    · cases s.purpose <;> simp [hcadence, hdues, isInt]
    · have hrefused : (isInt s.duesAmountCents && decide (0 ≤ s.duesAmountCents)) = false := by
        rw [← Bool.not_eq_true, Bool.and_eq_true, isInt, decide_eq_true_eq, decide_eq_true_eq]
        exact hdues
      simp [hcadence, hrefused, hdues]
  · simp [hcadence]

/-- A field of the merge meets what the stored one meets, when the one in the patch does. -/
theorem forall_getD {α : Type} {P : α → Prop} {old : α} (hold : P old) (new : Option α) :
    P (new.getD old) ↔ ∀ v, new = some v → P v := by
  cases new with
  | none => simpa using hold
  | some v => simp

section Schema

variable [Platform]

/-- Over stored settings the schema accepts what the patch itself meets. -/
theorem check_merge {row : Settings} (hstored : row.check = .ok ()) (p : UpdateSettings)
    (now : DateTime) :
    Settings.check { Namespace.mergeSettings p row with updatedAt := now } = .ok () ∧
      p.NullTaken ↔ Asserted p := by
  obtain ⟨hcadence, hdues, hpurpose⟩ := check_iff.mp hstored
  have hc : isCadence (Namespace.mergeSettings p row).cadence = true ↔
      ∀ c, p.cadence = some c → isCadence c = true :=
    forall_getD (P := fun c => isCadence c = true) hcadence _
  have hd : (I64.Fits (Namespace.mergeSettings p row).duesAmountCents ∧
      0 ≤ (Namespace.mergeSettings p row).duesAmountCents) ↔
      ∀ cents, p.duesAmountCents = some cents → I64.Fits cents ∧ 0 ≤ cents :=
    forall_getD (P := fun cents => I64.Fits cents ∧ 0 ≤ cents) hdues _
  have ht : (∀ text, (Namespace.mergeSettings p row).purpose = some text → text.length ≤ 600) ↔
      ∀ text, p.purpose = some text → (Text.trim text).length ≤ 600 := by
    have hmerged : (Namespace.mergeSettings p row).purpose =
        (p.purpose.map cleaned).getD row.purpose :=
      congrFun (record_merge p row) .purpose
    have hshort : (∀ text, ((p.purpose.map cleaned).getD row.purpose) = some text →
        text.length ≤ 600) ↔ ∀ v, p.purpose.map cleaned = some v → ∀ text, v = some text →
          text.length ≤ 600 :=
      forall_getD (P := fun v : Option String => ∀ text, v = some text → text.length ≤ 600)
        hpurpose _
    rw [hmerged, hshort]
    cases p.purpose with
    | none => simp
    | some text =>
        by_cases hblank : Text.trim text = "" <;> simp [cleaned, hblank]
  rw [check_iff]
  constructor
  · rintro ⟨h, hnull⟩
    exact ⟨hc.mp h.1, hd.mp h.2.1, ht.mp h.2.2, hnull⟩
  · intro h
    exact ⟨⟨hc.mpr h.cadence, hd.mpr h.dues, ht.mpr h.purpose⟩, h.null⟩

/-- There is nothing to refuse in an empty patch. -/
theorem asserted_of_isEmpty {p : UpdateSettings} (h : p.isEmpty = true) : Asserted p := by
  have hnone := isEmpty_iff.mp h
  have hcadence : p.cadence = none := hnone .cadence
  have hdues : p.duesAmountCents = none := hnone .duesAmountCents
  have hpurpose : p.purpose = none := Option.map_eq_none_iff.mp (hnone .purpose)
  refine ⟨?_, ?_, ?_, ?_⟩ <;>
    simp [hcadence, hdues, hpurpose, UpdateSettings.NullTaken, UpdateSettings.clearsPurpose]

theorem asserted_override {p q : UpdateSettings} (hp : Asserted p) (hq : Asserted q) :
    Asserted (override p q) where
  cadence c h := by
    rcases Option.or_eq_some_iff.mp h with h | ⟨-, h⟩
    · exact hq.cadence c h
    · exact hp.cadence c h
  dues cents h := by
    rcases Option.or_eq_some_iff.mp h with h | ⟨-, h⟩
    · exact hq.dues cents h
    · exact hp.dues cents h
  purpose text h := by
    rcases Option.or_eq_some_iff.mp h with h | ⟨-, h⟩
    · exact hq.purpose text h
    · exact hp.purpose text h
  null h := by
    cases hpurpose : q.purpose with
    | none => exact hp.null (by simpa [UpdateSettings.clearsPurpose, override, hpurpose] using h)
    | some text =>
        exact hq.null (by simpa [UpdateSettings.clearsPurpose, override, hpurpose] using h)

end Schema

/-! ## Calls -/

/-- The row after a patch: the merge with a new stamp, or the row itself. -/
def patched (p : UpdateSettings) (now : DateTime) (row : Settings) : Settings :=
  if p.isEmpty then row else { Namespace.mergeSettings p row with updatedAt := now }

theorem merge_of_isEmpty {p : UpdateSettings} (h : p.isEmpty = true) (row : Settings) :
    (Namespace.mergeSettings p row).toTenantSettings = row.toTenantSettings := by
  refine record_inj ?_
  rw [record_merge]
  funext f
  exact Patch.apply_of_none (isEmpty_iff.mp h f) _

theorem patched_settings (p : UpdateSettings) (now : DateTime) (row : Settings) :
    (patched p now row).toTenantSettings =
      (Namespace.mergeSettings p row).toTenantSettings := by
  unfold patched
  split
  · next h => exact (merge_of_isEmpty h row).symm
  · rfl

theorem record_patched (p : UpdateSettings) (now : DateTime) (row : Settings) :
    record (patched p now row).toTenantSettings =
      (fields p).apply (record row.toTenantSettings) := by
  rw [patched_settings, record_merge]

theorem createdAt_patched (p : UpdateSettings) (now : DateTime) (row : Settings) :
    (patched p now row).createdAt = row.createdAt := by
  unfold patched
  split <;> rfl

theorem check_patched [Platform] {row : Settings} (hstored : row.check = .ok ())
    {p : UpdateSettings} (hp : Asserted p) (now : DateTime) :
    (patched p now row).check = .ok () := by
  unfold patched
  split
  · exact hstored
  · exact ((check_merge hstored p now).mpr hp).1

/-- The state after the settings of one tenant have become these. -/
def withSettings (slug : TenantSlug) (s : System) (row : Settings) : System :=
  s.setNamespace slug.val { s.namespaces slug.val with settings := some row }

theorem settings_withSettings (slug : TenantSlug) (s : System) (row : Settings) :
    ((withSettings slug s row).namespaces slug.val).settings = some row := by
  rw [withSettings, System.namespaces_setNamespace_same]

section Runs

variable [Platform] {slug : TenantSlug} {s : System} {row : Settings} {p : UpdateSettings}

/-- A patch that meets the assertions. -/
theorem run_updateSettings (hrow : (s.namespaces slug.val).settings = some row)
    (hstored : row.check = .ok ()) (hp : Asserted p) :
    (updateSettings slug p).run s = (.ok (patched p s.now row).toTenantSettings,
      withSettings slug s (patched p s.now row)) := by
  unfold updateSettings patched
  by_cases hempty : p.isEmpty = true
  · have hsame : withSettings slug s row = s := by
      unfold withSettings
      rw [← hrow]
      exact System.setNamespace_self s slug.val
    simp [hempty, tenantSettings, hrow, hsame]
  · obtain ⟨hcheck, hnull⟩ := (check_merge hstored p s.now).mpr hp
    simp [hempty, Namespace.patchSettings_of_check hrow hcheck, hnull, withSettings]

/-- One that does not. -/
theorem run_updateSettings_refused (hrow : (s.namespaces slug.val).settings = some row)
    (hstored : row.check = .ok ()) (hp : ¬ Asserted p) :
    ∃ e, (updateSettings slug p).run s = (.error e, s) := by
  have hfields : p.isEmpty = false :=
    Bool.not_eq_true _ ▸ fun hempty => hp (asserted_of_isEmpty hempty)
  cases hcheck : Settings.check { Namespace.mergeSettings p row with updatedAt := s.now } with
  | ok u =>
      have hnull : ¬ p.NullTaken := fun hnull =>
        hp ((check_merge hstored p s.now).mp ⟨hcheck, hnull⟩)
      have hpatch := Namespace.patchSettings_of_check hrow hcheck
      rw [if_neg hnull] at hpatch
      exact ⟨_, by simp [updateSettings, hfields, hpatch]; rfl⟩
  | error f =>
      exact ⟨_, by simp [updateSettings, hfields, Namespace.patchSettings, hrow, hcheck]; rfl⟩

/-- One patch after another, the second at a time of its own. -/
def inTurn (slug : TenantSlug) (p q : UpdateSettings) (later : DateTime) (s : System) :
    Except LedgerError TenantSettings × System :=
  (updateSettings slug q).run (((updateSettings slug p).run s).2.setNow later)

theorem run_inTurn (hrow : (s.namespaces slug.val).settings = some row)
    (hstored : row.check = .ok ()) {q : UpdateSettings} (hp : Asserted p) (hq : Asserted q)
    (later : DateTime) :
    inTurn slug p q later s = (.ok (patched q later (patched p s.now row)).toTenantSettings,
      withSettings slug ((withSettings slug s (patched p s.now row)).setNow later)
        (patched q later (patched p s.now row))) := by
  have hfirst := run_updateSettings hrow hstored hp
  have hsecond := run_updateSettings
    (s := (withSettings slug s (patched p s.now row)).setNow later)
    (settings_withSettings slug s _) (check_patched hstored hp s.now) hq
  rw [inTurn, hfirst]
  exact hsecond

/-! ## The laws -/

/-- The call set exactly the fields of the patch, and the time stamp. -/
structure Sets (slug : TenantSlug) (p : UpdateSettings) (row : Settings) (s : System)
    (after : Settings) : Prop where
  run : (updateSettings slug p).run s =
    (.ok after.toTenantSettings, withSettings slug s after)
  present : ∀ f v, fields p f = some v → record after.toTenantSettings f = v
  absent : ∀ f, fields p f = none →
    record after.toTenantSettings f = record row.toTenantSettings f
  createdAt : after.createdAt = row.createdAt
  updatedAt : after.updatedAt = s.now

/-- The same answer, and the same stored settings up to `updated_at`. -/
structure Alike (slug : TenantSlug) (a b : Except LedgerError TenantSettings × System) :
    Prop where
  answer : a.1 = b.1
  settings : ∃ x y, (a.2.namespaces slug.val).settings = some x ∧
    (b.2.namespaces slug.val).settings = some y ∧ x.toTenantSettings = y.toTenantSettings ∧
    x.createdAt = y.createdAt

omit [Platform] in
theorem alike_of_record {t u : System} {x y : Settings}
    (h : record x.toTenantSettings = record y.toTenantSettings)
    (hcreated : x.createdAt = y.createdAt) :
    Alike slug (.ok x.toTenantSettings, withSettings slug t x)
      (.ok y.toTenantSettings, withSettings slug u y) where
  answer := congrArg Except.ok (record_inj h)
  settings := ⟨x, y, settings_withSettings slug t x, settings_withSettings slug u y,
    record_inj h, hcreated⟩

/-- For stored settings, all patches and all times of the calls. -/
theorem patch_laws (slug : TenantSlug) (s : System) (row : Settings)
    (hrow : (s.namespaces slug.val).settings = some row) (hstored : row.check = .ok ()) :
    (∀ p, Asserted p → p.isEmpty = false → ∃ after, Sets slug p row s after) ∧
    (∀ p, p.isEmpty = true → (updateSettings slug p).run s = (.ok row.toTenantSettings, s)) ∧
    (∀ p q later once, Asserted p → Asserted q → Alike slug (inTurn slug p q later s)
      ((updateSettings slug (override p q)).run (s.setNow once))) ∧
    (∀ p q later later', Asserted p → Asserted q → (fields p).Disjoint (fields q) →
      Alike slug (inTurn slug p q later s) (inTurn slug q p later' s)) ∧
    ∀ p, ¬ Asserted p → ∃ e, (updateSettings slug p).run s = (.error e, s) := by
  refine ⟨fun p hp hfields => ?_, fun p hempty => ?_, fun p q later once hp hq => ?_,
    fun p q later later' hp hq hdisjoint => ?_,
    fun p hp => run_updateSettings_refused hrow hstored hp⟩
  · have hrecord := record_patched p s.now row
    refine ⟨patched p s.now row, run_updateSettings hrow hstored hp, fun f v hf => ?_,
      fun f hf => ?_, createdAt_patched p s.now row, ?_⟩
    · rw [hrecord, Patch.apply_of_some hf]
    · rw [hrecord, Patch.apply_of_none hf]
    · rw [patched, hfields]
      rfl
  · simp [updateSettings, hempty, tenantSettings, hrow]
  · have honce := run_updateSettings (s := s.setNow once) hrow hstored (asserted_override hp hq)
    rw [run_inTurn hrow hstored hp hq, honce]
    refine alike_of_record ?_ ?_
    · rw [record_patched, record_patched, record_patched, fields_override, Patch.apply_apply]
    · rw [createdAt_patched, createdAt_patched, createdAt_patched]
  · rw [run_inTurn hrow hstored hp hq, run_inTurn hrow hstored hq hp]
    refine alike_of_record ?_ ?_
    · rw [record_patched, record_patched, record_patched, record_patched,
        Patch.apply_comm hdisjoint]
    · rw [createdAt_patched, createdAt_patched, createdAt_patched, createdAt_patched]

end Runs

/-! ## A patch of Ann's -/

section Sample

/-- The sample platform with a database that takes a JSON null as clearing a field. -/
@[reducible] def Platform.clearing : Platform := { Platform.sample with nullClears := true }

attribute [local instance] Platform.clearing

/-- A venture with settings and nothing else. -/
def annSettings : System :=
  (System.empty juneNoon).setNamespace "pool" { Namespace.empty with
    settings := some (sampleSettings 10000) }

/-- A patch of the dues, and one that sets a purpose or clears it. -/
def duesPatch : UpdateSettings := ⟨none, none, none, none, some 2500, none⟩

def purposePatch (text : String) : UpdateSettings := ⟨none, none, none, none, none, some text⟩

theorem patch_laws_ann :
    Alike poolSlug
      (inTurn poolSlug duesPatch (purposePatch " Rent ") (juneNoon + oneDay) annSettings)
      (inTurn poolSlug (purposePatch " Rent ") duesPatch juneNoon annSettings) ∧
    (∃ after, Sets poolSlug (purposePatch " ") (sampleSettings 10000) annSettings after) ∧
    (updateSettings poolSlug ⟨none, none, none, none, none, none⟩).run annSettings =
      (.ok (sampleSettings 10000).toTenantSettings, annSettings) := by
  have hlaws := patch_laws poolSlug annSettings (sampleSettings 10000) rfl (by decide)
  have hdues : Asserted duesPatch := ⟨by simp [duesPatch], by simp [duesPatch]; decide,
    by simp [duesPatch], by decide⟩
  have hpurpose : ∀ text, (Text.trim text).length ≤ 600 → Asserted (purposePatch text) :=
    fun text htext => ⟨by simp [purposePatch], by simp [purposePatch],
      by simpa [purposePatch] using htext, fun _ => rfl⟩
  refine ⟨hlaws.2.2.2.1 _ _ _ _ hdues (hpurpose " Rent " (by decide +kernel)) fun f => ?_,
    hlaws.1 _ (hpurpose " " (by decide +kernel)) rfl, hlaws.2.1 _ rfl⟩
  cases f with
  | displayName | timezone | currency | cadence | purpose => exact .inl rfl
  | duesAmountCents => exact .inr rfl

end Sample

end SettingsPatch

end SharamLedger
