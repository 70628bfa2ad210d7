import SharamLedger.Sample
import SharamLedger.Venture

/-!
# Periods that have closed

What a tenant considers the current period follows its settings. The database holds payments
back by UTC alone, so a period stays closed as long as the later of the tenant's local date and
the UTC date never returns to an earlier period of a cadence that the tenant had before and will
have again.
-/

namespace SharamLedger

open Lib

/-- The text stands for a period of `q`'s cadence that comes before `q`. -/
def OlderText (text : String) (q : Period) : Prop :=
  ∃ p : Period, p.Printable ∧ p.cadence = q.cadence ∧ p.render = text ∧ p.ord < q.ord

/-- The second day falls in no earlier period of the cadence than the first. -/
def ReachesIn (c : Cadence) (day day' : Int) : Prop :=
  (Period.ofDay c day).ord ≤ (Period.ofDay c day').ord

/-- The second day falls in no earlier week, month or year than the first. -/
def Reaches (day day' : Int) : Prop := ∀ c, ReachesIn c day day'

namespace ClosedPeriods

section Runs

variable [Platform]

/-- The later of the UTC date and the date in a zone; the UTC date when no zone has the name. -/
def frontierIn (timezone : String) (now : DateTime) : Int :=
  match parseTz timezone with
  | .ok tz => max (localDay tz now) (utcDay now)
  | .error _ => utcDay now

/-- The frontier of a tenant, by its stored zone. -/
def frontier (slug : String) (s : System) : Int :=
  match (s.namespaces slug).settings with
  | some settings => frontierIn settings.timezone s.now
  | none => utcDay s.now

/-- What the tenant considers the current period. -/
def Current (slug : String) (s : System) (q : Period) : Prop :=
  ∃ settings tz c, (s.namespaces slug).settings = some settings ∧
    parseTz settings.timezone = .ok tz ∧ settings.cadence = c.asStr ∧
    q = Period.currentIn tz c s.now

/-- After a period was current, no action adds a row of its cadence for an older one. -/
def NeverReopens (slug : String) (actions : List VentureAction) (s : System) : Prop :=
  ∀ earlier middle a later, actions = earlier ++ (middle ++ a :: later) →
    ∀ q, Current slug (Trace.exec Venture.step earlier s) q →
      ∀ r ∈ ((Trace.exec Venture.step (earlier ++ (middle ++ [a])) s).namespaces
          slug).contribution.rows,
        r ∉ ((Trace.exec Venture.step (earlier ++ middle) s).namespaces slug).contribution.rows →
          r.row.cadence = q.cadence.asStr → ¬ OlderText r.row.period q

/-- Time and changes of the zone take neither the tenant's local date nor the UTC date out of the
period of a cadence that one of them had reached. -/
def KeepsDate (slug : String) (c : Cadence) (a : VentureAction) (s : System) : Prop :=
  match a with
  | .tick elapsed => ∀ settings, (s.namespaces slug).settings = some settings →
      ReachesIn c (frontierIn settings.timezone s.now)
        (frontierIn settings.timezone (s.now + elapsed))
  | .patchSettings path headers payload => path = slug →
      ∀ p identity settings timezone, payload = .ok p → p.check = .ok () →
        authResult headers s.now = .ok identity →
        s.control.roleFor identity.email slug = some "owner" →
        (s.namespaces slug).settings = some settings → p.timezone = some timezone →
          ReachesIn c (frontierIn settings.timezone s.now) (frontierIn timezone s.now)
  | .postContribution .. => True

/-- The tenant's settings have the cadence. -/
def HasCadence (slug : String) (c : Cadence) (s : System) : Prop :=
  ∃ settings, (s.namespaces slug).settings = some settings ∧ settings.cadence = c.asStr

/-- Between two moments at which the tenant has a cadence, the date is kept for that cadence. -/
def KeepsDates (slug : String) (actions : List VentureAction) (s : System) : Prop :=
  ∀ earlier middle later, actions = earlier ++ (middle ++ later) → ∀ c,
    HasCadence slug c (Trace.exec Venture.step earlier s) →
      HasCadence slug c (Trace.exec Venture.step (earlier ++ middle) s) →
        Trace.Each Venture.step (KeepsDate slug c) middle (Trace.exec Venture.step earlier s)

/-- Payments come before the year 10000. -/
def PaysInTime (a : VentureAction) (s : System) : Prop :=
  match a with
  | .postContribution .. => utcDay s.now < Calendar.yearStart 10000
  | _ => True

/-- The first state's period of a cadence is no later than the second state's. -/
def Advances (slug : String) (c : Cadence) (s s' : System) : Prop :=
  ReachesIn c (frontier slug s) (frontier slug s')

instance (slug : String) (c : Cadence) : Std.Refl (Advances slug c) := ⟨fun _ => le_refl _⟩

instance (slug : String) (c : Cadence) : IsTrans System (Advances slug c) :=
  ⟨fun _ _ _ h h' => le_trans h h'⟩

/-! ## One action -/

theorem advances_step {slug : String} {c : Cadence} {a : VentureAction} {s : System}
    (h : KeepsDate slug c a s) : Advances slug c s (Venture.step a s) := by
  unfold Advances
  generalize hstep : Venture.step a s = s'
  have hmeets : Venture.Meets s s' slug a := hstep ▸ Venture.meets_step a s slug
  cases hmeets with
  | other hsame hnow =>
      have hfrontier : frontier slug s' = frontier slug s := by simp only [frontier, hsame, hnow]
      rw [hfrontier]
      exact le_refl _
  | tick elapsed hclock =>
      rw [hclock]
      cases hstored : (s.namespaces slug).settings with
      | none =>
          -- without settings the frontier is the UTC date, which only advances
          have hafter : frontier slug (s.setNow (s.now + elapsed)) = utcDay (s.now + elapsed) := by
            simp only [frontier, System.setNow, hstored]
          have hbefore : frontier slug s = utcDay s.now := by simp only [frontier, hstored]
          rw [hbefore, hafter]
          exact Period.ord_mono c (utcDay_mono (Nat.le_add_right _ _))
      | some settings =>
          have hafter : frontier slug (s.setNow (s.now + elapsed)) =
              frontierIn settings.timezone (s.now + elapsed) := by
            simp only [frontier, System.setNow, hstored]
          have hbefore : frontier slug s = frontierIn settings.timezone s.now := by
            simp only [frontier, hstored]
          rw [hbefore, hafter]
          exact h settings hstored
  | @patched headers p old hp =>
      obtain ⟨identity, hauth, howner⟩ := hp.owner
      have hbefore : frontier slug s = frontierIn old.timezone s.now := by
        simp only [frontier, hp.stored]
      have hafter : frontier slug s' = frontierIn (p.timezone.getD old.timezone) s.now := by
        simp only [frontier, hp.patched, hp.now]
        rfl
      rw [hbefore, hafter]
      cases htz : p.timezone with
      | none => exact le_refl _
      | some timezone =>
          exact h rfl p identity old timezone rfl hp.checked hauth howner hp.stored htz
  | recorded hr =>
      have hfrontier : frontier slug s' = frontier slug s := by
        simp only [frontier, hr.kept, hr.stored, hr.now]
      rw [hfrontier]
      exact le_refl _

/-- Whatever an action adds is for the period of the tenant's cadence that the frontier lies in. -/
theorem added_at_frontier {slug : String} {a : VentureAction} {s : System}
    (h : PaysInTime a s) {r : ContributionRecord}
    (hr : r ∈ ((Venture.step a s).namespaces slug).contribution.rows)
    (hnew : r ∉ (s.namespaces slug).contribution.rows) :
    ∃ (c : Cadence) (p : Period), HasCadence slug c s ∧ p.Printable ∧ r.row.cadence = c.asStr ∧
      r.row.period = p.render ∧ p.ord = (Period.ofDay c (frontier slug s)).ord := by
  rcases Venture.contribution_step a s slug with hsame |
    ⟨headers, payload, settings, tz, c, new, rfl, hadded⟩
  · rw [hsame] at hr
    exact absurd hr hnew
  · have hutc := utcDay_ge s.now
    obtain rfl : r = new := by
      rw [hadded.rows] at hr
      exact List.mem_singleton.mp ((List.mem_append.mp hr).resolve_left hnew)
    have hprint := Period.printable_of_year c (localDay_ge tz s.now) hadded.year
    have hutcprint := Period.printable_ofDay c ⟨by omega, h⟩
    refine ⟨c, Period.currentIn tz c s.now, ⟨settings, hadded.stored, hadded.settingsCadence⟩,
      hprint, hadded.cadence, hadded.period, ?_⟩
    -- the lock lets only periods pass that UTC has not left, so the local date is the frontier
    have hopen : ¬ (Period.currentIn tz c s.now).render < currentPeriodFor s.now c.asStr := by
      rw [← hadded.period, ← hadded.cadence]
      exact hadded.notPast
    have hord := Period.utc_le_currentIn (le_refl _) hutcprint.2.1 hopen
    have hfrontier : frontier slug s = max (localDay tz s.now) (utcDay s.now) := by
      simp only [frontier, hadded.stored, frontierIn, hadded.timezone]
    rw [hfrontier]
    rcases le_total (utcDay s.now) (localDay tz s.now) with hle | hle
    · rw [max_eq_left hle]
      rfl
    · rw [max_eq_right hle]
      exact le_antisymm (Period.ord_mono c hle) hord

/-- The current period is one of the tenant's cadence. -/
theorem Current.hasCadence {slug : String} {s : System} {q : Period} (h : Current slug s q) :
    HasCadence slug q.cadence s := by
  obtain ⟨settings, tz, c, hstored, -, hcadence, rfl⟩ := h
  have hsame : (Period.currentIn tz c s.now).cadence = c := by simp [Period.currentIn]
  exact ⟨settings, hstored, hsame.symm ▸ hcadence⟩

/-- The current period lies no later than the frontier. -/
theorem current_le_frontier {slug : String} {s : System} {q : Period} (h : Current slug s q) :
    q.ord ≤ (Period.ofDay q.cadence (frontier slug s)).ord := by
  obtain ⟨settings, tz, c, hstored, htz, -, rfl⟩ := h
  have hfrontier : frontier slug s = max (localDay tz s.now) (utcDay s.now) := by
    simp only [frontier, hstored, frontierIn, htz]
  have hcadence : (Period.currentIn tz c s.now).cadence = c := by simp [Period.currentIn]
  rw [hcadence, hfrontier]
  exact Period.ord_mono c (le_max_left _ _)

/-! ## Runs -/

/-- A tenant that has one cadence all through the run keeps the date for that cadence only. -/
theorem keepsDates_of_cadence {slug : String} {c : Cadence} {actions : List VentureAction}
    {s : System}
    (hcadence : Trace.Each Venture.step (fun _ x => ∀ c', HasCadence slug c' x → c' = c) actions s)
    (hdate : Trace.Each Venture.step (KeepsDate slug c) actions s) :
    KeepsDates slug actions s := by
  rintro earlier middle later rfl c' hc' -
  have hmiddle := (Trace.each_append.mp (Trace.each_append.mp hdate).2).1
  cases middle with
  | nil => trivial
  | cons a rest =>
      obtain rfl := (Trace.each_append.mp (Trace.each_append.mp hcadence).2).1.1 c' hc'
      exact hmiddle

/-- In every run that keeps the dates, no period reopens. -/
theorem closed_periods_stay {slug : String} {actions : List VentureAction} {s : System}
    (hdates : KeepsDates slug actions s) (hpays : Trace.Each Venture.step PaysInTime actions s) :
    NeverReopens slug actions s := by
  rintro earlier middle a later rfl q hq r hr hnew hcadence
  rintro ⟨p, -, -, hprender, hpq⟩
  have ha := (Trace.each_append.mp (Trace.each_append.mp hpays).2).2.1
  rw [← Trace.exec_append] at ha
  rw [← List.append_assoc, Trace.exec_append] at hr
  obtain ⟨c, p', hnow, hp', hrc, hrp, hord⟩ := added_at_frontier ha hr hnew
  -- the row and the earlier period have the same cadence, so their places compare
  obtain rfl : c = q.cadence := Cadence.asStr_inj (hrc.symm.trans hcadence)
  obtain rfl : p = p' := Period.eq_of_render_eq hp'.1 (hprender.trans hrp)
  have hadvances : Advances slug q.cadence (Trace.exec Venture.step earlier s)
      (Trace.exec Venture.step (earlier ++ middle) s) := by
    have hmiddle := hdates earlier middle (a :: later) rfl q.cadence hq.hasCadence hnow
    rw [Trace.exec_append]
    exact hmiddle.relates (R := Advances slug q.cadence) fun _ _ => advances_step
  have hq' : q.ord ≤ _ := (current_le_frontier hq).trans hadvances
  omega

end Runs

/-! ## One venture on the other side of midnight -/

section Sample

attribute [local instance] Platform.sample

/-- Noon of 30 June in UTC, 1 July in Kiritimati. -/
def juneEnd : DateTime := juneNoon + 15 * oneDay

/-- Noon of Sunday 14 June in UTC, Monday in Kiritimati. -/
def sundayNoon : DateTime := juneNoon - oneDay

/-- A request of the owner to move the venture to another zone. -/
def moveTo (timezone : String) (now : DateTime) : VentureAction :=
  .patchSettings "pool" (bearer "ann@pool.org" now) (.ok { timezone := some timezone })

/-- Ann pays 100. -/
def annPays (now : DateTime) : VentureAction :=
  .postContribution "pool" (bearer "ann@pool.org" now) (.ok { amountCents := 10000 })

/-- The settings of a venture that opened just now. -/
def settingsIn (timezone : String) (now : DateTime) : Settings :=
  { sampleSettings 10000 with
    timezone
    createdAt := now
    updatedAt := now }

/-- A venture with monthly dues moves from Kiritimati, where the week is over, to UTC, where it is
not, and Ann pays: the month is the same. -/
theorem closed_periods_stay_sunday :
    NeverReopens "pool" [moveTo "UTC" sundayNoon, annPays sundayNoon]
      (openVenture "Pacific/Kiritimati" 10000 sundayNoon) := by
  have hopened : ((openVenture "Pacific/Kiritimati" 10000 sundayNoon).namespaces "pool").settings =
      some (settingsIn "Pacific/Kiritimati" sundayNoon) := by decide
  have hmoved : ((Venture.step (moveTo "UTC" sundayNoon)
      (openVenture "Pacific/Kiritimati" 10000 sundayNoon)).namespaces "pool").settings =
        some (settingsIn "UTC" sundayNoon) := by decide
  have hmonthly : ∀ {s : System} {timezone : String} {c : Cadence},
      (s.namespaces "pool").settings = some (settingsIn timezone sundayNoon) →
        HasCadence "pool" c s → c = .monthly := by
    rintro s timezone c hstored ⟨settings, hsettings, hcadence⟩
    obtain rfl := Option.some.inj (hstored.symm.trans hsettings)
    exact Cadence.asStr_inj (hcadence.symm.trans (by rfl))
  refine closed_periods_stay (keepsDates_of_cadence (c := .monthly)
    ⟨fun _ => hmonthly hopened, fun _ => hmonthly hmoved, trivial⟩ ⟨?_, trivial, trivial⟩)
    ⟨trivial, by unfold PaysInTime annPays; decide, trivial⟩
  rintro - p identity settings timezone hp - - - hsettings htimezone
  obtain rfl := Option.some.inj (hopened.symm.trans hsettings)
  cases hp
  cases htimezone
  unfold ReachesIn
  decide

/-- The venture moves from Kiritimati to UTC after July has begun there: June is open again. -/
theorem june_reopens :
    ¬ NeverReopens "pool" [moveTo "UTC" juneEnd, annPays juneEnd]
      (openVenture "Pacific/Kiritimati" 10000 juneEnd) := by
  intro h
  refine h [] [moveTo "UTC" juneEnd] (annPays juneEnd) [] rfl (.monthly 2026 7)
    ⟨settingsIn "Pacific/Kiritimati" juneEnd, fixedZone 14 (by decide), .monthly, by decide, by rfl,
      by decide, by decide⟩
    ⟨0, paymentRow "ann@pool.org" "monthly" "2026-06" 10000 juneEnd⟩ (by decide) (by decide)
    (by decide) ⟨.monthly 2026 6, ⟨by decide, by decide, by decide⟩, by decide, by decide,
      by decide⟩

end Sample

end ClosedPeriods

end SharamLedger
