import SharamLedger.ClosedPeriods
import SharamLedger.Gateway.Rollups
import SharamLedger.PeriodText
import Mathlib.Data.Set.List

/-!
# The list of active periods

The ledger lists the periods that have a payment newest first, and the gateway puts the current
period in front of them when it has none. That is its place as long as no payment is for a later
period. A clock that goes on and payments for what is current seem to see to this, but the zone and
the cadence may change, and then the current period can be one that the payments have left behind.
-/

namespace SharamLedger

open Lib

namespace ActivePeriods

/-- The texts are those of some periods, and those of any one cadence stand newest first. -/
def NewestFirst (periods : List String) : Prop :=
  ∃ ps : List Period, periods = ps.map Period.render ∧
    ∀ c, (ps.filter fun p => p.cadence == c).Pairwise fun a b => b.Before a

/-- What members may rely on in the list. -/
structure Listing (ns : Namespace) (response : PeriodsResponse) : Prop where
  nodup : response.periods.Nodup
  current : response.currentPeriod ∈ response.periods
  paid : ∀ r ∈ ns.contribution.rows, r.row.period ∈ response.periods
  newest : NewestFirst response.periods

/-- The period has no payment, and a later one of its cadence has. -/
def Overtaken (ns : Namespace) (q : Period) : Prop :=
  (∀ r ∈ ns.contribution.rows, r.row.period ≠ q.render) ∧
    ∃ r ∈ ns.contribution.rows, ∃ p : Period, p.cadence = q.cadence ∧ p.render = r.row.period ∧
      q.Before p

section Runs

variable [Platform]

/-- By these settings and this clock, no payment is for a later period than the current one, unless
the current one has a payment as well. -/
def InOrder (ns : Namespace) (settings : Settings) (now : DateTime) : Prop :=
  ∀ tz c, parseTz settings.timezone = .ok tz → settings.cadence = c.asStr →
    ¬ Overtaken ns (Period.currentIn tz c now)

/-- Whenever `active_periods` answers, it answers with such a list. -/
def ListsPeriods (slug : String) (s : System) : Prop :=
  ∀ headers response, ((activePeriods slug headers).run s).1 = .ok response →
    Listing (s.namespaces slug) response

/-- Neither the clock nor an accepted change of the settings takes the current period back behind a
payment. -/
def KeepsNewest (slug : String) (a : VentureAction) (s : System) : Prop :=
  match a with
  | .tick elapsed => ∀ settings, (s.namespaces slug).settings = some settings →
      InOrder (s.namespaces slug) settings (s.now + elapsed)
  | .patchSettings path headers payload => path = slug →
      ∀ p identity settings, payload = .ok p → p.check = .ok () →
        authResult headers s.now = .ok identity →
        s.control.roleFor identity.email slug = some "owner" →
        (s.namespaces slug).settings = some settings →
        Settings.check { Namespace.mergeSettings p.toPatch settings with updatedAt := s.now } =
          .ok () →
          InOrder (s.namespaces slug) (Namespace.mergeSettings p.toPatch settings) s.now
  | .postContribution .. => True

end Runs

/-- Every payment is for a period that prints with a four-digit year. -/
def Periodic (ns : Namespace) : Prop :=
  ∀ r ∈ ns.contribution.rows, ∃ p : Period, p.Printable ∧ p.render = r.row.period

/-! ## The order of the list -/

/-- The ledger's list is in descending order. -/
theorem descending_periods (ns : Namespace) : ns.periods.Pairwise fun a b => b < a := by
  have : Std.Total fun a b : String => a ≤ b := ⟨String.le_total⟩
  have : IsTrans String fun a b => a ≤ b := ⟨fun _ _ _ => String.le_trans⟩
  have hle : ns.periods.Pairwise fun a b => b ≤ a := by
    rw [Namespace.periods, List.pairwise_reverse]
    exact List.pairwise_insertionSort (fun a b : String => a ≤ b) _
  refine (hle.and ns.nodup_periods).imp fun {a b} h => ?_
  by_contra hlt
  exact h.2 (String.le_antisymm (String.not_lt.mp hlt) h.1)

/-- It is the list of printable periods, and these are newest first within their cadence. -/
theorem periods_eq {ns : Namespace} (h : Periodic ns) :
    ∃ ps : List Period, ns.periods = ps.map Period.render ∧ (∀ p ∈ ps, p.Printable) ∧
      ps.Pairwise fun a b => a.cadence = b.cadence → b.Before a := by
  have hprint : ∀ text ∈ ns.periods, ∃ p : Period, p.Printable ∧ p.render = text := by
    intro text htext
    obtain ⟨r, hr, rfl⟩ := Namespace.mem_periods.mp htext
    exact h r hr
  obtain ⟨ps, hps⟩ : ns.periods ∈ Set.range (List.map Period.render) := by
    rw [Set.range_list_map]
    intro text htext
    obtain ⟨p, -, hp⟩ := hprint text htext
    exact ⟨p, hp⟩
  have hall : ∀ p ∈ ps, p.Printable := by
    intro p hp
    obtain ⟨p', hp', hsame⟩ := hprint p.render (hps ▸ List.mem_map_of_mem hp)
    exact Period.eq_of_render_eq hp'.1 hsame.symm ▸ hp'
  refine ⟨ps, hps.symm, hall, ?_⟩
  have hdesc : ps.Pairwise fun a b => b.render < a.render :=
    List.pairwise_map.mp (hps ▸ descending_periods ns)
  refine hdesc.imp_of_mem fun {a b} ha hb hlt hc => ?_
  have hord := (Period.render_lt_iff hc.symm (hall b hb) (hall a ha)).mp hlt
  exact (Period.ord_lt_iff_before (hall b hb).2.2 (hall a ha).2.2).mp hord

/-- Texts of periods without a sign name these periods. -/
theorem eq_of_map_render_eq {ps qs : List Period} (hps : ∀ p ∈ ps, 0 ≤ p.year)
    (h : qs.map Period.render = ps.map Period.render) : qs = ps := by
  induction ps generalizing qs with
  | nil => exact List.map_eq_nil_iff.mp h
  | cons p ps ih =>
      cases qs with
      | nil => cases h
      | cons q qs =>
          obtain ⟨hfirst, hrest⟩ := List.cons.inj h
          rw [Period.eq_of_render_eq (hps p List.mem_cons_self) hfirst,
            ih (fun x hx => hps x (List.mem_cons_of_mem p hx)) hrest]

theorem newestFirst_iff {ps : List Period} (hps : ∀ p ∈ ps, 0 ≤ p.year) :
    NewestFirst (ps.map Period.render) ↔
      ps.Pairwise fun a b => a.cadence = b.cadence → b.Before a := by
  rw [← pairwise_groups]
  constructor
  · intro ⟨qs, hqs, hnewest⟩
    exact eq_of_map_render_eq hps hqs.symm ▸ hnewest
  · exact fun h => ⟨ps, rfl, h⟩

/-- In front of the periods with a payment, a period without one is in its place unless one of
them is later. -/
theorem newestFirst_cons {ns : Namespace} (h : Periodic ns) {q : Period} (hq : 0 ≤ q.year)
    (hnone : ∀ r ∈ ns.contribution.rows, r.row.period ≠ q.render) :
    NewestFirst (q.render :: ns.periods) ↔ ¬ Overtaken ns q := by
  obtain ⟨ps, hps, hprint, hsorted⟩ := periods_eq h
  have hall : ∀ p ∈ q :: ps, 0 ≤ p.year :=
    List.forall_mem_cons.mpr ⟨hq, fun p hp => (hprint p hp).1⟩
  have hpaid : ∀ p ∈ ps, ∃ r ∈ ns.contribution.rows, r.row.period = p.render := fun p hp =>
    Namespace.mem_periods.mp (hps ▸ List.mem_map_of_mem hp)
  rw [hps, ← List.map_cons, newestFirst_iff hall, List.pairwise_cons, and_iff_left hsorted]
  constructor
  · rintro hfront ⟨-, r, hr, p, hc, hrender, hbefore⟩
    obtain ⟨p', hp', hsame⟩ := List.mem_map.mp (hps ▸ Namespace.mem_periods.mpr ⟨r, hr, rfl⟩)
    obtain rfl := Period.eq_of_render_eq (hprint p' hp').1 (hrender.trans hsame.symm)
    exact hbefore.asymm (hfront p hp' hc.symm)
  · intro hopen p hp hc
    obtain ⟨r, hr, hrender⟩ := hpaid p hp
    rcases Period.before_trichotomy hc with hbefore | rfl | hbefore
    · exact absurd ⟨hnone, r, hr, p, hc.symm, hrender.symm, hbefore⟩ hopen
    · exact absurd hrender (hnone r hr)
    · exact hbefore

/-- The list is as it should be unless the current period is overtaken. -/
theorem listing_iff {ns : Namespace} (h : Periodic ns) {q : Period} (hq : 0 ≤ q.year)
    {response : PeriodsResponse} (hcurrent : response.currentPeriod = q.render)
    (hperiods : response.periods = if ns.periods.contains response.currentPeriod
      then ns.periods else response.currentPeriod :: ns.periods) :
    Listing ns response ↔ ¬ Overtaken ns q := by
  rw [hcurrent] at hperiods
  have hmem : ns.periods.contains q.render = true ↔
      ∃ r ∈ ns.contribution.rows, r.row.period = q.render := by
    rw [List.contains_iff_mem, Namespace.mem_periods]
  have hpaid : ∀ r ∈ ns.contribution.rows, r.row.period ∈ ns.periods := fun r hr =>
    Namespace.mem_periods.mpr ⟨r, hr, rfl⟩
  by_cases hfound : ∃ r ∈ ns.contribution.rows, r.row.period = q.render
  · rw [if_pos (hmem.mpr hfound)] at hperiods
    obtain ⟨r, hr, hrow⟩ := hfound
    refine iff_of_true ⟨?_, ?_, ?_, ?_⟩ fun hover => hover.1 r hr hrow
    · exact hperiods ▸ ns.nodup_periods
    · rw [hperiods, hcurrent, ← hrow]
      exact hpaid r hr
    · exact hperiods ▸ hpaid
    · obtain ⟨ps, hps, hprint, hsorted⟩ := periods_eq h
      rw [hperiods, hps, newestFirst_iff fun p hp => (hprint p hp).1]
      exact hsorted
  · rw [if_neg fun hcontains => hfound (hmem.mp hcontains)] at hperiods
    have hnone : ∀ r ∈ ns.contribution.rows, r.row.period ≠ q.render := fun r hr hrow =>
      hfound ⟨r, hr, hrow⟩
    rw [← newestFirst_cons h hq hnone, ← hperiods]
    refine ⟨Listing.newest, fun hnewest => ⟨?_, ?_, fun r hr => ?_, hnewest⟩⟩
    · rw [hperiods, List.nodup_cons, Namespace.mem_periods]
      exact ⟨hfound, ns.nodup_periods⟩
    · rw [hperiods, hcurrent]
      exact List.mem_cons_self
    · rw [hperiods]
      exact List.mem_cons_of_mem _ (hpaid r hr)

/-! ## One action -/

section Runs

variable [Platform]

/-- The state of a tenant that the list depends on: its payments, the settings and the clock. -/
def Sound (slug : String) (s : System) : Prop :=
  Periodic (s.namespaces slug) ∧ ∀ settings, (s.namespaces slug).settings = some settings →
    InOrder (s.namespaces slug) settings s.now

theorem listing_of_response {slug : String} {s : System} (h : Periodic (s.namespaces slug))
    {headers : Headers} {response : PeriodsResponse}
    (hresponse : ((activePeriods slug headers).run s).1 = .ok response) :
    Listing (s.namespaces slug) response ↔
      ∀ settings, (s.namespaces slug).settings = some settings →
        InOrder (s.namespaces slug) settings s.now := by
  obtain ⟨-, found, hfound, hreport⟩ := (activePeriods_spec slug headers s).of_ok hresponse
  obtain rfl := Except.ok.inj hfound
  obtain ⟨settings, hstored, hcurrent, hperiods⟩ := hreport
  obtain ⟨tz, c, htz, hc, hrender⟩ := Venture.currentPeriodOf_ok hcurrent
  rw [listing_iff h (Period.year_nonneg c (localDay_ge tz s.now)) hrender hperiods]
  constructor
  · intro hopen settings' hstored' tz' c' htz' hc'
    obtain rfl := Option.some.inj (hstored.symm.trans hstored')
    obtain rfl := Except.ok.inj (htz.symm.trans htz')
    obtain rfl := Cadence.asStr_inj (hc.symm.trans hc')
    exact hopen
  · intro horder
    exact horder settings hstored tz c htz hc

theorem periodic_step {slug : String} (a : VentureAction) {s : System}
    (h : Periodic (s.namespaces slug)) : Periodic ((Venture.step a s).namespaces slug) := by
  rcases Venture.contribution_step a s slug with hsame |
    ⟨headers, payload, settings, tz, c, new, -, hadded⟩
  · unfold Periodic
    rw [hsame]
    exact h
  · intro r hr
    rw [hadded.rows] at hr
    rcases List.mem_append.mp hr with hold | hnew
    · exact h r hold
    · obtain rfl := List.mem_singleton.mp hnew
      exact ⟨_, Period.printable_of_year c (localDay_ge tz s.now) hadded.year,
        hadded.period.symm⟩

/-- No action that keeps the newest payments current brings the list out of order. -/
theorem sound_step {slug : String} {a : VentureAction} {s : System} (h : Sound slug s)
    (ha : KeepsNewest slug a s) : Sound slug (Venture.step a s) := by
  refine ⟨periodic_step a h.1, ?_⟩
  generalize hstep : Venture.step a s = s'
  have hmeets : Venture.Meets s s' slug a := hstep ▸ Venture.meets_step a s slug
  cases hmeets with
  | other hsame hnow =>
      rw [hsame, hnow]
      exact h.2
  | tick elapsed hclock =>
      rw [hclock]
      exact ha
  | @patched headers p old hp =>
      obtain ⟨identity, hauth, howner⟩ := hp.owner
      have horder := ha rfl p identity old rfl hp.checked hauth howner hp.stored hp.asserted
      intro settings hsettings tz c htz hc hover
      obtain rfl := Option.some.inj (hp.patched.symm.trans hsettings)
      unfold Overtaken at hover
      rw [hp.kept, hp.now] at hover
      exact horder tz c htz hc hover
  | @recorded headers payload stored tz c r hr =>
      intro settings hsettings tz' c' htz hc hover
      obtain rfl := Option.some.inj (hr.kept.symm.trans hsettings)
      obtain rfl := Except.ok.inj (hr.timezone.symm.trans htz)
      obtain rfl := Cadence.asStr_inj (hr.settingsCadence.symm.trans hc)
      -- the payment is for the current period
      refine hover.1 r ?_ ?_
      · rw [hr.rows]
        exact List.mem_append_right _ (List.mem_singleton.mpr rfl)
      · rw [hr.period, hr.now]

/-! ## Runs -/

/-- A tenant without payments has nothing to put in order. -/
theorem sound_of_no_rows {slug : String} {s : System}
    (h : (s.namespaces slug).contribution.rows = []) : Sound slug s := by
  have hnone : ∀ r, r ∉ (s.namespaces slug).contribution.rows := by simp [h]
  constructor
  · intro r hr
    exact absurd hr (hnone r)
  · rintro settings - tz c - - ⟨-, r, hr, -⟩
    exact hnone r hr

/-- From a tenant's first day on, the list is as it should be in every run that keeps the newest
payments current, and in any state of any run exactly when no payment was left behind. -/
theorem lists_newest_first {slug : String} (actions : List VentureAction) {s : System}
    (hnew : (s.namespaces slug).contribution.rows = []) :
    (Trace.Each Venture.step (KeepsNewest slug) actions s →
      ∀ x, Trace.Visits Venture.step actions s x → ListsPeriods slug x) ∧
    ∀ x, Trace.Visits Venture.step actions s x → ∀ headers response,
      ((activePeriods slug headers).run x).1 = .ok response →
        (Listing (x.namespaces slug) response ↔
          ∀ settings, (x.namespaces slug).settings = some settings →
            InOrder (x.namespaces slug) settings x.now) := by
  have hstart := sound_of_no_rows hnew
  constructor
  · intro hrun x hx headers response hresponse
    have hsound : Sound slug x := hx.invariant (fun a s hs ha => sound_step hs ha) hstart hrun
    exact (listing_of_response hsound.1 hresponse).mpr hsound.2
  · rintro x ⟨earlier, later, -, rfl⟩ headers response hresponse
    have hperiodic := Trace.exec_invariant (I := fun s : System => Periodic (s.namespaces slug))
      (fun a s hs => periodic_step a hs) earlier hstart.1
    exact listing_of_response hperiodic hresponse

/-! ## While the local date advances -/

/-- The clock and changes of the zone take the tenant's local date back to no earlier week, month or
year, and the zones have names that are known. -/
def KeepsLocalDate (slug : String) (a : VentureAction) (s : System) : Prop :=
  match a with
  | .tick elapsed => ∀ settings tz, (s.namespaces slug).settings = some settings →
      parseTz settings.timezone = .ok tz →
        Reaches (localDay tz s.now) (localDay tz (s.now + elapsed))
  | .patchSettings path _ payload => path = slug →
      ∀ p settings tz, payload = .ok p → (s.namespaces slug).settings = some settings →
        parseTz settings.timezone = .ok tz →
          ∃ tz', parseTz (p.timezone.getD settings.timezone) = .ok tz' ∧
            Reaches (localDay tz s.now) (localDay tz' s.now)
  | .postContribution .. => True

/-- Every payment is for a period that the local date has reached. -/
def Arrived (slug : String) (s : System) : Prop :=
  ∀ r ∈ (s.namespaces slug).contribution.rows, ∃ (settings : Settings) (tz : Tz) (p : Period),
    (s.namespaces slug).settings = some settings ∧ parseTz settings.timezone = .ok tz ∧
      p.Printable ∧ p.render = r.row.period ∧
      p.ord ≤ (Period.ofDay p.cadence (localDay tz s.now)).ord

theorem arrived_step {slug : String} {a : VentureAction} {s : System} (h : Arrived slug s)
    (ha : KeepsLocalDate slug a s) : Arrived slug (Venture.step a s) := by
  generalize hstep : Venture.step a s = s'
  have hmeets : Venture.Meets s s' slug a := hstep ▸ Venture.meets_step a s slug
  cases hmeets with
  | other hsame hnow =>
      unfold Arrived
      rw [hsame, hnow]
      exact h
  | tick elapsed hclock =>
      rw [hclock]
      intro r hr
      obtain ⟨settings, tz, p, hstored, htz, hprint, hrender, hord⟩ := h r hr
      exact ⟨settings, tz, p, hstored, htz, hprint, hrender,
        hord.trans (ha settings tz hstored htz p.cadence)⟩
  | @patched headers patch old hp =>
      intro r hr
      rw [hp.kept] at hr
      obtain ⟨settings, tz, p, hstored, htz, hprint, hrender, hord⟩ := h r hr
      obtain rfl := Option.some.inj (hp.stored.symm.trans hstored)
      obtain ⟨tz', htz', hreaches⟩ := ha rfl patch old tz rfl hstored htz
      refine ⟨_, tz', p, hp.patched, htz', hprint, hrender, ?_⟩
      rw [hp.now]
      exact hord.trans (hreaches p.cadence)
  | @recorded headers payload stored tz c new hadded =>
      intro r hr
      rw [hadded.rows] at hr
      rcases List.mem_append.mp hr with hold | hnew
      · obtain ⟨settings, tz', p, hstored, htz', hprint, hrender, hord⟩ := h r hold
        obtain rfl := Option.some.inj (hadded.stored.symm.trans hstored)
        exact ⟨stored, tz', p, hadded.kept, htz', hprint, hrender, hadded.now ▸ hord⟩
      · obtain rfl := List.mem_singleton.mp hnew
        refine ⟨stored, tz, Period.currentIn tz c s.now, hadded.kept, hadded.timezone,
          Period.printable_of_year c (localDay_ge tz s.now) hadded.year, hadded.period.symm, ?_⟩
        rw [hadded.now, Period.currentIn, Period.cadence_ofDay]

/-- A period that the local date has reached does not overtake the current one. -/
theorem Arrived.sound {slug : String} {s : System} (h : Arrived slug s) : Sound slug s := by
  constructor
  · intro r hr
    obtain ⟨-, -, p, -, -, hprint, hrender, -⟩ := h r hr
    exact ⟨p, hprint, hrender⟩
  · intro settings hsettings tz c htz hc hover
    obtain ⟨-, r, hr, p, hcadence, hrender, hbefore⟩ := hover
    obtain ⟨settings', tz', p', hstored, htz', hprint, hrender', hord⟩ := h r hr
    obtain rfl := Option.some.inj (hstored.symm.trans hsettings)
    obtain rfl := Except.ok.inj (htz'.symm.trans htz)
    obtain rfl : p = p' := Period.eq_of_render_eq hprint.1 (hrender.trans hrender'.symm)
    rw [Period.currentIn, Period.cadence_ofDay] at hcadence
    rw [hcadence] at hord
    have hlt := (Period.ord_lt_iff_before (Period.sub_lt c _) hprint.2.2).mpr hbefore
    exact absurd hord (not_le.mpr hlt)

/-- So the list is as it should be while the local date does not go back. -/
theorem lists_while_dates_advance {slug : String} {actions : List VentureAction} {s : System}
    (hnew : (s.namespaces slug).contribution.rows = [])
    (hrun : Trace.Each Venture.step (KeepsLocalDate slug) actions s) {x : System}
    (hx : Trace.Visits Venture.step actions s x) : ListsPeriods slug x := by
  have hstart : Arrived slug s := by
    intro r hr
    rw [hnew] at hr
    cases hr
  have hsound : Sound slug x :=
    (hx.invariant (fun a s hs ha => arrived_step hs ha) hstart hrun).sound
  intro headers response hresponse
  exact (listing_of_response hsound.1 hresponse).mpr hsound.2

end Runs

/-! ## A venture that moves back over the end of a month -/

section Sample

attribute [local instance] Platform.sample

open ClosedPeriods

/-- Ann pays in June, and the month turns: July heads the list. -/
theorem july_before_june :
    ListsPeriods "pool"
      (Trace.exec Venture.step [annPays juneEnd, .tick oneDay]
        (openVenture "UTC" 10000 juneEnd)) := by
  refine (lists_newest_first [annPays juneEnd, .tick oneDay] (by decide)).1 ⟨trivial, ?_, trivial⟩ _
    ⟨[annPays juneEnd, .tick oneDay], [], rfl, rfl⟩
  intro settings hstored tz c htz hc hover
  have hsettings : ((Venture.step (annPays juneEnd) (openVenture "UTC" 10000 juneEnd)).namespaces
      "pool").settings = some (settingsIn "UTC" juneEnd) := by decide
  have hrows : ((Venture.step (annPays juneEnd) (openVenture "UTC" 10000 juneEnd)).namespaces
      "pool").contribution.rows =
        [⟨0, paymentRow "ann@pool.org" "monthly" "2026-06" 10000 juneEnd⟩] := by decide
  obtain rfl := Option.some.inj (hsettings.symm.trans hstored)
  obtain rfl : Cadence.monthly = c := Cadence.asStr_inj hc
  obtain rfl : Tz.utc = tz := Except.ok.inj htz
  obtain ⟨-, r, hr, p, -, hrender, hbefore⟩ := hover
  rw [hrows, List.mem_singleton] at hr
  subst hr
  obtain rfl : p = .monthly 2026 6 :=
    Period.eq_of_render_eq (by decide) (hrender.trans (by decide))
  revert hbefore
  unfold Period.Before
  decide

/-- Ann pays in Kiritimati's July, and only then the venture moves to UTC, where it is still June:
the list begins with June. -/
theorem june_before_july :
    ¬ ∀ x, Trace.Visits Venture.step [annPays juneEnd, moveTo "UTC" juneEnd]
      (openVenture "Pacific/Kiritimati" 10000 juneEnd) x → ListsPeriods "pool" x := by
  intro h
  have hlisting := h _ ⟨[annPays juneEnd, moveTo "UTC" juneEnd], [], rfl, rfl⟩
    (bearer "ann@pool.org" juneEnd) ⟨"2026-06", "monthly", ["2026-06", "2026-07"]⟩ (by decide)
  have htexts : ["2026-06", "2026-07"] =
      [Period.monthly 2026 6, .monthly 2026 7].map Period.render := by decide
  have hnewest : NewestFirst ["2026-06", "2026-07"] := hlisting.newest
  rw [htexts, newestFirst_iff (by decide)] at hnewest
  have hbefore := List.rel_of_pairwise_cons hnewest List.mem_cons_self rfl
  revert hbefore
  unfold Period.Before
  decide

end Sample

end ActivePeriods

end SharamLedger
