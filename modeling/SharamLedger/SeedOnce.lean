import SharamLedger.Lib.Pool
import SharamLedger.Sample

/-!
# The seed is set once

Calls of `set_carry_forward` and `get_carry_forward` on one tenant, and `UPDATE` and `DELETE`
statements that somebody else issues. Calls that race may all find no seed. The fixed record id lets
one `CREATE` pass, and from then on the event on the table keeps the row.
-/

namespace SharamLedger

open Lib

namespace SeedOnce

section Calls

variable [Platform]

omit [Platform] in
/-- The row of a seed. -/
def rowOf (input : NewCarryForward) (now : DateTime) : CarryForward where
  fromDate := input.fromDate
  toDate := input.toDate
  amountCents := input.amountCents
  note := input.note
  recordedBy := input.recordedBy
  recordedAt := now

/-- A seed that the assertions of the schema accept. -/
structure CheckedSeed where
  input : NewCarryForward
  checked : ∀ now, (rowOf input now).check = .ok ()

inductive SeedCall where
  | set (seed : CheckedSeed)
  | get

inductive SeedAnswer where
  | seeded (row : CarryForward)
  | found (row : Option CarryForward)

/-- What happens around the calls: statements on the table, and a new clock reading. -/
inductive SeedEvent where
  | clock (now : DateTime)
  | update (sel : CarryForward → Bool) (set : CarryForward → CarryForward)
  | delete (sel : CarryForward → Bool)

def seedProgram (slug : TenantSlug) : SeedCall → LedgerProg SeedAnswer
  | .set seed => return .seeded (← setCarryForward slug seed.input)
  | .get => return .found (← getCarryForward slug)

/-- The statement of an event. -/
def SeedEvent.run (slug : TenantSlug) (event : SeedEvent) (s : System) : System :=
  match event with
  | .clock now => s.setNow now
  | .update sel set =>
      ((onTenant slug DbError.plain (Namespace.updateCarryForward sel set)).run s).2
  | .delete sel => ((onTenant slug DbError.plain (Namespace.deleteCarryForward sel)).run s).2

/-- The service of these calls on one tenant. -/
def seeds (slug : TenantSlug) : Pool.Service System LedgerError SeedCall SeedEvent SeedAnswer where
  program := seedProgram slug
  world := SeedEvent.run slug

abbrev SeedPool := Pool.State System LedgerError SeedCall SeedAnswer

abbrev SeedAction := Pool.Action LedgerError SeedCall SeedEvent

variable (slug : TenantSlug)

abbrev step (a : SeedAction) (s : SeedPool) : SeedPool := Pool.step (seeds slug) a s

omit [Platform] in
/-- The seed of the tenant. -/
def seedOf (s : System) : Option CarryForward := (s.namespaces slug.val).carryForward

omit [Platform] in
/-- A seed that is there stays. -/
def Kept (s s' : System) : Prop := ∀ row, seedOf slug s = some row → seedOf slug s' = some row

/-- The `CREATE` of a call that has found no seed. -/
def creating (input : NewCarryForward) : LedgerProg SeedAnswer :=
  return .seeded (← onTenant slug mapDbError (Namespace.createCarryForward input))

theorem seedProgram_set (seed : CheckedSeed) :
    seedProgram slug (.set seed) = .query id fun s =>
      if (seedOf slug s).isSome then .err .carryForwardExists else creating slug seed.input := by
  refine congrArg (Prog.query id) (funext fun s => ?_)
  show (if (seedOf slug s).isSome then Prog.err .carryForwardExists
    else onTenant slug mapDbError (Namespace.createCarryForward seed.input)) >>= _ = _
  split <;> rfl

/-! ## One step -/

/-- How far a call has come. A query that was lost ended it with the error in `lost`. -/
inductive Stage (lost : LedgerError → Prop) (s : System) :
    SeedCall → LedgerProg SeedAnswer → Prop where
  | whole (call : SeedCall) : Stage lost s call (seedProgram slug call)
  | creating (seed : CheckedSeed) : Stage lost s (.set seed) (creating slug seed.input)
  | refused (seed : CheckedSeed) : Stage lost s (.set seed) (.err .carryForwardExists)
  | lost (call : SeedCall) {error : LedgerError} : lost error → Stage lost s call (.err error)
  | seeded (seed : CheckedSeed) {row : CarryForward} : seedOf slug s = some row →
      row = rowOf seed.input row.recordedAt → Stage lost s (.set seed) (.ok (.seeded row))
  | found (row : Option CarryForward) : Stage lost s .get (.ok (.found row))

variable {slug} {lost : LedgerError → Prop} {s s' : System} {call : SeedCall}
  {p : LedgerProg SeedAnswer}

theorem Stage.mono (h : Stage slug lost s call p) (hkept : Kept slug s s') :
    Stage slug lost s' call p := by
  cases h with
  | whole => exact .whole call
  | creating seed => exact .creating seed
  | refused seed => exact .refused seed
  | lost _ herror => exact .lost call herror
  | seeded seed hrow hinput => exact .seeded seed (hkept _ hrow) hinput
  | found row => exact .found row

/-- What a query of the call does. -/
structure Queried (slug : TenantSlug) (lost : LedgerError → Prop) (s s' : System)
    (call : SeedCall) (p' : LedgerProg SeedAnswer) : Prop where
  stage : Stage slug lost s' call p'
  kept : Kept slug s s'
  first : ∀ row, p' = .ok (.seeded row) → seedOf slug s = none
  reads : ∀ answer, call = .get → p' = .ok answer → answer = .found (seedOf slug s)

/-- `CREATE` on the record of an existing seed is reported as such. -/
def ReportsExisting : Prop :=
  Platform.faultText (.recordExists "carry_forward:current") =
    "Database record `carry_forward:current` already exists"

theorem mapDbError_exists (hexists : ReportsExisting) :
    mapDbError (.fault (.recordExists "carry_forward:current")) = .carryForwardExists := by
  have htext : DbError.toText (.fault (.recordExists "carry_forward:current")) =
      "Database record `carry_forward:current` already exists" := hexists
  unfold mapDbError
  rw [htext]
  decide +kernel

/-- A query that writes nothing and after which the call goes on or ends with an error. -/
theorem queried_same (h : Stage slug lost s call p) (hp : ∀ answer, p ≠ .ok answer) :
    Queried slug lost s s call p :=
  ⟨h, fun _ => id, fun _ hrow => absurd hrow (hp _), fun _ _ hanswer => absurd hanswer (hp _)⟩

theorem queried_of_creating (hexists : ReportsExisting) (seed : CheckedSeed)
    {effect : System → System} {next : System → LedgerProg SeedAnswer}
    (hp : creating slug seed.input = .query effect next) :
    Queried slug lost s (effect s) (.set seed) (next s) := by
  obtain ⟨rfl, rfl⟩ := Prog.query.inj hp
  have hcheck : CarryForward.check (rowOf seed.input s.now) = .ok () := seed.checked s.now
  cases hseed : seedOf slug s with
  | some row =>
      have hcreate : (s.namespaces slug.val).createCarryForward seed.input s.now =
          .error (.fault (.recordExists "carry_forward:current")) := by
        unfold seedOf at hseed
        unfold rowOf at hcheck
        simp only [Namespace.createCarryForward, hcheck, hseed]
      simp only [hcreate, mapDbError_exists hexists]
      exact queried_same (.refused seed) fun answer h => by cases h
  | none =>
      have hcreate : (s.namespaces slug.val).createCarryForward seed.input s.now =
          .ok (rowOf seed.input s.now,
            { s.namespaces slug.val with carryForward := some (rowOf seed.input s.now) }) := by
        unfold seedOf at hseed
        unfold rowOf at hcheck ⊢
        simp only [Namespace.createCarryForward, hcheck, hseed]
      simp only [hcreate]
      refine ⟨.seeded seed ?_ rfl, fun row hrow => ?_, fun _ _ => hseed, fun _ hget => ?_⟩
      · unfold seedOf
        rw [System.namespaces_setNamespace_same]
      · cases hseed.symm.trans hrow
      · cases hget

theorem queried_of_query (hexists : ReportsExisting) {effect : System → System}
    {next : System → LedgerProg SeedAnswer} (h : Stage slug lost s call (.query effect next)) :
    Queried slug lost s (effect s) call (next s) := by
  generalize hp : Prog.query effect next = p at h
  cases h with
  | whole =>
      cases call with
      | set seed =>
          rw [seedProgram_set] at hp
          obtain ⟨rfl, rfl⟩ := Prog.query.inj hp
          show Queried slug lost s s (.set seed) (if (seedOf slug s).isSome then
            .err .carryForwardExists else creating slug seed.input)
          split
          · exact queried_same (.refused seed) fun answer h => by cases h
          · exact queried_same (.creating seed) fun answer h => by cases h
      | get =>
          obtain ⟨rfl, rfl⟩ := Prog.query.inj hp
          refine ⟨.found _, fun _ => id, fun row hrow => ?_, fun answer _ hanswer => ?_⟩
          · cases hrow
          · cases hanswer
            rfl
  | creating seed => exact queried_of_creating hexists seed hp.symm
  | refused | lost | seeded | found => cases hp

/-- No event changes a seed. -/
theorem kept_event (event : SeedEvent) (s : System) : Kept slug s (event.run slug s) := by
  intro row hrow
  cases event with
  | clock now => exact hrow
  | update sel set =>
      rw [SeedEvent.run, run_onTenant]
      cases hupdate : (s.namespaces slug.val).updateCarryForward sel set s.now with
      | error e => exact hrow
      | ok answer =>
          obtain ⟨u, ns⟩ := answer
          obtain rfl := Namespace.updateCarryForward_ok hupdate
          simpa using hrow
  | delete sel =>
      rw [SeedEvent.run, run_onTenant]
      cases hdelete : (s.namespaces slug.val).deleteCarryForward sel s.now with
      | error e => exact hrow
      | ok answer =>
          obtain ⟨u, ns⟩ := answer
          obtain rfl := Namespace.deleteCarryForward_ok hdelete
          simpa using hrow

/-! ## Calls in flight -/

/-- What every run keeps: calls are as far as `Stage` says, and one of them at most has set the
seed. -/
structure Seeding (slug : TenantSlug) (lost : Nat → LedgerError → Prop) (s : SeedPool) : Prop where
  stages : ∀ key call p, s.calls key = some (call, p) → Stage slug (lost key) s.store call p
  sole : ∀ key key' seed seed' row row', s.Returned key (.set seed) (.seeded row) →
    s.Returned key' (.set seed') (.seeded row') → key = key'

theorem seeding_idle {lost : Nat → LedgerError → Prop} (store : System) :
    Seeding slug lost (.idle store) where
  stages _ _ _ h := by cases h
  sole _ _ _ _ _ _ h := by cases h

/-- A step between two moments of a run: a seed stays, and a read that ends finds the seed. -/
structure Moved (slug : TenantSlug) (s s' : SeedPool) : Prop where
  kept : Kept slug s.store s'.store
  reads : ∀ key answer, s'.Returned key .get answer → s.Returned key .get answer ∨
    answer = .found (seedOf slug s.store)

variable {lost : Nat → LedgerError → Prop} {s : SeedPool}

/-- One call gets as far as `p'` and moves the store with it. -/
theorem seeding_setCall {store : System} {key : Nat} {call : SeedCall}
    {p' : LedgerProg SeedAnswer} (hs : Seeding slug lost s)
    (hstage : Stage slug (lost key) store call p') (hkept : Kept slug s.store store)
    (hfirst : ∀ row, p' = .ok (.seeded row) → seedOf slug s.store = none) :
    Seeding slug lost { s.setCall key (call, p') with store := store } := by
  -- while there is no seed, no call has set one
  have hnobody : ∀ k seed row row', p' = .ok (.seeded row) →
      ¬ s.Returned k (.set seed) (.seeded row') := by
    intro k seed row row' hp' hreturned
    cases hs.stages k _ _ hreturned with
    | seeded _ hrow => cases (hfirst row hp').symm.trans hrow
  constructor
  · intro k call' p hcall
    rcases Pool.State.calls_setCall_cases hcall with ⟨rfl, hentry⟩ | ⟨-, hcall⟩
    · obtain ⟨rfl, rfl⟩ := Prod.mk.inj hentry
      exact hstage
    · exact (hs.stages k call' p hcall).mono hkept
  · intro k k' seed seed' row row' h h'
    rcases Pool.State.calls_setCall_cases h with ⟨rfl, hentry⟩ | ⟨hk, hold⟩ <;>
      rcases Pool.State.calls_setCall_cases h' with ⟨rfl, hentry'⟩ | ⟨hk', hold'⟩
    · rfl
    · exact absurd hold' (hnobody k' seed' row row' (Prod.mk.inj hentry).2)
    · exact absurd hold (hnobody k seed row' row (Prod.mk.inj hentry').2)
    · exact hs.sole k k' seed seed' row row' hold hold'

theorem moved_setCall {store : System} {key : Nat} {call : SeedCall} {p' : LedgerProg SeedAnswer}
    (hkept : Kept slug s.store store)
    (hreads : ∀ answer, call = .get → p' = .ok answer → answer = .found (seedOf slug s.store)) :
    Moved slug s { s.setCall key (call, p') with store := store } := by
  refine ⟨hkept, fun k answer hreturned => ?_⟩
  rcases Pool.State.calls_setCall_cases hreturned with ⟨rfl, hentry⟩ | ⟨-, hold⟩
  · obtain ⟨hcall, hp'⟩ := Prod.mk.inj hentry
    exact .inr (hreads answer hcall hp')
  · exact .inl hold

theorem seeding_step (hexists : ReportsExisting) {a : SeedAction} (hs : Seeding slug lost s)
    (hlost : ∀ key e, a = .fail key e → lost key e) :
    Seeding slug lost (step slug a s) ∧ Moved slug s (step slug a s) := by
  have hstep : Pool.Stepped (seeds slug) s a (step slug a s) := Pool.stepped a s
  generalize step slug a s = s' at hstep ⊢
  cases hstep with
  | same => exact ⟨hs, fun _ => id, fun _ _ => .inl⟩
  | @started key call hkey =>
      have hnot : ∀ answer, seedProgram slug call ≠ .ok answer := by
        intro answer h
        cases call with
        | set seed =>
            rw [seedProgram_set] at h
            cases h
        | get => cases h
      exact ⟨seeding_setCall hs (.whole call) (fun _ => id) fun _ h => absurd h (hnot _),
        moved_setCall (fun _ => id) fun _ _ h => absurd h (hnot _)⟩
  | advanced hkey =>
      have hqueried := queried_of_query hexists (hs.stages _ _ _ hkey)
      exact ⟨seeding_setCall hs hqueried.stage hqueried.kept hqueried.first,
        moved_setCall hqueried.kept hqueried.reads⟩
  | @failed key call effect next error hkey =>
      exact ⟨seeding_setCall hs (.lost call (hlost key error rfl)) (fun _ => id)
        fun _ h => (by cases h), moved_setCall (fun _ => id) fun _ _ h => (by cases h)⟩
  | @event event =>
      have hkept : Kept slug s.store (event.run slug s.store) := kept_event event s.store
      exact ⟨⟨fun key call p hcall => (hs.stages key call p hcall).mono hkept, hs.sole⟩, hkept,
        fun _ _ => .inl⟩

/-! ## Runs -/

/-- From the moment `s` on, in which the call has set the seed, up to `s'`: the seed is what the
call was given, no other call has set one, each other call that sets a seed is refused unless one of
its queries was lost, and every read that ends in between finds the seed. -/
structure Settled (slug : TenantSlug) (lost : Nat → LedgerError → Prop) (key : Nat)
    (seed : CheckedSeed) (row : CarryForward) (s s' : SeedPool) : Prop where
  input : row = rowOf seed.input row.recordedAt
  stored : seedOf slug s.store = some row ∧ seedOf slug s'.store = some row
  alone : ∀ key' seed' row', s'.Returned key' (.set seed') (.seeded row') → key' = key
  refused : ∀ key' seed' e, s'.calls key' = some (.set seed', .err e) →
    e = .carryForwardExists ∨ lost key' e
  reads : ∀ key' answer, s'.Returned key' .get answer → s.Returned key' .get answer ∨
    answer = .found (some row)

/-- What is kept from the moment `s` on in which the call has set the seed. -/
structure Since (slug : TenantSlug) (lost : Nat → LedgerError → Prop) (key : Nat)
    (seed : CheckedSeed) (row : CarryForward) (s x : SeedPool) : Prop where
  seeding : Seeding slug lost x
  stored : seedOf slug x.store = some row
  returned : x.Returned key (.set seed) (.seeded row)
  reads : ∀ k answer, x.Returned k .get answer → s.Returned k .get answer ∨
    answer = .found (some row)

theorem Since.step (hexists : ReportsExisting) {key : Nat} {seed : CheckedSeed}
    {row : CarryForward} {x : SeedPool} {a : SeedAction} (h : Since slug lost key seed row s x)
    (hlost : ∀ k e, a = .fail k e → lost k e) :
    Since slug lost key seed row s (SeedOnce.step slug a x) := by
  obtain ⟨hnext, hmoved⟩ := seeding_step hexists h.seeding hlost
  refine ⟨hnext, hmoved.kept row h.stored, h.returned.step, fun k answer hget => ?_⟩
  rcases hmoved.reads k answer hget with hbefore | hfound
  · exact h.reads k answer hbefore
  · exact .inr (h.stored ▸ hfound)

theorem Seeding.since {key : Nat} {seed : CheckedSeed} {row : CarryForward}
    (hs : Seeding slug lost s) (h : s.Returned key (.set seed) (.seeded row)) :
    Since slug lost key seed row s s := by
  cases hs.stages key _ _ h with
  | seeded _ hrow _ => exact ⟨hs, hrow, h, fun _ _ => .inl⟩

theorem Since.settled {key : Nat} {seed : CheckedSeed} {row : CarryForward} {x : SeedPool}
    (hs : Since slug lost key seed row s s) (hx : Since slug lost key seed row s x) :
    Settled slug lost key seed row s x := by
  refine ⟨?_, ⟨hs.stored, hx.stored⟩, fun k seed' row' h => ?_, fun k seed' e h => ?_, hx.reads⟩
  · cases hs.seeding.stages key _ _ hs.returned with
    | seeded _ _ hinput => exact hinput
  · exact hx.seeding.sole k key seed' seed row' row h hx.returned
  · cases hx.seeding.stages k _ _ h with
    | refused => exact .inl rfl
    | lost _ hfail => exact .inr hfail

/-- Whatever calls and statements interleave on whatever store, everything is settled from the
moment on in which a call has set the seed. -/
theorem settled_of_returned (hexists : ReportsExisting) (earlier later : List SeedAction)
    (store : System) {key : Nat} {seed : CheckedSeed} {row : CarryForward}
    (hreturned : (Trace.exec (step slug) earlier (.idle store)).Returned key (.set seed)
      (.seeded row)) :
    Settled slug (fun k e => .fail k e ∈ earlier ++ later) key seed row
      (Trace.exec (step slug) earlier (.idle store))
      (Trace.exec (step slug) (earlier ++ later) (.idle store)) := by
  obtain ⟨lost, hlost⟩ : ∃ lost : Nat → LedgerError → Prop,
      lost = fun k e => .fail k e ∈ earlier ++ later := ⟨_, rfl⟩
  rw [← hlost, Trace.exec_append]
  have hloses : ∀ a ∈ earlier ++ later, ∀ k e, a = .fail k e → lost k e := by
    rintro a ha k e rfl
    rw [hlost]
    exact ha
  have hs : Seeding slug lost (Trace.exec (step slug) earlier (.idle store)) := by
    have hrun : Trace.Each (step slug) (fun a _ => ∀ k e, a = .fail k e → lost k e) earlier
        (.idle store) := Trace.each_of_mem (fun a ha _ => hloses a (List.mem_append_left _ ha)) _
    exact hrun.invariant (I := Seeding slug lost)
      (fun a s hs ha => (seeding_step hexists hs ha).1) (seeding_idle store)
  generalize Trace.exec (step slug) earlier (.idle store) = s at hs hreturned
  have hsince := hs.since hreturned
  have hrun : Trace.Each (step slug) (fun a _ => ∀ k e, a = .fail k e → lost k e) later s :=
    Trace.each_of_mem (fun a ha _ => hloses a (List.mem_append_right _ ha)) _
  have hlast := hrun.invariant (I := Since slug lost key seed row s)
    (fun a x hx ha => hx.step hexists ha) hsince
  exact hsince.settled hlast

end Calls

/-! ## Two owners at once -/

section Sample

/-- The sample platform with the text of the database for a record that exists. -/
@[reducible] def reporting : Platform :=
  { Platform.sample with
    faultText := fun fault =>
      if fault = .recordExists "carry_forward:current" then
        "Database record `carry_forward:current` already exists"
      else "The statement failed"
    faultText_unmarked := by
      intro fault hvalue _
      have hne : fault ≠ .recordExists "carry_forward:current" := by
        rintro rfl
        exact hvalue rfl
      rw [if_neg hne]
      unfold Unmarked throwMarkers
      decide }

attribute [local instance] reporting

/-- What a member records. -/
def seedInput (email : String) (amountCents : Int) : NewCarryForward where
  fromDate := "2026-01-01"
  toDate := "2026-05-31"
  amountCents := amountCents
  note := none
  recordedBy := email

def annSeed : CheckedSeed where
  input := seedInput "ann@pool.org" 50000
  checked _ := (by decide +kernel : (rowOf (seedInput "ann@pool.org" 50000) 0).check = .ok ())

def bobSeed : CheckedSeed where
  input := seedInput "bob@pool.org" 70000
  checked _ := (by decide +kernel : (rowOf (seedInput "bob@pool.org" 70000) 0).check = .ok ())

/-- Both calls find no seed, and Bob's creates one. -/
def bothFindNone : List SeedAction :=
  [.start 0 (.set annSeed), .start 1 (.set bobSeed), .advance 0, .advance 1, .advance 1]

/-- Ann's `CREATE` comes too late, statements try to change the seed, and somebody reads it. -/
def afterwards : List SeedAction :=
  [.advance 0, .world (.update (fun _ => true) fun row => { row with amountCents := 1 }),
    .world (.delete fun _ => true), .start 2 .get, .advance 2]

theorem settled_bob :
    Settled poolSlug (fun k e => .fail k e ∈ bothFindNone ++ afterwards) 1 bobSeed
      (rowOf (seedInput "bob@pool.org" 70000) juneNoon)
      (Trace.exec (step poolSlug) bothFindNone (.idle (System.empty juneNoon)))
      (Trace.exec (step poolSlug) (bothFindNone ++ afterwards) (.idle (System.empty juneNoon))) :=
  settled_of_returned rfl bothFindNone afterwards (System.empty juneNoon) rfl

end Sample

end SeedOnce

end SharamLedger
