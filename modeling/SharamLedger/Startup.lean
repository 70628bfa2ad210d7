import SharamLedger.Ledger.Calls
import SharamLedger.Ledger.Connections
import SharamLedger.Sample

/-!
# From the start-up on

The gateway connects, applies the control schema, migrates every tenant of the directory, and only
then serves requests. From there on, calls on tenants are in flight on the cached connections and
their queries interleave. They do what the calls of the ledger model do, and no tenant of the
directory is ever found with an older schema.
-/

namespace SharamLedger

open Lib

/-! ## What every query keeps -/

namespace Host

variable (cfg : SurrealConfig) (schemas : Schemas) (h : Host)

/-- The slug is in the directory. -/
def Listed (slug : String) : Prop :=
  ∃ d ∈ (h.abstract cfg).control.tenantDirectory.rows, d.row.slug = slug

/-- The database of the tenant has the schema of this build. -/
def Current (slug : String) : Prop :=
  (h.stores 0 slug "main").tenantSchema = some schemas.tenant

/-- The database of the control plane has the schema of this build. -/
def ControlCurrent : Prop :=
  (h.stores 0 cfg.ns cfg.database).controlSchema = some schemas.control

/-- Connections stay with their tenants, schemas stay, and what enters the directory has the
schema. -/
structure Provides (h h' : Host) : Prop where
  bound : h.Bound cfg → h'.Bound cfg
  current : ∀ slug, h.Current schemas slug → h'.Current schemas slug
  control : h.ControlCurrent cfg schemas → h'.ControlCurrent cfg schemas
  listed : ∀ slug, h'.Listed cfg slug → h.Listed cfg slug ∨ h'.Current schemas slug

namespace Provides

variable {cfg schemas} {h₁ h₂ h₃ : Host}

theorem refl (h : Host) : Provides cfg schemas h h where
  bound := id
  current _ := id
  control := id
  listed _ := .inl

theorem trans (h : Provides cfg schemas h₁ h₂) (h' : Provides cfg schemas h₂ h₃) :
    Provides cfg schemas h₁ h₃ where
  bound hb := h'.bound (h.bound hb)
  current slug hc := h'.current slug (h.current slug hc)
  control hc := h'.control (h.control hc)
  listed slug hl := by
    rcases h'.listed slug hl with hl | hc
    · exact (h.listed slug hl).imp_right (h'.current slug)
    · exact .inr hc

instance : Std.Refl (Provides cfg schemas) := ⟨refl⟩

instance : IsTrans Host (Provides cfg schemas) := ⟨fun _ _ _ => trans⟩

/-- Only the cache changes. -/
theorem of_bound {h : Host} {tenants : String → Option Conn}
    (hbound : h.Bound cfg → { h with tenants }.Bound cfg) :
    Provides cfg schemas h { h with tenants } where
  bound := hbound
  current _ := id
  control := id
  listed _ := .inl

/-- A statement that leaves the directory alone, and either schema if it is the one of this
build. -/
theorem of_rows {conn : Conn} {d : Database} {h : Host}
    (hdirectory : d.control.tenantDirectory = (h.database conn).control.tenantDirectory)
    (hcontrol : (h.database conn).controlSchema = some schemas.control →
      d.controlSchema = some schemas.control)
    (htenant : (h.database conn).tenantSchema = some schemas.tenant →
      d.tenantSchema = some schemas.tenant) : Provides cfg schemas h (h.setDatabase conn d) where
  bound := id
  current _ hc := keeps_setDatabase (P := fun d => d.tenantSchema = some schemas.tenant) htenant hc
  control hc := keeps_setDatabase (P := fun d => d.controlSchema = some schemas.control) hcontrol hc
  listed slug hl := by
    have hkept : ((h.setDatabase conn d).stores 0 cfg.ns cfg.database).control.tenantDirectory =
        (h.stores 0 cfg.ns cfg.database).control.tenantDirectory :=
      field_setDatabase (fun d => d.control.tenantDirectory) hdirectory 0 cfg.ns cfg.database
    obtain ⟨row, hrow, hslug⟩ := hl
    refine .inl ⟨row, ?_, hslug⟩
    show row ∈ (h.stores 0 cfg.ns cfg.database).control.tenantDirectory.rows
    rw [← hkept]
    exact hrow

end Provides

end Host

section Moves

open Host

variable {cfg : SurrealConfig} {schemas : Schemas} {h : Host} {α : Type}

theorem moves_readConn (conn : Conn) (f : Database → α) :
    (readConn conn f).Moves (Provides cfg schemas) := by
  refine Prog.moves_exec fun h value h' hread => ?_
  split at hread
  · obtain ⟨-, rfl⟩ := Prod.mk.inj (Except.ok.inj hread)
    exact .refl h
  · cases hread

/-- An accepted statement replaces the database of its connection. -/
theorem moves_onConn {R : Host → Host → Prop} [Std.Refl R] {conn : Conn}
    {onError : DbError → LedgerError} {f : DateTime → Database → Except DbError (α × Database)}
    (hf : ∀ h value d, f h.now (h.database conn) = .ok (value, d) → R h (h.setDatabase conn d)) :
    (onConn conn onError f).Moves R := by
  refine Prog.moves_exec fun h value h' haccept => ?_
  split at haccept
  · cases hanswer : f h.now (h.database conn) with
    | error e => simp [hanswer] at haccept
    | ok answer =>
        simp only [hanswer, Except.ok.injEq, Prod.mk.injEq] at haccept
        obtain ⟨-, rfl⟩ := haccept
        exact hf h answer.1 answer.2 hanswer
  · cases haccept

theorem moves_onConn_tenant (conn : Conn) (onError : DbError → LedgerError)
    (f : DateTime → Namespace → Except DbError (α × Namespace)) :
    (onConn conn onError (Database.onTenant f)).Moves (Provides cfg schemas) := by
  refine moves_onConn fun h value d haccept => ?_
  unfold Database.onTenant at haccept
  cases hf : f h.now (h.database conn).tenant with
  | error e => simp [hf, Except.map] at haccept
  | ok answer =>
      simp only [hf, Except.map, Except.ok.injEq, Prod.mk.injEq] at haccept
      obtain ⟨-, rfl⟩ := haccept
      exact .of_rows rfl id id

end Moves

/-! ## The calls on tenants -/

/-- A call of the ledger client on a tenant. -/
inductive ClientCall where
  | createTenant (init : NewTenant)
  | tenantSettings (slug : TenantSlug)
  | updateSettings (slug : TenantSlug) (patch : UpdateSettings)
  | addContribution (slug : TenantSlug) (input : NewContribution)
  | listContributions (slug : TenantSlug) (email period : String)
  | listPoolContributions (slug : TenantSlug) (period : String)
  | listActivePeriods (slug : TenantSlug)
  | accumulationPoints (slug : TenantSlug)
  | periodSummary (slug : TenantSlug) (email period : String)
  | getCarryForward (slug : TenantSlug)
  | setCarryForward (slug : TenantSlug) (input : NewCarryForward)

/-- What a call returns. -/
inductive ClientAnswer where
  | created
  | settings (settings : TenantSettings)
  | contribution (row : ContributionRecord)
  | contributions (rows : List ContributionRecord)
  | periods (periods : List String)
  | points (points : List AccumulationPoint)
  | summary (summary : PeriodSummary)
  | seed (seed : Option CarryForward)

/-- A statement of one of the other calls (`accountProgram_asEvent`). They all go to the control
plane, and only `create_tenant` writes the directory. -/
structure ControlWrite where
  write : Control → Control
  directory : ∀ c, (write c).tenantDirectory = c.tenantDirectory

/-- What happens beside the calls on tenants. -/
inductive HostEvent where
  | clock (now : DateTime)
  | control (w : ControlWrite)

section Calls

variable [Platform]

/-- The calls on the connections of the client. -/
def clientProgram (schemas : Schemas) (ledger : Ledger) : ClientCall → HostProg ClientAnswer
  | .createTenant init => do
      ledger.createTenant schemas init
      return .created
  | .tenantSettings slug => return .settings (← ledger.tenantSettings slug)
  | .updateSettings slug patch => return .settings (← ledger.updateSettings slug patch)
  | .addContribution slug input => return .contribution (← ledger.addContribution slug input)
  | .listContributions slug email period =>
      return .contributions (← ledger.listContributions slug email period)
  | .listPoolContributions slug period =>
      return .contributions (← ledger.listPoolContributions slug period)
  | .listActivePeriods slug => return .periods (← ledger.listActivePeriods slug)
  | .accumulationPoints slug => return .points (← ledger.accumulationPoints slug)
  | .periodSummary slug email period => return .summary (← ledger.periodSummary slug email period)
  | .getCarryForward slug => return .seed (← ledger.getCarryForward slug)
  | .setCarryForward slug input => return .seed (some (← ledger.setCarryForward slug input))

/-- The same calls of the ledger model. -/
def ledgerProgram : ClientCall → LedgerProg ClientAnswer
  | .createTenant init => do
      createTenant init
      return .created
  | .tenantSettings slug => return .settings (← tenantSettings slug)
  | .updateSettings slug patch => return .settings (← updateSettings slug patch)
  | .addContribution slug input => return .contribution (← addContribution slug input)
  | .listContributions slug email period =>
      return .contributions (← listContributions slug email period)
  | .listPoolContributions slug period =>
      return .contributions (← listPoolContributions slug period)
  | .listActivePeriods slug => return .periods (← listActivePeriods slug)
  | .accumulationPoints slug => return .points (← accumulationPoints slug)
  | .periodSummary slug email period => return .summary (← periodSummary slug email period)
  | .getCarryForward slug => return .seed (← getCarryForward slug)
  | .setCarryForward slug input => return .seed (some (← setCarryForward slug input))

def Host.event (ledger : Ledger) (h : Host) : HostEvent → Host
  | .clock now => { h with now }
  | .control w =>
      let d := h.database ledger.control
      h.setDatabase ledger.control { d with control := w.write d.control }

def System.event (s : System) : HostEvent → System
  | .clock now => s.setNow now
  | .control w => { s with control := w.write s.control }

/-- The query does what an event of the control plane does. -/
def AsEvent (s s' : System) : Prop := ∃ w : ControlWrite, s' = s.event (.control w)

omit [Platform] in
theorem asEvent_refl (s : System) : AsEvent s s := ⟨⟨id, fun _ => rfl⟩, rfl⟩

instance : Std.Refl AsEvent := ⟨asEvent_refl⟩

/-- A statement of the control plane, at the clock reading that it is issued at. -/
def ControlWrite.ofStatement {α : Type} (f : Control → Except DbError (α × Control))
    (h : ∀ c value c', f c = .ok (value, c') → c'.tenantDirectory = c.tenantDirectory) :
    ControlWrite where
  write c :=
    match f c with
    | .ok (_, c') => c'
    | .error _ => c
  directory c := by
    cases hf : f c with
    | error e => rfl
    | ok answer => exact h c answer.1 answer.2 hf

omit [Platform] in
theorem moves_asEvent {α : Type} {onError : DbError → LedgerError}
    {f : DateTime → Control → Except DbError (α × Control)}
    (h : ∀ now c value c', f now c = .ok (value, c') → c'.tenantDirectory = c.tenantDirectory) :
    (onControl onError f).Moves AsEvent := by
  refine moves_onControl fun s value c hf => ⟨.ofStatement (f s.now) (h s.now), ?_⟩
  simp only [System.event, ControlWrite.ofStatement, hf]

theorem acceptEach_asEvent (userId : Nat) (l : List InviteRecord) :
    (acceptEach userId l).Moves AsEvent := by
  induction l with
  | nil => exact Prog.moves_pure _
  | cons inv rest ih =>
      refine .bind (.bind (moves_asEvent fun now c m c' h => ?_) fun _ => ?_) fun _ =>
        .bind ih fun _ => Prog.moves_pure _
      · exact (Control.upsertMembership_ok h).directory
      · split
        · exact Prog.moves_pure _
        · exact .bind (moves_asEvent fun _ _ _ _ h => Control.updateInvite_directory h)
            fun _ => Prog.moves_pure _

/-- Every query of a call on users and invites is such an event. -/
theorem accountProgram_asEvent (call : AccountCall) : (accountProgram call).Moves AsEvent := by
  cases call with
  | upsertUser input =>
      refine .bind (moves_asEvent fun _ _ _ _ h => ?_) fun _ => Prog.moves_pure _
      exact (Control.upsertUserRow_ok h).1.directory
  | createPasswordUser input =>
      refine .bind (.bind (moves_readControl _) fun found => ?_) fun _ => Prog.moves_pure _
      cases found with
      | none =>
          refine moves_asEvent fun _ _ _ _ h => ?_
          exact (Control.createPasswordRow_ok h).1.directory
      | some existing =>
          dsimp only
          split
          · exact Prog.moves_err _
          · exact .bind (moves_asEvent fun _ _ _ _ h => Control.attachPassword_directory h)
              fun row => Prog.moves_okOr _ row
  | acceptPendingInvites email userId =>
      exact .bind (.bind (moves_readControl _) fun pending => acceptEach_asEvent userId pending)
        fun _ => Prog.moves_pure _
  | createInvite input =>
      refine .bind (.bind (moves_readControl _) fun found => ?_) fun _ => Prog.moves_pure _
      cases found with
      | none =>
          refine moves_asEvent fun _ _ _ _ h => ?_
          obtain ⟨-, -, -, -, -, -, -, -, hdirectory, -⟩ := Control.createInviteRow_ok h
          exact hdirectory
      | some rec =>
          dsimp only
          split
          · exact Prog.moves_err _
          · exact .bind (moves_asEvent fun _ _ _ _ h => Control.updateInvite_directory h)
              fun row => Prog.moves_okOr _ row
  | revokeInvite slug key =>
      exact .bind (.bind (moves_asEvent fun _ _ _ _ h => Control.updateInvite_directory h)
        fun row => Prog.moves_okOr _ row) fun _ => Prog.moves_pure _
  | deleteInvite slug key =>
      refine .bind (.bind (moves_asEvent fun _ _ _ _ h => ?_) fun _ => Prog.moves_ensure _ _)
        fun _ => Prog.moves_pure _
      cases h
      rfl

/-- The calls in flight on the cached connections. -/
def client (schemas : Schemas) (ledger : Ledger) :
    Pool.Service Host LedgerError ClientCall HostEvent ClientAnswer where
  program := clientProgram schemas ledger
  world event h := h.event ledger event

/-- The calls in flight on the state of the ledger model. -/
def ledgerCalls : Pool.Service System LedgerError ClientCall HostEvent ClientAnswer where
  program := ledgerProgram
  world event s := s.event event

abbrev ClientAction := Pool.Action LedgerError ClientCall HostEvent

abbrev ClientPool := Pool.State Host LedgerError ClientCall ClientAnswer

abbrev LedgerPool := Pool.State System LedgerError ClientCall ClientAnswer

/-- A run of the client from a host on which no call is in flight. -/
def clientRun (schemas : Schemas) (ledger : Ledger) (actions : List ClientAction) (h : Host) :
    ClientPool :=
  Trace.exec (Pool.step (client schemas ledger)) actions (.idle h)

def ledgerRun (actions : List ClientAction) (s : System) : LedgerPool :=
  Trace.exec (Pool.step ledgerCalls) actions (.idle s)

/-! ## Refinement -/

section Refinement

open Host

variable {cfg : SurrealConfig} (hremote : endpointNeedsAuth cfg.endpoint = true)

include hremote

theorem clientProgram_refines (schemas : Schemas) (call : ClientCall) :
    (clientProgram schemas cfg.ledger call).Refines (abstract cfg) (Bound cfg)
      (ledgerProgram call) := by
  have hanswer : ∀ {α : Type} {q : HostProg α} {p : LedgerProg α} (answer : α → ClientAnswer),
      q.Refines (abstract cfg) (Bound cfg) p →
      (q >>= fun value => pure (answer value)).Refines (abstract cfg) (Bound cfg)
        (p >>= fun value => pure (answer value)) :=
    fun answer h => h.bind fun value => Prog.refines_pure (answer value)
  cases call with
  | createTenant init => exact hanswer _ (refines_createTenant hremote schemas init)
  | tenantSettings slug => exact hanswer _ (refines_tenantSettings hremote slug)
  | updateSettings slug patch => exact hanswer _ (refines_updateSettings hremote slug patch)
  | addContribution slug input => exact hanswer _ (refines_onTenant hremote slug _ _)
  | listContributions slug email period => exact hanswer _ (refines_readTenant hremote slug _)
  | listPoolContributions slug period => exact hanswer _ (refines_readTenant hremote slug _)
  | listActivePeriods slug => exact hanswer _ (refines_readTenant hremote slug _)
  | accumulationPoints slug => exact hanswer _ (refines_readTenant hremote slug _)
  | periodSummary slug email period =>
      exact hanswer _ (refines_periodSummary hremote slug email period)
  | getCarryForward slug => exact hanswer _ (refines_readTenant hremote slug _)
  | setCarryForward slug input => exact hanswer _ (refines_setCarryForward hremote slug input)

omit hremote [Platform] in
theorem event_refines (event : HostEvent) (h : Host) (hb : h.Bound cfg) :
    (h.event cfg.ledger event).Bound cfg ∧
      (h.event cfg.ledger event).abstract cfg = (h.abstract cfg).event event := by
  cases event with
  | clock now => exact ⟨hb, rfl⟩
  | control w => exact ⟨hb, abstract_control rfl⟩

/-- Once the gateway has started up against a server, the calls on its cached connections do what
the calls of the ledger model do. Every run, however its calls interleave and whichever of their
queries fail, ends in the state of a run of the model that takes some of the same actions in their
order, and a call that has returned has returned the same there. Every cached connection is signed
in and uses the database of its own tenant. -/
theorem client_refines_ledger (schemas : Schemas) (actions : List ClientAction) (start : Host)
    (hfresh : ∀ slug, start.tenants slug = none) :
    ∃ h, (Ledger.startUp schemas cfg).run start = (.ok cfg.ledger, h) ∧
      (clientRun schemas cfg.ledger actions h).store.Bound cfg ∧
      ∃ actions', actions'.Sublist actions ∧
        (clientRun schemas cfg.ledger actions h).store.abstract cfg =
          (ledgerRun actions' (start.abstract cfg)).store ∧
        ∀ key call answer, (clientRun schemas cfg.ledger actions h).Returned key call answer →
          (ledgerRun actions' (start.abstract cfg)).Returned key call answer := by
  have hbound : start.Bound cfg := bound_of_fresh hfresh
  obtain ⟨ledger, h, hrun, rfl, hb, hsame⟩ := (silent_startUp hremote schemas).run hbound
  have hidle : Pool.Simulates (abstract cfg) (Bound cfg)
      (.idle h : ClientPool) (.idle (start.abstract cfg) : LedgerPool) :=
    hsame ▸ Pool.simulates_idle hb
  have hsimulates : ∃ actions', actions'.Sublist actions ∧
      Pool.Simulates (abstract cfg) (Bound cfg) (clientRun schemas cfg.ledger actions h)
        (ledgerRun actions' (start.abstract cfg)) :=
    hidle.run (clientProgram_refines hremote schemas) event_refines actions
  obtain ⟨actions', hsub, hsim⟩ := hsimulates
  exact ⟨h, hrun, hsim.invariant, actions', hsub, hsim.store.symm,
    fun key call answer hreturned => hsim.returned hreturned⟩

end Refinement

/-! ## Schemas -/

section Schemas

open Host

variable {cfg : SurrealConfig} {schemas : Schemas} {h : Host} {α : Type}

/-- The schema is applied to the database of the connection. -/
theorem safe_applyTenantSchema (slug : String) (hb : h.Bound cfg) :
    (Ledger.applyTenantSchema schemas (cfg.conn slug "main")).Safe (Provides cfg schemas)
      (Provides cfg schemas) (fun _ h' => h'.Bound cfg ∧ h'.Current schemas slug) h := by
  unfold Ledger.applyTenantSchema onConn
  refine Prog.safe_exec fun h' value h'' hrely haccept => ?_
  cases haccept
  refine ⟨.of_rows rfl id fun _ => rfl, hrely.bound hb, ?_⟩
  exact congrArg Database.tenantSchema (stores_setDatabase_self h' (cfg.conn slug "main") _)

theorem safe_applyControlSchema (hb : h.Bound cfg) :
    (cfg.ledger.applyControlSchema schemas).Safe (Provides cfg schemas) (Provides cfg schemas)
      (fun _ h' => h'.Bound cfg ∧ h'.ControlCurrent cfg schemas) h := by
  unfold Ledger.applyControlSchema onConn
  refine Prog.safe_exec fun h' value h'' hrely haccept => ?_
  cases haccept
  refine ⟨.of_rows rfl (fun _ => rfl) id, hrely.bound hb, ?_⟩
  exact congrArg Database.controlSchema (stores_setDatabase_self h' cfg.ledger.control _)

variable (hremote : endpointNeedsAuth cfg.endpoint = true)

include hremote

omit [Platform] in
theorem safe_connectTo (ns db : String) (hb : h.Bound cfg) :
    (connectTo cfg ns db).Safe (Provides cfg schemas) (Provides cfg schemas)
      (fun conn h' => h'.Bound cfg ∧ conn = cfg.conn ns db) h := by
  unfold connectTo
  refine Prog.Safe.bind (Q := fun conn h' => h'.Bound cfg ∧ conn = ⟨0, none, "", ""⟩) ?_
    fun conn h' hconn => ?_
  · refine Prog.safe_exec fun h' conn h'' hrely haccept => ?_
    rw [if_pos hremote] at haccept
    cases haccept
    exact ⟨.refl _, hrely.bound hb, rfl⟩
  obtain ⟨hb, rfl⟩ := hconn
  rw [if_pos hremote]
  refine Prog.Safe.bind (Q := fun conn h' => h'.Bound cfg ∧
    conn = ⟨0, some ⟨cfg.username, cfg.password⟩, "", ""⟩)
    (Prog.safe_read fun h' hrely => ⟨hrely.bound hb, rfl⟩) fun conn h' hconn => ?_
  obtain ⟨hb, rfl⟩ := hconn
  exact Prog.safe_read fun h' hrely => ⟨hrely.bound hb, rfl⟩

omit [Platform] in
theorem safe_tenantConn (slug : String) (hb : h.Bound cfg) :
    (cfg.ledger.tenantConn slug).Safe (Provides cfg schemas) (Provides cfg schemas)
      (fun conn h' => h'.Bound cfg ∧ conn = cfg.conn slug "main") h := by
  refine Prog.Safe.bind (Q := fun cached h' => h'.Bound cfg ∧
    ∀ conn, cached = some conn → conn = cfg.conn slug "main")
    (Prog.safe_read fun h' hrely => ⟨hrely.bound hb, hrely.bound hb slug⟩)
    fun cached h' hcached => ?_
  obtain ⟨hb, hcached⟩ := hcached
  cases cached with
  | some conn => exact Prog.safe_pure ⟨hb, hcached conn rfl⟩
  | none =>
      refine (safe_connectTo hremote slug "main" hb).bind fun conn h' hconn => ?_
      obtain ⟨hb, rfl⟩ := hconn
      refine Prog.safe_exec fun h' value h'' hrely haccept => ?_
      cases haccept
      exact ⟨.of_bound fun hb => hb.setTenant slug, (hrely.bound hb).setTenant slug, rfl⟩

omit [Platform] in
/-- A call that sends its statements on the connection of a tenant. -/
theorem safe_onTenantDb {p : Conn → HostProg α} (slug : TenantSlug) (hb : h.Bound cfg)
    (hp : ∀ h' : Host, h'.Bound cfg → (p (cfg.conn slug.val "main")).Safe (Provides cfg schemas)
      (Provides cfg schemas) (fun _ _ => True) h') :
    (cfg.ledger.tenantDb slug >>= p).Safe (Provides cfg schemas) (Provides cfg schemas)
      (fun _ _ => True) h := by
  refine (safe_tenantConn hremote slug.val hb).bind fun conn h' hconn => ?_
  obtain ⟨hb, rfl⟩ := hconn
  exact hp h' hb

omit [Platform] in
theorem safe_readTenant (slug : TenantSlug) (f : Namespace → α) (hb : h.Bound cfg) :
    (cfg.ledger.readTenant slug f).Safe (Provides cfg schemas) (Provides cfg schemas)
      (fun _ _ => True) h :=
  safe_onTenantDb hremote slug hb fun _ _ => (moves_readConn _ _).safe.imp fun _ _ _ => trivial

omit [Platform] in
theorem safe_onTenant (slug : TenantSlug) (onError : DbError → LedgerError)
    (f : DateTime → Namespace → Except DbError (α × Namespace)) (hb : h.Bound cfg) :
    (cfg.ledger.onTenant slug onError f).Safe (Provides cfg schemas) (Provides cfg schemas)
      (fun _ _ => True) h :=
  safe_onTenantDb hremote slug hb fun _ _ =>
    (moves_onConn_tenant _ _ _).safe.imp fun _ _ _ => trivial

omit [Platform] in
theorem safe_tenantSettings (slug : TenantSlug) (hb : h.Bound cfg) :
    (cfg.ledger.tenantSettings slug).Safe (Provides cfg schemas) (Provides cfg schemas)
      (fun _ _ => True) h :=
  (safe_readTenant hremote slug _ hb).bind fun _ _ _ => Prog.safe_okOr fun _ _ => trivial

theorem safe_updateSettings (slug : TenantSlug) (patch : UpdateSettings) (hb : h.Bound cfg) :
    (cfg.ledger.updateSettings slug patch).Safe (Provides cfg schemas) (Provides cfg schemas)
      (fun _ _ => True) h := by
  refine safe_onTenantDb hremote slug hb fun h' hb => ?_
  split
  · exact safe_tenantSettings hremote slug hb
  · exact (moves_onConn_tenant _ _ _).safe.bind fun _ _ _ => Prog.safe_okOr fun _ _ => trivial

omit [Platform] in
theorem safe_periodSummary (slug : TenantSlug) (email period : String) (hb : h.Bound cfg) :
    (cfg.ledger.periodSummary slug email period).Safe (Provides cfg schemas)
      (Provides cfg schemas) (fun _ _ => True) h := by
  refine safe_onTenantDb hremote slug hb fun h' hb => ?_
  refine (safe_tenantSettings hremote slug hb).bind fun settings h' _ => ?_
  exact (moves_readConn _ _).safe.bind fun _ _ _ => Prog.safe_pure trivial

theorem safe_setCarryForward (slug : TenantSlug) (input : NewCarryForward) (hb : h.Bound cfg) :
    (cfg.ledger.setCarryForward slug input).Safe (Provides cfg schemas) (Provides cfg schemas)
      (fun _ _ => True) h := by
  refine safe_onTenantDb hremote slug hb fun h' hb => ?_
  refine (moves_readConn _ _).safe.bind fun existing h' _ => ?_
  split
  · exact Prog.safe_err _
  · exact (moves_onConn_tenant _ _ _).safe.imp fun _ _ _ => trivial

omit [Platform] hremote in
/-- A tenant that is registered with the schema in place. -/
theorem provides_registerTenant {init : NewTenant} {now : DateTime} {d : Database}
    (hcurrent : h.Current schemas init.slug.val)
    (haccept :
      (h.database cfg.ledger.control).control.registerTenant init now = .ok ((), d.control))
    (hcontrol : d.controlSchema = (h.database cfg.ledger.control).controlSchema)
    (htenant : d.tenantSchema = (h.database cfg.ledger.control).tenantSchema) :
    Provides cfg schemas h (h.setDatabase cfg.ledger.control d) where
  bound := id
  current slug hc := (field_setDatabase Database.tenantSchema htenant 0 slug "main").trans hc
  control hc := (field_setDatabase Database.controlSchema hcontrol 0 _ _).trans hc
  listed slug hl := by
    obtain ⟨row, -, hrow, -, hdirectory, -⟩ := Control.registerTenant_rows haccept
    obtain ⟨found, hfound, rfl⟩ := hl
    have hstore : (h.setDatabase cfg.ledger.control d).stores 0 cfg.ns cfg.database = d :=
      stores_setDatabase_self h cfg.ledger.control d
    have hfound : found ∈ d.control.tenantDirectory.rows := by
      rw [← hstore]
      exact hfound
    rcases (hdirectory found).mp hfound with hold | rfl
    · exact .inl ⟨found, hold, rfl⟩
    · right
      rw [hrow]
      exact (field_setDatabase Database.tenantSchema htenant 0 _ "main").trans hcurrent

/-- The tenant is listed when its database has the schema. -/
theorem safe_createTenant (init : NewTenant) (hb : h.Bound cfg) :
    (cfg.ledger.createTenant schemas init).Safe (Provides cfg schemas) (Provides cfg schemas)
      (fun _ _ => True) h := by
  refine Prog.Safe.bind (moves_readConn _ _).safe fun existing h' hrely => ?_
  have hb := hrely.bound hb
  split
  · exact Prog.safe_err _
  refine (safe_connectTo hremote init.slug.val "main" hb).bind fun conn h' hconn => ?_
  obtain ⟨hb, rfl⟩ := hconn
  refine (safe_applyTenantSchema init.slug.val hb).bind fun _ h' happlied => ?_
  obtain ⟨hb, hcurrent⟩ := happlied
  refine Prog.Safe.bind (moves_onConn_tenant _ _ _).safe fun _ h' hrely => ?_
  have hcurrent := hrely.current _ hcurrent
  refine Prog.Safe.bind (Q := fun _ h' => h'.Current schemas init.slug.val) ?_
    fun _ h' hcurrent => ?_
  · refine Prog.safe_exec fun h' value h'' hrely haccept => ?_
    cases haccept
    exact ⟨.of_bound fun hb => hb.setTenant init.slug.val, hrely.current _ hcurrent⟩
  unfold onConn
  refine Prog.safe_exec fun h' value h'' hrely haccept => ⟨?_, trivial⟩
  have hpermitted : cfg.ledger.control.permitted = true := rfl
  rw [if_pos hpermitted] at haccept
  unfold Database.onControl at haccept
  cases hregister : (h'.database cfg.ledger.control).control.registerTenant init h'.now with
  | error e => simp [hregister, Except.map] at haccept
  | ok answer =>
      obtain ⟨⟨⟩, c⟩ := answer
      simp only [hregister, Except.map, Except.ok.injEq, Prod.mk.injEq] at haccept
      obtain ⟨-, rfl⟩ := haccept
      exact provides_registerTenant (hrely.current _ hcurrent) hregister rfl rfl

/-- Every tenant of the list has the schema in the end, and so has every other one of the
directory that had it before. -/
theorem safe_migrateTenants (slugs : List String) (hb : h.Bound cfg)
    (hlisted : ∀ slug, h.Listed cfg slug → slug ∈ slugs ∨ h.Current schemas slug) :
    (cfg.ledger.migrateTenants schemas slugs).Safe (Provides cfg schemas) (Provides cfg schemas)
      (fun _ h' => ∀ slug, h'.Listed cfg slug → h'.Current schemas slug) h := by
  induction slugs generalizing h with
  | nil => exact Prog.safe_pure fun slug hl => (hlisted slug hl).resolve_left List.not_mem_nil
  | cons slug slugs ih =>
      -- what the others list in between has the schema
      refine (safe_tenantConn hremote slug hb).moved.bind fun conn h' hconn => ?_
      obtain ⟨⟨hb, rfl⟩, hmoved⟩ := hconn
      refine (safe_applyTenantSchema slug hb).moved.bind fun _ h'' happlied => ?_
      obtain ⟨⟨hb, hcurrent⟩, happlied⟩ := happlied
      refine ih hb fun slug' hl => ?_
      rcases (hmoved.trans happlied).listed slug' hl with hl | hc
      · rcases hlisted slug' hl with hmem | hc
        · rcases List.mem_cons.mp hmem with rfl | hmem
          · exact .inr hcurrent
          · exact .inl hmem
        · exact .inr ((hmoved.trans happlied).current slug' hc)
      · exact .inr hc

/-- Both schemas are those of this build when the start-up is over, the tenants' in every database
of the directory. -/
theorem safe_startUp (hb : h.Bound cfg) :
    (Ledger.startUp schemas cfg).Safe (Provides cfg schemas) (Provides cfg schemas)
      (fun _ h' => h'.ControlCurrent cfg schemas ∧
        ∀ slug, h'.Listed cfg slug → h'.Current schemas slug) h := by
  refine Prog.Safe.bind (Q := fun ledger h' => h'.Bound cfg ∧ ledger = cfg.ledger) ?_
    fun ledger h' hledger => ?_
  · refine (safe_connectTo hremote cfg.ns cfg.database hb).bind fun conn h' hconn => ?_
    obtain ⟨hb, rfl⟩ := hconn
    exact Prog.safe_pure ⟨hb, rfl⟩
  obtain ⟨hb, rfl⟩ := hledger
  refine (safe_applyControlSchema hb).bind fun _ h' happlied => ?_
  obtain ⟨hb, hcontrol⟩ := happlied
  refine Prog.Safe.bind (Q := fun _ h' => (∀ slug, h'.Listed cfg slug → h'.Current schemas slug) ∧
    h'.ControlCurrent cfg schemas) ?_ fun _ h' hdone => Prog.safe_pure hdone.symm
  refine Prog.Safe.bind (Q := fun slugs h' => (h'.Bound cfg ∧ h'.ControlCurrent cfg schemas) ∧
    ∀ slug, h'.Listed cfg slug → slug ∈ slugs) ?_ fun slugs h' hlisted => ?_
  · refine Prog.safe_exec fun h' slugs h'' hrely haccept => ?_
    cases haccept
    refine ⟨.refl _, ⟨hrely.bound hb, hrely.control hcontrol⟩, fun slug hl => ?_⟩
    obtain ⟨d, hd, rfl⟩ := hl
    exact List.mem_map.mpr ⟨d, hd, rfl⟩
  · obtain ⟨⟨hb, hcontrol⟩, hlisted⟩ := hlisted
    refine (safe_migrateTenants hremote slugs hb fun slug hl => .inl (hlisted slug hl)).moved.imp
      fun _ h'' hdone => ⟨hdone.1, hdone.2.control hcontrol⟩

theorem clientProgram_safe (call : ClientCall) (hb : h.Bound cfg) :
    (clientProgram schemas cfg.ledger call).Safe (Provides cfg schemas) (Provides cfg schemas)
      (fun _ _ => True) h := by
  have hanswer : ∀ {α : Type} {p : HostProg α} (answer : α → ClientAnswer),
      p.Safe (Provides cfg schemas) (Provides cfg schemas) (fun _ _ => True) h →
      (p >>= fun value => pure (answer value)).Safe (Provides cfg schemas) (Provides cfg schemas)
        (fun _ _ => True) h :=
    fun answer hp => hp.bind fun value h' _ => Prog.safe_pure trivial
  cases call with
  | createTenant init => exact hanswer _ (safe_createTenant hremote init hb)
  | tenantSettings slug => exact hanswer _ (safe_tenantSettings hremote slug hb)
  | updateSettings slug patch => exact hanswer _ (safe_updateSettings hremote slug patch hb)
  | addContribution slug input => exact hanswer _ (safe_onTenant hremote slug _ _ hb)
  | listContributions slug email period => exact hanswer _ (safe_readTenant hremote slug _ hb)
  | listPoolContributions slug period => exact hanswer _ (safe_readTenant hremote slug _ hb)
  | listActivePeriods slug => exact hanswer _ (safe_readTenant hremote slug _ hb)
  | accumulationPoints slug => exact hanswer _ (safe_readTenant hremote slug _ hb)
  | periodSummary slug email period =>
      exact hanswer _ (safe_periodSummary hremote slug email period hb)
  | getCarryForward slug => exact hanswer _ (safe_readTenant hremote slug _ hb)
  | setCarryForward slug input => exact hanswer _ (safe_setCarryForward hremote slug input hb)

omit hremote [Platform] in
theorem provides_event (event : HostEvent) (h : Host) :
    Provides cfg schemas h (h.event cfg.ledger event) := by
  cases event with
  | clock now => exact ⟨id, fun _ => id, id, fun _ => .inl⟩
  | control w => exact .of_rows (w.directory _) id id

/-- What every run keeps that starts on `h`. -/
structure ClientSound (cfg : SurrealConfig) (schemas : Schemas) (h : Host) (s : ClientPool) :
    Prop where
  guarded : Pool.Guarded (Provides cfg schemas) (fun _ => Provides cfg schemas)
    (fun _ _ _ => True) s
  bound : s.store.Bound cfg
  provides : Provides cfg schemas h s.store

theorem ClientSound.step {s : ClientPool} (hs : ClientSound cfg schemas h s) (a : ClientAction) :
    ClientSound cfg schemas h (Pool.step (client schemas cfg.ledger) a s) := by
  have hstep : Provides cfg schemas s.store (Pool.step (client schemas cfg.ledger) a s).store :=
    hs.guarded.rely (fun _ _ _ h => h) provides_event
  have hprogram : ∀ call, (clientProgram schemas cfg.ledger call).Safe (Provides cfg schemas)
      (Provides cfg schemas) (fun _ _ => True) s.store :=
    fun call => clientProgram_safe hremote call hs.bound
  exact
    { guarded := hs.guarded.step (fun _ _ _ h => h) provides_event fun _ call _ => hprogram call
      bound := hstep.bound hs.bound
      provides := hs.provides.trans hstep }

/-- From the start-up on, the control plane and every tenant of the directory have the schema of
this build, at every point of every run, whatever schemas the start-up found. -/
theorem tenants_stay_migrated (schemas : Schemas) (actions : List ClientAction) (start : Host)
    (hfresh : ∀ slug, start.tenants slug = none) :
    ∃ h, (Ledger.startUp schemas cfg).run start = (.ok cfg.ledger, h) ∧
      (clientRun schemas cfg.ledger actions h).store.ControlCurrent cfg schemas ∧
      ∀ slug, (clientRun schemas cfg.ledger actions h).store.Listed cfg slug →
        (clientRun schemas cfg.ledger actions h).store.Current schemas slug := by
  have hbound : start.Bound cfg := bound_of_fresh hfresh
  obtain ⟨ledger, h, hrun, rfl, hb, -⟩ := (silent_startUp hremote schemas).run hbound
  obtain ⟨hcontrol, hcurrent⟩ := (safe_startUp hremote hbound).run hrun
  have hsound : ClientSound cfg schemas h (clientRun schemas cfg.ledger actions h) :=
    Trace.exec_invariant (fun a s hs => hs.step hremote a) actions
      ⟨Pool.guarded_idle h, hb, .refl h⟩
  refine ⟨h, hrun, hsound.provides.control hcontrol, fun slug hl => ?_⟩
  rcases hsound.provides.listed slug hl with hl | hc
  · exact hsound.provides.current slug (hcurrent slug hl)
  · exact hc

end Schemas

end Calls

/-! ## A server of an older build -/

section Sample

attribute [local instance] Platform.sample

/-- The configuration the repository gives as an example. -/
def exampleConfig : SurrealConfig where
  endpoint := "ws://127.0.0.1:8000"
  ns := "sharam"
  database := "main"
  username := "root"
  password := "root"

/-- One tenant, with the schema of an older build. -/
def olderHost : Host where
  now := juneNoon
  stores := fun _ ns _ =>
    { control := match Control.empty.registerTenant (sampleTenant 10000) juneNoon with
        | .ok (_, c) => c
        | .error _ => .empty
      tenant := { Namespace.empty with settings := some (sampleSettings 10000) }
      controlSchema := some "control of May"
      tenantSchema := if ns = "pool" then some "tenant of May" else none }
  opened := 0
  tenants := fun _ => none
  refusal := "Not enough permissions to perform this action"

def juneSchemas : Schemas := ⟨"control of June", "tenant of June"⟩

/-- Two members of the pool read its settings at a time, and the second read fails. -/
def settingsReads : List ClientAction :=
  [.start 0 (.tenantSettings poolSlug), .start 1 (.tenantSettings poolSlug), .advance 0,
    .advance 1, .advance 0, .fail 1 (.db "connection lost"), .advance 0]

theorem pool_read :
    ∃ h, (Ledger.startUp juneSchemas exampleConfig).run olderHost = (.ok exampleConfig.ledger, h) ∧
      (clientRun juneSchemas exampleConfig.ledger settingsReads h).store.Bound exampleConfig ∧
      ∃ actions', actions'.Sublist settingsReads ∧
        (clientRun juneSchemas exampleConfig.ledger settingsReads h).store.abstract exampleConfig =
          (ledgerRun actions' (olderHost.abstract exampleConfig)).store ∧
        ∀ key call answer,
          (clientRun juneSchemas exampleConfig.ledger settingsReads h).Returned key call answer →
            (ledgerRun actions' (olderHost.abstract exampleConfig)).Returned key call answer :=
  client_refines_ledger (by decide) juneSchemas settingsReads olderHost fun _ => rfl

theorem pool_migrated :
    ∃ h, (Ledger.startUp juneSchemas exampleConfig).run olderHost = (.ok exampleConfig.ledger, h) ∧
      (clientRun juneSchemas exampleConfig.ledger settingsReads h).store.ControlCurrent
        exampleConfig juneSchemas ∧
      ∀ slug, (clientRun juneSchemas exampleConfig.ledger settingsReads h).store.Listed
          exampleConfig slug →
        (clientRun juneSchemas exampleConfig.ledger settingsReads h).store.Current juneSchemas
          slug :=
  tenants_stay_migrated (by decide) juneSchemas settingsReads olderHost fun _ => rfl

end Sample

end SharamLedger
