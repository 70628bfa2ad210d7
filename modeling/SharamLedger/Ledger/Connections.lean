import SharamLedger.Ledger.Founding
import SharamLedger.Lib.Refine

/-!
# Connections of the ledger client

Below the calls: `Ledger::connect` and the start-up of the gateway, `connect_to`, and `tenant_db`
with its cache of one connection for each tenant. A call takes its connection from the cache or
opens it, and sends its statements there. `abstract` forgets connections and schemas, and every
call refines the one of the ledger model, with any number of them in flight.
-/

namespace SharamLedger

open Lib

/-! ## Databases and connections -/

/-- `common::config::SurrealConfig`. -/
structure SurrealConfig where
  endpoint : String
  ns : String
  database : String
  username : String
  password : String
  deriving DecidableEq, Repr

/-- The credentials of a sign-in. -/
structure Root where
  username : String
  password : String
  deriving DecidableEq, Repr

/-- `CONTROL_SCHEMA` and `TENANT_SCHEMA` of the build. -/
structure Schemas where
  control : String
  tenant : String

/-- One database. The tables of the control plane and those of a tenant differ in name: one
database has room for both. Of each schema, the text that was last applied. -/
structure Database where
  control : Control
  tenant : Namespace
  controlSchema : Option String
  tenantSchema : Option String

/-- A connection: the datastore it leads to, who signed in on it, and the database it uses. -/
structure Conn where
  store : Nat
  signedIn : Option Root
  ns : String
  db : String
  deriving DecidableEq, Repr

/-- The datastores, and the cache of the client. Number 0 is the server behind the endpoint. An
embedded engine opens another datastore for each connection. -/
structure Host where
  now : DateTime
  stores : Nat → String → String → Database
  opened : Nat
  tenants : String → Option Conn
  /-- What the server answers a connection on which nobody signed in. -/
  refusal : String

/-- `Ledger`: what all its clones share beside the cache. -/
structure Ledger where
  cfg : SurrealConfig
  control : Conn
  deriving DecidableEq, Repr

abbrev HostProg := Prog Host LedgerError

namespace Host

/-- The database a connection uses. -/
def database (h : Host) (conn : Conn) : Database := h.stores conn.store conn.ns conn.db

def setDatabase (h : Host) (conn : Conn) (d : Database) : Host :=
  { h with stores := fun n ns db =>
      if n = conn.store ∧ ns = conn.ns ∧ db = conn.db then d else h.stores n ns db }

/-- Cache the connection of a tenant. -/
def setTenant (h : Host) (slug : String) (conn : Conn) : Host :=
  { h with tenants := fun slug' => if slug' = slug then some conn else h.tenants slug' }

end Host

/-- A server answers those who signed in. An embedded engine has no users. -/
def Conn.permitted (conn : Conn) : Bool := conn.store != 0 || conn.signedIn.isSome

variable {α : Type}

/-- A `SELECT` on a connection. -/
def readConn (conn : Conn) (f : Database → α) : HostProg α :=
  .exec fun h => if conn.permitted then .ok (f (h.database conn), h) else .error (.db h.refusal)

/-- A writing statement on a connection. A failed statement changes nothing. -/
def onConn (conn : Conn) (onError : DbError → LedgerError)
    (f : DateTime → Database → Except DbError (α × Database)) : HostProg α :=
  .exec fun h =>
    if conn.permitted then
      match f h.now (h.database conn) with
      | .ok (a, d) => .ok (a, h.setDatabase conn d)
      | .error e => .error (onError e)
    else .error (.db h.refusal)

/-- A statement on the tables of the control plane. -/
def Database.onControl (f : DateTime → Control → Except DbError (α × Control)) (now : DateTime)
    (d : Database) : Except DbError (α × Database) :=
  (f now d.control).map fun answer => (answer.1, { d with control := answer.2 })

/-- A statement on the tables of a tenant. -/
def Database.onTenant (f : DateTime → Namespace → Except DbError (α × Namespace)) (now : DateTime)
    (d : Database) : Except DbError (α × Database) :=
  (f now d.tenant).map fun answer => (answer.1, { d with tenant := answer.2 })

/-! ## Connecting -/

/-- `endpoint_needs_auth`: the schemes of a server. -/
def endpointNeedsAuth (endpoint : String) : Bool :=
  Text.startsWith endpoint "ws://" || Text.startsWith endpoint "wss://" ||
    Text.startsWith endpoint "http://" || Text.startsWith endpoint "https://"

/-- `any::connect`. -/
def connectAny (endpoint : String) : HostProg Conn :=
  .exec fun h =>
    if endpointNeedsAuth endpoint then .ok (⟨0, none, "", ""⟩, h)
    else .ok (⟨h.opened + 1, none, "", ""⟩, { h with opened := h.opened + 1 })

def signin (root : Root) (conn : Conn) : HostProg Conn :=
  .read fun _ => { conn with signedIn := some root }

def useNsDb (ns db : String) (conn : Conn) : HostProg Conn := .read fun _ => { conn with ns, db }

/-- `connect_to`. Wrong credentials are a query that fails. -/
def connectTo (cfg : SurrealConfig) (ns db : String) : HostProg Conn := do
  let conn ← connectAny cfg.endpoint
  -- embedded engines start with no auth configured
  let conn ← if endpointNeedsAuth cfg.endpoint then signin ⟨cfg.username, cfg.password⟩ conn
    else pure conn
  useNsDb ns db conn

namespace Ledger

/-- The connection of a tenant, from the cache or a new one that is cached. `tenant_db`, and a step
of `migrate_all_tenants`. -/
def tenantConn (ledger : Ledger) (slug : String) : HostProg Conn := do
  let cached ← .read fun h => h.tenants slug
  match cached with
  | some conn => return conn
  | none =>
      -- the lock on the cache is free while the connection is opened
      let conn ← connectTo ledger.cfg slug "main"
      Prog.exec fun h => .ok (conn, h.setTenant slug conn)

/-- `tenant_db`. -/
def tenantDb (ledger : Ledger) (slug : TenantSlug) : HostProg Conn := ledger.tenantConn slug.val

/-! ## Start-up -/

def connect (cfg : SurrealConfig) : HostProg Ledger := do
  let control ← connectTo cfg cfg.ns cfg.database
  return ⟨cfg, control⟩

section Schemas

variable [Platform] (schemas : Schemas)

/-- Every `DEFINE` of a schema overwrites the last one and leaves the rows alone. -/
def applyControlSchema (ledger : Ledger) : HostProg Unit :=
  onConn ledger.control DbError.plain fun _ d =>
    .ok ((), { d with controlSchema := some schemas.control })

def applyTenantSchema (conn : Conn) : HostProg Unit :=
  onConn conn DbError.plain fun _ d => .ok ((), { d with tenantSchema := some schemas.tenant })

def migrateTenants (ledger : Ledger) : List String → HostProg Unit
  | [] => return
  | slug :: slugs => do
      let conn ← ledger.tenantConn slug
      applyTenantSchema schemas conn
      ledger.migrateTenants slugs

def migrateAllTenants (ledger : Ledger) : HostProg Unit := do
  let slugs ← readConn ledger.control fun d => d.control.tenantDirectory.rows.map (·.row.slug)
  ledger.migrateTenants schemas slugs

/-- The ledger part of `main`: what comes before the first request. -/
def startUp (cfg : SurrealConfig) : HostProg Ledger := do
  let ledger ← connect cfg
  ledger.applyControlSchema schemas
  ledger.migrateAllTenants schemas
  return ledger

end Schemas

/-! ## Calls -/

/-- A `SELECT` in the database of a tenant. -/
def readTenant (ledger : Ledger) (slug : TenantSlug) (f : Namespace → α) : HostProg α := do
  let tenant ← ledger.tenantDb slug
  readConn tenant fun d => f d.tenant

/-- A writing statement in the database of a tenant. -/
def onTenant (ledger : Ledger) (slug : TenantSlug) (onError : DbError → LedgerError)
    (f : DateTime → Namespace → Except DbError (α × Namespace)) : HostProg α := do
  let tenant ← ledger.tenantDb slug
  onConn tenant onError (Database.onTenant f)

def createTenant [Platform] (schemas : Schemas) (ledger : Ledger) (init : NewTenant) :
    HostProg Unit := do
  let existing ← readConn ledger.control fun d => d.control.directoryEntry init.slug.val
  if existing.isSome then .err (.tenantExists init.slug.val)
  else
    -- always a connection of its own, whatever the cache holds
    let tenant ← connectTo ledger.cfg init.slug.val "main"
    applyTenantSchema schemas tenant
    onConn tenant DbError.plain (Database.onTenant (Namespace.createSettings init))
    Prog.exec fun h => .ok ((), h.setTenant init.slug.val tenant)
    onConn ledger.control DbError.plain (Database.onControl (Control.registerTenant init))

def tenantSettings (ledger : Ledger) (slug : TenantSlug) : HostProg TenantSettings := do
  let s ← ledger.readTenant slug fun ns => ns.settings
  .okOr .notFound (s.map (·.toTenantSettings))

def updateSettings [Platform] (ledger : Ledger) (slug : TenantSlug) (patch : UpdateSettings) :
    HostProg TenantSettings := do
  let tenant ← ledger.tenantDb slug
  if patch.isEmpty then ledger.tenantSettings slug
  else
    let row ← onConn tenant mapDbError (Database.onTenant (Namespace.patchSettings patch))
    .okOr .notFound (row.map (·.toTenantSettings))

def addContribution [Platform] (ledger : Ledger) (slug : TenantSlug) (input : NewContribution) :
    HostProg ContributionRecord :=
  ledger.onTenant slug mapDbError (Namespace.addContribution input)

def listContributions (ledger : Ledger) (slug : TenantSlug) (email period : String) :
    HostProg (List ContributionRecord) :=
  ledger.readTenant slug fun ns =>
    oldestFirst (ns.contribution.select fun r => r.row.userEmail == email && r.row.period == period)

def listPoolContributions (ledger : Ledger) (slug : TenantSlug) (period : String) :
    HostProg (List ContributionRecord) :=
  ledger.readTenant slug fun ns =>
    oldestFirst (ns.contribution.select fun r => r.row.period == period)

def listActivePeriods (ledger : Ledger) (slug : TenantSlug) : HostProg (List String) :=
  ledger.readTenant slug fun ns =>
    ((ns.contribution.rows.map fun r => r.row.period).dedup.insertionSort (· ≤ ·)).reverse

def accumulationPoints (ledger : Ledger) (slug : TenantSlug) :
    HostProg (List AccumulationPoint) :=
  ledger.readTenant slug fun ns =>
    (oldestFirst (ns.contribution.select fun r => r.row.status != "rejected")).map fun r =>
      { submittedAt := r.row.submittedAt, amountCents := r.row.amountCents }

def periodSummary (ledger : Ledger) (slug : TenantSlug) (email period : String) :
    HostProg PeriodSummary := do
  let tenant ← ledger.tenantDb slug
  -- the settings are read on a connection that is looked up again
  let settings ← ledger.tenantSettings slug
  let duesCents := settings.duesAmountCents
  let amounts ← readConn tenant fun d => paidAmounts d.tenant.contribution.rows email period
  let paidCents := I64.sum amounts
  return { duesCents, paidCents, remainingCents := max (I64.sub duesCents paidCents) 0 }

def getCarryForward (ledger : Ledger) (slug : TenantSlug) : HostProg (Option CarryForward) :=
  ledger.readTenant slug fun ns => ns.carryForward

def setCarryForward [Platform] (ledger : Ledger) (slug : TenantSlug) (input : NewCarryForward) :
    HostProg CarryForward := do
  let tenant ← ledger.tenantDb slug
  let existing ← readConn tenant fun d => d.tenant.carryForward
  if existing.isSome then .err .carryForwardExists
  else onConn tenant mapDbError (Database.onTenant (Namespace.createCarryForward input))

end Ledger

/-! ## What connections lead to -/

namespace SurrealConfig

/-- The connection to a database of the server. -/
def conn (cfg : SurrealConfig) (ns db : String) : Conn :=
  ⟨0, some ⟨cfg.username, cfg.password⟩, ns, db⟩

/-- The client of the server. -/
def ledger (cfg : SurrealConfig) : Ledger := ⟨cfg, cfg.conn cfg.ns cfg.database⟩

end SurrealConfig

namespace Host

/-- Forget connections and schemas: the state of the ledger model. -/
def abstract (cfg : SurrealConfig) (h : Host) : System where
  now := h.now
  control := (h.stores 0 cfg.ns cfg.database).control
  namespaces := fun slug => (h.stores 0 slug "main").tenant
  proofs := fun _ => none
  outbox := []

/-- Every cached connection is signed in and uses the database of its tenant. -/
def Bound (cfg : SurrealConfig) (h : Host) : Prop :=
  ∀ slug conn, h.tenants slug = some conn → conn = cfg.conn slug "main"

variable {cfg : SurrealConfig} {h : Host}

theorem stores_setDatabase_self (h : Host) (conn : Conn) (d : Database) :
    (h.setDatabase conn d).stores conn.store conn.ns conn.db = d := if_pos ⟨rfl, rfl, rfl⟩

theorem stores_setDatabase_of_ne {conn : Conn} {d : Database} {n : Nat} {ns db : String}
    (hne : ¬(n = conn.store ∧ ns = conn.ns ∧ db = conn.db)) :
    (h.setDatabase conn d).stores n ns db = h.stores n ns db := if_neg hne

/-- What the new database has as the old one had it, every database has as before. -/
theorem field_setDatabase {β : Type} (field : Database → β) {conn : Conn} {d : Database}
    (hfield : field d = field (h.database conn)) (n : Nat) (ns db : String) :
    field ((h.setDatabase conn d).stores n ns db) = field (h.stores n ns db) := by
  by_cases hsame : n = conn.store ∧ ns = conn.ns ∧ db = conn.db
  · obtain ⟨rfl, rfl, rfl⟩ := hsame
    rw [stores_setDatabase_self, hfield]
    rfl
  · rw [stores_setDatabase_of_ne hsame]

/-- What holds of the new database if it held of the old one, holds wherever it held. -/
theorem keeps_setDatabase {P : Database → Prop} {conn : Conn} {d : Database}
    (hkeeps : P (h.database conn) → P d) {n : Nat} {ns db : String} (hP : P (h.stores n ns db)) :
    P ((h.setDatabase conn d).stores n ns db) := by
  by_cases hsame : n = conn.store ∧ ns = conn.ns ∧ db = conn.db
  · obtain ⟨rfl, rfl, rfl⟩ := hsame
    rw [stores_setDatabase_self]
    exact hkeeps hP
  · rwa [stores_setDatabase_of_ne hsame]

/-- A write to the tables of a tenant is one in its namespace. -/
theorem abstract_tenant {slug : String} {d : Database}
    (hcontrol : d.control = (h.database (cfg.conn slug "main")).control) :
    (h.setDatabase (cfg.conn slug "main") d).abstract cfg =
      (h.abstract cfg).setNamespace slug d.tenant := by
  have hnamespaces :
      (fun slug' => ((h.setDatabase (cfg.conn slug "main") d).stores 0 slug' "main").tenant) =
        fun slug' => if slug' = slug then d.tenant else (h.stores 0 slug' "main").tenant := by
    funext slug'
    by_cases hslug : slug' = slug
    · subst hslug
      rw [if_pos rfl]
      exact congrArg Database.tenant (stores_setDatabase_self h (cfg.conn slug' "main") d)
    · rw [if_neg hslug, stores_setDatabase_of_ne fun hsame => hslug hsame.2.1]
  unfold abstract System.setNamespace
  rw [field_setDatabase Database.control hcontrol, hnamespaces]
  rfl

/-- A write to the tables of the control plane is one on the control plane. -/
theorem abstract_control {d : Database}
    (htenant : d.tenant = (h.database cfg.ledger.control).tenant) :
    (h.setDatabase cfg.ledger.control d).abstract cfg =
      { h.abstract cfg with control := d.control } := by
  have hcontrol : (h.setDatabase cfg.ledger.control d).stores 0 cfg.ns cfg.database = d :=
    stores_setDatabase_self h cfg.ledger.control d
  have hnamespaces :
      (fun slug => ((h.setDatabase cfg.ledger.control d).stores 0 slug "main").tenant) =
        fun slug => (h.stores 0 slug "main").tenant :=
    funext fun slug => field_setDatabase Database.tenant htenant 0 slug "main"
  unfold abstract
  rw [hcontrol, hnamespaces]
  rfl

/-- A write that keeps all rows changes nothing. -/
theorem abstract_rows {conn : Conn} {d : Database}
    (hcontrol : d.control = (h.database conn).control)
    (htenant : d.tenant = (h.database conn).tenant) :
    (h.setDatabase conn d).abstract cfg = h.abstract cfg := by
  have hnamespaces : (fun slug => ((h.setDatabase conn d).stores 0 slug "main").tenant) =
      fun slug => (h.stores 0 slug "main").tenant :=
    funext fun slug => field_setDatabase Database.tenant htenant 0 slug "main"
  unfold abstract
  rw [field_setDatabase Database.control hcontrol, hnamespaces]
  rfl

theorem bound_of_fresh (hfresh : ∀ slug, h.tenants slug = none) : h.Bound cfg := by
  intro slug conn hconn
  rw [hfresh slug] at hconn
  cases hconn

theorem Bound.setTenant (hb : h.Bound cfg) (slug : String) :
    (h.setTenant slug (cfg.conn slug "main")).Bound cfg := by
  intro slug' conn hconn
  unfold Host.setTenant at hconn
  by_cases hslug : slug' = slug
  · subst hslug
    exact (Option.some.inj ((if_pos rfl).symm.trans hconn)).symm
  · exact hb slug' conn ((if_neg hslug).symm.trans hconn)

end Host

/-! ## Every call refines that of the ledger model -/

section Refinement

open Host

variable {cfg : SurrealConfig}

theorem refines_readConn {conn : Conn} {f : Database → α} {g : System → α}
    (hconn : conn.permitted = true)
    (hread : ∀ h : Host, f (h.database conn) = g (h.abstract cfg)) :
    (readConn conn f).Refines (abstract cfg) (Bound cfg) (.read g) := by
  refine Prog.refines_query (fun h hb => ?_) (fun h hb => ?_) fun h hb => ?_
  · simpa only [hconn, if_true] using hb
  · simp only [hconn, if_true, id]
  · simp only [hconn, if_true, hread]
    exact Prog.refines_ok _

/-- A statement on the tables of a tenant. -/
theorem refines_onConn_tenant (slug : TenantSlug) (onError : DbError → LedgerError)
    (f : DateTime → Namespace → Except DbError (α × Namespace)) :
    (onConn (cfg.conn slug.val "main") onError (Database.onTenant f)).Refines (abstract cfg)
      (Bound cfg) (onTenant slug onError f) := by
  refine Prog.refines_exec fun h hb => ?_
  have habstract : f (h.abstract cfg).now ((h.abstract cfg).namespaces slug.val) =
      f h.now (h.database (cfg.conn slug.val "main")).tenant := rfl
  have hpermitted : (cfg.conn slug.val "main").permitted = true := rfl
  cases hf : f h.now (h.database (cfg.conn slug.val "main")).tenant with
  | error e =>
      refine .inl ⟨onError e, ?_, ?_⟩
      · simp only [hpermitted, if_true, Database.onTenant, hf, Except.map]
      · simp only [habstract, hf]
  | ok answer =>
      let d := { h.database (cfg.conn slug.val "main") with tenant := answer.2 }
      have hwrite : (h.setDatabase (cfg.conn slug.val "main") d).abstract cfg =
          (h.abstract cfg).setNamespace slug.val answer.2 := abstract_tenant rfl
      refine .inr ⟨answer.1, h.setDatabase (cfg.conn slug.val "main") d, ?_, ?_, hb⟩
      · simp only [hpermitted, if_true, Database.onTenant, hf, Except.map, d]
      · simp only [habstract, hf, hwrite]

/-- A statement on the tables of the control plane. -/
theorem refines_onConn_control (onError : DbError → LedgerError)
    (f : DateTime → Control → Except DbError (α × Control)) :
    (onConn cfg.ledger.control onError (Database.onControl f)).Refines (abstract cfg) (Bound cfg)
      (onControl onError f) := by
  refine Prog.refines_exec fun h hb => ?_
  have habstract : f (h.abstract cfg).now (h.abstract cfg).control =
      f h.now (h.database cfg.ledger.control).control := rfl
  have hpermitted : cfg.ledger.control.permitted = true := rfl
  cases hf : f h.now (h.database cfg.ledger.control).control with
  | error e =>
      refine .inl ⟨onError e, ?_, ?_⟩
      · simp only [hpermitted, if_true, Database.onControl, hf, Except.map]
      · simp only [habstract, hf]
  | ok answer =>
      let d := { h.database cfg.ledger.control with control := answer.2 }
      have hwrite : (h.setDatabase cfg.ledger.control d).abstract cfg =
          { h.abstract cfg with control := answer.2 } := abstract_control rfl
      refine .inr ⟨answer.1, h.setDatabase cfg.ledger.control d, ?_, ?_, hb⟩
      · simp only [hpermitted, if_true, Database.onControl, hf, Except.map, d]
      · simp only [habstract, hf, hwrite]

section Schemas

variable [Platform] (schemas : Schemas)

/-- A schema that is applied changes no row. -/
theorem silent_applyControlSchema : (cfg.ledger.applyControlSchema schemas).Silent (abstract cfg)
    (Bound cfg) fun _ => True := by
  refine Prog.silent_exec fun (h : Host) hb => ⟨(), h.setDatabase cfg.ledger.control
    { h.database cfg.ledger.control with controlSchema := some schemas.control }, rfl, hb, ?_,
    trivial⟩
  exact abstract_rows rfl rfl

theorem silent_applyTenantSchema (ns db : String) :
    (Ledger.applyTenantSchema schemas (cfg.conn ns db)).Silent (abstract cfg) (Bound cfg)
      fun _ => True := by
  refine Prog.silent_exec fun (h : Host) hb => ⟨(), h.setDatabase (cfg.conn ns db)
    { h.database (cfg.conn ns db) with tenantSchema := some schemas.tenant }, rfl, hb, ?_,
    trivial⟩
  exact abstract_rows rfl rfl

end Schemas

variable (hremote : endpointNeedsAuth cfg.endpoint = true)

include hremote

/-- A new connection to the server is signed in. -/
theorem silent_connectTo (ns db : String) :
    (connectTo cfg ns db).Silent (abstract cfg) (Bound cfg) (· = cfg.conn ns db) := by
  unfold connectTo
  refine Prog.Silent.bind (Q := (· = ⟨0, none, "", ""⟩)) ?_ fun conn hconn => ?_
  · exact Prog.silent_exec fun h hb => ⟨_, h, by simp only [hremote, if_true], hb, rfl, rfl⟩
  subst hconn
  rw [if_pos hremote]
  refine Prog.Silent.bind (Q := (· = ⟨0, some ⟨cfg.username, cfg.password⟩, "", ""⟩))
    (Prog.silent_read fun _ _ => rfl) fun conn hconn => ?_
  subst hconn
  exact Prog.silent_read fun _ _ => rfl

theorem silent_tenantConn (slug : String) :
    (cfg.ledger.tenantConn slug).Silent (abstract cfg) (Bound cfg) (· = cfg.conn slug "main") := by
  have hlookup : (Prog.read fun h : Host => h.tenants slug : HostProg (Option Conn)).Silent
      (abstract cfg) (Bound cfg) fun cached => ∀ conn, cached = some conn →
        conn = cfg.conn slug "main" := Prog.silent_read fun h hb conn => hb slug conn
  refine Prog.Silent.bind hlookup fun cached hcached => ?_
  cases cached with
  | some conn => exact Prog.silent_ok (hcached conn rfl)
  | none =>
      refine Prog.Silent.bind (silent_connectTo hremote slug "main") fun conn hconn => ?_
      subst hconn
      exact Prog.silent_exec fun h hb => ⟨_, _, rfl, hb.setTenant slug, rfl, rfl⟩

/-- A read in the database of a tenant. -/
theorem refines_readTenant (slug : TenantSlug) (f : Namespace → α) :
    (cfg.ledger.readTenant slug f).Refines (abstract cfg) (Bound cfg) (readTenant slug f) := by
  refine (silent_tenantConn hremote slug.val).refines fun conn hconn => ?_
  subst hconn
  exact refines_readConn rfl fun h => rfl

theorem refines_onTenant (slug : TenantSlug) (onError : DbError → LedgerError)
    (f : DateTime → Namespace → Except DbError (α × Namespace)) :
    (cfg.ledger.onTenant slug onError f).Refines (abstract cfg) (Bound cfg)
      (onTenant slug onError f) := by
  refine (silent_tenantConn hremote slug.val).refines fun conn hconn => ?_
  subst hconn
  exact refines_onConn_tenant slug onError f

theorem refines_tenantSettings (slug : TenantSlug) :
    (cfg.ledger.tenantSettings slug).Refines (abstract cfg) (Bound cfg) (tenantSettings slug) :=
  (refines_readTenant hremote slug _).bind fun _ => Prog.refines_okOr _ _

theorem refines_updateSettings [Platform] (slug : TenantSlug) (patch : UpdateSettings) :
    (cfg.ledger.updateSettings slug patch).Refines (abstract cfg) (Bound cfg)
      (updateSettings slug patch) := by
  refine (silent_tenantConn hremote slug.val).refines fun conn hconn => ?_
  subst hconn
  unfold updateSettings
  split
  · exact refines_tenantSettings hremote slug
  · exact (refines_onConn_tenant slug _ _).bind fun _ => Prog.refines_okOr _ _

theorem refines_periodSummary (slug : TenantSlug) (email period : String) :
    (cfg.ledger.periodSummary slug email period).Refines (abstract cfg) (Bound cfg)
      (periodSummary slug email period) := by
  refine (silent_tenantConn hremote slug.val).refines fun conn hconn => ?_
  subst hconn
  refine (refines_tenantSettings hremote slug).bind fun settings => ?_
  exact (refines_readConn rfl fun h => rfl).bind fun amounts => Prog.refines_pure _

theorem refines_setCarryForward [Platform] (slug : TenantSlug) (input : NewCarryForward) :
    (cfg.ledger.setCarryForward slug input).Refines (abstract cfg) (Bound cfg)
      (setCarryForward slug input) := by
  refine (silent_tenantConn hremote slug.val).refines fun conn hconn => ?_
  subst hconn
  refine Prog.Refines.bind (refines_readConn rfl fun h => rfl) fun existing => ?_
  split
  · exact Prog.refines_err _
  · exact refines_onConn_tenant slug _ _

/-- Behind the lookup: a connection, a schema, and the two statements of the ledger model. -/
theorem refines_createTenant [Platform] (schemas : Schemas) (init : NewTenant) :
    (cfg.ledger.createTenant schemas init).Refines (abstract cfg) (Bound cfg)
      (createTenant init) := by
  refine Prog.Refines.bind (refines_readConn rfl fun h => rfl) fun existing => ?_
  split
  · exact Prog.refines_err _
  refine (silent_connectTo hremote init.slug.val "main").refines fun conn hconn => ?_
  subst hconn
  refine (silent_applyTenantSchema schemas _ _).refines fun _ _ => ?_
  refine Prog.Refines.bind (refines_onConn_tenant init.slug _ _) fun _ => ?_
  refine Prog.Silent.refines (Q := fun _ => True) (Prog.silent_exec fun h hb => ?_) fun _ _ => ?_
  · exact ⟨_, _, rfl, hb.setTenant init.slug.val, rfl, trivial⟩
  · exact refines_onConn_control _ _

/-- Migrating changes no row. -/
theorem silent_migrateTenants [Platform] (schemas : Schemas) (slugs : List String) :
    (cfg.ledger.migrateTenants schemas slugs).Silent (abstract cfg) (Bound cfg) fun _ => True := by
  induction slugs with
  | nil => exact Prog.silent_ok trivial
  | cons slug slugs ih =>
      refine (silent_tenantConn hremote slug).bind fun conn hconn => ?_
      subst hconn
      exact (silent_applyTenantSchema schemas slug "main").bind fun _ _ => ih

/-- The start-up returns the client of the server and changes no row. -/
theorem silent_startUp [Platform] (schemas : Schemas) :
    (Ledger.startUp schemas cfg).Silent (abstract cfg) (Bound cfg) (· = cfg.ledger) := by
  refine Prog.Silent.bind (Q := (· = cfg.ledger)) ?_ fun ledger hledger => ?_
  · refine (silent_connectTo hremote cfg.ns cfg.database).bind fun control hcontrol => ?_
    subst hcontrol
    exact Prog.silent_ok rfl
  subst hledger
  refine (silent_applyControlSchema schemas).bind fun _ _ => ?_
  refine Prog.Silent.bind (Q := fun _ => True) ?_ fun _ _ => Prog.silent_ok rfl
  refine Prog.Silent.bind (Q := fun _ => True) ?_ fun slugs _ =>
    silent_migrateTenants hremote schemas slugs
  exact Prog.silent_exec fun (h : Host) hb => ⟨_, h, rfl, hb, rfl, trivial⟩

end Refinement

end SharamLedger
