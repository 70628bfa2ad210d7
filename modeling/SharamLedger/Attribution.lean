import SharamLedger.Bookkeeping
import SharamLedger.Overlap
import SharamLedger.Lib.Once

/-!
# What each request in flight adds

Payments, seeds, directory rows and mails are only ever added, and a request adds one of them at
most. With any number of requests in flight, each of these entries can be traced to one request,
which asked for it, and a response that reports an entry reports the one that its own request
added.
-/

namespace SharamLedger

open Lib Overlap

/-- What requests add. A mail is known by its place in the outbox. -/
inductive Entry where
  | payment (slug : String) (r : ContributionRecord)
  | seed (slug : String) (row : CarryForward)
  | tenant (d : TenantDirectoryRecord)
  | mail (position : Nat) (email : InviteEmail)

/-- The entries of a state. -/
def System.entries (s : System) : Entry → Prop
  | .payment slug r => r ∈ (s.namespaces slug).contribution.rows
  | .seed slug row => (s.namespaces slug).carryForward = some row
  | .tenant d => d ∈ s.control.tenantDirectory.rows
  | .mail position email => s.outbox[position]? = some email

namespace Attribution

variable [Platform]

/-- The request is the invite, whether it gets to read the venture's name or not. -/
inductive Invites (slug : String) (headers : Headers) (payload : Extracted CreateInviteRequest) :
    GatewayCall → Prop where
  | named : Invites slug headers payload (.tenant ⟨slug, headers, .createInvite payload⟩)
  | unnamed : Invites slug headers payload (.inviteUnnamed slug headers payload)

/-- The request asks for the entry: the caller is named in it, and what they sent is in it. -/
inductive AskedBy : GatewayCall → Entry → Prop where
  | payment {slug : String} {headers : Headers} {p : PostContributionRequest} {identity : Identity}
      {now : DateTime} {r : ContributionRecord} : authResult headers now = .ok identity →
      r.row.userEmail = identity.email → r.row.amountCents = p.amountCents →
      r.row.note = p.note → r.row.proofKey = p.proofKey →
      AskedBy (.tenant ⟨slug, headers, .postContribution (.ok p)⟩) (.payment slug r)
  | seed {slug : String} {headers : Headers} {p : SetCarryForwardRequest} {identity : Identity}
      {now recorded : DateTime} : authResult headers now = .ok identity →
      AskedBy (.tenant ⟨slug, headers, .setCarryForward (.ok p)⟩)
        (.seed slug ((seedInput identity p).row recorded))
  | tenant {headers : Headers} {p : CreateTenantRequest} {d : TenantDirectoryRecord} :
      d.row.slug = Text.trim p.slug → d.row.displayName = Text.trim p.displayName →
      AskedBy (.createTenant headers (.ok p)) (.tenant d)
  | mail {slug : String} {headers : Headers} {p : CreateInviteRequest} {identity : Identity}
      {now : DateTime} {position : Nat} {email : InviteEmail} {call : GatewayCall} :
      Invites slug headers (.ok p) call → authResult headers now = .ok identity →
      email.invitedByEmail = identity.email → email.toEmail = normalizeEmail p.email →
      email.role = p.role.asStr → email.tenantSlug = slug →
      AskedBy call (.mail position email)

/-- The response of a request that has added the entry, if any: it reports that entry. -/
def Accounts (call : GatewayCall) (added : Option Entry) (answer : GatewayAnswer) : Prop :=
  match call, answer with
  | .createTenant _ _, .created response => ∃ d, added = some (.tenant d) ∧
      d.row.slug = response.slug ∧ d.row.displayName = response.displayName
  | .tenant ⟨slug, _, .postContribution _⟩, .replied (.posted response) =>
      ∃ r, added = some (.payment slug r) ∧ response.contribution = contributionView r
  | .tenant ⟨slug, _, .setCarryForward _⟩, .replied (.seeded response) =>
      ∃ row, added = some (.seed slug row) ∧ response = carryForwardView row
  | .tenant ⟨slug, _, .createInvite _⟩, .replied (.invite response)
  | .inviteUnnamed slug _ _, .replied (.invite response) =>
      ∃ position email, added = some (.mail position email) ∧ email.tenantSlug = slug ∧
        email.role = response.role
  | _, _ => added = none

/-! ## Queries -/

section Queries

omit [Platform]

variable {s : System}

/-- The control plane was written, and the directory stays. -/
theorem same_of_control {c : Control} (h : c.tenantDirectory = s.control.tenantDirectory) :
    Same System.entries s { s with control := c } := by
  intro m
  cases m with
  | payment | seed | mail => rfl
  | tenant d =>
      show d ∈ c.tenantDirectory.rows ↔ _
      rw [h]
      rfl

/-- The settings of a tenant were written. -/
theorem same_of_settings {slug : String} {ns : Namespace}
    (hpayments : ns.contribution = (s.namespaces slug).contribution)
    (hseed : ns.carryForward = (s.namespaces slug).carryForward) :
    Same System.entries s (s.setNamespace slug ns) := by
  intro m
  cases m with
  | tenant | mail => rfl
  | payment slug' r =>
      show r ∈ ((s.setNamespace slug ns).namespaces slug').contribution.rows ↔ _
      rw [System.field_setNamespace Namespace.contribution hpayments slug']
      rfl
  | seed slug' row =>
      show ((s.setNamespace slug ns).namespaces slug').carryForward = some row ↔ _
      rw [System.field_setNamespace Namespace.carryForward hseed slug']
      rfl

/-- A payment was recorded. -/
theorem gains_payment [Platform] {slug : String} {ns : Namespace} {input : NewContribution}
    {r : ContributionRecord}
    (h : (s.namespaces slug).addContribution input s.now = .ok (r, ns)) :
    Gains System.entries (.payment slug r) s (s.setNamespace slug ns) := by
  obtain ⟨-, -, -, -, hcreate, -, hseed⟩ := Namespace.createContribution_ok h
  obtain ⟨hr, -, -⟩ := Table.create_some hcreate
  have hfresh : r ∉ (s.namespaces slug).contribution.rows := by
    intro hmem
    have hlt := (s.namespaces slug).contribution.fresh r hmem
    rw [hr] at hlt
    exact lt_irrefl _ hlt
  refine ⟨hfresh, fun m => ?_⟩
  cases m with
  | tenant | mail => simp [System.entries, System.setNamespace]
  | seed slug' row =>
      show ((s.setNamespace slug ns).namespaces slug').carryForward = some row ↔ _
      rw [System.field_setNamespace Namespace.carryForward hseed slug']
      simp [System.entries]
  | payment slug' x =>
      show x ∈ ((s.setNamespace slug ns).namespaces slug').contribution.rows ↔ _
      by_cases heq : slug' = slug
      · subst heq
        rw [System.namespaces_setNamespace_same, Table.mem_create hcreate]
        simp [System.entries]
      · rw [System.namespaces_setNamespace_of_ne _ _ heq]
        simp [System.entries, heq]

/-- A seed was stored. -/
theorem gains_seed [Platform] {slug : String} {ns : Namespace} {input : NewCarryForward}
    {row : CarryForward}
    (h : (s.namespaces slug).createCarryForward input s.now = .ok (row, ns)) :
    Gains System.entries (.seed slug row) s (s.setNamespace slug ns) := by
  obtain ⟨-, hnone, -, hns⟩ := Namespace.createCarryForward_row h
  have hpayments : ns.contribution = (s.namespaces slug).contribution := by rw [hns]
  refine ⟨fun hold => ?_, fun m => ?_⟩
  · have hold : (s.namespaces slug).carryForward = some row := hold
    rw [hnone] at hold
    cases hold
  cases m with
  | tenant | mail => simp [System.entries, System.setNamespace]
  | payment slug' r =>
      show r ∈ ((s.setNamespace slug ns).namespaces slug').contribution.rows ↔ _
      rw [System.field_setNamespace Namespace.contribution hpayments slug']
      simp [System.entries]
  | seed slug' x =>
      show ((s.setNamespace slug ns).namespaces slug').carryForward = some x ↔ _
      by_cases heq : slug' = slug
      · subst heq
        rw [System.namespaces_setNamespace_same, hns]
        simp [System.entries, hnone, eq_comm]
      · rw [System.namespaces_setNamespace_of_ne _ _ heq]
        simp [System.entries, heq]

/-- A tenant was registered. -/
theorem gains_tenant {init : NewTenant} {u : Unit} {c : Control}
    (h : s.control.registerTenant init s.now = .ok (u, c)) :
    ∃ d, d.row.slug = init.slug.val ∧ d.row.displayName = init.displayName ∧
      Gains System.entries (.tenant d) s { s with control := c } := by
  obtain ⟨d, m, hd, -, hrows, -, -, -, hfree, -⟩ := Control.registerTenant_rows h
  have hslug : d.row.slug = init.slug.val := by rw [hd]
  refine ⟨d, hslug, by rw [hd], fun hmem => ?_, fun x => ?_⟩
  · have hother := Table.find_none hfree d hmem
    simp [hslug] at hother
  · cases x with
    | payment | seed | mail => simp [System.entries]
    | tenant x =>
        show x ∈ c.tenantDirectory.rows ↔ _
        rw [hrows]
        simp [System.entries]

/-- A mail was handed to the mailer. -/
theorem gains_mail (email : InviteEmail) :
    Gains System.entries (.mail s.outbox.length email) s
      { s with outbox := s.outbox ++ [email] } := by
  refine ⟨by simp [System.entries], fun m => ?_⟩
  cases m with
  | payment | seed | tenant => simp [System.entries]
  | mail position found =>
      show (s.outbox ++ [email])[position]? = some found ↔
        s.outbox[position]? = some found ∨
          Entry.mail position found = .mail s.outbox.length email
      rw [Entry.mail.injEq]
      rcases lt_trichotomy position s.outbox.length with hlt | rfl | hlt
      · rw [List.getElem?_append_left hlt]
        exact (or_iff_left fun h => hlt.ne h.1).symm
      · simp [eq_comm]
      · have hpast : (s.outbox ++ [email]).length ≤ position := by
          rw [List.length_append]
          exact hlt
        rw [List.getElem?_eq_none hpast, List.getElem?_eq_none hlt.le]
        simp [hlt.ne']

/-- A statement on the control plane, by what it does to the entries. -/
theorem adds_onControl {α : Type} {A : Entry → Prop} {Q : Option Entry → α → Prop}
    {added : Option Entry} {onError : DbError → LedgerError}
    {f : DateTime → Control → Except DbError (α × Control)}
    (h : ∀ s value c, f s.now s.control = .ok (value, c) →
      (Same System.entries s { s with control := c } ∧ Q added value) ∨
      (added = none ∧ ∃ m, A m ∧ Gains System.entries m s { s with control := c } ∧
        Q (some m) value)) :
    (onControl onError f).AddsOnce System.entries A Q added := by
  refine Prog.addsOnce_exec fun s value s' hs => ?_
  cases hf : f s.now s.control with
  | error e => simp [hf] at hs
  | ok answer =>
      simp only [hf, Except.ok.injEq, Prod.mk.injEq] at hs
      obtain ⟨rfl, rfl⟩ := hs
      exact h s answer.1 answer.2 hf

/-- A statement in the namespace of a tenant. -/
theorem adds_onTenant {α : Type} {A : Entry → Prop} {Q : Option Entry → α → Prop}
    {added : Option Entry} {slug : TenantSlug} {onError : DbError → LedgerError}
    {f : DateTime → Namespace → Except DbError (α × Namespace)}
    (h : ∀ s value ns, f s.now (s.namespaces slug.val) = .ok (value, ns) →
      (Same System.entries s (s.setNamespace slug.val ns) ∧ Q added value) ∨
      (added = none ∧ ∃ m, A m ∧ Gains System.entries m s (s.setNamespace slug.val ns) ∧
        Q (some m) value)) :
    (onTenant slug onError f).AddsOnce System.entries A Q added := by
  refine Prog.addsOnce_exec fun s value s' hs => ?_
  cases hf : f s.now (s.namespaces slug.val) with
  | error e => simp [hf] at hs
  | ok answer =>
      simp only [hf, Except.ok.injEq, Prod.mk.injEq] at hs
      obtain ⟨rfl, rfl⟩ := hs
      exact h s answer.1 answer.2 hf

end Queries

/-! ## Requests that add nothing -/

section

-- keeps the checks of the handlers from being evaluated while their steps are matched
attribute [local irreducible] Prog.Moves

theorem moves_acceptOne_entries (user : Nat) (inv : InviteRecord) :
    (acceptOne user inv).Moves (Same System.entries) := by
  refine .bind (moves_onControl fun s r c hset =>
    same_of_control (Control.upsertMembership_ok hset).directory) fun _ => ?_
  split
  · exact Prog.moves_pure _
  · exact .bind (moves_onControl fun s r c hset =>
      same_of_control (Control.updateInvite_directory hset)) fun _ => Prog.moves_pure _

theorem moves_openSession_entries (email : String) (user : UserRecord)
    (name picture : Option String) :
    (openSession email user name picture).Moves (Same System.entries) := by
  have heach : ∀ l : List InviteRecord, (acceptEach user.id l).Moves (Same System.entries) := by
    intro l
    induction l with
    | nil => exact Prog.moves_pure _
    | cons inv rest ih =>
        exact .bind (moves_acceptOne_entries _ inv) fun _ => .bind ih fun _ => Prog.moves_pure _
  refine .bind (Prog.Moves.mapErr (.bind (moves_readControl _) heach) _) fun _ => ?_
  exact .bind (.bind (Prog.moves_read _) fun _ => Prog.moves_lift _) fun _ => Prog.moves_pure _

theorem moves_createPasswordUser_entries (input : RegisterPassword) :
    (createPasswordUser input).Moves (Same System.entries) := by
  refine .bind (moves_readControl _) fun found => ?_
  cases found with
  | none =>
      exact moves_onControl fun s r c hcreate =>
        same_of_control (Control.createPasswordRow_ok hcreate).1.directory
  | some existing =>
      dsimp only
      split
      · exact Prog.moves_err _
      · exact .bind (moves_onControl fun s answer c hattach =>
          same_of_control (Control.attachPassword_directory hattach))
          fun row => Prog.moves_okOr _ row

theorem moves_handleAuth_entries (request : AuthRequest) :
    (handleAuth request).Moves (Same System.entries) := by
  cases request with
  | google payload =>
      refine .bind (Prog.moves_lift _) fun p => ?_
      refine .bind (Prog.moves_read _) fun verified => ?_
      refine .bind (Prog.moves_lift _) fun claims => ?_
      refine .bind (Prog.Moves.mapErr (moves_onControl fun s r c hput =>
        same_of_control (Control.upsertUserRow_ok hput).1.directory) _) fun user => ?_
      exact moves_openSession_entries _ _ _ _
  | register salt payload =>
      refine .bind (Prog.moves_lift _) fun p => ?_
      refine .bind (Prog.moves_ensure _ _) fun _ => ?_
      refine .bind (Prog.moves_ensure _ _) fun _ => ?_
      refine .bind (Prog.moves_lift _) fun hash => ?_
      refine .bind ((moves_createPasswordUser_entries _).mapErr _) fun user => ?_
      exact moves_openSession_entries _ _ _ _
  | login payload =>
      refine .bind (Prog.moves_lift _) fun p => ?_
      refine .bind (Prog.moves_ensure _ _) fun _ => ?_
      refine .bind (moves_ledgerRead (moves_readControl _)) fun row => ?_
      refine .bind (Prog.moves_okOr _ _) fun user => ?_
      refine .bind (Prog.moves_okOr _ _) fun hash => ?_
      refine .bind (Prog.moves_ensure _ _) fun _ => ?_
      exact moves_openSession_entries _ _ _ _

theorem moves_patchSettings_entries (slug : String) (headers : Headers)
    (payload : Extracted PatchSettingsRequest) :
    (patchSettings slug headers payload).Moves (Same System.entries) := by
  refine .bind (Prog.moves_lift _) fun p => ?_
  refine .bind (moves_authenticate headers) fun identity => ?_
  refine .bind (Prog.moves_lift _) fun tenantSlug => ?_
  refine .bind (moves_callerRole _ _) fun role => ?_
  refine .bind (moves_ensureOwner role) fun _ => ?_
  refine .bind (Prog.moves_lift _) fun _ => ?_
  refine .bind (Prog.Moves.mapErr ?_ _) fun _ => Prog.moves_read _
  unfold updateSettings
  split
  · exact moves_tenantSettings _
  · refine .bind (moves_onTenant fun s row ns hpatch => ?_) fun _ => Prog.moves_okOr _ _
    rcases Namespace.patchSettings_ok hpatch with ⟨-, -, rfl⟩ | ⟨old, -, -, -, rfl⟩ <;>
      exact same_of_settings rfl rfl

theorem moves_revokeInviteHandler_entries (slug key : String) (headers : Headers) :
    (revokeInviteHandler slug key headers).Moves (Same System.entries) := by
  refine .bind (Prog.moves_lift _) fun _ => ?_
  refine .bind (Prog.moves_ensure _ _) fun _ => ?_
  refine .bind (moves_requireOwner headers slug) fun _ => ?_
  refine .bind (Prog.Moves.mapErr ?_ _) fun _ => Prog.moves_pure _
  exact .bind (moves_onControl fun s row c hrevoke =>
    same_of_control (Control.updateInvite_directory hrevoke)) fun _ => Prog.moves_okOr _ _

theorem moves_deleteInvitePermanent_entries (slug key : String) (headers : Headers) :
    (deleteInvitePermanent slug key headers).Moves (Same System.entries) := by
  refine .bind (Prog.moves_lift _) fun _ => ?_
  refine .bind (Prog.moves_ensure _ _) fun _ => ?_
  refine .bind (moves_requireOwner headers slug) fun _ => Prog.Moves.mapErr ?_ _
  refine .bind (moves_onControl fun s rows c hdelete => ?_) fun _ => Prog.moves_ensure _ _
  obtain ⟨-, rfl⟩ := Prod.mk.inj (Except.ok.inj hdelete)
  exact same_of_control rfl

theorem moves_postProof_entries (slug uuid : String) (headers : Headers)
    (body : Extracted (List UInt8)) :
    (postProof slug uuid headers body).Moves (Same System.entries) := by
  refine .bind (Prog.moves_lift _) fun bytes => ?_
  refine moves_asMember fun identity tenantSlug isMember => ?_
  refine .bind (Prog.moves_ensure _ _) fun _ => ?_
  refine .bind (Prog.moves_okOr _ _) fun ext => ?_
  refine .bind (Prog.moves_exec fun s key s' hput => ?_) fun _ => Prog.moves_pure _
  split at hput
  · obtain ⟨-, rfl⟩ := Prod.mk.inj (Except.ok.inj hput)
    exact fun m => by cases m <;> rfl
  · cases hput

end

/-! ## Requests that add an entry -/

section

-- keeps the checks of the handlers from being evaluated while their steps are matched
attribute [local irreducible] Prog.AddsOnce Prog.Moves

/-- The caller that a handler goes on with is the one of the token. -/
theorem adds_authenticate {A : Entry → Prop} (headers : Headers) :
    (authenticate headers).AddsOnce System.entries A
      (fun added identity => added = none ∧ ∃ now, authResult headers now = .ok identity) none := by
  unfold authenticate
  cases hbearer : extractBearer headers with
  | none => exact .bind (Q := fun _ _ => False) (Prog.addsOnce_okOr fun _ h => by cases h) (by simp)
  | some token =>
      refine .bind (Q := fun added found => added = none ∧ found = token)
        (Prog.addsOnce_okOr fun _ h => ⟨rfl, (Option.some.inj h).symm⟩) fun added found h => ?_
      obtain ⟨rfl, rfl⟩ := h
      refine .bind (Q := fun added result => added = none ∧ ∃ now, result = verifySession now found)
        (Prog.addsOnce_read fun s => ⟨rfl, s.now, rfl⟩) fun added result h => ?_
      obtain ⟨rfl, now, rfl⟩ := h
      refine Prog.addsOnce_lift fun identity hidentity => ⟨rfl, now, ?_⟩
      rw [authResult, hbearer]
      exact hidentity

theorem adds_postContribution (slug : String) (headers : Headers)
    (payload : Extracted PostContributionRequest) :
    (postContribution slug headers payload).AddsOnce System.entries
      (AskedBy (.tenant ⟨slug, headers, .postContribution payload⟩))
      (fun added response => ∃ r, added = some (.payment slug r) ∧
        response.contribution = contributionView r) none := by
  refine .bind (Q := fun added p => added = none ∧ payload = .ok p)
    (Prog.addsOnce_lift fun _ hp => ⟨rfl, hp⟩) fun added p h => ?_
  obtain ⟨rfl, rfl⟩ := h
  refine (adds_authenticate headers).bind fun added identity h => ?_
  obtain ⟨rfl, now, hauth⟩ := h
  refine .bind (Q := fun added tenantSlug => added = none ∧ tenantSlug.val = slug)
    (Prog.addsOnce_lift fun _ hslug => ⟨rfl, tenantSlugOf_ok hslug⟩) fun added tenantSlug h => ?_
  obtain ⟨rfl, rfl⟩ := h
  refine (moves_callerIsMember _ _).addsOnce.bind fun added isMember h => ?_
  obtain rfl := h
  refine (Prog.moves_ensure _ _).addsOnce.bind fun added _ h => ?_
  obtain rfl := h
  refine (Prog.moves_ensure _ _).addsOnce.bind fun added _ h => ?_
  obtain rfl := h
  refine (Prog.moves_ensure _ _).addsOnce.bind fun added _ h => ?_
  obtain rfl := h
  refine (moves_ledgerRead (moves_tenantSettings _)).addsOnce.bind fun added settings h => ?_
  obtain rfl := h
  refine (moves_readCurrentPeriod _).addsOnce.bind fun added period h => ?_
  obtain rfl := h
  refine .bind (Q := fun added r => added = some (.payment tenantSlug.val r))
    (Prog.AddsOnce.mapErr (adds_onTenant fun s r ns hadd => ?_) _) fun added r h => ?_
  · obtain ⟨-, hr, -⟩ := Namespace.createContribution_ok hadd
    refine .inr ⟨rfl, _, ?_, gains_payment hadd, rfl⟩
    refine .payment hauth ?_ ?_ ?_ ?_ <;> rw [hr] <;> rfl
  · obtain rfl := h
    refine (moves_ledgerRead (moves_periodSummary _ _ _)).addsOnce.bind fun added summary h => ?_
    obtain rfl := h
    exact Prog.addsOnce_pure ⟨r, rfl, rfl⟩

theorem adds_setCarryForward (slug : String) (headers : Headers)
    (payload : Extracted SetCarryForwardRequest) :
    (setCarryForwardHandler slug headers payload).AddsOnce System.entries
      (AskedBy (.tenant ⟨slug, headers, .setCarryForward payload⟩))
      (fun added response => ∃ row, added = some (.seed slug row) ∧
        response = carryForwardView row) none := by
  refine .bind (Q := fun added p => added = none ∧ payload = .ok p)
    (Prog.addsOnce_lift fun _ hp => ⟨rfl, hp⟩) fun added p h => ?_
  obtain ⟨rfl, rfl⟩ := h
  refine (adds_authenticate headers).bind fun added identity h => ?_
  obtain ⟨rfl, now, hauth⟩ := h
  refine .bind (Q := fun added tenantSlug => added = none ∧ tenantSlug.val = slug)
    (Prog.addsOnce_lift fun _ hslug => ⟨rfl, tenantSlugOf_ok hslug⟩) fun added tenantSlug h => ?_
  obtain ⟨rfl, rfl⟩ := h
  refine (moves_callerRole _ _).addsOnce.bind fun added role h => ?_
  obtain rfl := h
  refine (moves_ensureOwner role).addsOnce.bind fun added _ h => ?_
  obtain rfl := h
  refine (Prog.moves_lift _).addsOnce.bind fun added _ h => ?_
  obtain rfl := h
  refine .bind (Q := fun added row => added = some (.seed tenantSlug.val row))
    (Prog.AddsOnce.mapErr ?_ _) fun added row h => Prog.addsOnce_pure ⟨row, h, rfl⟩
  refine (moves_readTenant _ _).addsOnce.bind fun added existing h => ?_
  obtain rfl := h
  split
  · exact Prog.addsOnce_err _
  · refine adds_onTenant fun s row ns hcreate => .inr ⟨rfl, _, ?_, gains_seed hcreate, rfl⟩
    obtain ⟨rfl, -⟩ := Namespace.createCarryForward_row hcreate
    exact .seed hauth

theorem adds_createTenantHandler (headers : Headers) (payload : Extracted CreateTenantRequest) :
    (createTenantHandler headers payload).AddsOnce System.entries
      (AskedBy (.createTenant headers payload))
      (fun added response => ∃ d, added = some (.tenant d) ∧ d.row.slug = response.slug ∧
        d.row.displayName = response.displayName) none := by
  refine .bind (Q := fun added p => added = none ∧ payload = .ok p)
    (Prog.addsOnce_lift fun _ hp => ⟨rfl, hp⟩) fun added p h => ?_
  obtain ⟨rfl, rfl⟩ := h
  refine (moves_authenticate headers).addsOnce.bind fun added identity h => ?_
  obtain rfl := h
  refine .bind (Q := fun added slug => added = none ∧ slug.val = Text.trim p.slug)
    (Prog.addsOnce_lift fun _ hslug => ⟨rfl, tenantSlugOf_ok hslug⟩) fun added slug h => ?_
  obtain ⟨rfl, hslug⟩ := h
  refine (Prog.moves_ensure _ _).addsOnce.bind fun added _ h => ?_
  obtain rfl := h
  refine (Prog.moves_ensure _ _).addsOnce.bind fun added _ h => ?_
  obtain rfl := h
  refine (moves_ledgerRead (moves_readControl _)).addsOnce.bind fun added found h => ?_
  obtain rfl := h
  refine (Prog.moves_okOr _ _).addsOnce.bind fun added user h => ?_
  obtain rfl := h
  refine .bind (Q := fun added _ => ∃ d, added = some (.tenant d) ∧ d.row.slug = slug.val ∧
      d.row.displayName = Text.trim p.displayName)
    (Prog.AddsOnce.mapErr ?_ _) fun added _ h => Prog.addsOnce_pure h
  refine (moves_readControl _).addsOnce.bind fun added existing h => ?_
  obtain rfl := h
  split
  · exact Prog.addsOnce_err _
  · refine .bind (Q := fun added _ => added = none) (adds_onTenant fun s u ns hsettings =>
      .inl ⟨?_, rfl⟩) fun added _ h => ?_
    · obtain ⟨-, row, -, -, -, rfl⟩ := Namespace.createSettings_ok hsettings
      exact same_of_settings rfl rfl
    · obtain rfl := h
      refine adds_onControl fun s u c hregister => .inr ⟨rfl, ?_⟩
      obtain ⟨d, hd, hname, hgains⟩ := gains_tenant hregister
      exact ⟨.tenant d, .tenant (hd.trans hslug) hname, hgains, d, rfl, hd, hname⟩

/-- The caller that passes as owner is the one of the token. -/
theorem adds_requireOwner {A : Entry → Prop} (headers : Headers) (slug : String) :
    (requireOwner headers slug).AddsOnce System.entries A
      (fun added owner => added = none ∧ ∃ identity now, authResult headers now = .ok identity ∧
        owner.1 = identity.email) none := by
  refine (adds_authenticate headers).bind fun added identity h => ?_
  obtain ⟨rfl, now, hauth⟩ := h
  refine (moves_callerRole _ _).addsOnce.bind fun added role h => ?_
  obtain rfl := h
  refine (moves_ensureOwner role).addsOnce.bind fun added _ h => ?_
  obtain rfl := h
  refine (moves_ledgerRead (moves_readControl _)).addsOnce.bind fun added found h => ?_
  obtain rfl := h
  refine (Prog.moves_okOr _ _).addsOnce.bind fun added user h => ?_
  obtain rfl := h
  exact Prog.addsOnce_pure ⟨rfl, identity, now, hauth, rfl⟩

/-- A new invite and one that is opened again have the role that is asked for. -/
theorem adds_createInvite {A : Entry → Prop} (input : NewInvite) :
    (createInvite input).AddsOnce System.entries A
      (fun added invite => added = none ∧ invite.row.role = input.role) none := by
  refine (moves_readControl _).addsOnce.bind fun added found h => ?_
  obtain rfl := h
  cases found with
  | none =>
      refine adds_onControl fun s r c hcreate => .inl ?_
      obtain ⟨-, -, -, hrole, -, -, -, -, hdirectory, -⟩ := Control.createInviteRow_ok hcreate
      exact ⟨same_of_control hdirectory, rfl, hrole⟩
  | some rec =>
      dsimp only
      split
      · exact Prog.addsOnce_err _
      refine .bind (Q := fun added answer => added = none ∧
          ∀ invite, answer = some invite → invite.row.role = input.role)
        (adds_onControl fun s answer c hset => .inl ?_) fun added answer h => ?_
      · rcases Control.updateInvite_ok hset with ⟨rfl, rfl⟩ | ⟨i, -, -, rfl, hwrote⟩
        · exact ⟨same_of_control rfl, rfl, fun _ h => by cases h⟩
        · refine ⟨same_of_control hwrote.directory, rfl, fun invite h => ?_⟩
          obtain rfl := Option.some.inj h
          rfl
      · obtain ⟨rfl, hrole⟩ := h
        exact Prog.addsOnce_okOr fun invite h => ⟨rfl, hrole invite h⟩

theorem adds_createInviteWith {readName : Handler (Option String)}
    (hread : readName.Moves (Same System.entries)) (slug : String) (headers : Headers)
    (payload : Extracted CreateInviteRequest) {call : GatewayCall}
    (hcall : Invites slug headers payload call) :
    (createInviteWith readName slug headers payload).AddsOnce System.entries (AskedBy call)
      (fun added response => ∃ position email, added = some (.mail position email) ∧
        email.tenantSlug = slug ∧ email.role = response.role) none := by
  refine .bind (Q := fun added p => added = none ∧ payload = .ok p)
    (Prog.addsOnce_lift fun _ hp => ⟨rfl, hp⟩) fun added p h => ?_
  obtain ⟨rfl, rfl⟩ := h
  refine (Prog.moves_lift _).addsOnce.bind fun added tenantSlug h => ?_
  obtain rfl := h
  refine (adds_requireOwner headers slug).bind fun added owner h => ?_
  obtain ⟨rfl, identity, now, hauth, hemail⟩ := h
  obtain ⟨callerEmail, caller⟩ := owner
  refine (Prog.moves_ensure _ _).addsOnce.bind fun added _ h => ?_
  obtain rfl := h
  refine ((adds_createInvite _).mapErr _).bind fun added invite h => ?_
  obtain ⟨rfl, hrole⟩ := h
  refine hread.addsOnce.bind fun added displayName h => ?_
  obtain rfl := h
  refine .bind (Q := fun added _ => ∃ position email, added = some (.mail position email) ∧
      email.tenantSlug = slug ∧ email.role = p.role.asStr)
    (Prog.addsOnce_exec fun s _ s' hsend => .inr ⟨rfl, ?_⟩) fun added _ h => ?_
  · obtain ⟨-, rfl⟩ := Prod.mk.inj (Except.ok.inj hsend)
    exact ⟨_, .mail hcall hauth hemail rfl rfl rfl, gains_mail _, _, _, rfl, rfl, rfl⟩
  · obtain ⟨position, email, rfl, hslug, hasked⟩ := h
    exact Prog.addsOnce_pure ⟨position, email, rfl, hslug, hasked.trans hrole.symm⟩

/-- The reply of a handler accounts for what was added. -/
theorem adds_reply {α : Type} {p : Handler α} {reply : α → TenantReply} {r : TenantRequest}
    {Q : Option Entry → α → Prop}
    (hp : p.AddsOnce System.entries (AskedBy (.tenant r)) Q none)
    (hreply : ∀ added value, Q added value →
      Accounts (.tenant r) added (.replied (reply value))) :
    ((p >>= fun value => pure (reply value)) >>= fun answer => pure (.replied answer) :
      Handler GatewayAnswer).AddsOnce System.entries (AskedBy (.tenant r))
        (Accounts (.tenant r)) none := by
  refine .bind (Q := fun added answer => Accounts (.tenant r) added (.replied answer))
    (hp.bind fun added value h => Prog.addsOnce_pure (hreply added value h))
    fun added answer h => ?_
  exact Prog.addsOnce_pure h

theorem adds_tenant (r : TenantRequest) :
    (gatewayProgram (.tenant r)).AddsOnce System.entries (AskedBy (.tenant r))
      (Accounts (.tenant r)) none := by
  obtain ⟨slug, headers, route⟩ := r
  cases route with
  | postContribution payload =>
      exact adds_reply (adds_postContribution slug headers payload) fun _ _ h => h
  | setCarryForward payload =>
      exact adds_reply (adds_setCarryForward slug headers payload) fun _ _ h => h
  | createInvite payload =>
      exact adds_reply (adds_createInviteWith (moves_ledgerRead (moves_readControl _)) slug headers
        payload .named) fun _ _ h => h
  | patchSettings payload =>
      exact adds_reply (moves_patchSettings_entries slug headers payload).addsOnce fun _ _ h => h
  | revokeInvite key =>
      exact adds_reply (moves_revokeInviteHandler_entries slug key headers).addsOnce
        fun _ _ h => h
  | deleteInvitePermanent key =>
      exact adds_reply (moves_deleteInvitePermanent_entries slug key headers).addsOnce
        fun _ _ h => h
  | postProof uuid body =>
      exact adds_reply (moves_postProof_entries slug uuid headers body).addsOnce fun _ _ h => h
  | myContributions period =>
      exact adds_reply (moves_myContributions slug period headers).addsOnce fun _ _ h => h
  | poolContributions period =>
      exact adds_reply (moves_poolContributions slug period headers).addsOnce fun _ _ h => h
  | activePeriods =>
      exact adds_reply (moves_activePeriods slug headers).addsOnce fun _ _ h => h
  | accumulation bucket =>
      exact adds_reply (moves_accumulation slug bucket headers).addsOnce fun _ _ h => h
  | getSettings => exact adds_reply (moves_getSettings slug headers).addsOnce fun _ _ h => h
  | listInvites => exact adds_reply (moves_listInvites slug headers).addsOnce fun _ _ h => h
  | listMembers => exact adds_reply (moves_listMembers slug headers).addsOnce fun _ _ h => h
  | getCarryForward =>
      exact adds_reply (moves_getCarryForwardHandler slug headers).addsOnce fun _ _ h => h
  | getProofUrl key =>
      exact adds_reply (moves_getProofUrl slug key headers).addsOnce fun _ _ h => h

/-- Every request adds one entry at most, and its response accounts for it. -/
theorem gatewayProgram_adds (call : GatewayCall) :
    (gatewayProgram call).AddsOnce System.entries (AskedBy call) (Accounts call) none := by
  cases call with
  | auth request =>
      refine (moves_handleAuth_entries request).addsOnce.bind fun added response h => ?_
      exact Prog.addsOnce_pure h
  | createTenant headers payload =>
      refine (adds_createTenantHandler headers payload).bind fun added response h => ?_
      exact Prog.addsOnce_pure h
  | tenant r => exact adds_tenant r
  | inviteUnnamed slug headers payload =>
      refine (adds_createInviteWith (Prog.moves_pure none) slug headers payload .unnamed).bind
        fun added response h => ?_
      exact Prog.addsOnce_pure h

end

/-! ## In flight -/

/-- The state that requests in flight lead to from an empty deployment. -/
def inFlight (actions : List (Pool.Action HttpError GatewayCall DateTime)) (now : DateTime) :
    GatewayPool :=
  Trace.exec step actions (.idle (System.empty now))

/-- Every entry was added by one request, and `owned` says by which: it came with a step of the
request, the request asked for it, and what it is told agrees. -/
structure Traced (owned : Nat → Option Entry)
    (actions : List (Pool.Action HttpError GatewayCall DateTime)) (now : DateTime) : Prop where
  covers : ∀ m, (inFlight actions now).store.entries m ↔ ∃ key, owned key = some m
  single : ∀ key key' m, owned key = some m → owned key' = some m → key = key'
  added : ∀ key m, owned key = some m → ∃ x,
    Trace.Takes step actions (.idle (System.empty now)) (.advance key) x ∧
      Gains System.entries m x.store (step (.advance key) x).store
  asked : ∀ key m, owned key = some m →
    ∃ call p, (inFlight actions now).calls key = some (call, p) ∧ AskedBy call m
  answered : ∀ key call answer, (inFlight actions now).Returned key call answer →
    Accounts call (owned key) answer

omit [Platform] in
theorem entries_empty (now : DateTime) (m : Entry) : ¬ (System.empty now).entries m := by
  intro h
  cases m with
  | payment | tenant => cases h
  | seed slug row => cases h
  | mail position email =>
      have h : ([] : List InviteEmail)[position]? = some email := h
      cases h

theorem same_world (now : DateTime) (s : System) :
    Same System.entries s (gateway.world now s) := by
  intro m
  cases m <;> rfl

/-- Whatever requests are in flight, however their queries interleave and whichever of them fail,
each payment, seed, directory row and mail is the work of one request, also at every later
moment. -/
theorem one_request_each (earlier later : List (Pool.Action HttpError GatewayCall DateTime))
    (now : DateTime) :
    ∃ owned owned' : Nat → Option Entry,
      Traced owned earlier now ∧ Traced owned' (earlier ++ later) now ∧
      ∀ key m, owned key = some m → owned' key = some m := by
  have hempty : Pool.Owned System.entries AskedBy Accounts (fun _ => none)
      (.idle (System.empty now) : GatewayPool) := Pool.owned_idle (entries_empty now)
  obtain ⟨owned, hearlier, -, hadded⟩ := hempty.exec same_world gatewayProgram_adds earlier
  obtain ⟨owned', hlater, hstays, hadded'⟩ := hearlier.exec same_world gatewayProgram_adds later
  have hnew : ∀ key m, owned key = some m → ∃ x,
      Trace.Takes step earlier (.idle (System.empty now)) (.advance key) x ∧
        Gains System.entries m x.store (step (.advance key) x).store :=
    fun key m hm => (hadded key m hm).resolve_left nofun
  refine ⟨owned, owned', ⟨hearlier.covers, hearlier.single, hnew, hearlier.asked,
    fun key call _ h => hearlier.threads key call _ h⟩, ?_, hstays⟩
  rw [← Trace.exec_append] at hlater
  refine ⟨hlater.covers, hlater.single, fun key m hm => ?_, hlater.asked,
    fun key call _ h => hlater.threads key call _ h⟩
  rcases hadded' key m hm with hold | ⟨x, htakes, hgains⟩
  · obtain ⟨x, htakes, hgains⟩ := hnew key m hold
    exact ⟨x, htakes.append later, hgains⟩
  · exact ⟨x, htakes.after earlier, hgains⟩

end Attribution

end SharamLedger
