import SharamLedger.PoolAgreement

/-!
# Whose proof a payment carries

Keys of uploads are made by the server, and a payment names a key as a text. The handler of a
payment looks at the prefix of the key only. A proof belongs to the one who paid where every payment
names the key of an upload that its sender made before.
-/

namespace SharamLedger

open Lib

namespace ProofOwners

section Runs

variable [Platform]

/-- The request uploads a proof for the tenant, and the response hands its key to the address. -/
def Mints (slug email key : String) (a : GatewayAction) (s : System) : Prop :=
  ∃ headers uuid body identity response,
    a = .tenant ⟨slug, headers, .postProof uuid body⟩ ∧
    authResult headers s.now = .ok identity ∧ identity.email = email ∧
    ((postProof slug uuid headers body).run s).1 = .ok response ∧ response.proofKey = key

/-- An upload of the run has handed the key to the address. -/
def Minted (actions : List GatewayAction) (now : DateTime) (slug email key : String) : Prop :=
  ∃ a s, Trace.Takes Deployment.step actions (System.empty now) a s ∧ Mints slug email key a s

theorem Minted.append {actions : List GatewayAction} {now : DateTime} {slug email key : String}
    (h : Minted actions now slug email key) (others : List GatewayAction) :
    Minted (actions ++ others) now slug email key := by
  obtain ⟨a, s, htakes, hmints⟩ := h
  exact ⟨a, s, htakes.append others, hmints⟩

/-- Every proof in the books of a tenant was uploaded for it by the one who paid. -/
def Owned (actions : List GatewayAction) (now : DateTime) : Prop :=
  ∀ slug, ∀ r ∈ ((Trace.exec Deployment.step actions
    (System.empty now)).namespaces slug).contribution.rows, ∀ key, r.row.proofKey = some key →
      Minted actions now slug r.row.userEmail key

/-- A payment that passes the checks of the handler on its sender, its amount and its key. -/
structure Sends (a : GatewayAction) (s : System) (slug email : String)
    (p : PostContributionRequest) : Prop where
  request : ∃ headers identity, a = .tenant ⟨slug, headers, .postContribution (.ok p)⟩ ∧
    authResult headers s.now = .ok identity ∧ identity.email = email
  member : (s.control.roleFor email slug).isSome = true
  amount : 0 < p.amountCents
  proof : (p.proofKey.all fun key => Text.startsWith key (proofPrefix slug)) = true

/-- After the earlier requests, a payment names a proof of its sender. -/
def OwnProof (now : DateTime) (earlier : List GatewayAction) (a : GatewayAction) : Prop :=
  ∀ slug email p, Sends a (Trace.exec Deployment.step earlier (System.empty now)) slug email p →
    ∀ key, p.proofKey = some key → Minted earlier now slug email key

/-! ## Where rows come from -/

/-- A key with another prefix is refused. -/
theorem refused_key {slug : String} (headers : Headers) {p : PostContributionRequest}
    (hforeign : (p.proofKey.all fun key => Text.startsWith key (proofPrefix slug)) = false)
    (s : System) : (postContribution slug headers (.ok p)).StopsOr s fun _ _ => False := by
  unfold postContribution
  refine Prog.stopsOr_bind (Prog.run_lift _ s) fun payload hp => ?_
  obtain rfl := Except.ok.inj hp
  refine Prog.stopsOr_bind (run_authenticate headers s) fun identity _ => ?_
  refine Prog.stopsOr_bind (run_tenantSlugOf slug s) fun tenantSlug _ => ?_
  refine Prog.stopsOr_bind (run_callerIsMember identity.email slug s) fun isMember _ => ?_
  refine Prog.stopsOr_bind (Prog.run_ensure isMember notAMember s) fun _ _ => ?_
  refine Prog.stopsOr_bind (Prog.run_ensure _ _ s) fun _ _ => ?_
  refine Prog.stopsOr_bind (Prog.run_ensure _ _ s) fun _ hproof => ?_
  rw [hforeign] at hproof
  cases hproof

/-- A payment appends the row it asks for. -/
theorem row_payment {slug slug' : String} {headers : Headers}
    {payload : Extracted PostContributionRequest} {s s' : System}
    (h : PaymentRecorded slug' headers payload s s')
    (hrun : s' = ((postContribution slug' headers payload).run s).2) {r : ContributionRecord}
    (hr : r ∈ (s'.namespaces slug).contribution.rows) :
    r ∈ (s.namespaces slug).contribution.rows ∨
      ∃ p, Sends (.tenant ⟨slug', headers, .postContribution payload⟩) s slug r.row.userEmail p ∧
        r.row.proofKey = p.proofKey := by
  obtain ⟨p, identity, settings, period, record, ns, rfl, hauth, hmember, hamount, -, -, hadd,
    hs'⟩ := h
  obtain ⟨-, hrow, -, -, hcreate, -, -⟩ := Namespace.createContribution_ok hadd
  cases hproof : p.proofKey.all fun key => Text.startsWith key (proofPrefix slug') with
  | false =>
      -- the request was refused, so there is no new row
      rcases refused_key headers hproof s with ⟨e, he⟩ | hnever
      · rw [hrun, he] at hr
        exact .inl hr
      · exact absurd hnever id
  | true =>
      rw [hs'] at hr
      by_cases hslug : slug = slug'
      · subst hslug
        rw [System.namespaces_setNamespace_same] at hr
        rcases (Table.mem_create hcreate r).mp hr with hold | rfl
        · exact .inl hold
        · rw [hrow]
          exact .inr ⟨p, ⟨⟨headers, identity, rfl, hauth, rfl⟩, hmember, hamount, hproof⟩, rfl⟩
      · rw [System.namespaces_setNamespace_of_ne _ _ hslug] at hr
        exact .inl hr

/-- A row of a tenant was there before, or was paid by the request. -/
theorem row_from (a : GatewayAction) {s : System} {slug : String} {r : ContributionRecord}
    (hr : r ∈ ((Deployment.step a s).namespaces slug).contribution.rows) :
    r ∈ (s.namespaces slug).contribution.rows ∨
      ∃ p, Sends a s slug r.row.userEmail p ∧ r.row.proofKey = p.proofKey := by
  -- all but a payment leave the table as it is
  have hkept : ((Deployment.step a s).namespaces slug).contribution =
      (s.namespaces slug).contribution → r ∈ (s.namespaces slug).contribution.rows :=
    fun hsame => hsame ▸ hr
  cases a with
  | clock now => exact .inl hr
  | auth request =>
      rcases handleAuth_spec request s with ⟨e, he⟩ | ⟨email, u, c, -, hsign⟩
      · exact .inl (hkept (by rw [Deployment.step, he]))
      · exact .inl (hkept (by rw [Deployment.step, hsign.accepts.namespaces]))
  | createTenant headers payload =>
      exact .inl (hkept ((Deployment.moves_createTenantHandler headers payload).run s slug).1)
  | tenant request =>
      obtain ⟨slug', headers, route⟩ := request
      cases Deployment.respond_wrote ⟨slug', headers, route⟩ s with
      | nothing hsame => exact .inl (hkept (congrArg Namespace.contribution (congrFun hsame slug)))
      | payment hroute h =>
          obtain rfl := hroute
          refine row_payment h ?_ hr
          rw [TenantRequest.respond, TenantRequest.handle, Prog.run_bind_pure]
      | settings _ h =>
          obtain ⟨p, identity, row, ns, -, -, -, -, hpatch, hs'⟩ := h
          refine .inl (hkept ?_)
          rw [Deployment.step, hs']
          refine System.field_setNamespace Namespace.contribution ?_ slug
          rcases Namespace.patchSettings_ok hpatch with ⟨-, -, rfl⟩ | ⟨old, -, -, -, rfl⟩ <;> rfl
      | seed _ hcreate hs' =>
          obtain ⟨-, -, rfl⟩ := Namespace.createCarryForward_ok hcreate
          refine .inl (hkept ?_)
          rw [Deployment.step, hs']
          refine System.field_setNamespace Namespace.contribution ?_ slug
          rfl

/-- In a run whose payments name proofs of their senders, every proof in the books was uploaded by
the one who paid. -/
theorem owned_of_ownProof {actions : List GatewayAction} {now : DateTime}
    (hrun : Trace.EachAfter (OwnProof now) actions) : Owned actions now := by
  refine hrun.induction (P := fun done => Owned done now) (fun slug r hr => by cases hr)
    fun earlier a hearlier hown slug r hr key hkey => ?_
  rw [Trace.exec_append] at hr
  rcases row_from a hr with hold | ⟨p, hsends, hproof⟩
  · exact (hearlier slug r hold key hkey).append [a]
  · exact (hown slug _ p hsends key (hproof.symm.trans hkey)).append [a]

end Runs

/-! ## Somebody else's proof -/

section Sample

attribute [local instance] Platform.sample

/-- What the token of a member says. -/
def memberClaims (email : String) : SessionClaims where
  iss := sessionIssuer
  sub := email
  email := email
  name := none
  picture := none
  exp := timestamp (juneNoon + defaultSessionTtl)
  iat := timestamp juneNoon

/-- The headers of a member's upload. -/
def pictureFrom (email : String) : Headers :=
  { bearer email juneNoon with contentType := some "image/png" }

/-- A member uploads a picture of a receipt. -/
def uploads (email uuid : String) : GatewayAction :=
  .tenant ⟨"pool", pictureFrom email, .postProof uuid (.ok [137, 80, 78, 71])⟩

/-- A member pays and names a proof. -/
def paysWith (email key : String) : GatewayAction :=
  .tenant ⟨"pool", bearer email juneNoon,
    .postContribution (.ok { amountCents := 4000, proofKey := some key })⟩

/-- Bob has joined Ann's venture, and one of the two has uploaded a receipt. -/
def receiptOf (email : String) : List GatewayAction :=
  PoolAgreement.bobJoins 10000 ++ [uploads email "0"]

/-- Bob pays with his own receipt. -/
theorem owned_bob :
    Owned (receiptOf "bob@pool.org" ++
      [paysWith "bob@pool.org" "tenants/pool/bob_at_pool.org/0.png"]) juneNoon := by
  refine owned_of_ownProof (Trace.EachAfter.snoc ?_ ?_)
  · -- nobody pays before
    refine Trace.eachAfter_of_forall fun a ha earlier slug email p hsends => ?_
    obtain ⟨headers, identity, rfl, -⟩ := hsends.request
    simp [receiptOf, PoolAgreement.bobJoins, uploads] at ha
  · intro slug email p hsends key hkey
    obtain ⟨headers, identity, ha, hauth, rfl⟩ := hsends.request
    cases ha
    cases hkey
    have htoken : extractBearer (bearer "bob@pool.org" juneNoon) =
        some (spellClaims (memberClaims "bob@pool.org")) := by
      decide +kernel
    have hclaims : Platform.decodeSession (spellClaims (memberClaims "bob@pool.org")) =
        .ok (memberClaims "bob@pool.org") := by
      decide +kernel
    rw [email_of_authResult hauth htoken hclaims]
    refine ⟨_, _, Trace.takes_last _ _ _, pictureFrom "bob@pool.org", "0", _,
      ⟨"bob@pool.org", none, none⟩,
      ⟨"tenants/pool/bob_at_pool.org/0.png", "image/png", 4⟩, rfl, ?_, rfl, ?_, rfl⟩
    all_goals decide +kernel

/-- Bob names Ann's receipt, whose key every member can read. -/
theorem foreign_proof :
    (⟨0, { paymentRow "bob@pool.org" "monthly" "2026-06" 4000 juneNoon with
        proofKey := some "tenants/pool/ann_at_pool.org/0.png" }⟩ : ContributionRecord) ∈
      ((Trace.exec Deployment.step (receiptOf "ann@pool.org" ++
        [paysWith "bob@pool.org" "tenants/pool/ann_at_pool.org/0.png"])
        (System.empty juneNoon)).namespaces "pool").contribution.rows ∧
    ¬ Owned (receiptOf "ann@pool.org" ++
      [paysWith "bob@pool.org" "tenants/pool/ann_at_pool.org/0.png"]) juneNoon := by
  have hrow : (⟨0, { paymentRow "bob@pool.org" "monthly" "2026-06" 4000 juneNoon with
      proofKey := some "tenants/pool/ann_at_pool.org/0.png" }⟩ : ContributionRecord) ∈
      ((Trace.exec Deployment.step (receiptOf "ann@pool.org" ++
        [paysWith "bob@pool.org" "tenants/pool/ann_at_pool.org/0.png"])
        (System.empty juneNoon)).namespaces "pool").contribution.rows := by
    decide +kernel
  refine ⟨hrow, fun howned => ?_⟩
  obtain ⟨a, s, ⟨earlier, later, hsplit, -⟩, headers, uuid, body, identity, response, rfl, hauth,
    hemail, -⟩ := howned "pool" _ hrow _ rfl
  -- the only upload of the run is Ann's
  have hmem : GatewayAction.tenant ⟨"pool", headers, .postProof uuid body⟩ ∈
      receiptOf "ann@pool.org" ++
        [paysWith "bob@pool.org" "tenants/pool/ann_at_pool.org/0.png"] := by
    rw [hsplit]
    exact List.mem_append_right _ List.mem_cons_self
  obtain ⟨rfl, -⟩ : headers = pictureFrom "ann@pool.org" ∧ uuid = "0" ∧
      body = .ok [137, 80, 78, 71] := by
    simpa [receiptOf, PoolAgreement.bobJoins, uploads, paysWith] using hmem
  have htoken : extractBearer (pictureFrom "ann@pool.org") =
      some (spellClaims (memberClaims "ann@pool.org")) := by
    decide +kernel
  have hclaims : Platform.decodeSession (spellClaims (memberClaims "ann@pool.org")) =
      .ok (memberClaims "ann@pool.org") := by
    decide +kernel
  have hann : identity.email = "ann@pool.org" := email_of_authResult hauth htoken hclaims
  rw [hann] at hemail
  exact absurd hemail (by decide)

end Sample

end ProofOwners

end SharamLedger
