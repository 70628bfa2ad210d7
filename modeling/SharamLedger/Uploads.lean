import SharamLedger.Effects
import SharamLedger.ProofKeys
import SharamLedger.ProofOwners

/-!
# The store of proofs

An upload is stored under a key that the server makes with a fresh identifier. Over any run the
store holds exactly the accepted uploads, and a link that a member gets leads to an upload for the
member's own venture.
-/

namespace SharamLedger

open Lib

namespace Uploads

section Runs

variable [Platform]

/-- The request stores the file under the key, for the tenant and by the member with the address. -/
def Stores (slug email key : String) (proof : StoredProof) (a : GatewayAction) (s : System) :
    Prop :=
  ∃ headers uuid identity,
    a = .tenant ⟨slug, headers, .postProof uuid (.ok proof.bytes)⟩ ∧
    authResult headers s.now = .ok identity ∧ identity.email = email ∧
    (s.control.roleFor email slug).isSome = true ∧
    ((postProof slug uuid headers (.ok proof.bytes)).run s).1 = .ok
      { proofKey := key, contentType := proof.contentType, sizeBytes := proof.bytes.length }

/-- A request of the run has stored the file. -/
def Stored (actions : List GatewayAction) (now : DateTime) (slug email key : String)
    (proof : StoredProof) : Prop :=
  ∃ a x, Trace.Takes Deployment.step actions (System.empty now) a x ∧
    Stores slug email key proof a x

/-- The identifier that is drawn for a request. -/
def drawnId : GatewayAction → Option String
  | .tenant ⟨_, _, .postProof uuid _⟩ => some uuid
  | _ => none

/-- Identifiers are never drawn twice, and they are rendered as UUIDs. -/
structure FreshIds (actions : List GatewayAction) : Prop where
  distinct : (actions.filterMap drawnId).Nodup
  rendered : ∀ a ∈ actions, ∀ uuid, drawnId a = some uuid → ∃ id, uuid = uuidText id

/-! ## Keys of different uploads -/

omit [Platform] in
/-- An identifier has neither dots nor slashes in it. -/
theorem uuidText_chars (id : BitVec 128) {c : Char} (h : c ∈ (uuidText id).toList) :
    c ≠ '.' ∧ c ≠ '/' := by
  have hdigit : ∀ n : Fin 16, Nat.digitChar n ≠ '.' ∧ Nat.digitChar n ≠ '/' := by decide
  rcases mem_uuidText h with h | rfl
  · obtain ⟨i, -, rfl⟩ := List.mem_map.mp h
    exact hdigit ⟨id.toNat / 16 ^ (31 - i) % 16, Nat.mod_lt _ (by decide)⟩
  · decide

/-- The identifier can be read off the end of a key. -/
theorem uuid_of_key {slug slug' email email' contentType contentType' ext ext' : String}
    {id id' : BitVec 128} (hext : extFor contentType = some ext)
    (hext' : extFor contentType' = some ext')
    (heq : proofKeyFor slug email ext (uuidText id) =
      proofKeyFor slug' email' ext' (uuidText id')) : uuidText id = uuidText id' := by
  -- behind the last slash stand the identifier, a dot and the extension
  have hfile : ∀ {ext contentType : String} (id : BitVec 128), extFor contentType = some ext →
      '/' ∉ ((uuidText id).toList ++ '.' :: ext.toList).reverse := by
    intro ext contentType id hext hmem
    exact (segment_file id hext).no_slash (List.mem_reverse.mp hmem)
  have hkey : ∀ (slug email ext : String) (id : BitVec 128),
      (proofKeyFor slug email ext (uuidText id)).toList.reverse =
        ((uuidText id).toList ++ '.' :: ext.toList).reverse ++
          '/' :: (proofPrefix slug ++ sanitizeEmailFrag email).toList.reverse := by
    intro slug email ext id
    simp [proofKeyFor]
  have hreverse := congrArg (fun key : String => key.toList.reverse) heq
  simp only [hkey] at hreverse
  have hlast := (Text.split_unique (hfile id hext) (hfile id' hext') hreverse).1
  have hname := List.reverse_injective hlast
  exact String.toList_inj.mp (Text.split_unique (fun h => (uuidText_chars id h).1 rfl)
    (fun h => (uuidText_chars id' h).1 rfl) hname).1

/-! ## What one request does -/

variable {slug email key : String} {proof : StoredProof} {a : GatewayAction} {s : System}

theorem Stores.key_eq (h : Stores slug email key proof a s) : ∃ uuid ext,
    drawnId a = some uuid ∧ extFor proof.contentType = some ext ∧
      key = proofKeyFor slug email ext uuid := by
  obtain ⟨headers, uuid, identity, rfl, hauth, rfl, -, hresult⟩ := h
  obtain ⟨bytes, caller, ext, -, hcaller, -, hext, hanswer, -⟩ :=
    (postProof_spec slug uuid headers (.ok proof.bytes) s).of_ok hresult
  obtain rfl := Except.ok.inj (hauth.symm.trans hcaller)
  obtain ⟨hkey, hcontent, -⟩ := PostProofResponse.mk.inj (Except.ok.inj hanswer)
  exact ⟨uuid, ext, rfl, hcontent ▸ hext, hkey⟩

/-- Uploads are for texts that are slugs. -/
theorem postProof_slug (slug uuid : String) (headers : Headers) (body : Extracted (List UInt8))
    (s : System) : (postProof slug uuid headers body).StopsOr s fun _ _ =>
      ∃ tenantSlug : TenantSlug, tenantSlug.val = slug := by
  unfold postProof
  refine Prog.stopsOr_bind (Prog.run_lift body s) fun bytes _ => ?_
  refine Prog.stopsOr_bind (run_authenticate headers s) fun identity _ => ?_
  refine Prog.stopsOr_bind (run_tenantSlugOf slug s) fun tenantSlug hslug => ?_
  exact .inr ⟨tenantSlug, tenantSlugOf_ok hslug⟩

theorem Stores.slug_valid (h : Stores slug email key proof a s) :
    ∃ tenantSlug : TenantSlug, tenantSlug.val = slug := by
  obtain ⟨headers, uuid, identity, rfl, -, -, -, hresult⟩ := h
  exact (postProof_slug slug uuid headers (.ok proof.bytes) s).of_ok hresult

/-- Every action but an upload leaves the store alone. -/
theorem proofs_of_effect {a : GatewayAction} {s s' : System} (h : Deployment.Effect s a s') :
    s'.proofs = s.proofs ∨ ∃ slug headers uuid body,
      a = .tenant ⟨slug, headers, .postProof uuid body⟩ := by
  cases h with
  | nothing => exact .inl rfl
  | clock => exact .inl rfl
  | signedIn _ hsign => exact .inl (by rw [hsign.accepts.proofs])
  | founded _ hstill => exact .inl hstill.2.1
  | paid hpaid =>
      obtain ⟨p, identity, settings, period, r, ns, -, -, -, -, -, -, -, rfl⟩ := hpaid
      exact .inl rfl
  | patched hpatched =>
      obtain ⟨p, identity, row, ns, -, -, -, -, -, rfl⟩ := hpatched
      exact .inl rfl
  | seeded hseeded =>
      obtain ⟨p, identity, row, ns, -, -, -, -, rfl⟩ := hseeded
      exact .inl rfl
  | invited hinvited =>
      obtain ⟨p, identity, tenantSlug, caller, c, -, -, -, -, -, -, rfl⟩ := hinvited
      exact .inl rfl
  | revoked hrevoked =>
      obtain ⟨answer, c, -, -, rfl⟩ := hrevoked
      exact .inl rfl
  | deleted hdeleted =>
      obtain ⟨rows, c, -, -, rfl⟩ := hdeleted
      exact .inl rfl
  | @uploaded slug uuid headers body _ _ _ => exact .inr ⟨slug, headers, uuid, body, rfl⟩

/-- What lies under a key stays, or is what the request stores there. -/
theorem proofs_step (key : String) (a : GatewayAction) (s : System) :
    (Deployment.step a s).proofs key = s.proofs key ∨ ∃ slug email proof,
      (Deployment.step a s).proofs key = some proof ∧ Stores slug email key proof a s := by
  rcases proofs_of_effect (Deployment.step_effect a s) with hsame | ⟨slug, headers, uuid, body, rfl⟩
  · exact .inl (congrFun hsame key)
  · have hstep : Deployment.step (.tenant ⟨slug, headers, .postProof uuid body⟩) s =
        ((postProof slug uuid headers body).run s).2 := by
      rw [Deployment.step, TenantRequest.respond, TenantRequest.handle, Prog.run_bind_pure]
    rw [hstep]
    rcases postProof_spec slug uuid headers body s with
      ⟨e, he⟩ | ⟨bytes, identity, ext, rfl, hauth, hmember, -, hresult, hstate⟩
    · exact .inl (by rw [he])
    · by_cases hkey : key = proofKeyFor slug identity.email ext uuid
      · subst hkey
        refine .inr ⟨slug, identity.email, ⟨bareContentType headers, bytes⟩, ?_, headers, uuid,
          identity, rfl, hauth, rfl, hmember, hresult⟩
        rw [hstate]
        exact if_pos rfl
      · refine .inl ?_
        rw [hstate]
        exact if_neg hkey

/-- An upload lies under its key right after it. -/
theorem Stores.proofs (h : Stores slug email key proof a s) :
    (Deployment.step a s).proofs key = some proof := by
  obtain ⟨headers, uuid, identity, rfl, hauth, rfl, -, hresult⟩ := h
  obtain ⟨bytes, caller, ext, hbody, hcaller, -, -, hanswer, hstate⟩ :=
    (postProof_spec slug uuid headers (.ok proof.bytes) s).of_ok hresult
  obtain rfl := Except.ok.inj (hauth.symm.trans hcaller)
  obtain rfl := Except.ok.inj hbody
  obtain ⟨hkey, hcontent, -⟩ := PostProofResponse.mk.inj (Except.ok.inj hanswer)
  have hstep : Deployment.step (.tenant ⟨slug, headers, .postProof uuid (.ok proof.bytes)⟩) s =
      ((postProof slug uuid headers (.ok proof.bytes)).run s).2 := by
    rw [Deployment.step, TenantRequest.respond, TenantRequest.handle, Prog.run_bind_pure]
  rw [hstep, hstate, hkey, ← hcontent]
  exact if_pos rfl

/-! ## Runs -/

variable {actions : List GatewayAction} {now : DateTime}

/-- Every file of the store was uploaded. -/
theorem stored_of_proof
    (h : (Trace.exec Deployment.step actions (System.empty now)).proofs key = some proof) :
    ∃ slug email, Stored actions now slug email key proof := by
  have hstart : ¬ (System.empty now).proofs key = some proof := by
    intro h
    cases h
  obtain ⟨a, x, htakes, hbefore, hafter⟩ :=
    Trace.exists_takes (P := fun s : System => s.proofs key = some proof) hstart h
  rcases proofs_step key a x with hsame | ⟨slug, email, found, hfound, hstores⟩
  · exact absurd (hsame ▸ hafter) hbefore
  · obtain rfl := Option.some.inj (hfound.symm.trans hafter)
    exact ⟨slug, email, a, x, htakes, hstores⟩

/-- Two uploads under one key have the same identifier. -/
theorem Stores.same_id {slug' email' : String} {proof' : StoredProof} {b : GatewayAction}
    {x : System} (hrendered : ∀ c, c = a ∨ c = b → ∀ uuid, drawnId c = some uuid →
      ∃ id, uuid = uuidText id)
    (ha : Stores slug email key proof a s) (hb : Stores slug' email' key proof' b x) :
    ∃ uuid, drawnId a = some uuid ∧ drawnId b = some uuid := by
  obtain ⟨uuid, ext, hdrawn, hext, hkey⟩ := ha.key_eq
  obtain ⟨uuid', ext', hdrawn', hext', hkey'⟩ := hb.key_eq
  obtain ⟨id, rfl⟩ := hrendered a (.inl rfl) uuid hdrawn
  obtain ⟨id', rfl⟩ := hrendered b (.inr rfl) uuid' hdrawn'
  rw [← uuid_of_key hext hext' (hkey.symm.trans hkey')] at hdrawn'
  exact ⟨_, hdrawn, hdrawn'⟩

/-- In a run with fresh identifiers no key is used twice. -/
theorem FreshIds.keys {earlier middle later : List GatewayAction} {a b : GatewayAction}
    (hfresh : FreshIds (earlier ++ a :: (middle ++ b :: later))) {slug' email' : String}
    {proof' : StoredProof} {x : System} (ha : Stores slug email key proof a s)
    (hb : Stores slug' email' key proof' b x) : False := by
  have hmem : ∀ c, c = a ∨ c = b → c ∈ earlier ++ a :: (middle ++ b :: later) := by
    intro c hc
    rcases hc with rfl | rfl <;> simp
  obtain ⟨uuid, hdrawn, hdrawn'⟩ := ha.same_id (fun c hc => hfresh.rendered c (hmem c hc)) hb
  have hdistinct := hfresh.distinct
  simp [hdrawn, hdrawn', List.nodup_append] at hdistinct

/-- What a run with fresh identifiers has stored stays as it is. -/
theorem proofs_kept {earlier later : List GatewayAction}
    (hfresh : FreshIds (earlier ++ a :: later)) (h : Stores slug email key proof a s) :
    (Trace.exec Deployment.step later (Deployment.step a s)).proofs key = some proof := by
  by_contra hlost
  obtain ⟨b, x, ⟨middle, last, rfl, -⟩, hbefore, hafter⟩ :=
    Trace.exists_takes (P := fun s : System => ¬ s.proofs key = some proof)
      (not_not_intro h.proofs) hlost
  rcases proofs_step key b x with hsame | ⟨slug', email', proof', -, hstores⟩
  · exact hafter (hsame.trans (not_not.mp hbefore))
  · exact hfresh.keys h hstores

/-- The store holds the accepted uploads of the run and nothing else. Each lies under the key that
its response named, as it was sent, and that key was free before. -/
theorem store_holds_uploads (hfresh : FreshIds actions) :
    (∀ key proof, (Trace.exec Deployment.step actions (System.empty now)).proofs key = some proof ↔
      ∃ slug email, Stored actions now slug email key proof) ∧
    ∀ slug email key proof a x, Trace.Takes Deployment.step actions (System.empty now) a x →
      Stores slug email key proof a x → x.proofs key = none := by
  refine ⟨fun key proof => ⟨stored_of_proof, fun h => ?_⟩, ?_⟩
  · obtain ⟨slug, email, a, x, ⟨earlier, later, rfl, rfl⟩, hstores⟩ := h
    rw [Trace.exec_append]
    exact proofs_kept hfresh hstores
  · intro slug email key proof a x htakes hstores
    obtain ⟨earlier, later, rfl, rfl⟩ := htakes
    by_contra hused
    obtain ⟨found, hfound⟩ := Option.ne_none_iff_exists'.mp hused
    obtain ⟨slug', email', b, y, ⟨first, middle, rfl, -⟩, hearlier⟩ := stored_of_proof hfound
    rw [List.append_assoc, List.cons_append] at hfresh
    exact hfresh.keys hearlier hstores

/-! ## Links -/

/-- What a link was given for: the caller is a member, and the key lies under the venture's
prefix. -/
theorem getProofUrl_spec (slug key : String) (headers : Headers) (s : System) :
    (getProofUrl slug (.ok key) headers).StopsOr s fun result s' => s' = s ∧
      (∃ tenantSlug : TenantSlug, tenantSlug.val = slug) ∧ FromMember headers slug s ∧
      Text.startsWith key (proofPrefix slug) = true ∧
      ∃ url, Platform.presign key presignTtl s.now = .ok url ∧ result = .ok ⟨url, presignTtl⟩ := by
  unfold getProofUrl
  refine Prog.stopsOr_bind (Prog.run_lift _ s) fun key' hkey => ?_
  obtain rfl := Except.ok.inj hkey
  refine Prog.stopsOr_bind (run_authenticate headers s) fun identity hauth => ?_
  refine Prog.stopsOr_bind (run_tenantSlugOf slug s) fun tenantSlug hslug => ?_
  refine Prog.stopsOr_bind (Prog.run_ensure _ _ s) fun _ hprefix => ?_
  refine Prog.stopsOr_bind (run_callerIsMember identity.email slug s) fun isMember hmember => ?_
  refine Prog.stopsOr_bind (Prog.run_ensure isMember notAMember s) fun _ hcalled => ?_
  have hmember : (s.control.roleFor identity.email slug).isSome = true := by simp_all
  have hprefix : Text.startsWith key (proofPrefix slug) = true := by
    by_contra hother
    simp [hother] at hprefix
  cases hurl : Platform.presign key presignTtl s.now with
  | error e => exact .inl ⟨s3Error e, by simp [hurl, Except.mapError]⟩
  | ok url =>
      exact .inr ⟨by simp [hurl, Except.mapError], ⟨tenantSlug, tenantSlugOf_ok hslug⟩,
        ⟨identity, hauth, hmember⟩, hprefix, url, rfl, by simp [hurl, Except.mapError]⟩

/-- Payments name keys under the prefix of their venture. -/
def KeysInside (s : System) : Prop :=
  ∀ slug, ∀ r ∈ (s.namespaces slug).contribution.rows, ∀ key, r.row.proofKey = some key →
    (∃ tenantSlug : TenantSlug, tenantSlug.val = slug) ∧
      Text.startsWith key (proofPrefix slug) = true

/-- Payments are for texts that are slugs. -/
theorem postContribution_slug (slug : String) (headers : Headers)
    (payload : Extracted PostContributionRequest) (s : System) :
    (postContribution slug headers payload).StopsOr s fun _ _ =>
      ∃ tenantSlug : TenantSlug, tenantSlug.val = slug := by
  unfold postContribution
  refine Prog.stopsOr_bind (Prog.run_lift payload s) fun p _ => ?_
  refine Prog.stopsOr_bind (run_authenticate headers s) fun identity _ => ?_
  refine Prog.stopsOr_bind (run_tenantSlugOf slug s) fun tenantSlug hslug => ?_
  exact .inr ⟨tenantSlug, tenantSlugOf_ok hslug⟩

theorem keysInside_step (a : GatewayAction) (s : System) (h : KeysInside s) :
    KeysInside (Deployment.step a s) := by
  intro slug r hr key hkey
  rcases ProofOwners.row_from a hr with hold | ⟨p, hsends, hproof⟩
  · exact h slug r hold key hkey
  · have hall := hsends.proof
    rw [← hproof, hkey] at hall
    obtain ⟨headers, identity, rfl, -⟩ := hsends.request
    rcases postContribution_slug slug headers (.ok p) s with ⟨e, he⟩ | hslug
    · -- a refused payment leaves the rows as they are
      have hsame : Deployment.step (.tenant ⟨slug, headers, .postContribution (.ok p)⟩) s = s := by
        rw [Deployment.step, TenantRequest.respond, TenantRequest.handle, Prog.run_bind_pure, he]
      rw [hsame] at hr
      exact h slug r hr key hkey
    · exact ⟨hslug, hall⟩

theorem keysInside_exec (actions : List GatewayAction) (now : DateTime) :
    KeysInside (Trace.exec Deployment.step actions (System.empty now)) :=
  Trace.exec_invariant keysInside_step actions fun _ _ hr => by cases hr

/-- Every receipt that a payment names can be opened by every member of the venture, for as long as
the store signs links. -/
theorem receipts_open {slug key : String} {r : ContributionRecord} {headers : Headers}
    (hr : r ∈ ((Trace.exec Deployment.step actions (System.empty now)).namespaces
      slug).contribution.rows) (hkey : r.row.proofKey = some key)
    (hmember : FromMember headers slug
      (Trace.exec Deployment.step actions (System.empty now))) :
    (getProofUrl slug (.ok key) headers).run
        (Trace.exec Deployment.step actions (System.empty now)) =
      ((Platform.presign key presignTtl
          (Trace.exec Deployment.step actions (System.empty now)).now).mapError s3Error |>.map
            fun url => ⟨url, presignTtl⟩,
        Trace.exec Deployment.step actions (System.empty now)) := by
  obtain ⟨⟨tenantSlug, rfl⟩, hprefix⟩ := keysInside_exec actions now slug r hr key hkey
  generalize Trace.exec Deployment.step actions (System.empty now) = s at *
  obtain ⟨identity, hauth, hrole⟩ := hmember
  have hslug : TenantSlug.new tenantSlug.val = .ok tenantSlug := dif_pos tenantSlug.valid
  cases hurl : Platform.presign key presignTtl s.now with
  | error e => simp [getProofUrl, hauth, hslug, hprefix, hrole, hurl, Except.mapError, Except.map]
  | ok url => simp [getProofUrl, hauth, hslug, hprefix, hrole, hurl, Except.mapError, Except.map]

end Runs

/-! ## Two receipts -/

section Sample

attribute [local instance] Platform.sample

open ProofOwners PoolAgreement

/-- Ann and Bob upload receipts, and Bob pays with his. -/
def receipts : List GatewayAction :=
  bobJoins 10000 ++ [uploads "ann@pool.org" (uuidText 7), uploads "bob@pool.org" (uuidText 8),
    paysWith "bob@pool.org" (proofKeyFor "pool" "bob@pool.org" "png" (uuidText 8))]

/-- Both lie in the store. -/
theorem receipts_stored :
    (∀ key proof,
      (Trace.exec Deployment.step receipts (System.empty juneNoon)).proofs key = some proof ↔
        ∃ slug email, Stored receipts juneNoon slug email key proof) ∧
    ∀ slug email key proof a x, Trace.Takes Deployment.step receipts (System.empty juneNoon) a x →
      Stores slug email key proof a x → x.proofs key = none := by
  refine store_holds_uploads ⟨by decide +kernel, fun a ha uuid hdrawn => ?_⟩
  have huuid : uuid ∈ receipts.filterMap drawnId := List.mem_filterMap.mpr ⟨a, ha, hdrawn⟩
  have hids : receipts.filterMap drawnId = [uuidText 7, uuidText 8] := rfl
  rw [hids] at huuid
  rcases List.mem_pair.mp huuid with rfl | rfl
  · exact ⟨7, rfl⟩
  · exact ⟨8, rfl⟩

/-- She can open the receipt of his payment. -/
theorem bob_receipt_opens :
    (getProofUrl "pool" (.ok (proofKeyFor "pool" "bob@pool.org" "png" (uuidText 8)))
      (bearer "ann@pool.org" juneNoon)).run
        (Trace.exec Deployment.step receipts (System.empty juneNoon)) =
      (.ok ⟨proofKeyFor "pool" "bob@pool.org" "png" (uuidText 8), 300⟩,
        Trace.exec Deployment.step receipts (System.empty juneNoon)) := by
  have hrow : (⟨0, { paymentRow "bob@pool.org" "monthly" "2026-06" 4000 juneNoon with
      proofKey := some (proofKeyFor "pool" "bob@pool.org" "png" (uuidText 8)) }⟩ :
        ContributionRecord) ∈ ((Trace.exec Deployment.step receipts
          (System.empty juneNoon)).namespaces "pool").contribution.rows := by decide +kernel
  have hmember : FromMember (bearer "ann@pool.org" juneNoon) "pool"
      (Trace.exec Deployment.step receipts (System.empty juneNoon)) :=
    ⟨⟨"ann@pool.org", none, none⟩, by decide +kernel, by decide +kernel⟩
  exact receipts_open hrow rfl hmember

end Sample

end Uploads

end SharamLedger
