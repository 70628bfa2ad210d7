import SharamLedger.Platform
import SharamLedger.Lib.Ascii
import SharamLedger.Lib.Table

/-!
# The control plane schema

Rows of the control plane, after `crate/ledger/schema/control/000_init.surql`: users, invites,
memberships and the tenant directory, with their field assertions and unique indexes. A
`Control` value satisfies every unique index by construction.
-/

namespace SharamLedger

open Lib

/-- `^[a-z][a-z0-9_]{2,40}$`. -/
def matchesSlug (s : String) : Bool :=
  match s.toList with
  | [] => false
  | first :: rest =>
      first.isLower && (rest.all fun c => c.isLower || c.isDigit || c == '_') &&
        2 ≤ rest.length && rest.length ≤ 40

theorem utf8Size_of_slugChar {c : Char} (h : (c.isLower || c.isDigit || c == '_') = true) :
    c.utf8Size = 1 := by
  simp only [Bool.or_eq_true, beq_iff_eq, Ascii.isLower_iff, Ascii.isDigit_iff] at h
  refine Ascii.utf8Size_of_ascii ?_
  rcases h with (h | h) | rfl
  · omega
  · omega
  · decide

/-- A slug that the program accepts matches the pattern of the schema. -/
theorem matchesSlug_of_valid {s : String} (h : isValidSlug s = true) : matchesSlug s = true := by
  by_cases hlen : 3 ≤ s.utf8ByteSize ∧ s.utf8ByteSize ≤ 41
  · cases hs : s.toList with
    | nil => simp [isValidSlug, hs] at h
    | cons first rest =>
        simp only [isValidSlug, if_pos hlen, hs, Bool.and_eq_true] at h
        obtain ⟨hfirst, hrest⟩ := h
        -- every character takes one byte, so the byte bounds are bounds on the length
        have hone : ∀ c ∈ first :: rest, c.utf8Size = 1 := by
          intro c hc
          rcases List.mem_cons.mp hc with rfl | hc
          · exact utf8Size_of_slugChar (by simp [hfirst])
          · exact utf8Size_of_slugChar (List.all_eq_true.mp hrest c hc)
        have hsize := Text.utf8ByteSize_ofList hone
        rw [← hs, String.ofList_toList, hs, List.length_cons] at hsize
        simp only [matchesSlug, hs, hfirst, hrest, Bool.true_and, Bool.and_eq_true,
          decide_eq_true_eq]
        omega
  · simp only [isValidSlug, if_neg hlen, Bool.false_eq_true] at h

/-- `$value INSIDE ["owner", "treasurer", "member"]`. -/
def isRole (s : String) : Bool := s == "owner" || s == "treasurer" || s == "member"

/-- Stored fields of `user`. -/
structure User where
  email : String
  googleSub : Option String
  passwordHash : Option String
  displayName : Option String
  displayTz : String
  createdAt : DateTime
  deriving DecidableEq, Repr

/-- Stored fields of `invite`. -/
structure Invite where
  tenantSlug : String
  email : String
  role : String
  invitedBy : Nat
  createdAt : DateTime
  acceptedAt : Option DateTime
  revokedAt : Option DateTime
  deriving DecidableEq, Repr

/-- Stored fields of `membership`. -/
structure Membership where
  user : Nat
  tenantSlug : String
  role : String
  createdAt : DateTime
  deriving DecidableEq, Repr

/-- Stored fields of `tenant_directory`. -/
structure TenantDirectory where
  slug : String
  displayName : String
  createdBy : Nat
  createdAt : DateTime
  deriving DecidableEq, Repr

abbrev UserRecord := Record User
abbrev InviteRecord := Record Invite
abbrev MembershipRecord := Record Membership
abbrev TenantDirectoryRecord := Record TenantDirectory

/-- `user_email_uniq`. -/
instance : Indexed User where
  collides a b := a.email == b.email
  collides_comm _ _ := BEq.comm

/-- `invite_tenant_email_uniq`. -/
instance : Indexed Invite where
  collides a b := a.tenantSlug == b.tenantSlug && a.email == b.email
  collides_comm a b := by rw [BEq.comm, BEq.comm (a := a.email)]

/-- `membership_user_tenant_uniq`. -/
instance : Indexed Membership where
  collides a b := a.user == b.user && a.tenantSlug == b.tenantSlug
  collides_comm a b := by rw [BEq.comm, BEq.comm (a := a.tenantSlug)]

/-- `tenant_directory_slug_uniq`. -/
instance : Indexed TenantDirectory where
  collides a b := a.slug == b.slug
  collides_comm _ _ := BEq.comm

/-- The database `control` of the namespace `system`. -/
structure Control where
  user : Table User
  invite : Table Invite
  membership : Table Membership
  tenantDirectory : Table TenantDirectory
  deriving DecidableEq

/-- The control plane right after its schema is applied. -/
def Control.empty : Control := ⟨.empty, .empty, .empty, .empty⟩

/-! ## Field assertions -/

section Assertions

variable [Platform]

def User.check (u : User) : Except DbFault Unit :=
  if Platform.isEmail u.email then .ok () else .error (.field "user" "email" u.email)

theorem User.check_ok {u : User} (h : u.check = .ok ()) : Platform.isEmail u.email = true := by
  by_contra hnot
  simp [User.check, hnot] at h

def Invite.check (i : Invite) : Except DbFault Unit :=
  if !matchesSlug i.tenantSlug then .error (.field "invite" "tenant_slug" i.tenantSlug)
  else if !Platform.isEmail i.email then .error (.field "invite" "email" i.email)
  else if !isRole i.role then .error (.field "invite" "role" i.role)
  else .ok ()

theorem Invite.check_ok {i : Invite} (h : i.check = .ok ()) :
    matchesSlug i.tenantSlug = true ∧ Platform.isEmail i.email = true ∧ isRole i.role = true := by
  unfold Invite.check at h
  split at h
  · cases h
  · next hslug =>
      split at h
      · cases h
      · next hemail =>
          split at h
          · cases h
          · next hrole => simpa using And.intro hslug (And.intro hemail hrole)

omit [Platform] in
def Membership.check (m : Membership) : Except DbFault Unit :=
  if !matchesSlug m.tenantSlug then .error (.field "membership" "tenant_slug" m.tenantSlug)
  else if !isRole m.role then .error (.field "membership" "role" m.role)
  else .ok ()

omit [Platform] in
theorem Membership.check_ok {m : Membership} (h : m.check = .ok ()) :
    matchesSlug m.tenantSlug = true ∧ isRole m.role = true := by
  unfold Membership.check at h
  split at h
  · cases h
  · split at h
    · cases h
    · next hslug hrole => exact ⟨by simpa using hslug, by simpa using hrole⟩

omit [Platform] in
def TenantDirectory.check (d : TenantDirectory) : Except DbFault Unit :=
  if matchesSlug d.slug then .ok () else .error (.field "tenant_directory" "slug" d.slug)

end Assertions

/-! ## One row per index value -/

theorem Control.user_eq {c : Control} {a b : UserRecord} (ha : a ∈ c.user.rows)
    (hb : b ∈ c.user.rows) (h : a.row.email = b.row.email) : a = b :=
  Table.eq_of_collides ha hb (by simp [Indexed.collides, h])

theorem Control.invite_eq {c : Control} {a b : InviteRecord} (ha : a ∈ c.invite.rows)
    (hb : b ∈ c.invite.rows) (hslug : a.row.tenantSlug = b.row.tenantSlug)
    (hemail : a.row.email = b.row.email) : a = b :=
  Table.eq_of_collides ha hb (by simp [Indexed.collides, hslug, hemail])

theorem Control.membership_eq {c : Control} {a b : MembershipRecord}
    (ha : a ∈ c.membership.rows) (hb : b ∈ c.membership.rows) (huser : a.row.user = b.row.user)
    (hslug : a.row.tenantSlug = b.row.tenantSlug) : a = b :=
  Table.eq_of_collides ha hb (by simp [Indexed.collides, huser, hslug])

/-! ## Statements -/

/-- Field assertions of a row type, and the fault of an index that already holds its value. -/
class Checked (α : Type) where
  check : α → Except DbFault Unit
  conflict : α → DbFault

instance [Platform] : Checked User := ⟨User.check, fun u => .index "user_email_uniq" u.email⟩

instance [Platform] : Checked Invite :=
  ⟨Invite.check, fun i => .index "invite_tenant_email_uniq" i.email⟩

instance : Checked Membership :=
  ⟨Membership.check, fun m => .index "membership_user_tenant_uniq" m.tenantSlug⟩

instance : Checked TenantDirectory :=
  ⟨TenantDirectory.check, fun d => .index "tenant_directory_slug_uniq" d.slug⟩

section Statements

variable {α : Type} [Indexed α] [Checked α]

/-- `CREATE ONLY .. RETURN AFTER`. -/
def createRow (row : α) (t : Table α) : Except DbError (Record α × Table α) := do
  (Checked.check row).mapError .fault
  match t.create row with
  | some (r, t) => return (r, t)
  | none => .error (.fault (Checked.conflict row))

/-- `SET` on one record. -/
def setRow (r : Record α) (row : α) (t : Table α) : Except DbError (Record α × Table α) := do
  (Checked.check row).mapError .fault
  match t.replace r row with
  | some t => return (⟨r.id, row⟩, t)
  | none => .error (.fault (Checked.conflict row))

/-- `UPDATE ONLY .. SET .. RETURN AFTER`; the answer is `none` when no record is selected. -/
def updateRow (sel : Record α → Bool) (set : α → α) (t : Table α) :
    Except DbError (Option (Record α) × Table α) :=
  match t.find sel with
  | some r => (setRow r (set r.row) t).map fun (r, t) => (some r, t)
  | none => .ok (none, t)

/-- `UPSERT ONLY .. SET .. WHERE .. RETURN AFTER`: the record the condition selects is
rewritten, or else a new one is created. -/
def upsertRow (sel : Record α → Bool) (set : α → α) (new : α) (t : Table α) :
    Except DbError (Record α × Table α) :=
  match t.find sel with
  | some r => setRow r (set r.row) t
  | none => createRow new t

/-- A row that passes its assertions and meets no index value of its own is created. -/
theorem createRow_of {row : α} {t t' : Table α} {r : Record α}
    (hcheck : Checked.check row = .ok ()) (hcreate : t.create row = some (r, t')) :
    createRow row t = .ok (r, t') := by
  simp [createRow, hcheck, hcreate, Except.mapError, bind, Except.bind, pure, Except.pure]

/-- A record takes a new row that passes its assertions and breaks no index. -/
theorem setRow_of {r : Record α} {row : α} {t t' : Table α}
    (hcheck : Checked.check row = .ok ()) (hreplace : t.replace r row = some t') :
    setRow r row t = .ok (⟨r.id, row⟩, t') := by
  simp [setRow, hcheck, hreplace, Except.mapError, bind, Except.bind, pure, Except.pure]

theorem createRow_ok {row : α} {t t' : Table α} {r : Record α}
    (h : createRow row t = .ok (r, t')) :
    Checked.check row = .ok () ∧ t.create row = some (r, t') := by
  unfold createRow at h
  cases hcheck : Checked.check row with
  | error e => simp [hcheck, Except.mapError, bind, Except.bind] at h
  | ok u =>
      cases hcreate : t.create row with
      | none => simp [hcheck, hcreate, Except.mapError, bind, Except.bind] at h
      | some answer =>
          simp only [hcheck, hcreate, Except.mapError, bind, Except.bind, pure, Except.pure,
            Except.ok.injEq] at h
          exact ⟨rfl, by rw [← h]⟩

theorem setRow_ok {r r' : Record α} {row : α} {t t' : Table α}
    (h : setRow r row t = .ok (r', t')) :
    Checked.check row = .ok () ∧ r' = ⟨r.id, row⟩ ∧ t.replace r row = some t' := by
  unfold setRow at h
  cases hcheck : Checked.check row with
  | error e => simp [hcheck, Except.mapError, bind, Except.bind] at h
  | ok u =>
      cases hreplace : t.replace r row with
      | none => simp [hcheck, hreplace, Except.mapError, bind, Except.bind] at h
      | some answer =>
          simp only [hcheck, hreplace, Except.mapError, bind, Except.bind, pure, Except.pure,
            Except.ok.injEq, Prod.mk.injEq] at h
          exact ⟨rfl, h.1.symm, by rw [h.2]⟩

/-- What an accepted `UPDATE ONLY` did: nothing, or one selected record took its new values. -/
theorem updateRow_ok {sel : Record α → Bool} {set : α → α} {t t' : Table α}
    {answer : Option (Record α)} (h : updateRow sel set t = .ok (answer, t')) :
    (answer = none ∧ t' = t ∧ ∀ r ∈ t.rows, sel r = false) ∨
      ∃ r ∈ t.rows, sel r = true ∧ Checked.check (set r.row) = .ok () ∧
        answer = some ⟨r.id, set r.row⟩ ∧ t.replace r (set r.row) = some t' := by
  unfold updateRow at h
  cases hfind : t.find sel with
  | none =>
      simp only [hfind, Except.ok.injEq, Prod.mk.injEq] at h
      exact .inl ⟨h.1.symm, h.2.symm, Table.find_none hfind⟩
  | some r =>
      simp only [hfind] at h
      cases hset : setRow r (set r.row) t with
      | error e => simp [hset, Except.map] at h
      | ok result =>
          obtain ⟨hcheck, hr', hreplace⟩ := setRow_ok (Prod.mk.eta (p := result) ▸ hset)
          simp only [hset, Except.map, Except.ok.injEq, Prod.mk.injEq] at h
          obtain ⟨hr, hsel⟩ := Table.find_some hfind
          exact .inr ⟨r, hr, hsel, hcheck, by rw [← h.1, hr'], by rw [hreplace, h.2]⟩

/-- What an accepted `UPSERT ONLY` did: one selected record took its new values, or none was
selected and the new row was created. -/
theorem upsertRow_ok {sel : Record α → Bool} {set : α → α} {new : α} {t t' : Table α}
    {r' : Record α} (h : upsertRow sel set new t = .ok (r', t')) :
    (∃ r ∈ t.rows, sel r = true ∧ r' = ⟨r.id, set r.row⟩ ∧ t.replace r (set r.row) = some t') ∨
      ((∀ r ∈ t.rows, sel r = false) ∧ t.create new = some (r', t')) := by
  unfold upsertRow at h
  cases hfind : t.find sel with
  | none =>
      simp only [hfind] at h
      exact .inr ⟨Table.find_none hfind, (createRow_ok h).2⟩
  | some r =>
      simp only [hfind] at h
      obtain ⟨-, hr', hreplace⟩ := setRow_ok h
      obtain ⟨hr, hsel⟩ := Table.find_some hfind
      exact .inl ⟨r, hr, hsel, hr', hreplace⟩

/-- The record that an `UPSERT ONLY` answers with has passed its assertions. -/
theorem upsertRow_check {sel : Record α → Bool} {set : α → α} {new : α} {t t' : Table α}
    {r' : Record α} (h : upsertRow sel set new t = .ok (r', t')) :
    Checked.check r'.row = .ok () := by
  unfold upsertRow at h
  cases hfind : t.find sel with
  | none =>
      simp only [hfind] at h
      obtain ⟨hcheck, hcreate⟩ := createRow_ok h
      obtain ⟨rfl, -, -⟩ := Table.create_some hcreate
      exact hcheck
  | some r =>
      simp only [hfind] at h
      obtain ⟨hcheck, rfl, -⟩ := setRow_ok h
      exact hcheck

end Statements

end SharamLedger
