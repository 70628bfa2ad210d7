import SharamLedger.Ledger.Accounts
import SharamLedger.Lib.Trace
import SharamLedger.Sample

/-!
# Sign-in methods on one row

`upsert_user` and `create_password_user` write the same row of a user, one call at a time. What a
row has it keeps, apart from a display name that an `upsert_user` without one comes upon.
-/

namespace SharamLedger

open Lib

/-- A call that writes a user's row, or a new clock reading. -/
inductive UserAction where
  | clock (now : DateTime)
  | upsertUser (input : UpsertUser)
  | createPasswordUser (input : RegisterPassword)

namespace AdditiveSignIn

/-- What the first row has, the second one has too. -/
structure Extends (u u' : User) : Prop where
  googleSub : u.googleSub.isSome = true → u'.googleSub.isSome = true
  passwordHash : u.passwordHash.isSome = true → u'.passwordHash.isSome = true
  displayName : u.displayName.isSome = true → u'.displayName.isSome = true

theorem Extends.refl (u : User) : Extends u u := ⟨id, id, id⟩

theorem Extends.trans {u u' u'' : User} (h : Extends u u') (h' : Extends u' u'') :
    Extends u u'' where
  googleSub := h'.googleSub ∘ h.googleSub
  passwordHash := h'.passwordHash ∘ h.passwordHash
  displayName := h'.displayName ∘ h.displayName

/-- An address has one row at most, and every row keeps its key, its address and what it has. -/
structure Additive (s s' : System) : Prop where
  one : ∀ a ∈ s'.control.user.rows, ∀ b ∈ s'.control.user.rows,
    a.row.email = b.row.email → a = b
  kept : ∀ u ∈ s.control.user.rows, ∃ u' ∈ s'.control.user.rows,
    u'.id = u.id ∧ u'.row.email = u.row.email ∧ Extends u.row u'.row

theorem Additive.refl (s : System) : Additive s s where
  one _ ha _ hb := Control.user_eq ha hb
  kept u hu := ⟨u, hu, rfl, rfl, .refl u.row⟩

theorem Additive.trans {s s' s'' : System} (h : Additive s s') (h' : Additive s' s'') :
    Additive s s'' where
  one := h'.one
  kept u hu := by
    obtain ⟨u', hu', hid, hemail, hext⟩ := h.kept u hu
    obtain ⟨u'', hu'', hid', hemail', hext'⟩ := h'.kept u' hu'
    exact ⟨u'', hu'', hid'.trans hid, hemail'.trans hemail, hext.trans hext'⟩

instance : Std.Refl Additive := ⟨Additive.refl⟩

instance : IsTrans System Additive := ⟨fun _ _ _ => Additive.trans⟩

/-- Putting a row in place is additive when it extends the row with its address. -/
theorem additive_of_put {s : System} {c : Control} {r : UserRecord}
    (h : Control.UserPut s.control c r) (hext : ∀ old ∈ s.control.user.rows,
      old.row.email = r.row.email → Extends old.row r.row) :
    Additive s { s with control := c } where
  one _ ha _ hb := Control.user_eq ha hb
  kept u hu := by
    by_cases hemail : u.row.email = r.row.email
    · exact ⟨r, h.mem, (h.kept u hu hemail).symm, hemail.symm, hext u hu hemail⟩
    · exact ⟨u, (h.rows u).mpr (.inr ⟨hu, hemail⟩), rfl, rfl, .refl u.row⟩

section Runs

variable [Platform]

/-- The state after a call, whatever it returns. -/
def step (a : UserAction) (s : System) : System :=
  match a with
  | .clock now => s.setNow now
  | .upsertUser input => ((upsertUser input).run s).2
  | .createPasswordUser input => ((createPasswordUser input).run s).2

/-- From any point of the run to any later one, nothing a row has is lost. -/
def NeverUndone (actions : List UserAction) (s : System) : Prop :=
  ∀ earlier middle later, actions = earlier ++ middle ++ later →
    Additive (Trace.exec step earlier s) (Trace.exec step (earlier ++ middle) s)

/-- No `upsert_user` without a display name comes upon a row with one. A malformed address, which
no row of the schema has, is left out: the statement fails on it. -/
def KeepsName (a : UserAction) (s : System) : Prop :=
  match a with
  | .upsertUser input => Platform.isEmail input.email = true → input.displayName = none →
      ∀ u ∈ s.control.user.rows, u.row.email = input.email → u.row.displayName = none
  | _ => True

/-! ## One call -/

/-- A registration keeps the name of the row it adds a password to. -/
theorem additive_createPasswordUser (input : RegisterPassword) (s : System) :
    Additive s ((createPasswordUser input).run s).2 := by
  cases hfound : s.control.userByEmail input.email with
  | none =>
      cases hcreate : s.control.createPasswordRow input s.now with
      | error e =>
          simpa [createPasswordUser, getUserByEmail, hfound, hcreate] using Additive.refl s
      | ok answer =>
          obtain ⟨r, c⟩ := answer
          obtain ⟨hput, hemail, -, -⟩ := Control.createPasswordRow_ok hcreate
          have hnone : ∀ old ∈ s.control.user.rows, old.row.email = r.row.email →
              Extends old.row r.row := fun old hold heq => by
            have hold := Control.userByEmail_eq_some.mpr ⟨hold, heq.trans hemail⟩
            cases hfound.symm.trans hold
          simpa [createPasswordUser, getUserByEmail, hfound, hcreate] using
            additive_of_put hput hnone
  | some existing =>
      obtain ⟨hmem, hemail⟩ := Control.userByEmail_eq_some.mp hfound
      by_cases hhash : existing.row.passwordHash.isSome = true
      · simpa [createPasswordUser, getUserByEmail, hfound, hhash] using Additive.refl s
      · cases hattach : s.control.attachPassword existing.id input.passwordHash
            (input.displayName.or existing.row.displayName) s.now with
        | error e =>
            simpa [createPasswordUser, getUserByEmail, hfound, hhash, hattach] using
              Additive.refl s
        | ok answer =>
            obtain ⟨row, c⟩ := answer
            obtain ⟨r, rfl, hput, hrow⟩ := Control.attachPassword_ok hmem hattach
            have hext : ∀ old ∈ s.control.user.rows, old.row.email = r.row.email →
                Extends old.row r.row := fun old hold heq => by
              obtain rfl := Control.user_eq hold hmem (by rw [heq, hrow])
              rw [hrow]
              refine ⟨id, fun _ => rfl, fun hname => ?_⟩
              cases input.displayName <;> simp [hname]
            simpa [createPasswordUser, getUserByEmail, hfound, hhash, hattach] using
              additive_of_put hput hext

/-- A Google sign-in is additive exactly when it keeps the name. -/
theorem additive_upsertUser_iff (input : UpsertUser) (s : System) :
    Additive s ((upsertUser input).run s).2 ↔ KeepsName (.upsertUser input) s := by
  cases hupsert : s.control.upsertUserRow input s.now with
  | error e =>
      refine iff_of_true (by simpa [upsertUser, hupsert] using Additive.refl s) ?_
      -- the statement can only fail for an address without a row
      intro hvalid _ u hu hemail
      obtain ⟨r, c, hok⟩ := Control.upsertUserRow_of_mem hu hemail hvalid
      cases hupsert.symm.trans hok
  | ok answer =>
      obtain ⟨r, c⟩ := answer
      obtain ⟨hput, hemail, hhash, hsub, hname, hvalid⟩ := Control.upsertUserRow_ok hupsert
      have hrun : ((upsertUser input).run s).2 = { s with control := c } := by
        simp [upsertUser, hupsert]
      rw [hrun]
      constructor
      · intro h _ hnone u hu hu'
        obtain ⟨u', hu', -, hemail', hext⟩ := h.kept u hu
        obtain rfl : u' = r := Control.user_eq hu' hput.mem (by simp [*])
        have hkept := hext.displayName
        rw [hname, hnone] at hkept
        simpa using hkept
      · intro h
        refine additive_of_put hput fun old hold heq => ⟨fun _ => by rw [hsub]; rfl, ?_, ?_⟩
        · intro hold'
          rw [hhash, Control.userByEmail_eq_some.mpr ⟨hold, heq.trans hemail⟩]
          exact hold'
        · intro hold'
          rw [hname]
          cases hnone : input.displayName with
          | some name => rfl
          | none => simp [h hvalid hnone old hold (heq.trans hemail)] at hold'

theorem additive_step_iff (a : UserAction) (s : System) :
    Additive s (step a s) ↔ KeepsName a s := by
  cases a with
  | clock now => exact iff_of_true ⟨fun _ ha _ hb => Control.user_eq ha hb,
      fun u hu => ⟨u, hu, rfl, rfl, .refl u.row⟩⟩ trivial
  | upsertUser input => exact additive_upsertUser_iff input s
  | createPasswordUser input => exact iff_of_true (additive_createPasswordUser input s) trivial

/-! ## Runs -/

/-- A run undoes nothing exactly when no call of it loses a name. -/
theorem never_undone_iff (actions : List UserAction) (s : System) :
    NeverUndone actions s ↔ Trace.Each step KeepsName actions s := by
  constructor
  · intro h
    induction actions generalizing s with
    | nil => trivial
    | cons a actions ih =>
        refine ⟨(additive_step_iff a s).mp (h [] [a] actions rfl), ih (step a s) ?_⟩
        rintro earlier middle later rfl
        exact h (a :: earlier) middle later rfl
  · rintro h earlier middle later rfl
    obtain ⟨hmiddle, -⟩ := Trace.each_append.mp h
    rw [Trace.exec_append]
    exact (Trace.each_append.mp hmiddle).2.relates fun a s => (additive_step_iff a s).mpr

end Runs

/-! ## Ann's name -/

section Sample

attribute [local instance] Platform.sample

/-- Ann registers with her name, and then signs in with Google, which reports none. -/
theorem name_undone_ann : ¬ NeverUndone
    [.createPasswordUser ⟨"ann@pool.org", "hash", some "Ann"⟩,
      .upsertUser ⟨"ann@pool.org", "google:ann", none⟩] (System.empty juneNoon) := by
  intro h
  obtain ⟨u', hu', -, -, hext⟩ :=
    (h [.createPasswordUser ⟨"ann@pool.org", "hash", some "Ann"⟩]
      [.upsertUser ⟨"ann@pool.org", "google:ann", none⟩] [] rfl).kept
      ⟨0, ⟨"ann@pool.org", none, some "hash", some "Ann", "UTC", juneNoon⟩⟩ (by decide)
  have hnone : ∀ u ∈ (Trace.exec step [.createPasswordUser ⟨"ann@pool.org", "hash", some "Ann"⟩,
      .upsertUser ⟨"ann@pool.org", "google:ann", none⟩]
      (System.empty juneNoon)).control.user.rows, u.row.displayName = none := by decide
  have hkept := hext.displayName rfl
  rw [hnone u' hu'] at hkept
  cases hkept

end Sample

end AdditiveSignIn

end SharamLedger
