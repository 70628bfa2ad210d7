import SharamLedger.Ledger.Error

/-!
# Queries of the ledger client

A call of the ledger is a program whose queries go to the control plane or to one tenant's
namespace. Each query is one atomic step; an error ends the call that issued it.
-/

namespace SharamLedger

open Lib

/-- A call of the ledger client. -/
abbrev LedgerProg := Prog System LedgerError

variable {α : Type}

/-- A `SELECT` on the control plane. -/
def readControl (f : Control → α) : LedgerProg α := .read fun s => f s.control

/-- A writing statement on the control plane. A failed statement changes nothing. -/
def onControl (onError : DbError → LedgerError)
    (f : DateTime → Control → Except DbError (α × Control)) : LedgerProg α :=
  .exec fun s =>
    match f s.now s.control with
    | .ok (a, c) => .ok (a, { s with control := c })
    | .error e => .error (onError e)

/-- A `SELECT` in a tenant's namespace. -/
def readTenant (slug : TenantSlug) (f : Namespace → α) : LedgerProg α :=
  .read fun s => f (s.namespaces slug.val)

/-- A writing statement in a tenant's namespace. A failed statement changes nothing. -/
def onTenant (slug : TenantSlug) (onError : DbError → LedgerError)
    (f : DateTime → Namespace → Except DbError (α × Namespace)) : LedgerProg α :=
  .exec fun s =>
    match f s.now (s.namespaces slug.val) with
    | .ok (a, ns) => .ok (a, s.setNamespace slug.val ns)
    | .error e => .error (onError e)

/-! ## Running one query -/

@[simp] theorem run_readControl (f : Control → α) (s : System) :
    (readControl f).run s = (.ok (f s.control), s) := rfl

@[simp] theorem run_readTenant (slug : TenantSlug) (f : Namespace → α) (s : System) :
    (readTenant slug f).run s = (.ok (f (s.namespaces slug.val)), s) := rfl

@[simp] theorem run_onControl (onError : DbError → LedgerError)
    (f : DateTime → Control → Except DbError (α × Control)) (s : System) :
    (onControl onError f).run s = match f s.now s.control with
      | .ok (a, c) => (.ok a, { s with control := c })
      | .error e => (.error (onError e), s) := by
  simp only [onControl, Prog.run_exec]
  cases f s.now s.control <;> rfl

@[simp] theorem run_onTenant (slug : TenantSlug) (onError : DbError → LedgerError)
    (f : DateTime → Namespace → Except DbError (α × Namespace)) (s : System) :
    (onTenant slug onError f).run s = match f s.now (s.namespaces slug.val) with
      | .ok (a, ns) => (.ok a, s.setNamespace slug.val ns)
      | .error e => (.error (onError e), s) := by
  simp only [onTenant, Prog.run_exec]
  cases f s.now (s.namespaces slug.val) <;> rfl

/-- The query of a statement that is accepted, and what the program goes on with. -/
theorem query_onControl {β : Type} {onError : DbError → LedgerError}
    {f : DateTime → Control → Except DbError (α × Control)} {k : α → LedgerProg β}
    {effect : System → System} {next : System → LedgerProg β} {s : System} {a : α} {c : Control}
    (hp : (onControl onError f >>= k) = .query effect next) (hf : f s.now s.control = .ok (a, c)) :
    effect s = { s with control := c } ∧ next s = k a := by
  obtain ⟨rfl, rfl⟩ := Prog.query.inj hp
  simp only [hf]
  exact ⟨trivial, rfl⟩

/-! ## What one query may do -/

section Moves

variable {R : System → System → Prop} [Std.Refl R]

theorem moves_readControl (f : Control → α) : (readControl f).Moves R := Prog.moves_read _

theorem moves_readTenant (slug : TenantSlug) (f : Namespace → α) :
    (readTenant slug f).Moves R := Prog.moves_read _

theorem moves_onControl {onError : DbError → LedgerError}
    {f : DateTime → Control → Except DbError (α × Control)}
    (h : ∀ s a c, f s.now s.control = .ok (a, c) → R s { s with control := c }) :
    (onControl onError f).Moves R := by
  refine Prog.moves_exec fun s a s' hs => ?_
  cases hf : f s.now s.control with
  | error e => simp [hf] at hs
  | ok answer =>
      simp only [hf, Except.ok.injEq, Prod.mk.injEq] at hs
      rw [← hs.2]
      exact h s answer.1 answer.2 hf

theorem moves_onTenant {slug : TenantSlug} {onError : DbError → LedgerError}
    {f : DateTime → Namespace → Except DbError (α × Namespace)}
    (h : ∀ s a ns, f s.now (s.namespaces slug.val) = .ok (a, ns) →
      R s (s.setNamespace slug.val ns)) : (onTenant slug onError f).Moves R := by
  refine Prog.moves_exec fun s a s' hs => ?_
  cases hf : f s.now (s.namespaces slug.val) with
  | error e => simp [hf] at hs
  | ok answer =>
      simp only [hf, Except.ok.injEq, Prod.mk.injEq] at hs
      rw [← hs.2]
      exact h s answer.1 answer.2 hf

end Moves

end SharamLedger
