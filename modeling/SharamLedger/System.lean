import SharamLedger.Schema.Control
import SharamLedger.Schema.Contribution
import SharamLedger.Lib.Prog

/-!
# The state of a deployment

The clock, the control plane, one namespace per slug, the object store and the e-mails handed
to the mailer. A namespace that no statement has written is empty.
-/

namespace SharamLedger

open Lib

/-- An object of the proof store. -/
structure StoredProof where
  contentType : String
  bytes : List UInt8
  deriving DecidableEq, Repr

/-- `InviteEmail`. -/
structure InviteEmail where
  toEmail : String
  tenantSlug : String
  tenantDisplayName : String
  role : String
  invitedByName : Option String
  invitedByEmail : String
  deriving DecidableEq, Repr

/-- Everything the handlers read or write. -/
structure System where
  now : DateTime
  control : Control
  namespaces : String → Namespace
  proofs : String → Option StoredProof
  outbox : List InviteEmail

namespace System

/-- A fresh deployment. -/
def empty (now : DateTime) : System where
  now := now
  control := .empty
  namespaces := fun _ => .empty
  proofs := fun _ => none
  outbox := []

/-- Move the clock. -/
def setNow (s : System) (now : DateTime) : System := { s with now := now }

/-- Replace the rows of one tenant. -/
def setNamespace (s : System) (slug : String) (ns : Namespace) : System :=
  { s with namespaces := fun slug' => if slug' = slug then ns else s.namespaces slug' }

@[simp] theorem namespaces_setNamespace_same (s : System) (slug : String) (ns : Namespace) :
    (s.setNamespace slug ns).namespaces slug = ns :=
  if_pos rfl

theorem namespaces_setNamespace_of_ne (s : System) {slug slug' : String} (ns : Namespace)
    (h : slug' ≠ slug) : (s.setNamespace slug ns).namespaces slug' = s.namespaces slug' :=
  if_neg h

/-- What the new namespace has as the old one had it, every tenant has as before. -/
theorem field_setNamespace {α : Type} (field : Namespace → α) {s : System} {slug : String}
    {ns : Namespace} (h : field ns = field (s.namespaces slug)) (slug' : String) :
    field ((s.setNamespace slug ns).namespaces slug') = field (s.namespaces slug') := by
  by_cases hslug : slug' = slug
  · subst hslug
    rw [namespaces_setNamespace_same, h]
  · rw [namespaces_setNamespace_of_ne _ _ hslug]

@[simp] theorem setNamespace_self (s : System) (slug : String) :
    s.setNamespace slug (s.namespaces slug) = s := by
  unfold setNamespace
  congr
  funext slug'
  split
  · next h => rw [h]
  · rfl

@[simp] theorem now_setNamespace (s : System) (slug : String) (ns : Namespace) :
    (s.setNamespace slug ns).now = s.now := rfl

@[simp] theorem control_setNamespace (s : System) (slug : String) (ns : Namespace) :
    (s.setNamespace slug ns).control = s.control := rfl

end System

end SharamLedger
