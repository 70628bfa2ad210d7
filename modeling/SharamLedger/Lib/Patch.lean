/-!
# Patches of records

A record is a value for each field, and a patch a new value for some of them. One patch after
another is one patch in which the later fields override the earlier ones, and patches without a
common field can change places.
-/

namespace Lib

/-- A new value for some of the fields. -/
def Patch {ι : Type} (F : ι → Type) : Type := ∀ i, Option (F i)

namespace Patch

variable {ι : Type} {F : ι → Type}

/-- Fields that the patch does not have stay as they are. -/
def apply (p : Patch F) (r : ∀ i, F i) : ∀ i, F i := fun i => (p i).getD (r i)

/-- The fields of `q` over those of `p`. -/
def override (p q : Patch F) : Patch F := fun i => (q i).or (p i)

/-- No field is in both patches. -/
def Disjoint (p q : Patch F) : Prop := ∀ i, p i = none ∨ q i = none

theorem apply_of_some {p : Patch F} {i : ι} {v : F i} (h : p i = some v) (r : ∀ i, F i) :
    p.apply r i = v := by
  rw [apply, h, Option.getD_some]

theorem apply_of_none {p : Patch F} {i : ι} (h : p i = none) (r : ∀ i, F i) :
    p.apply r i = r i := by
  rw [apply, h, Option.getD_none]

/-- One patch after another. -/
theorem apply_apply (p q : Patch F) (r : ∀ i, F i) :
    q.apply (p.apply r) = (p.override q).apply r := by
  funext i
  exact Option.getD_or.symm

theorem override_comm {p q : Patch F} (h : p.Disjoint q) : p.override q = q.override p := by
  funext i
  rcases h i with hnone | hnone <;> rw [override, override, hnone, Option.none_or, Option.or_none]

/-- Patches without a common field commute. -/
theorem apply_comm {p q : Patch F} (h : p.Disjoint q) (r : ∀ i, F i) :
    q.apply (p.apply r) = p.apply (q.apply r) := by
  rw [apply_apply, apply_apply, override_comm h]

end Patch

end Lib
