import Mathlib.Algebra.BigOperators.Group.List.Basic
import Mathlib.Algebra.Order.BigOperators.Group.List
import Mathlib.Algebra.Order.Ring.Int

/-!
# Signed 64-bit arithmetic

Machine integers are `Int` values in range; arithmetic wraps around modulo `2 ^ 64`. The
lemmas say when wrapping changes nothing.
-/

namespace Lib.I64

/-- The largest signed 64-bit integer. -/
def maxValue : Int := 2 ^ 63 - 1

/-- The value is representable in 64 bits with a sign. -/
def Fits (n : Int) : Prop := -(2 ^ 63) ≤ n ∧ n ≤ maxValue

instance (n : Int) : Decidable (Fits n) := inferInstanceAs (Decidable (_ ∧ _))

/-- The representative of `n` modulo `2 ^ 64` in the signed range. -/
def wrap (n : Int) : Int := n.bmod (2 ^ 64)

def add (a b : Int) : Int := wrap (a + b)

def sub (a b : Int) : Int := wrap (a - b)

/-- Left-to-right sum with every intermediate result wrapped. -/
def sum (values : List Int) : Int := values.foldl add 0

/-- Multiplication that stops at the ends of the range instead of wrapping. -/
def saturatingMul (a b : Int) : Int := max (-(2 ^ 63)) (min maxValue (a * b))

/-- The result, unless it leaves the range. -/
def checked (n : Int) : Option Int := if Fits n then some n else none

def checkedAdd (a b : Int) : Option Int := checked (a + b)

def checkedSub (a b : Int) : Option Int := checked (a - b)

def checkedMul (a b : Int) : Option Int := checked (a * b)

/-- Left-to-right sum that stops at an intermediate result out of range. -/
def checkedSum (values : List Int) : Option Int := values.foldlM checkedAdd 0

theorem wrap_of_fits {n : Int} (h : Fits n) : wrap n = n := by
  unfold Fits maxValue at h
  unfold wrap
  apply Int.bmod_eq_of_le <;> omega

theorem saturatingMul_of_fits {a b : Int} (h : Fits (a * b)) : saturatingMul a b = a * b := by
  unfold Fits at h
  unfold saturatingMul
  omega

theorem fits_wrap (n : Int) : Fits (wrap n) := by
  have hlow : -(((2 ^ 64 : Nat) : Int) / 2) ≤ wrap n := Int.le_bmod (by decide)
  have hhigh : wrap n < (((2 ^ 64 : Nat) : Int) + 1) / 2 := Int.bmod_lt (by decide)
  unfold Fits maxValue
  omega

theorem add_of_fits {a b : Int} (h : Fits (a + b)) : add a b = a + b := wrap_of_fits h

theorem sub_of_fits {a b : Int} (h : Fits (a - b)) : sub a b = a - b := wrap_of_fits h

/-- The difference of values of zero or more is in range. -/
theorem fits_sub {a b : Int} (ha : 0 ≤ a) (hb : 0 ≤ b) (haRoom : a ≤ maxValue)
    (hbRoom : b ≤ maxValue) : Fits (a - b) := by
  unfold maxValue at haRoom hbRoom
  unfold Fits maxValue
  omega

theorem sub_of_nonneg {a b : Int} (ha : 0 ≤ a) (hb : 0 ≤ b) (haRoom : a ≤ maxValue)
    (hbRoom : b ≤ maxValue) : sub a b = a - b :=
  sub_of_fits (fits_sub ha hb haRoom hbRoom)

theorem add_wrap_sum (values : List Int) (v : Int) :
    add (wrap values.sum) v = wrap (values ++ [v]).sum := by
  simp [add, wrap, Int.bmod_add_bmod]

/-- Wrapping on the way makes no difference to the total modulo `2 ^ 64`. -/
theorem foldl_add {values : List Int} {start : Int} (h : Fits start) :
    values.foldl add start = wrap (start + values.sum) := by
  induction values generalizing start with
  | nil => simp [wrap_of_fits h]
  | cons v values ih =>
      calc (v :: values).foldl add start = values.foldl add (add start v) := rfl
        _ = wrap (wrap (start + v) + values.sum) := ih (fits_wrap _)
        _ = wrap (start + (v :: values).sum) := by
          rw [wrap, wrap, Int.bmod_add_bmod, List.sum_cons, Int.add_assoc, wrap]

theorem sum_eq_wrap (values : List Int) : sum values = wrap values.sum := by
  rw [sum, foldl_add (by decide), Int.zero_add]

/-- A sum is exact when the total fits. -/
theorem sum_of_fits {values : List Int} (h : Fits values.sum) : sum values = values.sum := by
  rw [sum_eq_wrap, wrap_of_fits h]

/-! ## Checked arithmetic -/

theorem checked_of_fits {n : Int} (h : Fits n) : checked n = some n := if_pos h

theorem checked_eq_some {n m : Int} : checked n = some m ↔ Fits n ∧ n = m := by
  simp [checked]

theorem checkedSub_of_nonneg {a b : Int} (ha : 0 ≤ a) (hb : 0 ≤ b) (haRoom : a ≤ maxValue)
    (hbRoom : b ≤ maxValue) : checkedSub a b = some (sub a b) := by
  have hfits := fits_sub ha hb haRoom hbRoom
  rw [checkedSub, checked_of_fits hfits, sub_of_fits hfits]

/-- No addition of values of zero or more leaves the range when the total does not. -/
theorem foldlM_checkedAdd {values : List Int} (hvalues : ∀ v ∈ values, 0 ≤ v) {start : Int}
    (hstart : 0 ≤ start) (htotal : start + values.sum ≤ maxValue) :
    values.foldlM checkedAdd start = some (values.foldl add start) := by
  induction values generalizing start with
  | nil => rfl
  | cons v values ih =>
      obtain ⟨hv, hvalues⟩ := List.forall_mem_cons.mp hvalues
      have hrest : 0 ≤ values.sum := List.sum_nonneg hvalues
      rw [List.sum_cons] at htotal
      have hfits : Fits (start + v) := ⟨by omega, by omega⟩
      have hnext : values.foldlM checkedAdd (start + v) = some (values.foldl add (start + v)) :=
        ih hvalues (by omega) (by omega)
      rw [List.foldlM_cons, checkedAdd, checked_of_fits hfits, List.foldl_cons, add_of_fits hfits]
      exact hnext

theorem checkedSum_of_nonneg {values : List Int} (hvalues : ∀ v ∈ values, 0 ≤ v)
    (htotal : values.sum ≤ maxValue) : checkedSum values = some (sum values) :=
  foldlM_checkedAdd hvalues le_rfl (by omega)

end Lib.I64
