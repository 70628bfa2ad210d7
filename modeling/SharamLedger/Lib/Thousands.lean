import Mathlib.Data.List.Basic
import Mathlib.Tactic.Linarith

/-!
# Separators counted from the right

The loop that goes through a row from its end and puts a separator before every group of a size.
`separated_eq` says what it writes: a first group that is not empty, and full groups with a
separator before each.
-/

namespace Lib.Thousands

variable {α : Type}

/-- One item of the reversed row, with its position: a separator first where a group is full. -/
def push (sep : α) (size : Nat) (grouped : List α) (item : α × Nat) : List α :=
  (if 0 < item.2 ∧ item.2 % size = 0 then grouped ++ [sep] else grouped) ++ [item.1]

/-- Group a row from the right. -/
def separated (sep : α) (size : Nat) (l : List α) : List α :=
  (l.reverse.zipIdx.foldl (push sep size) []).reverse

variable {sep : α} {size : Nat}

/-- The first item is the last one that the loop comes to. -/
theorem separated_cons (a : α) (l : List α) :
    separated sep size (a :: l) =
      if 0 < l.length ∧ l.length % size = 0 then a :: sep :: separated sep size l
      else a :: separated sep size l := by
  unfold separated
  rw [List.reverse_cons, List.zipIdx_append, List.foldl_append]
  simp only [List.zipIdx_singleton, List.foldl_cons, List.foldl_nil, push, List.length_reverse,
    Nat.zero_add]
  split <;> simp

theorem length_flatten_groups {groups : List (List α)} (h : ∀ g ∈ groups, g.length = size) :
    groups.flatten.length = size * groups.length := by
  induction groups with
  | nil => rfl
  | cons g groups ih =>
      have hrest := ih fun g' hg => h g' (List.mem_cons_of_mem g hg)
      rw [List.flatten_cons, List.length_append, h g List.mem_cons_self, hrest, List.length_cons,
        Nat.mul_succ, Nat.add_comm]

/-- A first group of one item or more and full groups behind it, and their separators. -/
theorem separated_eq (hsize : 0 < size) {l : List α} (hl : l ≠ []) :
    ∃ (head : List α) (groups : List (List α)), l = head ++ groups.flatten ∧ 1 ≤ head.length ∧
      head.length ≤ size ∧ (∀ g ∈ groups, g.length = size) ∧
      separated sep size l = head ++ groups.flatMap (sep :: ·) := by
  induction l with
  | nil => exact absurd rfl hl
  | cons a l ih =>
      rw [separated_cons]
      rcases List.eq_nil_or_concat l with rfl | ⟨front, b, hfront⟩
      · exact ⟨[a], [], rfl, Nat.le_refl 1, hsize, by simp, rfl⟩
      · have hne : l ≠ [] := by simp [hfront]
        obtain ⟨head, groups, heq, hpos, hle, hgroups, hwritten⟩ := ih hne
        have hlen : l.length = head.length + size * groups.length := by
          rw [heq, List.length_append, length_flatten_groups hgroups]
        have hmod : l.length % size = head.length % size := by
          rw [hlen, Nat.add_mul_mod_self_left]
        rw [hwritten]
        rcases Nat.eq_or_lt_of_le hle with hfull | hroom
        · -- the first group is full, the new item starts another one
          have hzero : l.length % size = 0 := by rw [hmod, hfull, Nat.mod_self]
          rw [if_pos ⟨by omega, hzero⟩]
          refine ⟨[a], head :: groups, by simp [heq], Nat.le_refl 1, hsize, ?_, by simp⟩
          exact List.forall_mem_cons.mpr ⟨hfull, hgroups⟩
        · have hrest : l.length % size ≠ 0 := by
            rw [hmod, Nat.mod_eq_of_lt hroom]
            omega
          rw [if_neg fun h => hrest h.2]
          exact ⟨a :: head, groups, by simp [heq], by simp, hroom, hgroups, by simp⟩

/-- Without the separators the row is as it was. -/
theorem filter_separated [DecidableEq α] {l : List α} (hsep : sep ∉ l) :
    (separated sep size l).filter (· != sep) = l := by
  induction l with
  | nil => rfl
  | cons a l ih =>
      rw [List.mem_cons, not_or] at hsep
      have ha : (a != sep) = true := bne_iff_ne.mpr (Ne.symm hsep.1)
      have hrest := ih hsep.2
      rw [separated_cons]
      split <;> simp [ha, hrest]

end Lib.Thousands
