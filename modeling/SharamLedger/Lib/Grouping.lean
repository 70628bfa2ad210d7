import Mathlib.Algebra.BigOperators.Group.List.Basic
import Mathlib.Algebra.Order.BigOperators.Group.List
import Mathlib.Algebra.Order.Ring.Int
import Mathlib.Data.List.Perm.Basic

/-!
# Sums by group

Items are put into groups, and every group gets a figure. `Tallies` says that the groups hold
each item exactly once and that every figure is the sum of the weights in its group. Two
groupings of the same items then have the same total, whatever the groups are.
-/

namespace Lib

variable {α κ : Type}

/-- Selecting by each of the keys that occur, without repetition, splits a list up. -/
theorem flatMap_filter_perm [DecidableEq κ] {keys : List κ} (hkeys : keys.Nodup) (key : α → κ)
    {l : List α} (hcovered : ∀ a ∈ l, key a ∈ keys) :
    (keys.flatMap fun k => l.filter fun a => key a == k).Perm l := by
  induction keys generalizing l with
  | nil =>
      cases l with
      | nil => exact .nil
      | cons a l => cases hcovered a (by simp)
  | cons k keys ih =>
      obtain ⟨hk, hkeys⟩ := List.nodup_cons.mp hkeys
      -- the later keys select from what the first one leaves over
      have hrest : keys.flatMap (fun k' => l.filter fun a => key a == k') =
          keys.flatMap fun k' =>
            (l.filter fun a => !(key a == k)).filter fun a => key a == k' := by
        refine List.flatMap_congr fun k' hk' => ?_
        rw [List.filter_filter]
        refine List.filter_congr fun a _ => ?_
        have hne : k' ≠ k := fun heq => hk (heq ▸ hk')
        by_cases hkey : key a = k' <;> simp [hkey, hne]
      rw [List.flatMap_cons, hrest]
      refine (List.Perm.append_left _ (ih hkeys fun a ha => ?_)).trans
        (List.filter_append_perm _ l)
      obtain ⟨ha, hne⟩ := List.mem_filter.mp ha
      rcases List.mem_cons.mp (hcovered a ha) with heq | hmem
      · simp [heq] at hne
      · exact hmem

/-- Every group stands in an order when any two items of one group do. -/
theorem pairwise_groups [DecidableEq κ] {key : α → κ} {R : α → α → Prop} {l : List α} :
    (∀ k, (l.filter fun a => key a == k).Pairwise R) ↔
      l.Pairwise fun a b => key a = key b → R a b := by
  constructor
  · intro h
    refine List.pairwise_iff_forall_sublist.mpr fun {a b} hab hkey => ?_
    refine List.pairwise_iff_forall_sublist.mp (h (key a)) ?_
    have hboth : [a, b].filter (fun x => key x == key a) = [a, b] :=
      List.filter_eq_self.mpr (by simp [hkey])
    exact hboth ▸ hab.filter _
  · intro h k
    refine List.pairwise_filter.mpr (h.imp fun {a b} hR ha hb => hR ?_)
    exact (beq_iff_eq.mp ha).trans (beq_iff_eq.mp hb).symm

/-- Of the entries with one key, a list without duplicate keys has one or none. -/
theorem countP_eq_one_iff {l : List α} {key : α → κ} (h : (l.map key).Nodup) {p : α → Bool}
    {k : κ} (hp : ∀ a ∈ l, p a = true → key a = k) :
    l.countP p = 1 ↔ ∃ a ∈ l, p a = true := by
  constructor
  · intro hcount
    exact List.countP_pos_iff.mp (by omega)
  · intro hfound
    have hpos := List.countP_pos_iff.mpr hfound
    have hkeys : ((l.filter p).map key).Nodup := (List.filter_sublist.map key).nodup h
    have hone : ((l.filter p).map key).length ≤ [k].length := by
      refine (List.subperm_of_subset hkeys fun k' hk' => ?_).length_le
      obtain ⟨a, ha, rfl⟩ := List.mem_map.mp hk'
      obtain ⟨ha, hpa⟩ := List.mem_filter.mp ha
      exact List.mem_singleton.mpr (hp a ha hpa)
    rw [List.length_map, ← List.countP_eq_length_filter, List.length_singleton] at hone
    omega

/-- The groups hold every item of `l` exactly once and no other, and each has the sum of its
weights as its figure. -/
structure Tallies (weight : α → Int) (l : List α) (groups : List (List α × Int)) : Prop where
  once : (groups.flatMap (·.1)).Perm l
  exact : ∀ g ∈ groups, g.2 = (g.1.map weight).sum

namespace Tallies

variable {weight : α → Int} {l : List α}

/-- The figures add up to the weight of all items. -/
theorem total {groups : List (List α × Int)} (h : Tallies weight l groups) :
    (groups.map (·.2)).sum = (l.map weight).sum := by
  calc (groups.map (·.2)).sum = (groups.map fun g => (g.1.map weight).sum).sum := by
        rw [List.map_congr_left h.exact]
    _ = ((groups.flatMap (·.1)).map weight).sum := by
        clear h
        induction groups with
        | nil => rfl
        | cons g groups ih => simp [ih]
    _ = (l.map weight).sum := (h.once.map weight).sum_eq

variable [DecidableEq κ] {keys : List κ} {key : α → κ}

/-- One group for each key. -/
theorem of_keys (hkeys : keys.Nodup) (hcovered : ∀ a ∈ l, key a ∈ keys) {figure : κ → Int}
    (hexact : ∀ k ∈ keys, figure k = ((l.filter fun a => key a == k).map weight).sum) :
    Tallies weight l (keys.map fun k => (l.filter fun a => key a == k, figure k)) where
  once := by
    rw [List.flatMap_map]
    exact flatMap_filter_perm hkeys key hcovered
  exact g hg := by
    obtain ⟨k, hk, rfl⟩ := List.mem_map.mp hg
    exact hexact k hk

/-- Groups of the groups. -/
theorem flatMap (hkeys : keys.Nodup) (hcovered : ∀ a ∈ l, key a ∈ keys)
    {groups : κ → List (List α × Int)}
    (hgroups : ∀ k ∈ keys, Tallies weight (l.filter fun a => key a == k) (groups k)) :
    Tallies weight l (keys.flatMap groups) where
  once := by
    rw [List.flatMap_assoc]
    refine (List.Perm.flatMap_left _ fun k hk => (hgroups k hk).once).trans ?_
    exact flatMap_filter_perm hkeys key hcovered
  exact g hg := by
    obtain ⟨k, hk, hg⟩ := List.mem_flatMap.mp hg
    exact (hgroups k hk).exact g hg

end Tallies

/-! ## Clamped sums -/

theorem sum_clamped_nonneg (values : List Int) : 0 ≤ (values.map fun v => max v 0).sum := by
  refine List.sum_nonneg fun n hn => ?_
  obtain ⟨v, -, rfl⟩ := List.mem_map.mp hn
  exact le_max_right v 0

theorem sum_clamped_eq_zero {values : List Int} :
    (values.map fun v => max v 0).sum = 0 ↔ ∀ v ∈ values, v ≤ 0 := by
  induction values with
  | nil => simp
  | cons v values ih =>
      have hrest := sum_clamped_nonneg values
      rw [List.map_cons, List.sum_cons, List.forall_mem_cons, ← ih]
      omega

/-- Clamping the total at zero is the same as clamping each value just when the values do not
have both signs. -/
theorem max_sum_eq_iff {values : List Int} :
    max values.sum 0 = (values.map fun v => max v 0).sum ↔
      (∀ v ∈ values, 0 ≤ v) ∨ ∀ v ∈ values, v ≤ 0 := by
  -- the total is what is above zero less what is below
  have hsplit : values.sum =
      (values.map fun v => max v 0).sum - ((values.map (- ·)).map fun v => max v 0).sum := by
    induction values with
    | nil => rfl
    | cons v values ih =>
        simp only [List.map_cons, List.sum_cons]
        omega
  have habove := sum_clamped_nonneg values
  have hbelow := sum_clamped_nonneg (values.map (- ·))
  have hneg : ((values.map (- ·)).map fun v => max v 0).sum = 0 ↔ ∀ v ∈ values, 0 ≤ v := by
    rw [sum_clamped_eq_zero, List.forall_mem_map]
    exact forall₂_congr fun v _ => by omega
  rw [← hneg, ← sum_clamped_eq_zero]
  omega

end Lib
