import Mathlib.Data.List.Pairwise
import Mathlib.Algebra.BigOperators.Group.List.Basic
import Mathlib.Algebra.Order.BigOperators.Group.List

/-!
# Tables with record keys and unique indexes

A `Table` is a list of records in creation order. Its type carries what a database
guarantees of every table: record keys are distinct, a key is never given out twice, and
no two rows collide on a unique index. `create` and `update` fail rather than break an
index.
-/

namespace Lib

/-- A stored row together with the record key the store drew for it. -/
structure Record (α : Type) where
  id : Nat
  row : α
  deriving DecidableEq, Repr

/-- The unique indexes of a row type: two rows collide when some index holds the same value
for both. -/
class Indexed (α : Type) where
  collides : α → α → Bool
  collides_comm : ∀ a b, collides a b = collides b a

open Indexed

/-- The rows of a table, in creation order, and the next record key. -/
structure Table (α : Type) [Indexed α] where
  rows : List (Record α)
  nextId : Nat
  fresh : ∀ r ∈ rows, r.id < nextId
  distinct : rows.Pairwise fun a b => a.id ≠ b.id
  unique : rows.Pairwise fun a b => collides a.row b.row = false

namespace Table

variable {α : Type} [Indexed α]

/-- The table without rows. -/
def empty : Table α := ⟨[], 0, by simp, .nil, .nil⟩

@[ext] theorem ext {t t' : Table α} (hrows : t.rows = t'.rows) (hnext : t.nextId = t'.nextId) :
    t = t' := by
  cases t
  cases t'
  simp_all

instance [DecidableEq α] : DecidableEq (Table α) := fun t t' =>
  decidable_of_iff (t.rows = t'.rows ∧ t.nextId = t'.nextId)
    ⟨fun h => ext h.1 h.2, by rintro rfl; exact ⟨rfl, rfl⟩⟩

/-- Rows that satisfy a condition, oldest first. -/
def select (t : Table α) (sel : Record α → Bool) : List (Record α) := t.rows.filter sel

/-- The first row that satisfies a condition. -/
def find (t : Table α) (sel : Record α → Bool) : Option (Record α) := t.rows.find? sel

/-- Insert a row under a fresh key. Fails when a unique index already holds its value. -/
def create (t : Table α) (row : α) : Option (Record α × Table α) :=
  if h : ∀ r ∈ t.rows, collides r.row row = false then
    some (⟨t.nextId, row⟩,
      { rows := t.rows ++ [⟨t.nextId, row⟩]
        nextId := t.nextId + 1
        fresh := by
          intro r hr
          rcases List.mem_append.mp hr with hr | hr
          · exact Nat.lt_succ_of_lt (t.fresh r hr)
          · simp only [List.mem_singleton] at hr
            simp [hr]
        distinct := by
          refine List.pairwise_append.mpr ⟨t.distinct, List.pairwise_singleton _ _, ?_⟩
          intro a ha b hb
          simp only [List.mem_singleton] at hb
          simpa [hb] using (t.fresh a ha).ne
        unique := by
          refine List.pairwise_append.mpr ⟨t.unique, List.pairwise_singleton _ _, ?_⟩
          intro a ha b hb
          simp only [List.mem_singleton] at hb
          simpa [hb] using h a ha })
  else none

/-- The record an update writes in place of `r`. -/
def updated (sel : Record α → Bool) (set : α → α) (r : Record α) : Record α :=
  if sel r then ⟨r.id, set r.row⟩ else r

omit [Indexed α] in
@[simp] theorem updated_id (sel : Record α → Bool) (set : α → α) (r : Record α) :
    (updated sel set r).id = r.id := by
  unfold updated
  split <;> rfl

/-- Rewrite the selected rows. Fails when the result would break a unique index. -/
def update (t : Table α) (sel : Record α → Bool) (set : α → α) : Option (Table α) :=
  if h : (t.rows.map (updated sel set)).Pairwise fun a b => collides a.row b.row = false then
    some
      { rows := t.rows.map (updated sel set)
        nextId := t.nextId
        fresh := by
          intro r hr
          obtain ⟨old, hold, rfl⟩ := List.mem_map.mp hr
          simpa using t.fresh old hold
        distinct := by
          rw [List.pairwise_map]
          simpa using t.distinct
        unique := h }
  else none

/-- Rewrite one record. Fails when the result would break a unique index. -/
def replace (t : Table α) (r : Record α) (row : α) : Option (Table α) :=
  t.update (fun x => x.id == r.id) fun _ => row

/-- Remove the selected rows. -/
def delete (t : Table α) (sel : Record α → Bool) : Table α where
  rows := t.rows.filter fun r => !sel r
  nextId := t.nextId
  fresh := fun r hr => t.fresh r (List.mem_filter.mp hr).1
  distinct := t.distinct.filter _
  unique := t.unique.filter _

/-! ## Rows by key -/

/-- A record key names at most one row. -/
theorem eq_of_id_eq {t : Table α} {a b : Record α} (ha : a ∈ t.rows) (hb : b ∈ t.rows)
    (h : a.id = b.id) : a = b := by
  by_contra hne
  have : Std.Symm fun a b : Record α => a.id ≠ b.id := ⟨fun _ _ => Ne.symm⟩
  exact t.distinct.forall ha hb hne h

/-- A unique index value names at most one row. -/
theorem eq_of_collides {t : Table α} {a b : Record α} (ha : a ∈ t.rows) (hb : b ∈ t.rows)
    (h : collides a.row b.row = true) : a = b := by
  by_contra hne
  have : Std.Symm fun a b : Record α => collides a.row b.row = false :=
    ⟨fun a b hab => (collides_comm b.row a.row).trans hab⟩
  simpa [h] using t.unique.forall ha hb hne

@[simp] theorem mem_select {t : Table α} {sel : Record α → Bool} {r : Record α} :
    r ∈ t.select sel ↔ r ∈ t.rows ∧ sel r = true :=
  List.mem_filter

theorem find_some {t : Table α} {sel : Record α → Bool} {r : Record α}
    (h : t.find sel = some r) : r ∈ t.rows ∧ sel r = true :=
  ⟨List.mem_of_find?_eq_some h, List.find?_some h⟩

theorem find_none {t : Table α} {sel : Record α → Bool} (h : t.find sel = none) :
    ∀ r ∈ t.rows, sel r = false := by
  intro r hr
  simpa using List.find?_eq_none.mp h r hr

/-- A lookup that at most one row can satisfy finds that row. -/
theorem find_eq_some {t : Table α} {sel : Record α → Bool} {r : Record α} (hr : r ∈ t.rows)
    (hsel : sel r = true) (huniq : ∀ r' ∈ t.rows, sel r' = true → r' = r) :
    t.find sel = some r := by
  cases h : t.find sel with
  | none => simp [find_none h r hr] at hsel
  | some r' =>
      obtain ⟨hr', hsel'⟩ := find_some h
      rw [huniq r' hr' hsel']

/-! ## What the statements do to the rows -/

/-- A successful insert appends its row under a key that was not in use. -/
theorem create_some {t t' : Table α} {row : α} {r : Record α}
    (h : t.create row = some (r, t')) :
    r = ⟨t.nextId, row⟩ ∧ t'.rows = t.rows ++ [r] ∧
      (∀ old ∈ t.rows, collides old.row row = false) := by
  unfold create at h
  split at h
  · next hfree =>
      cases h
      exact ⟨rfl, rfl, hfree⟩
  · cases h

theorem create_nextId {t t' : Table α} {row : α} {r : Record α}
    (h : t.create row = some (r, t')) : t'.nextId = t.nextId + 1 := by
  unfold create at h
  split at h
  · cases h
    rfl
  · cases h

/-- An insert that meets no index value of its own succeeds. -/
theorem create_of_free {t : Table α} {row : α}
    (h : ∀ old ∈ t.rows, collides old.row row = false) :
    ∃ t', t.create row = some (⟨t.nextId, row⟩, t') := by
  unfold create
  rw [dif_pos h]
  exact ⟨_, rfl⟩

theorem update_some {t t' : Table α} {sel : Record α → Bool} {set : α → α}
    (h : t.update sel set = some t') : t'.rows = t.rows.map (updated sel set) := by
  unfold update at h
  split at h
  · cases h
    rfl
  · cases h

/-- Updates draw no record keys. -/
theorem update_nextId {t t' : Table α} {sel : Record α → Bool} {set : α → α}
    (h : t.update sel set = some t') : t'.nextId = t.nextId := by
  unfold update at h
  split at h
  · cases h
    rfl
  · cases h

/-- An update that leaves every index value alone cannot fail. -/
theorem update_of_collides_eq {t : Table α} {sel : Record α → Bool} {set : α → α}
    (h : ∀ a ∈ t.rows, ∀ b ∈ t.rows,
      collides (updated sel set a).row (updated sel set b).row = collides a.row b.row) :
    ∃ t', t.update sel set = some t' := by
  have hpair : (t.rows.map (updated sel set)).Pairwise
      fun a b => collides a.row b.row = false := by
    rw [List.pairwise_map]
    exact t.unique.imp_of_mem fun ha hb hab => (h _ ha _ hb).trans hab
  unfold update
  rw [dif_pos hpair]
  exact ⟨_, rfl⟩

/-- Rows the update did not select are kept as they were. -/
theorem mem_of_update_unselected {t t' : Table α} {sel : Record α → Bool} {set : α → α}
    (h : t.update sel set = some t') {r : Record α} (hr : r ∈ t.rows) (hsel : sel r = false) :
    r ∈ t'.rows := by
  rw [update_some h]
  exact List.mem_map.mpr ⟨r, hr, by simp [updated, hsel]⟩

/-- Selected rows carry the new values after the update. -/
theorem mem_of_update_selected {t t' : Table α} {sel : Record α → Bool} {set : α → α}
    (h : t.update sel set = some t') {r : Record α} (hr : r ∈ t.rows) (hsel : sel r = true) :
    ⟨r.id, set r.row⟩ ∈ t'.rows := by
  rw [update_some h]
  exact List.mem_map.mpr ⟨r, hr, by simp [updated, hsel]⟩

/-- Every row after an update is an untouched old row or a rewritten selected one. -/
theorem mem_update_cases {t t' : Table α} {sel : Record α → Bool} {set : α → α}
    (h : t.update sel set = some t') {r : Record α} (hr : r ∈ t'.rows) :
    (r ∈ t.rows ∧ sel r = false) ∨
      ∃ old ∈ t.rows, sel old = true ∧ r = ⟨old.id, set old.row⟩ := by
  rw [update_some h] at hr
  obtain ⟨old, hold, rfl⟩ := List.mem_map.mp hr
  unfold updated
  by_cases hsel : sel old = true
  · exact .inr ⟨old, hold, hsel, by simp [hsel]⟩
  · exact .inl (by simpa [hsel] using hold)

/-- Replacing a record puts the new row in its place and keeps every other record. -/
theorem mem_replace {t t' : Table α} {r : Record α} {row : α} (h : t.replace r row = some t')
    (hr : r ∈ t.rows) (x : Record α) :
    x ∈ t'.rows ↔ x = ⟨r.id, row⟩ ∨ (x ∈ t.rows ∧ x ≠ r) := by
  constructor
  · intro hx
    rcases mem_update_cases h hx with ⟨hx, hsel⟩ | ⟨old, -, hsel, rfl⟩
    · refine .inr ⟨hx, ?_⟩
      rintro rfl
      simp at hsel
    · exact .inl (by rw [beq_iff_eq.mp hsel])
  · rintro (rfl | ⟨hx, hne⟩)
    · exact mem_of_update_selected h hr (by simp)
    · refine mem_of_update_unselected h hx ?_
      simpa using fun hid => hne (eq_of_id_eq hx hr hid)

/-- A new row with the index values of the old one can always take its place. -/
theorem replace_of_collides {t : Table α} {r : Record α} {row : α} (hr : r ∈ t.rows)
    (h : ∀ a, collides a row = collides a r.row) : ∃ t', t.replace r row = some t' := by
  have hrow : ∀ a ∈ t.rows, ∀ b, collides b (updated (fun x => x.id == r.id) (fun _ => row) a).row
      = collides b a.row := by
    intro a ha b
    unfold updated
    split
    · next hid => rw [h, eq_of_id_eq ha hr (beq_iff_eq.mp hid)]
    · rfl
  refine update_of_collides_eq fun a ha b hb => ?_
  rw [hrow b hb, collides_comm, hrow a ha, collides_comm]

/-- A record takes the row that it has without any change. -/
theorem replace_self {t : Table α} {r : Record α} (hr : r ∈ t.rows) :
    t.replace r r.row = some t := by
  obtain ⟨t', ht'⟩ := replace_of_collides hr fun a => rfl
  rw [ht', Option.some.injEq]
  refine ext ?_ (update_nextId ht')
  rw [update_some ht', List.map_congr_left (g := id), List.map_id]
  intro x hx
  unfold updated
  split
  · next hid =>
      rw [eq_of_id_eq hx hr (beq_iff_eq.mp hid)]
      rfl
  · rfl

/-- Inserting a row that no index value forbids adds that record and nothing else. -/
theorem mem_create {t t' : Table α} {row : α} {r : Record α} (h : t.create row = some (r, t'))
    (x : Record α) : x ∈ t'.rows ↔ x ∈ t.rows ∨ x = r := by
  obtain ⟨-, hrows, -⟩ := create_some h
  simp [hrows]

@[simp] theorem mem_delete {t : Table α} {sel : Record α → Bool} {r : Record α} :
    r ∈ (t.delete sel).rows ↔ r ∈ t.rows ∧ sel r = false := by
  simp [delete]

end Table

end Lib
