import Mathlib.Data.List.Infix
import Mathlib.Tactic.Linarith

/-!
# Escaping by entities

Some items of a text are written as entities, rows of items that start with a marker. As the marker
is itself written as an entity and no entity is the beginning of another, reading from the left
undoes the escaping (`unescape_escape`). A text in which no entity occurs reads as itself, and no
other one does (`unescape_eq_self_iff`). Templates with arguments put such texts together.
-/

namespace Lib.Escape

variable {α : Type} [DecidableEq α]

/-- The items that are escaped, each with its entity. -/
structure Entities (α : Type) where
  rows : List (α × List α)
  marker : α
  starts : ∀ row ∈ rows, ∃ a tail, row.2 = marker :: a :: tail
  covers : ∃ row ∈ rows, row.1 = marker
  apart : ∀ row ∈ rows, ∀ row' ∈ rows, row.2 <+: row'.2 → row = row'

namespace Entities

variable (t : Entities α)

/-- How one item is written. -/
def code (a : α) : List α :=
  match t.rows.find? fun row => row.1 == a with
  | some row => row.2
  | none => [a]

def escape (l : List α) : List α := l.flatMap t.code

/-- Read from the left, with the rest of an entity still to be passed over. -/
def unescapeFrom : Nat → List α → List α
  | _, [] => []
  | skip + 1, _ :: rest => unescapeFrom skip rest
  | 0, a :: rest =>
      match t.rows.find? fun row => row.2.isPrefixOf (a :: rest) with
      | some row => row.1 :: unescapeFrom (row.2.length - 1) rest
      | none => a :: unescapeFrom 0 rest

def unescape (l : List α) : List α := t.unescapeFrom 0 l

variable {t}

/-! ## One entity -/

/-- What is written for an item: its entity, or the item. -/
theorem code_cases (a : α) :
    (∃ row ∈ t.rows, row.1 = a ∧ t.code a = row.2) ∨
      (∀ row ∈ t.rows, row.1 ≠ a) ∧ t.code a = [a] := by
  unfold code
  cases hfind : t.rows.find? fun row => row.1 == a with
  | some row =>
      have hkey := List.find?_some hfind
      exact .inl ⟨row, List.mem_of_find?_eq_some hfind, beq_iff_eq.mp hkey, rfl⟩
  | none =>
      refine .inr ⟨fun row hrow heq => ?_, rfl⟩
      exact List.find?_eq_none.mp hfind row hrow (beq_iff_eq.mpr heq)

theorem unescapeFrom_append {l : List α} (rest : List α) :
    t.unescapeFrom l.length (l ++ rest) = t.unescape rest := by
  induction l with
  | nil => rfl
  | cons a l ih => exact ih

/-- An entity is read as its item, whatever follows. -/
theorem unescape_entity {row : α × List α} (hrow : row ∈ t.rows) (rest : List α) :
    t.unescape (row.2 ++ rest) = row.1 :: t.unescape rest := by
  obtain ⟨a, tail, hentity⟩ := t.starts row hrow
  have hfind : t.rows.find? (fun r => r.2.isPrefixOf (row.2 ++ rest)) = some row := by
    cases hfind : t.rows.find? fun r => r.2.isPrefixOf (row.2 ++ rest) with
    | none =>
        have hno := List.find?_eq_none.mp hfind row hrow
        exact absurd (List.isPrefixOf_iff_prefix.mpr (List.prefix_append row.2 rest)) hno
    | some other =>
        -- two entities at one place are beginnings of each other
        have hother := List.mem_of_find?_eq_some hfind
        have hfound := List.find?_some hfind
        have hprefix := List.isPrefixOf_iff_prefix.mp hfound
        rcases List.prefix_or_prefix_of_prefix hprefix (List.prefix_append row.2 rest) with h | h
        · rw [t.apart other hother row hrow h]
        · rw [t.apart row hrow other hother h]
  rw [hentity] at hfind
  have hlen : row.2.length - 1 = (a :: tail).length := by simp [hentity]
  rw [hentity]
  show t.unescapeFrom 0 (t.marker :: (a :: tail ++ rest)) = _
  rw [unescapeFrom]
  rw [List.cons_append] at hfind
  rw [hfind]
  show row.1 :: t.unescapeFrom (row.2.length - 1) (a :: tail ++ rest) = _
  rw [hlen, unescapeFrom_append]

/-- Where no entity starts the item is read as itself. -/
theorem unescape_cons {a : α} {rest : List α} (h : ∀ row ∈ t.rows, ¬ row.2 <+: a :: rest) :
    t.unescape (a :: rest) = a :: t.unescape rest := by
  have hfind : t.rows.find? (fun row => row.2.isPrefixOf (a :: rest)) = none :=
    List.find?_eq_none.mpr fun row hrow hp => h row hrow (List.isPrefixOf_iff_prefix.mp hp)
  show t.unescapeFrom 0 (a :: rest) = _
  rw [unescapeFrom, hfind]
  rfl

/-! ## Whole texts -/

/-- Escaping is undone. -/
theorem unescape_escape (l : List α) : t.unescape (t.escape l) = l := by
  induction l with
  | nil => rfl
  | cons a l ih =>
      have hcons : t.escape (a :: l) = t.code a ++ t.escape l := List.flatMap_cons
      rw [hcons]
      rcases code_cases (t := t) a with ⟨row, hrow, rfl, hcode⟩ | ⟨hplain, hcode⟩
      · rw [hcode, unescape_entity hrow, ih]
      · rw [hcode, List.singleton_append, unescape_cons, ih]
        intro row hrow hprefix
        -- an item that starts an entity is the marker, which is escaped
        obtain ⟨b, tail, hentity⟩ := t.starts row hrow
        obtain ⟨marked, hmarked, hkey⟩ := t.covers
        rw [hentity] at hprefix
        exact hplain marked hmarked (hkey.trans (List.cons_prefix_cons.mp hprefix).1)

/-- What stands in an escaped text is not escaped, or stands in an entity. -/
theorem mem_escape {l : List α} {b : α} (h : b ∈ t.escape l) :
    (b ∈ l ∧ ∀ row ∈ t.rows, row.1 ≠ b) ∨ ∃ row ∈ t.rows, b ∈ row.2 := by
  obtain ⟨a, ha, hb⟩ := List.mem_flatMap.mp h
  rcases code_cases (t := t) a with ⟨row, hrow, -, hcode⟩ | ⟨hplain, hcode⟩
  · exact .inr ⟨row, hrow, hcode ▸ hb⟩
  · rw [hcode] at hb
    obtain rfl := List.mem_singleton.mp hb
    exact .inl ⟨ha, hplain⟩

/-- Reading does not make a text longer. -/
theorem length_unescapeFrom_le (skip : Nat) (l : List α) :
    (t.unescapeFrom skip l).length ≤ l.length := by
  induction l generalizing skip with
  | nil => simp [unescapeFrom]
  | cons a l ih =>
      cases skip with
      | succ skip => exact Nat.le_succ_of_le (ih skip)
      | zero =>
          rw [unescapeFrom]
          split
          · exact Nat.succ_le_succ (ih _)
          · exact Nat.succ_le_succ (ih 0)

/-- An entity in front makes it shorter. -/
theorem length_unescape_lt {l : List α} (h : ∃ row ∈ t.rows, row.2 <+: l) :
    (t.unescape l).length < l.length := by
  obtain ⟨row, hrow, rest, rfl⟩ := h
  obtain ⟨a, tail, hentity⟩ := t.starts row hrow
  have hle := length_unescapeFrom_le (t := t) 0 rest
  have hlen : row.2.length = tail.length + 2 := by simp [hentity]
  rw [unescape_entity hrow, List.length_cons, List.length_append, hlen]
  unfold unescape
  omega

/-- A text reads as itself when no entity occurs in it, and only then. -/
theorem unescape_eq_self_iff {l : List α} :
    t.unescape l = l ↔ ∀ row ∈ t.rows, ¬ row.2 <:+: l := by
  induction l with
  | nil =>
      refine ⟨fun _ row hrow hinfix => ?_, fun _ => rfl⟩
      obtain ⟨a, tail, hentity⟩ := t.starts row hrow
      rw [hentity] at hinfix
      cases List.infix_nil.mp hinfix
  | cons a l ih =>
      constructor
      · intro h row hrow hinfix
        have hfront : ∀ row ∈ t.rows, ¬ row.2 <+: a :: l := fun row hrow hprefix => by
          have hlt := length_unescape_lt ⟨row, hrow, hprefix⟩
          rw [h] at hlt
          exact Nat.lt_irrefl _ hlt
        rw [unescape_cons hfront] at h
        rcases List.infix_cons_iff.mp hinfix with hprefix | hrest
        · exact hfront row hrow hprefix
        · exact ih.mp (List.cons.inj h).2 row hrow hrest
      · intro h
        have hrest := ih.mpr fun row hrow hinfix =>
          h row hrow (List.infix_cons_iff.mpr (.inr hinfix))
        rw [unescape_cons fun row hrow hprefix => h row hrow hprefix.isInfix, hrest]

end Entities

/-! ## Templates -/

omit [DecidableEq α]

/-- One piece of a template: text of its own, or an argument as it is written and as it was
given. -/
inductive Piece (α : Type) where
  | text (items : List α)
  | arg (written value : List α)

/-- What a piece puts into the text. -/
def Piece.written : Piece α → List α
  | .text items => items
  | .arg written _ => written

/-- The piece for an empty argument. -/
def Piece.blank : Piece α → Piece α
  | .text items => .text items
  | .arg _ _ => .arg [] []

def render (pieces : List (Piece α)) : List α := pieces.flatMap Piece.written

theorem filter_render_cons (p : α → Bool) (piece : Piece α) (pieces : List (Piece α)) :
    (render (piece :: pieces)).filter p = piece.written.filter p ++ (render pieces).filter p := by
  rw [render, List.flatMap_cons, List.filter_append]
  rfl

theorem length_filter_blank_le (p : α → Bool) (pieces : List (Piece α)) :
    ((render (pieces.map Piece.blank)).filter p).length ≤ ((render pieces).filter p).length := by
  induction pieces with
  | nil => exact Nat.le_refl _
  | cons piece pieces ih =>
      rw [List.map_cons, filter_render_cons, filter_render_cons, List.length_append,
        List.length_append]
      cases piece with
      | text items => exact Nat.add_le_add_left ih _
      | arg written value => exact Nat.add_le_add (Nat.zero_le _) ih

/-- The marked items of a text are those of its template when no argument has any, and only then. -/
theorem filter_render_iff (p : α → Bool) (pieces : List (Piece α)) :
    (render pieces).filter p = (render (pieces.map Piece.blank)).filter p ↔
      ∀ written value, .arg written value ∈ pieces → written.filter p = [] := by
  induction pieces with
  | nil => simp
  | cons piece pieces ih =>
      rw [List.map_cons, filter_render_cons, filter_render_cons]
      cases piece with
      | text items =>
          show items.filter p ++ _ = items.filter p ++ _ ↔ _
          rw [List.append_cancel_left_eq, ih]
          simp
      | arg written value =>
          show written.filter p ++ _ = [] ++ _ ↔ _
          rw [List.nil_append]
          constructor
          · intro h w v hmem
            -- the other pieces have at least the items of the template
            have hle := length_filter_blank_le p pieces
            have hlen := congrArg List.length h
            rw [List.length_append] at hlen
            have hnil : written.filter p = [] := List.eq_nil_of_length_eq_zero (by omega)
            rw [hnil, List.nil_append] at h
            rcases List.mem_cons.mp hmem with heq | hmem
            · cases heq
              exact hnil
            · exact ih.mp h w v hmem
          · intro h
            rw [h written value List.mem_cons_self, List.nil_append]
            exact ih.mpr fun w v hmem => h w v (List.mem_cons_of_mem _ hmem)

end Lib.Escape
