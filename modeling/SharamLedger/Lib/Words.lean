import Mathlib.Data.List.DropRight
import Mathlib.Data.List.Infix

/-!
# Words with one separator between them

The loop that keeps some items and puts one separator where it leaves others out, and the words it
keeps. Read `rdropWhile_squeeze` first: without the separator at its end, the output is the words
of the input with single separators between them. `getElem?_intercalate` then says where in it a
separator stands.
-/

namespace Lib.Words

variable {α : Type}

/-- Keep the allowed items; a run of others becomes one separator, unless one stands there. -/
def squeeze (keep : α → Bool) (sep : α) (prev : Bool) : List α → List α
  | [] => []
  | a :: rest =>
      if keep a then a :: squeeze keep sep false rest
      else if prev then squeeze keep sep true rest
      else sep :: squeeze keep sep true rest

/-- The words of a row, its maximal runs of allowed items. -/
def words (keep : α → Bool) (l : List α) : List (List α) :=
  (l.splitOnP fun a => !keep a).filter fun w => !w.isEmpty

variable {keep : α → Bool} {sep : α}

/-! ## What the loop writes -/

theorem squeeze_cons (prev : Bool) (a : α) (l : List α) :
    squeeze keep sep prev (a :: l) =
      if keep a then a :: squeeze keep sep false l
      else if prev then squeeze keep sep true l
      else sep :: squeeze keep sep true l := rfl

theorem mem_squeeze {prev : Bool} {l : List α} {a : α} (h : a ∈ squeeze keep sep prev l) :
    a ∈ l ∧ keep a = true ∨ a = sep := by
  induction l generalizing prev with
  | nil => cases h
  | cons b l ih =>
      have hrest : ∀ {prev}, a ∈ squeeze keep sep prev l →
          a ∈ b :: l ∧ keep a = true ∨ a = sep := fun h =>
        (ih h).imp_left fun ⟨hmem, hkeep⟩ => ⟨List.mem_cons_of_mem b hmem, hkeep⟩
      rw [squeeze_cons] at h
      split at h
      · next hkeep =>
          rcases List.mem_cons.mp h with rfl | h
          · exact .inl ⟨List.mem_cons_self, hkeep⟩
          · exact hrest h
      · split at h
        · exact hrest h
        · rcases List.mem_cons.mp h with rfl | h
          · exact .inr rfl
          · exact hrest h

/-- No allowed item is lost. -/
theorem mem_squeeze_of_keep {prev : Bool} {l : List α} {a : α} (h : a ∈ l)
    (hkeep : keep a = true) : a ∈ squeeze keep sep prev l := by
  induction l generalizing prev with
  | nil => cases h
  | cons b l ih =>
      rw [squeeze_cons]
      rcases List.mem_cons.mp h with rfl | h
      · rw [if_pos hkeep]
        exact List.mem_cons_self
      · split
        · exact List.mem_cons_of_mem b (ih h)
        · split
          · exact ih h
          · exact List.mem_cons_of_mem sep (ih h)

/-- Behind a separator there is no other one, and none starts the output if one stands before. -/
theorem squeeze_single (hsep : keep sep = false) (prev : Bool) (l : List α) :
    ¬ [sep, sep] <:+: squeeze keep sep prev l ∧
      (prev = true → (squeeze keep sep prev l).head? ≠ some sep) := by
  induction l generalizing prev with
  | nil => simp [squeeze]
  | cons a l ih =>
      rw [squeeze_cons]
      by_cases hkeep : keep a = true
      · have hne : sep ≠ a := fun heq => by simp [← heq, hsep] at hkeep
        rw [if_pos hkeep]
        refine ⟨fun h => ?_, fun _ h => hne (Option.some.inj h).symm⟩
        rcases List.infix_cons_iff.mp h with h | h
        · exact hne (List.cons_prefix_cons.mp h).1
        · exact (ih false).1 h
      · rw [if_neg hkeep]
        cases prev with
        | true => exact ih true
        | false =>
            refine ⟨fun h => ?_, nofun⟩
            rcases List.infix_cons_iff.mp h with h | h
            · obtain ⟨rest, hrest⟩ := (List.cons_prefix_cons.mp h).2
              apply (ih true).2 rfl
              show (squeeze keep sep true l).head? = some sep
              rw [← hrest]
              rfl
            · exact (ih true).1 h

/-- A row that the loop has nothing to change in. -/
theorem squeeze_self {prev : Bool} {l : List α} (hitems : ∀ a ∈ l, keep a = true ∨ a = sep)
    (hsingle : ¬ [sep, sep] <:+: l) (hhead : prev = true → l.head? ≠ some sep) :
    squeeze keep sep prev l = l := by
  induction l generalizing prev with
  | nil => rfl
  | cons a l ih =>
      have hrest := fun b hb => hitems b (List.mem_cons_of_mem a hb)
      have hinfix : ¬ [sep, sep] <:+: l := fun h => hsingle (List.infix_cons_iff.mpr (.inr h))
      rw [squeeze_cons]
      by_cases hkeep : keep a = true
      · rw [if_pos hkeep, ih hrest hinfix fun h => Bool.noConfusion h]
      · obtain rfl := (hitems a List.mem_cons_self).resolve_left hkeep
        have hprev : prev = false := by
          cases prev with
          | true => exact absurd rfl (hhead rfl)
          | false => rfl
        have hnext : l.head? ≠ some a := by
          cases l with
          | nil => nofun
          | cons b l =>
              intro h
              cases h
              exact hsingle ⟨[], l, rfl⟩
        rw [if_neg hkeep, hprev, if_neg Bool.false_ne_true, ih hrest hinfix fun _ => hnext]

/-- Leaving out the front up to some kept item can be done before the loop. -/
theorem dropWhile_squeeze {p : α → Bool} (hp : ∀ a, p a = false → keep a = true)
    (hsep : p sep = true) (prev : Bool) (l : List α) :
    (squeeze keep sep prev l).dropWhile p = squeeze keep sep true (l.dropWhile p) := by
  induction l generalizing prev with
  | nil => rfl
  | cons a l ih =>
      cases ha : p a with
      | false => simp [squeeze, hp a ha, ha]
      | true =>
          rw [List.dropWhile_cons_of_pos ha]
          rw [squeeze_cons]
          split
          · rw [List.dropWhile_cons_of_pos ha, ih]
          · split
            · exact ih true
            · rw [List.dropWhile_cons_of_pos hsep, ih]

/-! ## Leaving out the ends -/

/-- An item that is not cut stays. -/
theorem mem_dropWhile {p : α → Bool} {l : List α} {a : α} (hp : p a = false) (h : a ∈ l) :
    a ∈ l.dropWhile p := by
  induction l with
  | nil => cases h
  | cons b l ih =>
      cases hb : p b with
      | false => rwa [List.dropWhile_cons_of_neg (by simp [hb])]
      | true =>
          rw [List.dropWhile_cons_of_pos hb]
          refine ih ((List.mem_cons.mp h).resolve_left fun heq => ?_)
          rw [heq, hb] at hp
          cases hp

theorem rdropWhile_cons (q : α → Bool) (a : α) (l : List α) :
    (a :: l).rdropWhile q =
      if l.rdropWhile q = [] then (if q a then [] else [a]) else a :: l.rdropWhile q := by
  simp only [List.rdropWhile, List.reverse_cons, List.dropWhile_append, List.isEmpty_iff,
    List.reverse_eq_nil_iff]
  split
  · cases hq : q a <;> simp [hq]
  · simp

/-- What is left ends in an item that is not cut. -/
theorem getLast?_rdropWhile {q : α → Bool} {l : List α} {a : α}
    (h : (l.rdropWhile q).getLast? = some a) : q a = false := by
  have hne : l.rdropWhile q ≠ [] := fun hnil => by
    rw [hnil] at h
    cases h
  rw [List.getLast?_eq_some_getLast hne] at h
  cases h
  exact Bool.eq_false_iff.mpr (List.rdropWhile_last_not q l hne)

/-- Cutting the front and cutting the end commute when what is cut at the end would be cut at the
front too. -/
theorem dropWhile_rdropWhile {p q : α → Bool} (hpq : ∀ a, q a = true → p a = true) (l : List α) :
    (l.rdropWhile q).dropWhile p = (l.dropWhile p).rdropWhile q := by
  induction l with
  | nil => rfl
  | cons a l ih =>
      cases ha : p a with
      | false =>
          have hq : q a = false := by
            cases hq : q a with
            | false => rfl
            | true => rw [hpq a hq] at ha; cases ha
          rw [List.dropWhile_cons_of_neg (by simp [ha]), rdropWhile_cons, hq]
          split
          · next hnil => simp [ha]
          · simp [ha]
      | true =>
          rw [List.dropWhile_cons_of_pos ha, ← ih, rdropWhile_cons]
          split
          · next hnil =>
              rw [hnil]
              cases q a <;> simp [ha]
          · rw [List.dropWhile_cons_of_pos ha]

/-! ## The words -/

theorem words_cons_keep {a : α} (h : keep a = true) {l : List α} {w : List α}
    {ws : List (List α)} (hsplit : (l.splitOnP fun a => !keep a) = w :: ws) :
    words keep (a :: l) = (a :: w) :: ws.filter fun w => !w.isEmpty := by
  simp [words, List.splitOnP_cons_eq_if_modifyHead, h, hsplit]

theorem words_cons_skip {a : α} (h : keep a = false) (l : List α) :
    words keep (a :: l) = words keep l := by
  simp [words, List.splitOnP_cons_eq_if_modifyHead, h]

/-- The parts of a split have allowed items only. -/
theorem keep_of_mem_splitOnP {l w : List α} (h : w ∈ l.splitOnP fun a => !keep a) :
    ∀ a ∈ w, keep a = true := by
  induction l generalizing w with
  | nil => simp_all
  | cons b l ih =>
      rw [List.splitOnP_cons_eq_if_modifyHead] at h
      split at h
      · rcases List.mem_cons.mp h with rfl | h
        · nofun
        · exact ih h
      · next hb =>
          obtain ⟨v, vs, hv⟩ := List.exists_cons_of_ne_nil
            (List.splitOnP_ne_nil (fun a => !keep a) l)
          rw [hv, List.modifyHead_cons] at h
          rcases List.mem_cons.mp h with rfl | h
          · intro a ha
            rcases List.mem_cons.mp ha with rfl | ha
            · simpa using hb
            · exact ih (hv ▸ List.mem_cons_self) a ha
          · exact ih (hv ▸ List.mem_cons_of_mem v h)

/-- A word is not empty and has allowed items only. -/
theorem of_mem_words {l w : List α} (h : w ∈ words keep l) :
    w ≠ [] ∧ ∀ a ∈ w, keep a = true := by
  obtain ⟨hmem, hne⟩ := List.mem_filter.mp h
  exact ⟨by simpa using hne, keep_of_mem_splitOnP hmem⟩

theorem intercalate_cons_head (a : α) (w : List α) (ws : List (List α)) :
    [sep].intercalate ((a :: w) :: ws) = a :: [sep].intercalate (w :: ws) := by
  cases ws <;> simp

theorem intercalate_eq_nil {ws : List (List α)} (h : ∀ w ∈ ws, w ≠ []) :
    [sep].intercalate ws = [] ↔ ws = [] := by
  cases ws with
  | nil => simp
  | cons w ws =>
      have hw := h w List.mem_cons_self
      cases ws with
      | nil => simpa using hw
      | cons w' ws => simp

/-- One more item of the first word. -/
theorem rdropWhile_item [DecidableEq α] {a : α} (ha : a ≠ sep) {out w : List α}
    {ws : List (List α)} (h : out.rdropWhile (· == sep) = [sep].intercalate (w :: ws)) :
    (a :: out).rdropWhile (· == sep) = [sep].intercalate ((a :: w) :: ws) := by
  rw [rdropWhile_cons, beq_eq_false_iff_ne.mpr ha, h, intercalate_cons_head]
  split
  · next hnil => simp [hnil]
  · rfl

/-- A separator in front, which is dropped when no word follows. -/
theorem rdropWhile_sep [DecidableEq α] {out : List α} {ws : List (List α)} (hws : ∀ w ∈ ws, w ≠ [])
    (h : out.rdropWhile (· == sep) = [sep].intercalate ws) :
    (sep :: out).rdropWhile (· == sep) = [sep].intercalate ([] :: ws) := by
  have hnil : [sep].intercalate ws = [] ↔ ws = [] := intercalate_eq_nil hws
  rw [rdropWhile_cons, h]
  cases ws with
  | nil => simp
  | cons w ws =>
      rw [if_neg (by simp [hnil]), List.intercalate_cons_cons]
      rfl

/-- What the loop writes in the middle of a word, without a separator at its end. -/
theorem rdropWhile_squeeze_both [DecidableEq α] (hsep : keep sep = false) (l : List α) :
    (squeeze keep sep true l).rdropWhile (· == sep) = [sep].intercalate (words keep l) ∧
      ∀ w ws, (l.splitOnP fun a => !keep a) = w :: ws →
        (squeeze keep sep false l).rdropWhile (· == sep) =
          [sep].intercalate (w :: ws.filter fun w => !w.isEmpty) := by
  induction l with
  | nil => simp [squeeze, words]
  | cons a l ih =>
      obtain ⟨v, vs, hv⟩ := List.exists_cons_of_ne_nil
        (List.splitOnP_ne_nil (fun a => !keep a) l)
      cases ha : keep a with
      | true =>
          have hne : a ≠ sep := fun heq => by
            rw [heq, hsep] at ha
            cases ha
          have hkept := rdropWhile_item hne (ih.2 v vs hv)
          constructor
          · rw [squeeze_cons, if_pos ha, hkept, words_cons_keep ha hv]
          · intro w ws hsplit
            simp only [List.splitOnP_cons_eq_if_modifyHead, ha, hv] at hsplit
            cases hsplit
            rw [squeeze_cons, if_pos ha, hkept]
      | false =>
          constructor
          · rw [squeeze_cons, ha, words_cons_skip ha]
            exact ih.1
          · intro w ws hsplit
            simp only [List.splitOnP_cons_eq_if_modifyHead, ha] at hsplit
            cases hsplit
            rw [squeeze_cons, ha]
            exact rdropWhile_sep (fun w hw => (of_mem_words hw).1) ih.1

/-- The output without a separator at its end: the words with single separators. -/
theorem rdropWhile_squeeze [DecidableEq α] (hsep : keep sep = false) (l : List α) :
    (squeeze keep sep true l).rdropWhile (· == sep) = [sep].intercalate (words keep l) :=
  (rdropWhile_squeeze_both hsep l).1

theorem length_le_intercalate (w : List α) (ws : List (List α)) :
    w.length ≤ ([sep].intercalate (w :: ws)).length := by
  cases ws with
  | nil => simp
  | cons w' ws =>
      rw [List.intercalate_cons_cons, List.append_assoc, List.length_append]
      omega

/-- Behind the first word and its separator, the words are joined as they are without it. -/
theorem exists_joined_cons {w w' : List α} {ws : List (List α)} {k : Nat} :
    (∃ us v vs, w :: w' :: ws = us ++ v :: vs ∧ us ≠ [] ∧
        ([sep].intercalate us).length = w.length + (k + 1)) ↔
      ∃ us v vs, w' :: ws = us ++ v :: vs ∧ us ≠ [] ∧ ([sep].intercalate us).length = k := by
  constructor
  · intro ⟨us, v, vs, hws, hus, hlen⟩
    cases us with
    | nil => exact absurd rfl hus
    | cons u us =>
        obtain ⟨rfl, htail⟩ := List.cons.inj hws
        cases us with
        | nil => simp at hlen
        | cons u us =>
            refine ⟨u :: us, v, vs, htail, List.cons_ne_nil u us, ?_⟩
            rw [List.intercalate_cons_cons, List.length_append, List.length_append,
              List.length_singleton] at hlen
            omega
  · intro ⟨us, v, vs, hws, hus, hlen⟩
    refine ⟨w :: us, v, vs, by rw [hws]; rfl, List.cons_ne_nil w us, ?_⟩
    rw [List.intercalate_cons_of_ne_nil hus, List.length_append, List.length_append, hlen,
      List.length_singleton]
    omega

/-- A separator stands where some of the words end, joined, and another follows. -/
theorem getElem?_intercalate {ws : List (List α)} (hsep : ∀ w ∈ ws, sep ∉ w) (n : Nat) :
    ([sep].intercalate ws)[n]? = some sep ↔
      ∃ us v vs, ws = us ++ v :: vs ∧ us ≠ [] ∧ ([sep].intercalate us).length = n := by
  induction ws generalizing n with
  | nil => simp
  | cons w ws ih =>
      have hw : ∀ i, w[i]? ≠ some sep := fun i h =>
        hsep w List.mem_cons_self (List.mem_of_getElem? h)
      cases ws with
      | nil =>
          rw [List.intercalate_singleton]
          refine ⟨fun h => absurd h (hw n), fun ⟨us, v, vs, hws, hus, _⟩ => ?_⟩
          have hlen := congrArg List.length hws
          have hpos := List.length_pos_iff.mpr hus
          simp only [List.length_append, List.length_cons, List.length_nil] at hlen
          omega
      | cons w' ws =>
          rw [List.intercalate_cons_cons, List.append_assoc, List.singleton_append]
          rcases Nat.lt_trichotomy n w.length with hlt | rfl | hgt
          · -- the word itself has no separator
            rw [List.getElem?_append_left hlt]
            refine ⟨fun h => absurd h (hw n), fun ⟨us, v, vs, hws, hus, hlen⟩ => ?_⟩
            cases us with
            | nil => exact absurd rfl hus
            | cons u us =>
                obtain ⟨rfl, -⟩ := List.cons.inj hws
                have hle := @length_le_intercalate α sep w us
                omega
          · -- it is the separator behind the first word
            rw [List.getElem?_append_right (Nat.le_refl _), Nat.sub_self]
            exact ⟨fun _ => ⟨[w], w', ws, rfl, by simp, by simp⟩, fun _ => rfl⟩
          · obtain ⟨k, rfl⟩ : ∃ k, n = w.length + (k + 1) := ⟨n - w.length - 1, by omega⟩
            rw [List.getElem?_append_right (by omega), Nat.add_sub_cancel_left,
              List.getElem?_cons_succ,
              ih (fun v hv => hsep v (List.mem_cons_of_mem w hv)) k, exists_joined_cons]

end Lib.Words
