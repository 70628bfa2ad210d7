import Mathlib.Data.List.Induction
import Mathlib.Order.Defs.Unbundled

/-!
# Runs of a step function

A system takes one action after another. `exec` is the state after a list of actions, and
`Each` says that every step of such a run meets a condition on its action and on the state
it starts in. `Each.invariant` carries what one step preserves to a whole run.
-/

namespace Lib.Trace

variable {σ α : Type} (step : α → σ → σ)

/-- The state after a list of actions. -/
def exec : List α → σ → σ
  | [], s => s
  | a :: actions, s => exec actions (step a s)

/-- Every action of the run meets `cond` in the state it is taken in. -/
def Each (cond : α → σ → Prop) : List α → σ → Prop
  | [], _ => True
  | a :: actions, s => cond a s ∧ Each cond actions (step a s)

variable {step} {cond : α → σ → Prop}

theorem exec_append (first second : List α) (s : σ) :
    exec step (first ++ second) s = exec step second (exec step first s) := by
  induction first generalizing s with
  | nil => rfl
  | cons a first ih => exact ih (step a s)

/-- A run meets a condition when its first part does and its second part does from there. -/
theorem each_append {first second : List α} {s : σ} :
    Each step cond (first ++ second) s ↔
      Each step cond first s ∧ Each step cond second (exec step first s) := by
  induction first generalizing s with
  | nil => simp [Each, exec]
  | cons a first ih => simp [Each, exec, ih, and_assoc]

/-- Without a condition on the steps, every run is allowed. -/
theorem each_of_forall (h : ∀ a s, cond a s) (actions : List α) (s : σ) :
    Each step cond actions s := by
  induction actions generalizing s with
  | nil => trivial
  | cons a actions ih => exact ⟨h a s, ih (step a s)⟩

/-- A run meets a condition that each of its actions meets anywhere. -/
theorem each_of_mem {actions : List α} (h : ∀ a ∈ actions, ∀ s, cond a s) (s : σ) :
    Each step cond actions s := by
  induction actions generalizing s with
  | nil => trivial
  | cons a actions ih =>
      exact ⟨h a List.mem_cons_self s, ih (fun b hb => h b (List.mem_cons_of_mem a hb)) _⟩

/-- In a run that keeps an invariant, a condition may be replaced by one that follows from it
under the invariant. -/
theorem Each.of_invariant {cond' : α → σ → Prop} {I : σ → Prop}
    (hstep : ∀ a s, I s → I (step a s)) (h : ∀ a s, I s → cond a s → cond' a s)
    {actions : List α} {s : σ} (hs : I s) (hrun : Each step cond actions s) :
    Each step cond' actions s := by
  induction actions generalizing s with
  | nil => trivial
  | cons a actions ih => exact ⟨h a s hs hrun.1, ih (hstep a s hs) hrun.2⟩

/-- What every allowed step preserves holds after every allowed run. -/
theorem Each.invariant {I : σ → Prop} (hstep : ∀ a s, I s → cond a s → I (step a s))
    {actions : List α} {s : σ} (hs : I s) (hrun : Each step cond actions s) :
    I (exec step actions s) := by
  induction actions generalizing s with
  | nil => exact hs
  | cons a actions ih => exact ih (hstep a s hs hrun.1) hrun.2

/-- What every step preserves holds after every run. -/
theorem exec_invariant {I : σ → Prop} (hstep : ∀ a s, I s → I (step a s)) (actions : List α)
    {s : σ} (hs : I s) : I (exec step actions s) :=
  Each.invariant (fun a s hs _ => hstep a s hs) hs
    (each_of_forall (fun _ _ => trivial) actions s : Each step (fun _ _ => True) actions s)

/-- A preorder that every allowed step moves along relates the ends of every allowed run. -/
theorem Each.relates {R : σ → σ → Prop} [Std.Refl R] [IsTrans σ R]
    (hstep : ∀ a s, cond a s → R s (step a s)) {actions : List α} {s : σ}
    (hrun : Each step cond actions s) : R s (exec step actions s) := by
  induction actions generalizing s with
  | nil => exact Std.Refl.refl s
  | cons a actions ih => exact IsTrans.trans _ _ _ (hstep a s hrun.1) (ih hrun.2)

/-- In such a run every state is related to the last one. -/
theorem Each.relates_end {R : σ → σ → Prop} [Std.Refl R] [IsTrans σ R]
    (hstep : ∀ a s, cond a s → R s (step a s)) {actions : List α} {s : σ}
    (hrun : Each step cond actions s) :
    Each step (fun a x => cond a x ∧ R (step a x) (exec step actions s)) actions s := by
  induction actions generalizing s with
  | nil => trivial
  | cons a actions ih => exact ⟨⟨hrun.1, hrun.2.relates hstep⟩, ih hrun.2⟩

/-- Two conditions that every step meets, it meets together. -/
theorem Each.and {cond' : α → σ → Prop} {actions : List α} {s : σ}
    (h : Each step cond actions s) (h' : Each step cond' actions s) :
    Each step (fun a x => cond a x ∧ cond' a x) actions s := by
  induction actions generalizing s with
  | nil => trivial
  | cons a actions ih => exact ⟨⟨h.1, h'.1⟩, ih h.2 h'.2⟩

/-- Every step of an allowed run starts in a state that satisfies the invariant. -/
theorem Each.with_invariant {I : σ → Prop} (hstep : ∀ a s, I s → cond a s → I (step a s))
    {actions : List α} {s : σ} (hs : I s) (hrun : Each step cond actions s) :
    Each step (fun a x => cond a x ∧ I x) actions s := by
  induction actions generalizing s with
  | nil => trivial
  | cons a actions ih => exact ⟨⟨hrun.1, hs⟩, ih (hstep a s hs hrun.1) hrun.2⟩

/-! ## Moments of a run -/

section Moments

variable (step)

/-- The run passes through the state. -/
def Visits (actions : List α) (s x : σ) : Prop :=
  ∃ earlier later, actions = earlier ++ later ∧ exec step earlier s = x

/-- The run takes the action in the state. -/
def Takes (actions : List α) (s : σ) (a : α) (x : σ) : Prop :=
  ∃ earlier later, actions = earlier ++ a :: later ∧ exec step earlier s = x

/-- The run takes one action in a state, and later another one. -/
def TakesThen (actions : List α) (s : σ) (a : α) (x : σ) (b : α) (y : σ) : Prop :=
  ∃ earlier middle later, actions = earlier ++ a :: (middle ++ b :: later) ∧
    exec step earlier s = x ∧ exec step middle (step a x) = y

end Moments

variable {actions : List α} {s x y : σ} {a b : α}

theorem Visits.invariant {I : σ → Prop} (h : Visits step actions s x)
    (hstep : ∀ a s, I s → cond a s → I (step a s)) (hs : I s) (hrun : Each step cond actions s) :
    I x := by
  obtain ⟨earlier, later, rfl, rfl⟩ := h
  exact (each_append.mp hrun).1.invariant hstep hs

theorem Takes.meets (h : Takes step actions s a x) (hrun : Each step cond actions s) :
    cond a x := by
  obtain ⟨earlier, later, rfl, rfl⟩ := h
  exact (each_append.mp hrun).2.1

theorem TakesThen.fst (h : TakesThen step actions s a x b y) : Takes step actions s a x := by
  obtain ⟨earlier, middle, later, rfl, hx, -⟩ := h
  exact ⟨earlier, _, rfl, hx⟩

theorem TakesThen.snd (h : TakesThen step actions s a x b y) : Takes step actions s b y := by
  obtain ⟨earlier, middle, later, rfl, rfl, rfl⟩ := h
  refine ⟨earlier ++ a :: middle, later, by simp, ?_⟩
  rw [exec_append]
  rfl

/-- A preorder that every step moves along relates the state after the first action to the one
in which the second is taken. -/
theorem TakesThen.relates {R : σ → σ → Prop} [Std.Refl R] [IsTrans σ R]
    (hstep : ∀ a s, R s (step a s)) (h : TakesThen step actions s a x b y) : R (step a x) y := by
  obtain ⟨earlier, middle, later, -, -, rfl⟩ := h
  have hall : Each step (fun _ _ => True) middle (step a x) :=
    each_of_forall (fun _ _ => trivial) middle _
  exact hall.relates fun a s _ => hstep a s

theorem Takes.append (h : Takes step actions s a x) (others : List α) :
    Takes step (actions ++ others) s a x := by
  obtain ⟨earlier, later, rfl, hx⟩ := h
  exact ⟨earlier, later ++ others, by simp, hx⟩

/-- What the second part of a run takes, the whole run takes. -/
theorem Takes.after {later : List α} (earlier : List α)
    (h : Takes step later (exec step earlier s) a x) :
    Takes step (earlier ++ later) s a x := by
  obtain ⟨middle, rest, rfl, rfl⟩ := h
  exact ⟨earlier ++ middle, rest, by simp, exec_append earlier middle s⟩

theorem takes_last (earlier : List α) (a : α) (s : σ) :
    Takes step (earlier ++ [a]) s a (exec step earlier s) :=
  ⟨earlier, [], rfl, rfl⟩

/-- What holds at the end of a run and not at its start was brought about by one of its steps. -/
theorem exists_takes {P : σ → Prop} (hstart : ¬ P s) (hend : P (exec step actions s)) :
    ∃ a x, Takes step actions s a x ∧ ¬ P x ∧ P (step a x) := by
  induction actions generalizing s with
  | nil => exact absurd hend hstart
  | cons a actions ih =>
      by_cases hnext : P (step a s)
      · exact ⟨a, s, ⟨[], actions, rfl, rfl⟩, hstart, hnext⟩
      · obtain ⟨b, x, ⟨earlier, later, rfl, hx⟩, hchange⟩ := ih hnext hend
        exact ⟨b, x, ⟨a :: earlier, later, rfl, hx⟩, hchange⟩

/-! ## What was done before -/

/-- Every action meets a condition on the actions before it. -/
def EachAfter (cond : List α → α → Prop) (actions : List α) : Prop :=
  ∀ earlier a later, actions = earlier ++ a :: later → cond earlier a

theorem eachAfter_of_forall {cond : List α → α → Prop}
    (h : ∀ a ∈ actions, ∀ earlier, cond earlier a) : EachAfter cond actions := by
  rintro earlier a later rfl
  exact h a (List.mem_append_right _ List.mem_cons_self) earlier

theorem EachAfter.snoc {cond : List α → α → Prop} (hrun : EachAfter cond actions)
    (ha : cond actions a) : EachAfter cond (actions ++ [a]) := by
  intro earlier b later hsplit
  rcases List.eq_nil_or_concat later with rfl | ⟨others, c, rfl⟩
  · obtain ⟨rfl, hb⟩ := List.append_inj' hsplit rfl
    cases hb
    exact ha
  · refine hrun earlier b others ?_
    have hsplit' : actions ++ [a] = (earlier ++ b :: others) ++ [c] := by simpa using hsplit
    exact (List.append_inj' hsplit' rfl).1

/-- A run that meets a condition on its states meets it after the actions that lead there. -/
theorem Each.eachAfter (hrun : Each step cond actions s) :
    EachAfter (fun earlier a => cond a (exec step earlier s)) actions := by
  rintro earlier a later rfl
  exact (each_append.mp hrun).2.1

/-- What holds of no actions, and stays when one that meets the condition is appended. -/
theorem EachAfter.induction {cond : List α → α → Prop} {P : List α → Prop}
    (hrun : EachAfter cond actions) (hnil : P [])
    (hsnoc : ∀ earlier a, P earlier → cond earlier a → P (earlier ++ [a])) : P actions := by
  induction actions using List.reverseRecOn with
  | nil => exact hnil
  | append_singleton earlier a ih =>
      refine hsnoc earlier a (ih fun first b later h => ?_) (hrun earlier a [] rfl)
      exact hrun first b (later ++ [a]) (by rw [h, List.append_assoc, List.cons_append])

/-- Right after `earlier`, the run takes an action that meets the condition. -/
def TakesAfter (step : α → σ → σ) (cond : α → σ → Prop) (actions : List α) (s : σ)
    (earlier : List α) : Prop :=
  ∃ a later, actions = earlier ++ a :: later ∧ cond a (exec step earlier s)

theorem not_takesAfter_nil (earlier : List α) : ¬ TakesAfter step cond [] s earlier := by
  rintro ⟨b, later, hsplit, -⟩
  simp at hsplit

/-- One more action is the last one to meet the condition. -/
theorem takesAfter_snoc {earlier : List α} :
    TakesAfter step cond (actions ++ [a]) s earlier ↔
      TakesAfter step cond actions s earlier ∨
        (earlier = actions ∧ cond a (exec step actions s)) := by
  constructor
  · rintro ⟨b, later, hsplit, hb⟩
    rcases List.eq_nil_or_concat later with rfl | ⟨others, c, rfl⟩
    · obtain ⟨rfl, hab⟩ := List.append_inj' hsplit rfl
      cases hab
      exact .inr ⟨rfl, hb⟩
    · have hsplit' : actions ++ [a] = (earlier ++ b :: others) ++ [c] := by simpa using hsplit
      exact .inl ⟨b, others, (List.append_inj' hsplit' rfl).1, hb⟩
  · rintro (⟨b, later, rfl, hb⟩ | ⟨rfl, ha⟩)
    · exact ⟨b, later ++ [a], by simp, hb⟩
    · exact ⟨a, [], rfl, ha⟩

end Lib.Trace
