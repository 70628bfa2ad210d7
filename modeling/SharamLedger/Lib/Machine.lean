import SharamLedger.Lib.Trace

/-!
# Machines with guarded acts

A machine says in which states an act is allowed and what it does. A system simulates the machine
when each of its steps, seen through an abstraction, is an allowed act or no act at all. What
allowed acts keep then holds in every run of the system, and what did not hold at first was brought
about by a step of the run.
-/

namespace Lib

/-- Acts on the states `τ`, with their guards. -/
structure Machine (τ ι : Type) where
  Allowed : ι → τ → Prop
  apply : ι → τ → τ

namespace Machine

variable {σ α τ ι : Type} (m : Machine τ ι)

/-- The acts, each allowed when it is done, lead from one state to the other. -/
def Run (acts : List ι) (t t' : τ) : Prop :=
  Trace.Each m.apply m.Allowed acts t ∧ Trace.exec m.apply acts t = t'

/-- The acts that the steps of a run did, in their order. A step may do none. -/
inductive Did (step : α → σ → σ) (does : α → σ → ι → Prop) : List α → σ → List ι → Prop where
  | nil {s : σ} : Did step does [] s []
  | still {a : α} {s : σ} {actions : List α} {acts : List ι} :
      Did step does actions (step a s) acts → Did step does (a :: actions) s acts
  | act {a : α} {s : σ} {i : ι} {actions : List α} {acts : List ι} :
      does a s i → Did step does actions (step a s) acts →
        Did step does (a :: actions) s (i :: acts)

/-- From states that satisfy `I`, every step is an allowed act of the machine, or none. -/
structure Simulates (step : α → σ → σ) (I : σ → Prop) (abs : σ → τ) (does : α → σ → ι → Prop) :
    Prop where
  invariant : ∀ a s, I s → I (step a s)
  acts : ∀ a s, I s → abs (step a s) = abs s ∨
    ∃ i, does a s i ∧ m.Allowed i (abs s) ∧ abs (step a s) = m.apply i (abs s)

/-- The step is an allowed act that brings the property about. -/
structure Brings (step : α → σ → σ) (abs : σ → τ) (does : α → σ → ι → Prop) (P : τ → Prop) (a : α)
    (x : σ) (i : ι) : Prop where
  does : does a x i
  allowed : m.Allowed i (abs x)
  act : abs (step a x) = m.apply i (abs x)
  before : ¬ P (abs x)
  after : P (abs (step a x))

variable {m}

theorem Run.nil (t : τ) : m.Run [] t t := ⟨trivial, rfl⟩

theorem Run.cons {i : ι} {acts : List ι} {t t' : τ} (hi : m.Allowed i t)
    (h : m.Run acts (m.apply i t) t') : m.Run (i :: acts) t t' :=
  ⟨⟨hi, h.1⟩, h.2⟩

/-- What every allowed act keeps, a run keeps. -/
theorem Run.invariant {J : τ → Prop} {acts : List ι} {t t' : τ} (h : m.Run acts t t')
    (hstep : ∀ i t, J t → m.Allowed i t → J (m.apply i t)) (ht : J t) : J t' := by
  obtain ⟨heach, rfl⟩ := h
  exact heach.invariant hstep ht

/-- A preorder that every allowed act moves along relates the ends of a run. -/
theorem Run.relates {R : τ → τ → Prop} [Std.Refl R] [IsTrans τ R] {acts : List ι} {t t' : τ}
    (h : m.Run acts t t') (hstep : ∀ i t, m.Allowed i t → R t (m.apply i t)) : R t t' := by
  obtain ⟨heach, rfl⟩ := h
  exact heach.relates hstep

namespace Simulates

variable {step : α → σ → σ} {I : σ → Prop} {abs : σ → τ} {does : α → σ → ι → Prop} {s : σ}

/-- A run of the system is a run of the machine with the acts that its steps did. -/
theorem run (h : m.Simulates step I abs does) (actions : List α) (hs : I s) :
    ∃ acts, Did step does actions s acts ∧
      m.Run acts (abs s) (abs (Trace.exec step actions s)) := by
  induction actions generalizing s with
  | nil => exact ⟨[], .nil, .nil _⟩
  | cons a actions ih =>
      obtain ⟨acts, hdid, hrun⟩ := ih (h.invariant a s hs)
      rcases h.acts a s hs with hstill | ⟨i, hdoes, hallowed, hact⟩
      · rw [hstill] at hrun
        exact ⟨acts, .still hdid, hrun⟩
      · rw [hact] at hrun
        exact ⟨i :: acts, .act hdoes hdid, .cons hallowed hrun⟩

/-- What holds at the end of a run and not at its start was brought about by an allowed act. -/
theorem brought {P : τ → Prop} (h : m.Simulates step I abs does) {actions : List α} (hs : I s)
    (hstart : ¬ P (abs s)) (hend : P (abs (Trace.exec step actions s))) :
    ∃ a x i, Trace.Takes step actions s a x ∧ m.Brings step abs does P a x i := by
  obtain ⟨a, x, htakes, hbefore, hafter⟩ :=
    Trace.exists_takes (P := fun s => P (abs s)) hstart hend
  have hx : I x := by
    obtain ⟨earlier, later, -, rfl⟩ := htakes
    exact Trace.exec_invariant h.invariant earlier hs
  rcases h.acts a x hx with hstill | ⟨i, hdoes, hallowed, hact⟩
  · rw [hstill] at hafter
    exact absurd hafter hbefore
  · exact ⟨a, x, i, htakes, hdoes, hallowed, hact, hbefore, hafter⟩

/-- What holds when an action is taken, and not at the start, was brought about before it. -/
theorem brought_before {P : τ → Prop} (h : m.Simulates step I abs does) {actions : List α}
    {a : α} {x : σ} (hs : I s) (htakes : Trace.Takes step actions s a x) (hstart : ¬ P (abs s))
    (hx : P (abs x)) :
    ∃ b y i, Trace.TakesThen step actions s b y a x ∧ m.Brings step abs does P b y i := by
  obtain ⟨earlier, later, rfl, rfl⟩ := htakes
  obtain ⟨b, y, i, ⟨first, between, rfl, hy⟩, hi⟩ := h.brought hs hstart hx
  refine ⟨b, y, i, ⟨first, between, later, by simp, hy, ?_⟩, hi⟩
  rw [Trace.exec_append, hy]
  rfl

/-- A preorder that every allowed act moves along relates the ends of every run. -/
theorem relates {R : τ → τ → Prop} [Std.Refl R] [IsTrans τ R] (h : m.Simulates step I abs does)
    (hstep : ∀ i t, m.Allowed i t → R t (m.apply i t)) (actions : List α) (hs : I s) :
    R (abs s) (abs (Trace.exec step actions s)) := by
  obtain ⟨acts, -, hrun⟩ := h.run actions hs
  exact hrun.relates hstep

end Simulates

end Machine

end Lib
