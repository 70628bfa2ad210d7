import SharamLedger.Lib.Trace

/-!
# Transactions under snapshot isolation

A transaction reads the state that was committed when it started and commits what it wrote
unless another commit conflicts with it. `serial_of_stable` says when that is as good as running
the transactions one at a time: each of those that commit would have written the same from the
state it commits to.
-/

namespace Lib.Snapshot

/-- Transactions of one kind: what one writes given what it reads, whether what was committed
between two states conflicts with a write, and what committing it does. -/
structure Kind (σ τ ω : Type) where
  body : τ → σ → Option ω
  conflict : σ → σ → ω → Bool
  commit : ω → σ → σ

/-- The committed state, and the running transactions by key, each with the state it started
from. -/
structure State (σ τ : Type) where
  committed : σ
  running : Nat → Option (τ × σ)

inductive Action (τ : Type) where
  | start (key : Nat) (txn : τ)
  | finish (key : Nat)

variable {σ τ ω : Type} (kind : Kind σ τ ω)

/-- No transaction is running. -/
def State.idle (committed : σ) : State σ τ := ⟨committed, fun _ => none⟩

/-- What committing a transaction with this snapshot makes of the committed state. -/
def settle (txn : τ) (snapshot committed : σ) : σ :=
  match kind.body txn snapshot with
  | some write => if kind.conflict snapshot committed write then committed
      else kind.commit write committed
  | none => committed

/-- One scheduling step. A key names one running transaction at a time. -/
def step : Action τ → State σ τ → State σ τ
  | .start key txn, s =>
      match s.running key with
      | some _ => s
      | none => { s with
          running := fun k => if k = key then some (txn, s.committed) else s.running k }
  | .finish key, s =>
      match s.running key with
      | some (txn, snapshot) =>
          { committed := settle kind txn snapshot s.committed
            running := fun k => if k = key then none else s.running k }
      | none => s

/-- Run a transaction alone. -/
def serial (txn : τ) (s : σ) : σ :=
  match kind.body txn s with
  | some write => kind.commit write s
  | none => s

/-- A transaction that finishes would write the same from the committed state as it did from
its snapshot. -/
def Stable : Action τ → State σ τ → Prop
  | .start .., _ => True
  | .finish key, s => ∀ txn snapshot, s.running key = some (txn, snapshot) →
      kind.body txn snapshot = kind.body txn s.committed

/-- A transaction that finishes meets the condition on the committed state. -/
def Finishes (cond : τ → σ → Prop) : Action τ → State σ τ → Prop
  | .start .., _ => True
  | .finish key, s => ∀ txn snapshot, s.running key = some (txn, snapshot) → cond txn s.committed

variable {kind}

/-- Every snapshot of a running transaction satisfies `P`. -/
def Snapshots (P : σ → Prop) (s : State σ τ) : Prop :=
  ∀ key txn snapshot, s.running key = some (txn, snapshot) → P snapshot

/-- A property that commits preserve and the committed state has holds of every snapshot. -/
theorem snapshots_step {P : σ → Prop} (hcommit : ∀ write x, P x → P (kind.commit write x))
    {a : Action τ} {s : State σ τ} (hs : P s.committed ∧ Snapshots P s) :
    P (step kind a s).committed ∧ Snapshots P (step kind a s) := by
  obtain ⟨hcommitted, hsnapshots⟩ := hs
  cases a with
  | start key txn =>
      cases hkey : s.running key with
      | some entry => simpa only [step, hkey] using ⟨hcommitted, hsnapshots⟩
      | none =>
          simp only [step, hkey]
          refine ⟨hcommitted, fun k txn' snapshot h => ?_⟩
          dsimp only at h
          split at h
          · cases h
            exact hcommitted
          · exact hsnapshots k txn' snapshot h
  | finish key =>
      cases hkey : s.running key with
      | none => simpa only [step, hkey] using ⟨hcommitted, hsnapshots⟩
      | some entry =>
          simp only [step, hkey]
          refine ⟨?_, fun k txn' snapshot h => ?_⟩
          · unfold settle
            split
            · split
              · exact hcommitted
              · exact hcommit _ _ hcommitted
            · exact hcommitted
          · dsimp only at h
            split at h
            · cases h
            · exact hsnapshots k txn' snapshot h

variable {cond : τ → σ → Prop}

/-- A step that is stable leaves the committed state, or runs one transaction alone on it. -/
theorem committed_step {a : Action τ} {s : State σ τ} (hstable : Stable kind a s)
    (hcond : Finishes cond a s) : (step kind a s).committed = s.committed ∨
      ∃ txn, cond txn s.committed ∧ (step kind a s).committed = serial kind txn s.committed := by
  cases a with
  | start key txn =>
      left
      cases hkey : s.running key <;> simp only [step, hkey]
  | finish key =>
      cases hkey : s.running key with
      | none => exact .inl (by simp only [step, hkey])
      | some entry =>
          obtain ⟨txn, snapshot⟩ := entry
          have hsame := hstable txn snapshot hkey
          simp only [step, hkey, settle]
          cases hbody : kind.body txn snapshot with
          | none => exact .inl rfl
          | some write =>
              dsimp only
              split
              · exact .inl rfl
              · exact .inr ⟨txn, hcond txn snapshot hkey, by simp [serial, ← hsame, hbody]⟩

/-- A stable run commits what some serial run commits, and what each transaction finds there is what
it found when it finished. -/
theorem serial_of_stable {actions : List (Action τ)} {s : State σ τ}
    (hrun : Trace.Each (step kind) (fun a s => Stable kind a s ∧ Finishes cond a s) actions s) :
    ∃ txns, (Trace.exec (step kind) actions s).committed =
        Trace.exec (serial kind) txns s.committed ∧
      Trace.Each (serial kind) cond txns s.committed := by
  -- the serial run consists of the transactions that commit, in the order they do
  induction actions generalizing s with
  | nil => exact ⟨[], rfl, trivial⟩
  | cons a actions ih =>
      obtain ⟨txns, htxns, hconds⟩ := ih hrun.2
      rcases committed_step hrun.1.1 hrun.1.2 with hsame | ⟨txn, hcond, htxn⟩
      · exact ⟨txns, by rw [Trace.exec, htxns, hsame], hsame ▸ hconds⟩
      · exact ⟨txn :: txns, by rw [Trace.exec, htxns, htxn, Trace.exec], hcond, htxn ▸ hconds⟩

end Lib.Snapshot
