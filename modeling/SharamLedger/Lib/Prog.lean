import Mathlib.Data.Prod.Basic
import Mathlib.Order.Defs.Unbundled

/-!
# Client programs over a shared store

A client of a store is a program that issues queries one after another and may stop
with an error. `Prog σ ε α` is that program as data: each `query` is one atomic step on
the store, and the program continues with what the query saw. `run` executes a program
alone. `Moves` bounds what any query of a program may do to the store, from any state, so
it also bounds every interleaving.
-/

namespace Lib

/-- A program over a store `σ` that ends with a value or an error. A query changes the
store by `effect` and hands the state it found to `next`. -/
inductive Prog (σ ε α : Type) where
  | ok (value : α)
  | err (error : ε)
  | query (effect : σ → σ) (next : σ → Prog σ ε α)

namespace Prog

variable {σ ε ε' α β γ : Type}

/-- Run one program and continue with its value. An error ends the whole program. -/
def bind : Prog σ ε α → (α → Prog σ ε β) → Prog σ ε β
  | .ok value, f => f value
  | .err error, _ => .err error
  | .query effect next, f => .query effect fun s => (next s).bind f

instance : Monad (Prog σ ε) where
  pure := .ok
  bind := bind

/-- Replace the error a program may end with. -/
def mapErr (g : ε → ε') : Prog σ ε α → Prog σ ε' α
  | .ok value => .ok value
  | .err error => .err (g error)
  | .query effect next => .query effect fun s => (next s).mapErr g

/-- A query that reads the store and changes nothing. -/
def read (f : σ → α) : Prog σ ε α :=
  .query id fun s => .ok (f s)

/-- A query that either fails and changes nothing, or answers and changes the store. -/
def exec (f : σ → Except ε (α × σ)) : Prog σ ε α :=
  .query
    (fun s => match f s with
      | .ok (_, s') => s'
      | .error _ => s)
    (fun s => match f s with
      | .ok (value, _) => .ok value
      | .error error => .err error)

/-- A value that was already computed, or its error. -/
def lift : Except ε α → Prog σ ε α
  | .ok value => .ok value
  | .error error => .err error

/-- Stop with `error` unless the condition holds. -/
def ensure (condition : Bool) (error : ε) : Prog σ ε Unit :=
  if condition then .ok () else .err error

/-- The value of an option, or stop with `error`. -/
def okOr (error : ε) : Option α → Prog σ ε α
  | some value => .ok value
  | none => .err error

/-- Run to the end, and hand on its error as a value. -/
def attempt : Prog σ ε α → Prog σ ε' (Except ε α)
  | .ok value => .ok (.ok value)
  | .err error => .ok (.error error)
  | .query effect next => .query effect fun s => (next s).attempt

/-- Execute a program alone from a state. -/
def run : Prog σ ε α → σ → Except ε α × σ
  | .ok value, s => (.ok value, s)
  | .err error, s => (.error error, s)
  | .query effect next, s => (next s).run (effect s)

/-- Execute a program alone when its query number `n`, counted from 0, fails with `failure`. The
queries before it have taken effect. -/
def runFailing (failure : ε) : Nat → Prog σ ε α → σ → Except ε α × σ
  | _, .ok value, s => (.ok value, s)
  | _, .err error, s => (.error error, s)
  | 0, .query _ _, s => (.error failure, s)
  | n + 1, .query effect next, s => (next s).runFailing failure n (effect s)

theorem bind_assoc (p : Prog σ ε α) (f : α → Prog σ ε β) (g : β → Prog σ ε γ) :
    (p >>= f) >>= g = p >>= fun value => f value >>= g := by
  show (p.bind f).bind g = p.bind fun value => (f value).bind g
  induction p with
  | ok | err => rfl
  | query effect next ih => exact congrArg (query effect) (funext ih)

theorem bind_ok (p : Prog σ ε α) : (p >>= fun value => .ok value) = p := by
  show p.bind Prog.ok = p
  induction p with
  | ok | err => rfl
  | query effect next ih => exact congrArg (query effect) (funext ih)

/-! ## Running composed programs -/

@[simp] theorem run_ok (value : α) (s : σ) : (Prog.ok value : Prog σ ε α).run s = (.ok value, s) :=
  rfl

@[simp] theorem runFailing_ok (failure : ε) (n : Nat) (value : α) (s : σ) :
    (Prog.ok value : Prog σ ε α).runFailing failure n s = (.ok value, s) := by
  cases n <;> rfl

@[simp] theorem runFailing_err (failure error : ε) (n : Nat) (s : σ) :
    (Prog.err error : Prog σ ε α).runFailing failure n s = (.error error, s) := by
  cases n <;> rfl

@[simp] theorem run_pure (value : α) (s : σ) :
    (pure value : Prog σ ε α).run s = (.ok value, s) := rfl

@[simp] theorem run_err (error : ε) (s : σ) :
    (Prog.err error : Prog σ ε α).run s = (.error error, s) := rfl

/-- Running a sequence is running its first part and then, unless that failed, the rest. -/
@[simp] theorem run_bind (p : Prog σ ε α) (f : α → Prog σ ε β) (s : σ) :
    (p >>= f).run s = match p.run s with
      | (.ok value, s') => (f value).run s'
      | (.error error, s') => (.error error, s') := by
  show (p.bind f).run s = _
  induction p generalizing s with
  | ok | err => rfl
  | query effect next ih => exact ih s (effect s)

@[simp] theorem run_mapErr (g : ε → ε') (p : Prog σ ε α) (s : σ) :
    (p.mapErr g).run s = ((p.run s).1.mapError g, (p.run s).2) := by
  induction p generalizing s with
  | ok | err => rfl
  | query effect next ih => exact ih s (effect s)

@[simp] theorem run_attempt (p : Prog σ ε α) (s : σ) :
    (p.attempt : Prog σ ε' (Except ε α)).run s = (.ok (p.run s).1, (p.run s).2) := by
  induction p generalizing s with
  | ok | err => rfl
  | query effect next ih => exact ih s (effect s)

@[simp] theorem run_read (f : σ → α) (s : σ) :
    (read f : Prog σ ε α).run s = (.ok (f s), s) := rfl

@[simp] theorem run_exec (f : σ → Except ε (α × σ)) (s : σ) :
    (exec f).run s = match f s with
      | .ok (value, s') => (.ok value, s')
      | .error error => (.error error, s) := by
  simp only [exec, run]
  cases f s <;> rfl

/-- A statement that is not the failing query runs as ever. -/
theorem runFailing_exec (failure : ε) (n : Nat) (f : σ → Except ε (α × σ)) (s : σ) :
    (exec f).runFailing failure (n + 1) s = (exec f).run s := by
  simp only [exec, runFailing, run]
  cases f s <;> simp

@[simp] theorem run_lift (result : Except ε α) (s : σ) :
    (lift result : Prog σ ε α).run s = (result, s) := by
  cases result <;> rfl

@[simp] theorem run_ensure (condition : Bool) (error : ε) (s : σ) :
    (ensure condition error : Prog σ ε Unit).run s =
      (if condition then .ok () else .error error, s) := by
  cases condition <;> rfl

@[simp] theorem run_okOr (error : ε) (value : Option α) (s : σ) :
    (okOr error value : Prog σ ε α).run s =
      (match value with | some v => .ok v | none => .error error, s) := by
  cases value <;> rfl

/-- Wrapping the answer leaves the state as it is. -/
theorem run_bind_pure (p : Prog σ ε α) (f : α → β) (s : σ) :
    ((p >>= fun value => pure (f value)).run s).2 = (p.run s).2 := by
  rw [run_bind]
  cases hp : p.run s with
  | mk result s' => cases result <;> rfl

/-- Nor does it change the error. -/
theorem error_of_bind_pure {p : Prog σ ε α} {f : α → β} {s : σ} {error : ε}
    (h : ((p >>= fun value => pure (f value)).run s).1 = .error error) :
    (p.run s).1 = .error error := by
  rw [run_bind] at h
  cases hp : p.run s with
  | mk result s' =>
      rw [hp] at h
      cases result with
      | error e => exact congrArg _ (Except.error.inj h)
      | ok value => cases h

/-! ## Programs that check before they write -/

/-- Run from `s`, the program stops with an error before it has changed anything, or ends as `Q`
says. -/
def StopsOr (p : Prog σ ε α) (s : σ) (Q : Except ε α → σ → Prop) : Prop :=
  (∃ error, p.run s = (.error error, s)) ∨ Q (p.run s).1 (p.run s).2

/-- A first part that changes nothing either stops the program or hands a value on. -/
theorem stopsOr_bind {p : Prog σ ε α} {f : α → Prog σ ε β} {s : σ} {result : Except ε α}
    {Q : Except ε β → σ → Prop} (hp : p.run s = (result, s))
    (hf : ∀ value, result = .ok value → (f value).StopsOr s Q) : (p >>= f).StopsOr s Q := by
  cases result with
  | error e => exact .inl ⟨e, by rw [run_bind, hp]⟩
  | ok value =>
      have hrun : (p >>= f).run s = (f value).run s := by rw [run_bind, hp]
      unfold StopsOr
      rw [hrun]
      exact hf value rfl

/-- A first part that stops or changes nothing hands on what it establishes. -/
theorem StopsOr.bind {p : Prog σ ε α} {f : α → Prog σ ε β} {s : σ} {P : Prop}
    {Q : Except ε β → σ → Prop} (hp : p.StopsOr s fun _ s' => s' = s ∧ P)
    (hf : P → ∀ value, (f value).StopsOr s Q) : (p >>= f).StopsOr s Q := by
  rcases hp with ⟨e, he⟩ | ⟨hs, hP⟩
  · exact .inl ⟨e, by rw [run_bind, he]⟩
  · exact stopsOr_bind (Prod.ext rfl hs) fun value _ => hf hP value

/-- A program that ends with a value has not stopped. -/
theorem StopsOr.of_ok {p : Prog σ ε α} {s : σ} {Q : Except ε α → σ → Prop} (h : p.StopsOr s Q)
    {value : α} (hvalue : (p.run s).1 = .ok value) : Q (.ok value) (p.run s).2 := by
  rcases h with ⟨e, he⟩ | hQ
  · rw [he] at hvalue
    cases hvalue
  · rw [← hvalue]
    exact hQ

/-- The program goes on as another one from a later state. -/
theorem stopsOr_of_run {p q : Prog σ ε α} {s s₁ : σ} {Q : Except ε α → σ → Prop}
    (hrun : p.run s = q.run s₁) (h : Q (q.run s₁).1 (q.run s₁).2) : p.StopsOr s Q :=
  .inr (by rwa [hrun])

theorem StopsOr.imp {p : Prog σ ε α} {s : σ} {Q Q' : Except ε α → σ → Prop}
    (h : p.StopsOr s Q) (hQ : ∀ result s', Q result s' → Q' result s') : p.StopsOr s Q' :=
  Or.imp_right (hQ _ _) h

/-! ## Errors a program may end with -/

/-- Run from `s`, the program ends with a value, or with an error that satisfies `P`. -/
def FailsOnly (p : Prog σ ε α) (s : σ) (P : ε → Prop) : Prop :=
  ∀ error, (p.run s).1 = .error error → P error

/-- A first part that changes nothing fails as `P` allows, or hands a value on. -/
theorem failsOnly_bind {p : Prog σ ε α} {f : α → Prog σ ε β} {s : σ} {result : Except ε α}
    {P : ε → Prop} (hp : p.run s = (result, s)) (herror : ∀ error, result = .error error → P error)
    (hf : ∀ value, result = .ok value → (f value).FailsOnly s P) : (p >>= f).FailsOnly s P := by
  intro error h
  rw [run_bind, hp] at h
  cases result with
  | error e => exact herror error (congrArg _ (Except.error.inj h))
  | ok value => exact hf value rfl error h

theorem failsOnly_of_ok {p : Prog σ ε α} {s : σ} {P : ε → Prop} {value : α}
    (h : (p.run s).1 = .ok value) : p.FailsOnly s P := by
  intro error herror
  cases h.symm.trans herror

/-! ## Programs behind a gate -/

section Gated

variable {τ : Type} {view : σ → τ} {s : σ} {P : Prop}

/-- From every state that looks like `s`, the program stops with one and the same error and
changes nothing, or `P` holds. -/
def Gated (p : Prog σ ε α) (view : σ → τ) (s : σ) (P : Prop) : Prop :=
  (∃ error, ∀ s', view s' = view s → p.run s' = (.error error, s')) ∨ P

/-- A first part that only reads the view either stops the program or hands a value on. -/
theorem gated_bind {p : Prog σ ε α} {f : α → Prog σ ε β} {result : Except ε α}
    (hp : ∀ s', view s' = view s → p.run s' = (result, s'))
    (hf : ∀ value, result = .ok value → (f value).Gated view s P) : (p >>= f).Gated view s P := by
  cases result with
  | error e => exact .inl ⟨e, fun s' hs' => by rw [run_bind, hp s' hs']⟩
  | ok value =>
      rcases hf value rfl with ⟨e, he⟩ | hP
      · exact .inl ⟨e, fun s' hs' => by rw [run_bind, hp s' hs', ← he s' hs']⟩
      · exact .inr hP

/-- Nothing that follows a gate opens it. -/
theorem Gated.bind {p : Prog σ ε α} (hp : p.Gated view s P) (f : α → Prog σ ε β) :
    (p >>= f).Gated view s P :=
  hp.imp_left fun ⟨e, he⟩ => ⟨e, fun s' hs' => by rw [run_bind, he s' hs']⟩

theorem gated_ensure {condition : Bool} {error : ε} (h : condition = true → P) :
    (ensure condition error : Prog σ ε Unit).Gated view s P := by
  cases condition with
  | false => exact .inl ⟨error, fun s' _ => rfl⟩
  | true => exact .inr (h rfl)

theorem Gated.imp {p : Prog σ ε α} {P' : Prop} (hp : p.Gated view s P) (h : P → P') :
    p.Gated view s P' :=
  Or.imp_right h hp

end Gated

/-! ## What every query of a program may do -/

/-- Every query of the program, from whatever state it is issued in, moves the store
along `R`. -/
def Moves (R : σ → σ → Prop) : Prog σ ε α → Prop
  | .ok _ => True
  | .err _ => True
  | .query effect next => ∀ s, R s (effect s) ∧ (next s).Moves R

variable {R : σ → σ → Prop}

@[simp] theorem moves_ok (value : α) : (Prog.ok value : Prog σ ε α).Moves R := trivial

@[simp] theorem moves_pure (value : α) : (pure value : Prog σ ε α).Moves R := trivial

@[simp] theorem moves_err (error : ε) : (Prog.err error : Prog σ ε α).Moves R := trivial

theorem Moves.bind {p : Prog σ ε α} {f : α → Prog σ ε β} (hp : p.Moves R)
    (hf : ∀ value, (f value).Moves R) : (p >>= f).Moves R := by
  show (p.bind f).Moves R
  induction p with
  | ok value => exact hf value
  | err => trivial
  | query effect next ih => exact fun s => ⟨(hp s).1, ih s (hp s).2⟩

theorem Moves.imp {R' : σ → σ → Prop} {p : Prog σ ε α} (hp : p.Moves R)
    (h : ∀ s s', R s s' → R' s s') : p.Moves R' := by
  induction p with
  | ok | err => trivial
  | query effect next ih => exact fun s => ⟨h _ _ (hp s).1, ih s (hp s).2⟩

theorem Moves.mapErr {p : Prog σ ε α} (hp : p.Moves R) (g : ε → ε') : (p.mapErr g).Moves R := by
  induction p with
  | ok | err => trivial
  | query effect next ih => exact fun s => ⟨(hp s).1, ih s (hp s).2⟩

theorem moves_read [Std.Refl R] (f : σ → α) : (read f : Prog σ ε α).Moves R :=
  fun s => ⟨Std.Refl.refl s, trivial⟩

/-- A query moves along `R` when every answer it can give does. -/
theorem moves_exec [Std.Refl R] {f : σ → Except ε (α × σ)}
    (h : ∀ s value s', f s = .ok (value, s') → R s s') : (exec f).Moves R := by
  intro s
  cases hf : f s with
  | error e => simp [hf, Std.Refl.refl s]
  | ok answer => simpa [hf] using h s answer.1 answer.2 hf

@[simp] theorem moves_lift (result : Except ε α) : (lift result : Prog σ ε α).Moves R := by
  cases result <;> trivial

@[simp] theorem moves_ensure (condition : Bool) (error : ε) :
    (ensure condition error : Prog σ ε Unit).Moves R := by
  cases condition <;> trivial

@[simp] theorem moves_okOr (error : ε) (value : Option α) :
    (okOr error value : Prog σ ε α).Moves R := by
  cases value <;> trivial

/-- Alone, a program moves the store along `R` from its first state to its last. -/
theorem Moves.run [Std.Refl R] [IsTrans σ R] {p : Prog σ ε α} (hp : p.Moves R) (s : σ) :
    R s (p.run s).2 := by
  induction p generalizing s with
  | ok | err => exact Std.Refl.refl s
  | query effect next ih => exact IsTrans.trans _ _ _ (hp s).1 (ih s (hp s).2 (effect s))

/-! ## Values a program may end with -/

/-- Run from `s`, the program ends with an error, or with a value that satisfies `Q`. -/
def Yields (p : Prog σ ε α) (s : σ) (Q : α → Prop) : Prop :=
  ∀ value, (p.run s).1 = .ok value → Q value

theorem yields_pure {value : α} {s : σ} {Q : α → Prop} (h : Q value) :
    (pure value : Prog σ ε α).Yields s Q := by
  intro found hfound
  cases hfound
  exact h

/-- A first part that moves the store hands on what holds wherever it may lead. -/
theorem Moves.yields_bind [Std.Refl R] [IsTrans σ R] {p : Prog σ ε α} {f : α → Prog σ ε β} {s : σ}
    {Q : β → Prop} (hp : p.Moves R) (hf : ∀ value s', R s s' → (f value).Yields s' Q) :
    (p >>= f).Yields s Q := by
  intro found hfound
  have hmoved := hp.run s
  rw [run_bind] at hfound
  cases hrun : p.run s with
  | mk result s' =>
      rw [hrun] at hfound hmoved
      cases result with
      | error e => cases hfound
      | ok value => exact hf value s' hmoved found hfound

/-- A first part that changes nothing hands on its value. -/
theorem yields_bind {p : Prog σ ε α} {f : α → Prog σ ε β} {s : σ} {result : Except ε α}
    {Q : β → Prop} (hp : p.run s = (result, s))
    (hf : ∀ value, result = .ok value → (f value).Yields s Q) : (p >>= f).Yields s Q := by
  intro found hfound
  rw [run_bind, hp] at hfound
  cases result with
  | error e => cases hfound
  | ok value => exact hf value rfl found hfound

end Prog

end Lib
