import SharamLedger.Lib.Prog
import SharamLedger.Lib.Trace

/-!
# Calls in flight on a shared store

A service offers calls, each a program over one store. A `State` is the store with the calls in
flight, and one `Action` starts a call, lets a call issue its next query, lets that query fail, or
is an event of the world. Queries of different calls interleave in any order.

Two rules carry what one query does to every run. `threads_step` keeps a statement about every
call in flight, given what each step does to the calls it does not run. `Guarded.step` is the
rely-guarantee form of it: when every call keeps its guarantee as long as the others keep to
what it relies on, all of them do in every interleaving.
-/

namespace Lib

namespace Prog

variable {σ ε α β : Type}

/-- From `s` on, whatever moves along `R` the others make in between, every query of the program
moves the store along `G`, and a value is returned in a state that satisfies `Q`. -/
def Safe (R G : σ → σ → Prop) (Q : α → σ → Prop) : Prog σ ε α → σ → Prop
  | .ok value, s => Q value s
  | .err _, _ => True
  | .query effect next, s => ∀ s', R s s' → G s' (effect s') ∧ (next s').Safe R G Q (effect s')

variable {R G : σ → σ → Prop} {Q : α → σ → Prop} {s : σ}

theorem safe_pure {value : α} (h : Q value s) : (pure value : Prog σ ε α).Safe R G Q s := h

@[simp] theorem safe_err (error : ε) : (Prog.err error : Prog σ ε α).Safe R G Q s := trivial

theorem Safe.bind {Q' : β → σ → Prop} {p : Prog σ ε α} {f : α → Prog σ ε β}
    (hp : p.Safe R G Q s) (hf : ∀ value s', Q value s' → (f value).Safe R G Q' s') :
    (p >>= f).Safe R G Q' s := by
  show (p.bind f).Safe R G Q' s
  induction p generalizing s with
  | ok value => exact hf value s hp
  | err => trivial
  | query effect next ih => exact fun s' hs' => ⟨(hp s' hs').1, ih s' (hp s' hs').2⟩

theorem safe_read [Std.Refl G] {f : σ → α} (h : ∀ s', R s s' → Q (f s') s') :
    (read f : Prog σ ε α).Safe R G Q s :=
  fun s' hs' => ⟨Std.Refl.refl s', h s' hs'⟩

/-- A query is safe when every answer it can give is. -/
theorem safe_exec [Std.Refl G] {f : σ → Except ε (α × σ)}
    (h : ∀ s' value s'', R s s' → f s' = .ok (value, s'') → G s' s'' ∧ Q value s'') :
    (exec f).Safe R G Q s := by
  intro s' hs'
  cases hf : f s' with
  | error e => simp [hf, Std.Refl.refl s']
  | ok answer => simpa [hf, Safe] using h s' answer.1 answer.2 hs' hf

theorem safe_okOr {error : ε} {value : Option α} (h : ∀ v, value = some v → Q v s) :
    (okOr error value : Prog σ ε α).Safe R G Q s := by
  cases value with
  | none => trivial
  | some v => exact h v rfl

theorem safe_ensure {condition : Bool} {error : ε} {Q : Unit → σ → Prop}
    (h : condition = true → Q () s) : (ensure condition error : Prog σ ε Unit).Safe R G Q s := by
  cases condition with
  | false => trivial
  | true => exact h rfl

theorem safe_lift {result : Except ε α} (h : ∀ value, result = .ok value → Q value s) :
    (lift result : Prog σ ε α).Safe R G Q s := by
  cases result with
  | error e => trivial
  | ok value => exact h value rfl

theorem Safe.imp {Q' : α → σ → Prop} {p : Prog σ ε α} (hp : p.Safe R G Q s)
    (h : ∀ value s', Q value s' → Q' value s') : p.Safe R G Q' s := by
  induction p generalizing s with
  | ok value => exact h value s hp
  | err => trivial
  | query effect next ih => exact fun s' hs' => ⟨(hp s' hs').1, ih s' (hp s' hs').2⟩

theorem Safe.mapErr {ε' : Type} {p : Prog σ ε α} (hp : p.Safe R G Q s) (g : ε → ε') :
    (p.mapErr g).Safe R G Q s := by
  induction p generalizing s with
  | ok value => exact hp
  | err => trivial
  | query effect next ih => exact fun s' hs' => ⟨(hp s' hs').1, ih s' (hp s' hs').2⟩

/-- When the program moves the store as the others may do, its value is returned in a store to which
they have moved together. -/
theorem Safe.moved [Std.Refl R] [IsTrans σ R] {p : Prog σ ε α} (hp : p.Safe R R Q s) :
    p.Safe R R (fun value s' => Q value s' ∧ R s s') s := by
  induction p generalizing s with
  | ok => exact ⟨hp, Std.Refl.refl s⟩
  | err => trivial
  | query effect next ih =>
      intro s' hs'
      obtain ⟨heffect, hnext⟩ := hp s' hs'
      refine ⟨heffect, (ih s' hnext).imp fun _ s'' h => ⟨h.1, ?_⟩⟩
      exact IsTrans.trans _ _ _ (IsTrans.trans _ _ _ hs' heffect) h.2

/-- Alone, a safe program ends as it says. -/
theorem Safe.run [Std.Refl R] {p : Prog σ ε α} (hp : p.Safe R G Q s) {value : α} {s' : σ}
    (hrun : p.run s = (.ok value, s')) : Q value s' := by
  induction p generalizing s with
  | ok value =>
      cases hrun
      exact hp
  | err => cases hrun
  | query effect next ih => exact ih s (hp s (Std.Refl.refl s)).2 hrun

/-- A program that moves the store as the others may do is safe among them. -/
theorem Moves.safe [Std.Refl R] [IsTrans σ R] {p : Prog σ ε α} (hp : p.Moves R) :
    p.Safe R R (fun _ s' => R s s') s := by
  induction p generalizing s with
  | ok => exact Std.Refl.refl s
  | err => trivial
  | query effect next ih =>
      intro s' hs'
      obtain ⟨heffect, hnext⟩ := hp s'
      refine ⟨heffect, (ih s' hnext).imp fun _ s'' h => ?_⟩
      exact IsTrans.trans _ _ _ (IsTrans.trans _ _ _ hs' heffect) h

/-! ## What is left of a program -/

/-- What may be left of a program once some of its queries were issued, whatever they found and
whichever of them failed. -/
inductive Left (p : Prog σ ε α) : Prog σ ε α → Prop where
  | whole : Left p p
  | next {effect : σ → σ} {next : σ → Prog σ ε α} (s : σ) :
      Left p (.query effect next) → Left p (next s)
  | failed {effect : σ → σ} {next : σ → Prog σ ε α} (error : ε) :
      Left p (.query effect next) → Left p (.err error)

theorem Moves.left {p q : Prog σ ε α} (hp : p.Moves G) (h : p.Left q) : q.Moves G := by
  induction h with
  | whole => exact hp
  | next s _ ih => exact (ih s).2
  | failed => trivial

/-- Every query moves the store along `G`, or is the last one of a program that returns. -/
def MovesOrReturns (G : σ → σ → Prop) : Prog σ ε α → Prop
  | .ok _ => True
  | .err _ => True
  | .query effect next => ∀ s, (G s (effect s) ∨ ∃ value, next s = .ok value) ∧
      (next s).MovesOrReturns G

theorem MovesOrReturns.left {p q : Prog σ ε α} (hp : p.MovesOrReturns G) (h : p.Left q) :
    q.MovesOrReturns G := by
  induction h with
  | whole => exact hp
  | next s _ ih => exact (ih s).2
  | failed => trivial

/-- A read in front changes nothing. -/
theorem movesOrReturns_read [Std.Refl G] {f : σ → β} {next : β → Prog σ ε α}
    (h : ∀ value, (next value).MovesOrReturns G) :
    ((read f : Prog σ ε β) >>= next).MovesOrReturns G :=
  fun s => ⟨.inl (Std.Refl.refl s), h (f s)⟩

/-- A program that issues one query is left whole, or has ended. -/
theorem Left.whole_or_ended {p q : Prog σ ε α}
    (hp : ∃ effect next, p = .query effect next ∧ ∀ s effect' next', next s ≠ .query effect' next')
    (h : p.Left q) : q = p ∨ ∀ effect next, q ≠ .query effect next := by
  obtain ⟨effect, next, rfl, hend⟩ := hp
  induction h with
  | whole => exact .inl rfl
  | next s _ ih =>
      rcases ih with ih | ih
      · obtain ⟨rfl, rfl⟩ := Prog.query.inj ih
        exact .inr (hend s)
      · exact absurd rfl (ih _ _)
  | failed => exact .inr fun _ _ h => by cases h

end Prog

namespace Pool

/-- The calls of a service as programs, and what events of the world do to the store. -/
structure Service (σ ε κ ω β : Type) where
  program : κ → Prog σ ε β
  world : ω → σ → σ

/-- The store, and the calls by key: what each was started as, and what is left of it. -/
structure State (σ ε κ β : Type) where
  store : σ
  calls : Nat → Option (κ × Prog σ ε β)

inductive Action (ε κ ω : Type) where
  | start (key : Nat) (call : κ)
  | advance (key : Nat)
  | fail (key : Nat) (error : ε)
  | world (event : ω)

variable {σ ε κ ω β : Type}

namespace State

/-- No call is in flight. -/
def idle (store : σ) : State σ ε κ β := ⟨store, fun _ => none⟩

/-- Replace what is known of one call. -/
def setCall (s : State σ ε κ β) (key : Nat) (entry : κ × Prog σ ε β) : State σ ε κ β :=
  { s with calls := fun k => if k = key then some entry else s.calls k }

theorem calls_setCall_self (s : State σ ε κ β) (key : Nat) (entry : κ × Prog σ ε β) :
    (s.setCall key entry).calls key = some entry := if_pos rfl

theorem calls_setCall_of_ne (s : State σ ε κ β) {key k : Nat} (h : k ≠ key)
    (entry : κ × Prog σ ε β) : (s.setCall key entry).calls k = s.calls k := if_neg h

/-- A call in flight is the one that was replaced or another one from before. -/
theorem calls_setCall_cases {s : State σ ε κ β} {key k : Nat} {entry entry' : κ × Prog σ ε β}
    (h : (s.setCall key entry).calls k = some entry') :
    (k = key ∧ entry = entry') ∨ (k ≠ key ∧ s.calls k = some entry') := by
  by_cases hkey : k = key
  · subst hkey
    exact .inl ⟨rfl, Option.some.inj ((s.calls_setCall_self k entry).symm.trans h)⟩
  · exact .inr ⟨hkey, (s.calls_setCall_of_ne hkey entry).symm.trans h⟩

/-- The call has returned a value. -/
def Returned (s : State σ ε κ β) (key : Nat) (call : κ) (value : β) : Prop :=
  s.calls key = some (call, .ok value)

end State

variable (sv : Service σ ε κ ω β)

/-- One step. A key names one call of the whole run; a call that has ended takes no more steps. -/
def step (a : Action ε κ ω) (s : State σ ε κ β) : State σ ε κ β :=
  match a with
  | .start key call =>
      match s.calls key with
      | some _ => s
      | none => s.setCall key (call, sv.program call)
  | .advance key =>
      match s.calls key with
      | some (call, .query effect next) =>
          { s.setCall key (call, next s.store) with store := effect s.store }
      | _ => s
  | .fail key error =>
      match s.calls key with
      | some (call, .query _ _) => s.setCall key (call, .err error)
      | _ => s
  | .world event => { s with store := sv.world event s.store }

/-- What one step did. -/
inductive Stepped (s : State σ ε κ β) : Action ε κ ω → State σ ε κ β → Prop where
  | same {a : Action ε κ ω} : Stepped s a s
  | started {key : Nat} {call : κ} : s.calls key = none →
      Stepped s (.start key call) (s.setCall key (call, sv.program call))
  | advanced {key : Nat} {call : κ} {effect : σ → σ} {next : σ → Prog σ ε β} :
      s.calls key = some (call, .query effect next) →
      Stepped s (.advance key) { s.setCall key (call, next s.store) with store := effect s.store }
  | failed {key : Nat} {call : κ} {effect : σ → σ} {next : σ → Prog σ ε β} {error : ε} :
      s.calls key = some (call, .query effect next) →
      Stepped s (.fail key error) (s.setCall key (call, .err error))
  | event {event : ω} : Stepped s (.world event) { s with store := sv.world event s.store }

variable {sv} {s : State σ ε κ β} {a : Action ε κ ω}

theorem stepped (a : Action ε κ ω) (s : State σ ε κ β) : Stepped sv s a (step sv a s) := by
  cases a with
  | start key call =>
      cases h : s.calls key with
      | some entry => simpa only [step, h] using .same
      | none => simpa only [step, h] using .started h
  | advance key =>
      cases h : s.calls key with
      | none => simpa only [step, h] using .same
      | some entry =>
          obtain ⟨call, p⟩ := entry
          cases p with
          | query effect next => simpa only [step, h] using .advanced h
          | ok | err => simpa only [step, h] using .same
  | fail key error =>
      cases h : s.calls key with
      | none => simpa only [step, h] using .same
      | some entry =>
          obtain ⟨call, p⟩ := entry
          cases p with
          | query effect next => simpa only [step, h] using .failed h
          | ok | err => simpa only [step, h] using .same
  | world event => exact .event

theorem step_advance {key : Nat} {call : κ} {effect : σ → σ} {next : σ → Prog σ ε β}
    (hkey : s.calls key = some (call, .query effect next)) :
    step sv (.advance key) s =
      { s.setCall key (call, next s.store) with store := effect s.store } := by
  simp only [step, hkey]

/-- A call that has returned stays as it is. -/
theorem State.Returned.step {key : Nat} {call : κ} {value : β} (h : s.Returned key call value) :
    (Pool.step sv a s).Returned key call value := by
  unfold State.Returned at h ⊢
  have hstep : Stepped sv s a (Pool.step sv a s) := stepped a s
  generalize Pool.step sv a s = s' at hstep ⊢
  cases hstep with
  | same | event => exact h
  | started hkey | advanced hkey | failed hkey =>
      refine (s.calls_setCall_of_ne ?_ _).trans h
      rintro rfl
      simp [h] at hkey

/-! ## A statement about every call in flight -/

/-- What is left of every call satisfies `T` in the store. -/
def Threads (T : κ → Prog σ ε β → σ → Prop) (s : State σ ε κ β) : Prop :=
  ∀ key call p, s.calls key = some (call, p) → T call p s.store

theorem threads_idle {T : κ → Prog σ ε β → σ → Prop} (store : σ) : Threads T (.idle store) :=
  fun _ _ _ h => by cases h

/-- Every step keeps a statement about all calls that the steps of the others cannot undo: it
holds of a call that starts, of what is left of the call that advances, and of a call that ends
with an error. -/
theorem threads_step {T : κ → Prog σ ε β → σ → Prop} (hs : Threads T s)
    (hstart : ∀ key call, a = .start key call → T call (sv.program call) s.store)
    (hadvance : ∀ key call effect next, a = .advance key →
      s.calls key = some (call, .query effect next) → T call (next s.store) (effect s.store))
    (hfail : ∀ key call effect next error, s.calls key = some (call, .query effect next) →
      T call (.err error) s.store)
    (hothers : ∀ key call p, a ≠ .advance key → s.calls key = some (call, p) →
      T call p (step sv a s).store) : Threads T (step sv a s) := by
  have hset : ∀ {entry : κ × Prog σ ε β} {key : Nat} {store : σ}, T entry.1 entry.2 store →
      (∀ k call p, k ≠ key → s.calls k = some (call, p) → T call p store) →
      Threads T { s.setCall key entry with store := store } := by
    intro entry key store hentry hrest k call p hk
    rcases State.calls_setCall_cases hk with ⟨-, rfl⟩ | ⟨hne, hk⟩
    · exact hentry
    · exact hrest k call p hne hk
  have hstep : Stepped sv s a (step sv a s) := stepped a s
  generalize step sv a s = s' at hstep hothers
  cases hstep with
  | same => exact hs
  | started hkey => exact hset (hstart _ _ rfl) fun k call p _ hk => hs k call p hk
  | advanced hkey =>
      exact hset (hadvance _ _ _ _ rfl hkey) fun k call p hne hk =>
        hothers k call p (fun h => hne (Action.advance.inj h).symm) hk
  | failed hkey => exact hset (hfail _ _ _ _ _ hkey) fun k call p _ hk => hs k call p hk
  | event => exact fun k call p hk => hothers k call p (by simp) hk

/-- What is left of every call in flight is what may be left of the program it was started
with. -/
def Started (sv : Service σ ε κ ω β) : State σ ε κ β → Prop :=
  Threads fun call p _ => (sv.program call).Left p

theorem started_idle (store : σ) : Started sv (.idle store) := threads_idle store

theorem Started.step (hs : Started sv s) : Started sv (Pool.step sv a s) :=
  threads_step hs (fun _ _ _ => .whole) (fun key call _ _ _ hkey => .next _ (hs key call _ hkey))
    (fun key call _ _ error hkey => .failed error (hs key call _ hkey))
    fun key call p _ hkey => hs key call p hkey

/-- The step makes a call return the value. -/
def Returns (sv : Service σ ε κ ω β) (a : Action ε κ ω) (s : State σ ε κ β) (call : κ)
    (value : β) : Prop :=
  ∃ key, (Pool.step sv a s).Returned key call value ∧ ¬ s.Returned key call value

/-- A query with which the program ends makes its call return. -/
theorem returns_of_query {key : Nat} {call : κ} {effect : σ → σ} {next : σ → Prog σ ε β}
    {value : β} (hkey : s.calls key = some (call, .query effect next))
    (hnext : next s.store = .ok value) : Returns sv (.advance key) s call value := by
  refine ⟨key, ?_, fun hbefore => ?_⟩
  · rw [step_advance hkey, hnext]
    exact if_pos rfl
  · cases hkey.symm.trans hbefore

/-- A call that issues queries returns with the last of them. -/
theorem Returns.query {call : κ} {value : β} (h : Returns sv a s call value)
    (hquery : ∀ value, sv.program call ≠ .ok value) :
    ∃ key effect next, a = .advance key ∧ s.calls key = some (call, .query effect next) ∧
      next s.store = .ok value ∧ (Pool.step sv a s).store = effect s.store := by
  obtain ⟨key, hafter, hbefore⟩ := h
  have hstep : Stepped sv s a (Pool.step sv a s) := stepped a s
  generalize Pool.step sv a s = s' at hstep hafter ⊢
  have hset : ∀ {entry : κ × Prog σ ε β} {k : Nat}, (s.setCall k entry).calls key =
      some (call, .ok value) → k = key ∧ entry = (call, .ok value) := by
    intro entry k hk
    rcases State.calls_setCall_cases hk with ⟨rfl, hentry⟩ | ⟨-, hold⟩
    · exact ⟨rfl, hentry⟩
    · exact absurd hold hbefore
  cases hstep with
  | same | event => exact absurd hafter hbefore
  | started hkey =>
      obtain ⟨-, hentry⟩ := hset hafter
      obtain ⟨rfl, hprogram⟩ := Prod.mk.inj hentry
      exact absurd hprogram (hquery value)
  | advanced hkey =>
      obtain ⟨rfl, hentry⟩ := hset hafter
      obtain ⟨rfl, hnext⟩ := Prod.mk.inj hentry
      exact ⟨_, _, _, rfl, hkey, hnext, rfl⟩
  | failed hkey =>
      obtain ⟨-, hentry⟩ := hset hafter
      cases hentry

/-! ## Rely and guarantee -/

section Guarantee

variable {R : σ → σ → Prop} {G : κ → σ → σ → Prop} {Q : κ → β → σ → Prop}

/-- Every call in flight is safe from some earlier store, and the store has moved along `R`
since. -/
def Guarded (R : σ → σ → Prop) (G : κ → σ → σ → Prop) (Q : κ → β → σ → Prop) :
    State σ ε κ β → Prop :=
  Threads fun call p store => ∃ s₀, R s₀ store ∧ p.Safe R (G call) (Q call) s₀

theorem guarded_idle (store : σ) : Guarded R G Q (.idle store : State σ ε κ β) :=
  threads_idle store

/-- In a guarded state a query keeps the guarantee of the call that issues it. -/
theorem Guarded.guarantee (hs : Guarded R G Q s) {key : Nat} {call : κ} {effect : σ → σ}
    {next : σ → Prog σ ε β} (hkey : s.calls key = some (call, .query effect next)) :
    G call s.store (effect s.store) := by
  obtain ⟨s₀, hr, hsafe⟩ := hs key call _ hkey
  exact (hsafe s.store hr).1

/-- In a guarded state every step moves the store along `R`. -/
theorem Guarded.rely [Std.Refl R] (hs : Guarded R G Q s)
    (hguarantee : ∀ call s s', G call s s' → R s s')
    (hworld : ∀ event s, R s (sv.world event s)) : R s.store (Pool.step sv a s).store := by
  have hstep : Stepped sv s a (Pool.step sv a s) := stepped a s
  generalize Pool.step sv a s = s' at hstep
  cases hstep with
  | same | started | failed => exact Std.Refl.refl _
  | advanced hkey => exact hguarantee _ _ _ (hs.guarantee hkey)
  | event => exact hworld _ _

/-- A step that starts no unsafe call keeps the state guarded. -/
theorem Guarded.step [Std.Refl R] [IsTrans σ R] (hs : Guarded R G Q s)
    (hguarantee : ∀ call s s', G call s s' → R s s')
    (hworld : ∀ event s, R s (sv.world event s))
    (hstart : ∀ key call, a = .start key call →
      (sv.program call).Safe R (G call) (Q call) s.store) : Guarded R G Q (Pool.step sv a s) := by
  refine threads_step hs ?_ ?_ ?_ ?_
  · exact fun key call ha => ⟨s.store, Std.Refl.refl _, hstart key call ha⟩
  · intro key call effect next ha hkey
    obtain ⟨s₀, hr, hsafe⟩ := hs key call _ hkey
    exact ⟨effect s.store, Std.Refl.refl _, (hsafe s.store hr).2⟩
  · exact fun key call effect next error _ => ⟨s.store, Std.Refl.refl _, trivial⟩
  · intro key call p _ hkey
    obtain ⟨s₀, hr, hsafe⟩ := hs key call p hkey
    exact ⟨s₀, IsTrans.trans _ _ _ hr (hs.rely hguarantee hworld), hsafe⟩

end Guarantee

end Pool

end Lib
