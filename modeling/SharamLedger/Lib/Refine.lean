import SharamLedger.Lib.Pool

/-!
# Refinement of services

A program refines another one when each of its queries, seen through an abstraction of the store, is
the next query of the other or changes nothing. A service whose programs refine those of another
refines it with any number of calls in flight. Every run is matched by a run of the other service
that leaves out the queries that change nothing.
-/

namespace Lib

namespace Prog

section Rules

variable {τ σ ε α β : Type} (abs : τ → σ) (I : τ → Prop)

/-- From stores that satisfy `I`, each query is the other program's next one, or a silent one. -/
def Refines : Prog τ ε α → Prog σ ε α → Prop
  | .ok value, p => p = .ok value
  | .err error, p => p = .err error
  | .query effect next, p => ∀ t, I t → I (effect t) ∧
      ((abs (effect t) = abs t ∧ (next t).Refines p) ∨
        ∃ effect' next', p = .query effect' next' ∧ abs (effect t) = effect' (abs t) ∧
          (next t).Refines (next' (abs t)))

/-- Every query is silent, and the program ends with a value that satisfies `Q`. -/
def Silent (Q : α → Prop) : Prog τ ε α → Prop
  | .ok value => Q value
  | .err _ => False
  | .query effect next => ∀ t, I t → I (effect t) ∧ abs (effect t) = abs t ∧ (next t).Silent Q

variable {abs I}

theorem refines_ok (value : α) : (.ok value : Prog τ ε α).Refines abs I (.ok value) := rfl

theorem refines_pure (value : α) : (pure value : Prog τ ε α).Refines abs I (pure value) := rfl

theorem refines_err (error : ε) : (.err error : Prog τ ε α).Refines abs I (.err error) := rfl

/-- A query that does the same to both stores, and goes on with the same answer. -/
theorem refines_query {effect : τ → τ} {next : τ → Prog τ ε α} {effect' : σ → σ}
    {next' : σ → Prog σ ε α} (hI : ∀ t, I t → I (effect t))
    (heffect : ∀ t, I t → abs (effect t) = effect' (abs t))
    (hnext : ∀ t, I t → (next t).Refines abs I (next' (abs t))) :
    (.query effect next : Prog τ ε α).Refines abs I (.query effect' next') :=
  fun t ht => ⟨hI t ht, .inr ⟨effect', next', rfl, heffect t ht, hnext t ht⟩⟩

theorem refines_okOr (error : ε) (value : Option α) :
    (okOr error value : Prog τ ε α).Refines abs I (okOr error value) := by
  cases value with
  | none => exact refines_err error
  | some value => exact refines_ok value

/-- Two statements that answer alike. -/
theorem refines_exec {f : τ → Except ε (α × τ)} {g : σ → Except ε (α × σ)}
    (h : ∀ t, I t → (∃ error, f t = .error error ∧ g (abs t) = .error error) ∨
      ∃ value t', f t = .ok (value, t') ∧ g (abs t) = .ok (value, abs t') ∧ I t') :
    (exec f).Refines abs I (exec g) := by
  intro t ht
  refine ⟨?_, .inr ⟨_, _, rfl, ?_⟩⟩
  · obtain ⟨error, hf, -⟩ | ⟨value, t', hf, -, ht'⟩ := h t ht
    · simpa only [hf] using ht
    · simpa only [hf] using ht'
  · obtain ⟨error, hf, hg⟩ | ⟨value, t', hf, hg, -⟩ := h t ht
    · simp only [hf, hg]
      exact ⟨trivial, refines_err error⟩
    · simp only [hf, hg]
      exact ⟨trivial, refines_ok value⟩

theorem Refines.bind {q : Prog τ ε α} {p : Prog σ ε α} {f : α → Prog τ ε β} {g : α → Prog σ ε β}
    (h : q.Refines abs I p) (hf : ∀ value, (f value).Refines abs I (g value)) :
    (q >>= f).Refines abs I (p >>= g) := by
  show (q.bind f).Refines abs I (p.bind g)
  induction q generalizing p with
  | ok value =>
      obtain rfl := h
      exact hf value
  | err error =>
      obtain rfl := h
      exact refines_err error
  | query effect next ih =>
      intro t ht
      obtain ⟨hI, ⟨hsame, hnext⟩ | ⟨effect', next', rfl, heffect, hnext⟩⟩ := h t ht
      · exact ⟨hI, .inl ⟨hsame, ih t hnext⟩⟩
      · exact ⟨hI, .inr ⟨effect', _, rfl, heffect, ih t hnext⟩⟩

theorem Silent.bind {Q : α → Prop} {Q' : β → Prop} {q : Prog τ ε α} {f : α → Prog τ ε β}
    (h : q.Silent abs I Q) (hf : ∀ value, Q value → (f value).Silent abs I Q') :
    (q >>= f).Silent abs I Q' := by
  show (q.bind f).Silent abs I Q'
  induction q with
  | ok value => exact hf value h
  | err => exact h.elim
  | query effect next ih =>
      intro t ht
      obtain ⟨hI, hsame, hnext⟩ := h t ht
      exact ⟨hI, hsame, ih t hnext⟩

/-- A silent beginning may be left out. -/
theorem Silent.refines {Q : α → Prop} {q : Prog τ ε α} {f : α → Prog τ ε β} {p : Prog σ ε β}
    (h : q.Silent abs I Q) (hf : ∀ value, Q value → (f value).Refines abs I p) :
    (q >>= f).Refines abs I p := by
  show (q.bind f).Refines abs I p
  induction q with
  | ok value => exact hf value h
  | err => exact h.elim
  | query effect next ih =>
      intro t ht
      obtain ⟨hI, hsame, hnext⟩ := h t ht
      exact ⟨hI, .inl ⟨hsame, ih t hnext⟩⟩

theorem silent_ok {Q : α → Prop} {value : α} (h : Q value) :
    (.ok value : Prog τ ε α).Silent abs I Q := h

/-- Alone, a silent program returns, and the other store is as it was. -/
theorem Silent.run {Q : α → Prop} {q : Prog τ ε α} (h : q.Silent abs I Q) {t : τ} (ht : I t) :
    ∃ value t', q.run t = (.ok value, t') ∧ Q value ∧ I t' ∧ abs t' = abs t := by
  induction q generalizing t with
  | ok value => exact ⟨value, t, rfl, h, ht, rfl⟩
  | err => exact h.elim
  | query effect next ih =>
      obtain ⟨hI, hsame, hnext⟩ := h t ht
      obtain ⟨value, t', hrun, hvalue, ht', habs⟩ := ih t hnext hI
      exact ⟨value, t', hrun, hvalue, ht', habs.trans hsame⟩

/-- Reading is silent, and every store that it may meet satisfies `I`. -/
theorem silent_read {f : τ → α} {Q : α → Prop} (h : ∀ t, I t → Q (f t)) :
    (read f : Prog τ ε α).Silent abs I Q :=
  fun t ht => ⟨ht, rfl, h t ht⟩

/-- A statement that always answers and keeps what the other program sees. -/
theorem silent_exec {f : τ → Except ε (α × τ)} {Q : α → Prop}
    (h : ∀ t, I t → ∃ value t', f t = .ok (value, t') ∧ I t' ∧ abs t' = abs t ∧ Q value) :
    (exec f).Silent abs I Q := by
  intro t ht
  obtain ⟨value, t', hf, ht', hsame, hvalue⟩ := h t ht
  simp only [hf]
  exact ⟨ht', hsame, hvalue⟩

end Rules

end Prog

/-! ## Calls in flight -/

namespace Pool

variable {τ σ ε κ ω β : Type} (abs : τ → σ) (I : τ → Prop)

/-- What is left of a call of the finer service, and what is left of it in the other. A call that
has ended with an error has ended there, too, in whatever way. -/
def Matches (q : Prog τ ε β) (p : Prog σ ε β) : Prop :=
  q.Refines abs I p ∨ (∃ error, q = .err error) ∧ ∀ effect next, p ≠ .query effect next

/-- The stores belong together, and so do the calls in flight. -/
structure Simulates (fine : State τ ε κ β) (s : State σ ε κ β) : Prop where
  invariant : I fine.store
  store : s.store = abs fine.store
  free : ∀ key, fine.calls key = none → s.calls key = none
  calls : ∀ key call q, fine.calls key = some (call, q) →
    ∃ p, s.calls key = some (call, p) ∧ Matches abs I q p

variable {abs I} {sv : Service τ ε κ ω β} {sv' : Service σ ε κ ω β} {fine : State τ ε κ β}
  {s : State σ ε κ β}

theorem simulates_idle {t : τ} (ht : I t) :
    Simulates abs I (.idle t : State τ ε κ β) (.idle (abs t) : State σ ε κ β) where
  invariant := ht
  store := rfl
  free _ _ := rfl
  calls _ _ _ h := by cases h

/-- What a call has returned, it has returned in the other service. -/
theorem Simulates.returned (h : Simulates abs I fine s) {key : Nat} {call : κ} {value : β}
    (hreturned : fine.Returned key call value) : s.Returned key call value := by
  obtain ⟨p, hp, hrefines | ⟨⟨error, herror⟩, -⟩⟩ := h.calls key call _ hreturned
  · obtain rfl := hrefines
    exact hp
  · cases herror

/-- Both services replace a call, and one of them its store. -/
theorem Simulates.setCall (h : Simulates abs I fine s) {key : Nat} {call : κ} {q : Prog τ ε β}
    {p : Prog σ ε β} (hmatches : Matches abs I q p) {t : τ} (ht : I t) :
    Simulates abs I { fine.setCall key (call, q) with store := t }
      { s.setCall key (call, p) with store := abs t } where
  invariant := ht
  store := rfl
  free k hk := by
    by_cases hkey : k = key
    · subst hkey
      cases (fine.calls_setCall_self k (call, q)).symm.trans hk
    · exact (s.calls_setCall_of_ne hkey _).trans
        (h.free k ((fine.calls_setCall_of_ne hkey _).symm.trans hk))
  calls k call' q' hk := by
    rcases State.calls_setCall_cases hk with ⟨rfl, hentry⟩ | ⟨hne, hk⟩
    · obtain ⟨rfl, rfl⟩ := Prod.mk.inj hentry
      exact ⟨p, s.calls_setCall_self k _, hmatches⟩
    · obtain ⟨p', hp', hmatches'⟩ := h.calls k call' q' hk
      exact ⟨p', (s.calls_setCall_of_ne hne _).trans hp', hmatches'⟩

/-- Only the finer service takes a step. -/
theorem Simulates.setFine (h : Simulates abs I fine s) {key : Nat} {call : κ} {q : Prog τ ε β}
    {p : Prog σ ε β} (hp : s.calls key = some (call, p)) (hmatches : Matches abs I q p) {t : τ}
    (ht : I t) (hsame : abs t = abs fine.store) :
    Simulates abs I { fine.setCall key (call, q) with store := t } s where
  invariant := ht
  store := h.store.trans hsame.symm
  free k hk := by
    by_cases hkey : k = key
    · subst hkey
      cases (fine.calls_setCall_self k (call, q)).symm.trans hk
    · exact h.free k ((fine.calls_setCall_of_ne hkey _).symm.trans hk)
  calls k call' q' hk := by
    rcases State.calls_setCall_cases hk with ⟨rfl, hentry⟩ | ⟨-, hk⟩
    · obtain ⟨rfl, rfl⟩ := Prod.mk.inj hentry
      exact ⟨p, hp, hmatches⟩
    · exact h.calls k call' q' hk

section Runs

variable (hprogram : ∀ call, (sv.program call).Refines abs I (sv'.program call))
  (hworld : ∀ event t, I t → I (sv.world event t) ∧
    abs (sv.world event t) = sv'.world event (abs t))

include hprogram hworld

/-- The other service takes the same step, or none. -/
theorem Simulates.step (h : Simulates abs I fine s) (a : Action ε κ ω) :
    Simulates abs I (Pool.step sv a fine) (Pool.step sv' a s) ∨
      Simulates abs I (Pool.step sv a fine) s := by
  have hstore : { s with store := abs fine.store } = s := by rw [← h.store]
  cases a with
  | start key call =>
      cases hkey : fine.calls key with
      | some entry =>
          right
          simpa only [Pool.step, hkey] using h
      | none =>
          left
          simp only [Pool.step, hkey, h.free key hkey]
          have hstart : Simulates abs I { fine.setCall key (call, sv.program call) with
              store := fine.store } { s.setCall key (call, sv'.program call) with
              store := abs fine.store } := h.setCall (.inl (hprogram call)) h.invariant
          rwa [← h.store] at hstart
  | advance key =>
      cases hkey : fine.calls key with
      | none =>
          right
          simpa only [Pool.step, hkey] using h
      | some entry =>
          obtain ⟨call, q⟩ := entry
          obtain ⟨p, hp, hmatches⟩ := h.calls key call q hkey
          cases q with
          | ok | err =>
              right
              simpa only [Pool.step, hkey] using h
          | query effect next =>
              have hrefines := hmatches.resolve_right fun herror => by cases herror.1.choose_spec
              obtain ⟨hI, ⟨hsame, hnext⟩ | ⟨effect', next', rfl, heffect, hnext⟩⟩ :=
                hrefines fine.store h.invariant
              · right
                simp only [Pool.step, hkey]
                exact h.setFine hp (.inl hnext) hI hsame
              · left
                simp only [Pool.step, hkey, hp, h.store]
                rw [← heffect]
                exact h.setCall (.inl hnext) hI
  | fail key error =>
      cases hkey : fine.calls key with
      | none =>
          right
          simpa only [Pool.step, hkey] using h
      | some entry =>
          obtain ⟨call, q⟩ := entry
          obtain ⟨p, hp, -⟩ := h.calls key call q hkey
          cases q with
          | ok | err =>
              right
              simpa only [Pool.step, hkey] using h
          | query effect next =>
              simp only [Pool.step, hkey]
              cases p with
              | query effect' next' =>
                  left
                  simp only [hp]
                  have hfail : Simulates abs I { fine.setCall key (call, .err error) with
                      store := fine.store } { s.setCall key (call, .err error) with
                      store := abs fine.store } :=
                    h.setCall (.inl (Prog.refines_err error)) h.invariant
                  rwa [← h.store] at hfail
              | ok | err =>
                  right
                  refine h.setFine hp (.inr ⟨⟨error, rfl⟩, ?_⟩) h.invariant rfl
                  intro effect' next' hquery
                  cases hquery
  | world event =>
      left
      obtain ⟨hI, hsame⟩ := hworld event fine.store h.invariant
      exact
        { invariant := hI
          store := (congrArg (sv'.world event) h.store).trans hsame.symm
          free := h.free
          calls := h.calls }

/-- Every run is matched by one of the other service that takes some of its actions in their
order. -/
theorem Simulates.run (h : Simulates abs I fine s) (actions : List (Action ε κ ω)) :
    ∃ actions', actions'.Sublist actions ∧
      Simulates abs I (Trace.exec (Pool.step sv) actions fine)
        (Trace.exec (Pool.step sv') actions' s) := by
  induction actions generalizing fine s with
  | nil => exact ⟨[], .slnil, h⟩
  | cons a actions ih =>
      rcases h.step hprogram hworld a with hstep | hstep
      · obtain ⟨actions', hsub, hrun⟩ := ih hstep
        exact ⟨a :: actions', hsub.cons_cons a, hrun⟩
      · obtain ⟨actions', hsub, hrun⟩ := ih hstep
        exact ⟨actions', hsub.cons a, hrun⟩

end Runs

end Pool

end Lib
