import SharamLedger.Lib.Pool

/-!
# Entries that belong to one call each

Calls add entries to a shared store, such as rows of a table. `AddsOnce` says of a program that its
queries add one entry at most, whatever the store does in between, and what it then returns. When
every program of a service is of this kind, each entry of the store can be traced to the one call
that added it, however the queries interleave and whichever of them fail.
-/

namespace Lib

variable {σ ε ε' κ ω α β μ : Type}

/-- Both stores have the same entries. -/
def Same (entries : σ → μ → Prop) (s s' : σ) : Prop := ∀ m, entries s' m ↔ entries s m

/-- The second store has one entry more. -/
def Gains (entries : σ → μ → Prop) (m : μ) (s s' : σ) : Prop :=
  ¬ entries s m ∧ ∀ x, entries s' x ↔ entries s x ∨ x = m

instance {entries : σ → μ → Prop} : Std.Refl (Same entries) := ⟨fun _ _ => Iff.rfl⟩

namespace Prog

/-- What is left of a program that has added the entry `added`, if any: its queries add no entry to
that, and one that satisfies `A` at most where there was none. With the entry, a value that it
returns satisfies `Q`. -/
def AddsOnce (entries : σ → μ → Prop) (A : μ → Prop) (Q : Option μ → α → Prop) :
    Option μ → Prog σ ε α → Prop
  | added, .ok value => Q added value
  | _, .err _ => True
  | added, .query effect next => ∀ s,
      (Same entries s (effect s) ∧ (next s).AddsOnce entries A Q added) ∨
        (added = none ∧ ∃ m, A m ∧ Gains entries m s (effect s) ∧
          (next s).AddsOnce entries A Q (some m))

section Rules

variable {entries : σ → μ → Prop} {A : μ → Prop} {Q : Option μ → α → Prop} {added : Option μ}
  {p : Prog σ ε α}

theorem addsOnce_pure {value : α} (h : Q added value) :
    (pure value : Prog σ ε α).AddsOnce entries A Q added := h

@[simp] theorem addsOnce_err (error : ε) :
    (Prog.err error : Prog σ ε α).AddsOnce entries A Q added := trivial

theorem AddsOnce.bind {Q' : Option μ → β → Prop} {f : α → Prog σ ε β}
    (hp : p.AddsOnce entries A Q added)
    (hf : ∀ added' value, Q added' value → (f value).AddsOnce entries A Q' added') :
    (p >>= f).AddsOnce entries A Q' added := by
  show (p.bind f).AddsOnce entries A Q' added
  induction p generalizing added with
  | ok value => exact hf added value hp
  | err => trivial
  | query effect next ih =>
      intro s
      rcases hp s with ⟨hsame, hnext⟩ | ⟨hnone, m, hm, hgains, hnext⟩
      · exact .inl ⟨hsame, ih s hnext⟩
      · exact .inr ⟨hnone, m, hm, hgains, ih s hnext⟩

theorem AddsOnce.mapErr (hp : p.AddsOnce entries A Q added) (g : ε → ε') :
    (p.mapErr g).AddsOnce entries A Q added := by
  induction p generalizing added with
  | ok value => exact hp
  | err => trivial
  | query effect next ih =>
      intro s
      rcases hp s with ⟨hsame, hnext⟩ | ⟨hnone, m, hm, hgains, hnext⟩
      · exact .inl ⟨hsame, ih s hnext⟩
      · exact .inr ⟨hnone, m, hm, hgains, ih s hnext⟩

/-- A program that leaves the entries alone. -/
theorem Moves.addsOnce (hp : p.Moves (Same entries)) :
    p.AddsOnce entries A (fun added' _ => added' = added) added := by
  induction p with
  | ok => rfl
  | err => trivial
  | query effect next ih => exact fun s => .inl ⟨(hp s).1, ih s (hp s).2⟩

theorem addsOnce_read {f : σ → α} (h : ∀ s, Q added (f s)) :
    (read f : Prog σ ε α).AddsOnce entries A Q added :=
  fun s => .inl ⟨Std.Refl.refl s, h s⟩

theorem addsOnce_lift {result : Except ε α} (h : ∀ value, result = .ok value → Q added value) :
    (lift result : Prog σ ε α).AddsOnce entries A Q added := by
  cases result with
  | error e => trivial
  | ok value => exact h value rfl

theorem addsOnce_okOr {error : ε} {value : Option α} (h : ∀ v, value = some v → Q added v) :
    (okOr error value : Prog σ ε α).AddsOnce entries A Q added := by
  cases value with
  | none => trivial
  | some v => exact h v rfl

/-- A query each of whose answers leaves the entries alone or comes with a new one. -/
theorem addsOnce_exec {f : σ → Except ε (α × σ)}
    (h : ∀ s value s', f s = .ok (value, s') → (Same entries s s' ∧ Q added value) ∨
      (added = none ∧ ∃ m, A m ∧ Gains entries m s s' ∧ Q (some m) value)) :
    (exec f).AddsOnce entries A Q added := by
  intro s
  cases hf : f s with
  | error e => exact .inl ⟨by simp [hf, Std.Refl.refl s], by simp [hf]⟩
  | ok answer =>
      rcases h s answer.1 answer.2 hf with ⟨hsame, hvalue⟩ | ⟨hnone, m, hm, hgains, hvalue⟩
      · exact .inl ⟨by simpa [hf] using hsame, by simpa [hf, AddsOnce] using hvalue⟩
      · exact .inr ⟨hnone, m, hm, by simpa [hf] using hgains,
          by simpa [hf, AddsOnce] using hvalue⟩

end Rules

end Prog

namespace Pool

variable {sv : Service σ ε κ ω β} {a : Action ε κ ω} {s : State σ ε κ β}
  {entries : σ → μ → Prop} {A : κ → μ → Prop} {Q : κ → Option μ → β → Prop}

/-- Every entry of the store is owned by one call, which asked for it; what is left of a call
accounts for what it owns. -/
structure Owned (entries : σ → μ → Prop) (A : κ → μ → Prop) (Q : κ → Option μ → β → Prop)
    (owned : Nat → Option μ) (s : State σ ε κ β) : Prop where
  covers : ∀ m, entries s.store m ↔ ∃ key, owned key = some m
  single : ∀ key key' m, owned key = some m → owned key' = some m → key = key'
  asked : ∀ key m, owned key = some m → ∃ call p, s.calls key = some (call, p) ∧ A call m
  threads : ∀ key call p, s.calls key = some (call, p) →
    p.AddsOnce entries (A call) (Q call) (owned key)

/-- A call that has not started owns nothing. -/
theorem Owned.not_started {owned : Nat → Option μ} (hs : Owned entries A Q owned s) {key : Nat}
    (h : s.calls key = none) : owned key = none := by
  cases howned : owned key with
  | none => rfl
  | some m =>
      obtain ⟨call, p, hcall, -⟩ := hs.asked key m howned
      rw [h] at hcall
      cases hcall

/-- A step that leaves the entries alone leaves them to their owners. -/
theorem Owned.set {owned : Nat → Option μ} (hs : Owned entries A Q owned s) {key : Nat} {call : κ}
    {q : Prog σ ε β} {store : σ} (hsame : Same entries s.store store)
    (hcall : ∀ call' p, s.calls key = some (call', p) → call' = call)
    (hq : q.AddsOnce entries (A call) (Q call) (owned key)) :
    Owned entries A Q owned { s.setCall key (call, q) with store := store } := by
  refine ⟨fun m => (hsame m).trans (hs.covers m), hs.single, fun k m hk => ?_,
    fun k call' p hk => ?_⟩
  · obtain ⟨call', p, hkey, hasked⟩ := hs.asked k m hk
    by_cases heq : k = key
    · subst heq
      obtain rfl := hcall call' p hkey
      exact ⟨call', q, s.calls_setCall_self k _, hasked⟩
    · exact ⟨call', p, (s.calls_setCall_of_ne heq _).trans hkey, hasked⟩
  · rcases State.calls_setCall_cases hk with ⟨rfl, heq⟩ | ⟨-, hold⟩
    · obtain ⟨rfl, rfl⟩ := Prod.mk.inj heq
      exact hq
    · exact hs.threads k call' p hold

/-- A query that adds an entry makes its call the owner. -/
theorem Owned.gain {owned : Nat → Option μ} (hs : Owned entries A Q owned s) {key : Nat} {call : κ}
    {p q : Prog σ ε β} {store : σ} {m : μ} (hkey : s.calls key = some (call, p))
    (hnone : owned key = none) (hasked : A call m) (hgains : Gains entries m s.store store)
    (hq : q.AddsOnce entries (A call) (Q call) (some m)) :
    Owned entries A Q (fun k => if k = key then some m else owned k)
      { s.setCall key (call, q) with store := store } := by
  have hfresh : ∀ k, owned k ≠ some m := fun k hk => hgains.1 ((hs.covers m).mpr ⟨k, hk⟩)
  refine ⟨fun x => ?_, fun k k' x hk hk' => ?_, fun k x hk => ?_, fun k call' r hk => ?_⟩
  · rw [hgains.2, hs.covers]
    constructor
    · intro hx
      rcases hx with ⟨k, hk⟩ | rfl
      · have hne : k ≠ key := by
          rintro rfl
          rw [hnone] at hk
          cases hk
        exact ⟨k, by rw [if_neg hne, hk]⟩
      · exact ⟨key, if_pos rfl⟩
    · intro hx
      obtain ⟨k, hk⟩ := hx
      split at hk
      · exact .inr (Option.some.inj hk).symm
      · exact .inl ⟨k, hk⟩
  · split at hk <;> split at hk'
    · next heq heq' => rw [heq, heq']
    · exact absurd (hk'.trans hk.symm) (hfresh k')
    · exact absurd (hk.trans hk'.symm) (hfresh k)
    · exact hs.single k k' x hk hk'
  · split at hk
    · next heq =>
        subst heq
        obtain rfl := Option.some.inj hk
        exact ⟨call, q, s.calls_setCall_self k _, hasked⟩
    · next hne =>
        obtain ⟨call', r, hcall, hfits⟩ := hs.asked k x hk
        exact ⟨call', r, (s.calls_setCall_of_ne hne _).trans hcall, hfits⟩
  · rcases State.calls_setCall_cases hk with ⟨rfl, heq⟩ | ⟨hne, hold⟩
    · obtain ⟨rfl, rfl⟩ := Prod.mk.inj heq
      rw [if_pos rfl]
      exact hq
    · rw [if_neg hne]
      exact hs.threads k call' r hold

/-- A step of a service whose programs add once. The owners stay, and a new one has added its entry
in the step. -/
theorem Owned.step {owned : Nat → Option μ} (hs : Owned entries A Q owned s)
    (hworld : ∀ event s, Same entries s (sv.world event s))
    (hprogram : ∀ call, (sv.program call).AddsOnce entries (A call) (Q call) none) :
    ∃ owned', Owned entries A Q owned' (Pool.step sv a s) ∧
      (∀ key m, owned key = some m → owned' key = some m) ∧
      ∀ key m, owned' key = some m → owned key = some m ∨
        (a = .advance key ∧ Gains entries m s.store (Pool.step sv a s).store) := by
  have hstep : Stepped sv s a (Pool.step sv a s) := stepped a s
  generalize Pool.step sv a s = s' at hstep ⊢
  cases hstep with
  | same => exact ⟨owned, hs, fun _ _ h => h, fun _ _ h => .inl h⟩
  | @started key call hkey =>
      refine ⟨owned, hs.set (Std.Refl.refl s.store) (fun call' p h => ?_) ?_,
        fun _ _ h => h, fun _ _ h => .inl h⟩
      · rw [hkey] at h
        cases h
      · rw [hs.not_started hkey]
        exact hprogram call
  | @advanced key call effect next hkey =>
      have hone : ∀ call' p, s.calls key = some (call', p) → call' = call := by
        intro call' p h
        rw [hkey] at h
        exact (congrArg Prod.fst (Option.some.inj h)).symm
      rcases hs.threads key call _ hkey s.store with ⟨hsame, hnext⟩ | ⟨hnone, m, hm, hgains, hnext⟩
      · exact ⟨owned, hs.set hsame hone hnext, fun _ _ h => h, fun _ _ h => .inl h⟩
      · refine ⟨_, hs.gain hkey hnone hm hgains hnext, fun k x hk => ?_, fun k x hk => ?_⟩
        · have hne : k ≠ key := by
            rintro rfl
            rw [hnone] at hk
            cases hk
          rw [if_neg hne, hk]
        · split at hk
          · next heq =>
              subst heq
              obtain rfl := Option.some.inj hk
              exact .inr ⟨rfl, hgains⟩
          · exact .inl hk
  | @failed key call effect next error hkey =>
      refine ⟨owned, hs.set (Std.Refl.refl s.store) (fun call' p h => ?_) trivial,
        fun _ _ h => h, fun _ _ h => .inl h⟩
      rw [hkey] at h
      exact (congrArg Prod.fst (Option.some.inj h)).symm
  | event =>
      exact ⟨owned, ⟨fun m => (hworld _ _ m).trans (hs.covers m), hs.single, hs.asked, hs.threads⟩,
        fun _ _ h => h, fun _ _ h => .inl h⟩

/-- Through a whole run, every entry has an owner, an owner stays, and one that comes to own an
entry has added it in a step of its own. -/
theorem Owned.exec {owned : Nat → Option μ} (hs : Owned entries A Q owned s)
    (hworld : ∀ event s, Same entries s (sv.world event s))
    (hprogram : ∀ call, (sv.program call).AddsOnce entries (A call) (Q call) none)
    (actions : List (Action ε κ ω)) :
    ∃ owned', Owned entries A Q owned' (Trace.exec (Pool.step sv) actions s) ∧
      (∀ key m, owned key = some m → owned' key = some m) ∧
      ∀ key m, owned' key = some m → owned key = some m ∨
        ∃ x, Trace.Takes (Pool.step sv) actions s (.advance key) x ∧
          Gains entries m x.store (Pool.step sv (.advance key) x).store := by
  induction actions generalizing owned s with
  | nil => exact ⟨owned, hs, fun _ _ h => h, fun _ _ h => .inl h⟩
  | cons a actions ih =>
      obtain ⟨owned₁, hstep, hkept, hadded⟩ := hs.step (a := a) hworld hprogram
      obtain ⟨owned₂, hrun, hkept', hadded'⟩ := ih hstep
      refine ⟨owned₂, hrun, fun key m h => hkept' key m (hkept key m h), fun key m h => ?_⟩
      rcases hadded' key m h with hfirst | ⟨x, htakes, hgains⟩
      · rcases hadded key m hfirst with hold | ⟨rfl, hgains⟩
        · exact .inl hold
        · exact .inr ⟨s, ⟨[], actions, rfl, rfl⟩, hgains⟩
      · exact .inr ⟨x, htakes.after [a], hgains⟩

/-- Where there are no entries and no calls, nothing is owned. -/
theorem owned_idle {store : σ} (hempty : ∀ m, ¬ entries store m) :
    Owned entries A Q (fun _ => none) (.idle store : State σ ε κ β) where
  covers m := by
    constructor
    · exact fun hm => absurd hm (hempty m)
    · intro h
      obtain ⟨_, h⟩ := h
      cases h
  single _ _ _ h := by cases h
  asked _ _ h := by cases h
  threads _ _ _ h := by cases h

end Pool

end Lib
