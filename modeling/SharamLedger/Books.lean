import SharamLedger.Lib.Machine
import Mathlib.Logic.Function.Basic

/-!
# The books of the ventures

What the service is for, without tables, tokens or requests. Ventures have terms, members with
roles, open invitations, a list of payments and at most one opening seed, and seven acts write in
these books under guards. Nothing that was entered is ever taken out again, and each entry names
the act that made it.
-/

namespace SharamLedger

open Lib

/-- The state of all ventures. -/
@[ext] structure Books (Address Venture Role Terms Payment Seed : Type) where
  role : Address → Venture → Option Role
  invited : Venture → Address → Option Role
  terms : Venture → Option Terms
  payments : Venture → List Payment
  seed : Venture → Option Seed

/-- What may be written in the books. -/
inductive Act (Address Venture Role Terms Payment Seed : Type) where
  | found (who : Address) (venture : Venture) (terms : Terms)
  | amend (who : Address) (venture : Venture) (terms : Terms)
  | invite (who : Address) (venture : Venture) (guest : Address) (role : Role)
  | withdraw (who : Address) (venture : Venture) (guest : Address)
  | join (who : Address)
  | pay (venture : Venture) (payment : Payment)
  | seed (venture : Venture) (seed : Seed)

/-- The house rules: who pays and who records a seed, which terms are sound, when a payment fits
the terms and the payments before it, and which seeds are valid. -/
structure Rules (Address Venture Role Terms Payment Seed : Type) where
  owner : Role
  payer : Payment → Address
  recorder : Seed → Address
  Sound : Terms → Prop
  Fits : Terms → List Payment → Payment → Prop
  Valid : Seed → Prop

namespace Rules

variable {Address Venture Role Terms Payment Seed : Type}
  (rules : Rules Address Venture Role Terms Payment Seed)

/-- The guard of an act. -/
def Allowed (act : Act Address Venture Role Terms Payment Seed)
    (books : Books Address Venture Role Terms Payment Seed) : Prop :=
  match act with
  | .found _ venture terms =>
      books.terms venture = none ∧ (∀ a, books.role a venture = none) ∧
        (∀ a, books.invited venture a = none) ∧ rules.Sound terms
  | .amend who venture terms =>
      books.role who venture = some rules.owner ∧ (books.terms venture).isSome ∧
        rules.Sound terms
  | .invite who venture guest _ =>
      books.role who venture = some rules.owner ∧ books.invited venture guest = none
  | .withdraw who venture _ => books.role who venture = some rules.owner
  | .join _ => True
  | .pay venture payment =>
      (books.role (rules.payer payment) venture).isSome ∧
        ∃ terms, books.terms venture = some terms ∧
          rules.Fits terms (books.payments venture) payment
  | .seed venture seed =>
      books.role (rules.recorder seed) venture = some rules.owner ∧ books.seed venture = none ∧
        rules.Valid seed

/-- Whose act it is. -/
def actor : Act Address Venture Role Terms Payment Seed → Address
  | .found who _ _ | .amend who _ _ | .invite who _ _ _ | .withdraw who _ _ | .join who => who
  | .pay _ payment => rules.payer payment
  | .seed _ seed => rules.recorder seed

variable [DecidableEq Address] [DecidableEq Venture]

/-- What an act writes. Whoever joins takes the role of every open invitation of theirs. -/
def write (act : Act Address Venture Role Terms Payment Seed)
    (books : Books Address Venture Role Terms Payment Seed) :
    Books Address Venture Role Terms Payment Seed :=
  match act with
  | .found who venture terms =>
      { books with
        role := fun a v => if a = who ∧ v = venture then some rules.owner else books.role a v
        terms := Function.update books.terms venture (some terms) }
  | .amend _ venture terms =>
      { books with terms := Function.update books.terms venture (some terms) }
  | .invite _ venture guest role =>
      { books with
        invited := fun v a => if v = venture ∧ a = guest then some role else books.invited v a }
  | .withdraw _ venture guest =>
      { books with
        invited := fun v a => if v = venture ∧ a = guest then none else books.invited v a }
  | .join who =>
      { books with
        role := fun a v =>
          if a = who then (books.invited v a).or (books.role a v) else books.role a v }
  | .pay venture payment =>
      { books with
        payments := Function.update books.payments venture (books.payments venture ++ [payment]) }
  | .seed venture seed =>
      { books with seed := Function.update books.seed venture (some seed) }

/-- The books under the rules. -/
def machine : Machine (Books Address Venture Role Terms Payment Seed)
    (Act Address Venture Role Terms Payment Seed) :=
  ⟨rules.Allowed, rules.write⟩

end Rules

namespace Books

variable {Address Venture Role Terms Payment Seed : Type}

/-- Books without an entry. -/
def empty : Books Address Venture Role Terms Payment Seed :=
  ⟨fun _ _ => none, fun _ _ => none, fun _ => none, fun _ => [], fun _ => none⟩

/-! ## Entries stay -/

/-- Payments are appended, a seed stays, and ventures keep terms and members. -/
structure Grows (books books' : Books Address Venture Role Terms Payment Seed) : Prop where
  payments : ∀ v, books.payments v <+: books'.payments v
  seed : ∀ v s, books.seed v = some s → books'.seed v = some s
  terms : ∀ v, (books.terms v).isSome → (books'.terms v).isSome
  role : ∀ a v, (books.role a v).isSome → (books'.role a v).isSome

theorem Grows.refl (books : Books Address Venture Role Terms Payment Seed) : Grows books books :=
  ⟨fun _ => List.prefix_refl _, fun _ _ h => h, fun _ h => h, fun _ _ h => h⟩

theorem Grows.trans {books₁ books₂ books₃ : Books Address Venture Role Terms Payment Seed}
    (h : Grows books₁ books₂) (h' : Grows books₂ books₃) : Grows books₁ books₃ where
  payments v := (h.payments v).trans (h'.payments v)
  seed v s hs := h'.seed v s (h.seed v s hs)
  terms v hv := h'.terms v (h.terms v hv)
  role a v ha := h'.role a v (h.role a v ha)

instance : Std.Refl (@Grows Address Venture Role Terms Payment Seed) := ⟨Grows.refl⟩

instance : IsTrans _ (@Grows Address Venture Role Terms Payment Seed) :=
  ⟨fun _ _ _ => Grows.trans⟩

/-- What holds of books in use. Whoever has a role or an invitation has it in a venture with terms,
terms and seeds are good, payments and seeds are by members, and every payment fitted sound terms
and the payments before it. -/
structure Kept (rules : Rules Address Venture Role Terms Payment Seed)
    (books : Books Address Venture Role Terms Payment Seed) : Prop where
  members : ∀ a v, (books.role a v).isSome → (books.terms v).isSome
  guests : ∀ v a, (books.invited v a).isSome → (books.terms v).isSome
  sound : ∀ v t, books.terms v = some t → rules.Sound t
  payers : ∀ v, ∀ p ∈ books.payments v, (books.role (rules.payer p) v).isSome
  fitted : ∀ v earlier p later, books.payments v = earlier ++ p :: later →
    ∃ t, rules.Sound t ∧ rules.Fits t earlier p
  seeds : ∀ v s, books.seed v = some s →
    rules.Valid s ∧ (books.role (rules.recorder s) v).isSome

theorem kept_empty (rules : Rules Address Venture Role Terms Payment Seed) :
    Kept rules empty where
  members _ _ h := by cases h
  guests _ _ h := by cases h
  sound _ _ h := by cases h
  payers _ _ h := by cases h
  fitted _ _ _ _ h := by cases (List.append_eq_nil_iff.mp h.symm).2
  seeds _ _ h := by cases h

end Books

/-! ## What an allowed act does -/

namespace Rules

open Books

variable {Address Venture Role Terms Payment Seed : Type} [DecidableEq Address]
  [DecidableEq Venture] {rules : Rules Address Venture Role Terms Payment Seed}
  {act : Act Address Venture Role Terms Payment Seed}
  {books : Books Address Venture Role Terms Payment Seed}

/-- No act takes an entry out. -/
theorem grows_write (h : rules.Allowed act books) : Grows books (rules.write act books) := by
  cases act with
  | found who venture terms =>
      obtain ⟨-, hnobody, -, -⟩ := h
      refine ⟨fun _ => List.prefix_refl _, fun _ _ h => h, fun v hv => ?_, fun a v ha => ?_⟩
      · by_cases hventure : v = venture
        · simp [write, hventure]
        · simpa [write, hventure] using hv
      · by_cases hnew : a = who ∧ v = venture
        · simp [write, hnew]
        · simpa [write, hnew] using ha
  | amend who venture terms =>
      refine ⟨fun _ => List.prefix_refl _, fun _ _ h => h, fun v hv => ?_, fun _ _ h => h⟩
      by_cases hventure : v = venture
      · simp [write, hventure]
      · simpa [write, hventure] using hv
  | invite who venture guest role =>
      exact ⟨fun _ => List.prefix_refl _, fun _ _ h => h, fun _ h => h, fun _ _ h => h⟩
  | withdraw who venture guest =>
      exact ⟨fun _ => List.prefix_refl _, fun _ _ h => h, fun _ h => h, fun _ _ h => h⟩
  | join who =>
      refine ⟨fun _ => List.prefix_refl _, fun _ _ h => h, fun _ h => h, fun a v ha => ?_⟩
      show (if a = who then (books.invited v a).or (books.role a v) else books.role a v).isSome
      split
      · rw [Option.isSome_or, ha, Bool.or_true]
      · exact ha
  | pay venture payment =>
      refine ⟨fun v => ?_, fun _ _ h => h, fun _ h => h, fun _ _ h => h⟩
      by_cases hventure : v = venture
      · subst hventure
        simp [write]
      · simp [write, hventure]
  | seed venture seed =>
      obtain ⟨-, hnone, -⟩ := h
      refine ⟨fun _ => List.prefix_refl _, fun v s hs => ?_, fun _ h => h, fun _ _ h => h⟩
      by_cases hventure : v = venture
      · rw [hventure, hnone] at hs
        cases hs
      · simpa [write, hventure] using hs

/-- An allowed act keeps the books in order. -/
theorem kept_write (hkept : Kept rules books) (h : rules.Allowed act books) :
    Kept rules (rules.write act books) := by
  have hgrows := grows_write h
  have hpayers : ∀ v, ∀ p ∈ books.payments v,
      ((rules.write act books).role (rules.payer p) v).isSome :=
    fun v p hp => hgrows.role _ _ (hkept.payers v p hp)
  have hseeds : ∀ v s, books.seed v = some s →
      rules.Valid s ∧ ((rules.write act books).role (rules.recorder s) v).isSome :=
    fun v s hs => ⟨(hkept.seeds v s hs).1, hgrows.role _ _ (hkept.seeds v s hs).2⟩
  cases act with
  | found who venture terms =>
      obtain ⟨-, -, -, hsound⟩ := h
      refine ⟨fun a v ha => ?_, fun v a ha => hgrows.terms v (hkept.guests v a ha),
        fun v t ht => ?_, hpayers, hkept.fitted, hseeds⟩
      · by_cases hventure : v = venture
        · simp [write, hventure]
        · have hold : (books.role a v).isSome := by simpa [write, hventure] using ha
          exact hgrows.terms v (hkept.members a v hold)
      · by_cases hventure : v = venture
        · obtain rfl : terms = t := by simpa [write, hventure] using ht
          exact hsound
        · exact hkept.sound v t (by simpa [write, hventure] using ht)
  | amend who venture terms =>
      obtain ⟨-, -, hsound⟩ := h
      refine ⟨fun a v ha => hgrows.terms v (hkept.members a v ha),
        fun v a ha => hgrows.terms v (hkept.guests v a ha), fun v t ht => ?_, hpayers,
        hkept.fitted, hseeds⟩
      by_cases hventure : v = venture
      · obtain rfl : terms = t := by simpa [write, hventure] using ht
        exact hsound
      · exact hkept.sound v t (by simpa [write, hventure] using ht)
  | invite who venture guest role =>
      obtain ⟨howner, -⟩ := h
      refine ⟨hkept.members, fun v a ha => ?_, hkept.sound, hpayers, hkept.fitted, hseeds⟩
      by_cases hguest : v = venture ∧ a = guest
      · rw [hguest.1]
        exact hkept.members who venture (by rw [howner]; rfl)
      · exact hkept.guests v a (by simpa [write, hguest] using ha)
  | withdraw who venture guest =>
      refine ⟨hkept.members, fun v a ha => ?_, hkept.sound, hpayers, hkept.fitted, hseeds⟩
      by_cases hguest : v = venture ∧ a = guest
      · simp [write, hguest] at ha
      · exact hkept.guests v a (by simpa [write, hguest] using ha)
  | join who =>
      refine ⟨fun a v ha => ?_, hkept.guests, hkept.sound, hpayers, hkept.fitted, hseeds⟩
      change (if a = who then (books.invited v a).or (books.role a v)
        else books.role a v).isSome at ha
      split at ha
      · rw [Option.isSome_or, Bool.or_eq_true] at ha
        exact ha.elim (hkept.guests v a) (hkept.members a v)
      · exact hkept.members a v ha
  | pay venture payment =>
      obtain ⟨hpayer, terms, hterms, hfits⟩ := h
      refine ⟨hkept.members, hkept.guests, hkept.sound, fun v p hp => ?_,
        fun v earlier p later hsplit => ?_, hseeds⟩
      · by_cases hventure : v = venture
        · subst hventure
          have hp : p ∈ books.payments v ∨ p = payment := by simpa [write] using hp
          rcases hp with hp | rfl
          · exact hkept.payers v p hp
          · exact hpayer
        · exact hkept.payers v p (by simpa [write, hventure] using hp)
      · by_cases hventure : v = venture
        · subst hventure
          have hsplit : books.payments v ++ [payment] = earlier ++ p :: later := by
            simpa [write] using hsplit
          -- the payment is the new one, or it stands among the old ones
          rcases List.eq_nil_or_concat later with rfl | ⟨others, last, rfl⟩
          · obtain ⟨rfl, hp⟩ := List.append_inj' hsplit rfl
            obtain rfl := List.singleton_inj.mp hp
            exact ⟨terms, hkept.sound v terms hterms, hfits⟩
          · have hlast : books.payments v ++ [payment] = (earlier ++ p :: others) ++ [last] := by
              simpa using hsplit
            exact hkept.fitted v earlier p others (List.append_inj' hlast rfl).1
        · exact hkept.fitted v earlier p later (by simpa [write, hventure] using hsplit)
  | seed venture seed =>
      obtain ⟨howner, -, hvalid⟩ := h
      refine ⟨hkept.members, hkept.guests, hkept.sound, hpayers, hkept.fitted, fun v s hs => ?_⟩
      by_cases hventure : v = venture
      · obtain rfl : seed = s := by simpa [write, hventure] using hs
        rw [hventure]
        exact ⟨hvalid, by simp [write, howner]⟩
      · exact hseeds v s (by simpa [write, hventure] using hs)

/-! ## Where an entry comes from -/

variable {a : Address} {v : Venture}

/-- A role is given by founding, or by joining on an open invitation. -/
theorem role_written {role : Role} (hbefore : books.role a v ≠ some role)
    (hafter : (rules.write act books).role a v = some role) :
    (∃ terms, act = .found a v terms ∧ role = rules.owner) ∨
      (act = .join a ∧ books.invited v a = some role) := by
  cases act with
  | found who venture terms =>
      change (if a = who ∧ v = venture then some rules.owner else books.role a v) = some role
        at hafter
      split at hafter
      · next hnew =>
          obtain ⟨rfl, rfl⟩ := hnew
          exact .inl ⟨terms, rfl, (Option.some.inj hafter).symm⟩
      · exact absurd hafter hbefore
  | join who =>
      change (if a = who then (books.invited v a).or (books.role a v) else books.role a v) =
        some role at hafter
      split at hafter
      · next hwho =>
          subst hwho
          rcases Option.or_eq_some_iff.mp hafter with hinvited | ⟨-, hold⟩
          · exact .inr ⟨rfl, hinvited⟩
          · exact absurd hold hbefore
      · exact absurd hafter hbefore
  | amend | invite | withdraw | pay | seed => exact absurd hafter hbefore

/-- An invitation is given by an owner. -/
theorem invited_written {role : Role} (h : rules.Allowed act books)
    (hbefore : books.invited v a ≠ some role)
    (hafter : (rules.write act books).invited v a = some role) :
    ∃ who, act = .invite who v a role ∧ books.role who v = some rules.owner := by
  cases act with
  | invite who venture guest given =>
      change (if v = venture ∧ a = guest then some given else books.invited v a) = some role
        at hafter
      split at hafter
      · next hnew =>
          obtain ⟨rfl, rfl⟩ := hnew
          obtain rfl := Option.some.inj hafter
          exact ⟨who, rfl, h.1⟩
      · exact absurd hafter hbefore
  | withdraw who venture guest =>
      change (if v = venture ∧ a = guest then none else books.invited v a) = some role at hafter
      split at hafter
      · cases hafter
      · exact absurd hafter hbefore
  | found | amend | join | pay | seed => exact absurd hafter hbefore

/-- A payment is entered behind those before it. -/
theorem payment_written {payment : Payment} (hbefore : payment ∉ books.payments v)
    (hafter : payment ∈ (rules.write act books).payments v) : act = .pay v payment ∧
      (rules.write act books).payments v = books.payments v ++ [payment] := by
  cases act with
  | pay venture new =>
      by_cases hventure : v = venture
      · subst hventure
        have hnew : payment ∈ books.payments v ∨ payment = new := by simpa [write] using hafter
        obtain rfl := hnew.resolve_left hbefore
        exact ⟨rfl, by simp [write]⟩
      · exact absurd (by simpa [write, hventure] using hafter) hbefore
  | found | amend | invite | withdraw | join | seed => exact absurd hafter hbefore

/-- Terms are set by the founder, or by an owner. -/
theorem terms_written {terms : Terms} (h : rules.Allowed act books)
    (hbefore : books.terms v ≠ some terms)
    (hafter : (rules.write act books).terms v = some terms) :
    ∃ who, (act = .found who v terms ∧ books.terms v = none) ∨
      (act = .amend who v terms ∧ books.role who v = some rules.owner) := by
  cases act with
  | found who venture new =>
      by_cases hventure : v = venture
      · subst hventure
        obtain rfl : new = terms := by simpa [write] using hafter
        exact ⟨who, .inl ⟨rfl, h.1⟩⟩
      · exact absurd (by simpa [write, hventure] using hafter) hbefore
  | amend who venture new =>
      by_cases hventure : v = venture
      · subst hventure
        obtain rfl : new = terms := by simpa [write] using hafter
        exact ⟨who, .inr ⟨rfl, h.1⟩⟩
      · exact absurd (by simpa [write, hventure] using hafter) hbefore
  | invite | withdraw | join | pay | seed => exact absurd hafter hbefore

/-- A seed is recorded by an owner. -/
theorem seed_written {seed : Seed} (h : rules.Allowed act books)
    (hbefore : books.seed v ≠ some seed)
    (hafter : (rules.write act books).seed v = some seed) :
    act = .seed v seed ∧ books.role (rules.recorder seed) v = some rules.owner := by
  cases act with
  | seed venture new =>
      by_cases hventure : v = venture
      · subst hventure
        obtain rfl : new = seed := by simpa [write] using hafter
        exact ⟨rfl, h.1⟩
      · exact absurd (by simpa [write, hventure] using hafter) hbefore
  | found | amend | invite | withdraw | join | pay => exact absurd hafter hbefore

end Rules

end SharamLedger
