import Mathlib.Data.Option.Basic
import Mathlib.Logic.Function.Basic
import SharamLedger.Lib.Trace

/-!
# Keys of Google

`get_key` of `crate/auth/src/google.rs` takes the lock of the key cache up to three times: for the
fast path, for the set that a refresh stores, and for the lookup behind it. Between these moments
other calls go on and time passes. In any such run a key that is returned is the one that the set
fetched last has for the kid, and that set is younger than the call or was in its hour when the call
began (`Inv.returns`).
-/

namespace SharamLedger

open Lib

namespace GoogleKeys

/-! ## The verifier -/

/-- `auth::error::Error`, as far as getting a key raises it. -/
inductive KeyError where
  | invalidToken (text : String)
  | oauth (text : String)
  | network (text : String)
  deriving DecidableEq, Repr

structure GoogleJwk where
  kid : String
  kty : String
  n : String
  e : String

/-- How the request for the key set ends: it is not answered, it is answered with an error status or
with another body, or it brings a set. -/
inductive Response where
  | unanswered (text : String)
  | errorStatus (text : String)
  | unreadable (text : String)
  | keySet (keys : List GoogleJwk)

variable {Key : Type}

structure CachedJwks (Key : Type) where
  keys : String → Option Key
  fetchedAt : Nat

/-- `JWKS_TTL` in nanoseconds. -/
def jwksTtl : Nat := 3600 * 1000000000

/-- The loop over a fetched set. `fromRsa` is `DecodingKey::from_rsa_components`. -/
def collectKeys (fromRsa : String → String → Except String Key) :
    List GoogleJwk → (String → Option Key) → Except KeyError (String → Option Key)
  | [], keys => .ok keys
  | jwk :: rest, keys =>
      if jwk.kty ≠ "RSA" then collectKeys fromRsa rest keys
      else
        match fromRsa jwk.n jwk.e with
        | .error e => .error (.oauth ("invalid jwk: " ++ e))
        | .ok key => collectKeys fromRsa rest (Function.update keys jwk.kid (some key))

/-- `refresh_jwks` up to the set that it stores. -/
def refreshJwks (fromRsa : String → String → Except String Key) (response : Response) (now : Nat) :
    Except KeyError (CachedJwks Key) :=
  match response with
  | .unanswered e => .error (.network e)
  | .errorStatus e => .error (.oauth ("jwks fetch: " ++ e))
  | .unreadable e => .error (.oauth ("jwks parse: " ++ e))
  | .keySet keys => (collectKeys fromRsa keys fun _ => none).map fun keys => ⟨keys, now⟩

/-- The first look into the cache, which wants it fresh. -/
def fastPath (cache : Option (CachedJwks Key)) (now : Nat) (kid : String) : Option Key :=
  match cache with
  | some cached => if now - cached.fetchedAt < jwksTtl then cached.keys kid else none
  | none => none

/-- The look into the cache behind the refresh. -/
def lookUp (cache : Option (CachedJwks Key)) (kid : String) : Except KeyError Key :=
  match cache with
  | none => .error (.oauth "jwks unavailable")
  | some cached =>
      match cached.keys kid with
      | some key => .ok key
      | none => .error (.invalidToken ("unknown kid: " ++ kid))

/-! ## Calls that overlap -/

/-- How far a call of `get_key` has come. -/
inductive Phase (Key : Type) where
  | refreshing
  | lookingUp
  | returned (result : Except KeyError Key)

structure Call (Key : Type) where
  kid : String
  startedAt : Nat
  phase : Phase Key

/-- The verifier and the calls made so far. -/
structure State (Key : Type) where
  jwksUrl : String
  cache : Option (CachedJwks Key)
  now : Nat
  calls : List (Call Key)

inductive Action where
  | advance (nanos : Nat)
  | getKey (kid : String)
  | refresh (call : Nat) (response : Response)
  | lookUp (call : Nat)

/-- `GoogleVerifier::new`, for the address of the key set. -/
def start (jwksUrl : String) (now : Nat) : State Key where
  jwksUrl := jwksUrl
  cache := none
  now := now
  calls := []

def State.setPhase (s : State Key) (i : Nat) (phase : Phase Key) : State Key :=
  { s with calls := s.calls.modify i fun call => { call with phase := phase } }

def State.addCall (s : State Key) (kid : String) (phase : Phase Key) : State Key :=
  { s with calls := s.calls ++ [⟨kid, s.now, phase⟩] }

def State.store (s : State Key) (cached : CachedJwks Key) : State Key :=
  { s with cache := some cached }

/-- One moment in which a call has the lock, or the passing of time. Without an address there is no
refresh. -/
def step (fromRsa : String → String → Except String Key) : Action → State Key → State Key
  | .advance nanos, s => { s with now := s.now + nanos }
  | .getKey kid, s =>
      match fastPath s.cache s.now kid with
      | some key => s.addCall kid (.returned (.ok key))
      | none => s.addCall kid (if s.jwksUrl = "" then .lookingUp else .refreshing)
  | .refresh i response, s =>
      match s.calls[i]? with
      | some ⟨_, _, .refreshing⟩ =>
          match refreshJwks fromRsa response s.now with
          | .error e => s.setPhase i (.returned (.error e))
          | .ok cached => (s.setPhase i .lookingUp).store cached
      | _ => s
  | .lookUp i, s =>
      match s.calls[i]? with
      | some ⟨kid, _, .lookingUp⟩ => s.setPhase i (.returned (lookUp s.cache kid))
      | _ => s

/-- The step ends a call with a result. -/
def Returns (s s' : State Key) (call : Call Key) (result : Except KeyError Key) : Prop :=
  call.phase = .returned result ∧ ∃ i : Nat, s'.calls[i]? = some call ∧ s.calls[i]? ≠ some call

variable {fromRsa : String → String → Except String Key} {s : State Key}

/-! ## What a response brings -/

section

variable (fromRsa)

/-- Every RSA entry of the set makes a key. -/
def Usable (jwks : List GoogleJwk) : Prop :=
  ∀ jwk ∈ jwks, jwk.kty = "RSA" → (fromRsa jwk.n jwk.e).isOk = true

instance (jwks : List GoogleJwk) : Decidable (Usable fromRsa jwks) :=
  inferInstanceAs (Decidable (∀ jwk ∈ jwks, _))

/-- No RSA entry of the set has the kid. -/
def Lacks (jwks : List GoogleJwk) (kid : String) : Prop :=
  ∀ jwk ∈ jwks, jwk.kty = "RSA" → jwk.kid ≠ kid

/-- The set has the key for the kid: it is made from the last of its RSA entries with that kid. -/
def Published (jwks : List GoogleJwk) (kid : String) (key : Key) : Prop :=
  ∃ before jwk after, jwks = before ++ jwk :: after ∧ jwk.kty = "RSA" ∧ jwk.kid = kid ∧
    fromRsa jwk.n jwk.e = .ok key ∧ Lacks after kid

/-- The fetch fails: there is no answer, or no set in it, or an RSA entry makes no key. -/
def Failed : Response → Prop
  | .keySet jwks => ¬ Usable fromRsa jwks
  | .unanswered _ | .errorStatus _ | .unreadable _ => True

/-- The error of a fetch that fails. In a set it is that of the first entry that makes no key. -/
inductive FailsWith : Response → KeyError → Prop
  | unanswered (text : String) : FailsWith (.unanswered text) (.network text)
  | errorStatus (text : String) : FailsWith (.errorStatus text) (.oauth ("jwks fetch: " ++ text))
  | unreadable (text : String) : FailsWith (.unreadable text) (.oauth ("jwks parse: " ++ text))
  | unusable {before after : List GoogleJwk} {jwk : GoogleJwk} {text : String}
      (hbefore : Usable fromRsa before) (hrsa : jwk.kty = "RSA")
      (hfails : fromRsa jwk.n jwk.e = .error text) :
      FailsWith (.keySet (before ++ jwk :: after)) (.oauth ("invalid jwk: " ++ text))

end

theorem usable_cons {jwk : GoogleJwk} {rest : List GoogleJwk} :
    Usable fromRsa (jwk :: rest) ↔
      (jwk.kty = "RSA" → (fromRsa jwk.n jwk.e).isOk = true) ∧ Usable fromRsa rest := by
  simp [Usable]

theorem lacks_cons {jwk : GoogleJwk} {rest : List GoogleJwk} {kid : String} :
    Lacks (jwk :: rest) kid ↔ (jwk.kty = "RSA" → jwk.kid ≠ kid) ∧ Lacks rest kid := by
  simp [Lacks]

/-- The first entry counts when no later one has its kid. -/
theorem published_cons {jwk : GoogleJwk} {rest : List GoogleJwk} {kid : String} {key : Key} :
    Published fromRsa (jwk :: rest) kid key ↔ Published fromRsa rest kid key ∨
      (jwk.kty = "RSA" ∧ jwk.kid = kid ∧ fromRsa jwk.n jwk.e = .ok key ∧ Lacks rest kid) := by
  constructor
  · rintro ⟨before, found, after, hsplit, hfound⟩
    cases before with
    | nil =>
        obtain ⟨rfl, rfl⟩ := List.cons.inj hsplit
        exact .inr hfound
    | cons first before =>
        obtain ⟨rfl, rfl⟩ := List.cons.inj hsplit
        exact .inl ⟨before, found, after, rfl, hfound⟩
  · rintro (⟨before, found, after, rfl, hfound⟩ | hfirst)
    · exact ⟨jwk :: before, found, after, rfl, hfound⟩
    · exact ⟨[], jwk, rest, rfl, hfirst⟩

/-- The loop over a usable set goes through. It leaves the kids alone that the set lacks. -/
theorem collectKeys_of_usable {jwks : List GoogleJwk} (h : Usable fromRsa jwks)
    (keys : String → Option Key) : ∃ found, collectKeys fromRsa jwks keys = .ok found ∧
      ∀ kid key, found kid = some key ↔
        Published fromRsa jwks kid key ∨ (keys kid = some key ∧ Lacks jwks kid) := by
  induction jwks generalizing keys with
  | nil => exact ⟨keys, rfl, fun kid key => by simp [Published, Lacks]⟩
  | cons jwk rest ih =>
      obtain ⟨hfirst, hrest⟩ := usable_cons.mp h
      by_cases hrsa : jwk.kty = "RSA"
      · cases hkey : fromRsa jwk.n jwk.e with
        | error text =>
            rw [hkey] at hfirst
            exact absurd (hfirst hrsa) nofun
        | ok made =>
            obtain ⟨found, hfound, hspec⟩ := ih hrest (Function.update keys jwk.kid (some made))
            refine ⟨found, by simp [collectKeys, hrsa, hkey, hfound], fun kid key => ?_⟩
            rw [hspec, published_cons, lacks_cons]
            by_cases hkid : kid = jwk.kid
            · subst hkid
              simp [hrsa, hkey]
            · simp [hkid, Ne.symm hkid, hrsa]
      · obtain ⟨found, hfound, hspec⟩ := ih hrest keys
        refine ⟨found, by simp [collectKeys, hrsa, hfound], fun kid key => ?_⟩
        rw [hspec, published_cons, lacks_cons]
        simp [hrsa]

/-- The loop stops at the first RSA entry that makes no key. -/
theorem collectKeys_of_unusable {before after : List GoogleJwk} {jwk : GoogleJwk} {text : String}
    (hbefore : Usable fromRsa before) (hrsa : jwk.kty = "RSA")
    (hfails : fromRsa jwk.n jwk.e = .error text) (keys : String → Option Key) :
    collectKeys fromRsa (before ++ jwk :: after) keys =
      .error (.oauth ("invalid jwk: " ++ text)) := by
  induction before generalizing keys with
  | nil => simp [collectKeys, hrsa, hfails]
  | cons first before ih =>
      obtain ⟨hfirst, hrest⟩ := usable_cons.mp hbefore
      by_cases hkty : first.kty = "RSA"
      · cases hkey : fromRsa first.n first.e with
        | error text =>
            rw [hkey] at hfirst
            exact absurd (hfirst hkty) nofun
        | ok made => simpa [collectKeys, hkty, hkey] using ih hrest _
      · simpa [collectKeys, hkty] using ih hrest keys

theorem refreshJwks_of_failsWith {response : Response} {e : KeyError}
    (h : FailsWith fromRsa response e) (now : Nat) :
    refreshJwks fromRsa response now = .error e := by
  cases h with
  | unanswered | errorStatus | unreadable => rfl
  | unusable hbefore hrsa hfails =>
      simp [refreshJwks, collectKeys_of_unusable hbefore hrsa hfails, Except.map]

/-- A fetch that fails has an error. -/
theorem failsWith_of_failed {response : Response} (h : Failed fromRsa response) :
    ∃ e, FailsWith fromRsa response e := by
  cases response with
  | unanswered text => exact ⟨_, .unanswered text⟩
  | errorStatus text => exact ⟨_, .errorStatus text⟩
  | unreadable text => exact ⟨_, .unreadable text⟩
  | keySet jwks =>
      suffices ∃ before jwk after text, jwks = before ++ jwk :: after ∧ Usable fromRsa before ∧
          jwk.kty = "RSA" ∧ fromRsa jwk.n jwk.e = .error text by
        obtain ⟨before, jwk, after, text, rfl, hbefore, hrsa, hfails⟩ := this
        exact ⟨_, .unusable hbefore hrsa hfails⟩
      change ¬ Usable fromRsa jwks at h
      induction jwks with
      | nil => exact absurd (fun _ => nofun) h
      | cons jwk rest ih =>
          by_cases hfirst : jwk.kty = "RSA" → (fromRsa jwk.n jwk.e).isOk = true
          · obtain ⟨before, other, after, text, rfl, hbefore, hother⟩ :=
              ih fun hrest => h (usable_cons.mpr ⟨hfirst, hrest⟩)
            exact ⟨jwk :: before, other, after, text, rfl, usable_cons.mpr ⟨hfirst, hbefore⟩,
              hother⟩
          · obtain ⟨hrsa, hbad⟩ := Classical.not_imp.mp hfirst
            cases hkey : fromRsa jwk.n jwk.e with
            | error text => exact ⟨[], jwk, rest, text, rfl, fun _ => nofun, hrsa, hkey⟩
            | ok made =>
                rw [hkey] at hbad
                exact absurd rfl hbad

/-- A set that has been fetched, and when. -/
structure Fetch where
  jwks : List GoogleJwk
  fetchedAt : Nat

/-- The cache holds the keys of the set, from the time of the fetch. -/
structure Holds (fromRsa : String → String → Except String Key) (cached : CachedJwks Key)
    (fetch : Fetch) : Prop where
  fetchedAt : cached.fetchedAt = fetch.fetchedAt
  keys : ∀ kid key, cached.keys kid = some key ↔ Published fromRsa fetch.jwks kid key

theorem refreshJwks_of_usable {jwks : List GoogleJwk} (h : Usable fromRsa jwks) (now : Nat) :
    ∃ cached, refreshJwks fromRsa (.keySet jwks) now = .ok cached ∧
      Holds fromRsa cached ⟨jwks, now⟩ := by
  obtain ⟨found, hfound, hspec⟩ := collectKeys_of_usable h fun _ => none
  exact ⟨⟨found, now⟩, by simp [refreshJwks, hfound, Except.map], rfl, by simpa using hspec⟩

/-! ## What one step can do -/

/-- The set that a step fetches: a response to a call that waits for one brings it. -/
def fetchOf (fromRsa : String → String → Except String Key) (a : Action) (s : State Key) :
    List Fetch :=
  match a with
  | .refresh i (.keySet jwks) =>
      match s.calls[i]? with
      | some ⟨_, _, .refreshing⟩ => if Usable fromRsa jwks then [⟨jwks, s.now⟩] else []
      | _ => []
  | _ => []

/-- The sets that a run fetches, in their order. -/
def fetches (fromRsa : String → String → Except String Key) :
    List Action → State Key → List Fetch
  | [], _ => []
  | a :: actions, s => fetchOf fromRsa a s ++ fetches fromRsa actions (step fromRsa a s)

/-- A step of a verifier that has an address to fetch from, and the set it fetches. -/
inductive Moves (fromRsa : String → String → Except String Key) (s : State Key) :
    State Key → List Fetch → Prop
  | idle : Moves fromRsa s s []
  | later (nanos : Nat) : Moves fromRsa s { s with now := s.now + nanos } []
  | hit {cached : CachedJwks Key} {kid : String} {key : Key} (hcache : s.cache = some cached)
      (hfresh : s.now - cached.fetchedAt < jwksTtl) (hkey : cached.keys kid = some key) :
      Moves fromRsa s (s.addCall kid (.returned (.ok key))) []
  | miss (kid : String) : Moves fromRsa s (s.addCall kid .refreshing) []
  | failed {i : Nat} {call : Call Key} (e : KeyError) (hcall : s.calls[i]? = some call)
      (hphase : call.phase = .refreshing) :
      Moves fromRsa s (s.setPhase i (.returned (.error e))) []
  | fetched {i : Nat} {call : Call Key} {cached : CachedJwks Key} {jwks : List GoogleJwk}
      (hcall : s.calls[i]? = some call) (hphase : call.phase = .refreshing)
      (hholds : Holds fromRsa cached ⟨jwks, s.now⟩) :
      Moves fromRsa s ((s.setPhase i .lookingUp).store cached) [⟨jwks, s.now⟩]
  | answered {i : Nat} {call : Call Key} (hcall : s.calls[i]? = some call)
      (hphase : call.phase = .lookingUp) :
      Moves fromRsa s (s.setPhase i (.returned (lookUp s.cache call.kid))) []

theorem fastPath_eq_some {cache : Option (CachedJwks Key)} {now : Nat} {kid : String} {key : Key}
    (h : fastPath cache now kid = some key) :
    ∃ cached, cache = some cached ∧ now - cached.fetchedAt < jwksTtl ∧
      cached.keys kid = some key := by
  cases cache with
  | none => cases h
  | some cached =>
      simp only [fastPath] at h
      split at h
      · next hfresh => exact ⟨cached, rfl, hfresh, h⟩
      · cases h

/-- A refresh that fails ends its call with the error and leaves the cache alone. -/
theorem step_refresh_failed {i : Nat} {call : Call Key} {response : Response} {e : KeyError}
    (hcall : s.calls[i]? = some call) (hphase : call.phase = .refreshing)
    (hfails : FailsWith fromRsa response e) :
    step fromRsa (.refresh i response) s = s.setPhase i (.returned (.error e)) := by
  obtain ⟨kid, startedAt, phase⟩ := call
  cases hphase
  simp only [step, hcall, refreshJwks_of_failsWith hfails]

theorem fetchOf_failed {i : Nat} {response : Response} (h : Failed fromRsa response) :
    fetchOf fromRsa (.refresh i response) s = [] := by
  cases response with
  | unanswered | errorStatus | unreadable => rfl
  | keySet jwks =>
      have hunusable : ¬ Usable fromRsa jwks := h
      simp only [fetchOf, if_neg hunusable]
      split <;> rfl

variable (fromRsa) in
theorem step_moves (hurl : s.jwksUrl ≠ "") (a : Action) :
    Moves fromRsa s (step fromRsa a s) (fetchOf fromRsa a s) := by
  cases a with
  | advance nanos => exact .later nanos
  | getKey kid =>
      simp only [step, if_neg hurl]
      cases hfast : fastPath s.cache s.now kid with
      | none => exact .miss kid
      | some key =>
          obtain ⟨cached, hcache, hfresh, hkey⟩ := fastPath_eq_some hfast
          exact .hit hcache hfresh hkey
  | lookUp i =>
      simp only [step]
      split
      · next kid startedAt hcall => exact .answered hcall rfl
      · exact .idle
  | refresh i response =>
      by_cases hwaits : ∃ call, s.calls[i]? = some call ∧ call.phase = .refreshing
      · obtain ⟨call, hcall, hphase⟩ := hwaits
        by_cases hfailed : Failed fromRsa response
        · obtain ⟨e, hfails⟩ := failsWith_of_failed hfailed
          rw [step_refresh_failed hcall hphase hfails, fetchOf_failed hfailed]
          exact .failed e hcall hphase
        · cases response with
          | unanswered | errorStatus | unreadable => exact absurd trivial hfailed
          | keySet jwks =>
              have husable : Usable fromRsa jwks := not_not.mp hfailed
              obtain ⟨cached, hrefresh, hholds⟩ := refreshJwks_of_usable husable s.now
              obtain ⟨kid, startedAt, phase⟩ := call
              cases hphase
              simp only [step, fetchOf, hcall, hrefresh, if_pos husable]
              exact .fetched hcall rfl hholds
      · have hother : ∀ kid startedAt, s.calls[i]? ≠ some ⟨kid, startedAt, .refreshing⟩ :=
          fun kid startedAt hcall => hwaits ⟨_, hcall, rfl⟩
        have hstep : step fromRsa (.refresh i response) s = s := by
          dsimp only [step]
          split
          · next hcall => exact absurd hcall (hother _ _)
          · rfl
        have hfetch : fetchOf fromRsa (.refresh i response) s = [] := by
          unfold fetchOf
          split
          · next heq =>
              cases heq
              split
              · next hcall => exact absurd hcall (hother _ _)
              · rfl
          · rfl
        rw [hstep, hfetch]
        exact .idle

/-! ## What holds in every run -/

/-- The sets fetched so far: the cache has the keys of the last one, and a call that looks up behind
its refresh has begun before that set was fetched. -/
structure Inv (fromRsa : String → String → Except String Key) (fetched : List Fetch)
    (s : State Key) : Prop where
  url : s.jwksUrl ≠ ""
  cache : Option.Rel (Holds fromRsa) s.cache fetched.getLast?
  past : ∀ fetch ∈ fetched, fetch.fetchedAt ≤ s.now
  started : ∀ call ∈ s.calls, call.startedAt ≤ s.now
  looking : ∀ call ∈ s.calls, call.phase = .lookingUp →
    ∃ fetch, fetched.getLast? = some fetch ∧ call.startedAt ≤ fetch.fetchedAt

variable {fetched : List Fetch}

theorem inv_start {url : String} (hurl : url ≠ "") (now : Nat) :
    Inv fromRsa [] (start url now) where
  url := hurl
  cache := .none
  past := nofun
  started := nofun
  looking := nofun

theorem getElem?_setPhase (s : State Key) (i j : Nat) (phase : Phase Key) :
    (s.setPhase i phase).calls[j]? =
      if i = j then (s.calls[j]?).map fun call => { call with phase := phase }
      else s.calls[j]? := by
  show (s.calls.modify i _)[j]? = _
  rw [List.getElem?_modify]
  split
  · rfl
  · exact Option.map_id'

/-- A call of the new list is one of the old ones, or the one that got the new phase. -/
theorem mem_setPhase {i : Nat} {phase : Phase Key} {call : Call Key}
    (h : call ∈ (s.setPhase i phase).calls) :
    call ∈ s.calls ∨ ∃ old ∈ s.calls, call = { old with phase := phase } := by
  obtain ⟨j, hj⟩ := List.mem_iff_getElem?.mp h
  rw [getElem?_setPhase] at hj
  split at hj
  · obtain ⟨old, hold, rfl⟩ := Option.map_eq_some_iff.mp hj
    exact .inr ⟨old, List.mem_of_getElem? hold, rfl⟩
  · exact .inl (List.mem_of_getElem? hj)

theorem Inv.started_setPhase (h : Inv fromRsa fetched s) (i : Nat) (phase : Phase Key) :
    ∀ call ∈ (s.setPhase i phase).calls, call.startedAt ≤ s.now := by
  intro call hcall
  rcases mem_setPhase hcall with hcall | ⟨old, hold, rfl⟩
  · exact h.started call hcall
  · exact h.started old hold

/-- A phase other than looking up leaves the invariant as it is. -/
theorem Inv.setPhase (h : Inv fromRsa fetched s) (i : Nat) {phase : Phase Key}
    (hphase : phase ≠ .lookingUp) : Inv fromRsa fetched (s.setPhase i phase) where
  url := h.url
  cache := h.cache
  past := h.past
  started := h.started_setPhase i phase
  looking := by
    intro call hcall hlooking
    rcases mem_setPhase hcall with hcall | ⟨old, hold, rfl⟩
    · exact h.looking call hcall hlooking
    · exact absurd hlooking hphase

theorem Inv.addCall (h : Inv fromRsa fetched s) (kid : String) {phase : Phase Key}
    (hphase : phase ≠ .lookingUp) : Inv fromRsa fetched (s.addCall kid phase) where
  url := h.url
  cache := h.cache
  past := h.past
  started := by
    intro call hcall
    rcases List.mem_append.mp hcall with hcall | hcall
    · exact h.started call hcall
    · obtain rfl := List.mem_singleton.mp hcall
      exact Nat.le_refl _
  looking := by
    intro call hcall hlooking
    rcases List.mem_append.mp hcall with hcall | hcall
    · exact h.looking call hcall hlooking
    · obtain rfl := List.mem_singleton.mp hcall
      exact absurd hlooking hphase

/-- A step keeps the invariant, for the sets fetched so far and the one that it fetches. -/
theorem inv_step (a : Action) (h : Inv fromRsa fetched s) :
    Inv fromRsa (fetched ++ fetchOf fromRsa a s) (step fromRsa a s) := by
  have hmoves := step_moves fromRsa h.url a
  generalize step fromRsa a s = s', fetchOf fromRsa a s = new at hmoves ⊢
  have hnil : fetched ++ [] = fetched := List.append_nil fetched
  cases hmoves with
  | idle => exact hnil.symm ▸ h
  | later nanos =>
      rw [hnil]
      exact ⟨h.url, h.cache, fun fetch hfetch => Nat.le_add_right_of_le (h.past fetch hfetch),
        fun call hcall => Nat.le_add_right_of_le (h.started call hcall), h.looking⟩
  | hit hcache hfresh hkey => exact hnil.symm ▸ h.addCall _ nofun
  | miss kid => exact hnil.symm ▸ h.addCall kid nofun
  | failed e hcall hphase => exact hnil.symm ▸ h.setPhase _ nofun
  | answered hcall hphase => exact hnil.symm ▸ h.setPhase _ nofun
  | @fetched i call cached jwks hcall hphase hholds =>
      have hlast : (fetched ++ [(⟨jwks, s.now⟩ : Fetch)]).getLast? = some ⟨jwks, s.now⟩ :=
        List.getLast?_concat
      have hstarted := h.started_setPhase i .lookingUp
      refine ⟨h.url, ?_, ?_, hstarted, fun call hcall _ => ⟨_, hlast, hstarted call hcall⟩⟩
      · rw [hlast]
        exact .some hholds
      · intro fetch hfetch
        rcases List.mem_append.mp hfetch with hfetch | hfetch
        · exact h.past fetch hfetch
        · obtain rfl := List.mem_singleton.mp hfetch
          exact Nat.le_refl _

theorem Inv.exec (h : Inv fromRsa fetched s) (actions : List Action) :
    Inv fromRsa (fetched ++ fetches fromRsa actions s)
      (Trace.exec (step fromRsa) actions s) := by
  induction actions generalizing s fetched with
  | nil => simpa [fetches, Trace.exec] using h
  | cons a actions ih =>
      have hrest := ih (inv_step a h)
      rwa [List.append_assoc] at hrest

variable (fromRsa) in
theorem inv_exec {url : String} (hurl : url ≠ "") (now : Nat) (actions : List Action) :
    Inv fromRsa (fetches fromRsa actions (start url now))
      (Trace.exec (step fromRsa) actions (start url now)) :=
  (inv_start hurl now).exec actions

/-! ## Keys that are returned -/

/-- The set was fetched during the call, or less than its hour before it. -/
def Current (fetch : Fetch) (call : Call Key) (now : Nat) : Prop :=
  (call.startedAt ≤ fetch.fetchedAt ∧ fetch.fetchedAt ≤ now) ∨
    (fetch.fetchedAt ≤ call.startedAt ∧ call.startedAt < fetch.fetchedAt + jwksTtl)

/-- The only call that is new behind another one. -/
theorem eq_of_addCall {kid : String} {phase : Phase Key} {i : Nat} {call : Call Key}
    (h : (s.addCall kid phase).calls[i]? = some call) (hnew : s.calls[i]? ≠ some call) :
    call = ⟨kid, s.now, phase⟩ := by
  have hcalls : (s.calls ++ [⟨kid, s.now, phase⟩])[i]? = some call := h
  rcases Nat.lt_or_ge i s.calls.length with hlt | hge
  · rw [List.getElem?_append_left hlt] at hcalls
    exact absurd hcalls hnew
  · rw [List.getElem?_append_right hge] at hcalls
    exact List.mem_singleton.mp (List.mem_of_getElem? hcalls)

/-- The only call that is new behind a change of phase. -/
theorem eq_of_setPhase {phase : Phase Key} {i j : Nat} {call old : Call Key}
    (hold : s.calls[i]? = some old) (h : (s.setPhase i phase).calls[j]? = some call)
    (hnew : s.calls[j]? ≠ some call) : call = { old with phase := phase } := by
  rw [getElem?_setPhase] at h
  split at h
  · next heq =>
      rw [← heq, hold] at h
      exact (Option.some.inj h).symm
  · exact absurd h hnew

theorem lookUp_eq_ok {cache : Option (CachedJwks Key)} {kid : String} {key : Key}
    (h : lookUp cache kid = .ok key) :
    ∃ cached, cache = some cached ∧ cached.keys kid = some key := by
  cases cache with
  | none => cases h
  | some cached =>
      simp only [lookUp] at h
      split at h
      · next found hkey =>
          cases h
          exact ⟨cached, rfl, hkey⟩
      · cases h

/-- What is cached is the set fetched last. -/
theorem Inv.last_of_cache (h : Inv fromRsa fetched s) {cached : CachedJwks Key}
    (hcache : s.cache = some cached) :
    ∃ fetch, fetched.getLast? = some fetch ∧ Holds fromRsa cached fetch := by
  have hrel := h.cache
  rw [hcache] at hrel
  generalize hlast : fetched.getLast? = last at hrel
  cases hrel with
  | some hholds => exact ⟨_, rfl, hholds⟩

/-- The key that a step returns is the one that the set fetched last has for the kid, and that set
is current. -/
theorem Inv.returns (h : Inv fromRsa fetched s) (a : Action) {call : Call Key} {key : Key}
    (hreturns : Returns s (step fromRsa a s) call (.ok key)) :
    ∃ fetch, fetched.getLast? = some fetch ∧ Published fromRsa fetch.jwks call.kid key ∧
      Current fetch call s.now := by
  have hmoves := step_moves fromRsa h.url a
  generalize step fromRsa a s = s', fetchOf fromRsa a s = new at hmoves hreturns
  obtain ⟨hreturned, j, hj, hnew⟩ := hreturns
  cases hmoves with
  | idle => exact absurd hj hnew
  | later nanos => exact absurd hj hnew
  | @hit cached kid found hcache hfresh hkey =>
      obtain rfl := eq_of_addCall hj hnew
      cases hreturned
      obtain ⟨fetch, hlast, hholds⟩ := h.last_of_cache hcache
      have hpast := h.past fetch (List.mem_of_getLast? hlast)
      have hyoung : s.now < fetch.fetchedAt + jwksTtl := by
        rw [hholds.fetchedAt] at hfresh
        omega
      exact ⟨fetch, hlast, (hholds.keys kid key).mp hkey, .inr ⟨hpast, hyoung⟩⟩
  | miss kid =>
      rw [eq_of_addCall hj hnew] at hreturned
      cases hreturned
  | failed e hcall hphase =>
      rw [eq_of_setPhase hcall hj hnew] at hreturned
      cases hreturned
  | fetched hcall hphase hholds =>
      rw [eq_of_setPhase hcall hj hnew] at hreturned
      cases hreturned
  | @answered i old hcall hphase =>
      obtain rfl := eq_of_setPhase hcall hj hnew
      obtain ⟨cached, hcache, hkey⟩ := lookUp_eq_ok (Phase.returned.inj hreturned)
      obtain ⟨fetch, hlast, hholds⟩ := h.last_of_cache hcache
      obtain ⟨same, hsame, hbegun⟩ := h.looking old (List.mem_of_getElem? hcall) hphase
      obtain rfl := Option.some.inj (hlast.symm.trans hsame)
      exact ⟨fetch, hlast, (hholds.keys old.kid key).mp hkey,
        .inl ⟨hbegun, h.past fetch (List.mem_of_getLast? hlast)⟩⟩

/-- What a call returned it does not take back. -/
theorem returned_step (hurl : s.jwksUrl ≠ "") {i : Nat} {call : Call Key}
    {result : Except KeyError Key} (hcall : s.calls[i]? = some call)
    (hphase : call.phase = .returned result) (a : Action) :
    (step fromRsa a s).calls[i]? = some call := by
  have hother : ∀ {j : Nat} {old : Call Key} (phase : Phase Key), s.calls[j]? = some old →
      old.phase ≠ .returned result → (s.setPhase j phase).calls[i]? = some call := by
    intro j old phase hold hne
    rw [getElem?_setPhase, if_neg, hcall]
    rintro rfl
    rw [hcall] at hold
    cases hold
    exact hne hphase
  have hadded : ∀ kid phase, (s.addCall kid phase).calls[i]? = some call := fun kid phase => by
    obtain ⟨hlt, -⟩ := List.getElem?_eq_some_iff.mp hcall
    show (s.calls ++ [_])[i]? = some call
    rw [List.getElem?_append_left hlt, hcall]
  have hmoves := step_moves fromRsa hurl a
  generalize step fromRsa a s = s', fetchOf fromRsa a s = new at hmoves ⊢
  cases hmoves with
  | idle => exact hcall
  | later nanos => exact hcall
  | hit hcache hfresh hkey => exact hadded _ _
  | miss kid => exact hadded _ _
  | failed e hold hwas => exact hother _ hold (by rw [hwas]; nofun)
  | fetched hold hwas hholds => exact hother .lookingUp hold (by rw [hwas]; nofun)
  | answered hold hwas => exact hother _ hold (by rw [hwas]; nofun)

theorem returned_exec (h : Inv fromRsa fetched s) {i : Nat} {call : Call Key}
    {result : Except KeyError Key} (hcall : s.calls[i]? = some call)
    (hphase : call.phase = .returned result) (actions : List Action) :
    (Trace.exec (step fromRsa) actions s).calls[i]? = some call := by
  have hkept : ∀ a (s : State Key), (∃ fetched, Inv fromRsa fetched s) ∧ s.calls[i]? = some call →
      (∃ fetched, Inv fromRsa fetched (step fromRsa a s)) ∧
        (step fromRsa a s).calls[i]? = some call :=
    fun a s ⟨⟨_, hs⟩, hi⟩ => ⟨⟨_, inv_step a hs⟩, returned_step hs.url hi hphase a⟩
  exact (Trace.exec_invariant hkept actions ⟨⟨_, h⟩, hcall⟩).2

/-- In every run of calls, fetches and passing time: a returned key is the one that the set fetched
last has for the kid, and that set is current; a failed fetch fails its call for good, with its
error, and leaves the cache as it was; and a key that no current set has for the kid is not
returned. -/
theorem get_key_current {url : String} (hurl : url ≠ "") (now : Nat) (actions : List Action)
    (a : Action) {x : State Key} (hx : x = Trace.exec (step fromRsa) actions (start url now)) :
    (∀ call key, Returns x (step fromRsa a x) call (.ok key) →
      ∃ fetch, (fetches fromRsa actions (start url now)).getLast? = some fetch ∧
        Published fromRsa fetch.jwks call.kid key ∧ Current fetch call x.now) ∧
      (∀ i call response, x.calls[i]? = some call → call.phase = .refreshing →
        Failed fromRsa response → ∃ e, FailsWith fromRsa response e ∧
          (step fromRsa (.refresh i response) x).cache = x.cache ∧
          ∀ later,
            (Trace.exec (step fromRsa) later (step fromRsa (.refresh i response) x)).calls[i]? =
              some { call with phase := .returned (.error e) }) ∧
      ∀ call key, (∀ fetch ∈ fetches fromRsa actions (start url now), Current fetch call x.now →
          ¬ Published fromRsa fetch.jwks call.kid key) →
        ¬ Returns x (step fromRsa a x) call (.ok key) := by
  have hinv := hx ▸ inv_exec fromRsa hurl now actions
  refine ⟨fun call key hreturns => hinv.returns a hreturns, ?_, ?_⟩
  · intro i call response hcall hphase hfailed
    obtain ⟨e, hfails⟩ := failsWith_of_failed hfailed
    have hended : (x.setPhase i (.returned (.error e))).calls[i]? =
        some { call with phase := .returned (.error e) } := by
      rw [getElem?_setPhase, if_pos rfl, hcall]
      rfl
    have hkept : Inv fromRsa _ (x.setPhase i (.returned (.error e))) := hinv.setPhase i nofun
    refine ⟨e, hfails, ?_⟩
    rw [step_refresh_failed hcall hphase hfails]
    exact ⟨rfl, fun later => returned_exec hkept hended rfl later⟩
  · intro call key hgone hreturns
    obtain ⟨fetch, hlast, hkey, hcurrent⟩ := hinv.returns a hreturns
    exact hgone fetch (List.mem_of_getLast? hlast) hcurrent hkey

/-! ## A run with a rotation -/

/-- Keys spelled out, for sets whose entries have a modulus. -/
def spellKey (n e : String) : Except String String :=
  if n = "" then .error "empty modulus" else .ok (n ++ "." ++ e)

/-- The address of the key set of Google. -/
def googleJwksUrl : String := "https://www.googleapis.com/oauth2/v3/certs"

/-- A first call fetches a set, a second one comes within the hour. -/
def firstHour : List Action :=
  [.getKey "k1", .refresh 0 (.keySet [⟨"k1", "RSA", "n1", "AQAB"⟩]), .lookUp 0, .advance 1000000000]

theorem second_call_current :
    ∃ fetch, (fetches spellKey firstHour (start googleJwksUrl 5)).getLast? = some fetch ∧
      Published spellKey fetch.jwks "k1" "n1.AQAB" ∧
      Current fetch (⟨"k1", 1000000005, .returned (.ok "n1.AQAB")⟩ : Call String) 1000000005 := by
  have hurl : googleJwksUrl ≠ "" := by decide
  have hreturns : Returns (Trace.exec (step spellKey) firstHour (start googleJwksUrl 5))
      (step spellKey (.getKey "k1")
        (Trace.exec (step spellKey) firstHour (start googleJwksUrl 5)))
      ⟨"k1", 1000000005, .returned (.ok "n1.AQAB")⟩ (.ok "n1.AQAB") :=
    ⟨rfl, 1, rfl, nofun⟩
  exact (get_key_current hurl 5 firstHour (.getKey "k1") rfl).1 _ _ hreturns

end GoogleKeys

end SharamLedger
