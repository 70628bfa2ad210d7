import SharamLedger.System

/-!
# Errors of the ledger

`Error` and `map_db_error` of `crate/ledger/src/error.rs`. A statement that fails reaches the
client as text; `mapDbError` recognises what an event threw by the marker words in that text.
-/

namespace SharamLedger

open Lib

/-- `ledger::Error`. -/
inductive LedgerError where
  | db (text : String)
  | periodLocked (period : String)
  | duesCapExceeded (paidCents duesCents : Int)
  | tenantExists (slug : String)
  | inviteExists (slug email : String)
  | userExists (email : String)
  | carryForwardExists
  | notFound
  | invariant (text : String)
  deriving DecidableEq, Repr

def LedgerError.message : LedgerError → String
  | .db text => "database: " ++ text
  | .periodLocked period => "period " ++ period ++ " is locked and cannot be modified"
  | .duesCapExceeded paid dues =>
      "dues cap exceeded: paid " ++ toString paid ++ " > dues " ++ toString dues ++ " (cents)"
  | .tenantExists slug => "tenant " ++ slug ++ " already exists"
  | .inviteExists slug email => "invite already exists for " ++ email ++ " in " ++ slug
  | .userExists email => "user with email " ++ email ++ " already has a password set"
  | .carryForwardExists => "carry-forward seed already set for this venture"
  | .notFound => "not found"
  | .invariant text => "invariant: " ++ text

/-- The text of a failed statement: what an event threw stands at its end. -/
def DbError.toText [Platform] : DbError → String
  | .thrown event text => Platform.throwPrefix event ++ text
  | .fault f => Platform.faultText f

/-- `From<surrealdb::Error>`: the error of a statement whose answer is taken with `?`. -/
def DbError.plain [Platform] (e : DbError) : LedgerError := .db e.toText

/-- The piece of `rest.split('<')` that holds the period. -/
def periodOfThrow (rest : String) : String :=
  String.ofList (Text.trimChars (rest.toList.takeWhile (· != '<')))

/-- One piece of `rest.split('>')` as cents; 0 when it is missing or no number. -/
def centsOfThrow (rest : String) (index : Nat) : Int :=
  match (rest.toList.splitOn '>')[index]? with
  | some piece => (Text.parseSigned (2 ^ 63 - 1) (Text.trimChars piece)).getD 0
  | none => 0

/-- `map_db_error`. -/
def mapDbError [Platform] (e : DbError) : LedgerError :=
  let msg := e.toText
  match Text.splitOnce "period_locked:" msg with
  | some (_, rest) => .periodLocked (periodOfThrow rest)
  | none =>
      match Text.splitOnce "dues_cap_exceeded:" msg with
      | some (_, rest) => .duesCapExceeded (centsOfThrow rest 0) (centsOfThrow rest 1)
      | none =>
          if Text.contains msg "carry_forward_immutable" then .carryForwardExists
          else if Text.contains msg "Database record `carry_forward:current` already exists" then
            .carryForwardExists
          else .db msg

/-! ## Recognising what was thrown -/

/-- A marker behind the text in front of it splits the message there. -/
theorem splitOnce_marker {pre marker rest : String} {m : List Char} {c : Char}
    (hmarker : marker.toList = m ++ [c]) (hc : c ∉ m) (hpre : ¬ marker.toList <:+: pre.toList) :
    Text.splitOnce marker (pre ++ (marker ++ rest)) = some (pre, rest) := by
  unfold Text.splitOnce
  rw [String.toList_append, String.toList_append, hmarker, ← List.append_assoc,
    Text.splitOnceChars_marker hc (by rwa [← hmarker])]
  simp

/-- What the lock events throw reaches the client as `periodLocked`. -/
theorem mapDbError_periodLocked [Platform] (event : SchemaEvent) (rest : String) :
    mapDbError (.thrown event ("period_locked:" ++ rest)) =
      .periodLocked (periodOfThrow rest) := by
  have hmarker : "period_locked:".toList = "period_locked".toList ++ [':'] := by decide
  have hpre := Platform.throwPrefix_unmarked event "period_locked:" (by decide)
    (by cases event <;> decide)
  simp only [mapDbError, DbError.toText, splitOnce_marker hmarker (by decide) hpre]

/-- A locked row is refused with its period. -/
theorem mapDbError_lockCheck [Platform] {now : DateTime} {after : Contribution}
    (h : after.Past now) : ∃ e period, contributionLockCheck now after = .error e ∧
      mapDbError e = .periodLocked period := by
  have hlock : contributionLockCheck now after = .error (.thrown
      .contributionLockCheck
      ("period_locked: " ++ after.period ++ " < " ++ currentPeriodFor now after.cadence)) :=
    if_pos h
  have hmarker : "period_locked: " = "period_locked:" ++ " " := by decide
  rw [hmarker, String.append_assoc, String.append_assoc, String.append_assoc] at hlock
  exact ⟨_, _, hlock, mapDbError_periodLocked _ _⟩

/-- A text without marker words is a plain database error. -/
theorem mapDbError_of_unmarked [Platform] {e : DbError} (h : Unmarked e.toText) :
    mapDbError e = .db e.toText := by
  have hsplit : ∀ m ∈ throwMarkers, Text.splitOnce m e.toText = none := by
    intro m hm
    rw [Text.splitOnce, Text.splitOnceChars_none (h m hm)]
    rfl
  have hcontains : ∀ m ∈ throwMarkers, Text.contains e.toText m = false := by
    intro m hm
    rw [Text.contains, Text.splitOnceChars_none (h m hm)]
    rfl
  simp only [mapDbError, hsplit "period_locked:" (by decide),
    hsplit "dues_cap_exceeded:" (by decide), hcontains "carry_forward_immutable" (by decide),
    hcontains "Database record `carry_forward:current` already exists" (by decide),
    Bool.false_eq_true, if_false]

/-- Every marker word has a lower-case letter. -/
theorem unmarked_of_no_lower {s : String} (h : ∀ c ∈ s.toList, c.isLower = false) :
    Unmarked s := by
  have hlower : ∀ m ∈ throwMarkers, m.toList.any Char.isLower = true := by
    simp only [throwMarkers, List.forall_mem_cons]
    decide
  intro m hm hfound
  obtain ⟨c, hc, hcl⟩ := List.any_eq_true.mp (hlower m hm)
  simp [h c (hfound.subset hc)] at hcl

end SharamLedger
