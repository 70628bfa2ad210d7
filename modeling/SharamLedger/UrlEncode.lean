import SharamLedger.Lib.Percent
import SharamLedger.Slugs

/-!
# Keys in a query

`urlencode` of `sharam-ui/src/pages/venture.rs`, with which the page asks for the address of a
proof, and the way of the key through the query string to `get_proof_url`.
-/

namespace SharamLedger

open Lib Lib.Text

/-- `c.is_ascii_alphanumeric() || matches!(c, b'-' | b'_' | b'.' | b'~')`. -/
def isSafeByte (c : UInt8) : Bool :=
  (48 ≤ c.toNat && c.toNat ≤ 57) || (65 ≤ c.toNat && c.toNat ≤ 90) ||
    (97 ≤ c.toNat && c.toNat ≤ 122) || c == 45 || c == 95 || c == 46 || c == 126

/-- `urlencode`. -/
def urlencode (s : String) : String := String.ofList (Percent.encode isSafeByte (bytes s.toList))

theorem urlencode_toList (s : String) :
    (urlencode s).toList = Percent.encode isSafeByte (bytes s.toList) := String.toList_ofList

/-- The target of the request in `fetch_proof_url`. -/
def proofUrlTarget (slug proofKey : String) : String :=
  "/api/tenants/" ++ slug ++ "/proofs/url?key=" ++ urlencode proofKey

/-- The query of a request target: what follows the first question mark, without a fragment. -/
def queryOf (target : String) : List Char :=
  (((splitOnceChars ['?'] target.toList).map Prod.snd).getD []).takeWhile (· != '#')

/-- The text of a field that a form-encoded query has once. -/
def queryField (name : String) (query : List Char) : Option String :=
  match (Percent.formFields query).filter fun field => field.1 == bytes name.toList with
  | [(_, value)] => textOf value
  | _ => none

/-- The characters that stand for themselves. -/
def IsSafeChar (c : Char) : Prop :=
  c.isAlphanum = true ∨ c = '-' ∨ c = '_' ∨ c = '.' ∨ c = '~'

theorem isSafeByte_unreserved : Percent.Unreserved isSafeByte where
  ascii := by
    intro b hb
    simp only [isSafeByte, Bool.or_eq_true, Bool.and_eq_true, decide_eq_true_eq, beq_iff_eq] at hb
    rcases hb with (((((hb | hb) | hb) | rfl) | rfl) | rfl) | rfl
    · omega
    · omega
    · omega
    all_goals decide
  percent := rfl
  plus := rfl
  ampersand := rfl
  equals := rfl

theorem isSafeChar_of_byte {b : UInt8} (h : isSafeByte b = true) :
    IsSafeChar (Char.ofNat b.toNat) := by
  have hcode := toNat_char (isSafeByte_unreserved.ascii b h)
  have halphanum : (48 ≤ b.toNat ∧ b.toNat ≤ 57) ∨ (65 ≤ b.toNat ∧ b.toNat ≤ 90) ∨
      (97 ≤ b.toNat ∧ b.toNat ≤ 122) → (Char.ofNat b.toNat).isAlphanum = true := by
    rw [Ascii.isAlphanum_iff, Ascii.isAlpha_iff, Ascii.isUpper_iff, Ascii.isLower_iff,
      Ascii.isDigit_iff, hcode]
    omega
  simp only [isSafeByte, Bool.or_eq_true, Bool.and_eq_true, decide_eq_true_eq, beq_iff_eq] at h
  rcases h with (((((h | h) | h) | rfl) | rfl) | rfl) | rfl
  · exact .inl (halphanum (.inl h))
  · exact .inl (halphanum (.inr (.inl h)))
  · exact .inl (halphanum (.inr (.inr h)))
  · exact .inr (.inl rfl)
  · exact .inr (.inr (.inl rfl))
  · exact .inr (.inr (.inr (.inl rfl)))
  · exact .inr (.inr (.inr (.inr rfl)))

/-- The query of the request is one field, the encoded key. -/
theorem queryOf_proofUrlTarget (slug : TenantSlug) (proofKey : String) :
    queryOf (proofUrlTarget slug.val proofKey) = "key=".toList ++ (urlencode proofKey).toList := by
  have hslug : '?' ∉ slug.val.toList := fun hmem =>
    absurd (((isValidSlug_iff _).mp slug.valid).chars '?' hmem) (by decide)
  have hsplit : splitOnceChars ['?'] (proofUrlTarget slug.val proofKey).toList =
      some (("/api/tenants/" ++ slug.val ++ "/proofs/url").toList,
        "key=".toList ++ (urlencode proofKey).toList) := by
    rw [splitOnceChars_eq_some]
    constructor
    · simp [hslug]
    · simp [proofUrlTarget]
  have hfragment : '#' ∉ "key=".toList ++ (urlencode proofKey).toList := by
    have hfree := Percent.not_mem_encode isSafeByte_unreserved '#' (by decide) (by decide)
      (by decide) (bytes proofKey.toList)
    simpa [urlencode_toList] using hfree
  rw [queryOf, hsplit]
  exact List.takeWhile_eq_self_iff.mpr fun c hc => by
    rw [bne_iff_ne]
    exact fun heq => hfragment (heq ▸ hc)

/-- Any text is encoded to safe characters and triples from which both decoders read it back, and a
key so encoded arrives as it was. -/
theorem urlencode_round_trip (s : String) :
    Percent.percentDecode (bytes (urlencode s).toList) = bytes s.toList ∧
      Percent.Triples IsSafeChar (urlencode s).toList ∧
      ∀ slug : TenantSlug, queryField "key" (queryOf (proofUrlTarget slug.val s)) = some s := by
  have hsafe := isSafeByte_unreserved
  rw [urlencode_toList]
  refine ⟨Percent.percentDecode_encode hsafe _,
    Percent.triples_encode (fun b hb => isSafeChar_of_byte hb) _, fun slug => ?_⟩
  have hname : "key=".toList = Percent.encode isSafeByte (bytes "key".toList) ++ ['='] := by
    decide
  rw [queryOf_proofUrlTarget, hname, List.append_assoc, List.singleton_append, urlencode_toList,
    queryField, Percent.formFields_encode hsafe]
  simp [textOf_bytes]

end SharamLedger
