import SharamLedger.Lib.Numeral
import SharamLedger.Lib.Utf8

/-!
# Percent encoding

Encoding a row of bytes with `%XX` triples, for any choice of bytes that may stand for themselves,
and the two decoders: the plain one, and the one for form fields, where a plus sign is a blank and
`&` and `=` separate. Both read back what was encoded (`percentDecode_encode`,
`formFields_encode`) as long as the separators and signs are not among the bytes left alone.
-/

namespace Lib.Percent

open Lib.Text

/-! ## Encoding -/

/-- An upper-case hexadecimal digit. -/
def hexDigit (n : Nat) : Char := (Nat.digitChar n).toUpper

/-- A byte that may stand for itself is its character, any other one is a triple. -/
def encodeByte (safe : UInt8 → Bool) (b : UInt8) : List Char :=
  if safe b then [Char.ofNat b.toNat]
  else ['%', hexDigit (b.toNat / 16), hexDigit (b.toNat % 16)]

def encode (safe : UInt8 → Bool) (l : List UInt8) : List Char := l.flatMap (encodeByte safe)

/-- The upper-case hexadecimal digits. -/
def isUpperHex (c : Char) : Bool := c.isDigit || ('A' ≤ c && c ≤ 'F')

/-- Text of plain characters and well-formed upper-case triples. -/
inductive Triples (plain : Char → Prop) : List Char → Prop
  | nil : Triples plain []
  | char {c : Char} {l : List Char} (hc : plain c) (hl : Triples plain l) :
      Triples plain (c :: l)
  | triple {hi lo : Char} {l : List Char} (hhi : isUpperHex hi = true)
      (hlo : isUpperHex lo = true) (hl : Triples plain l) : Triples plain ('%' :: hi :: lo :: l)

/-! ## Decoding -/

/-- The value of a hexadecimal digit, in either case. -/
def hexValue (b : UInt8) : Option Nat :=
  if 48 ≤ b.toNat ∧ b.toNat ≤ 57 then some (b.toNat - 48)
  else if 65 ≤ b.toNat ∧ b.toNat ≤ 70 then some (b.toNat - 55)
  else if 97 ≤ b.toNat ∧ b.toNat ≤ 102 then some (b.toNat - 87)
  else none

/-- The byte that a triple stands for. -/
def tripleByte (b hi lo : UInt8) : Option UInt8 :=
  if b = 37 then
    (hexValue hi).bind fun h => (hexValue lo).map fun l => UInt8.ofNat (16 * h + l)
  else none

/-- Replace every triple by its byte; a percent sign that starts none stays. -/
def percentDecode : List UInt8 → List UInt8
  | b :: hi :: lo :: rest =>
      match tripleByte b hi lo with
      | some value => value :: percentDecode rest
      | none => b :: percentDecode (hi :: lo :: rest)
  | l => l

/-- In a form field a plus sign is a blank. -/
def formDecode (l : List UInt8) : List UInt8 :=
  percentDecode (l.map fun b => if b = 43 then 32 else b)

/-- The fields of a form-encoded query, name and value. -/
def formFields (query : List Char) : List (List UInt8 × List UInt8) :=
  (query.splitOn '&').filterMap fun part =>
    if part = [] then none
    else
      let (name, value) := (splitOnceChars ['='] part).getD (part, [])
      some (formDecode (bytes name), formDecode (bytes value))

/-! ## What an encoded text consists of -/

/-- The bytes left alone are ASCII, and neither signs of the encoding nor separators. -/
structure Unreserved (safe : UInt8 → Bool) : Prop where
  ascii : ∀ b, safe b = true → b.toNat < 128
  percent : safe 37 = false
  plus : safe 43 = false
  ampersand : safe 38 = false
  equals : safe 61 = false

theorem hexDigit_spec (n : Fin 16) :
    isUpperHex (hexDigit n) = true ∧ (hexDigit n).toNat < 128 ∧
      hexValue (UInt8.ofNat (hexDigit n).toNat) = some n.val ∧
      UInt8.ofNat (hexDigit n).toNat ≠ 43 := by
  revert n
  decide

variable {safe : UInt8 → Bool}

/-- An encoded text is plain characters and triples. -/
theorem triples_encode {plain : Char → Prop}
    (hplain : ∀ b, safe b = true → plain (Char.ofNat b.toNat)) (l : List UInt8) :
    Triples plain (encode safe l) := by
  induction l with
  | nil => exact .nil
  | cons b l ih =>
      have hb := b.toNat_lt
      show Triples plain (encodeByte safe b ++ encode safe l)
      unfold encodeByte
      split
      · next hsafe => exact .char (hplain b hsafe) ih
      · exact .triple (hexDigit_spec ⟨b.toNat / 16, by omega⟩).1
          (hexDigit_spec ⟨b.toNat % 16, by omega⟩).1 ih

/-- What holds of the percent sign, of the hexadecimal digits and of the bytes left alone holds of
every encoded character. -/
theorem forall_mem_encode {p : Char → Prop} (hpercent : p '%') (hhex : ∀ n : Fin 16, p (hexDigit n))
    (hsafe : ∀ b, safe b = true → p (Char.ofNat b.toNat)) (l : List UInt8) :
    ∀ c ∈ encode safe l, p c := by
  intro c hc
  obtain ⟨b, -, hc⟩ := List.mem_flatMap.mp hc
  have hb := b.toNat_lt
  unfold encodeByte at hc
  split at hc
  · next hplain =>
      obtain rfl := List.mem_singleton.mp hc
      exact hsafe b hplain
  · simp only [List.mem_cons, List.not_mem_nil, or_false] at hc
    obtain rfl | rfl | rfl := hc
    · exact hpercent
    · exact hhex ⟨b.toNat / 16, by omega⟩
    · exact hhex ⟨b.toNat % 16, by omega⟩

theorem encode_ascii (hsafe : Unreserved safe) (l : List UInt8) :
    ∀ c ∈ encode safe l, c.toNat < 128 :=
  forall_mem_encode (by decide) (fun n => (hexDigit_spec n).2.1)
    (fun b hb => by rw [toNat_char (hsafe.ascii b hb)]; exact hsafe.ascii b hb) l

/-- A sign that may not stand for itself is not in an encoded text, unless it is the percent sign
or a digit. -/
theorem not_mem_encode (hsafe : Unreserved safe) (c : Char)
    (hc : safe (UInt8.ofNat c.toNat) = false) (hpercent : c ≠ '%')
    (hhex : ∀ n : Fin 16, c ≠ hexDigit n) (l : List UInt8) : c ∉ encode safe l := by
  intro hmem
  refine forall_mem_encode (p := (c ≠ ·)) hpercent hhex (fun b hb heq => ?_) l c hmem rfl
  have hnat : c.toNat = b.toNat := by rw [heq, toNat_char (hsafe.ascii b hb)]
  have hbyte : UInt8.ofNat c.toNat = b := by rw [hnat, UInt8.ofNat_toNat]
  rw [hbyte, hb] at hc
  cases hc

/-! ## Reading back -/

/-- A byte other than the percent sign is decoded to itself. -/
theorem percentDecode_cons {b : UInt8} (hb : b ≠ 37) (rest : List UInt8) :
    percentDecode (b :: rest) = b :: percentDecode rest := by
  match rest with
  | [] => rfl
  | [_] => rfl
  | hi :: lo :: rest => rw [percentDecode, tripleByte, if_neg hb]

/-- The bytes of one encoded byte. -/
theorem bytes_encodeByte (hsafe : Unreserved safe) (b : UInt8) :
    bytes (encodeByte safe b) =
      if safe b then [b]
      else [37, UInt8.ofNat (hexDigit (b.toNat / 16)).toNat,
        UInt8.ofNat (hexDigit (b.toNat % 16)).toNat] := by
  have hascii : ∀ c ∈ encodeByte safe b, c.toNat < 128 := fun c hc =>
    encode_ascii hsafe [b] c (List.mem_flatMap.mpr ⟨b, List.mem_singleton_self b, hc⟩)
  rw [bytes_of_ascii hascii]
  unfold encodeByte
  split
  · next hb => rw [List.map_singleton, toNat_char (hsafe.ascii b hb), UInt8.ofNat_toNat]
  · rfl

/-- One encoded byte is read back in front of any rest. -/
theorem percentDecode_encodeByte (hsafe : Unreserved safe) (b : UInt8) (rest : List UInt8) :
    percentDecode (bytes (encodeByte safe b) ++ rest) = b :: percentDecode rest := by
  rw [bytes_encodeByte hsafe]
  have hb := b.toNat_lt
  split
  · next hplain =>
      have hne : b ≠ 37 := fun heq => by simp [heq, hsafe.percent] at hplain
      exact percentDecode_cons hne rest
  · have hhi := (hexDigit_spec ⟨b.toNat / 16, by omega⟩).2.2.1
    have hlo := (hexDigit_spec ⟨b.toNat % 16, by omega⟩).2.2.1
    have hvalue : 16 * (b.toNat / 16) + b.toNat % 16 = b.toNat := Nat.div_add_mod _ _
    have htriple : tripleByte 37 (UInt8.ofNat (hexDigit (b.toNat / 16)).toNat)
        (UInt8.ofNat (hexDigit (b.toNat % 16)).toNat) = some b := by
      rw [tripleByte, if_pos rfl, hhi, hlo, Option.bind_some, Option.map_some, hvalue,
        UInt8.ofNat_toNat]
    show percentDecode (37 :: _ :: _ :: rest) = _
    rw [percentDecode, htriple]

theorem encode_cons (b : UInt8) (l : List UInt8) :
    encode safe (b :: l) = encodeByte safe b ++ encode safe l := List.flatMap_cons

/-- Decoding an encoded text gives the bytes back. -/
theorem percentDecode_encode (hsafe : Unreserved safe) (l : List UInt8) :
    percentDecode (bytes (encode safe l)) = l := by
  induction l with
  | nil => rfl
  | cons b l ih => rw [encode_cons, bytes_append, percentDecode_encodeByte hsafe, ih]

/-- No plus sign is written, so the decoder for form fields has no blank to put. -/
theorem formDecode_encode (hsafe : Unreserved safe) (l : List UInt8) :
    formDecode (bytes (encode safe l)) = l := by
  have hplus : '+' ∉ encode safe l :=
    not_mem_encode hsafe '+' hsafe.plus (by decide) (by decide) l
  have hascii := encode_ascii hsafe l
  have hsame : (bytes (encode safe l)).map (fun b => if b = 43 then 32 else b) =
      bytes (encode safe l) := by
    rw [bytes_of_ascii hascii, List.map_map]
    refine List.map_congr_left fun c hc => if_neg fun heq => hplus ?_
    rwa [eq_of_byte_eq (d := '+') (hascii c hc) (by decide) heq] at hc
  rw [formDecode, hsame, percentDecode_encode hsafe]

/-- An encoded field is read as its name and its value. -/
theorem formFields_encode (hsafe : Unreserved safe) (name l : List UInt8) :
    formFields (encode safe name ++ '=' :: encode safe l) = [(name, l)] := by
  have hfree : ∀ l, '&' ∉ encode safe l := fun l =>
    not_mem_encode hsafe '&' hsafe.ampersand (by decide) (by decide) l
  have hequals : '=' ∉ encode safe name :=
    not_mem_encode hsafe '=' hsafe.equals (by decide) (by decide) name
  have hwhole : '&' ∉ encode safe name ++ '=' :: encode safe l := by
    simp [hfree]
  rw [formFields, List.splitOn_eq_singleton hwhole]
  have hsplit : splitOnceChars ['='] (encode safe name ++ '=' :: encode safe l) =
      some (encode safe name, encode safe l) := splitOnceChars_eq_some.mpr ⟨hequals, rfl⟩
  simp [hsplit, formDecode_encode hsafe]

end Lib.Percent
