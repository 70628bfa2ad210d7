import SharamLedger.Lib.Text

/-!
# The bytes of a text

`bytes` is the UTF-8 encoding of a list of characters. A byte below 128 that starts a character is
the whole character, so ASCII found at a byte position is found at a character position as long as
only ASCII stands in front of it (`bytes_front`, `char_of_byte`).
-/

namespace Lib.Text

/-- The UTF-8 encoding, as `as_bytes` returns it. -/
def bytes (l : List Char) : List UInt8 := l.flatMap String.utf8EncodeChar

@[simp] theorem bytes_nil : bytes [] = [] := rfl

@[simp] theorem bytes_append (l m : List Char) : bytes (l ++ m) = bytes l ++ bytes m :=
  List.flatMap_append

theorem bytes_cons (c : Char) (l : List Char) :
    bytes (c :: l) = String.utf8EncodeChar c ++ bytes l := List.flatMap_cons

theorem length_bytes_ofList (l : List Char) :
    (bytes l).length = (String.ofList l).utf8ByteSize := by
  induction l with
  | nil => rfl
  | cons c l ih =>
      rw [bytes_cons, List.length_append, String.length_utf8EncodeChar, ih, String.ofList_cons,
        String.utf8ByteSize_append, String.utf8ByteSize_singleton]

/-- An ASCII character is its own byte. -/
theorem utf8EncodeChar_ascii {c : Char} (h : c.toNat < 128) :
    String.utf8EncodeChar c = [UInt8.ofNat c.toNat] := by
  have hval : c.val.toNat ≤ 127 := Nat.le_of_lt_succ h
  unfold String.utf8EncodeChar
  exact if_pos hval

/-- The character of an ASCII byte has that code. -/
theorem toNat_char {b : UInt8} (h : b.toNat < 128) : (Char.ofNat b.toNat).toNat = b.toNat := by
  have hvalid : b.toNat.isValidChar := .inl (by omega)
  rw [Char.ofNat, dif_pos hvalid]
  rfl

/-- ASCII characters of one byte are one. -/
theorem eq_of_byte_eq {c d : Char} (hc : c.toNat < 128) (hd : d.toNat < 128)
    (h : UInt8.ofNat c.toNat = UInt8.ofNat d.toNat) : c = d := by
  have hbyte := congrArg UInt8.toNat h
  simp only [UInt8.toNat_ofNat'] at hbyte
  exact Char.toNat_inj.mp (by omega)

/-- The bytes of ASCII text, character by character. -/
theorem bytes_of_ascii {l : List Char} (h : ∀ c ∈ l, c.toNat < 128) :
    bytes l = l.map fun c => UInt8.ofNat c.toNat := by
  induction l with
  | nil => rfl
  | cons c l ih =>
      rw [bytes_cons, utf8EncodeChar_ascii (h c List.mem_cons_self),
        ih fun d hd => h d (List.mem_cons_of_mem c hd)]
      rfl

/-- The text that a row of bytes encodes, if it encodes one. -/
def textOf (b : List UInt8) : Option String :=
  b.toByteArray.utf8Decode?.map fun chars => String.ofList chars.toList

/-- The bytes of a text encode that text. -/
theorem textOf_bytes (s : String) : textOf (bytes s.toList) = some s := by
  have hdecode : (bytes s.toList).toByteArray.utf8Decode? = some s.toList.toArray :=
    List.utf8Decode?_utf8Encode
  rw [textOf, hdecode, Option.map_some, List.toList_toArray, String.ofList_toList]

/-- One-byte characters have one byte each. -/
theorem length_bytes_of_ascii {l : List Char} (h : ∀ c ∈ l, c.utf8Size = 1) :
    (bytes l).length = l.length := by
  rw [length_bytes_ofList, utf8ByteSize_ofList h]

/-- Every character takes a byte or more. -/
theorem length_le_bytes (l : List Char) : l.length ≤ (bytes l).length := by
  induction l with
  | nil => exact Nat.le_refl _
  | cons c l ih =>
      have hpos := c.utf8Size_pos
      rw [bytes_cons, List.length_append, String.length_utf8EncodeChar, List.length_cons]
      omega

/-- Behind one-byte characters the byte positions are those of the rest. -/
theorem bytes_front {l : List Char} (h : ∀ c ∈ l, c.utf8Size = 1) (rest : List Char) (i : Nat) :
    (bytes (l ++ rest))[l.length + i]? = (bytes rest)[i]? := by
  rw [bytes_append, List.getElem?_append_right (by rw [length_bytes_of_ascii h]; omega),
    length_bytes_of_ascii h, Nat.add_sub_cancel_left]

/-- A character whose first byte is ASCII is that one byte. -/
theorem char_of_byte {c d : Char} {l : List Char} (hd : d.toNat < 128)
    (h : (bytes (c :: l))[0]? = some (UInt8.ofNat d.toNat)) : c = d := by
  have hval : c.val.toNat = c.toNat := rfl
  have hmod : ∀ n, UInt8.ofNat n = UInt8.ofNat d.toNat → n % 256 = d.toNat := fun n hn => by
    have hnat := congrArg UInt8.toNat hn
    simp only [UInt8.toNat_ofNat'] at hnat
    omega
  rw [bytes_cons] at h
  unfold String.utf8EncodeChar at h
  simp only [hval] at h
  -- the first byte of a longer encoding is 192 or more
  split at h
  · have heq := hmod _ (Option.some.inj h)
    exact Char.toNat_inj.mp (by omega)
  · split at h
    · have heq := hmod _ (Option.some.inj h)
      omega
    · split at h
      · have heq := hmod _ (Option.some.inj h)
        omega
      · have heq := hmod _ (Option.some.inj h)
        omega

/-- A text of ASCII bytes is one of ASCII characters. -/
theorem ascii_of_bytes {l : List Char} (h : ∀ b ∈ bytes l, b.toNat < 128) :
    ∀ c ∈ l, c.toNat < 128 := by
  induction l with
  | nil => nofun
  | cons c l ih =>
      obtain ⟨b, rest, hbytes⟩ : ∃ b rest, bytes (c :: l) = b :: rest := by
        refine List.exists_cons_of_ne_nil fun hnil => ?_
        have hlen := length_le_bytes (c :: l)
        rw [hnil] at hlen
        cases hlen
      have hb : b.toNat < 128 := h b (hbytes ▸ List.mem_cons_self)
      have hcode := toNat_char hb
      have hchar : c = Char.ofNat b.toNat :=
        char_of_byte (l := l) (by omega) (by rw [hbytes, hcode, UInt8.ofNat_toNat]; rfl)
      intro d hd
      rcases List.mem_cons.mp hd with rfl | hd
      · rw [hchar, hcode]
        exact hb
      · refine ih (fun b hb => h b ?_) d hd
        rw [bytes_cons]
        exact List.mem_append_right _ hb

end Lib.Text
