import Mathlib.Data.List.DropRight
import Mathlib.Data.List.Infix
import Mathlib.Data.List.TakeWhile
import Mathlib.Tactic.Linarith

/-!
# Text functions of the standard library

The string operations that programs use on request data: trimming, prefixes, splitting at
the first separator and number parsing. They work on the list of characters.
`splitOnce_marker` finds a separator again behind text that does not contain it.
-/

namespace Lib.Text

/-- The characters with the Unicode property `White_Space`. -/
def isWhitespace (c : Char) : Bool :=
  let n := c.toNat
  (9 ≤ n && n ≤ 13) || n == 0x20 || n == 0x85 || n == 0xA0 || n == 0x1680 ||
    (0x2000 ≤ n && n ≤ 0x200A) || n == 0x2028 || n == 0x2029 || n == 0x202F ||
    n == 0x205F || n == 0x3000

/-- Remove whitespace at both ends. -/
def trimChars (l : List Char) : List Char :=
  ((l.dropWhile isWhitespace).reverse.dropWhile isWhitespace).reverse

def trim (s : String) : String := String.ofList (trimChars s.toList)

/-- Trimmed text has nothing left to trim. -/
theorem trimChars_trimChars (l : List Char) : trimChars (trimChars l) = trimChars l := by
  have hfront : (trimChars l).dropWhile isWhitespace = trimChars l := by
    rw [List.dropWhile_eq_self_iff]
    intro hlen
    -- what is left after trimming the end starts with what it started with before
    have hinit : trimChars l <+: l.dropWhile isWhitespace := List.rdropWhile_prefix _ _
    have hpos : 0 < (l.dropWhile isWhitespace).length := hlen.trans_le hinit.length_le
    rw [hinit.getElem hlen]
    exact List.dropWhile_get_zero_not _ _ hpos
  calc trimChars (trimChars l)
      = ((trimChars l).dropWhile isWhitespace).rdropWhile isWhitespace := rfl
    _ = (trimChars l).rdropWhile isWhitespace := by rw [hfront]
    _ = trimChars l := List.rdropWhile_idempotent _ _

/-- Trimming commutes with a map on characters that keeps the blanks apart. -/
theorem trimChars_map {f : Char → Char} (hf : ∀ c, isWhitespace (f c) = isWhitespace c)
    (l : List Char) : trimChars (l.map f) = (trimChars l).map f := by
  have hcomp : isWhitespace ∘ f = isWhitespace := funext hf
  simp only [trimChars, List.dropWhile_map, ← List.map_reverse, hcomp]

def startsWith (s pre : String) : Bool := pre.toList.isPrefixOf s.toList

/-- The text behind a prefix, if the text starts with it. -/
def stripPrefix (pre s : String) : Option String :=
  if startsWith s pre then some (String.ofList (s.toList.drop pre.toList.length)) else none

/-- The parts before and after the first occurrence of a separator. -/
def splitOnceChars (sep : List Char) : List Char → Option (List Char × List Char)
  | [] => if sep.isPrefixOf [] then some ([], []) else none
  | c :: rest =>
      if sep.isPrefixOf (c :: rest) then some ([], (c :: rest).drop sep.length)
      else (splitOnceChars sep rest).map fun (before, after) => (c :: before, after)

def splitOnce (sep s : String) : Option (String × String) :=
  (splitOnceChars sep.toList s.toList).map fun (before, after) =>
    (String.ofList before, String.ofList after)

def contains (s needle : String) : Bool := (splitOnceChars needle.toList s.toList).isSome

/-- The value of a non-empty run of ASCII digits. -/
def digitsValue (l : List Char) : Option Nat :=
  if l ≠ [] ∧ l.all Char.isDigit then some (Nat.ofDigitChars 10 l 0) else none

/-- Parse an unsigned integer of at most `hi`: digits, after an optional plus sign. -/
def parseUnsigned (hi : Nat) (l : List Char) : Option Nat :=
  let digits := match l with
    | '+' :: rest => digitsValue rest
    | _ => digitsValue l
  digits.filter (· ≤ hi)

/-- Parse a signed integer between `-hi - 1` and `hi`: digits, after an optional sign. -/
def parseSigned (hi : Nat) (l : List Char) : Option Int :=
  match l with
  | '-' :: rest => ((digitsValue rest).filter (· ≤ hi + 1)).map fun n => -(n : Int)
  | _ => (parseUnsigned hi l).map fun n => (n : Int)

/-! ## Finding a separator -/

/-- A separator whose last character occurs in it only once starts nowhere inside text that
does not contain it, even where that text and the separator meet. -/
theorem not_isPrefix_before {m pre rest : List Char} {c : Char} (hc : c ∉ m)
    (hpre : pre ≠ []) (hfree : ¬ (m ++ [c]) <+: pre) :
    ¬ (m ++ [c]) <+: pre ++ (m ++ [c]) ++ rest := by
  intro h
  rw [List.append_assoc] at h
  by_cases hlen : (m ++ [c]).length ≤ pre.length
  · exact hfree (List.prefix_of_prefix_length_le h (List.prefix_append _ _) hlen)
  · -- the last character of the separator would be one of its earlier ones
    apply hc
    have hpos : 0 < pre.length := List.length_pos_iff.mpr hpre
    simp only [List.length_append, List.length_singleton] at hlen
    have hget := List.prefix_iff_getElem?.mp h m.length (by simp)
    have hidx : m.length - pre.length < m.length := by omega
    rw [List.getElem?_append_right (by omega), List.append_assoc,
      List.getElem?_append_left hidx] at hget
    simp only [List.getElem_append_right (le_refl m.length), Nat.sub_self,
      List.getElem_cons_zero] at hget
    exact List.mem_of_getElem? hget

/-- The first occurrence of a separator behind text without it is the one that follows. -/
theorem splitOnceChars_marker {m pre rest : List Char} {c : Char} (hc : c ∉ m)
    (hfree : ¬ (m ++ [c]) <:+: pre) :
    splitOnceChars (m ++ [c]) (pre ++ (m ++ [c]) ++ rest) = some (pre, rest) := by
  induction pre with
  | nil =>
      obtain ⟨d, l, hl⟩ : ∃ d l, m ++ [c] = d :: l := by
        cases m with
        | nil => exact ⟨c, [], rfl⟩
        | cons d m => exact ⟨d, m ++ [c], rfl⟩
      simp [hl, splitOnceChars]
  | cons d pre ih =>
      have hno : ¬ (m ++ [c]) <+: d :: pre ++ (m ++ [c]) ++ rest :=
        not_isPrefix_before hc (List.cons_ne_nil d pre) fun h => hfree h.isInfix
      have hrest := ih fun h => hfree (h.trans (List.suffix_cons d pre).isInfix)
      have hcons : d :: pre ++ (m ++ [c]) ++ rest = d :: (pre ++ (m ++ [c]) ++ rest) := rfl
      rw [hcons] at hno ⊢
      rw [splitOnceChars, if_neg (by simpa using hno), hrest]
      rfl

/-- A separator that does not occur is not found. -/
theorem splitOnceChars_none {sep l : List Char} (h : ¬ sep <:+: l) :
    splitOnceChars sep l = none := by
  induction l with
  | nil =>
      rw [splitOnceChars, if_neg]
      intro hp
      exact h (List.isPrefixOf_iff_prefix.mp hp).isInfix
  | cons d l ih =>
      rw [splitOnceChars, if_neg, ih fun hl => h (hl.trans (List.suffix_cons d l).isInfix)]
      · rfl
      · intro hp
        exact h (List.isPrefixOf_iff_prefix.mp hp).isInfix

/-- One that occurs is found. -/
theorem splitOnceChars_isSome {sep l : List Char} (h : sep <:+: l) :
    (splitOnceChars sep l).isSome = true := by
  induction l with
  | nil =>
      rw [List.infix_nil.mp h]
      rfl
  | cons d l ih =>
      rw [splitOnceChars]
      split
      · rfl
      · next hprefix =>
          rcases List.infix_cons_iff.mp h with hp | hl
          · exact absurd (List.isPrefixOf_iff_prefix.mpr hp) hprefix
          · rw [Option.isSome_map]
            exact ih hl

theorem contains_of_infix {s needle : String} (h : needle.toList <:+: s.toList) :
    contains s needle = true :=
  splitOnceChars_isSome h

/-! ## Bytes -/

/-- A text of one-byte characters has as many bytes as characters. -/
theorem utf8ByteSize_ofList {l : List Char} (h : ∀ c ∈ l, c.utf8Size = 1) :
    (String.ofList l).utf8ByteSize = l.length := by
  induction l with
  | nil => rfl
  | cons c l ih =>
      rw [String.ofList_cons, String.utf8ByteSize_append, String.utf8ByteSize_singleton,
        h c (by simp), ih fun d hd => h d (by simp [hd]), List.length_cons, Nat.add_comm]

end Lib.Text
