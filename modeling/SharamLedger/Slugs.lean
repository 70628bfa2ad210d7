import SharamLedger.Lib.Ascii
import SharamLedger.Lib.Numeral
import SharamLedger.Lib.Utf8
import SharamLedger.Lib.Words
import SharamLedger.Schema.Control

/-!
# Slugs

The three checks of a slug and the slug that the create page proposes for a name. The checks count
bytes or characters, and agree since a slug is ASCII (`SlugText`). The page writes the words of the
name with underscores between them and then cuts the text, and the cut can fall behind an
underscore (`CutBetween`).
-/

namespace SharamLedger

open Lib Lib.Text

/-- `c.is_ascii_lowercase() || c.is_ascii_digit() || c == '_'`. -/
def isSlugChar (c : Char) : Bool := c.isLower || c.isDigit || c == '_'

/-- A lower-case letter and 2 to 40 more characters of a slug. -/
def SlugText (l : List Char) : Prop :=
  ∃ first rest, l = first :: rest ∧ first.isLower = true ∧
    (∀ c ∈ rest, isSlugChar c = true) ∧ 2 ≤ rest.length ∧ rest.length ≤ 40

theorem SlugText.chars {l : List Char} (h : SlugText l) : ∀ c ∈ l, isSlugChar c = true := by
  obtain ⟨first, rest, rfl, hfirst, hrest, -⟩ := h
  intro c hc
  rcases List.mem_cons.mp hc with rfl | hc
  · simp [isSlugChar, hfirst]
  · exact hrest c hc

theorem SlugText.length {l : List Char} (h : SlugText l) : 3 ≤ l.length ∧ l.length ≤ 41 := by
  obtain ⟨first, rest, rfl, -, -, hlow, hhigh⟩ := h
  rw [List.length_cons]
  omega

theorem isSlugChar_ascii {c : Char} (h : isSlugChar c = true) : c.toNat < 128 := by
  simp only [isSlugChar, Bool.or_eq_true, beq_iff_eq] at h
  rcases h with (h | h) | rfl
  · have hrange := Ascii.isLower_iff.mp h
    omega
  · have hrange := Ascii.isDigit_iff.mp h
    omega
  · decide

theorem toLower_of_slugChar {c : Char} (h : isSlugChar c = true) : c.toLower = c := by
  rcases Ascii.toLower_cases c with ⟨-, hsame⟩ | ⟨hupper, -⟩
  · exact hsame
  · -- there are no capital letters in a slug
    have hrange := Ascii.isUpper_iff.mp hupper
    simp only [isSlugChar, Bool.or_eq_true, Ascii.isLower_iff, Ascii.isDigit_iff, beq_iff_eq] at h
    rcases h with (h | h) | rfl
    · omega
    · omega
    · cases hupper

theorem alphanum_of_slugChar {c : Char} (h : isSlugChar c = true) :
    c.isAlphanum = true ∨ c = '_' := by
  simp only [isSlugChar, Bool.or_eq_true, beq_iff_eq] at h
  rcases h with (h | h) | h
  · exact .inl (Ascii.isAlphanum_of_isLower h)
  · exact .inl (Ascii.isAlphanum_iff.mpr (.inr h))
  · exact .inr h

theorem SlugText.utf8ByteSize {s : String} (h : SlugText s.toList) :
    s.utf8ByteSize = s.toList.length :=
  utf8ByteSize_of_ascii fun c hc => Ascii.utf8Size_of_ascii (isSlugChar_ascii (h.chars c hc))

/-! ## The checks -/

/-- The pattern of the schema. -/
theorem matchesSlug_iff (s : String) : matchesSlug s = true ↔ SlugText s.toList := by
  unfold matchesSlug SlugText
  cases hs : s.toList with
  | nil => simp
  | cons first rest =>
      simp only [Bool.and_eq_true, List.all_eq_true, decide_eq_true_eq]
      constructor
      · intro ⟨⟨⟨hfirst, hrest⟩, hlow⟩, hhigh⟩
        exact ⟨first, rest, rfl, hfirst, hrest, hlow, hhigh⟩
      · intro ⟨_, _, heq, hfirst, hrest, hlow, hhigh⟩
        obtain ⟨rfl, rfl⟩ := List.cons.inj heq
        exact ⟨⟨⟨hfirst, hrest⟩, hlow⟩, hhigh⟩

/-- The check of the program. -/
theorem isValidSlug_iff (s : String) : isValidSlug s = true ↔ SlugText s.toList := by
  constructor
  · intro h
    exact (matchesSlug_iff s).mp (matchesSlug_of_valid h)
  · intro h
    have hsize := h.utf8ByteSize
    have hlen := h.length
    obtain ⟨first, rest, hs, hfirst, hrest, -⟩ := h
    have hall : rest.all isSlugChar = true := List.all_eq_true.mpr hrest
    unfold isValidSlug
    simp only [hsize, if_pos hlen]
    simp only [hs, hfirst, Bool.true_and]
    exact hall

/-- `is_ascii_lowercase` of a byte. -/
def isLowerByte (b : UInt8) : Bool := 97 ≤ b.toNat && b.toNat ≤ 122

/-- What the page allows as a byte of a slug. -/
def isSlugByte (b : UInt8) : Bool :=
  isLowerByte b || (48 ≤ b.toNat && b.toNat ≤ 57) || b == 95

/-- `validate_slug` of the create page. -/
def validateSlug (s : String) : Except String Unit :=
  match bytes s.toList with
  | [] => .error "Slug is required."
  | first :: rest =>
      if (first :: rest).length < 3 then .error "Slug must be at least 3 characters."
      else if 41 < (first :: rest).length then .error "Slug must be 41 characters or fewer."
      else if !isLowerByte first then .error "Slug must start with a lowercase letter."
      else if !(first :: rest).all isSlugByte then
        .error "Slug may only contain lowercase letters, digits and underscore."
      else .ok ()

theorem isLowerByte_ofNat {c : Char} (h : c.toNat < 128) :
    isLowerByte (UInt8.ofNat c.toNat) = c.isLower := by
  rw [Bool.eq_iff_iff, Ascii.isLower_iff]
  simp only [isLowerByte, UInt8.toNat_ofNat', Bool.and_eq_true, decide_eq_true_eq]
  omega

theorem isSlugByte_ofNat {c : Char} (h : c.toNat < 128) :
    isSlugByte (UInt8.ofNat c.toNat) = isSlugChar c := by
  have hunderscore : UInt8.ofNat c.toNat = 95 ↔ c = '_' :=
    ⟨fun heq => eq_of_byte_eq h (by decide) heq, fun heq => by rw [heq]; rfl⟩
  have hcode : c.toNat % 2 ^ 8 = c.toNat := by omega
  rw [Bool.eq_iff_iff]
  simp only [isSlugByte, isSlugChar, isLowerByte_ofNat h, Bool.or_eq_true, beq_iff_eq, hunderscore,
    Ascii.isDigit_iff, UInt8.toNat_ofNat', Bool.and_eq_true, decide_eq_true_eq, hcode]

theorem isSlugByte_ascii {b : UInt8} (h : isSlugByte b = true) : b.toNat < 128 := by
  simp only [isSlugByte, isLowerByte, Bool.or_eq_true, Bool.and_eq_true, decide_eq_true_eq,
    beq_iff_eq] at h
  rcases h with (h | h) | rfl
  · omega
  · omega
  · decide

/-- What the checks of the page leave. -/
theorem validateSlug_ok (s : String) : validateSlug s = .ok () ↔
    ∃ first rest, bytes s.toList = first :: rest ∧ isLowerByte first = true ∧
      (∀ b ∈ first :: rest, isSlugByte b = true) ∧ 3 ≤ (first :: rest).length ∧
      (first :: rest).length ≤ 41 := by
  unfold validateSlug
  cases bytes s.toList with
  | nil => simp
  | cons first rest =>
      simp only [← List.all_eq_true]
      constructor
      · intro h
        refine ⟨first, rest, rfl, ?_⟩
        split at h
        · cases h
        · next hshort =>
            split at h
            · cases h
            · next hlong =>
                split at h
                · cases h
                · next hfirst =>
                    split at h
                    · cases h
                    · next hall =>
                        exact ⟨by simpa using hfirst, by simpa using hall, by omega, by omega⟩
      · intro ⟨first', rest', heq, hfirst, hall, hlow, hhigh⟩
        obtain ⟨rfl, rfl⟩ := List.cons.inj heq
        rw [if_neg (by omega), if_neg (by omega), if_neg (by simp [hfirst]),
          if_neg (by simp [hall])]

/-- The check of the page. -/
theorem validateSlug_iff (s : String) : validateSlug s = .ok () ↔ SlugText s.toList := by
  rw [validateSlug_ok]
  constructor
  · intro ⟨first, rest, hbytes, hfirst, hall, hlow, hhigh⟩
    -- bytes of a slug are ASCII, so they are the characters
    have hascii : ∀ c ∈ s.toList, c.toNat < 128 :=
      ascii_of_bytes fun b hb => isSlugByte_ascii (hall b (hbytes ▸ hb))
    rw [bytes_of_ascii hascii] at hbytes
    obtain ⟨c, l, hs, rfl, rfl⟩ := List.map_eq_cons_iff.mp hbytes
    rw [hs] at hascii
    have hslug : ∀ d ∈ l, isSlugChar d = true := fun d hd => by
      rw [← isSlugByte_ofNat (hascii d (List.mem_cons_of_mem c hd))]
      exact hall _ (List.mem_cons_of_mem _ (List.mem_map_of_mem hd))
    rw [isLowerByte_ofNat (hascii c List.mem_cons_self)] at hfirst
    simp only [List.length_cons, List.length_map] at hlow hhigh
    exact ⟨c, l, hs, hfirst, hslug, by omega, by omega⟩
  · intro h
    have hascii := fun c hc => isSlugChar_ascii (h.chars c hc)
    have hbytes := bytes_of_ascii hascii
    have hchars := h.chars
    have hlen := h.length
    obtain ⟨c, l, hs, hfirst, -⟩ := h
    rw [hs] at hascii hbytes hchars hlen
    rw [hs, hbytes]
    refine ⟨_, _, rfl, ?_, fun b hb => ?_, ?_⟩
    · rw [isLowerByte_ofNat (hascii c List.mem_cons_self)]
      exact hfirst
    · have hmem : b ∈ (c :: l).map fun c => UInt8.ofNat c.toNat := hb
      obtain ⟨d, hd, rfl⟩ := List.mem_map.mp hmem
      rw [isSlugByte_ofNat (hascii d hd)]
      exact hchars d hd
    · simpa using hlen

/-- The constructor makes a slug of every text that passes. -/
theorem tenantSlug_new_iff (s : String) :
    (∃ slug, TenantSlug.new s = .ok slug) ↔ SlugText s.toList := by
  rw [← isValidSlug_iff]
  unfold TenantSlug.new
  constructor
  · intro ⟨slug, h⟩
    split at h
    · assumption
    · cases h
  · intro h
    exact ⟨⟨s, h⟩, dif_pos h⟩

/-- The three checks accept the same texts. -/
theorem slug_checks_agree (s : String) :
    ((∃ slug, TenantSlug.new s = .ok slug) ↔ validateSlug s = .ok ()) ∧
      (validateSlug s = .ok () ↔ matchesSlug s = true) := by
  rw [tenantSlug_new_iff, validateSlug_iff, matchesSlug_iff]
  exact ⟨Iff.rfl, Iff.rfl⟩

/-! ## The proposed slug -/

/-- One character in the loop of `slugify`: the text so far, and whether it ends in an underscore
that stands for other characters. -/
def slugifyStep (s : List Char × Bool) (c : Char) : List Char × Bool :=
  let (out, prevUnderscore) := s
  if c.isAlphanum then (out ++ [c.toLower], false)
  else if !prevUnderscore && !out.isEmpty then (out ++ ['_'], true)
  else s

/-- `slugify` of the create page. -/
def slugify (name : String) : String :=
  let out := (name.toList.foldl slugifyStep ([], false)).1
  let trimmed := out.rdropWhile (· == '_')
  String.ofList ((trimmed.dropWhile fun c => !c.isLower).take 41)

/-- The words of a name in lower case, from its first letter on. -/
def nameWords (name : String) : List (List Char) :=
  Words.words Char.isAlphanum ((name.toList.map Char.toLower).dropWhile fun c => !c.isLower)

/-- Some words of the name fill 40 characters with their underscores, and another word follows. -/
def CutBetween (name : String) : Prop :=
  ∃ us v vs, nameWords name = us ++ v :: vs ∧ (['_'].intercalate us).length = 40

/-- The loop squeezes the lower-case name. With nothing written yet it acts as behind an
underscore. -/
theorem foldl_slugifyStep (l out : List Char) (prev : Bool) :
    (l.foldl slugifyStep (out, prev)).1 =
      out ++ Words.squeeze Char.isAlphanum '_' (prev || out.isEmpty) (l.map Char.toLower) := by
  induction l generalizing out prev with
  | nil => simp [Words.squeeze]
  | cons c l ih =>
      rw [List.foldl_cons, List.map_cons, Words.squeeze_cons, Ascii.isAlphanum_toLower]
      cases hc : c.isAlphanum with
      | true =>
          have hstep : slugifyStep (out, prev) c = (out ++ [c.toLower], false) := by
            simp [slugifyStep, hc]
          have hwritten : (out ++ [c.toLower]).isEmpty = false := by cases out <;> rfl
          rw [hstep, ih, hwritten, List.append_assoc]
          rfl
      | false =>
          by_cases hskip : (prev || out.isEmpty) = true
          · have hstep : slugifyStep (out, prev) c = (out, prev) := by
              have hno : (!prev && !out.isEmpty) = false := by
                rw [← Bool.not_or, hskip]
                rfl
              simp [slugifyStep, hc, hno]
            rw [hstep, ih, hskip]
            rfl
          · have hfree : (prev || out.isEmpty) = false := Bool.eq_false_iff.mpr hskip
            have hstep : slugifyStep (out, prev) c = (out ++ ['_'], true) := by
              have hyes : (!prev && !out.isEmpty) = true := by
                rw [← Bool.not_or, hfree]
                rfl
              simp [slugifyStep, hc, hyes]
            rw [hstep, ih, hfree, Bool.true_or, List.append_assoc]
            rfl

/-- The proposed slug is the words with underscores between them, cut behind 41 characters. -/
theorem slugify_toList (name : String) :
    (slugify name).toList = (['_'].intercalate (nameWords name)).take 41 := by
  unfold slugify nameWords
  rw [String.toList_ofList, foldl_slugifyStep, List.nil_append, List.isEmpty_nil, Bool.or_true,
    Words.dropWhile_rdropWhile, Words.dropWhile_squeeze, Words.rdropWhile_squeeze]
  · decide
  · intro c hc
    exact Ascii.isAlphanum_of_isLower (by simpa using hc)
  · decide
  · intro c hc
    rw [beq_iff_eq.mp hc]
    decide

/-! ## When it is tidy -/

/-- What is asked of a proposed slug: it is too short or a slug, has no underscore at either end and
no two in a row, and proposing one for it gives it again. -/
structure Tidy (name : String) : Prop where
  accepted : (slugify name).length < 3 ∨ ∃ slug, TenantSlug.new (slugify name) = .ok slug
  front : (slugify name).toList.head? ≠ some '_'
  back : (slugify name).toList.getLast? ≠ some '_'
  single : ¬ ['_', '_'] <:+: (slugify name).toList
  again : slugify (slugify name) = slugify name

/-- Up to the cut and the underscores at the end, the slug is what the loop writes. -/
theorem slugify_initial (name : String) :
    (slugify name).toList <+: Words.squeeze Char.isAlphanum '_' true
      ((name.toList.map Char.toLower).dropWhile fun c => !c.isLower) := by
  rw [slugify_toList, nameWords, ← Words.rdropWhile_squeeze (by decide)]
  exact (List.take_prefix 41 _).trans (List.rdropWhile_prefix _ _)

theorem slugify_single (name : String) : ¬ ['_', '_'] <:+: (slugify name).toList := fun h =>
  (Words.squeeze_single (by decide) true _).1 (h.trans (slugify_initial name).isInfix)

theorem slugify_chars (name : String) : ∀ c ∈ (slugify name).toList, isSlugChar c = true := by
  intro c hc
  rcases Words.mem_squeeze ((slugify_initial name).subset hc) with ⟨hmem, hkeep⟩ | rfl
  · -- a letter or digit of the lower-case name
    obtain ⟨d, -, rfl⟩ := List.mem_map.mp (List.dropWhile_subset _ hmem)
    rcases Ascii.isLower_or_isDigit hkeep with h | h <;> simp [isSlugChar, h]
  · decide

theorem slugify_front (name : String) :
    ∀ c ∈ (slugify name).toList.head?, c.isLower = true := by
  intro c hc
  obtain ⟨rest, hrest⟩ := slugify_initial name
  obtain ⟨tail, htail⟩ := List.head?_eq_some_iff.mp hc
  rw [htail, List.cons_append] at hrest
  generalize hfrom : (name.toList.map Char.toLower).dropWhile (fun c => !c.isLower) = l at hrest
  cases l with
  | nil => cases hrest
  | cons d l =>
      have hlower : d.isLower = true := by
        have hdrop := List.head?_dropWhile_not (fun c : Char => !c.isLower)
          (name.toList.map Char.toLower)
        rw [hfrom] at hdrop
        simpa using hdrop
      rw [Words.squeeze_cons, if_pos (Ascii.isAlphanum_of_isLower hlower)] at hrest
      rw [(List.cons.inj hrest).1]
      exact hlower

/-- It ends in an underscore when the cut falls behind one. -/
theorem slugify_back (name : String) :
    (slugify name).toList.getLast? = some '_' ↔ CutBetween name := by
  have hlast : (['_'].intercalate (nameWords name)).getLast? ≠ some '_' := by
    rw [nameWords, ← Words.rdropWhile_squeeze (by decide)]
    intro h
    cases Words.getLast?_rdropWhile h
  have hfree : ∀ w ∈ nameWords name, '_' ∉ w := fun w hw hmem =>
    absurd ((Words.of_mem_words hw).2 '_' hmem) (by decide)
  rw [slugify_toList, List.getLast?_take, if_neg (by decide)]
  have hcut : (['_'].intercalate (nameWords name))[40]? = some '_' ↔ CutBetween name := by
    rw [Words.getElem?_intercalate hfree]
    constructor
    · intro ⟨us, v, vs, hws, _, hlen⟩
      exact ⟨us, v, vs, hws, hlen⟩
    · intro ⟨us, v, vs, hws, hlen⟩
      refine ⟨us, v, vs, hws, ?_, hlen⟩
      rintro rfl
      cases hlen
  rw [← hcut]
  cases hget : (['_'].intercalate (nameWords name))[40]? with
  | none => simpa [hget] using hlast
  | some c => simp

/-- A tidy text is proposed for itself. -/
theorem slugify_self {s : String} (hchars : ∀ c ∈ s.toList, isSlugChar c = true)
    (hfront : ∀ c ∈ s.toList.head?, c.isLower = true) (hback : s.toList.getLast? ≠ some '_')
    (hsingle : ¬ ['_', '_'] <:+: s.toList) (hlen : s.toList.length ≤ 41) : slugify s = s := by
  have hlower : s.toList.map Char.toLower = s.toList := by
    rw [List.map_congr_left fun c hc => toLower_of_slugChar (hchars c hc), List.map_id']
  have hitems : ∀ c ∈ s.toList, c.isAlphanum = true ∨ c = '_' := fun c hc =>
    alphanum_of_slugChar (hchars c hc)
  have hhead : s.toList.head? ≠ some '_' := fun h => absurd (hfront '_' h) (by decide)
  have hwritten : (s.toList.foldl slugifyStep ([], false)).1 = s.toList := by
    rw [foldl_slugifyStep, hlower, List.nil_append]
    exact Words.squeeze_self hitems hsingle fun _ => hhead
  have htrimmed : s.toList.rdropWhile (· == '_') = s.toList := by
    rw [List.rdropWhile_eq_self_iff]
    intro hne h
    apply hback
    rw [List.getLast?_eq_some_getLast hne, beq_iff_eq.mp h]
  have hkept : s.toList.dropWhile (fun c => !c.isLower) = s.toList := by
    cases hs : s.toList with
    | nil => rfl
    | cons c l =>
        have hc : c.isLower = true := hfront c (by rw [hs]; rfl)
        exact List.dropWhile_cons_of_neg (by simp [hc])
  unfold slugify
  simp only [hwritten, htrimmed, hkept]
  rw [List.take_of_length_le hlen, String.ofList_toList]

/-- The proposed slug is tidy unless the cut falls between two words. -/
theorem slugify_tidy_iff (name : String) : Tidy name ↔ ¬ CutBetween name := by
  constructor
  · intro h hcut
    exact h.back ((slugify_back name).mpr hcut)
  · intro h
    have hback : (slugify name).toList.getLast? ≠ some '_' := fun hlast =>
      h ((slugify_back name).mp hlast)
    have hlen : (slugify name).toList.length ≤ 41 := by
      rw [slugify_toList]
      exact List.length_take_le 41 _
    refine ⟨?_, ?_, hback, slugify_single name,
      slugify_self (slugify_chars name) (slugify_front name) hback (slugify_single name) hlen⟩
    · rcases Nat.lt_or_ge (slugify name).length 3 with hshort | hlong
      · exact .inl hshort
      · right
        have hchars := slugify_chars name
        have hfront := slugify_front name
        rw [← String.length_toList] at hlong
        rw [tenantSlug_new_iff]
        generalize (slugify name).toList = l at hchars hfront hlong hlen
        cases l with
        | nil => cases hlong
        | cons c l =>
            rw [List.length_cons] at hlong hlen
            exact ⟨c, l, rfl, hfront c rfl, fun d hd => hchars d (List.mem_cons_of_mem c hd),
              by omega, by omega⟩
    · intro hhead
      exact absurd (slugify_front name '_' hhead) (by decide)

/-- Six words of 40 characters with their underscores, and a seventh. -/
theorem long_name_untidy : ¬ Tidy "Persatuan Penduduk Taman Sri Bukit Indah Jaya" := by
  intro h
  exact h.back (by decide)

end SharamLedger
