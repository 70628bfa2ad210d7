import SharamLedger.Gateway.Proofs
import SharamLedger.Sample
import SharamLedger.Slugs

/-!
# Keys of the proof store

A key that the store makes names the tenant, the uploader and the file in segments of their own.
Slugs have no slash, so the prefix that the routes test is the prefix of one tenant alone, and no
segment is empty or leads upwards.
-/

namespace SharamLedger

open Lib Lib.Text

/-! ## Identifiers and segments -/

/-- The hexadecimal digits of a 128-bit number, all 32 of them. -/
def hexDigits (id : BitVec 128) : List Char :=
  (List.range 32).map fun i => Nat.digitChar (id.toNat / 16 ^ (31 - i) % 16)

/-- `Display` of a `Uuid`: groups of 8, 4, 4, 4 and 12 digits with hyphens between them. -/
def uuidText (id : BitVec 128) : String :=
  let digits := hexDigits id
  String.ofList (digits.take 8 ++ '-' :: (digits.drop 8).take 4 ++ '-' :: (digits.drop 12).take 4 ++
    '-' :: (digits.drop 16).take 4 ++ '-' :: digits.drop 20)

/-- `[a-z0-9._-]`. -/
def isSegmentChar (c : Char) : Bool :=
  c.isLower || c.isDigit || c == '.' || c == '_' || c == '-'

/-- A segment of a path that stays where it is put. -/
structure Segment (l : List Char) : Prop where
  nonempty : l ≠ []
  chars : ∀ c ∈ l, isSegmentChar c = true
  not_here : l ≠ ['.']
  not_up : l ≠ ['.', '.']

theorem Segment.no_slash {l : List Char} (h : Segment l) : '/' ∉ l := fun hmem =>
  absurd (h.chars '/' hmem) (by decide)

/-- Text with another character than a dot in it is no dot segment. -/
theorem Segment.of_mem {l : List Char} (hchars : ∀ c ∈ l, isSegmentChar c = true) {c : Char}
    (hmem : c ∈ l) (hdot : c ≠ '.') : Segment l where
  nonempty := List.ne_nil_of_mem hmem
  chars := hchars
  not_here := by
    intro heq
    rw [heq] at hmem
    exact hdot (List.mem_singleton.mp hmem)
  not_up := by
    intro heq
    rw [heq] at hmem
    simp [hdot] at hmem

theorem segment_slug (slug : TenantSlug) : Segment slug.val.toList := by
  have hslug := (isValidSlug_iff _).mp slug.valid
  have hchars : ∀ c ∈ slug.val.toList, isSegmentChar c = true := fun c hc => by
    have hc := hslug.chars c hc
    simp only [isSlugChar, isSegmentChar, Bool.or_eq_true] at hc ⊢
    tauto
  obtain ⟨first, rest, hs, hfirst, -⟩ := hslug
  refine .of_mem hchars (c := first) (hs ▸ List.mem_cons_self) fun heq => ?_
  rw [heq] at hfirst
  cases hfirst

theorem hexDigits_chars (id : BitVec 128) : ∀ c ∈ hexDigits id, isSegmentChar c = true := by
  have hdigit : ∀ n : Fin 16, isSegmentChar (Nat.digitChar n) = true := by decide
  intro c hc
  obtain ⟨i, -, rfl⟩ := List.mem_map.mp hc
  exact hdigit ⟨id.toNat / 16 ^ (31 - i) % 16, Nat.mod_lt _ (by decide)⟩

theorem mem_uuidText {id : BitVec 128} {c : Char} (h : c ∈ (uuidText id).toList) :
    c ∈ hexDigits id ∨ c = '-' := by
  simp only [uuidText, String.toList_ofList, List.mem_append, List.mem_cons] at h
  rcases h with (((h | rfl | h) | rfl | h) | rfl | h) | rfl | h
  · exact .inl (List.mem_of_mem_take h)
  · exact .inr rfl
  · exact .inl (List.mem_of_mem_drop (List.mem_of_mem_take h))
  · exact .inr rfl
  · exact .inl (List.mem_of_mem_drop (List.mem_of_mem_take h))
  · exact .inr rfl
  · exact .inl (List.mem_of_mem_drop (List.mem_of_mem_take h))
  · exact .inr rfl
  · exact .inl (List.mem_of_mem_drop h)

/-- Extensions are small letters. -/
theorem extFor_chars {contentType ext : String} (h : extFor contentType = some ext) :
    ∀ c ∈ ext.toList, isSegmentChar c = true := by
  have hext : ext = "jpg" ∨ ext = "png" ∨ ext = "webp" ∨ ext = "pdf" := by
    unfold extFor at h
    split_ifs at h <;> cases h <;> simp
  refine List.all_eq_true.mp ?_
  rcases hext with rfl | rfl | rfl | rfl <;> decide

theorem segment_file (id : BitVec 128) {contentType ext : String}
    (hext : extFor contentType = some ext) :
    Segment ((uuidText id).toList ++ '.' :: ext.toList) := by
  have hdash : '-' ∈ (uuidText id).toList := by simp [uuidText]
  refine .of_mem (c := '-') (fun c hc => ?_) (List.mem_append_left _ hdash) (by decide)
  rcases List.mem_append.mp hc with hc | hc
  · rcases mem_uuidText hc with hc | rfl
    · exact hexDigits_chars id c hc
    · decide
  · rcases List.mem_cons.mp hc with rfl | hc
    · decide
    · exact extFor_chars hext c hc

theorem collapseRuns_eq_squeeze (prevDash : Bool) (l : List Char) :
    collapseRuns prevDash l = Words.squeeze isFragChar '-' prevDash l := by
  induction l generalizing prevDash with
  | nil => rfl
  | cons c l ih => simp only [collapseRuns, Words.squeeze_cons, ih]

/-- Trimming takes nothing but dashes away. -/
theorem mem_trimDashes {l : List Char} {c : Char} (hc : c ≠ '-') (h : c ∈ l) :
    c ∈ trimDashes l := by
  have hkeep : (c == '-') = false := beq_eq_false_iff_ne.mpr hc
  unfold trimDashes
  rw [List.mem_reverse]
  refine Words.mem_dropWhile hkeep ?_
  rw [List.mem_reverse]
  exact Words.mem_dropWhile hkeep h

theorem trimDashes_subset (l : List Char) : trimDashes l ⊆ l := by
  intro c hc
  unfold trimDashes at hc
  rw [List.mem_reverse] at hc
  exact List.dropWhile_subset _ (List.mem_reverse.mp (List.dropWhile_subset _ hc))

section Keys

variable [Platform]

/-- The documented behaviour of lower-casing: an ASCII character becomes its small letter, any other
one some characters that are no capital letters of ASCII. -/
def LowersTo (c : Char) (piece : List Char) : Prop :=
  if c.toNat < 128 then piece = [c.toLower] else ∀ d ∈ piece, d.isUpper = false

/-- Lower-casing goes through a text character by character. -/
def LowersCharacters : Prop :=
  ∀ s : String, ∃ pieces : List (List Char),
    List.Forall₂ LowersTo s.toList pieces ∧ Platform.toLowercase s = String.ofList pieces.flatten

/-! ## The fragment for an e-mail address -/

variable {email : String}

theorem toLowercase_chars (lowers : LowersCharacters) (s : String) :
    ∀ c ∈ (Platform.toLowercase s).toList, c.isUpper = false := by
  obtain ⟨pieces, hpieces, hlower⟩ := lowers s
  rw [hlower, String.toList_ofList]
  clear hlower
  generalize s.toList = l at hpieces
  induction hpieces with
  | nil => nofun
  | @cons c piece l pieces hc _ ih =>
      intro d hd
      rcases List.mem_append.mp (List.flatten_cons ▸ hd) with hd | hd
      · unfold LowersTo at hc
        split at hc
        · rw [hc] at hd
          rw [List.mem_singleton.mp hd]
          exact Ascii.isUpper_toLower c
        · exact hc d hd
      · exact ih d hd

theorem at_mem_toLowercase (lowers : LowersCharacters) (hat : '@' ∈ email.toList) :
    '@' ∈ (Platform.toLowercase email).toList := by
  obtain ⟨pieces, hpieces, hlower⟩ := lowers email
  rw [hlower, String.toList_ofList]
  clear hlower
  generalize email.toList = l at hpieces hat
  induction hpieces with
  | nil => cases hat
  | @cons c piece l pieces hc _ ih =>
      rw [List.flatten_cons]
      rcases List.mem_cons.mp hat with rfl | hat
      · -- the small letter of an at sign is an at sign
        have hpiece : piece = ['@'] := hc
        rw [hpiece]
        exact List.mem_append_left _ (List.mem_singleton_self _)
      · exact List.mem_append_right _ (ih hat)

/-- What the fragment is made from. -/
theorem sanitizeEmailFrag_eq (lowers : LowersCharacters) (hat : '@' ∈ email.toList) :
    ∃ local_ domain, (Platform.toLowercase email).toList = local_ ++ '@' :: domain ∧
      (sanitizeEmailFrag email).toList = trimDashes (Words.squeeze isFragChar '-' false
        (local_ ++ "_at_".toList ++ domain)) := by
  obtain ⟨local_, domain, hlower, hfree⟩ :=
    List.eq_append_cons_of_mem (at_mem_toLowercase lowers hat)
  have hsplit : Text.splitOnce "@" (Platform.toLowercase email) =
      some (String.ofList local_, String.ofList domain) := by
    have hchars : splitOnceChars ['@'] (Platform.toLowercase email).toList =
      some (local_, domain) := splitOnceChars_eq_some.mpr ⟨hfree, hlower⟩
    have hat : "@".toList = ['@'] := by decide
    rw [splitOnce, hat, hchars]
    rfl
  refine ⟨local_, domain, hlower, ?_⟩
  simp [sanitizeEmailFrag, hsplit, collapseRuns_eq_squeeze]

/-- A sanitized address is one segment. -/
theorem segment_frag (lowers : LowersCharacters) (hat : '@' ∈ email.toList) :
    Segment (sanitizeEmailFrag email).toList := by
  obtain ⟨local_, domain, hlower, hfrag⟩ := sanitizeEmailFrag_eq lowers hat
  have hsmall := toLowercase_chars lowers email
  rw [hlower] at hsmall
  rw [hfrag]
  refine .of_mem (c := '_') (fun c hc => ?_) ?_ (by decide)
  · rcases Words.mem_squeeze (trimDashes_subset _ hc) with ⟨hmem, hkeep⟩ | rfl
    · have hsmall : c.isUpper = false := by
        rcases List.mem_append.mp hmem with hmem | hmem
        · rcases List.mem_append.mp hmem with hmem | hmem
          · exact hsmall c (List.mem_append_left _ hmem)
          · have hword : ("_at_".toList.all fun d => !d.isUpper) = true := by decide
            simpa using List.all_eq_true.mp hword c hmem
        · exact hsmall c (List.mem_append_right _ (List.mem_cons_of_mem _ hmem))
      simpa [isSegmentChar, isFragChar, Ascii.isAlphanum_eq, hsmall] using hkeep
    · decide
  · -- the underscores that stand for the at sign are kept
    refine mem_trimDashes (by decide) (Words.mem_squeeze_of_keep ?_ (by decide))
    simp

/-! ## The key -/

/-- What stands between the slashes of a key. -/
def keySegments (slug email ext uuid : String) : List (List Char) :=
  ["tenants".toList, slug.toList, (sanitizeEmailFrag email).toList,
    uuid.toList ++ '.' :: ext.toList]

theorem proofKeyFor_toList (slug email ext uuid : String) :
    (proofKeyFor slug email ext uuid).toList =
      ['/'].intercalate (keySegments slug email ext uuid) := by
  simp [proofKeyFor, proofPrefix, proofKeyPrefix, keySegments]

theorem segments_proofKeyFor (lowers : LowersCharacters) (slug : TenantSlug)
    (hat : '@' ∈ email.toList) (id : BitVec 128) {contentType ext : String}
    (hext : extFor contentType = some ext) :
    ∀ l ∈ keySegments slug.val email ext (uuidText id), Segment l := by
  have hchars : ∀ c ∈ "tenants".toList, isSegmentChar c = true :=
    List.all_eq_true.mp (by decide)
  have htenants : Segment "tenants".toList := .of_mem hchars (c := 't') (by decide) (by decide)
  unfold keySegments
  simp only [List.forall_mem_cons]
  exact ⟨htenants, segment_slug slug, segment_frag lowers hat, segment_file id hext, nofun⟩

/-- A key lies under the prefix of the tenant it was made for and under no other one. -/
theorem startsWith_proofKeyFor (a b : TenantSlug) (email ext uuid : String) :
    Text.startsWith (proofKeyFor b.val email ext uuid) (proofPrefix a.val) = true ↔ a = b := by
  have hprefix : ∀ slug : TenantSlug, (proofPrefix slug.val).toList =
      "tenants/".toList ++ (slug.val.toList ++ ['/']) := fun slug => by
    simp [proofPrefix, proofKeyPrefix]
  have hkey : (proofKeyFor b.val email ext uuid).toList = "tenants/".toList ++
      (b.val.toList ++ '/' :: ((sanitizeEmailFrag email) ++ "/" ++ uuid ++ "." ++ ext).toList) := by
    simp [proofKeyFor, proofPrefix, proofKeyPrefix]
  unfold Text.startsWith
  rw [List.isPrefixOf_iff_prefix, hprefix, hkey]
  constructor
  · intro ⟨rest, hrest⟩
    rw [List.append_assoc, List.append_assoc] at hrest
    have hsame := List.append_cancel_left hrest
    have hslug := split_unique (segment_slug a).no_slash (segment_slug b).no_slash hsame
    exact TenantSlug.eq_of_val (String.toList_inj.mp hslug.1)
  · rintro rfl
    exact ⟨_, by rw [List.append_assoc, List.append_assoc]; rfl⟩

/-- A minted key passes the test of the routes for its own tenant only, and it is four segments. -/
theorem minted_key_separates (lowers : LowersCharacters) (a b : TenantSlug)
    (hat : '@' ∈ email.toList) (id : BitVec 128) {contentType ext : String}
    (hext : extFor contentType = some ext) (bytes : List UInt8) (s : System) {key : String}
    (hput : ((putProof b.val email contentType ext (uuidText id) bytes).run s).1 = .ok key) :
    (Text.startsWith key (proofPrefix a.val) = true ↔ a = b) ∧
      (key.toList.splitOn '/').length = 4 ∧ ∀ l ∈ key.toList.splitOn '/', Segment l := by
  have hkey : key = proofKeyFor b.val email ext (uuidText id) := by
    cases hstored : Platform.putObject (proofKeyFor b.val email ext (uuidText id)) with
    | error e => simp [putProof, hstored] at hput
    | ok u => simpa [putProof, hstored] using hput.symm
  have hsegments := segments_proofKeyFor lowers b hat id hext
  have hsplit : key.toList.splitOn '/' = keySegments b.val email ext (uuidText id) := by
    rw [hkey, proofKeyFor_toList,
      List.splitOn_intercalate '/' (fun l hl => (hsegments l hl).no_slash) (List.cons_ne_nil _ _)]
  rw [hsplit]
  refine ⟨?_, rfl, hsegments⟩
  rw [hkey]
  exact startsWith_proofKeyFor a b email ext (uuidText id)

end Keys

/-! ## A key of the sample venture -/

section Sample

attribute [local instance] Platform.sample

theorem sample_lowers : LowersCharacters := by
  intro s
  refine ⟨s.toList.map fun c => [c.toLower], ?_, ?_⟩
  · induction s.toList with
    | nil => exact .nil
    | cons c l ih =>
        refine .cons ?_ ih
        unfold LowersTo
        split
        · rfl
        · intro d hd
          rw [List.mem_singleton.mp hd]
          exact Ascii.isUpper_toLower c
  · show String.ofList (s.toList.map Char.toLower) =
      String.ofList (s.toList.map fun c => [c.toLower]).flatten
    rw [← List.flatMap_def, ← List.map_eq_flatMap]

/-- A slug that the sample venture's is the beginning of. -/
def poolTwo : TenantSlug := ⟨"pool_two", by decide⟩

/-- Ann's receipt for the sample venture, and the prefix of the other one. -/
theorem pool_key_separates :
    let key := proofKeyFor "pool" "Ann@Pool.org" "png" (uuidText 7)
    (Text.startsWith key (proofPrefix "pool_two") = true ↔ poolTwo = poolSlug) ∧
      (key.toList.splitOn '/').length = 4 ∧ ∀ l ∈ key.toList.splitOn '/', Segment l := by
  have hat : '@' ∈ "Ann@Pool.org".toList := by decide
  have hext : extFor "image/png" = some "png" := rfl
  exact minted_key_separates sample_lowers poolTwo poolSlug hat 7 hext [] bobInvited rfl

end Sample

end SharamLedger
