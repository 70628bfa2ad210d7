import SharamLedger.Ledger.Error
import SharamLedger.Schema.Contribution
import SharamLedger.Schema.Patterns

/-!
# Reading back what an event threw

The lock event and the cap event put a period and two amounts into the text they throw.
`map_db_error` reads the same period and the same amounts out of it.
-/

namespace SharamLedger

open Lib

/-! ## Text -/

theorem isWhitespace_of_isDigit {c : Char} (h : c.isDigit = true) :
    Text.isWhitespace c = false := by
  have hrange := Ascii.isDigit_iff.mp h
  unfold Text.isWhitespace
  simp only [Bool.or_eq_false_iff, Bool.and_eq_false_iff, decide_eq_false_iff_not,
    beq_eq_false_iff_ne, ne_eq]
  omega

/-- A text with no blank at its ends is what is left of it between blanks. -/
theorem trimChars_framed {l : List Char} (hfirst : ∀ c ∈ l.head?, Text.isWhitespace c = false)
    (hlast : ∀ c ∈ l.getLast?, Text.isWhitespace c = false) :
    Text.trimChars (' ' :: (l ++ [' '])) = l ∧ Text.trimChars (' ' :: l) = l := by
  have hblank : Text.isWhitespace ' ' = true := by decide
  have hfront : ∀ rest : List Char, (l ++ rest).dropWhile Text.isWhitespace = l ++ rest ∨ l = [] :=
    fun rest => by
      cases l with
      | nil => exact .inr rfl
      | cons c l => exact .inl (by simp [hfirst c rfl])
  have hback : l.reverse.dropWhile Text.isWhitespace = l.reverse := by
    rcases List.eq_nil_or_concat l with rfl | ⟨l, d, rfl⟩
    · rfl
    · rw [List.concat_eq_append, List.reverse_concat]
      refine List.dropWhile_cons_of_neg ?_
      rw [hlast d (by simp)]
      exact Bool.false_ne_true
  constructor
  · rcases hfront [' '] with hl | rfl
    · simp only [Text.trimChars, List.dropWhile_cons, hblank, if_true, hl, List.reverse_append,
        List.reverse_singleton, List.singleton_append, hback, List.reverse_reverse]
    · decide
  · rcases hfront [] with hl | rfl
    · rw [List.append_nil] at hl
      simp only [Text.trimChars, List.dropWhile_cons, hblank, if_true, hl, hback,
        List.reverse_reverse]
    · decide

/-- A text without blanks between two blanks is trimmed to itself. -/
theorem trimChars_padded {l : List Char} (h : ∀ c ∈ l, Text.isWhitespace c = false) :
    Text.trimChars (' ' :: (l ++ [' '])) = l ∧ Text.trimChars (' ' :: l) = l :=
  trimChars_framed (fun c hc => h c (List.mem_of_mem_head? hc))
    fun c hc => h c (List.mem_of_getLast? hc)

theorem isDigit_of_mem_toString {n : Nat} {c : Char} (h : c ∈ (toString (n : Int)).toList) :
    c.isDigit = true := by
  rw [Decimal.toList_toString_natCast] at h
  exact Nat.isDigit_of_mem_toDigits (b := 10) (by omega) (by omega) h

/-- A number within 64 bits is read back from its decimal text. -/
theorem parseSigned_toString {n : Nat} (h : n ≤ 2 ^ 63 - 1) :
    Text.parseSigned (2 ^ 63 - 1) (toString (n : Int)).toList = some (n : Int) := by
  have hvalue : Text.value (Nat.toDigits 10 n) = n := Nat.ofDigitChars_ten_toDigits
  rw [Decimal.toList_toString_natCast, Text.parseSigned_eq_some]
  refine .inl ⟨_, .inl rfl, ⟨Nat.toDigits_ne_nil, fun c hc => ?_⟩, by rwa [hvalue], by rw [hvalue]⟩
  exact Nat.isDigit_of_mem_toDigits (b := 10) (by omega) (by omega) hc

/-! ## Markers -/

/-- An occurrence of a word in two texts laid end to end lies in the first, or ends in the
second. -/
theorem infix_append_cases {m a b : List Char} {c : Char} (h : m ++ [c] <:+: a ++ b) :
    m ++ [c] <:+: a ∨ ∃ b₁ b₂, b = b₁ ++ c :: b₂ ∧ m <:+ a ++ b₁ := by
  obtain ⟨front, back, heq⟩ := h
  rcases List.append_eq_append_iff.mp heq with ⟨rest, ha, -⟩ | ⟨rest, hfront, hb⟩
  · exact .inl ⟨front, rest, ha.symm⟩
  · rcases List.eq_nil_or_concat rest with rfl | ⟨b₁, d, rfl⟩
    · exact .inl ⟨front, [], by simpa using hfront⟩
    · right
      rw [List.concat_eq_append, ← List.append_assoc] at hfront
      rw [← List.append_assoc] at hfront
      obtain ⟨hm, hd⟩ := List.append_inj' hfront rfl
      obtain rfl := (List.cons.inj hd).1
      exact ⟨b₁, back, by simpa using hb, front, hm⟩

/-- A marker with a colon at its end is not there when the only colon stands behind a word that the
marker does not end. -/
theorem not_marker_behind {pre m word rest : List Char} (hpre : ¬ m ++ [':'] <:+: pre)
    (hlen : m.length ≤ word.length) (hword : ¬ m <:+ word) (hw : ':' ∉ word) (hrest : ':' ∉ rest) :
    ¬ m ++ [':'] <:+: pre ++ (word ++ ':' :: rest) := by
  intro hfound
  rcases infix_append_cases hfound with hfound | ⟨b₁, b₂, hb, hsuffix⟩
  · exact hpre hfound
  · obtain ⟨rfl, -, -⟩ := (List.append_cons_inj_of_notMem hw hrest).mp hb
    exact hword (List.suffix_of_suffix_length_le hsuffix (List.suffix_append _ _) hlen)

variable [Platform]

/-- A marker is not in a thrown text that has another word and no colon behind that. -/
theorem splitOnce_thrown (event : SchemaEvent) (marker word : String) {rest : String}
    {m : List Char} (hmarker : marker.toList = m ++ [':']) (hmem : marker ∈ throwMarkers)
    (hname : marker ≠ event.name)
    (hlen : m.length ≤ word.toList.length) (hword : ¬ m <:+ word.toList)
    (hw : ':' ∉ word.toList) (hrest : ':' ∉ rest.toList) :
    Text.splitOnce marker (Platform.throwPrefix event ++ (word ++ ":" ++ rest)) = none := by
  have hpre := Platform.throwPrefix_unmarked event marker hmem hname
  rw [hmarker] at hpre
  have hno := not_marker_behind hpre hlen hword hw hrest
  rw [Text.splitOnce, Text.splitOnceChars_none]
  · rfl
  · simp only [String.toList_append, hmarker]
    rw [show ":".toList = [':'] by decide, List.append_assoc, List.singleton_append]
    exact hno

/-- What the cap event throws reaches the client as `duesCapExceeded`. -/
theorem mapDbError_duesCapExceeded {rest : String} (h : ':' ∉ rest.toList) :
    mapDbError (.thrown .contributionDuesCap ("dues_cap_exceeded:" ++ rest)) =
      .duesCapExceeded (centsOfThrow rest 0) (centsOfThrow rest 1) := by
  have hlocked : "period_locked:".toList = "period_locked".toList ++ [':'] := by decide
  have hcap : "dues_cap_exceeded:".toList = "dues_cap_exceeded".toList ++ [':'] := by decide
  have hpre := Platform.throwPrefix_unmarked .contributionDuesCap "dues_cap_exceeded:" (by decide)
    (by decide)
  have hlock := splitOnce_thrown .contributionDuesCap "period_locked:" "dues_cap_exceeded" hlocked
    (by decide) (by decide) (by decide) (by decide) (by decide) h
  rw [show "dues_cap_exceeded" ++ ":" = "dues_cap_exceeded:" by decide] at hlock
  simp only [mapDbError, DbError.toText, hlock, splitOnce_marker hcap (by decide) hpre]

/-- What the event of the seed throws reaches the client as `carryForwardExists`. -/
theorem mapDbError_immutable (rest : String) (h : ':' ∉ rest.toList) :
    mapDbError (.thrown .carryForwardImmutable ("carry_forward_immutable:" ++ rest)) =
      .carryForwardExists := by
  have hlocked : "period_locked:".toList = "period_locked".toList ++ [':'] := by decide
  have hcap : "dues_cap_exceeded:".toList = "dues_cap_exceeded".toList ++ [':'] := by decide
  have hseed : "carry_forward_immutable" ++ ":" = "carry_forward_immutable:" := by decide
  have hlock := splitOnce_thrown .carryForwardImmutable "period_locked:" "carry_forward_immutable"
    hlocked (by decide) (by decide) (by decide) (by decide) (by decide) h
  have hdues := splitOnce_thrown .carryForwardImmutable "dues_cap_exceeded:"
    "carry_forward_immutable" hcap (by decide) (by decide) (by decide) (by decide) (by decide) h
  have hfound : Text.contains (Platform.throwPrefix .carryForwardImmutable ++
      ("carry_forward_immutable" ++ ":" ++ rest)) "carry_forward_immutable" = true := by
    refine Text.contains_of_infix
      ⟨(Platform.throwPrefix .carryForwardImmutable).toList, (":" ++ rest).toList, ?_⟩
    simp only [String.toList_append, List.append_assoc]
  rw [hseed] at hlock hdues hfound
  simp only [mapDbError, DbError.toText, hlock, hdues, hfound, if_true]

/-! ## Amounts and periods -/

omit [Platform] in
/-- The two amounts of the cap event are read back. -/
theorem centsOfThrow_amounts {paid dues : Nat} (hpaid : paid ≤ 2 ^ 63 - 1)
    (hdues : dues ≤ 2 ^ 63 - 1) :
    centsOfThrow (" " ++ (toString (paid : Int) ++ (" > " ++ toString (dues : Int)))) 0 = paid ∧
      centsOfThrow (" " ++ (toString (paid : Int) ++ (" > " ++ toString (dues : Int)))) 1 =
        dues := by
  have hnone : ∀ n : Nat, ∀ c ∈ (toString (n : Int)).toList,
      Text.isWhitespace c = false ∧ c ≠ '>' := fun n c hc => by
    have hdigit := isDigit_of_mem_toString hc
    refine ⟨isWhitespace_of_isDigit hdigit, ?_⟩
    rintro rfl
    cases hdigit
  have htext : (" " ++ (toString (paid : Int) ++ (" > " ++ toString (dues : Int)))).toList =
      (' ' :: ((toString (paid : Int)).toList ++ [' '])) ++
        '>' :: (' ' :: (toString (dues : Int)).toList) := by
    simp only [String.toList_append]
    rw [show " ".toList = [' '] by decide, show " > ".toList = [' ', '>', ' '] by decide]
    simp
  have hpieces : (" " ++ (toString (paid : Int) ++ (" > " ++ toString (dues : Int)))).toList.splitOn
      '>' = [' ' :: ((toString (paid : Int)).toList ++ [' ']),
        ' ' :: (toString (dues : Int)).toList] := by
    rw [htext, List.splitOn_append_cons_self, List.splitOn_eq_singleton,
      List.splitOn_eq_singleton]
    · rfl
    · intro hmem
      rcases List.mem_cons.mp hmem with heq | hmem
      · cases heq
      · exact (hnone dues _ hmem).2 rfl
    · intro hmem
      simp only [List.mem_cons, List.mem_append, List.not_mem_nil, or_false] at hmem
      rcases hmem with heq | hmem | heq
      · cases heq
      · exact (hnone paid _ hmem).2 rfl
      · cases heq
  have hblank : ∀ n : Nat, ∀ c ∈ (toString (n : Int)).toList, Text.isWhitespace c = false :=
    fun n c hc => (hnone n c hc).1
  constructor
  · simp only [centsOfThrow, hpieces, List.getElem?_cons_zero, (trimChars_padded (hblank paid)).1,
      parseSigned_toString hpaid, Option.getD_some]
  · simp only [centsOfThrow, hpieces, List.getElem?_cons_succ, List.getElem?_cons_zero,
      (trimChars_padded (hblank dues)).2, parseSigned_toString hdues, Option.getD_some]

/-- A row that breaks the cap is reported with the sum that breaks it and the dues. -/
theorem mapDbError_duesCap {ns : Namespace} {after : Contribution} {e : DbError}
    (h : contributionDuesCap ns after = .error e) :
    ∃ settings, ns.settings = some settings ∧ 0 < settings.duesAmountCents ∧
      settings.duesAmountCents < mathSum ns.contribution.rows after.userEmail after.period ∧
      mapDbError e =
        .duesCapExceeded (mathSum ns.contribution.rows after.userEmail after.period)
          settings.duesAmountCents := by
  unfold contributionDuesCap at h
  split at h
  · cases h
  · cases hs : ns.settings with
    | none => simp [hs] at h
    | some settings =>
        simp only [hs] at h
        split at h
        · next hover =>
            obtain ⟨hdues, hpaid⟩ := hover
            refine ⟨settings, rfl, hdues, hpaid, ?_⟩
            -- a machine sum fits, and so do the smaller dues
            have hfits : I64.Fits (mathSum ns.contribution.rows after.userEmail after.period) :=
              mathSum_eq_wrap .. ▸ I64.fits_wrap _
            obtain ⟨paid, hpaid'⟩ := Int.eq_ofNat_of_zero_le (hdues.trans hpaid).le
            obtain ⟨dues, hdues'⟩ := Int.eq_ofNat_of_zero_le hdues.le
            rw [hpaid', hdues'] at h ⊢
            rw [hpaid', hdues'] at hpaid
            rw [hpaid'] at hfits
            have hcolon : ':' ∉
                (" " ++ (toString (paid : Int) ++ (" > " ++ toString (dues : Int)))).toList := by
              intro hmem
              simp only [String.toList_append, List.mem_append] at hmem
              rcases hmem with hmem | hmem | hmem | hmem
              · exact absurd hmem (by decide)
              · cases isDigit_of_mem_toString hmem
              · exact absurd hmem (by decide)
              · cases isDigit_of_mem_toString hmem
            unfold I64.Fits I64.maxValue at hfits
            have hpaidFits : paid ≤ 2 ^ 63 - 1 := by omega
            have hduesFits : dues ≤ 2 ^ 63 - 1 := by omega
            obtain ⟨hreadPaid, hreadDues⟩ := centsOfThrow_amounts hpaidFits hduesFits
            rw [← Except.error.inj h, show "dues_cap_exceeded: " = "dues_cap_exceeded:" ++ " " by
              decide, String.append_assoc, String.append_assoc, String.append_assoc,
              mapDbError_duesCapExceeded hcolon, hreadPaid, hreadDues]
        · cases h

omit [Platform] in
/-- No blank and no comparison sign is in a period of the schema. -/
theorem plain_of_period {period : String} (h : isPeriodText period = true) :
    ∀ c ∈ period.toList, Text.isWhitespace c = false ∧ c ≠ '<' := by
  intro c hc
  rcases isPeriodText_chars h c hc with hdigit | rfl | rfl
  · refine ⟨isWhitespace_of_isDigit hdigit, ?_⟩
    rintro rfl
    cases hdigit
  · decide
  · decide

omit [Platform] in
/-- The period in front of the comparison sign is read back. -/
theorem periodOfThrow_lock {period : String} (h : isPeriodText period = true) (rest : String) :
    periodOfThrow (" " ++ (period ++ (" < " ++ rest))) = period := by
  have hplain := plain_of_period h
  have hpad : (" " ++ (period ++ " ")).toList = ' ' :: (period.toList ++ [' ']) := by
    simp only [String.toList_append]
    rw [show " ".toList = [' '] by decide]
    rfl
  have hsign : ∀ c ∈ (" " ++ (period ++ " ")).toList, (c != '<') = true := by
    intro c hc
    rw [hpad, List.mem_cons, List.mem_append, List.mem_singleton] at hc
    rcases hc with rfl | hc | rfl
    · decide
    · exact bne_iff_ne.mpr (hplain c hc).2
    · decide
  have htext : (" " ++ (period ++ (" < " ++ rest))).toList =
      (" " ++ (period ++ " ")).toList ++ '<' :: ' ' :: rest.toList := by
    simp only [String.toList_append]
    rw [show " < ".toList = [' ', '<', ' '] by decide, show " ".toList = [' '] by decide]
    simp
  have htake : ((" " ++ (period ++ " ")).toList ++ '<' :: ' ' :: rest.toList).takeWhile
      (· != '<') = (" " ++ (period ++ " ")).toList := by
    rw [List.takeWhile_append_of_pos hsign, List.takeWhile_cons_of_neg (by decide),
      List.append_nil]
  rw [periodOfThrow, htext, htake, hpad, (trimChars_padded fun c hc => (hplain c hc).1).1,
    String.ofList_toList]

/-- A locked row is reported with its period. -/
theorem mapDbError_lock {now : DateTime} {after : Contribution} {e : DbError}
    (h : contributionLockCheck now after = .error e) (hperiod : isPeriodText after.period = true) :
    after.Past now ∧ mapDbError e = .periodLocked after.period := by
  unfold contributionLockCheck at h
  dsimp only at h
  split at h
  · next hpast =>
      refine ⟨hpast, ?_⟩
      rw [← Except.error.inj h, show "period_locked: " = "period_locked:" ++ " " by decide,
        String.append_assoc, String.append_assoc, String.append_assoc, mapDbError_periodLocked,
        periodOfThrow_lock hperiod]
  · cases h

end SharamLedger
