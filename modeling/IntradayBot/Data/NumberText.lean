import IntradayBot.Data.PyText
import IntradayBot.Data.Trim

/-!
# Two readers of numbers

Python's `float(text)` and JavaScript's `Number(text)` read the same number from a *plain* text
(`Plain`), where it is finite (`parseNumber_of_plain`), and `Number` reads none from any other
text (`plain_of_parseNumber`).
-/

namespace IntradayBot

open PyText

/-- A text that only uses what both readers of numbers know: it has no underscore, no digit
    of another script than ASCII, and no `NEL` (U+0085). -/
def Plain (text : String) : Prop :=
  ∀ c ∈ text.toList, c ≠ '_' ∧ c ≠ '\x85' ∧ asciiDigit c = c

instance (text : String) : Decidable (Plain text) := List.decidableBAll _ _

/-! ## Characters -/

theorem char_forall {P : Char → Prop} {codes : List ℕ} (h : ∀ n ∈ codes, P (Char.ofNat n)) {c : Char}
    (hc : c.toNat ∈ codes) : P c := by
  have hP := h c.toNat hc
  rwa [Char.ofNat_toNat] at hP

/-- What `Plain` asks of a character. -/
abbrev PlainChar (c : Char) : Prop := c ≠ '_' ∧ c ≠ '\x85' ∧ asciiDigit c = c

theorem plainChar_of_ascii {c : Char} (h : c.toNat < 128) (hc : c ≠ '_') : PlainChar c := by
  have hall : ∀ n ∈ List.range 128, Char.ofNat n ≠ '_' → PlainChar (Char.ofNat n) := by
    decide +kernel
  exact char_forall (P := fun c => c ≠ '_' → PlainChar c) hall (List.mem_range.2 h) hc

/-- The blanks of JavaScript, in the order of their code points. -/
def blanks : List ℕ :=
  [9, 10, 11, 12, 13, 32, 0xa0, 0x1680, 0x2000, 0x2001, 0x2002, 0x2003, 0x2004, 0x2005, 0x2006,
    0x2007, 0x2008, 0x2009, 0x200a, 0x2028, 0x2029, 0x202f, 0x205f, 0x3000, 0xfeff]

theorem mem_blanks_of_isBlank {c : Char} (h : Json.isBlank c) : c.toNat ∈ blanks := by
  simp only [Json.isBlank, decide_eq_true_eq] at h
  simp only [blanks, List.mem_cons, List.not_mem_nil]
  omega

theorem plainChar_of_isBlank {c : Char} (h : Json.isBlank c) : PlainChar c := by
  have hall : ∀ n ∈ blanks, PlainChar (Char.ofNat n) := by decide +kernel
  exact char_forall hall (mem_blanks_of_isBlank h)

/-- What `float` skips and `Plain` allows is skipped by `Number`. -/
theorem isBlank_of_isFloatSpace {c : Char} (h : isFloatSpace c) (hc : c ≠ '\x85') :
    Json.isBlank c := by
  have hne : c.toNat ≠ 0x85 := fun h' => hc (by rw [← Char.ofNat_toNat c, h'])
  simp only [isFloatSpace, isSpace, decide_eq_true_eq] at h
  simp only [Json.isBlank, decide_eq_true_eq]
  omega

theorem isAlphanum_ascii {c : Char} (h : c.isAlphanum) : c.toNat < 128 ∧ c ≠ '_' := by
  refine ⟨?_, by rintro rfl; revert h; decide⟩
  have hle : c.val ≤ 122 := by
    change (decide (c.val ≥ 'A'.val ∧ c.val ≤ 'Z'.val) ||
      decide (c.val ≥ 'a'.val) && decide (c.val ≤ 'z'.val) ||
      decide (c.val ≥ '0'.val) && decide (c.val ≤ '9'.val)) = true at h
    simp only [Bool.or_eq_true, Bool.and_eq_true, decide_eq_true_eq] at h
    rcases h with (h | h) | h
    · exact UInt32.le_trans h.2 (by decide)
    · exact h.2
    · exact UInt32.le_trans h.2 (by decide)
  exact lt_of_le_of_lt (UInt32.le_iff_toNat_le.1 hle) (by decide)

/-- The characters of a number. -/
def isNumberChar (c : Char) : Bool :=
  c.isDigit || c = '.' || c = 'e' || c = 'E' || c = '+' || c = '-'

theorem isNumberChar_ascii {c : Char} (h : isNumberChar c) : c.toNat < 128 ∧ c ≠ '_' := by
  simp only [isNumberChar, Bool.or_eq_true, decide_eq_true_eq] at h
  rcases h with ((((h | rfl) | rfl) | rfl) | rfl) | rfl
  · exact isAlphanum_ascii (by simp [Char.isAlphanum, h])
  all_goals decide

/-- A character that is no blank, nor in the prefix of a base. -/
abbrev Inner (c : Char) : Prop := ¬Json.isBlank c ∧ c ∉ ['x', 'X', 'o', 'O', 'b', 'B']

theorem inner_of_codes {P : Char → Prop}
    (h : ∀ n ∈ blanks ++ [120, 88, 111, 79, 98, 66], ¬P (Char.ofNat n)) {c : Char} (hc : P c) :
    Inner c := by
  refine ⟨fun hb => ?_, fun hx => ?_⟩
  · exact char_forall (P := fun c => ¬P c) h
      (List.mem_append_left _ (mem_blanks_of_isBlank hb)) hc
  · have hmem : c.toNat ∈ [120, 88, 111, 79, 98, 66] := by
      simp only [List.mem_cons, List.not_mem_nil, or_false] at hx
      rcases hx with rfl | rfl | rfl | rfl | rfl | rfl <;> decide
    exact char_forall (P := fun c => ¬P c) h (List.mem_append_right _ hmem) hc

theorem inner_of_isNumberChar {c : Char} (h : isNumberChar c) : Inner c :=
  inner_of_codes (P := fun c => isNumberChar c) (by decide +kernel) h

/-! ## The characters of what is read -/

theorem digits_chars {l : List Char} {acc n : ℕ} (h : Json.digits acc l = some n) :
    ∀ c ∈ l, c.isDigit := by
  induction l generalizing acc with
  | nil => simp
  | cons c l ih =>
    unfold Json.digits at h
    split at h
    · rename_i hc
      simpa [hc] using ih h
    · simp at h

theorem unsigned_chars {l : List Char} {q : ℚ} (h : Json.unsigned l = some q) :
    ∀ c ∈ l, c.isDigit ∨ c = '.' := by
  have hl := List.takeWhile_append_dropWhile (p := (· ≠ '.')) (l := l)
  unfold Json.unsigned at h
  dsimp only at h
  split at h
  · rename_i hd
    split at h
    · simp at h
    · obtain ⟨n, hn, -⟩ := Option.map_eq_some_iff.1 h
      rw [hd, List.append_nil] at hl
      rw [← hl]
      exact fun c hc => .inl (digits_chars hn c hc)
  · rename_i dot fraction hd
    split at h
    · simp at h
    · obtain ⟨x, hx, -⟩ := Option.map_eq_some_iff.1 h
      obtain ⟨n, hn, -⟩ := Option.bind_eq_some_iff.1 hx
      -- What stops the whole part is the point itself: `takeWhile` ran to it.
      have hdot : dot = '.' := by
        have hnot := List.head?_dropWhile_not (· ≠ '.') l
        rw [hd] at hnot
        simpa using hnot
      intro c hc
      rw [← hl, hd, hdot, List.mem_append, List.mem_cons] at hc
      rcases hc with hc | rfl | hc
      · exact .inl (digits_chars hn c (List.mem_append_left _ hc))
      · exact .inr rfl
      · exact .inl (digits_chars hn c (List.mem_append_right _ hc))

theorem exponent_chars {l : List Char} {n : ℕ} (h : Json.exponent l = some n) :
    ∀ c ∈ l, c.isDigit := by
  unfold Json.exponent at h
  split at h
  · simp at h
  · exact digits_chars h

theorem scientific_chars {l : List Char} {q : ℚ} (h : Json.scientific l = some q) :
    ∀ c ∈ l, isNumberChar c := by
  -- the mantissa, the letter, the sign of the exponent if any, and the exponent
  have hdigit : ∀ c : Char, c.isDigit → isNumberChar c := fun c hc => by simp [isNumberChar, hc]
  have hmantissa : ∀ {l : List Char} {q : ℚ}, Json.unsigned l = some q → ∀ c ∈ l, isNumberChar c := by
    intro l q h c hc
    rcases unsigned_chars h c hc with hd | rfl
    · exact hdigit c hd
    · decide
  have hexponent : ∀ {l : List Char} {n : ℕ}, Json.exponent l = some n → ∀ c ∈ l, isNumberChar c :=
    fun h c hc => hdigit c (exponent_chars h c hc)
  have hl := List.takeWhile_append_dropWhile (p := fun c => !(c = 'e' || c = 'E')) (l := l)
  have hE : ∀ {c : Char} {e : List Char}, l.dropWhile (fun c => !(c = 'e' || c = 'E')) = c :: e →
      isNumberChar c := by
    intro c e hd
    have hnot := List.head?_dropWhile_not (fun c => !(c = 'e' || c = 'E')) l
    rw [hd] at hnot
    simp only [List.head?_cons, Bool.not_eq_false', Bool.or_eq_true, decide_eq_true_eq] at hnot
    rcases hnot with rfl | rfl <;> decide
  unfold Json.scientific at h
  dsimp only at h
  rw [← hl]
  simp only [List.mem_append]
  split at h
  · rename_i hd
    rw [hd]
    rintro c (hc | hc)
    · exact hmantissa h c hc
    · simp at hc
  all_goals
    rename_i c e hd
    obtain ⟨m, hm, h⟩ := Option.bind_eq_some_iff.1 h
    obtain ⟨n, hn, -⟩ := Option.bind_eq_some_iff.1 h
    rw [hd]
    rintro x (hx | hx)
    · exact hmantissa hm x hx
    · simp only [List.mem_cons] at hx
      rcases hx with rfl | hx
      · exact hE hd
      · first
        | exact hx.elim (fun hx => hx ▸ by decide) (hexponent hn x)
        | exact hexponent hn x hx

theorem radixDigits_chars {base acc n : ℕ} {l : List Char} (h : Json.radixDigits base acc l = some n) :
    ∀ c ∈ l, c.isAlphanum := by
  induction l generalizing acc with
  | nil => simp
  | cons c l ih =>
    unfold Json.radixDigits at h
    obtain ⟨⟨hc, -⟩, h⟩ := Option.ite_none_right_eq_some.1 h
    simpa [hc] using ih h

theorem signed_chars {P : Char → Prop} {l : List Char} (hminus : P '-') (hplus : P '+')
    (h : ∀ c ∈ (Json.signed l).2, P c) : ∀ c ∈ l, P c := by
  unfold Json.signed at h
  split at h
  · simpa [hminus] using h
  · simpa [hplus] using h
  · exact h

/-! ## The two readers -/

theorem plainChar_of_isNumberChar {c : Char} (h : isNumberChar c) : PlainChar c :=
  plainChar_of_ascii (isNumberChar_ascii h).1 (isNumberChar_ascii h).2

/-- The characters of a number with a prefix. -/
theorem radix_chars {l ds : List Char} {base n : ℕ} (h : Json.radix l = some (base, ds))
    (hn : Json.radixDigits base 0 ds = some n) : ∀ c ∈ l, c.isAlphanum := by
  have hds := radixDigits_chars hn
  unfold Json.radix at h
  split at h
  all_goals
    simp only [Option.some.injEq, Prod.mk.injEq, reduceCtorEq] at h
  all_goals
    obtain ⟨-, rfl⟩ := h
    simpa using hds

theorem parseNumber_eq (text : String) :
    Json.parseNumber text =
      if trimBy Json.isBlank text.toList = [] then some 0
      else match Json.radix (trimBy Json.isBlank text.toList) with
        | some (base, l) =>
          if l = [] then none else (Json.radixDigits base 0 l).bind fun n => Json.asDouble n
        | none =>
          (Json.scientific (Json.signed (trimBy Json.isBlank text.toList)).2).bind fun q =>
            Json.asDouble ((Json.signed (trimBy Json.isBlank text.toList)).1 * q) := rfl

/-- `Number` only reads plain texts. -/
theorem plain_of_parseNumber {text : String} {q : ℚ} (h : Json.parseNumber text = some q) :
    Plain text := by
  obtain ⟨a, b, hl, ha, hb⟩ := trimBy_split Json.isBlank text.toList
  have hcore : ∀ c ∈ trimBy Json.isBlank text.toList, PlainChar c := by
    -- The core is empty, a literal with a radix, or a decimal: ASCII characters in each case.
    rw [parseNumber_eq] at h
    generalize trimBy Json.isBlank text.toList = l at h
    split at h
    · simp_all
    · split at h
      · rename_i base ds hr
        split at h
        · simp at h
        · obtain ⟨n, hn, -⟩ := Option.bind_eq_some_iff.1 h
          intro c hc
          have hascii := isAlphanum_ascii (radix_chars hr hn c hc)
          exact plainChar_of_ascii hascii.1 hascii.2
      · obtain ⟨r, hr, -⟩ := Option.bind_eq_some_iff.1 h
        exact signed_chars (by decide +kernel) (by decide +kernel) fun c hc =>
          plainChar_of_isNumberChar (scientific_chars hr c hc)
  intro c hc
  rw [hl, List.mem_append, List.mem_append] at hc
  rcases hc with (hc | hc) | hc
  · exact plainChar_of_isBlank (ha c hc)
  · exact hcore c hc
  · exact plainChar_of_isBlank (hb c hc)

theorem radix_eq_none {l : List Char} (h : ∀ c ∈ l, Inner c) : Json.radix l = none := by
  unfold Json.radix
  split
  all_goals first | rfl | simp [Inner] at h

/-- The names of what is no finite number. -/
def specials : List (List Char) := ["inf".toList, "infinity".toList, "nan".toList]

theorem inner_of_special {l : List Char} (h : l.map Char.toLower ∈ specials) :
    ∀ c ∈ l, Inner c := by
  intro c hc
  have hletters : specials.all fun w => w.all fun c => c ∈ "infinitya".toList := by decide
  have hletter : c.toLower ∈ "infinitya".toList := by
    have hword := List.all_eq_true.1 hletters _ h
    exact of_decide_eq_true (List.all_eq_true.1 hword _ (List.mem_map_of_mem hc))
  exact inner_of_codes (P := fun c => c.toLower ∈ "infinitya".toList) (by decide +kernel) hletter

theorem scientific_special {l : List Char} (h : l.map Char.toLower ∈ specials) :
    Json.scientific l = none := by
  rw [Option.eq_none_iff_forall_ne_some]
  intro q hq
  have hn : ∀ w ∈ specials, 'n' ∈ w := by decide
  obtain ⟨c, hc, hlower⟩ := List.mem_map.1 (hn _ h)
  have hnumber := scientific_chars hq c hc
  have hall : ∀ n ∈ List.range 128, isNumberChar (Char.ofNat n) → (Char.ofNat n).toLower ≠ 'n' := by
    decide +kernel
  exact char_forall (P := fun c => isNumberChar c → c.toLower ≠ 'n') hall
    (List.mem_range.2 (isNumberChar_ascii hnumber).1) hnumber hlower

theorem dropUnderscores_of_plain {l : List Char} {previous : Char} (hp : previous ≠ '_')
    (h : ∀ c ∈ l, c ≠ '_') : dropUnderscores previous l = some l := by
  induction l generalizing previous with
  | nil => simp [dropUnderscores, hp]
  | cons c l ih =>
    simp only [List.mem_cons, forall_eq_or_imp] at h
    simp [dropUnderscores, h.1, hp, ih h.1 h.2]

/-- What `float` reads from a plain text. -/
theorem floatOfText_of_plain {text : String} (h : Plain text) :
    floatOfText text =
      let l := trimBy isFloatSpace text.toList
      let lower := (Json.signed l).2.map Char.toLower
      if lower ∈ ["inf".toList, "infinity".toList] then some (.inf ((Json.signed l).1 < 0))
      else if lower = "nan".toList then some .nan
      else (Json.scientific (Json.signed l).2).map fun q => ofRat ((Json.signed l).1 * q) := by
  obtain ⟨a, b, hl, -, -⟩ := trimBy_split isFloatSpace text.toList
  have hcore : ∀ c ∈ trimBy isFloatSpace text.toList, PlainChar c := fun c hc =>
    h c (by rw [hl]; simp [hc])
  have hmap : (trimBy isFloatSpace text.toList).map asciiDigit = trimBy isFloatSpace text.toList :=
    (List.map_congr_left fun c hc => (hcore c hc).2.2).trans (List.map_id' _)
  have hread : floatOfText text =
      (dropUnderscores ' ' ((trimBy isFloatSpace text.toList).map asciiDigit)).bind fun l =>
        if (Json.signed l).2.map Char.toLower ∈ ["inf".toList, "infinity".toList] then
          some (.inf ((Json.signed l).1 < 0))
        else if (Json.signed l).2.map Char.toLower = "nan".toList then some .nan
        else (Json.scientific (Json.signed l).2).bind fun q =>
          some (ofRat ((Json.signed l).1 * q)) := rfl
  rw [hread, hmap, dropUnderscores_of_plain (by decide) fun c hc => (hcore c hc).1]
  simp only [Option.bind_some, Option.map_eq_bind]
  rfl

/-- The number of a double that is finite. -/
def toRat : Double → Option ℚ
  | .finite q => some q
  | .inf _ | .nan => none

theorem toRat_ofRat (q : ℚ) : toRat (ofRat q) = Json.asDouble q := by
  unfold ofRat
  split
  · rename_i hq
    exact hq.symm
  · rename_i hq
    exact hq.symm

/-- What `Number` reads from a plain text whose characters, but for the blanks around them,
    are those of a number or of a special name. -/
theorem parseNumber_of_inner {text : String} (h : Plain text)
    (hi : ∀ c ∈ (Json.signed (trimBy isFloatSpace text.toList)).2, Inner c)
    (hne : trimBy isFloatSpace text.toList ≠ []) :
    Json.parseNumber text =
      (Json.scientific (Json.signed (trimBy isFloatSpace text.toList)).2).bind fun q =>
        Json.asDouble ((Json.signed (trimBy isFloatSpace text.toList)).1 * q) := by
  have hinner : ∀ c ∈ trimBy isFloatSpace text.toList, Inner c :=
    signed_chars (by decide) (by decide) hi
  have htrim : trimBy Json.isBlank text.toList = trimBy isFloatSpace text.toList :=
    trimBy_eq_of_split (fun c hc hs => isBlank_of_isFloatSpace hs (h c hc).2.1)
      fun c hc => (hinner c hc).1
  rw [parseNumber_eq, htrim, if_neg hne, radix_eq_none hinner]

/-- `float` and `Number` read the same from a plain text. -/
theorem parseNumber_of_plain {text : String} {x : Double} (h : Plain text)
    (hx : floatOfText text = some x) : Json.parseNumber text = toRat x := by
  rw [floatOfText_of_plain h] at hx
  dsimp only at hx
  have hread := parseNumber_of_inner h
  generalize trimBy isFloatSpace text.toList = l at hx hread
  have hspecial : (Json.signed l).2.map Char.toLower ∈ specials →
      Json.parseNumber text = none := by
    intro hs
    have hne : l ≠ [] := by
      rintro rfl
      revert hs
      decide
    rw [hread (inner_of_special hs) hne, scientific_special hs]
    rfl
  -- Python's specials have no rational value; JavaScript reads some of them as infinities.
  split at hx
  · rename_i hs
    obtain rfl := Option.some.inj hx
    exact hspecial (List.mem_append_left ["nan".toList] hs)
  · split at hx
    · rename_i hs
      obtain rfl := Option.some.inj hx
      exact hspecial (by simp [specials, hs])
    · obtain ⟨q, hq, rfl⟩ := Option.map_eq_some_iff.1 hx
      have hne : l ≠ [] := by
        rintro rfl
        simp [Json.signed, Json.scientific, Json.unsigned] at hq
      rw [hread (fun c hc => inner_of_isNumberChar (scientific_chars hq c hc)) hne, hq, toRat_ofRat]
      rfl

/-! ## Numbers without sign -/

/-- A text starts with a digit. -/
def StartsWithDigit (text : String) : Prop := ∃ c l, text.toList = c :: l ∧ c.isDigit

theorem StartsWithDigit.append {text : String} (h : StartsWithDigit text) (rest : String) :
    StartsWithDigit (text ++ rest) := by
  obtain ⟨c, l, hl, hc⟩ := h
  exact ⟨c, l ++ rest.toList, by rw [String.toList_append, hl, List.cons_append], hc⟩

theorem startsWithDigit_repr (n : ℕ) : StartsWithDigit (toString n) := by
  rcases hd : Nat.toDigits 10 n with _ | ⟨c, l⟩
  · exact absurd hd Nat.toDigits_ne_nil
  · refine ⟨c, l, ?_, Nat.isDigit_of_mem_toDigits (by norm_num) le_rfl (hd ▸ List.mem_cons_self)⟩
    rw [Nat.toString_eq_repr, Nat.toList_repr, hd]

theorem padded_one (n : ℕ) : Json.padded 1 n = toString n := by
  rw [Json.padded, Nat.sub_eq_zero_of_le Nat.length_toDigits_pos, Nat.toString_eq_ofList_toDigits]
  rfl

theorem startsWithDigit_decimalText {q : ℚ} (hq : 0 ≤ q) : StartsWithDigit (Json.decimalText q) := by
  obtain ⟨n, hn⟩ := Int.eq_ofNat_of_zero_le (Rat.num_nonneg.2 hq)
  unfold Json.decimalText
  split
  · rw [hn]
    exact ((startsWithDigit_repr n).append "/").append _
  · rw [hn]
    exact startsWithDigit_repr n
  · dsimp only
    rw [padded_one]
    exact ((startsWithDigit_repr _).append ".").append _

/-- The text of a number that is not negative has no sign. -/
theorem startsWithDigit_numberText {q : ℚ} (hq : 0 ≤ q) : StartsWithDigit (Json.numberText q) := by
  rw [Json.numberText, if_neg hq.not_gt, String.empty_append]
  split
  · exact ((startsWithDigit_decimalText
      (div_nonneg (abs_nonneg q) (zpow_nonneg (by norm_num) _))).append _).append _
  · exact startsWithDigit_decimalText (abs_nonneg q)

theorem unsigned_nonneg {l : List Char} {q : ℚ} (h : Json.unsigned l = some q) : 0 ≤ q := by
  unfold Json.unsigned at h
  dsimp only at h
  split at h
  · split at h
    · simp at h
    · obtain ⟨n, -, rfl⟩ := Option.map_eq_some_iff.1 h
      exact n.cast_nonneg
  · split at h
    · simp at h
    · obtain ⟨x, hx, rfl⟩ := Option.map_eq_some_iff.1 h
      obtain ⟨n, -, hn⟩ := Option.bind_eq_some_iff.1 hx
      obtain rfl := Option.some.inj hn
      exact div_nonneg n.cast_nonneg (by positivity)

theorem scientific_nonneg {l : List Char} {q : ℚ} (h : Json.scientific l = some q) : 0 ≤ q := by
  unfold Json.scientific at h
  dsimp only at h
  split at h
  · exact unsigned_nonneg h
  all_goals
    obtain ⟨m, hm, h⟩ := Option.bind_eq_some_iff.1 h
    obtain ⟨n, -, h⟩ := Option.bind_eq_some_iff.1 h
    obtain rfl := Option.some.inj h
    have := unsigned_nonneg hm
    positivity

theorem asDouble_nonneg {q r : ℚ} (h : Json.asDouble q = some r) (hq : 0 ≤ q) : 0 ≤ r := by
  unfold Json.asDouble at h
  split at h
  · simp at h
  · obtain rfl := Option.some.inj h
    split
    · exact le_rfl
    · exact hq

/-- What is read from a text that starts with a digit is not negative. -/
theorem parseNumber_nonneg {text : String} {q : ℚ} (hd : StartsWithDigit text)
    (h : Json.parseNumber text = some q) : 0 ≤ q := by
  obtain ⟨c, l, hl, hc⟩ := hd
  have hinner : Inner c := inner_of_isNumberChar (by simp [isNumberChar, hc])
  -- the digit stays when the blanks are dropped
  obtain ⟨l', hl'⟩ : ∃ l', trimBy Json.isBlank text.toList = c :: l' := by
    rw [hl, trimBy, List.dropWhile_cons_of_neg hinner.1]
    rcases hr : (c :: l).rdropWhile Json.isBlank with _ | ⟨d, l'⟩
    · rw [List.rdropWhile_eq_nil_iff] at hr
      exact absurd (hr c List.mem_cons_self) hinner.1
    · obtain ⟨t, ht⟩ := List.rdropWhile_prefix Json.isBlank (c :: l)
      rw [hr] at ht
      exact ⟨l', by rw [(List.cons.inj ht).1]⟩
  rw [parseNumber_eq, hl', if_neg (List.cons_ne_nil c l')] at h
  split at h
  · split at h
    · simp at h
    · obtain ⟨n, -, hn⟩ := Option.bind_eq_some_iff.1 h
      exact asDouble_nonneg hn n.cast_nonneg
  · obtain ⟨r, hr, hn⟩ := Option.bind_eq_some_iff.1 h
    have hsign : (Json.signed (c :: l')).1 = 1 := by
      unfold Json.signed
      split
      · rename_i heq
        rw [(List.cons.inj heq).1] at hc
        exact absurd hc (by decide)
      · rfl
      · rfl
    rw [hsign, one_mul] at hn
    exact asDouble_nonneg hn (scientific_nonneg hr)

end IntradayBot
