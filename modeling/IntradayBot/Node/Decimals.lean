import Mathlib.Data.List.TakeWhile
import IntradayBot.Data.Except
import IntradayBot.Data.Numeral
import IntradayBot.Node.Exchange
import IntradayBot.Node.Validator

/-!
# Decimal texts

The service compares quantities by their texts: a text is split at its point (`normalizeDecimal`),
and read as an integer at the scale of the longer fraction (`scaledInteger`). The comparisons are
those of the numbers that the texts write (`decimals_exact`), so the quantity of a plan passes the
rules of its instrument exactly if the number does (`checkQuantity_eq_ok`).
-/

namespace IntradayBot.Node

/-! ## Parts -/

/-- What `normalizeDecimal` returns. -/
structure DecimalParts where
  negative : Bool
  whole : List Char
  fraction : List Char

/-- `text.replace(/^[+-]/, '')` -/
def dropSign : List Char → List Char
  | '+' :: l | '-' :: l => l
  | l => l

/-- `/^(?:\d+\.?\d*|\.\d+)$/` -/
def isUnsigned (l : List Char) : Bool :=
  let whole := l.takeWhile Char.isDigit
  match l.dropWhile Char.isDigit with
  | [] => whole ≠ []
  | c :: fraction => c = '.' && fraction.all Char.isDigit && (whole ≠ [] || fraction ≠ [])

/-- `normalizeDecimal(value)` -/
def normalizeDecimal (value : Option Json) : Except JsError DecimalParts := do
  let text := Json.trim (Json.toText (Json.coalesce value (some (.str ""))))
  let unsigned := dropSign text.toList
  ensure (isUnsigned unsigned) s!"Invalid decimal: {text}"
  let pieces := unsigned.splitOn '.'
  let whole := pieces[0]?.getD ['0']
  return {
    negative := text.toList.head? = some '-'
    whole := if whole = [] then ['0'] else whole
    fraction := pieces[1]?.getD [] }

/-- `text.padEnd(length, '0')` -/
def padEnd (length : ℕ) (text : List Char) : List Char :=
  text ++ List.replicate (length - text.length) '0'

/-- `text.replace(/^0+(?=\d)/, '')` -/
def dropZeros : List Char → List Char
  | '0' :: c :: l => if c.isDigit then dropZeros (c :: l) else '0' :: c :: l
  | l => l

/-- `BigInt(digits)` -/
def bigInt (digits : List Char) : Except JsError ℕ :=
  match Json.digits 0 digits with
  | some n => .ok n
  | none => .error (.error s!"Cannot convert {String.ofList digits} to a BigInt")

/-- `scaledInteger(value, scale)` -/
def scaledInteger (value : Option Json) (scale : ℕ) : Except JsError ℤ := do
  let parsed ← normalizeDecimal value
  let remainder := parsed.fraction.drop scale
  ensure (¬(scale < parsed.fraction.length ∧ remainder.any fun c => '1' ≤ c ∧ c ≤ '9'))
    s!"Decimal {Json.toText value} exceeds supported scale {scale}"
  let digits := dropZeros (parsed.whole ++ (padEnd scale parsed.fraction).take scale)
  let result ← bigInt (if digits = [] then ['0'] else digits)
  return if parsed.negative then -(result : ℤ) else result

/-! ## Comparisons -/

/-- The scale of two decimals. -/
def commonScale (a b : DecimalParts) : ℕ := max a.fraction.length b.fraction.length

/-- `isStepAligned(value, step)` -/
def isStepAligned (value step : Option Json) : Except JsError Bool := do
  let scale := commonScale (← normalizeDecimal value) (← normalizeDecimal step)
  let stepInt ← scaledInteger step scale
  if stepInt ≤ 0 then return false
  else return (← scaledInteger value scale).tmod stepInt = 0

/-- `decimalGte(left, right)` -/
def decimalGte (left right : Option Json) : Except JsError Bool := do
  let scale := commonScale (← normalizeDecimal left) (← normalizeDecimal right)
  let leftInt ← scaledInteger left scale
  let rightInt ← scaledInteger right scale
  return rightInt ≤ leftInt

/-- `decimalLte(left, right)` -/
def decimalLte (left right : Option Json) : Except JsError Bool := do
  let scale := commonScale (← normalizeDecimal left) (← normalizeDecimal right)
  let leftInt ← scaledInteger left scale
  let rightInt ← scaledInteger right scale
  return leftInt ≤ rightInt

/-- The checks of `revalidateLive` on the quantity. -/
def checkQuantity (payload : Json) (instrument : InstrumentRow) : Except JsError Unit := do
  let qty := some (.str (Json.toText (payload.get "qty")))
  let _ ← positiveNumber qty "qty"
  let qtyStep := Json.textOrEmpty instrument.qtyStep
  ensure (qtyStep ≠ "") "Quantity is not aligned to current Bybit qtyStep"
  ensure (← isStepAligned qty (some (.str qtyStep)))
    "Quantity is not aligned to current Bybit qtyStep"
  if Json.truthy instrument.minOrderQty then
    ensure (← decimalGte qty instrument.minOrderQty) "Quantity is below current Bybit minimum"
  let maxMarket := Json.orElse instrument.maxMktOrderQty
    (Json.orElse instrument.maxMarketOrderQty instrument.maxOrderQty)
  if Json.truthy maxMarket then
    ensure (← decimalLte qty maxMarket) "Quantity exceeds current Bybit market maximum"

/-! ## The text of a numeral -/

variable {n m : Numeral} {text left right : String} {scale : ℕ} {a b : ℚ}

theorem dropSign_of_forall {l : List Char} (h : ∀ c ∈ l, c ≠ '+' ∧ c ≠ '-') : dropSign l = l := by
  rw [dropSign.eq_def]
  split
  · exact absurd rfl (h _ List.mem_cons_self).1
  · exact absurd rfl (h _ List.mem_cons_self).2
  · rfl

theorem mem_unsignedText {c : Char} (h : c ∈ n.unsignedText) : c.isDigit ∨ c = '.' := by
  rcases List.mem_append.1 h with h | h
  · exact .inl (isDigit_of_mem_map c h)
  · cases hfraction : n.fraction with
    | none => simp [hfraction] at h
    | some l =>
      rw [hfraction] at h
      rcases List.mem_cons.1 h with rfl | h
      · exact .inr rfl
      · exact .inl (isDigit_of_mem_map c h)

/-- A text without sign does not start with one. -/
theorem ne_sign_of_mem {c : Char} (h : c ∈ n.unsignedText) : c ≠ '+' ∧ c ≠ '-' := by
  rcases mem_unsignedText h with hc | rfl
  · exact ⟨by rintro rfl; exact absurd hc (by decide), by rintro rfl; exact absurd hc (by decide)⟩
  · decide

theorem dropSign_text : dropSign n.text = n.unsignedText := by
  rw [Numeral.text]
  rcases n.sign with _ | _ | _
  · exact dropSign_of_forall fun c => ne_sign_of_mem
  · rfl
  · rfl

theorem head?_text : n.text.head? = some '-' ↔ n.sign = .minus := by
  rw [Numeral.text]
  rcases hsign : n.sign with _ | _ | _
  · refine iff_of_false (fun h => ?_) (by decide)
    exact (ne_sign_of_mem (List.mem_of_mem_head? h)).2 rfl
  · exact iff_of_false (by simp [Sign.text]) (by decide)
  · exact iff_of_true rfl rfl

theorem isUnsigned_unsignedText : isUnsigned n.unsignedText := by
  have hdigits := n.digits
  rw [isUnsigned, Numeral.unsignedText, List.takeWhile_append_of_pos isDigit_of_mem_map,
    List.dropWhile_append_of_pos isDigit_of_mem_map]
  cases hfraction : n.fraction with
  | none => simpa [hfraction] using hdigits
  | some l =>
    have hdot : ¬Char.isDigit '.' := by decide
    simp only [hfraction, Option.getD_some, ne_eq, List.append_eq_nil_iff] at hdigits
    simp only [Option.elim_some, List.takeWhile_cons, List.dropWhile_cons, hdot]
    simpa [isDigit_digitChar] using not_and_or.1 hdigits

/-- What the expression accepts is the text of a numeral, without its sign. -/
theorem exists_unsignedText {l : List Char} (h : isUnsigned l) (sign : Sign) :
    ∃ n : Numeral, n.sign = sign ∧ n.unsignedText = l := by
  obtain ⟨whole, hwhole⟩ := exists_digits (l := l.takeWhile Char.isDigit) fun c =>
    List.mem_takeWhile_imp
  have hsplit := List.takeWhile_append_dropWhile (p := Char.isDigit) (l := l)
  rw [isUnsigned, ← hwhole] at h
  rw [← hwhole] at hsplit
  split at h
  · rename_i hdrop
    refine ⟨⟨sign, whole, none, by simpa using h⟩, rfl, ?_⟩
    rw [hdrop] at hsplit
    exact hsplit
  · rename_i c rest hdrop
    simp only [Bool.and_eq_true, decide_eq_true_eq, List.all_eq_true] at h
    obtain ⟨⟨rfl, hall⟩, hne⟩ := h
    obtain ⟨fraction, rfl⟩ := exists_digits hall
    refine ⟨⟨sign, whole, some fraction, ?_⟩, rfl, ?_⟩
    · simp only [Option.getD_some, ne_eq, List.append_eq_nil_iff, not_and_or]
      simpa using hne
    · rw [hdrop] at hsplit
      exact hsplit

theorem exists_text {l : List Char} (h : isUnsigned (dropSign l)) : ∃ n : Numeral, n.text = l := by
  have hsign : ∃ sign : Sign, sign.text ++ dropSign l = l := by
    rw [dropSign.eq_def]
    split
    · exact ⟨.plus, rfl⟩
    · exact ⟨.minus, rfl⟩
    · exact ⟨.none, rfl⟩
  obtain ⟨sign, hl⟩ := hsign
  obtain ⟨n, hn, htext⟩ := exists_unsignedText h sign
  exact ⟨n, by rw [Numeral.text, hn, htext, hl]⟩

/-- The digits before the point, `0` if there are none. -/
def leading (n : Numeral) : List (Fin 10) := if n.whole = [] then [zeroDigit] else n.whole

/-- What `normalizeDecimal` returns for the text of a numeral. -/
def partsOf (n : Numeral) : DecimalParts where
  negative := n.sign = .minus
  whole := (leading n).map digitChar
  fraction := n.decimals.map digitChar

theorem leading_ne_nil : leading n ≠ [] := by
  rw [leading]
  split
  · exact List.cons_ne_nil _ _
  · assumption

theorem ofDigits_leading (l : List (Fin 10)) :
    ofDigits (leading n ++ l) = ofDigits (n.whole ++ l) := by
  rw [leading]
  split
  · rename_i hwhole
    rw [hwhole, List.singleton_append, ofDigits_cons]
    simp [zeroDigit]
  · rfl

theorem splitOn_unsignedText : n.unsignedText.splitOn '.' =
    n.whole.map digitChar :: n.fraction.elim [] fun l => [l.map digitChar] := by
  have hdot : ∀ {l : List (Fin 10)}, ∀ c ∈ l.map digitChar, (c == '.') = false := by
    intro l c hc
    refine beq_eq_false_iff_ne.2 ?_
    rintro rfl
    exact absurd (isDigit_of_mem_map _ hc) (by decide)
  rw [List.splitOn_eq_splitOnP, Numeral.unsignedText]
  cases n.fraction with
  | none =>
    rw [Option.elim_none, List.append_nil, List.splitOnP_eq_singleton hdot]
    rfl
  | some l =>
    rw [Option.elim_some, List.splitOnP_append_cons_of_forall_mem hdot '.' (beq_self_eq_true _),
      List.splitOnP_eq_singleton hdot]
    rfl

/-- The text, without the blanks around it, is that of the numeral. -/
def IsText (n : Numeral) (text : String) : Prop := (Json.trim text).toList = n.text

theorem normalizeDecimal_of_isText (h : IsText n text) :
    normalizeDecimal (some (.str text)) = .ok (partsOf n) := by
  have htext : Json.toText (Json.coalesce (some (.str text)) (some (.str ""))) = text := rfl
  have hunsigned : dropSign (Json.trim text).toList = n.unsignedText := by rw [h, dropSign_text]
  have hsplit := splitOn_unsignedText (n := n)
  rw [normalizeDecimal, htext]
  dsimp only
  rw [hunsigned, ensure, if_pos isUnsigned_unsignedText, hsplit, h]
  refine congrArg Except.ok ?_
  rw [partsOf, DecimalParts.mk.injEq]
  refine ⟨decide_eq_decide.2 head?_text, ?_, ?_⟩
  · simp only [List.getElem?_cons_zero, Option.getD_some, List.map_eq_nil_iff, leading]
    split <;> rfl
  · rw [Numeral.decimals]
    cases n.fraction <;> rfl

/-- `normalizeDecimal` accepts the texts of numerals. -/
theorem normalizeDecimal_succeeds_iff :
    (∃ parts, normalizeDecimal (some (.str text)) = .ok parts) ↔ ∃ n, IsText n text := by
  constructor
  · rintro ⟨parts, h⟩
    obtain ⟨_, haccept, -⟩ := bind_eq_ok.1 h
    obtain ⟨n, hn⟩ := exists_text (ensure_eq_ok.1 haccept)
    exact ⟨n, hn.symm⟩
  · rintro ⟨n, h⟩
    exact ⟨_, normalizeDecimal_of_isText h⟩

/-! ## Scaled integers -/

theorem digits_map (l : List (Fin 10)) (acc : ℕ) :
    Json.digits acc (l.map digitChar) = some (acc * 10 ^ l.length + ofDigits l) := by
  induction l generalizing acc with
  | nil => simp [Json.digits, ofDigits]
  | cons d l ih =>
    have hd : (digitChar d).toNat - '0'.toNat = d := by
      have hbase : '0'.toNat = 48 := by decide
      rw [digitChar_toNat, hbase, Nat.add_sub_cancel_left]
    rw [List.map_cons, Json.digits, if_pos (isDigit_digitChar d), hd, ih, ofDigits_cons,
      List.length_cons]
    congr 1
    ring

/-- Without its first zeros, a list of digits writes the same number. -/
theorem exists_dropZeros (l : List (Fin 10)) : ∃ m : List (Fin 10),
    dropZeros (l.map digitChar) = m.map digitChar ∧ ofDigits m = ofDigits l ∧
      (l ≠ [] → m ≠ []) := by
  induction l with
  | nil => exact ⟨[], rfl, rfl, id⟩
  | cons d l ih =>
    by_cases hzero : d = 0 ∧ l ≠ []
    · obtain ⟨rfl, hl⟩ := hzero
      obtain ⟨m, hm, hvalue, hne⟩ := ih
      obtain ⟨e, l, rfl⟩ := List.exists_cons_of_ne_nil hl
      refine ⟨m, ?_, ?_, fun _ => hne hl⟩
      · rw [← hm]
        exact (dropZeros.eq_1 _ _).trans (if_pos (isDigit_digitChar e))
      · rw [hvalue, ofDigits_cons 0]
        simp
    · refine ⟨d :: l, ?_, rfl, fun h => h⟩
      rw [List.map_cons, dropZeros.eq_def]
      split
      · rename_i c rest hl
        obtain ⟨hd, hl⟩ := List.cons.inj hl
        have hd : d = 0 := digitChar_eq_zero d hd
        exact absurd ⟨hd, by rintro rfl; cases hl⟩ hzero
      · rfl

/-- The digits of a numeral at a scale. -/
theorem take_padEnd (h : n.decimals.length ≤ scale) :
    (padEnd scale (n.decimals.map digitChar)).take scale =
      (n.decimals ++ List.replicate (scale - n.decimals.length) 0).map digitChar := by
  have hlen : (padEnd scale (n.decimals.map digitChar)).length = scale := by
    simp [padEnd, Nat.add_sub_cancel' h]
  rw [List.take_of_length_le hlen.le, padEnd, List.map_append, List.map_replicate, List.length_map]
  rfl

/-- At the scale of its decimals, or a larger one, a text is read as the value of its numeral. -/
theorem scaledInteger_of_isText (h : IsText n text) (hscale : n.decimals.length ≤ scale) :
    scaledInteger (some (.str text)) scale = .ok (n.scaled scale) := by
  have hfits : ¬(scale < (partsOf n).fraction.length ∧
      ((partsOf n).fraction.drop scale).any fun c => '1' ≤ c ∧ c ≤ '9') := fun hlong =>
    hlong.1.not_ge (by rwa [partsOf, List.length_map])
  obtain ⟨digits, hdigits, hvalue, hne⟩ := exists_dropZeros
    (leading n ++ (n.decimals ++ List.replicate (scale - n.decimals.length) 0))
  have htext : dropZeros ((partsOf n).whole ++ (padEnd scale (partsOf n).fraction).take scale) =
      digits.map digitChar := by
    rw [partsOf, take_padEnd hscale, ← List.map_append, hdigits]
  have hsome : digits.map digitChar ≠ [] := by
    rw [ne_eq, List.map_eq_nil_iff]
    exact hne (List.append_ne_nil_of_left_ne_nil leading_ne_nil _)
  rw [scaledInteger, normalizeDecimal_of_isText h]
  dsimp only [bind, Except.bind]
  rw [ensure, if_pos hfits, htext, if_neg hsome, bigInt, digits_map, hvalue, ofDigits_leading,
    Numeral.scaled, partsOf]
  dsimp only [bind, Except.bind, pure, Except.pure]
  rcases n.sign with _ | _ | _ <;> simp [Sign.factor]

/-! ## Numbers -/

theorem length_le_commonScale_left : n.decimals.length ≤ commonScale (partsOf n) (partsOf m) := by
  rw [commonScale, partsOf, List.length_map]
  exact le_max_left _ _

theorem length_le_commonScale_right : m.decimals.length ≤ commonScale (partsOf n) (partsOf m) := by
  rw [commonScale, partsOf, partsOf, List.length_map, List.length_map]
  exact le_max_right _ _

theorem decimalGte_of_isText (hn : IsText n left) (hm : IsText m right) :
    decimalGte (some (.str left)) (some (.str right)) = .ok (decide (m.value ≤ n.value)) := by
  have hnscale := length_le_commonScale_left (n := n) (m := m)
  have hmscale := length_le_commonScale_right (n := n) (m := m)
  rw [decimalGte, normalizeDecimal_of_isText hn, normalizeDecimal_of_isText hm]
  dsimp only [bind, Except.bind]
  rw [scaledInteger_of_isText hn hnscale, scaledInteger_of_isText hm hmscale]
  exact congrArg Except.ok (decide_eq_decide.2 (Numeral.scaled_le_iff hmscale hnscale))

theorem decimalLte_of_isText (hn : IsText n left) (hm : IsText m right) :
    decimalLte (some (.str left)) (some (.str right)) = .ok (decide (n.value ≤ m.value)) := by
  have hnscale := length_le_commonScale_left (n := n) (m := m)
  have hmscale := length_le_commonScale_right (n := n) (m := m)
  rw [decimalLte, normalizeDecimal_of_isText hn, normalizeDecimal_of_isText hm]
  dsimp only [bind, Except.bind]
  rw [scaledInteger_of_isText hn hnscale, scaledInteger_of_isText hm hmscale]
  exact congrArg Except.ok (decide_eq_decide.2 (Numeral.scaled_le_iff hnscale hmscale))

theorem isStepAligned_of_isText (hn : IsText n left) (hm : IsText m right) :
    ∃ aligned, isStepAligned (some (.str left)) (some (.str right)) = .ok aligned ∧
      (aligned = true ↔ 0 < m.value ∧ ∃ k : ℤ, n.value = k * m.value) := by
  have hnscale := length_le_commonScale_left (n := n) (m := m)
  have hmscale := length_le_commonScale_right (n := n) (m := m)
  rw [isStepAligned, normalizeDecimal_of_isText hn, normalizeDecimal_of_isText hm]
  dsimp only [bind, Except.bind]
  rw [scaledInteger_of_isText hn hnscale, scaledInteger_of_isText hm hmscale,
    ← Numeral.scaled_pos_iff hmscale, ← Numeral.scaled_dvd_iff hnscale hmscale]
  dsimp only
  split
  · rename_i hstep
    exact ⟨false, rfl, by simp [hstep.not_gt]⟩
  · rename_i hstep
    refine ⟨_, rfl, ?_⟩
    rw [decide_eq_true_iff, Int.dvd_iff_tmod_eq_zero]
    exact (and_iff_right (not_le.1 hstep)).symm

/-- The text writes the number. -/
def Writes (text : String) (a : ℚ) : Prop := ∃ n, IsText n text ∧ n.value = a

/-- A text writes one number at most. -/
theorem Writes.unique (ha : Writes text a) (hb : Writes text b) : a = b := by
  obtain ⟨n, hn, rfl⟩ := ha
  obtain ⟨m, hm, rfl⟩ := hb
  have hself : ∀ {n m : Numeral}, IsText n text → IsText m text → n.value ≤ m.value := by
    intro n m hn hm
    have hle := (decimalGte_of_isText hm hn).symm.trans (decimalGte_of_isText hn hn)
    simpa using hle
  exact le_antisymm (hself hn hm) (hself hm hn)

/-- The text is accepted by the grammar. -/
def Accepted (text : String) : Prop := ∃ parts, normalizeDecimal (some (.str text)) = .ok parts

theorem accepted_iff : Accepted text ↔ ∃ a, Writes text a :=
  normalizeDecimal_succeeds_iff.trans
    ⟨fun ⟨n, hn⟩ => ⟨n.value, n, hn, rfl⟩, fun ⟨_, n, hn, _⟩ => ⟨n, hn⟩⟩

theorem Writes.iff_eq (ha : Writes text a) (q : ℚ) : Writes text q ↔ q = a :=
  ⟨fun hq => hq.unique ha, fun hq => hq ▸ ha⟩

theorem Writes.decimalGte (ha : Writes left a) (hb : Writes right b) :
    decimalGte (some (.str left)) (some (.str right)) = .ok (decide (b ≤ a)) := by
  obtain ⟨n, hn, rfl⟩ := ha
  obtain ⟨m, hm, rfl⟩ := hb
  exact decimalGte_of_isText hn hm

theorem Writes.decimalLte (ha : Writes left a) (hb : Writes right b) :
    decimalLte (some (.str left)) (some (.str right)) = .ok (decide (a ≤ b)) := by
  obtain ⟨n, hn, rfl⟩ := ha
  obtain ⟨m, hm, rfl⟩ := hb
  exact decimalLte_of_isText hn hm

theorem Writes.isStepAligned (ha : Writes left a) (hb : Writes right b) :
    ∃ aligned, isStepAligned (some (.str left)) (some (.str right)) = .ok aligned ∧
      (aligned = true ↔ 0 < b ∧ ∃ k : ℤ, a = k * b) := by
  obtain ⟨n, hn, rfl⟩ := ha
  obtain ⟨m, hm, rfl⟩ := hb
  exact isStepAligned_of_isText hn hm

/-- The comparisons of two texts that are accepted are those of the numbers that they write. -/
theorem decimals_exact (hl : Accepted left) (hr : Accepted right) :
    ∃ a b, (∀ q, Writes left q ↔ q = a) ∧ (∀ q, Writes right q ↔ q = b) ∧
      decimalGte (some (.str left)) (some (.str right)) = .ok (decide (b ≤ a)) ∧
      decimalLte (some (.str left)) (some (.str right)) = .ok (decide (a ≤ b)) ∧
      ∃ aligned, isStepAligned (some (.str left)) (some (.str right)) = .ok aligned ∧
        (aligned = true ↔ 0 < b ∧ ∃ k : ℤ, a = k * b) := by
  obtain ⟨a, ha⟩ := accepted_iff.1 hl
  obtain ⟨b, hb⟩ := accepted_iff.1 hr
  exact ⟨a, b, ha.iff_eq, hb.iff_eq, ha.decimalGte hb, ha.decimalLte hb, ha.isStepAligned hb⟩

/-- `-01.50` and `.5`, with a blank. -/
theorem decimals_exact_sample : ∃ a b, (∀ q, Writes " -01.50" q ↔ q = a) ∧
    (∀ q, Writes ".5" q ↔ q = b) ∧
    decimalGte (some (.str " -01.50")) (some (.str ".5")) = .ok (decide (b ≤ a)) ∧
    decimalLte (some (.str " -01.50")) (some (.str ".5")) = .ok (decide (a ≤ b)) ∧
    ∃ aligned, isStepAligned (some (.str " -01.50")) (some (.str ".5")) = .ok aligned ∧
      (aligned = true ↔ 0 < b ∧ ∃ k : ℤ, a = k * b) :=
  decimals_exact
    (normalizeDecimal_succeeds_iff.2
      ⟨⟨.minus, [0, 1], some [5, 0], by decide⟩, by unfold IsText; decide +kernel⟩)
    (normalizeDecimal_succeeds_iff.2
      ⟨⟨.none, [], some [5], by decide⟩, by unfold IsText; decide +kernel⟩)

/-! ## Quantities -/

theorem Writes.ne_empty (ha : Writes text a) : text ≠ "" := by
  rintro rfl
  obtain ⟨n, hn, -⟩ := ha
  have hne := n.digits
  rw [IsText, Numeral.text, Numeral.unsignedText, Json.trim, String.toList_ofList] at hn
  obtain ⟨-, hbody⟩ := List.append_eq_nil_iff.1 hn.symm
  obtain ⟨hwhole, hfraction⟩ := List.append_eq_nil_iff.1 hbody
  cases hpoint : n.fraction with
  | none => exact hne (by rw [List.map_eq_nil_iff.1 hwhole, hpoint]; rfl)
  | some l =>
    rw [hpoint] at hfraction
    cases hfraction

theorem Writes.truthy (ha : Writes text a) : Json.truthy (some (.str text)) :=
  decide_eq_true ha.ne_empty

/-- A quantity passes the rules of its instrument exactly if it is a multiple of the step, and
    between the least and the largest quantity. -/
theorem checkQuantity_eq_ok {payload : Json} {instrument : InstrumentRow}
    {step least largest : String} {qty s lo hi x : ℚ}
    (hqty : Writes (Json.toText (payload.get "qty")) qty)
    (hpositive : positiveNumber (some (.str (Json.toText (payload.get "qty")))) "qty" = .ok x)
    (hstep : instrument.qtyStep = some (.str step)) (hs : Writes step s)
    (hleast : instrument.minOrderQty = some (.str least)) (hlo : Writes least lo)
    (hlargest : Json.orElse instrument.maxMktOrderQty (Json.orElse instrument.maxMarketOrderQty
      instrument.maxOrderQty) = some (.str largest)) (hhi : Writes largest hi) :
    checkQuantity payload instrument = .ok () ↔
      (0 < s ∧ ∃ k : ℤ, qty = k * s) ∧ lo ≤ qty ∧ qty ≤ hi := by
  obtain ⟨aligned, haligned, hiff⟩ := hqty.isStepAligned hs
  have htext : Json.textOrEmpty instrument.qtyStep = step := by
    rw [hstep, Json.textOrEmpty, if_pos hs.truthy]
    rfl
  rw [checkQuantity, hpositive, htext, hlargest, hleast, ← hiff]
  dsimp only [bind, Except.bind]
  rw [haligned, hqty.decimalGte hlo, hqty.decimalLte hhi, if_pos hlo.truthy, if_pos hhi.truthy]
  by_cases hle : lo ≤ qty <;> by_cases hge : qty ≤ hi <;> cases aligned <;>
    simp [ensure, hs.ne_empty, hle, hge]

/-- An instrument that trades in steps of a tenth. -/
def tenths : InstrumentRow where
  status := some (.str "Trading")
  tickSize := some (.str "0.01")
  qtyStep := some (.str "0.1")
  minOrderQty := some (.str "0.1")
  maxMktOrderQty := some (.str "100")
  maxMarketOrderQty := none
  maxOrderQty := none
  minNotionalValue := none
  maxLeverage := some (.str "25")

/-- Half a unit passes, and a quarter does not. -/
theorem checkQuantity_eq_ok_half :
    checkQuantity (.obj [("qty", .str "0.50")]) tenths = .ok () ∧
      checkQuantity (.obj [("qty", .str "0.25")]) tenths ≠ .ok () := by
  have hs : Writes "0.1" (1 / 10) :=
    ⟨⟨.none, [0], some [1], by decide⟩, by unfold IsText; decide +kernel, by decide +kernel⟩
  have hhi : Writes "100" 100 :=
    ⟨⟨.none, [1, 0, 0], none, by decide⟩, by unfold IsText; decide +kernel, by decide +kernel⟩
  have hhalf : Writes "0.50" (1 / 2) :=
    ⟨⟨.none, [0], some [5, 0], by decide⟩, by unfold IsText; decide +kernel, by decide +kernel⟩
  have hquarter : Writes "0.25" (1 / 4) :=
    ⟨⟨.none, [0], some [2, 5], by decide⟩, by unfold IsText; decide +kernel, by decide +kernel⟩
  have hqty : ∀ {text : String} {q : ℚ}, Writes text q →
      Writes (Json.toText ((Json.obj [("qty", .str text)]).get "qty")) q := fun h => h
  constructor
  · rw [@checkQuantity_eq_ok _ tenths _ _ _ (1 / 2) _ _ _ (1 / 2) (hqty hhalf)
      (by decide +kernel) rfl hs rfl hs rfl hhi]
    exact ⟨⟨by norm_num, 5, by norm_num⟩, by norm_num, by norm_num⟩
  · rw [Ne, @checkQuantity_eq_ok _ tenths _ _ _ (1 / 4) _ _ _ (1 / 4) (hqty hquarter)
      (by decide +kernel) rfl hs rfl hs rfl hhi]
    rintro ⟨⟨-, k, hk⟩, -⟩
    have : (5 : ℤ) = 2 * k := by
      have : (5 : ℚ) = 2 * k := by linarith
      exact_mod_cast this
    omega

end IntradayBot.Node
