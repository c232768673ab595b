import IntradayBot.Sizing.Batch

/-!
# Sizing within the rules

Whether a run ends, with every order within all the rules of its instrument, is decided one
candidate after another, by what is read of it and the margin that is left (`build_keepsRules_iff`).
What is read must be numbers. If the risk and the margin afford a quantity that the instrument
trades, the instrument has a largest quantity; and if that one is what is left of it, it is on the
step.

A candidate whose rules are no numbers ends the run for all, a symbol that reports no largest
quantity has none, and one that cuts the quantity need not be on its step (`not_keepsRules`).
-/

namespace IntradayBot.Sizing

open Entry (number)
open PyText

variable {core : Core} {candidate : PyDict} {wallet : Wallet} {timestamp : ℤ} {checks : PyDict}
  {setup : Setup} {request request' : Request} {order : Order} {decision : Decision}
  {decisions : List Decision} {queue : List PyDict} {rules : LotRules} {reserved q s : ℚ}

/-! ## What a candidate asks -/

/-- The candidate is approved and complete, has a risk, and a plan whose prices lie on their sides
    of the entry. -/
structure Comes (core : Core) (candidate : PyDict) (setup : Setup) : Prop where
  symbol : setup.symbol = symbolOf core candidate
  side : setup.side = sideOf core candidate
  grade : setup.grade = (candidate.get "grade").textOrEmpty core.repr
  entry : number (candidate.get "entryReference") 0 = .ok setup.entry
  ready : InputReady core candidate setup.entry
  gradeRiskPct : gradeRiskPct setup.grade = some setup.gradeRiskPct
  plan : ∃ reason, technicalPlan core candidate = .ok (some setup.plan, reason)
  valid : setup.stopValid ∧ setup.takeValid

/-- The candidate comes to the rules of its instrument: it may risk something, and after what is
    reserved some margin is left. -/
structure Asks (core : Core) (candidate : PyDict) (wallet : Wallet) (reserved : ℚ)
    (request : Request) : Prop where
  comes : Comes core candidate request.toSetup
  funds : wallet = .ok request.funds
  factor : ∃ q, number (candidate.get "riskSizeFactor") 1 = .ok q ∧
    request.riskFactor = max 0 (min 1 q)
  reservedMargin : request.reservedMargin = reserved
  risk : 0 < request.riskFactor
  left : reserved < request.funds.availableMargin

/-- What is read of the candidate before the rules can be read. -/
structure Legible (core : Core) (candidate : PyDict) (wallet : Wallet) : Prop where
  entry : Succeeds (number (candidate.get "entryReference") 0)
  plan : ∀ entry, number (candidate.get "entryReference") 0 = .ok entry →
    InputReady core candidate entry →
      gradeRiskPct ((candidate.get "grade").textOrEmpty core.repr) ≠ none →
        Succeeds (technicalPlan core candidate)
  factor : ∀ setup, Comes core candidate setup → ∀ funds, wallet = .ok funds →
    Succeeds (number (candidate.get "riskSizeFactor") 1)

theorem Comes.unique {setup' : Setup} (h : Comes core candidate setup)
    (h' : Comes core candidate setup') : setup = setup' := by
  obtain ⟨reason, hplan⟩ := h.plan
  obtain ⟨reason', hplan'⟩ := h'.plan
  obtain ⟨symbol, side, grade, entry, plan, riskPct⟩ := setup
  obtain ⟨symbol', side', grade', entry', plan', riskPct'⟩ := setup'
  obtain rfl : symbol = symbol' := h.symbol.trans h'.symbol.symm
  obtain rfl : side = side' := h.side.trans h'.side.symm
  obtain rfl : grade = grade' := h.grade.trans h'.grade.symm
  obtain rfl : entry = entry' := Except.ok.inj (h.entry.symm.trans h'.entry)
  obtain rfl : riskPct = riskPct' := Option.some.inj (h.gradeRiskPct.symm.trans h'.gradeRiskPct)
  obtain rfl : plan = plan' := by
    have := Except.ok.inj (hplan.symm.trans hplan')
    simpa using congrArg Prod.fst this
  rfl

theorem Comes.gradeRiskPct_eq (h : Comes core candidate setup) : setup.gradeRiskPct = 1 := by
  have hgrade := h.gradeRiskPct
  rw [Sizing.gradeRiskPct] at hgrade
  split at hgrade
  · exact (Option.some.inj hgrade).symm
  · cases hgrade

theorem Asks.unique (h : Asks core candidate wallet reserved request)
    (h' : Asks core candidate wallet reserved request') : request = request' := by
  obtain ⟨q, hq, hfactor⟩ := h.factor
  obtain ⟨q', hq', hfactor'⟩ := h'.factor
  obtain rfl := Except.ok.inj (hq.symm.trans hq')
  have hsetup := h.comes.unique h'.comes
  have hfunds := Except.ok.inj (h.funds.symm.trans h'.funds)
  have hreserved := h.reservedMargin.trans h'.reservedMargin.symm
  cases request
  cases request'
  simp_all

/-- The quantity loses no more than the budget at the stop, and its margin is left. -/
structure Request.Affords (request : Request) (q : ℚ) : Prop where
  risk : q * request.stopDistance ≤ request.riskBudget
  margin : q * request.entry ≤
    (request.funds.availableMargin - request.reservedMargin) * LEVERAGE

namespace Asks

theorem entry_pos (h : Asks core candidate wallet reserved request) : 0 < request.entry := by
  obtain ⟨-, -, -, -, -, hentry, -⟩ := h.comes.ready
  exact hentry

theorem effectiveRiskPct_pos (h : Asks core candidate wallet reserved request) :
    0 < request.effectiveRiskPct := by
  rw [Request.effectiveRiskPct, h.comes.gradeRiskPct_eq, one_mul]
  exact h.risk

theorem stopDistance_pos (h : Asks core candidate wallet reserved request) :
    0 < request.stopDistance := by
  have hvalid := h.comes.valid.1
  rw [Setup.stopValid, decide_eq_true_eq] at hvalid
  rw [Setup.stopDistance, abs_pos, sub_ne_zero]
  rcases hvalid.2 with ⟨-, hlt⟩ | ⟨-, hlt⟩
  · exact hlt.ne'
  · exact hlt.ne

theorem remainingAvailable_eq (h : Asks core candidate wallet reserved request) :
    request.remainingAvailable = request.funds.availableMargin - request.reservedMargin ∧
      0 < request.remainingAvailable := by
  have hleft : 0 < request.funds.availableMargin - request.reservedMargin := by
    rw [h.reservedMargin]
    exact sub_pos.2 h.left
  rw [Request.remainingAvailable, max_eq_right hleft.le]
  exact ⟨rfl, hleft⟩

theorem le_rawQty_iff (h : Asks core candidate wallet reserved request) :
    q ≤ request.rawQty ↔ request.Affords q := by
  obtain ⟨hremaining, hpos⟩ := h.remainingAvailable_eq
  rw [Request.rawQty, le_min_iff, Request.rawRiskQty, le_div_iff₀ h.stopDistance_pos,
    Request.maxAvailableQty, if_pos hpos, le_div_iff₀ h.entry_pos, hremaining]
  exact ⟨fun h => ⟨h.1, h.2⟩, fun h => ⟨h.risk, h.margin⟩⟩

theorem rawQty_pos (h : Asks core candidate wallet reserved request) : 0 < request.rawQty := by
  obtain ⟨-, hpos⟩ := h.remainingAvailable_eq
  have hbudget : 0 < request.riskBudget :=
    mul_pos request.funds.equity_pos (div_pos h.effectiveRiskPct_pos (by norm_num))
  rw [Request.rawQty, lt_min_iff, Request.maxAvailableQty, if_pos hpos]
  refine ⟨div_pos hbudget h.stopDistance_pos, div_pos (mul_pos hpos ?_) h.entry_pos⟩
  norm_num [LEVERAGE]

end Asks

/-- What comes to a quantity asks for the rules. -/
theorem Asks.of_rawQty_pos {factor : ℚ} {funds : Funds} (hcomes : Comes core candidate setup)
    (hfactor : number (candidate.get "riskSizeFactor") 1 = .ok factor)
    (hrisk : 0 < (Request.mk setup (max 0 (min 1 factor)) funds reserved).effectiveRiskPct)
    (hraw : 0 < (Request.mk setup (max 0 (min 1 factor)) funds reserved).rawQty) :
    Asks core candidate (.ok funds) reserved
      ⟨setup, max 0 (min 1 factor), funds, reserved⟩ := by
  refine ⟨hcomes, rfl, ⟨factor, hfactor, rfl⟩, rfl, ?_, ?_⟩
  · rw [Request.effectiveRiskPct, hcomes.gradeRiskPct_eq, one_mul] at hrisk
    exact hrisk
  · have hmax := hraw.trans_le (min_le_right _ _)
    rw [Request.maxAvailableQty] at hmax
    split at hmax
    · rename_i hremaining
      rw [Request.remainingAvailable, lt_max_iff] at hremaining
      exact sub_pos.1 (hremaining.resolve_left (lt_irrefl _))
    · exact absurd hmax (lt_irrefl _)

/-! ## Before the rules -/

/-- A candidate that asks for the rules is sized by them. -/
theorem evaluateCandidate_of_asks (timestamp : ℤ)
    (h : Asks core candidate wallet reserved request) :
    ∃ checks, evaluateCandidate core candidate wallet reserved timestamp =
      applyRules core candidate request checks timestamp := by
  obtain ⟨reason, hplan⟩ := h.comes.plan
  obtain ⟨q, hq, hfactor⟩ := h.factor
  have hgrade := h.comes.gradeRiskPct
  rw [h.comes.grade] at hgrade
  have hrequest : request = ⟨⟨symbolOf core candidate, sideOf core candidate,
      (candidate.get "grade").textOrEmpty core.repr, request.entry, request.plan,
      request.gradeRiskPct⟩, max 0 (min 1 q), request.funds, reserved⟩ := by
    rw [← h.comes.symbol, ← h.comes.side, ← h.comes.grade, ← hfactor, ← h.reservedMargin]
  have hsize : ∀ checks, ∃ checks', sizeRequest core candidate request checks timestamp =
      applyRules core candidate request checks' timestamp := by
    intro checks
    rw [sizeRequest, if_neg h.effectiveRiskPct_pos.not_ge, if_neg h.stopDistance_pos.not_ge]
    dsimp only
    rw [if_neg h.rawQty_pos.not_ge]
    exact ⟨_, rfl⟩
  have hvalid := h.comes.valid
  rw [evaluateCandidate, h.comes.entry]
  dsimp only [bind, Except.bind]
  rw [if_neg (not_not.2 h.comes.ready), hgrade, hplan]
  dsimp only
  rw [if_neg, h.funds, hq]
  · dsimp only
    rw [← hrequest]
    exact hsize _
  · rw [hrequest] at hvalid
    exact not_not.2 hvalid

/-- A candidate that is decided about could be read. -/
theorem Legible.of_evaluateCandidate
    (h : evaluateCandidate core candidate wallet reserved timestamp = .ok decision) :
    Legible core candidate wallet := by
  obtain ⟨entry, hentry, h⟩ := bind_eq_ok.1 h
  have hentry_eq : ∀ {x}, number (candidate.get "entryReference") 0 = .ok x → x = entry :=
    fun hx => Except.ok.inj (hx.symm.trans hentry)
  refine ⟨⟨entry, hentry⟩, fun x hx hready hgrade => ?_, fun setup hcomes funds hfunds => ?_⟩
  · obtain rfl := hentry_eq hx
    rw [if_neg (not_not.2 hready)] at h
    cases hrisk : gradeRiskPct ((candidate.get "grade").textOrEmpty core.repr) with
    | none => exact absurd hrisk hgrade
    | some riskPct =>
      rw [hrisk] at h
      obtain ⟨answer, hplan, -⟩ := bind_eq_ok.1 h
      exact ⟨answer, hplan⟩
  · obtain ⟨reason, hplan⟩ := hcomes.plan
    obtain rfl := hentry_eq hcomes.entry
    have hrisk := hcomes.gradeRiskPct
    rw [hcomes.grade] at hrisk
    rw [if_neg (not_not.2 hcomes.ready), hrisk] at h
    obtain ⟨answer, hanswer, h⟩ := bind_eq_ok.1 h
    obtain rfl := Except.ok.inj (hplan.symm.trans hanswer)
    dsimp only at h
    have hsetup : setup = ⟨symbolOf core candidate, sideOf core candidate,
        (candidate.get "grade").textOrEmpty core.repr, setup.entry, setup.plan,
        setup.gradeRiskPct⟩ := by
      rw [← hcomes.symbol, ← hcomes.side, ← hcomes.grade]
    rw [← hsetup, if_neg (not_not.2 hcomes.valid), hfunds] at h
    obtain ⟨factor, hfactor, -⟩ := bind_eq_ok.1 h
    exact ⟨factor, hfactor⟩

/-- A candidate that can be read and asks for no rules waits. -/
theorem evaluateCandidate_of_not_asks (timestamp : ℤ) (hlegible : Legible core candidate wallet)
    (hnone : ∀ request, ¬Asks core candidate wallet reserved request) :
    ∃ decision, evaluateCandidate core candidate wallet reserved timestamp = .ok decision ∧
      decision.order = none := by
  obtain ⟨entry, hentry⟩ := hlegible.entry
  rw [evaluateCandidate, hentry]
  dsimp only [bind, Except.bind]
  by_cases hready : InputReady core candidate entry
  case neg => exact ⟨_, by rw [if_pos hready]; rfl, rfl⟩
  rw [if_neg (not_not.2 hready)]
  cases hgrade : gradeRiskPct ((candidate.get "grade").textOrEmpty core.repr) with
  | none => exact ⟨_, rfl, rfl⟩
  | some riskPct =>
    obtain ⟨⟨plan, reason⟩, hplan⟩ := hlegible.plan entry hentry hready (by simp [hgrade])
    rw [hplan]
    cases plan with
    | none => exact ⟨_, rfl, rfl⟩
    | some plan =>
      dsimp only
      split
      · exact ⟨_, rfl, rfl⟩
      rename_i hvalid
      have hcomes : Comes core candidate ⟨symbolOf core candidate, sideOf core candidate,
          (candidate.get "grade").textOrEmpty core.repr, entry, plan, riskPct⟩ :=
        ⟨rfl, rfl, rfl, hentry, hready, hgrade, ⟨reason, hplan⟩, not_not.1 hvalid⟩
      cases wallet with
      | error reason => exact ⟨_, rfl, rfl⟩
      | ok funds =>
        obtain ⟨factor, hfactor⟩ := hlegible.factor _ hcomes funds rfl
        rw [hfactor]
        dsimp only
        rw [sizeRequest]
        split
        · exact ⟨_, rfl, rfl⟩
        rename_i hrisk
        split
        · exact ⟨_, rfl, rfl⟩
        dsimp only
        split
        · exact ⟨_, rfl, rfl⟩
        rename_i hraw
        exact absurd (Asks.of_rawQty_pos hcomes hfactor (not_le.1 hrisk) (not_le.1 hraw))
          (hnone _)

/-! ## The rules -/

namespace LotRules

variable (rules : LotRules) (request : Request)

/-- The quantity, cut to the largest one where there is one. -/
def capped (q : ℚ) : ℚ :=
  match rules.maxOrderQty with
  | .finite m => if 0 < m then min q m else q
  | _ => q

/-- The quantity is what the largest one leaves of a multiple of the step that is afforded. -/
def Offers (s q : ℚ) : Prop := ∃ n : ℤ, 0 < n ∧ request.Affords (n * s) ∧ q = rules.capped (n * s)

/-- The quantity is not too small for the instrument, and neither is its value. -/
structure Trades (q : ℚ) : Prop where
  min : Below rules.minOrderQty q
  minNotional : rules.minNotionalValue.positive →
    Below rules.minNotionalValue (q * request.entry)

/-- What is compared with the quantities that are afforded are numbers. If the instrument trades
    such a quantity, it has a largest one; if it trades this one, it is on the step. -/
structure Suits (s : ℚ) : Prop where
  max : rules.maxOrderQty ≠ .nan
  min : ∀ q, rules.Offers request s q → rules.minOrderQty ≠ .nan
  minNotional : ∀ q, rules.Offers request s q → Below rules.minOrderQty q →
    rules.minNotionalValue ≠ .nan
  limited : ∀ q, rules.Offers request s q → rules.Trades request q → rules.maxOrderQty.positive
  onStep : ∀ q, rules.Offers request s q → rules.Trades request q →
    rules.maxOrderQty = .finite q → ∃ n : ℤ, q = n * s

theorem capped_le (q : ℚ) : rules.capped q ≤ q := by
  rw [capped]
  split
  · split
    · exact min_le_left _ _
    · exact le_rfl
  · exact le_rfl

theorem capped_mono {q r : ℚ} (h : q ≤ r) : rules.capped q ≤ rules.capped r := by
  rw [capped, capped]
  split
  · split
    · exact min_le_min_right _ h
    · exact h
  · exact h

theorem capped_pos (h : 0 < q) : 0 < rules.capped q := by
  rw [capped]
  split
  · split
    · exact lt_min h ‹_›
    · exact h
  · exact h

/-- The largest quantity is kept. -/
theorem capped_above (h : rules.maxOrderQty.positive) :
    Above rules.maxOrderQty (rules.capped q) := by
  rw [capped]
  cases hmax : rules.maxOrderQty with
  | finite m =>
    have hm : 0 < m := by simpa [hmax, Double.positive] using h
    dsimp only
    rw [if_pos hm]
    exact min_le_right q m
  | inf negative =>
    rw [hmax] at h
    exact h
  | nan =>
    rw [hmax] at h
    cases h

theorem capped_eq (q : ℚ) : rules.capped q = q ∨ rules.maxOrderQty = .finite (rules.capped q) := by
  rw [capped]
  cases rules.maxOrderQty with
  | finite m =>
    dsimp only
    split
    · rcases min_choice q m with h | h
      · exact .inl h
      · exact .inr (by rw [h])
    · exact .inl rfl
  | inf negative => exact .inl rfl
  | nan => exact .inl rfl

theorem capQty_eq (h : rules.maxOrderQty ≠ .nan) :
    capQty q rules.maxOrderQty = .ok (rules.capped q) := by
  unfold capQty capped
  cases hmax : rules.maxOrderQty with
  | finite m =>
    have hless : lessThan (.finite 0) (.finite m) = .ok (decide (0 < m)) := rfl
    rw [hless]
    by_cases hm : 0 < m
    · rw [decide_eq_true hm]
      dsimp only
      rw [if_pos hm]
      rfl
    · rw [decide_eq_false hm]
      dsimp only
      rw [if_neg hm]
      rfl
  | inf negative => cases negative <;> rfl
  | nan => exact absurd hmax h

end LotRules

theorem Below.mono {x : Double} {r : ℚ} (h : Below x q) (hle : q ≤ r) : Below x r := by
  cases x with
  | finite x => exact le_trans h hle
  | inf negative => exact h
  | nan => exact h

theorem LotRules.Trades.mono {r : ℚ} (h : rules.Trades request q) (hle : q ≤ r)
    (hentry : 0 < request.entry) : rules.Trades request r where
  min := h.min.mono hle
  minNotional hpos := (h.minNotional hpos).mono (mul_le_mul_of_nonneg_right hle hentry.le)

/-- A number is less than another, or not. -/
theorem lessThan_eq {x : Double} (h : x ≠ .nan) :
    ∃ less, lessThan (.finite q) x = .ok less ∧ (less = false ↔ Below x q) := by
  cases x with
  | finite x => exact ⟨_, rfl, by simp [Below]⟩
  | inf negative => exact ⟨_, rfl, by simp [Below]⟩
  | nan => exact absurd rfl h

theorem not_nan_of_lessThan {x : Double} {less : Bool} (h : lessThan (.finite q) x = .ok less) :
    x ≠ .nan := by
  rintro rfl
  cases h

/-- A quantity that is cut to the largest one is not above it. -/
theorem not_large {x : Double} (hx : x ≠ .nan) (hle : x.positive → Above x q) :
    ∃ limited large, lessThan (.finite 0) x = .ok limited ∧ lessThan x (.finite q) = .ok large ∧
      (limited && large) = false := by
  cases x with
  | finite m =>
    refine ⟨_, _, rfl, rfl, ?_⟩
    by_cases hpos : 0 < m
    · have : q ≤ m := hle (by simpa [Double.positive] using hpos)
      simp [this]
    · simp [hpos]
  | inf negative => exact ⟨!negative, negative, rfl, rfl, by simp⟩
  | nan => exact absurd rfl hx

/-- The last check sends away what the instrument does not trade, if it can compare it. -/
theorem invalidRules_eq (request : Request) (hmax : rules.maxOrderQty ≠ .nan) (hqty : 0 < q)
    (hle : rules.maxOrderQty.positive → Above rules.maxOrderQty q)
    (hmin : rules.minOrderQty ≠ .nan)
    (hminNotional : Below rules.minOrderQty q → rules.minNotionalValue ≠ .nan) :
    ∃ invalid, (Order.mk request rules q).invalidRules = .ok invalid ∧
      (invalid = false ↔ rules.Trades request q) := by
  obtain ⟨small, hsmall, hbelow⟩ := lessThan_eq (q := q) hmin
  obtain ⟨limited, large, hlimited, hlarge, hand⟩ := not_large hmax hle
  rw [Order.invalidRules, if_neg hqty.not_ge, hsmall]
  cases small with
  | true => exact ⟨true, rfl, by simpa using fun h : rules.Trades request q => hbelow.2 h.min⟩
  | false =>
    have hbelow := hbelow.1 rfl
    have hnotional := hminNotional hbelow
    rw [hlimited, hlarge]
    dsimp only [bind, Except.bind]
    rw [hand]
    obtain ⟨less, hless, hnotBelow⟩ := lessThan_eq (q := q * request.entry) hnotional
    cases hpos : rules.minNotionalValue.positive with
    | true =>
      rw [lessThan_of_positive hpos]
      refine ⟨less, hless, hnotBelow.trans ⟨fun h => ⟨hbelow, fun _ => h⟩, fun h => ?_⟩⟩
      exact h.minNotional hpos
    | false =>
      have hzero : lessThan (.finite 0) rules.minNotionalValue = .ok false := by
        cases hvalue : rules.minNotionalValue with
        | finite m => simpa [hvalue, Double.positive, lessThan] using hpos
        | inf negative => simpa [hvalue, Double.positive, lessThan] using hpos
        | nan => exact absurd hvalue hnotional
      rw [hzero]
      refine ⟨false, rfl, fun _ => ⟨hbelow, fun h => ?_⟩, fun _ => rfl⟩
      cases hpos.symm.trans h

/-- An order that is affordable violates nothing. -/
theorem Asks.violation_eq_false (h : Asks core candidate wallet reserved request)
    (hafford : request.Affords q) : (Order.mk request rules q).violation = false := by
  obtain ⟨hremaining, -⟩ := h.remainingAvailable_eq
  rw [Order.violation, decide_eq_false_iff_not, not_or, not_lt, not_lt]
  constructor
  · have hmargin : q * request.entry / LEVERAGE ≤ request.remainingAvailable := by
      rw [div_le_iff₀ (by norm_num [LEVERAGE]), hremaining]
      exact hafford.margin
    exact hmargin.trans (le_add_of_nonneg_right (by norm_num))
  · exact hafford.risk.trans (le_add_of_nonneg_right (by norm_num))

/-- The order is on the step of its instrument, and not above the largest quantity. -/
structure Order.Keeps (order : Order) : Prop where
  onStep : OnStep order.rules.qtyStep order.qty
  le_max : Above order.rules.maxOrderQty order.qty

/-- The rules of the instrument can be read, and suit the request. -/
def Ruled (core : Core) (request : Request) : Prop :=
  ∃ answer, lotRules core request.symbol = .ok answer ∧ ∀ rules, answer = .ok rules →
    rules.qtyStep ≠ .nan ∧ rules.qtyStep ≠ .inf false ∧
      ∀ s, rules.qtyStep = .finite s → 0 < s → rules.Suits request s

/-- The number of whole steps in what the request affords. -/
def Request.steps (request : Request) (s : ℚ) : ℤ := Decimal.truncate (request.rawQty / s)

theorem floorToStep_eq {value : ℚ} (hs : 0 < s) :
    floorToStep value (.finite s) = .ok (Decimal.truncate (value / s) * s) := by
  have hless : lessThan (.finite 0) (.finite s) = .ok true := by simp [lessThan, hs]
  rw [floorToStep, hless]
  rfl

/-- It is the largest number of steps that is afforded. -/
theorem Asks.steps_spec (h : Asks core candidate wallet reserved request) (hs : 0 < s) :
    request.Affords (request.steps s * s) ∧
      ∀ n : ℤ, request.Affords (n * s) → n ≤ request.steps s := by
  have hsteps : request.steps s = ⌊request.rawQty / s⌋ := by
    rw [Request.steps, Decimal.truncate, if_pos (div_pos h.rawQty_pos hs).le]
  rw [hsteps, ← h.le_rawQty_iff, ← le_div_iff₀ hs]
  refine ⟨Int.floor_le _, fun n hn => ?_⟩
  rw [Int.le_floor, le_div_iff₀ hs]
  exact h.le_rawQty_iff.2 hn

/-- By rules that suit it, a request is sized within them, or its candidate waits. -/
theorem applyRules_of_suits (h : Asks core candidate wallet reserved request)
    (hrules : lotRules core request.symbol = .ok (.ok rules)) (hstep : rules.qtyStep = .finite s)
    (hs : 0 < s) (hsuits : rules.Suits request s) :
    ∃ decision, applyRules core candidate request checks timestamp = .ok decision ∧
      ∀ order, decision.order = some order → order.Keeps := by
  obtain ⟨hafford, -⟩ := h.steps_spec hs
  have hwaits : ∀ code reason checks order,
      (wait candidate code reason checks timestamp).order = some order → order.Keeps := by
    rintro code reason checks order ⟨⟩
  have hless : lessThan (.finite 0) rules.qtyStep = .ok true := by
    rw [hstep]
    simp [lessThan, hs]
  have hfloor : floorToStep request.rawQty rules.qtyStep = .ok (request.steps s * s) := by
    rw [hstep]
    exact floorToStep_eq hs
  rw [applyRules, hrules]
  dsimp only [bind, Except.bind]
  rw [hless, hfloor]
  dsimp only
  rw [rules.capQty_eq hsuits.max]
  dsimp only
  by_cases hqty : rules.capped (request.steps s * s) ≤ 0
  · have hinvalid : (Order.mk request rules (rules.capped (request.steps s * s))).invalidRules =
        .ok true := by
      rw [Order.invalidRules, if_pos hqty]
      rfl
    rw [hinvalid]
    exact ⟨_, rfl, hwaits _ _ _⟩
  rw [not_le] at hqty
  have hpos : 0 < request.steps s := by
    have := pos_of_mul_pos_left (hqty.trans_le (rules.capped_le _)) hs.le
    exact_mod_cast this
  have hoffers : rules.Offers request s (rules.capped (request.steps s * s)) :=
    ⟨_, hpos, hafford, rfl⟩
  obtain ⟨invalid, hinvalid, htrades⟩ := invalidRules_eq request hsuits.max hqty
    (rules.capped_above) (hsuits.min _ hoffers) (hsuits.minNotional _ hoffers)
  rw [hinvalid]
  cases invalid with
  | true => exact ⟨_, rfl, hwaits _ _ _⟩
  | false =>
    have htrades := htrades.1 rfl
    have hcapped : request.Affords (rules.capped (request.steps s * s)) :=
      h.le_rawQty_iff.1 ((rules.capped_le _).trans (h.le_rawQty_iff.2 hafford))
    dsimp only
    rw [h.violation_eq_false hcapped]
    refine ⟨_, rfl, fun order horder => ?_⟩
    obtain rfl := Option.some.inj horder
    refine ⟨⟨s, hstep, hs, ?_⟩, rules.capped_above (hsuits.limited _ hoffers htrades)⟩
    rcases rules.capped_eq (request.steps s * s) with heq | hmax
    · exact ⟨request.steps s, heq⟩
    · exact hsuits.onStep _ hoffers htrades hmax

/-- What the last check compares are numbers. -/
theorem not_nan_of_invalidRules {invalid : Bool} (hmax : rules.maxOrderQty ≠ .nan) (hqty : 0 < q)
    (hle : rules.maxOrderQty.positive → Above rules.maxOrderQty q)
    (h : (Order.mk request rules q).invalidRules = .ok invalid) :
    rules.minOrderQty ≠ .nan ∧ (Below rules.minOrderQty q → rules.minNotionalValue ≠ .nan) := by
  rw [Order.invalidRules, if_neg hqty.not_ge] at h
  obtain ⟨small, hsmall, h⟩ := bind_eq_ok.1 h
  have hmin := not_nan_of_lessThan hsmall
  refine ⟨hmin, fun hbelow => ?_⟩
  obtain ⟨less, hless, hiff⟩ := lessThan_eq (q := q) hmin
  obtain rfl := Except.ok.inj (hless.symm.trans hsmall)
  obtain rfl := hiff.2 hbelow
  obtain ⟨limited, large, hlimited, hlarge, hand⟩ := not_large hmax hle
  rw [hlimited, hlarge] at h
  dsimp only [bind, Except.bind] at h
  rw [hand] at h
  obtain ⟨positive, hpositive, -⟩ := bind_eq_ok.1 h
  exact not_nan_of_lessThan hpositive

theorem positive_of_above {x : Double} (hq : 0 < q) (h : Above x q) : x.positive := by
  cases x with
  | finite m => simpa [Double.positive] using lt_of_lt_of_le hq h
  | inf negative => exact h
  | nan => exact h.elim

/-- A request that is sized within the rules has rules that suit it. -/
theorem suits_of_applyRules (h : Asks core candidate wallet reserved request)
    (hrules : lotRules core request.symbol = .ok (.ok rules)) (hstep : rules.qtyStep = .finite s)
    (hs : 0 < s)
    (hdecision : applyRules core candidate request checks timestamp = .ok decision)
    (hkeeps : ∀ order, decision.order = some order → order.Keeps) : rules.Suits request s := by
  obtain ⟨hafford, hlargest⟩ := h.steps_spec hs
  have hless : lessThan (.finite 0) rules.qtyStep = .ok true := by
    rw [hstep]
    simp [lessThan, hs]
  have hfloor : floorToStep request.rawQty rules.qtyStep = .ok (request.steps s * s) := by
    rw [hstep]
    exact floorToStep_eq hs
  obtain ⟨answer, hanswer, hdecision⟩ := bind_eq_ok.1 hdecision
  obtain rfl := Except.ok.inj (hrules.symm.trans hanswer)
  obtain ⟨positive, hpositive, hdecision⟩ := bind_eq_ok.1 hdecision
  obtain rfl := Except.ok.inj (hless.symm.trans hpositive)
  obtain ⟨floored, hfloored, hdecision⟩ := bind_eq_ok.1 hdecision
  obtain rfl := Except.ok.inj (hfloor.symm.trans hfloored)
  obtain ⟨qty, hqty, hdecision⟩ := bind_eq_ok.1 hdecision
  have hmax : rules.maxOrderQty ≠ .nan := by
    intro hnan
    rw [hnan] at hqty
    cases hqty
  obtain rfl := Except.ok.inj ((rules.capQty_eq hmax).symm.trans hqty)
  obtain ⟨invalid, hinvalid, hdecision⟩ := bind_eq_ok.1 hdecision
  -- What is offered is no more than the quantity of the order.
  have hle : ∀ {q}, rules.Offers request s q → 0 < rules.capped (request.steps s * s) ∧
      q ≤ rules.capped (request.steps s * s) := by
    rintro q ⟨n, hn, haffords, rfl⟩
    have hmul : (n * s : ℚ) ≤ request.steps s * s := by
      have : (n : ℚ) ≤ request.steps s := by exact_mod_cast hlargest n haffords
      exact mul_le_mul_of_nonneg_right this hs.le
    have hpos : (0 : ℚ) < n * s := mul_pos (by exact_mod_cast hn) hs
    exact ⟨rules.capped_pos (hpos.trans_le hmul), rules.capped_mono hmul⟩
  have hmin : ∀ q, rules.Offers request s q → rules.minOrderQty ≠ .nan := fun q hq =>
    (not_nan_of_invalidRules hmax (hle hq).1 rules.capped_above hinvalid).1
  have hminNotional : ∀ q, rules.Offers request s q → Below rules.minOrderQty q →
      rules.minNotionalValue ≠ .nan := fun q hq hbelow =>
    (not_nan_of_invalidRules hmax (hle hq).1 rules.capped_above hinvalid).2 (hbelow.mono (hle hq).2)
  have hcapped : request.Affords (rules.capped (request.steps s * s)) :=
    h.le_rawQty_iff.1 ((rules.capped_le _).trans (h.le_rawQty_iff.2 hafford))
  -- So if it is traded, the order is approved.
  have happroved : ∀ {q}, rules.Offers request s q → rules.Trades request q →
      (Order.mk request rules (rules.capped (request.steps s * s))).Keeps := by
    intro q hq htrades
    have hnotional := hminNotional q hq htrades.min
    have htrades := htrades.mono (hle hq).2 h.entry_pos
    obtain ⟨invalid', hinvalid', hiff⟩ := invalidRules_eq request hmax (hle hq).1
      rules.capped_above (hmin q hq) fun _ => hnotional
    obtain rfl := Except.ok.inj (hinvalid'.symm.trans hinvalid)
    obtain rfl := hiff.2 htrades
    dsimp only at hdecision
    rw [h.violation_eq_false hcapped] at hdecision
    obtain rfl := Except.ok.inj hdecision
    exact hkeeps _ rfl
  refine ⟨hmax, hmin, hminNotional, fun q hq htrades => ?_, fun q hq htrades hlimit => ?_⟩
  · exact positive_of_above (hle hq).1 (happroved hq htrades).le_max
  · obtain ⟨⟨s', hs', -, n, hn⟩, habove⟩ := happroved hq htrades
    obtain rfl := Double.finite.inj (hstep.symm.trans hs')
    have hqty : rules.capped (request.steps s * s) = q := by
      dsimp only at habove
      rw [hlimit] at habove
      exact le_antisymm habove (hle hq).2
    exact ⟨n, hqty.symm.trans hn⟩

/-- A request is sized within the rules, or its candidate waits, exactly if the rules suit it. -/
theorem applyRules_iff (h : Asks core candidate wallet reserved request) :
    (∃ decision, applyRules core candidate request checks timestamp = .ok decision ∧
      ∀ order, decision.order = some order → order.Keeps) ↔ Ruled core request := by
  constructor
  · rintro ⟨decision, hdecision, hkeeps⟩
    obtain ⟨answer, hrules, hrest⟩ := bind_eq_ok.1 hdecision
    refine ⟨answer, hrules, ?_⟩
    rintro rules rfl
    obtain ⟨positive, hpositive, hrest⟩ := bind_eq_ok.1 hrest
    refine ⟨not_nan_of_lessThan hpositive, fun hinf => ?_, fun s hstep hs => ?_⟩
    · rw [hinf] at hpositive
      obtain rfl := Except.ok.inj hpositive
      obtain ⟨floored, hfloored, -⟩ := bind_eq_ok.1 hrest
      rw [hinf] at hfloored
      cases hfloored
    · exact suits_of_applyRules h hrules hstep hs hdecision hkeeps
  · rintro ⟨answer, hrules, hsuits⟩
    have hwaits : ∀ code reason, ∃ decision,
        (.ok (wait candidate code reason checks timestamp) : Except String Decision) =
          .ok decision ∧ ∀ order, decision.order = some order → order.Keeps :=
      fun code reason => ⟨_, rfl, fun order horder => by cases horder⟩
    cases answer with
    | error reason =>
      rw [applyRules, hrules]
      exact hwaits _ _
    | ok rules =>
      obtain ⟨hnan, hinf, hsuits⟩ := hsuits rules rfl
      -- A step that is not positive is none.
      have hnone : lessThan (.finite 0) rules.qtyStep = .ok false →
          ∃ decision, applyRules core candidate request checks timestamp = .ok decision ∧
            ∀ order, decision.order = some order → order.Keeps := by
        intro hless
        rw [applyRules, hrules]
        dsimp only [bind, Except.bind]
        rw [hless]
        exact hwaits _ _
      cases hstep : rules.qtyStep with
      | finite s =>
        by_cases hs : 0 < s
        · exact applyRules_of_suits h hrules hstep hs (hsuits s hstep hs)
        · exact hnone (by rw [hstep]; simp [lessThan, hs])
      | inf negative =>
        cases negative with
        | true => exact hnone (by rw [hstep]; rfl)
        | false => exact absurd hstep hinf
      | nan => exact absurd hstep hnan

/-! ## A run -/

/-- What is read of the candidate are numbers, and if it asks for the rules of its instrument, they
    suit it. -/
structure Sizable (core : Core) (candidate : PyDict) (wallet : Wallet) (reserved : ℚ) : Prop where
  legible : Legible core candidate wallet
  ruled : ∀ request, Asks core candidate wallet reserved request → Ruled core request

/-- A candidate is sized within the rules, or waits, exactly if it is sizable. -/
theorem evaluateCandidate_iff (timestamp : ℤ) :
    (∃ decision, evaluateCandidate core candidate wallet reserved timestamp = .ok decision ∧
      ∀ order, decision.order = some order → order.Keeps) ↔
        Sizable core candidate wallet reserved := by
  constructor
  · rintro ⟨decision, hdecision, hkeeps⟩
    refine ⟨.of_evaluateCandidate hdecision, fun request hasks => ?_⟩
    obtain ⟨checks, happly⟩ := evaluateCandidate_of_asks timestamp hasks
    exact (applyRules_iff hasks).1 ⟨decision, happly.symm.trans hdecision, hkeeps⟩
  · rintro ⟨hlegible, hruled⟩
    by_cases hasks : ∃ request, Asks core candidate wallet reserved request
    · obtain ⟨request, hasks⟩ := hasks
      obtain ⟨checks, happly⟩ := evaluateCandidate_of_asks timestamp hasks
      rw [happly]
      exact (applyRules_iff hasks).2 (hruled request hasks)
    · obtain ⟨decision, hdecision, hnone⟩ :=
        evaluateCandidate_of_not_asks timestamp hlegible (not_exists.1 hasks)
      refine ⟨decision, hdecision, fun order horder => ?_⟩
      cases hnone.symm.trans horder

/-- The margin that decisions reserve. -/
def reservedBy (decisions : List Decision) : ℚ := (decisions.map Decision.margin).sum

/-- A run ends, with every order within the rules, exactly if every candidate is sizable with what
    is reserved before it. -/
theorem sizeAll_iff :
    (∃ decisions, sizeAll core wallet timestamp reserved queue = .ok decisions ∧
      ∀ order ∈ orders decisions, order.Keeps) ↔
      ∀ i candidate decisions, queue[i]? = some candidate →
        sizeAll core wallet timestamp reserved (queue.take i) = .ok decisions →
          Sizable core candidate wallet (reserved + reservedBy decisions) := by
  induction queue generalizing reserved with
  | nil =>
    constructor
    · rintro - i candidate decisions hi
      cases hi
    · rintro -
      exact ⟨[], rfl, by simp [orders]⟩
  | cons first queue ih =>
    constructor
    · rintro ⟨decisions, hrun, hkeeps⟩ i candidate before hi hbefore
      obtain ⟨decision, rest, hdecision, hrest, rfl⟩ := sizeAll_cons_eq_ok.1 hrun
      cases i with
      | zero =>
        obtain rfl := Option.some.inj hi
        obtain rfl := Except.ok.inj hbefore
        rw [reservedBy, List.map_nil, List.sum_nil, add_zero]
        refine (evaluateCandidate_iff timestamp).1 ⟨decision, hdecision, fun order horder => ?_⟩
        exact hkeeps order (List.mem_filterMap.2 ⟨decision, List.mem_cons_self, horder⟩)
      | succ i =>
        rw [List.take_succ_cons] at hbefore
        obtain ⟨decision', before', hdecision', hbefore', rfl⟩ := sizeAll_cons_eq_ok.1 hbefore
        obtain rfl := Except.ok.inj (hdecision.symm.trans hdecision')
        rw [reservedBy, List.map_cons, List.sum_cons, ← add_assoc]
        refine ih.1 ⟨rest, hrest, fun order horder => ?_⟩ i candidate before' hi hbefore'
        obtain ⟨decided, hmem, horder⟩ := List.mem_filterMap.1 horder
        exact hkeeps order (List.mem_filterMap.2 ⟨decided, List.mem_cons_of_mem _ hmem, horder⟩)
    · intro h
      have hfirst := h 0 first [] rfl rfl
      rw [reservedBy, List.map_nil, List.sum_nil, add_zero] at hfirst
      obtain ⟨decision, hdecision, hkeeps⟩ :=
        (evaluateCandidate_iff timestamp).2 hfirst
      obtain ⟨rest, hrest, hrestKeeps⟩ := ih.2 fun i candidate before hi hbefore => by
        have := h (i + 1) candidate (decision :: before) hi
          (sizeAll_cons_eq_ok.2 ⟨decision, before, hdecision, hbefore, rfl⟩)
        rwa [reservedBy, List.map_cons, List.sum_cons, ← add_assoc] at this
      refine ⟨decision :: rest, sizeAll_cons_eq_ok.2 ⟨decision, rest, hdecision, hrest, rfl⟩, ?_⟩
      intro order horder
      obtain ⟨decided, hmem, horder⟩ := List.mem_filterMap.1 horder
      rcases List.mem_cons.1 hmem with heq | hmem
      · exact hkeeps order (heq ▸ horder)
      · exact hrestKeeps order (List.mem_filterMap.2 ⟨decided, hmem, horder⟩)

/-- The run ends, publishes a decision about every candidate, and keeps to all the rules of each
    order. -/
def KeepsRules (core : Core) (wallet : Wallet) (timestamp : ℤ) (source : PyDict)
    (state : SizingState) : Prop :=
  ∃ decisions, run core (.ok wallet) timestamp source = .ok decisions ∧
    build core (.ok wallet) timestamp source state = published core timestamp source decisions ∧
      Sound core wallet timestamp (approvedRiskQueue source) decisions fun candidate order =>
        Fits core candidate wallet order ∧ order.Keeps

theorem Decided.mono {fits fits' : PyDict → Order → Prop}
    (h : Decided core timestamp fits candidate decision)
    (hfits : ∀ order, decision.order = some order → fits candidate order → fits' candidate order) :
    Decided core timestamp fits' candidate decision where
  labelled := h.labelled
  waits := h.waits
  fits order horder := ⟨(h.fits order horder).1, hfits order horder (h.fits order horder).2⟩

/-- A run keeps to the rules exactly if it ends with every order within them. -/
theorem keepsRules_iff {source : PyDict} (state : SizingState) (hready : sourceReady core source) :
    KeepsRules core wallet timestamp source state ↔
      ∃ decisions, sizeAll core wallet timestamp 0 (approvedRiskQueue source) = .ok decisions ∧
        ∀ order ∈ orders decisions, order.Keeps := by
  constructor
  · rintro ⟨decisions, hrun, -, hsound⟩
    refine ⟨decisions, (run_eq hready).symm.trans hrun, fun order horder => ?_⟩
    obtain ⟨decision, hdecision, horder⟩ := List.mem_filterMap.1 horder
    obtain ⟨candidate, -, hdecided⟩ := exists_of_mem_forall₂ hsound.decided hdecision
    exact (hdecided.fits order horder).2.2
  · rintro ⟨decisions, hrun, hkeeps⟩
    rw [← run_eq hready] at hrun
    obtain ⟨hpublished, hsound⟩ := build_sound state hready hrun
    refine ⟨decisions, hrun, hpublished, ?_, hsound.margins, hsound.independent⟩
    refine List.forall₂_iff_get.2 ⟨hsound.decided.length_eq, fun i hi hi' => ?_⟩
    refine (hsound.decided.get hi hi').mono fun order horder hfits => ⟨hfits, ?_⟩
    exact hkeeps order (List.mem_filterMap.2 ⟨_, List.get_mem _ _, horder⟩)

/-- A run ends and keeps to the rules of each order exactly if every candidate is sizable with what
    is reserved before it. -/
theorem build_keepsRules_iff (core : Core) (wallet : Wallet) (timestamp : ℤ) (source : PyDict)
    (state : SizingState) (hready : sourceReady core source) :
    KeepsRules core wallet timestamp source state ↔
      ∀ i candidate decisions, (approvedRiskQueue source)[i]? = some candidate →
        sizeAll core wallet timestamp 0 ((approvedRiskQueue source).take i) = .ok decisions →
          Sizable core candidate wallet (reservedBy decisions) := by
  rw [keepsRules_iff state hready, sizeAll_iff]
  simp only [zero_add]

/-! ## Three instruments -/

/-- A candidate that buys at 100, with its stop at 99. -/
def buyCandidate (symbol : String) : PyDict :=
  [("candidateKey", .str symbol), ("symbol", .str symbol), ("side", .str "Buy"),
    ("grade", .str "A+"), ("entryReference", num 100), ("stopLoss", num 99),
    ("takeProfit", num 102), ("riskApproved", .bool true), ("riskStatus", .str "APPROVED_RISK"),
    ("riskSizeFactor", num 1), ("orderSubmitted", .bool false)]

/-- A queue of candidates for these symbols. -/
def queueOf (symbols : List String) : PyDict :=
  [("status", .str "ready"),
    ("approvedRiskQueue", .list (symbols.map fun symbol => .dict (buyCandidate symbol)))]

/-- What is sized: for each candidate the quantity of its order, if it has one. -/
def quantities (core : Core) (funds : Funds) (symbols : List String) : Option (List (Option ℚ)) :=
  (run core (.ok (.ok funds)) 0 (queueOf symbols)).toOption.map fun decisions =>
    decisions.map fun decision => decision.order.map Order.qty

/-- A core that has no rules for a new symbol, and the same ones for all others. -/
def listedCore : Core :=
  { coreOf (lotOf (.str "0.1") (.str "1000")) with
    getInstrumentRules := fun symbol =>
      if symbol = "NEWUSDT" then
        .ok (.dict [("ok", .bool false), ("reason", .str "Instrument rules unavailable")])
      else .ok (.dict (lotOf (.str "0.1") (.str "1000"))) }

/-- A wallet of a thousand, of which 150 are available. -/
def scarce : Funds :=
  { thousand with availableMargin := 150, available_nonneg := by norm_num }

/-- Rules in numbers, the largest quantity a positive multiple of the step, suit every request. -/
theorem LotRules.Suits.of_multiple {n : ℤ} (hs : 0 < s) (hn : 0 < n)
    (hmax : rules.maxOrderQty = .finite (n * s)) (hmin : rules.minOrderQty ≠ .nan)
    (hminNotional : rules.minNotionalValue ≠ .nan) : rules.Suits request s where
  max := by
    rw [hmax]
    rintro ⟨⟩
  min _ _ := hmin
  minNotional _ _ _ := hminNotional
  limited _ _ _ := by
    have : (0 : ℚ) < n * s := mul_pos (by exact_mod_cast hn) hs
    rw [hmax]
    simpa [Double.positive] using this
  onStep q _ _ hq := ⟨n, Double.finite.inj (hq.symm.trans hmax)⟩

/-- The rules of a listed symbol. -/
def listedRules : LotRules := ⟨.finite (1 / 10), .finite (1 / 10), .finite 1000, .finite 5⟩

theorem lotRules_listed {symbol : String} (h : symbol ≠ "NEWUSDT") :
    lotRules listedCore symbol = .ok (.ok listedRules) := by
  have hrules : listedCore.getInstrumentRules symbol =
      listedCore.getInstrumentRules "BTCUSDT" := if_neg h
  have hlisted : lotRules listedCore "BTCUSDT" = .ok (.ok listedRules) := by decide +kernel
  rw [lotRules, hrules]
  exact hlisted

/-- Every candidate of the listed core is sizable, whatever is reserved. -/
theorem sizable_listed (symbol : String) (reserved : ℚ) :
    Sizable listedCore (buyCandidate symbol) (.ok scarce) reserved := by
  refine ⟨⟨⟨100, rfl⟩, fun _ _ _ _ => ⟨_, rfl⟩, fun _ _ _ _ => ⟨1, rfl⟩⟩, fun request _ => ?_⟩
  by_cases hnew : request.symbol = "NEWUSDT"
  · refine ⟨.error "Instrument rules unavailable", ?_, fun _ h => by cases h⟩
    rw [hnew]
    rfl
  · refine ⟨.ok listedRules, lotRules_listed hnew, ?_⟩
    rintro _ ⟨⟩
    refine ⟨nofun, nofun, fun s hstep hs => ?_⟩
    obtain rfl := Double.finite.inj hstep
    have hmax : listedRules.maxOrderQty = .finite ((10000 : ℤ) * (1 / 10)) := by
      norm_num [listedRules]
    exact .of_multiple hs (by norm_num) hmax nofun nofun

/-- Of three candidates the first and the last are sized, the last with the margin that the first
    one leaves; the one between them waits. -/
theorem build_keepsRules_iff_listed :
    quantities listedCore scarce ["BTCUSDT", "NEWUSDT", "ETHUSDT"] =
        some [some 10, none, some 5] ∧
      KeepsRules listedCore (.ok scarce) 0 (queueOf ["BTCUSDT", "NEWUSDT", "ETHUSDT"]) idle := by
  refine ⟨by decide +kernel, (build_keepsRules_iff _ _ 0 _ idle (by decide +kernel)).2 ?_⟩
  intro i candidate decisions h _
  have hmem : candidate ∈ ["BTCUSDT", "NEWUSDT", "ETHUSDT"].map buyCandidate :=
    List.mem_of_getElem? h
  obtain ⟨symbol, -, rfl⟩ := List.mem_map.1 hmem
  exact sizable_listed symbol _

/-- What is sized of one candidate, with these rules: the quantity, its step and the largest one. -/
def sizedWith (rules : PyDict) : Option (List (ℚ × Double × Double)) :=
  (run (coreOf rules) (.ok (.ok thousand)) 0 (queueOf ["BTCUSDT"])).toOption.map fun decisions =>
    (orders decisions).map fun order => (order.qty, order.rules.qtyStep, order.rules.maxOrderQty)

theorem KeepsRules.sizedWith {rules : PyDict}
    (h : KeepsRules (coreOf rules) (.ok thousand) 0 (queueOf ["BTCUSDT"]) idle) :
    ∃ l, sizedWith rules = some l ∧
      ∀ sized ∈ l, OnStep sized.2.1 sized.1 ∧ Above sized.2.2 sized.1 := by
  obtain ⟨decisions, hrun, -, hsound⟩ := h
  refine ⟨_, by rw [Sizing.sizedWith, hrun]; rfl, fun sized hsized => ?_⟩
  obtain ⟨order, horder, rfl⟩ := List.mem_map.1 hsized
  obtain ⟨decision, hdecision, horder⟩ := List.mem_filterMap.1 horder
  obtain ⟨candidate, -, hdecided⟩ := exists_of_mem_forall₂ hsound.decided hdecision
  have hkeeps := (hdecided.fits order horder).2.2
  exact ⟨hkeeps.onStep, hkeeps.le_max⟩

/-- With a step that is no number the run fails; a largest quantity that is missing limits nothing,
    and one that is not on the step is the quantity of the order. -/
theorem not_keepsRules :
    ¬KeepsRules (coreOf (lotOf (.str "0.1") .none)) (.ok thousand) 0 (queueOf ["BTCUSDT"]) idle ∧
    ¬KeepsRules (coreOf (lotOf (.str "n/a") (.str "1000"))) (.ok thousand) 0
      (queueOf ["BTCUSDT"]) idle ∧
    ¬KeepsRules (coreOf (lotOf (.str "0.1") (.str "0.25"))) (.ok thousand) 0
      (queueOf ["BTCUSDT"]) idle := by
  have hmissing : sizedWith (lotOf (.str "0.1") .none) =
      some [(10, .finite (1 / 10), .finite 0)] := by decide +kernel
  have hmalformed : sizedWith (lotOf (.str "n/a") (.str "1000")) = none := by decide +kernel
  have hcut : sizedWith (lotOf (.str "0.1") (.str "0.25")) =
      some [(1 / 4, .finite (1 / 10), .finite (1 / 4))] := by decide +kernel
  refine ⟨fun h => ?_, fun h => ?_, fun h => ?_⟩
  · obtain ⟨l, hl, hrules⟩ := h.sizedWith
    obtain rfl := Option.some.inj (hmissing.symm.trans hl)
    exact absurd (hrules _ List.mem_cons_self).2 (by norm_num [Above])
  · obtain ⟨l, hl, -⟩ := h.sizedWith
    cases hmalformed.symm.trans hl
  · obtain ⟨l, hl, hrules⟩ := h.sizedWith
    obtain rfl := Option.some.inj (hcut.symm.trans hl)
    obtain ⟨s, hs, -, n, hn⟩ := (hrules _ List.mem_cons_self).1
    obtain rfl := Double.finite.inj hs
    have hmul : (10 : ℤ) = 4 * n := by
      have : (10 : ℚ) = 4 * n := by linarith
      exact_mod_cast this
    omega

end IntradayBot.Sizing
