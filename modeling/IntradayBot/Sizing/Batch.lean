import Mathlib.Algebra.BigOperators.Group.List.Basic
import IntradayBot.Sizing.PositionSizing

/-!
# A sizing run

A run that ends decides about every candidate of its queue (`build_sound`). What it sizes is within
the risk budget and the rules of its instrument, and the margins of all that it sizes are there. A
candidate that waits takes nothing: without it, the run decides the same about the others.

The largest quantity of an instrument limits what is sized where it reports one, and need not be on
the step.
-/

namespace IntradayBot.Sizing

open Entry (number)
open PyText

variable {core : Core} {candidate : PyDict} {wallet : Wallet} {timestamp : ℤ} {checks : PyDict}
  {request : Request} {order : Order} {decision : Decision} {decisions : List Decision}
  {queue : List PyDict} {source : PyDict} {reserved q qty : ℚ} {x step : Double}

/-! ## Decimals -/

/-- `x ≤ q` -/
def Below : Double → ℚ → Prop
  | .finite x, q => x ≤ q
  | .inf negative, _ => negative
  | .nan, _ => False

/-- `q ≤ x` -/
def Above : Double → ℚ → Prop
  | .finite x, q => q ≤ x
  | .inf negative, _ => !negative
  | .nan, _ => False

/-- The quantity is a multiple of the step. -/
def OnStep (step : Double) (qty : ℚ) : Prop := ∃ s, step = .finite s ∧ 0 < s ∧ ∃ n : ℤ, qty = n * s

theorem below_of_lessThan (h : lessThan (.finite q) x = .ok false) : Below x q := by
  cases x with
  | finite x => simpa [lessThan, Below] using h
  | inf negative => simpa [lessThan, Below] using h
  | nan => cases h

theorem positive_of_lessThan (h : lessThan (.finite 0) x = .ok true) : x.positive := by
  cases x with
  | finite x => simpa [lessThan, Double.positive] using h
  | inf negative => simpa [lessThan, Double.positive] using h
  | nan => cases h

theorem lessThan_of_positive (h : x.positive) : lessThan (.finite 0) x = .ok true := by
  cases x with
  | finite x => simpa [lessThan, Double.positive] using h
  | inf negative => simpa [lessThan, Double.positive] using h
  | nan => cases h

/-- A positive quantity is floored to a multiple of the step. -/
theorem floorToStep_eq_ok {value floored : ℚ} (hvalue : 0 < value) (hstep : step.positive)
    (h : floorToStep value step = .ok floored) : OnStep step floored ∧ floored ≤ value := by
  obtain ⟨positive, hpositive, h⟩ := bind_eq_ok.1 h
  obtain rfl := Except.ok.inj ((lessThan_of_positive hstep).symm.trans hpositive)
  cases step with
  | finite s =>
    obtain rfl := Except.ok.inj h
    have hs : 0 < s := by simpa [Double.positive] using hstep
    refine ⟨⟨s, rfl, hs, _, rfl⟩, ?_⟩
    rw [← le_div_iff₀ hs]
    exact Decimal.truncate_le (div_pos hvalue hs).le
  | inf negative => cases h
  | nan => cases h

/-- Where there is a maximum, the quantity is cut to it. -/
theorem capQty_eq_ok {floored : ℚ} (h : capQty floored x = .ok qty) :
    qty ≤ floored ∧ (x.positive → Above x qty) ∧ (qty = floored ∨ x = .finite qty) := by
  obtain ⟨limited, hlimited, h⟩ := bind_eq_ok.1 h
  cases limited with
  | false =>
    obtain rfl := Except.ok.inj h
    refine ⟨le_rfl, fun hpos => ?_, .inl rfl⟩
    rw [lessThan_of_positive hpos] at hlimited
    cases hlimited
  | true =>
    have hpos := positive_of_lessThan hlimited
    cases x with
    | finite m =>
      obtain rfl := Except.ok.inj h
      refine ⟨min_le_left _ _, fun _ => min_le_right floored m, ?_⟩
      rcases min_choice floored m with hmin | hmin
      · exact .inl hmin
      · exact .inr (by rw [hmin])
    | inf negative =>
      obtain rfl := Except.ok.inj h
      exact ⟨le_rfl, fun hpos => hpos, .inl rfl⟩
    | nan => cases hpos

/-- A quantity that the rules allow. -/
theorem invalidRules_eq_ok (h : order.invalidRules = .ok false) :
    0 < order.qty ∧ Below order.rules.minOrderQty order.qty := by
  rw [Order.invalidRules] at h
  split at h
  · cases h
  rename_i hqty
  obtain ⟨small, hsmall, h⟩ := bind_eq_ok.1 h
  cases small with
  | true => cases h
  | false => exact ⟨not_le.1 hqty, below_of_lessThan hsmall⟩

/-! ## A candidate -/

/-- The candidate waits. -/
def Waits (candidate : PyDict) (timestamp : ℤ) (decision : Decision) : Prop :=
  ∃ code reason checks, decision = wait candidate code reason checks timestamp

theorem Waits.of_wait (code reason : String) :
    Waits candidate timestamp (wait candidate code reason checks timestamp) := ⟨_, _, _, rfl⟩

theorem Waits.order_eq_none (h : Waits candidate timestamp decision) : decision.order = none := by
  obtain ⟨_, _, _, rfl⟩ := h
  rfl

/-- The candidate is sized by this order. -/
def IsSized (core : Core) (candidate : PyDict) (timestamp : ℤ) (order : Order)
    (decision : Decision) : Prop :=
  ∃ checks, decision = order.approve core candidate checks timestamp

/-- The quantity of an order, and what it obeys. -/
structure Allowed (core : Core) (request : Request) (order : Order) : Prop where
  request_eq : order.request = request
  rules : lotRules core request.symbol = .ok (.ok order.rules)
  qty_pos : 0 < order.qty
  qty_le : order.qty ≤ request.rawQty
  onStep : OnStep order.rules.qtyStep order.qty ∨ order.rules.maxOrderQty = .finite order.qty
  min_le : Below order.rules.minOrderQty order.qty
  le_max : order.rules.maxOrderQty.positive → Above order.rules.maxOrderQty order.qty

/-- The rules of the instrument either allow a quantity, or let the candidate wait. -/
theorem applyRules_eq_ok (hraw : 0 < request.rawQty)
    (h : applyRules core candidate request checks timestamp = .ok decision) :
    Waits candidate timestamp decision ∨
      ∃ order, Allowed core request order ∧ IsSized core candidate timestamp order decision := by
  obtain ⟨answer, hrules, h⟩ := bind_eq_ok.1 h
  cases answer with
  | error reason =>
    obtain rfl := pure_eq_ok.1 h
    exact .inl (.of_wait _ _)
  | ok rules =>
    obtain ⟨positive, hpositive, h⟩ := bind_eq_ok.1 h
    cases positive with
    | false =>
      obtain rfl := pure_eq_ok.1 h
      exact .inl (.of_wait _ _)
    | true =>
      obtain ⟨floored, hfloored, h⟩ := bind_eq_ok.1 h
      obtain ⟨qty, hcap, h⟩ := bind_eq_ok.1 h
      obtain ⟨invalid, hinvalid, h⟩ := bind_eq_ok.1 h
      obtain ⟨honStep, hle⟩ := floorToStep_eq_ok hraw (positive_of_lessThan hpositive) hfloored
      obtain ⟨hcapped, hmax, hcut⟩ := capQty_eq_ok hcap
      -- What is left is an order within the rules, unless the last check sends it away.
      cases invalid with
      | true =>
        obtain rfl := pure_eq_ok.1 h
        exact .inl (.of_wait _ _)
      | false =>
        obtain ⟨hqty, hmin⟩ := invalidRules_eq_ok hinvalid
        simp only [Bool.false_eq_true, ↓reduceIte] at h
        split at h
        · obtain rfl := pure_eq_ok.1 h
          exact .inl (.of_wait _ _)
        · obtain rfl := pure_eq_ok.1 h
          refine .inr ⟨⟨request, rules, qty⟩, ?_, _, rfl⟩
          refine ⟨rfl, hrules, hqty, hcapped.trans hle, ?_, hmin, hmax⟩
          rcases hcut with rfl | hcut
          · exact .inl honStep
          · exact .inr hcut

/-- A request that is sized has a budget, a distance to its stop, and margin. -/
theorem sizeRequest_eq_ok (h : sizeRequest core candidate request checks timestamp = .ok decision) :
    Waits candidate timestamp decision ∨
      0 < request.stopDistance ∧ 0 < request.rawQty ∧
        ∃ order, Allowed core request order ∧ IsSized core candidate timestamp order decision := by
  rw [sizeRequest] at h
  split at h
  · obtain rfl := Except.ok.inj h
    exact .inl (.of_wait _ _)
  split at h
  · obtain rfl := Except.ok.inj h
    exact .inl (.of_wait _ _)
  rename_i hstop
  dsimp only at h
  split at h
  · obtain rfl := Except.ok.inj h
    exact .inl (.of_wait _ _)
  rename_i hraw
  rcases applyRules_eq_ok (not_le.1 hraw) h with hwaits | hsized
  · exact .inl hwaits
  · exact .inr ⟨not_le.1 hstop, not_le.1 hraw, hsized⟩

/-- What an order is about: the numbers of its candidate, its plan, the wallet and the rules. -/
structure Concerns (core : Core) (candidate : PyDict) (wallet : Wallet) (order : Order) : Prop where
  entry : number (candidate.get "entryReference") 0 = .ok order.request.entry
  plan : ∃ reason, technicalPlan core candidate = .ok (some order.request.plan, reason)
  grade : gradeRiskPct ((candidate.get "grade").textOrEmpty core.repr) =
    some order.request.gradeRiskPct
  factor : ∃ q, number (candidate.get "riskSizeFactor") 1 = .ok q ∧
    order.request.riskFactor = max 0 (min 1 q)
  funds : wallet = .ok order.request.funds
  rules : lotRules core (symbolOf core candidate) = .ok (.ok order.rules)

/-- What the sizing keeps to: the quantity is within the rules, the risk within the budget, and the
    margin is there. -/
structure Fits (core : Core) (candidate : PyDict) (wallet : Wallet) (order : Order) : Prop where
  concerns : Concerns core candidate wallet order
  qty_pos : 0 < order.qty
  onStep : OnStep order.rules.qtyStep order.qty ∨ order.rules.maxOrderQty = .finite order.qty
  min_le : Below order.rules.minOrderQty order.qty
  le_max : order.rules.maxOrderQty.positive → Above order.rules.maxOrderQty order.qty
  risk : order.qty * |order.request.entry - order.request.plan.stopLoss| ≤
    order.request.riskBudget + 1 / 10 ^ 8

/-- The quantity of a request loses no more than its budget at the stop. -/
theorem Allowed.risk_le (h : Allowed core request order) (hstop : 0 < request.stopDistance) :
    order.qty * request.stopDistance ≤ request.riskBudget := by
  rw [← le_div_iff₀ hstop]
  exact h.qty_le.trans (min_le_left _ _)

/-- The margin that an order requires is left. -/
theorem Allowed.margin_le (h : Allowed core request order) (hentry : 0 < request.entry)
    (hraw : 0 < request.rawQty) :
    request.reservedMargin + order.requiredMargin ≤ request.funds.availableMargin := by
  have hpos : 0 < request.maxAvailableQty := hraw.trans_le (min_le_right _ _)
  have hle : order.qty ≤ request.maxAvailableQty := h.qty_le.trans (min_le_right _ _)
  have hleft : 0 < request.remainingAvailable := by
    by_contra hnone
    rw [Request.maxAvailableQty, if_neg hnone] at hpos
    exact lt_irrefl _ hpos
  rw [Request.maxAvailableQty, if_pos hleft, le_div_iff₀ hentry] at hle
  have hremaining : request.remainingAvailable =
      request.funds.availableMargin - request.reservedMargin := by
    rw [Request.remainingAvailable] at hleft ⊢
    exact max_eq_right (not_lt.1 fun hneg => by simp [hneg.le] at hleft)
  rw [Order.requiredMargin, Order.notional, h.request_eq]
  have : order.qty * request.entry / LEVERAGE ≤ request.remainingAvailable := by
    rw [div_le_iff₀ (by norm_num [LEVERAGE])]
    exact hle
  linarith

/-- A candidate waits, or is sized within its limits and the margin that is left. -/
theorem evaluateCandidate_eq_ok
    (h : evaluateCandidate core candidate wallet reserved timestamp = .ok decision) :
    Waits candidate timestamp decision ∨
      ∃ order, Fits core candidate wallet order ∧ IsSized core candidate timestamp order decision ∧
        reserved + order.requiredMargin ≤ order.request.funds.availableMargin := by
  obtain ⟨entry, hentry, h⟩ := bind_eq_ok.1 h
  split at h
  · obtain rfl := pure_eq_ok.1 h
    exact .inl (.of_wait _ _)
  rename_i hready
  obtain ⟨-, -, -, -, -, hpos, -⟩ := not_not.1 hready
  cases hgrade : gradeRiskPct ((candidate.get "grade").textOrEmpty core.repr) with
  | none =>
    rw [hgrade] at h
    obtain rfl := pure_eq_ok.1 h
    exact .inl (.of_wait _ _)
  | some riskPct =>
    rw [hgrade] at h
    obtain ⟨⟨plan, planReason⟩, hplan, h⟩ := bind_eq_ok.1 h
    cases plan with
    | none =>
      obtain rfl := pure_eq_ok.1 h
      exact .inl (.of_wait _ _)
    | some plan =>
      dsimp only at h
      split at h
      · obtain rfl := pure_eq_ok.1 h
        exact .inl (.of_wait _ _)
      cases wallet with
      | error reason =>
        obtain rfl := pure_eq_ok.1 h
        exact .inl (.of_wait _ _)
      | ok funds =>
        obtain ⟨riskFactor, hfactor, h⟩ := bind_eq_ok.1 h
        -- Every early exit waits; only a candidate with a request is sized.
        rcases sizeRequest_eq_ok h with hwaits | ⟨hstop, hraw, order, hallowed, hsized⟩
        · exact .inl hwaits
        refine .inr ⟨order, ?_, hsized, ?_⟩
        · have hrequest := hallowed.request_eq
          refine ⟨?_, hallowed.qty_pos, hallowed.onStep, hallowed.min_le, hallowed.le_max, ?_⟩
          · constructor
            · rw [hrequest]
              exact hentry
            · rw [hrequest]
              exact ⟨_, hplan⟩
            · rw [hrequest]
              exact hgrade
            · rw [hrequest]
              exact ⟨riskFactor, hfactor, rfl⟩
            · rw [hrequest]
            · exact hallowed.rules
          · have hrisk := hallowed.risk_le hstop
            rw [← hrequest] at hrisk
            exact hrisk.trans (le_add_of_nonneg_right (by norm_num))
        · rw [hallowed.request_eq]
          exact hallowed.margin_le hpos hraw

/-! ## A run -/

/-- The orders of a run. -/
def orders (decisions : List Decision) : List Order := decisions.filterMap Decision.order

/-- The row of a decision is one of the candidate, and approves it if there is an order, which
    fits. -/
structure Decided (core : Core) (timestamp : ℤ) (fits : PyDict → Order → Prop) (candidate : PyDict)
    (decision : Decision) : Prop where
  labelled : (decision.row.get "positionSizingStatus").isText "SIZING_APPROVED" =
    decision.order.isSome
  waits : decision.order = none → Waits candidate timestamp decision
  fits : ∀ order, decision.order = some order →
    IsSized core candidate timestamp order decision ∧ fits candidate order

/-- A run decides about every candidate, and the margins of all orders are available; without a
    candidate that waits, it decides the same about the others. -/
structure Sound (core : Core) (wallet : Wallet) (timestamp : ℤ) (queue : List PyDict)
    (decisions : List Decision) (fits : PyDict → Order → Prop) : Prop where
  decided : List.Forall₂ (Decided core timestamp fits) queue decisions
  margins : ∀ funds, wallet = .ok funds →
    ((orders decisions).map fun order => roundTo 8 order.requiredMargin).sum ≤
      funds.availableMargin + (orders decisions).length * (1 / 10 ^ 8)
  independent : ∀ i decision, decisions[i]? = some decision → decision.order = none →
    sizeAll core wallet timestamp 0 (queue.eraseIdx i) = .ok (decisions.eraseIdx i)

theorem Waits.label (h : Waits candidate timestamp decision) :
    (decision.row.get "positionSizingStatus").isText "SIZING_APPROVED" = false := by
  obtain ⟨code, reason, checks, rfl⟩ := h
  simp [wait, PyValue.isText]

theorem IsSized.label (h : IsSized core candidate timestamp order decision) :
    (decision.row.get "positionSizingStatus").isText "SIZING_APPROVED" := by
  obtain ⟨checks, rfl⟩ := h
  simp [Order.approve, PyValue.isText]

theorem IsSized.order_eq (h : IsSized core candidate timestamp order decision) :
    decision.order = some order := by
  obtain ⟨checks, rfl⟩ := h
  rfl

theorem sizeAll_cons_eq_ok :
    sizeAll core wallet timestamp reserved (candidate :: queue) = .ok decisions ↔
      ∃ decision rest, evaluateCandidate core candidate wallet reserved timestamp = .ok decision ∧
        sizeAll core wallet timestamp (reserved + decision.margin) queue = .ok rest ∧
        decisions = decision :: rest := by
  rw [sizeAll, bind_eq_ok]
  refine exists_congr fun decision => ?_
  rw [bind_eq_ok, ← exists_and_left]
  refine exists_congr fun rest => and_congr_right fun _ => and_congr_right fun _ => ?_
  rw [pure_eq_ok, eq_comm]

/-- What holds of each decision holds of a run. -/
theorem forall₂_of_sizeAll {R : PyDict → Decision → Prop}
    (hR : ∀ candidate reserved decision,
      evaluateCandidate core candidate wallet reserved timestamp = .ok decision →
        R candidate decision)
    (h : sizeAll core wallet timestamp reserved queue = .ok decisions) :
    List.Forall₂ R queue decisions := by
  induction queue generalizing reserved decisions with
  | nil =>
    obtain rfl := Except.ok.inj h
    exact .nil
  | cons candidate queue ih =>
    obtain ⟨decision, rest, hdecision, hrest, rfl⟩ := sizeAll_cons_eq_ok.1 h
    exact .cons (hR _ _ _ hdecision) (ih hrest)

/-- The margins of a run are available, after what was reserved before. -/
theorem margins_le {funds : Funds} (hreserved : reserved ≤ funds.availableMargin)
    (h : sizeAll core (.ok funds) timestamp reserved queue = .ok decisions) :
    reserved + ((orders decisions).map Order.requiredMargin).sum ≤ funds.availableMargin := by
  induction queue generalizing reserved decisions with
  | nil =>
    obtain rfl := Except.ok.inj h
    simpa [orders] using hreserved
  | cons candidate queue ih =>
    obtain ⟨decision, rest, hdecision, hrest, rfl⟩ := sizeAll_cons_eq_ok.1 h
    rcases evaluateCandidate_eq_ok hdecision with hwaits | ⟨order, hfits, hsized, hmargin⟩
    · rw [Decision.margin, hwaits.order_eq_none] at hrest
      rw [orders, List.filterMap_cons_none hwaits.order_eq_none]
      exact ih hreserved (by simpa using hrest)
    · have hfunds : order.request.funds = funds := (Except.ok.inj hfits.concerns.funds).symm
      rw [hfunds] at hmargin
      rw [Decision.margin, hsized.order_eq] at hrest
      rw [orders, List.filterMap_cons_some hsized.order_eq, List.map_cons, List.sum_cons,
        ← add_assoc]
      exact ih hmargin hrest

theorem roundTo_le (places : ℕ) (x : ℚ) : roundTo places x ≤ x + 1 / 10 ^ places := by
  have hpow : (0 : ℚ) < 10 ^ places := by positivity
  rw [roundTo, div_le_iff₀ hpow, add_mul, one_div_mul_cancel hpow.ne']
  linarith [Decimal.roundHalfEven_le_add_half (x * 10 ^ places)]

/-- Rounding to so many places adds no more than a unit of the last one to each number of a sum. -/
theorem sum_roundTo_le (places : ℕ) (f : Order → ℚ) (l : List Order) :
    (l.map fun order => roundTo places (f order)).sum ≤
      (l.map f).sum + l.length * (1 / 10 ^ places) := by
  induction l with
  | nil => simp
  | cons order l ih =>
    rw [List.map_cons, List.map_cons, List.sum_cons, List.sum_cons, List.length_cons]
    push_cast
    linarith [roundTo_le places (f order)]

/-- Without a candidate that waits, a run decides the same about the others. -/
theorem sizeAll_eraseIdx {i : ℕ} (hi : decisions[i]? = some decision)
    (hwaits : decision.order = none)
    (h : sizeAll core wallet timestamp reserved queue = .ok decisions) :
    sizeAll core wallet timestamp reserved (queue.eraseIdx i) = .ok (decisions.eraseIdx i) := by
  induction queue generalizing reserved decisions i with
  | nil =>
    obtain rfl := Except.ok.inj h
    cases hi
  | cons candidate queue ih =>
    obtain ⟨first, rest, hfirst, hrest, rfl⟩ := sizeAll_cons_eq_ok.1 h
    cases i with
    | zero =>
      obtain rfl := Option.some.inj hi
      rw [Decision.margin, hwaits] at hrest
      simpa using hrest
    | succ i => exact sizeAll_cons_eq_ok.2 ⟨first, _, hfirst, ih hi hrest, rfl⟩

theorem decided_of_evaluateCandidate
    (h : evaluateCandidate core candidate wallet reserved timestamp = .ok decision) :
    Decided core timestamp (fun candidate order => Fits core candidate wallet order) candidate
      decision := by
  rcases evaluateCandidate_eq_ok h with hwaits | ⟨order, hfits, hsized, -⟩
  · refine ⟨?_, fun _ => hwaits, fun order horder => ?_⟩
    · rw [hwaits.label, hwaits.order_eq_none]
      rfl
    · rw [hwaits.order_eq_none] at horder
      cases horder
  · refine ⟨?_, fun hnone => ?_, fun order' horder => ?_⟩
    · rw [hsized.label, hsized.order_eq]
      rfl
    · rw [hsized.order_eq] at hnone
      cases hnone
    · obtain rfl := Option.some.inj (hsized.order_eq.symm.trans horder)
      exact ⟨hsized, hfits⟩

/-- A run that ends is sound. -/
theorem sizeAll_sound (h : sizeAll core wallet timestamp 0 queue = .ok decisions) :
    Sound core wallet timestamp queue decisions fun candidate order =>
      Fits core candidate wallet order where
  decided := forall₂_of_sizeAll (fun _ _ _ => decided_of_evaluateCandidate) h
  margins := by
    rintro funds rfl
    have hsum := margins_le funds.available_nonneg h
    rw [zero_add] at hsum
    exact (sum_roundTo_le 8 Order.requiredMargin _).trans (by gcongr)
  independent i decision hi hwaits := sizeAll_eraseIdx hi hwaits h

/-! ## What is published -/

/-- The run of a source that is ready decides about its queue. -/
theorem run_eq (hready : sourceReady core source) :
    run core (.ok wallet) timestamp source =
      sizeAll core wallet timestamp 0 (approvedRiskQueue source) := by
  rw [run, require, if_pos hready]
  dsimp only [bind, Except.bind]
  split
  · rename_i hempty
    rw [hempty]
    rfl
  · rfl

/-- A run that ends publishes a row for each candidate, keeps to the limits of each, and to the
    margin there is. -/
theorem build_sound (state : SizingState) (hready : sourceReady core source)
    (h : run core (.ok wallet) timestamp source = .ok decisions) :
    build core (.ok wallet) timestamp source state = published core timestamp source decisions ∧
      Sound core wallet timestamp (approvedRiskQueue source) decisions fun candidate order =>
        Fits core candidate wallet order := by
  refine ⟨?_, ?_⟩
  · rw [build, h]
  · rw [run_eq hready] at h
    exact sizeAll_sound h

/-! ## An instrument -/

/-- A quantity of one tenth at least, in steps of one tenth, and a largest one. -/
def lotOf (qtyStep maxOrderQty : PyValue) : PyDict :=
  [("ok", .bool true), ("qtyStep", qtyStep), ("minOrderQty", .str "0.1"),
    ("maxOrderQty", maxOrderQty), ("minNotionalValue", .str "5")]

/-- A core with these rules for every symbol. -/
def coreOf (rules : PyDict) : Core where
  repr := fun _ => ""
  decimalText := fun _ => ""
  formatQty := fun _ => ""
  fetchCandles := fun _ _ => .ok (none, "Kline fetch failed")
  getInstrumentRules := fun _ => .ok (.dict rules)
  setup := none
  costGate := fun _ _ _ _ _ => ⟨[], 0⟩

/-- A wallet of a thousand. -/
def thousand : Funds where
  equity := 1000
  availableMargin := 1000
  availableMarginSource := "BYBIT_TOTAL_AVAILABLE_BALANCE"
  availableMarginFallbackApplied := false
  currentInitialMargin := 0
  equity_pos := by norm_num
  available_nonneg := by norm_num
  initial_nonneg := by norm_num

/-- The state before the first run. -/
def idle : SizingState := ⟨"idle", .none, "", 0, [], [], none⟩

end IntradayBot.Sizing
