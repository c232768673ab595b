import IntradayBot.Data.Decimal
import IntradayBot.Entry.Safety

/-!
# Position sizing

Risk approval decides whether a candidate is traded; the sizing only calculates with how much
(`evaluateCandidate`). It takes the structural stop and target of the setup (`technicalPlan`), the
quantity that loses the risk budget at the stop, what the margin that is left allows, and the rules
of the instrument. A candidate that cannot be sized waits.

A run (`build`) sizes its queue in order: the margin of each candidate that is sized is reserved
before the next one.

Numbers are exact, and the `Decimal`s those of the `Double`s here, with their infinities and `NaN`.
-/

namespace IntradayBot.Sizing

open Entry (number sortedKeys)
open PyText

/-! ## Decimals -/

/-- The message of `InvalidOperation`. -/
def invalidOperation : String := "[<class 'decimal.InvalidOperation'>]"

/-- The `Decimal` of a text that writes no finite number. -/
def notFinite (text : String) : Double :=
  let signed := Json.signed (((stripChars text.toList).filter (· ≠ '_')).map asciiDigit)
  let word := signed.2.map Char.toLower
  if word = "inf".toList ∨ word = "infinity".toList then .inf (signed.1 < 0) else .nan

/-- `Decimal(str(value or "0"))` -/
def decimal (repr : PyValue → String) (value : PyValue) : Except String Double :=
  let text := value.textOr repr "0"
  match decimalOfText text with
  | none => .error "[<class 'decimal.ConversionSyntax'>]"
  | some none => .ok (notFinite text)
  | some (some q) => .ok (.finite q)

/-- `x < y`, for `Decimal`s. -/
def lessThan : Double → Double → Except String Bool
  | .nan, _ | _, .nan => .error invalidOperation
  | .finite x, .finite y => .ok (x < y)
  | .inf negative, .finite _ => .ok negative
  | .finite _, .inf negative => .ok !negative
  | .inf x, .inf y => .ok (x && !y)

/-- `floor_to_step(value, step)`: dividing by an infinity gives zero, which it does not multiply. -/
def floorToStep (value : ℚ) (step : Double) : Except String ℚ := do
  if ← lessThan (.finite 0) step then
    match step with
    | .finite q => return Decimal.truncate (value / q) * q
    | _ => .error invalidOperation
  else return value

/-- `round(x, places)` -/
def roundTo (places : ℕ) (x : ℚ) : ℚ := Decimal.roundHalfEven (x * 10 ^ places) / 10 ^ places

/-! ## The core -/

/-- A candle of fifteen minutes. -/
structure Candle where
  time : ℤ
  low : ℚ
  high : ℚ
  close : ℚ

/-- `settings()` of the setup worker. -/
structure SetupSettings where
  minimumClosedCandles : ℤ
  minimumRiskReward : ℚ
  structureLookback : ℤ

/-- The estimate of the costs, and the target that it asks for; `0` if there is none. -/
structure CostGate where
  record : PyDict
  adjustedTakeProfitPct : ℚ

/-- What the sizing asks. -/
structure Core where
  /-- `str` of a value that is no text. -/
  repr : PyValue → String
  /-- `str` of a `Decimal`. -/
  decimalText : Double → String
  /-- `format_qty(value)` -/
  formatQty : ℚ → String
  /-- `fetch_candles(symbol, "15", limit)` -/
  fetchCandles : String → ℤ → Except String (Option (List Candle) × String)
  /-- `get_instrument_rules(symbol)`, the `Decimal`s as their texts. -/
  getInstrumentRules : String → Except String PyValue
  /-- The settings of the setup worker, if it is installed. -/
  setup : Option SetupSettings
  /-- The costs of a symbol, with the distances of the stop and the target, the notional and the
      risk; or why there is no estimate. -/
  costGate : String → ℚ → ℚ → ℚ → ℚ → CostGate

/-- The funds of an account. -/
structure Funds where
  equity : ℚ
  availableMargin : ℚ
  availableMarginSource : String
  availableMarginFallbackApplied : Bool
  currentInitialMargin : ℚ
  equity_pos : 0 < equity
  available_nonneg : 0 ≤ availableMargin
  initial_nonneg : 0 ≤ currentInitialMargin

/-- The wallet, or the reason why it is not known. -/
abbrev Wallet := Except String Funds

/-- `text or default` -/
def textOr (text default : String) : String := if text = "" then default else text

/-- The initial margin of the open positions. -/
def positionsMargin (total : ℚ) : List PyDict → Except String (Except String ℚ)
  | [] => .ok (.ok total)
  | position :: positions => do
    let margin ← number ((position.get "positionIM").orElse (position.get "positionIMByMp")) (-1)
    if margin < 0 then
      return .error "An open position has no authoritative initial-margin value"
    else positionsMargin (total + margin) positions

/-- The initial margin of an account; `positions` is missing if they cannot be read. -/
def initialMargin (initial : ℚ) (positions : Option (Except String (List PyDict))) :
    Except String (Except String ℚ) :=
  if 0 ≤ initial then .ok (.ok initial)
  else match positions with
    | none => .ok (.error "Current initial margin is unavailable")
    | some (.error reason) => .ok (.error (textOr reason "Open positions unavailable"))
    | some (.ok positions) => positionsMargin 0 positions

/-- The funds, the available margin from the equity where the exchange does not report it. -/
def fundsOf (equity available initial : ℚ) (h : 0 < equity) : Funds :=
  let currentInitial := max 0 initial
  if hnonneg : 0 ≤ available then
    ⟨equity, available, "BYBIT_TOTAL_AVAILABLE_BALANCE", false, currentInitial, h, hnonneg,
      le_max_left _ _⟩
  else
    ⟨equity, max 0 (equity - currentInitial), "EQUITY_MINUS_CURRENT_INITIAL_MARGIN", true,
      currentInitial, h, le_max_left _ _, le_max_left _ _⟩

/-- `_wallet_snapshot(core)`, of the answers to the two requests. -/
def walletSnapshot (payload : Except String Entry.Payload)
    (positions : Option (Except String (List PyDict))) : Except String Wallet :=
  match payload with
  | .error message => .ok (.error s!"Wallet margin request failed: {message}")
  | .ok payload =>
    if payload.retCode ≠ 0 then
      .ok (.error (textOr payload.retMsg "Wallet margin data unavailable"))
    else do
      let account := payload.list.headD []
      let equity ← number (account.get "totalEquity") 0
      let available ← number (account.get "totalAvailableBalance") (-1)
      let initial ← number (account.get "totalInitialMargin") (-1)
      if h : 0 < equity then
        return (← initialMargin initial positions).map fun initial =>
          fundsOf equity available initial h
      else return .error "Wallet equity is unavailable"

/-! ## The technical plan -/

/-- The prices of a plan. -/
structure Plan where
  entryReference : ℚ
  stopLoss : ℚ
  takeProfitReference : ℚ

/-- The symbol of a candidate: symbols are ASCII texts. -/
def symbolOf (core : Core) (candidate : PyDict) : String :=
  Json.upperCase ((candidate.get "symbol").textOrEmpty core.repr)

/-- The side of a candidate. -/
def sideOf (core : Core) (candidate : PyDict) : String :=
  (candidate.get "side").textOrEmpty core.repr

/-- `filter_closed_candles(candles, "15", now_ms)` -/
def filterClosedCandles (candles : List Candle) (nowMs : ℤ) : List Candle :=
  candles.filter fun candle => candle.time + 900000 ≤ nowMs

/-- `_price_plan(candles, side, minimum_rr, lookback)` of the setup worker. -/
def pricePlan (candles : List Candle) (side : String) (minimumRr : ℚ) (lookback : ℕ) :
    Option Plan × String :=
  let window := candles.drop (candles.length - lookback)
  match candles.getLast? with
  | none => (none, "Not enough closed 15M structure history")
  | some last =>
    if window.length < lookback then (none, "Not enough closed 15M structure history")
    else if last.close ≤ 0 then (none, "Invalid entry reference")
    else
      let entry := last.close
      let stop := if side = "Buy" then ((window.map Candle.low).min?).getD 0
        else ((window.map Candle.high).max?).getD 0
      let risk := if side = "Buy" then entry - stop else stop - entry
      let take := if side = "Buy" then entry + risk * minimumRr else entry - risk * minimumRr
      if risk ≤ 0 ∨ take ≤ 0 then (none, "Invalid structural stop or target")
      else if |take - entry| / risk + 1 / 10 ^ 9 < minimumRr then
        (none, "Risk/reward is below minimum")
      else
        (some ⟨roundTo 12 entry, roundTo 12 stop, roundTo 12 take⟩,
          "Minimum structural risk/reward confirmed")

/-- The plan of the setup, from its closed candles. -/
def setupPlan (core : Core) (cfg : SetupSettings) (candidate : PyDict) :
    Except String (Option Plan × String) := do
  let symbol := symbolOf core candidate
  let side := sideOf core candidate
  let setupTime := Entry.truncate (← number (candidate.get "setupFifteenMinuteCandleTime") 0)
  if symbol = "" ∨ side ∉ ["Buy", "Sell"] ∨ setupTime ≤ 0 then
    return (none, "Technical setup identity is incomplete")
  else do
    let minimum := max 1 cfg.minimumClosedCandles
    let lookback := max 1 cfg.structureLookback
    let minimumRr := max 0 cfg.minimumRiskReward
    let (candles, message) ← core.fetchCandles symbol (max 80 (minimum + 5))
    let closed := filterClosedCandles (candles.getD []) (setupTime + 15 * 60 * 1000)
    let history := closed.filter fun candle => candle.time ≤ setupTime
    if history.getLast?.map Candle.time ≠ some setupTime then
      return (none, textOr message "Exact closed-15M setup candle is unavailable")
    else if history.length < max minimum lookback then
      return (none, "Not enough closed 15M history for the structural plan")
    else return pricePlan history side minimumRr lookback.toNat

/-- `_technical_plan(core, candidate)` -/
def technicalPlan (core : Core) (candidate : PyDict) : Except String (Option Plan × String) := do
  let carriedStop ← number ((candidate.get "technicalStopLoss").orElse
    ((candidate.get "stopLoss").orElse (candidate.get "stopLossPrice"))) 0
  let carriedTake ← number ((candidate.get "takeProfitReference").orElse
    ((candidate.get "takeProfit").orElse (candidate.get "takeProfitPrice"))) 0
  let carriedEntry ← number (candidate.get "entryReference") 0
  if 0 < carriedStop ∧ 0 < carriedTake ∧ 0 < carriedEntry then
    return (some ⟨carriedEntry, carriedStop, carriedTake⟩, "Upstream structural plan reused")
  else match core.setup with
    | none => return (none, "Existing setup-worker price-plan helper is unavailable")
    | some cfg => setupPlan core cfg candidate

/-! ## Quantities -/

/-- `GRADE_RISK_PCT` -/
def gradeRiskPct (grade : String) : Option ℚ := if grade ∈ ["A+", "A"] then some 1 else none

/-- `LEVERAGE` -/
def LEVERAGE : ℚ := 10

/-- What is sized. -/
structure Setup where
  symbol : String
  side : String
  grade : String
  entry : ℚ
  plan : Plan
  gradeRiskPct : ℚ

namespace Setup

variable (setup : Setup)

/-- `stop_valid` -/
def stopValid : Bool :=
  0 < setup.plan.stopLoss ∧ (setup.side = "Buy" ∧ setup.plan.stopLoss < setup.entry ∨
    setup.side = "Sell" ∧ setup.entry < setup.plan.stopLoss)

/-- `take_valid` -/
def takeValid : Bool :=
  0 < setup.plan.takeProfitReference ∧
    (setup.side = "Buy" ∧ setup.entry < setup.plan.takeProfitReference ∨
      setup.side = "Sell" ∧ setup.plan.takeProfitReference < setup.entry)

/-- `stop_distance` -/
def stopDistance : ℚ := |setup.entry - setup.plan.stopLoss|

end Setup

/-- What is sized, with its risk and the funds. -/
structure Request extends Setup where
  riskFactor : ℚ
  funds : Funds
  reservedMargin : ℚ

namespace Request

variable (request : Request)

/-- `effective_risk_pct` -/
def effectiveRiskPct : ℚ := request.gradeRiskPct * request.riskFactor

/-- `risk_budget` -/
def riskBudget : ℚ := request.funds.equity * (request.effectiveRiskPct / 100)

/-- `raw_risk_qty` -/
def rawRiskQty : ℚ := request.riskBudget / request.stopDistance

/-- `remaining_available` -/
def remainingAvailable : ℚ := max 0 (request.funds.availableMargin - request.reservedMargin)

/-- `max_available_qty` -/
def maxAvailableQty : ℚ :=
  if 0 < request.remainingAvailable then request.remainingAvailable * LEVERAGE / request.entry
  else 0

/-- `raw_qty` -/
def rawQty : ℚ := min request.rawRiskQty request.maxAvailableQty

/-- `margin_reduced` -/
def marginReduced : Bool := request.rawQty + 1 / 10 ^ 12 < request.rawRiskQty

end Request

/-- The rules of an instrument. -/
structure LotRules where
  qtyStep : Double
  minOrderQty : Double
  maxOrderQty : Double
  minNotionalValue : Double
  deriving DecidableEq

/-- The rules of a symbol, or the reason why they are not known. -/
def lotRules (core : Core) (symbol : String) : Except String (Except String LotRules) := do
  match ← core.getInstrumentRules symbol with
  | .dict rules =>
    if ¬(PyDict.get rules "ok").truthy then
      return .error ((PyDict.get rules "reason").textOr core.repr
        "Bybit instrument rules unavailable")
    else
      let qtyStep ← decimal core.repr (PyDict.get rules "qtyStep")
      let minOrderQty ← decimal core.repr (PyDict.get rules "minOrderQty")
      let maxOrderQty ← decimal core.repr (PyDict.get rules "maxOrderQty")
      let minNotionalValue ← decimal core.repr (PyDict.get rules "minNotionalValue")
      return .ok ⟨qtyStep, minOrderQty, maxOrderQty, minNotionalValue⟩
  | rules =>
    if rules.truthy then .error s!"'{rules.typeName}' object has no attribute 'get'"
    else return .error "Bybit instrument rules unavailable"

/-- `min(qty, max_qty)`, where there is a maximum. -/
def capQty (qty : ℚ) (maxQty : Double) : Except String ℚ := do
  if ← lessThan (.finite 0) maxQty then
    match maxQty with
    | .finite q => return min qty q
    | _ => return qty
  else return qty

/-- A quantity, with its rules. -/
structure Order where
  request : Request
  rules : LotRules
  qty : ℚ

namespace Order

variable (order : Order)

/-- `notional` -/
def notional : ℚ := order.qty * order.request.entry

/-- `actual_risk` -/
def actualRisk : ℚ := order.qty * order.request.stopDistance

/-- `required_margin` -/
def requiredMargin : ℚ := order.notional / LEVERAGE

/-- `projected_total_margin` -/
def projectedTotalMargin : ℚ :=
  order.request.funds.currentInitialMargin + order.request.reservedMargin + order.requiredMargin

/-- `projected_free_margin` -/
def projectedFreeMargin : ℚ := order.request.funds.equity - order.projectedTotalMargin

/-- `invalid_rules` -/
def invalidRules : Except String Bool := do
  if order.qty ≤ 0 then return true
  else if ← lessThan (.finite order.qty) order.rules.minOrderQty then return true
  else if (← lessThan (.finite 0) order.rules.maxOrderQty) &&
      (← lessThan order.rules.maxOrderQty (.finite order.qty)) then return true
  else if ← lessThan (.finite 0) order.rules.minNotionalValue then
    lessThan (.finite order.notional) order.rules.minNotionalValue
  else return false

/-- `risk_or_available_violation` -/
def violation : Bool :=
  order.request.remainingAvailable + 1 / 10 ^ 8 < order.requiredMargin ∨
    order.request.riskBudget + 1 / 10 ^ 8 < order.actualRisk

end Order

/-! ## Records -/

/-- `POLICY_ID` -/
def POLICY_ID : String := "POSITION_SIZING_NON_REJECTING_2026_08_08"

/-- `MARGIN_MODE` -/
def MARGIN_MODE : String := "ISOLATED"

/-- A number of a record. -/
def num (q : ℚ) : PyValue := .float (.finite q)

/-- What is decided about a candidate: its row, and the order if it is sized. -/
structure Decision where
  row : PyDict
  order : Option Order

/-- The margin that a decision takes. -/
def Decision.margin (decision : Decision) : ℚ := decision.order.elim 0 Order.requiredMargin

/-- `_wait(candidate, code, reason, checks, timestamp)` -/
def wait (candidate : PyDict) (code reason : String) (checks : PyDict) (timestamp : ℤ) :
    Decision where
  row := candidate.update
    [("positionSizingStatus", .str "SIZING_WAIT"), ("sizingPolicyId", .str POLICY_ID),
      ("sizingDecisionAt", .int timestamp), ("sizingApproved", .bool false),
      ("sizingDecision", .dict [("ok", .bool false), ("code", .str code), ("reason", .str reason),
        ("checks", .dict checks), ("tradeRejected", .bool false), ("retryable", .bool true)]),
      ("executionStatus", .str "AWAITING_SIZING_DATA"), ("orderSubmitted", .bool false),
      ("tradeRejected", .bool false)]
  order := none

/-- `checks["technicalPlan"]`, before the prices are known. -/
def planCheck (candidate : PyDict) (ok : Bool) (reason : String) : PyDict :=
  [("ok", .bool ok), ("reason", .str reason),
    ("source", .str "upstream_or_setup_worker_structural_plan"),
    ("setupFifteenMinuteCandleTime", candidate.get "setupFifteenMinuteCandleTime")]

/-- The prices of `checks["technicalPlan"]`. -/
def Setup.priceCheck (setup : Setup) : PyDict :=
  [("stopLoss", num setup.plan.stopLoss),
    ("takeProfitReference", num setup.plan.takeProfitReference),
    ("setupEntryReference", num setup.plan.entryReference),
    ("stopValidForEntry", .bool setup.stopValid), ("takeValidForEntry", .bool setup.takeValid)]

/-- `checks["riskAndMargin"]` -/
def Request.marginCheck (request : Request) : PyDict :=
  [("grade", .str request.grade), ("gradeRiskPct", num request.gradeRiskPct),
    ("existingRiskSizeFactor", num request.riskFactor),
    ("effectiveRiskPct", num request.effectiveRiskPct), ("riskBudgetUsdt", num request.riskBudget),
    ("riskQuantity", num request.rawRiskQty), ("marginMode", .str MARGIN_MODE),
    ("leverage", num LEVERAGE), ("riskMultipliedByLeverage", .bool false),
    ("equity", num request.funds.equity), ("availableMargin", num request.funds.availableMargin),
    ("availableMarginSource", .str request.funds.availableMarginSource),
    ("availableMarginFallbackApplied", .bool request.funds.availableMarginFallbackApplied),
    ("currentInitialMargin", num request.funds.currentInitialMargin),
    ("reservedMarginThisCycle", num request.reservedMargin),
    ("remainingAvailableMarginUsdt", num request.remainingAvailable),
    ("availableMarginQuantityCap", num request.maxAvailableQty),
    ("quantityReducedByAvailableMargin", .bool request.marginReduced),
    ("fixedPerTradeMarginCapEnabled", .bool false), ("fixedCombinedMarginCapEnabled", .bool false),
    ("fixedFreeReserveGateEnabled", .bool false)]

namespace Order

variable (order : Order) (core : Core)

/-- `checks["bybitRules"]` -/
def rulesCheck (invalid : Bool) : PyDict :=
  [("ok", .bool !invalid), ("qtyStep", .str (core.decimalText order.rules.qtyStep)),
    ("minOrderQty", .str (core.decimalText order.rules.minOrderQty)),
    ("maxOrderQty", .str (core.decimalText order.rules.maxOrderQty)),
    ("minNotionalValue", .str (core.decimalText order.rules.minNotionalValue)),
    ("roundedQty", .str (core.decimalText (.finite order.qty))),
    ("notional", .str (core.decimalText (.finite order.notional)))]

/-- `checks["marginProjection"]` -/
def projectionCheck : PyDict :=
  [("ok", .bool !order.violation), ("requiredInitialMarginUsdt", num order.requiredMargin),
    ("projectedTotalInitialMarginUsdt", num order.projectedTotalMargin),
    ("projectedFreeMarginUsdt", num order.projectedFreeMargin),
    ("remainingAvailableMarginUsdt", num order.request.remainingAvailable),
    ("fixedMarginCapsEnabled", .bool false)]

/-- The estimate of the costs of an order. -/
def costs : CostGate :=
  let request := order.request
  core.costGate request.symbol (request.stopDistance / request.entry * 100)
    (|request.plan.takeProfitReference - request.entry| / request.entry * 100) order.notional
    order.actualRisk

/-- The record of the costs, which decide nothing. -/
def costRecord : PyDict := (order.costs core).record.set "sizingGate" (.bool false)

/-- `adjusted_take` -/
def adjustedTake : ℚ :=
  let request := order.request
  let adjustedDistance := request.entry * ((order.costs core).adjustedTakeProfitPct / 100)
  let candidateTake :=
    if request.side = "Buy" then request.entry + adjustedDistance
    else request.entry - adjustedDistance
  if 0 < (order.costs core).adjustedTakeProfitPct ∧
      (request.side = "Buy" ∧ request.entry < candidateTake ∨
        request.side = "Sell" ∧ candidateTake < request.entry) then candidateTake
  else request.plan.takeProfitReference

/-- `risk_reward` -/
def riskReward : ℚ := |order.adjustedTake core - order.request.entry| / order.request.stopDistance

/-- The decision to size a candidate. -/
def approve (candidate checks : PyDict) (timestamp : ℤ) : Decision where
  row :=
    let request := order.request
    let checks := checks ++ [("costAndNetRr", .dict (order.costRecord core))]
    candidate.update
      [("positionSizingStatus", .str "SIZING_APPROVED"), ("sizingPolicyId", .str POLICY_ID),
        ("sizingDecisionAt", .int timestamp), ("sizingApproved", .bool true),
        ("sizingDecision", .dict [("ok", .bool true), ("code", .str "SIZING_APPROVED"),
          ("reason", .str ("Risk-approved trade sized for Node execution; " ++
            "sizing is not a rejection authority")),
          ("checks", .dict checks), ("tradeRejected", .bool false)]),
        ("qualityGrade", .str request.grade), ("gradeRiskPct", num request.gradeRiskPct),
        ("effectiveRiskPerTradePct", num (roundTo 6 request.effectiveRiskPct)),
        ("riskBudgetUsdt", num (roundTo 8 request.riskBudget)),
        ("actualStopRiskUsdt", num (roundTo 8 order.actualRisk)),
        ("entryReference", num (roundTo 12 request.entry)),
        ("technicalStopLoss", num (roundTo 12 request.plan.stopLoss)),
        ("technicalStopSource", .str "CLOSED_15M_STRUCTURE_OR_UPSTREAM_PLAN"),
        ("originalTakeProfitReference", num (roundTo 12 request.plan.takeProfitReference)),
        ("takeProfitReference", num (roundTo 12 (order.adjustedTake core))),
        ("riskReward", num (roundTo 4 (order.riskReward core))),
        ("costGate", .dict (order.costRecord core)), ("qty", .str (core.formatQty order.qty)),
        ("rawRiskQty", .str (core.formatQty request.rawRiskQty)),
        ("rawMarginCappedQty", .str (core.formatQty request.rawQty)),
        ("notional", .str (core.formatQty order.notional)), ("marginMode", .str MARGIN_MODE),
        ("leverage", .int 10),
        ("requiredInitialMarginUsdt", num (roundTo 8 order.requiredMargin)),
        ("projectedTotalInitialMarginUsdt", num (roundTo 8 order.projectedTotalMargin)),
        ("projectedFreeMarginUsdt", num (roundTo 8 order.projectedFreeMargin)),
        ("marginReducedQuantity", .bool request.marginReduced),
        ("marginCaps", .dict [("fixedPerTradeEnabled", .bool false),
          ("fixedCombinedEnabled", .bool false), ("fixedFreeReserveEnabled", .bool false)]),
        ("nodeExecutionRequirements", .dict [("marginMode", .str MARGIN_MODE),
          ("leverage", .int 10), ("maximumLeverage", .int 10),
          ("revalidateWalletAndInstrumentRules", .bool true),
          ("submitOnlyAfterRevalidation", .bool true)]),
        ("executionStatus", .str "AWAITING_NODE_EXECUTION"), ("orderSubmitted", .bool false),
        ("tradeRejected", .bool false)]
  order := some order

end Order

/-! ## A candidate -/

/-- The candidate is approved by Risk, and complete. -/
def InputReady (core : Core) (candidate : PyDict) (entry : ℚ) : Prop :=
  (candidate.get "riskApproved").truthy ∧ (candidate.get "riskStatus").isText "APPROVED_RISK" ∧
    (candidate.get "candidateKey").truthy ∧ symbolOf core candidate ≠ "" ∧
    sideOf core candidate ∈ ["Buy", "Sell"] ∧ 0 < entry ∧ (candidate.get "orderSubmitted").isFalse

instance (core : Core) (candidate : PyDict) (entry : ℚ) :
    Decidable (InputReady core candidate entry) :=
  inferInstanceAs (Decidable (_ ∧ _))

/-- The part of `_evaluate_candidate` that applies the rules of the instrument. -/
def applyRules (core : Core) (candidate : PyDict) (request : Request) (checks : PyDict)
    (timestamp : ℤ) : Except String Decision := do
  match ← lotRules core request.symbol with
  | .error reason => return wait candidate "INSTRUMENT_RULES_WAIT" reason checks timestamp
  | .ok rules =>
    if ← lessThan (.finite 0) rules.qtyStep then
      let floored ← floorToStep request.rawQty rules.qtyStep
      let qty ← capQty floored rules.maxOrderQty
      let order : Order := ⟨request, rules, qty⟩
      let invalid ← order.invalidRules
      let checks := checks ++ [("bybitRules", .dict (order.rulesCheck core invalid)),
        ("marginProjection", .dict order.projectionCheck)]
      if invalid then
        return wait candidate "BYBIT_ORDER_RULE_WAIT"
          ("Calculated quantity cannot currently satisfy Bybit quantity/min-notional rules " ++
            "within approved risk") checks timestamp
      else if order.violation then
        return wait candidate "RISK_OR_MARGIN_RECALC_WAIT"
          ("Rounded quantity needs recalculation within approved risk and real available " ++
            "margin") checks timestamp
      else return order.approve core candidate checks timestamp
    else
      return wait candidate "INSTRUMENT_RULES_WAIT" "Bybit quantity step is unavailable" checks
        timestamp

/-- The part of `_evaluate_candidate` that sizes a candidate by its risk and the margin. -/
def sizeRequest (core : Core) (candidate : PyDict) (request : Request) (checks : PyDict)
    (timestamp : ℤ) : Except String Decision :=
  if request.effectiveRiskPct ≤ 0 then
    .ok (wait candidate "RISK_SIZE_FACTOR_WAIT"
      "Authoritative risk size factor is zero; wait for a non-zero risk allocation" checks
      timestamp)
  else if request.stopDistance ≤ 0 then
    .ok (wait candidate "TECHNICAL_PLAN_WAIT" "Structural stop distance is zero" checks timestamp)
  else
    let checks := checks ++ [("riskAndMargin", .dict request.marginCheck)]
    if request.rawQty ≤ 0 then
      .ok (wait candidate "AVAILABLE_MARGIN_WAIT"
        "No real available margin currently remains for this risk-sized position" checks timestamp)
    else applyRules core candidate request checks timestamp

/-- `_evaluate_candidate(core, candidate, wallet, reserved_margin, timestamp)` -/
def evaluateCandidate (core : Core) (candidate : PyDict) (wallet : Wallet) (reservedMargin : ℚ)
    (timestamp : ℤ) : Except String Decision := do
  let grade := (candidate.get "grade").textOrEmpty core.repr
  let entry ← number (candidate.get "entryReference") 0
  if ¬InputReady core candidate entry then
    return wait candidate "SIZING_INPUT_NOT_READY"
      "Risk-approved candidate identity or entry state is incomplete" [] timestamp
  else match gradeRiskPct grade with
    | none =>
      return wait candidate "UPSTREAM_RISK_GRADE_MISMATCH"
        ("Sizing received a grade that should have been resolved by Risk; " ++
          "eligibility is not changed here") [] timestamp
    | some riskPct =>
      let (plan, planReason) ← technicalPlan core candidate
      match plan with
      | none =>
        return wait candidate "TECHNICAL_PLAN_WAIT" planReason
          [("technicalPlan", .dict (planCheck candidate false planReason))] timestamp
      | some plan =>
        let setup : Setup :=
          ⟨symbolOf core candidate, sideOf core candidate, grade, entry, plan, riskPct⟩
        let checks : PyDict :=
          [("technicalPlan", .dict (planCheck candidate true planReason ++ setup.priceCheck))]
        if ¬(setup.stopValid ∧ setup.takeValid) then
          return wait candidate "TECHNICAL_PLAN_WAIT"
            "Structural SL/TP is not executable for the current closed-5M entry" checks timestamp
        else match wallet with
          | .error reason =>
            return wait candidate "WALLET_DATA_WAIT"
              (textOr reason "Wallet margin data unavailable") checks timestamp
          | .ok funds =>
            let riskFactor ← number (candidate.get "riskSizeFactor") 1
            let request : Request := ⟨setup, max 0 (min 1 riskFactor), funds, reservedMargin⟩
            sizeRequest core candidate request checks timestamp

/-! ## Runs -/

/-- The decisions about a queue, after so much margin is reserved. -/
def sizeAll (core : Core) (wallet : Wallet) (timestamp : ℤ) :
    ℚ → List PyDict → Except String (List Decision)
  | _, [] => .ok []
  | reservedMargin, candidate :: queue => do
    let decision ← evaluateCandidate core candidate wallet reservedMargin timestamp
    let decisions ← sizeAll core wallet timestamp (reservedMargin + decision.margin) queue
    return decision :: decisions

/-- The state that the sizing publishes. -/
structure SizingState where
  status : String
  fiveMinuteCandleTime : PyValue
  /-- `None` is the empty text. -/
  inputFingerprint : String
  updatedAt : ℤ
  rows : List PyDict
  approvedSizingQueue : List PyDict
  lastError : Option String

/-- The snapshot of Risk may be sized. -/
def sourceReady (core : Core) (source : PyDict) : Bool :=
  (source.get "status").textOrEmpty core.repr ∈ ["ready", "empty"]

/-- `source.get("approvedRiskQueue")` -/
def approvedRiskQueue (source : PyDict) : List PyDict := (source.get "approvedRiskQueue").dictRows

/-- `_fingerprint(upstream)` -/
def fingerprint (core : Core) (source : PyDict) : String :=
  (source.get "inputFingerprint").textOrEmpty core.repr ++ ":" ++
    sortedKeys core.repr (approvedRiskQueue source)

/-- The decisions of a run; the wallet is read if there is something to size. -/
def run (core : Core) (wallet : Except String Wallet) (timestamp : ℤ) (source : PyDict) :
    Except String (List Decision) := do
  require (sourceReady core source) "Authoritative entry-risk snapshot is not ready"
  if approvedRiskQueue source = [] then return []
  else sizeAll core (← wallet) timestamp 0 (approvedRiskQueue source)

/-- The state after a run that sized its queue. -/
def published (core : Core) (timestamp : ℤ) (source : PyDict) (decisions : List Decision) :
    SizingState where
  status := if decisions.isEmpty then "empty" else "ready"
  fiveMinuteCandleTime := source.get "fiveMinuteCandleTime"
  inputFingerprint := fingerprint core source
  updatedAt := timestamp
  rows := decisions.map Decision.row
  approvedSizingQueue := (decisions.filter fun decision => decision.order.isSome).map Decision.row
  lastError := none

/-- The state after a run that failed. -/
def SizingState.failed (state : SizingState) (message : String) : SizingState :=
  { state with
    status := if ¬state.rows.isEmpty ∨ state.inputFingerprint ≠ "" then "stale" else "error"
    lastError := some message }

/-- `build(core, now, upstream)` -/
def build (core : Core) (wallet : Except String Wallet) (timestamp : ℤ) (source : PyDict)
    (state : SizingState) : SizingState :=
  match run core wallet timestamp source with
  | .ok decisions => published core timestamp source decisions
  | .error message => state.failed message

/-- `due(core)` -/
def due (core : Core) (source : PyDict) (state : SizingState) : Bool :=
  fingerprint core source ≠ state.inputFingerprint ∨ state.status ∈ ["error", "stale"]

end IntradayBot.Sizing
