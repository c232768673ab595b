import IntradayBot.Node.Config
import IntradayBot.Node.Exchange

/-!
# Live sizing

A candidate is sized right before its submission, from what the exchange shows
(`buildLiveExecutionPlan`): the stop is the extreme of the last closed 15-minute
candles, the target twice as far, and the quantity is bounded by the risk budget
and by the margin left. The checks against doubled entries are made here too: no
position and no other entry order of the same symbol, and less than three
positions.

What does not hold now but may later is a wait (`JsError.wait`).
-/

namespace IntradayBot.Node

/-- `positive(value, label)` -/
def positive (value : Field) (label : String) : Except JsError ℚ :=
  match Json.toNumber value with
  | some q => if 0 < q then .ok q else .error (.wait .walletDataWait s!"{label} must be positive" true)
  | none => .error (.wait .walletDataWait s!"{label} must be positive" true)

/-- Waits unless `c`. -/
def await (c : Prop) [Decidable c] (code : WaitCode) (message : String) (retryable : Bool) :
    Except JsError Unit :=
  if c then .ok () else .error (.wait code message retryable)

theorem await_eq_ok {c : Prop} [Decidable c] {code : WaitCode} {message : String}
    {retryable : Bool} {u : Unit} : await c code message retryable = .ok u ↔ c := by
  unfold await
  split <;> simp [*]

/-! ## Steps -/

/-- `Math.round(q)` -/
def roundHalfUp (q : ℚ) : ℤ := ⌊q + 1 / 2⌋

/-- `decimalPlaces(value)`, the number written as `String` does: below `1e-6`, it is the
    exponent, and from `1e21` on what follows the point counts with its exponent, as in
    `1.5e+21`. -/
def decimalPlaces (q : ℚ) : ℕ :=
  if q ≠ 0 ∧ |q| < 1 / 10 ^ 6 then
    ((List.range 400).find? fun d => 1 ≤ |q| * 10 ^ d).getD 400
  else if |q| < 10 ^ 21 then (Json.decimalsOf q).getD 400
  else
    let e := Int.log 10 |q|
    let d := (Json.decimalsOf (|q| / 10 ^ e)).getD 400
    if d = 0 then 0 else d + ("e+" ++ toString e).length

namespace LiveSizer

/-- `floorToStep(value, step)` -/
def floorToStep (value step : ℚ) : ℚ :=
  if 0 < step ∧ 0 < value then
    let scale : ℚ := 10 ^ min 12 (decimalPlaces step)
    let stepUnits : ℤ := max 1 (roundHalfUp (step * scale))
    let valueUnits : ℤ := ⌊value * scale + 1 / 10 ^ 9⌋
    (valueUnits / stepUnits * stepUnits : ℤ) / scale
  else 0

/-- `floorPrice(value, tick)` -/
def floorPrice (value : ℚ) (tick : Option ℚ) : ℚ :=
  match tick with
  | some t => if 0 < t then floorToStep value t else value
  | none => value

/-- `ceilPrice(value, tick)` -/
def ceilPrice (value : ℚ) (tick : Option ℚ) : ℚ :=
  match tick with
  | some t =>
    if 0 < t then
      let floored := floorPrice value t
      if value ≤ floored + 1 / 10 ^ 12 then floored else floored + t
    else value
  | none => value

/-! ## The technical plan -/

/-- `candidateCreatedSeconds(payload)` -/
def candidateCreatedSeconds (payload : Json) : ℤ :=
  match Json.numberOrZero (Json.orElse (payload.get "createdAt") (payload.get "riskDecisionAt")) with
  | some raw => if raw ≤ 0 then 0 else if 10 ^ 12 < raw then ⌊raw / 1000⌋ else ⌊raw⌋
  | none => 0

/-- A closed candle. -/
structure Candle where
  time : ℚ
  high : ℚ
  low : ℚ

/-- The candle of a row, if it is closed and complete. -/
def closedCandle (nowMs : ℚ) (row : KlineRow) : Option Candle := do
  let time ← Json.toNumber row.time
  let high ← Json.toNumber row.high
  let low ← Json.toNumber row.low
  if 0 < time ∧ 0 < high ∧ 0 < low ∧ time + 15 * 60 * 1000 ≤ nowMs then
    some ⟨time, high, low⟩ else none

/-- `normalizeClosedFifteenMinuteCandles(response, nowMs)` -/
def normalizeClosedFifteenMinuteCandles (rows : List KlineRow) (nowMs : ℚ) : List Candle :=
  (rows.filterMap (closedCandle nowMs)).insertionSort fun a b => a.time ≤ b.time

/-- A structural stop, and the target it gives. -/
structure TechnicalPlan where
  technicalStopLoss : ℚ
  takeProfitReference : ℚ
  stopDistance : ℚ
  grossRr : ℚ
  structureLookback : ℕ
  latestClosed15mCandleTime : ℚ

/-- What the exchange shows, and the margin reserved by the other candidates. -/
structure Truth where
  wallet : List WalletRow
  instrument : List InstrumentRow
  ticker : List TickerRow
  positions : List PositionRow
  activeOrders : List OrderRow
  kline15m : List KlineRow
  pendingReservedMargin : Option ℚ
  orderLinkId : LinkId

/-- The stop and the target of a side, from its candles. Rounded to an infinite tick, the stop
    is no number. -/
def structuralPrices (config : Config) (buy : Bool) (structural : List Candle) (tickSize : Field)
    (mark : ℚ) : Except JsError (ℚ × ℚ) :=
  let tick := Json.numberOrZero tickSize
  if buy then do
    let lows := structural.map Candle.low
    let stop := floorPrice (lows.foldl min (lows.headD 0)) tick
    await (¬Json.isInfinity tickSize ∧ 0 < stop ∧ stop < mark) .technicalPlanWait
      "Closed-15M Buy structure does not provide a valid stop below current mark" true
    return (stop, ceilPrice (mark + (mark - stop) * config.minimumGrossRr) tick)
  else do
    let highs := structural.map Candle.high
    let stop := ceilPrice (highs.foldl max (highs.headD 0)) tick
    await (¬Json.isInfinity tickSize ∧ mark < stop) .technicalPlanWait
      "Closed-15M Sell structure does not provide a valid stop above current mark" true
    let take := floorPrice (mark - (stop - mark) * config.minimumGrossRr) tick
    await (0 < take) .technicalPlanWait
      "Closed-15M Sell structure produces an invalid target" true
    return (stop, take)

/-- `technicalPlan(payload, truth, config, mark, nowMs)` -/
def technicalPlan (payload : Json) (truth : Truth) (config : Config) (mark nowMs : ℚ) :
    Except JsError TechnicalPlan := do
  let candles := normalizeClosedFifteenMinuteCandles truth.kline15m nowMs
  let lookback := max 1 config.structureLookback
  await (lookback ≤ candles.length) .technicalPlanWait
    s!"Need at least {lookback} fully closed 15M candles" true
  let structural := candles.drop (candles.length - lookback)
  let tickSize := truth.instrument.head?.bind InstrumentRow.tickSize
  let (stop, take) ←
    structuralPrices config (Json.isText "Buy" (payload.get "side")) structural tickSize mark
  let stopDistance := |mark - stop|
  let grossRr := |take - mark| / stopDistance
  await (0 < stopDistance ∧ config.minimumGrossRr ≤ grossRr + 1 / 10 ^ 9) .technicalPlanWait
    "Current structural plan does not provide minimum 2R" true
  return {
    technicalStopLoss := stop
    takeProfitReference := take
    stopDistance := stopDistance
    grossRr := grossRr
    structureLookback := lookback
    latestClosed15mCandleTime := (structural.getLast?.map Candle.time).getD 0 }

/-! ## The plan -/

/-- `openPositions(truth)` -/
def openPositions (truth : Truth) : List PositionRow :=
  truth.positions.filter fun row => (Json.limitOrZero row.size).any (0 < ·)

/-- `activeEntryOrders(truth, orderLinkId)` -/
def activeEntryOrders (truth : Truth) : List OrderRow :=
  truth.activeOrders.filter fun row =>
    Json.textOrEmpty row.orderStatus ∈ ["New", "PartiallyFilled", "Untriggered", "Created"] ∧
    !(Json.isTrue row.reduceOnly || (Json.textOrEmpty row.reduceOnly).toLower = "true") ∧
    row.orderLinkId ≠ some truth.orderLinkId

/-- The limits of a quantity. -/
structure QuantityRules where
  qtyStep : WithTop ℚ
  minOrderQty : WithTop ℚ
  maxOrderQty : WithTop ℚ
  /-- `none` is no number. -/
  minNotionalValue : Option (WithTop ℚ)

/-- The limits of an instrument. -/
def quantityRules (instrument : InstrumentRow) : Except JsError QuantityRules := do
  let maxField := Json.orElse instrument.maxMktOrderQty
    (Json.orElse instrument.maxMarketOrderQty instrument.maxOrderQty)
  let maxOrderQty := if Json.truthy maxField then Json.toLimit maxField else some ⊤
  match Json.limitOrZero instrument.qtyStep, Json.limitOrZero instrument.minOrderQty,
    maxOrderQty with
  | some qtyStep, some minOrderQty, some maxOrderQty =>
    await (0 < qtyStep ∧ 0 < minOrderQty ∧ 0 < maxOrderQty) .instrumentRuleWait
      "Bybit quantity rules are incomplete" true
    return {
      qtyStep := qtyStep
      minOrderQty := minOrderQty
      maxOrderQty := maxOrderQty
      minNotionalValue := Json.limitOrZero instrument.minNotionalValue }
  | _, _, _ => .error (.wait .instrumentRuleWait "Bybit quantity rules are incomplete" true)

/-- The leverage to use: that of the configuration, unless the instrument supports less. -/
def planLeverage (config : Config) (instrument : InstrumentRow) : Except JsError ℚ :=
  match Json.toLimit (Json.orElse instrument.maxLeverage (some (.num config.leverage))) with
  | some supportedMax => do
    await (0 < supportedMax) .instrumentRuleWait "Instrument leverage limit is unavailable" true
    let leverage := min (min config.leverage (supportedMax.untopD config.leverage)) 10
    await (0 < leverage) .instrumentRuleWait "No safe isolated leverage is available" true
    return leverage
  | none => .error (.wait .instrumentRuleWait "Instrument leverage limit is unavailable" true)

/-- The quantity of a plan, and the margin it requires. -/
structure Sizing where
  qty : ℚ
  qtyStep : ℚ
  minOrderQty : ℚ
  riskBudgetUsdt : ℚ
  plannedStopRiskUsdt : ℚ
  requiredInitialMarginUsdt : ℚ
  remainingAvailable : ℚ
  rawRiskQty : ℚ
  marginQtyCap : ℚ

/-- The step and the minimum of a quantity. No quantity is a multiple of an infinite step, or
    reaches an infinite minimum. -/
def finiteRules (rules : QuantityRules) : Except JsError (ℚ × ℚ) :=
  match rules.qtyStep, rules.minOrderQty with
  | some qtyStep, some minOrderQty => .ok (qtyStep, minOrderQty)
  | _, _ => .error (.wait .insufficientMargin
      "Risk-derived quantity cannot satisfy current minimum order quantity" true)

/-- The quantity that the risk budget, the instrument and the margin left allow. -/
def sizePlan (riskBudgetUsdt rawRiskQty available mark stopDistance leverage
    pendingReservedMargin : ℚ) (rules : QuantityRules) : Except JsError Sizing := do
  await (0 ≤ pendingReservedMargin) .walletDataWait
    "Pending reserved execution exposure is unavailable" true
  let remainingAvailable := max 0 (available - pendingReservedMargin)
  let marginQtyCap := remainingAvailable * leverage / mark
  let unrounded := min (min rawRiskQty (rules.maxOrderQty.untopD rawRiskQty)) marginQtyCap
  -- rounded to an infinite step, the quantity is no number
  let (qtyStep, minOrderQty) ← finiteRules rules
  let qty := floorToStep unrounded qtyStep
  await (0 < qty ∧ minOrderQty ≤ qty + 1 / 10 ^ 12) .insufficientMargin
    "Risk-derived quantity cannot satisfy current minimum order quantity" true
  let notional := qty * mark
  await (rules.minNotionalValue.all fun q => 0 < q → q ≤ ((notional + 1 / 10 ^ 9 : ℚ) : WithTop ℚ))
    .insufficientMargin
    "Risk-derived quantity cannot satisfy current minNotionalValue without increasing risk" true
  let plannedStopRiskUsdt := qty * stopDistance
  await (plannedStopRiskUsdt ≤ riskBudgetUsdt + max (1 / 10 ^ 8) (riskBudgetUsdt / 10 ^ 9))
    .nodeSizingWait "Rounded quantity exceeds the fixed 1% stop-risk budget" true
  let requiredInitialMarginUsdt := notional / leverage
  await (requiredInitialMarginUsdt ≤ remainingAvailable + 1 / 10 ^ 8) .insufficientMargin
    "Available margin cannot support the risk-derived quantity" true
  return {
    qty := qty
    qtyStep := qtyStep
    minOrderQty := minOrderQty
    riskBudgetUsdt := riskBudgetUsdt
    plannedStopRiskUsdt := plannedStopRiskUsdt
    requiredInitialMarginUsdt := requiredInitialMarginUsdt
    remainingAvailable := remainingAvailable
    rawRiskQty := rawRiskQty
    marginQtyCap := marginQtyCap }

/-- A limit as JSON, which writes no infinity. -/
def limitJson : WithTop ℚ → Json
  | some q => .num q
  | none => .null

/-- The properties that sizing sets on a payload. -/
def sizedProps (mark entryReference driftPct equity available leverage pendingReservedMargin : ℚ)
    (nowSeconds : ℕ) (plan : TechnicalPlan) (rules : QuantityRules) (sizing : Sizing) :
    List (String × Json) := [
  ("entryReference", .num mark),
  ("executableMarkPrice", .num mark),
  ("technicalStopLoss", .num plan.technicalStopLoss),
  ("takeProfitReference", .num plan.takeProfitReference),
  ("qty", .str (Json.numberText sizing.qty)),
  ("requiredInitialMarginUsdt", .num sizing.requiredInitialMarginUsdt),
  ("riskBudgetUsdt", .num sizing.riskBudgetUsdt),
  ("plannedStopRiskUsdt", .num sizing.plannedStopRiskUsdt),
  ("effectiveRiskPerTradePct", .num (sizing.plannedStopRiskUsdt / equity * 100)),
  ("riskPerTradePct", .num 1),
  ("marginMode", .str "ISOLATED"),
  ("leverage", .num leverage),
  ("sizingAuthority", .str "NODE_LIVE_BYBIT_TRUTH"),
  ("nodeSizingStatus", .str "NODE_SIZING_READY"),
  ("sizingApproved", .bool true),
  ("positionSizingStatus", .str "NODE_SIZING_READY"),
  ("executionStatus", .str "AWAITING_NODE_EXECUTION"),
  ("nodeSizingDecisionAt", .num nowSeconds),
  ("nodeSizingEvidence", .obj [
    ("equity", .num equity),
    ("availableMargin", .num available),
    ("pendingReservedMargin", .num pendingReservedMargin),
    ("remainingAvailableMargin", .num sizing.remainingAvailable),
    ("entryReferenceBeforeLiveSizing", .num entryReference),
    ("entryDriftPct", .num driftPct),
    ("stopDistance", .num plan.stopDistance),
    ("grossRr", .num plan.grossRr),
    ("structureLookback", .num plan.structureLookback),
    ("latestClosed15mCandleTime", .num plan.latestClosed15mCandleTime),
    ("qtyStep", .num sizing.qtyStep),
    ("minOrderQty", .num sizing.minOrderQty),
    ("maxOrderQty", limitJson rules.maxOrderQty),
    ("minNotionalValue", (rules.minNotionalValue.map limitJson).getD .null),
    ("rawRiskQty", .num sizing.rawRiskQty),
    ("marginQtyCap", .num sizing.marginQtyCap)])]

/-- No position and no other entry order of the symbol, and room for a position. -/
def checkExposure (payload : Json) (truth : Truth) (config : Config) : Except JsError Unit := do
  let positions := openPositions truth
  await (∀ row ∈ positions, Json.toText row.symbol ≠ Json.toText (payload.get "symbol"))
    .duplicateSymbol "Existing same-symbol position blocks duplicate execution" true
  await (positions.length < config.maxActiveTrades) .maxActiveTrades
    "Maximum three active positions already reached" true
  await (activeEntryOrders truth = []) .duplicateSymbol
    "Another active same-symbol entry order exists" true

/-- The first row of an answer. -/
def firstRow {α : Type} (rows : List α) (code : WaitCode) (message : String) : Except JsError α :=
  match rows with
  | [] => .error (.wait code message true)
  | row :: _ => .ok row

/-- The margin left in the wallet. -/
def availableBalance (wallet : WalletRow) : Except JsError ℚ :=
  match Json.toNumber wallet.totalAvailableBalance with
  | some q =>
    if 0 ≤ q then .ok q
    else .error (.wait .walletDataWait "Current available margin is unavailable" true)
  | none => .error (.wait .walletDataWait "Current available margin is unavailable" true)

/-- `buildLiveExecutionPlan(payload, truth, config, nowSeconds)` -/
def buildLiveExecutionPlan (payload : Json) (truth : Truth) (config : Config) (nowSeconds : ℕ) :
    Except JsError Json := do
  let wallet ← firstRow truth.wallet .walletDataWait "Current Bybit wallet truth is unavailable"
  let instrument ← firstRow truth.instrument .instrumentRuleWait
    "Current Bybit instrument rules are unavailable"
  let ticker ← firstRow truth.ticker .instrumentRuleWait
    "Current Bybit ticker truth is unavailable"
  await (Json.textOrEmpty instrument.status = "Trading") .instrumentRuleWait
    "Bybit instrument is not currently Trading" true
  let createdAt := candidateCreatedSeconds payload
  await (createdAt ≠ 0 ∧ nowSeconds - createdAt ≤ config.maxCandidateAgeSeconds ∧
    createdAt - nowSeconds ≤ (30 : ℚ)) .candidateStale
    "Risk-approved candidate is stale or future-dated" false
  let equity ← positive wallet.totalEquity "wallet.totalEquity"
  let available ← availableBalance wallet
  let mark ← positive (Json.orElse ticker.markPrice ticker.lastPrice) "markPrice"
  let entryReference ← positive (payload.get "entryReference") "entryReference"
  let driftPct := |mark - entryReference| / entryReference * 100
  await (driftPct ≤ config.maxEntryDriftPct + 1 / 10 ^ 12) .candidateStale
    s!"Candidate price drift exceeds {Json.numberText config.maxEntryDriftPct}%" false
  checkExposure payload truth config
  let plan ← technicalPlan payload truth config mark (nowSeconds * 1000)
  let riskBudgetUsdt := equity / 100
  let rawRiskQty := riskBudgetUsdt / plan.stopDistance
  await (0 < rawRiskQty) .nodeSizingWait "Risk-derived quantity is unavailable" true
  let rules ← quantityRules instrument
  let leverage ← planLeverage config instrument
  let pendingReservedMargin := truth.pendingReservedMargin.getD 0
  let sizing ← sizePlan riskBudgetUsdt rawRiskQty available mark plan.stopDistance leverage
    pendingReservedMargin rules
  return payload.setAll (sizedProps mark entryReference driftPct equity available leverage
    pendingReservedMargin nowSeconds plan rules sizing)

end LiveSizer

end IntradayBot.Node
