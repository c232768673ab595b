import Mathlib.Data.List.Sort
import IntradayBot.Replay.Storage

/-!
# The simulated execution of a replay

The execution goes through the candles of a step. At each candle, it closes the open trade if
the candle reaches its stop or its target (the stop first), opens a trade if the decision on
the candle is eligible, closes what is open at the final candle of the session, and marks the
account to the close of the candle.

The account cannot go below zero: what a close would lose beyond the balance is written off
(`limitedLiabilityDelta`).

`simulateCandle` does this for a candle, on the state `Sim` of the simulation. `enrichStep`
runs it over the candles of a step, in a transaction that writes the account, the summary and
the response of the step.
-/

namespace IntradayBot.Replay

open Decimal

namespace Simulation

variable (ctx : Context)

/-! ## Configuration -/

/-- `DEFAULT_FEE_BPS` -/
def DEFAULT_FEE_BPS : ℚ := 6

/-- `MAX_FEE_BPS` -/
def MAX_FEE_BPS : ℚ := 100

/-- `DEFAULT_MAX_LEVERAGE` -/
def DEFAULT_MAX_LEVERAGE : ℚ := 3

/-- `MAX_LEVERAGE` -/
def MAX_LEVERAGE : ℚ := 10

/-- `_decimal(value, field)` -/
def finite (value : Option Json) (field : String) : Except ReplayError ℚ :=
  match decimalOf value with
  | some (some q) => .ok q
  | some none => .error (.simulation s!"{field} must be finite.")
  | none => .error (.simulation s!"{field} must be numeric.")

/-- `_config_decimal(config, keys, default, minimum=, maximum=)`, of which the first key names
    the field. -/
def configDecimal (config : Json) (field : String) (keys : List String)
    (default minimum maximum : ℚ) : Except ReplayError {q : ℚ // minimum ≤ q ∧ q ≤ maximum} := do
  let value ← match (field :: keys).findSome? fun key => present (config.get key) with
    | none => pure default
    | some raw => finite (some raw) field
  if h : minimum ≤ value ∧ value ≤ maximum then return ⟨value, h⟩
  else .error (.simulation s!"{field} must be between {minimum} and {maximum}.")

/-- The fee and the leverage of a session. -/
structure Config where
  feeBps : {q : ℚ // 0 ≤ q ∧ q ≤ MAX_FEE_BPS}
  maxLeverage : {q : ℚ // 1 ≤ q ∧ q ≤ MAX_LEVERAGE}

/-- `execution_config(session)` -/
def executionConfig (config : Json) : Except ReplayError Config := do
  let feeBps ← configDecimal config "replayFeeBps" ["takerFeeBps", "feeBps"] DEFAULT_FEE_BPS
    0 MAX_FEE_BPS
  let maxLeverage ← configDecimal config "maxLeverage" ["replayMaxLeverage"] DEFAULT_MAX_LEVERAGE
    1 MAX_LEVERAGE
  return { feeBps, maxLeverage }

/-! ## Amounts -/

/-- `_fee(price, quantity, fee_bps)` -/
def fee (price quantity feeBps : ℚ) : Except ReplayError ℚ :=
  quantizeMoney ctx (ctx.div (ctx.mul (ctx.mul price quantity) feeBps) 10000)

/-- `Decimal("1") if side == "Buy" else Decimal("-1")` -/
def direction : Side → ℚ
  | .buy => 1
  | .sell => -1

/-- `_gross_pnl(side, entry_price, exit_price, quantity)` -/
def grossPnl (side : Side) (entryPrice exitPrice quantity : ℚ) : Except ReplayError ℚ :=
  quantizeMoney ctx (ctx.mul (ctx.mul (ctx.sub exitPrice entryPrice) quantity) (direction side))

/-- What a close does to the balance. -/
structure LimitedDelta where
  applied : ℚ
  adjustment : ℚ

/-- `_limited_liability_delta(raw_balance_delta, available_balance)` -/
def limitedLiabilityDelta (rawBalanceDelta availableBalance : ℚ) :
    Except ReplayError LimitedDelta := do
  let available := max 0 (← quantizeMoney ctx availableBalance)
  let applied := max (← quantizeMoney ctx rawBalanceDelta) (ctx.neg available)
  let adjustment ← quantizeMoney ctx (ctx.sub applied rawBalanceDelta)
  return { applied, adjustment }

/-- `_marked_equity(balance, trade, close_price)`: the equity, and what is not realized. -/
def markedEquity (balance : ℚ) (trade : Option Trade) (closePrice : ℚ) :
    Except ReplayError (ℚ × ℚ) :=
  match trade with
  | none => return (← quantizeMoney ctx balance, 0)
  | some trade => do
    let entry ← positive trade.entryPrice "entryPrice"
    let quantity ← positive trade.quantity "quantity"
    let unrealized ← grossPnl ctx trade.side entry closePrice quantity
    return (← quantizeMoney ctx (max 0 (ctx.add balance unrealized)), unrealized)

/-! ## Exits -/

/-- How to leave a trade. -/
structure ExitDecision where
  reason : ExitReason
  price : ℚ
  sameCandleConflict : Bool

/-- `_exit_decision(trade, candle)` -/
def exitDecision (trade : Trade) (candle : Candle) : Except ReplayError (Option ExitDecision) := do
  let stop ← positive trade.payload.stopLoss "stopLoss"
  let target ← positive trade.payload.takeProfit "takeProfit"
  if candle.openTime ≤ trade.entryTime then return none
  let openPrice ← positive candle.openPrice "candle.open"
  let high ← positive candle.highPrice "candle.high"
  let low ← positive candle.lowPrice "candle.low"
  match trade.side with
  | .buy =>
    if low ≤ stop then return some {
      reason := .stopLoss
      price := if openPrice < stop then openPrice else stop
      sameCandleConflict := target ≤ high }
    if target ≤ high then return some {
      reason := .takeProfit
      price := target
      sameCandleConflict := false }
    return none
  | .sell =>
    if stop ≤ high then return some {
      reason := .stopLoss
      price := if stop < openPrice then openPrice else stop
      sameCandleConflict := low ≤ target }
    if low ≤ target then return some {
      reason := .takeProfit
      price := target
      sameCandleConflict := false }
    return none

/-- `_close_trade(…)`: the closed trade, what it does to the balance, and the fee. -/
def closeTrade (trade : Trade) (candle : Candle) (decision : ExitDecision)
    (feeBps availableBalance : ℚ) : Except ReplayError (Trade × ℚ × ℚ) := do
  let entryPrice ← positive trade.entryPrice "entryPrice"
  let quantity ← positive trade.quantity "quantity"
  let rawGross ← grossPnl ctx trade.side entryPrice decision.price quantity
  let exitFee ← fee ctx decision.price quantity feeBps
  let rawBalanceDelta ← quantizeMoney ctx (ctx.sub rawGross exitFee)
  let delta ← limitedLiabilityDelta ctx rawBalanceDelta availableBalance
  let effectiveGross ← quantizeMoney ctx (ctx.add rawGross delta.adjustment)
  let totalFees ← quantizeMoney ctx (ctx.add trade.fees exitFee)
  let net ← quantizeMoney ctx (ctx.sub delta.applied trade.fees)
  let payload : ExitPayload := {
    exitReason := decision.reason
    exitCandleOpenTime := candle.openTime
    exitFee := exitFee
    grossPnl := rawGross
    effectiveGrossPnl := effectiveGross
    rawBalanceDelta := rawBalanceDelta
    appliedBalanceDelta := delta.applied
    availableBalanceBeforeExit := ← quantizeMoney ctx availableBalance
    liquidationAdjustment := delta.adjustment
    limitedLiabilityApplied := 0 < delta.adjustment
    netPnl := net
    sameCandleConflict := decision.sameCandleConflict }
  let closed := { trade with
    status := .closed
    exitTime := some candle.openTime
    exitPrice := some (← quantizeMoney ctx decision.price)
    realizedPnl := net
    fees := totalFees
    exit := some payload }
  return (closed, delta.applied, exitFee)

/-! ## Entries -/

/-- A trade, or why there is none. -/
inductive Entry
  | opened (trade : Trade)
  | skipped (reason : SkipReason)

/-- The side of a signal. -/
def sideOf : Signal → Option Side
  | .wait => none
  | .buy => some .buy
  | .sell => some .sell

/-- The stop and the target are on the right sides of the entry. -/
def Protected (side : Side) (entry stop target : ℚ) : Prop :=
  match side with
  | .buy => stop < entry ∧ entry < target
  | .sell => target < entry ∧ entry < stop

instance (side : Side) (entry stop target : ℚ) : Decidable (Protected side entry stop target) :=
  match side with
  | .buy => inferInstanceAs (Decidable (stop < entry ∧ entry < target))
  | .sell => inferInstanceAs (Decidable (target < entry ∧ entry < stop))

/-- `_open_trade(…)` -/
def openTrade (config : Config) (session : Session) (decision : Decision) (candle : Candle)
    (balance equity : ℚ) (requestId : String) : Except ReplayError Entry :=
  match decision.risk with
  | none => return .skipped .notEligible
  | some risk => do
    if !decision.eligible then return .skipped .notEligible
    match sideOf decision.signal with
    | none => return .skipped .invalidSide
    | some side =>
      let entry ← positive candle.closePrice "entryPrice"
      let stop ← positive risk.stopLoss "stopLoss"
      let target ← positive risk.takeProfit "takeProfit"
      if ¬ Protected side entry stop target then return .skipped .invalidProtection
      let stopDistance := ctx.abs (ctx.sub entry stop)
      let riskPct ← positive risk.riskPct "riskPct"
      let riskAmount ← quantizeMoney ctx (ctx.div (ctx.mul equity riskPct) 100)
      let riskQuantity ← quantizeMoney ctx (ctx.div riskAmount stopDistance)
      let leverageQuantity ← quantizeMoney ctx (ctx.div (ctx.mul equity config.maxLeverage) entry)
      let quantity := min riskQuantity leverageQuantity
      if quantity ≤ 0 then return .skipped .quantityZero
      let entryFee ← fee ctx entry quantity config.feeBps
      if balance ≤ entryFee then return .skipped .insufficientBalanceForFee
      let payload : EntryPayload := {
        grade := decision.grade
        strategyMode := decision.strategyMode
        riskPct := riskPct
        riskAmount := riskAmount
        stopLoss := ← quantizeMoney ctx stop
        takeProfit := ← quantizeMoney ctx target
        stopDistance := ← quantizeMoney ctx stopDistance
        entryFee := entryFee
        feeBps := config.feeBps
        maxLeverage := config.maxLeverage
        entryRequestId := requestId
        entryCandleOpenTime := candle.openTime }
      return .opened {
        symbol := session.symbol
        side := side
        status := .opened
        entryTime := candle.openTime
        exitTime := none
        entryPrice := ← quantizeMoney ctx entry
        exitPrice := none
        quantity := quantity
        realizedPnl := 0
        fees := entryFee
        payload := payload
        exit := none }

/-! ## The trades -/

/-- `_load_open_trade(cursor, session_id)` -/
def loadOpenTrade (trades : List Trade) : Option Trade :=
  ((trades.filter fun t => t.status = .opened).insertionSort (·.entryTime ≤ ·.entryTime)).head?

/-- `INSERT INTO replay_trades(…)`, of which the identifier is the primary key. -/
def insertTrade (trades : List Trade) (trade : Trade) : Except ReplayError (List Trade) :=
  if trades.any fun t => t.entryTime = trade.entryTime then
    .error (.database "duplicate key value violates unique constraint")
  else return trades ++ [trade]

/-- `UPDATE replay_trades SET status='CLOSED',… WHERE … AND trade_id=%s AND status='OPEN'` -/
def updateOpenTrade (trades : List Trade) (trade : Trade) : Except ReplayError (List Trade) :=
  if trades.any fun t => t.entryTime = trade.entryTime ∧ t.status = .opened then
    return trades.map fun t =>
      if t.entryTime = trade.entryTime ∧ t.status = .opened then trade else t
  else .error (.simulation "Open replay trade could not be closed atomically.")

/-! ## The simulation -/

/-- What a simulation runs with. -/
structure Plan where
  config : Config
  session : Session
  requestId : String
  decisions : List Decision
  targetStatus : Status
  lastCandleTime : ℤ

/-- The state of a simulation. -/
structure Sim where
  balance : ℚ
  equity : ℚ
  open_ : Option Trade
  trades : List Trade
  events : List Event
  opened : ℕ
  closed : ℕ
  skipped : ℕ
  liquidations : ℕ
  requestFees : ℚ
  requestRealized : ℚ
  marks : List Mark

/-- `decision_by_time.get(candle_time)` -/
def Plan.decisionAt (plan : Plan) (time : ℤ) : Option Decision :=
  plan.decisions.reverse.find? (·.candleOpenTime = time)

/-- `target_status == "COMPLETED" and candle_time == last_candle_time` -/
def Plan.isFinal (plan : Plan) (candle : Candle) : Bool :=
  plan.targetStatus = .completed && candle.openTime = plan.lastCandleTime

/-- The open trade leaves at the candle. -/
def leave (plan : Plan) (candle : Candle) (trade : Trade) (decision : ExitDecision) (sim : Sim) :
    Except ReplayError Sim := do
  let (closed, balanceDelta, exitFee) ←
    closeTrade ctx trade candle decision plan.config.feeBps sim.balance
  let trades ← updateOpenTrade sim.trades closed
  let balance ← quantizeMoney ctx (ctx.add sim.balance balanceDelta)
  require (0 ≤ balance) (.simulation (if decision.reason = .sessionEnd
    then "Session-end close produced a negative balance."
    else "Limited-liability close produced a negative balance."))
  return { sim with
    balance := balance
    equity := balance
    open_ := none
    trades := trades
    events := sim.events ++ [.tradeClosed plan.requestId closed decision.reason]
    closed := sim.closed + 1
    liquidations :=
      sim.liquidations + if closed.exit.any (·.limitedLiabilityApplied) then 1 else 0
    requestFees := ctx.add sim.requestFees exitFee
    requestRealized := ctx.add sim.requestRealized closed.realizedPnl }

/-- The exit of the open trade, if the candle reaches its stop or its target. -/
def exits (plan : Plan) (candle : Candle) (sim : Sim) : Except ReplayError Sim :=
  match sim.open_ with
  | none => return sim
  | some trade => do
    match ← exitDecision trade candle with
    | none => return sim
    | some decision => leave ctx plan candle trade decision sim

/-- Why an eligible decision is not looked at, or else what it opens. -/
def entry (plan : Plan) (candle : Candle) (decision : Decision) (sim : Sim) :
    Except ReplayError Entry :=
  if sim.open_.isSome then return .skipped .openTradeExists
  else if plan.isFinal candle then return .skipped .sessionFinalCandle
  else if sim.equity ≤ 0 ∨ sim.balance ≤ 0 then return .skipped .accountDepleted
  else openTrade ctx plan.config plan.session decision candle sim.balance sim.equity plan.requestId

/-- The entry on an eligible decision. -/
def enters (plan : Plan) (candle : Candle) (sim : Sim) : Except ReplayError Sim :=
  match (plan.decisionAt candle.openTime).filter (·.eligible) with
  | none => return sim
  | some decision => do
    match ← entry ctx plan candle decision sim with
    | .skipped reason =>
      return { sim with
        skipped := sim.skipped + 1
        events := sim.events ++ [.executionSkipped plan.requestId candle.openTime reason
          decision.signal decision.grade] }
    | .opened trade =>
      let trades ← insertTrade sim.trades trade
      return { sim with
        balance := ← quantizeMoney ctx (ctx.sub sim.balance trade.fees)
        open_ := some trade
        trades := trades
        events := sim.events ++ [.tradeOpened plan.requestId trade]
        opened := sim.opened + 1
        requestFees := ctx.add sim.requestFees trade.fees }

/-- The exit of what is open at the final candle. -/
def ends (plan : Plan) (candle : Candle) (sim : Sim) : Except ReplayError Sim :=
  match sim.open_ with
  | none => return sim
  | some trade =>
    if plan.isFinal candle then
      leave ctx plan candle trade ⟨.sessionEnd, candle.closePrice, false⟩ sim
    else return sim

/-- The account, marked to the close of the candle. -/
def marks (plan : Plan) (candle : Candle) (sim : Sim) : Except ReplayError Sim := do
  let (equity, unrealized) ← markedEquity ctx sim.balance sim.open_ candle.closePrice
  let mark : Mark := {
    candleOpenTime := candle.openTime
    balance := sim.balance
    equity := equity
    unrealizedPnl := unrealized
    openTradeId := sim.open_.map (·.entryTime) }
  return { sim with
    equity := equity
    events := sim.events ++ [.pnlMarked plan.requestId mark]
    marks := sim.marks ++ [mark] }

/-- The pass of the loop on a candle. -/
def simulateCandle (plan : Plan) (sim : Sim) (candle : Candle) : Except ReplayError Sim := do
  let _ ← positive candle.closePrice "candle.close"
  let sim ← exits ctx plan candle sim
  let sim ← enters ctx plan candle sim
  let sim ← ends ctx plan candle sim
  marks ctx plan candle sim

/-! ## The transaction -/

/-- `target_status` -/
def targetStatus (session : Session) (response : StepResponse) : Status :=
  session.summary.pendingFinalStatus.getD (if response.completed then .completed else .paused)

/-- The state at the start of the request. -/
def start (session : Session) (trades : List Trade) (requestId : String) : Sim where
  balance := session.balance
  equity := session.equity
  open_ := loadOpenTrade trades
  trades := trades
  events := [.executionStarted requestId]
  opened := 0
  closed := 0
  skipped := 0
  liquidations := 0
  requestFees := 0
  requestRealized := 0
  marks := []

/-- The closed trades. -/
def closedTrades (trades : List Trade) : List Trade := trades.filter fun t => t.status = .closed

/-- The statistics of the trades. -/
def totals (plan : Plan) (sim : Sim) : Except ReplayError Totals := do
  let closed := closedTrades sim.trades
  let realized ← quantizeMoney ctx (closed.map (·.realizedPnl)).sum
  let fees ← quantizeMoney ctx (sim.trades.map (·.fees)).sum
  let netPnl ← quantizeMoney ctx (ctx.sub sim.balance plan.session.initialBalance)
  let equityPnl ← quantizeMoney ctx (ctx.sub sim.equity plan.session.initialBalance)
  return {
    feeBps := plan.config.feeBps
    maxLeverage := plan.config.maxLeverage
    openTrades := sim.trades.countP fun t => t.status = .opened
    closedTrades := closed.length
    winningTrades := closed.countP fun t => 0 < t.realizedPnl
    losingTrades := closed.countP fun t => t.realizedPnl ≤ 0
    liquidations :=
      (plan.session.summary.totals.map (·.liquidations)).getD 0 + sim.liquidations
    realizedPnl := realized
    netPnl := netPnl
    equityPnl := equityPnl
    feesPaid := fees
    lastExecutionRequestId := plan.requestId }

/-- `execution_payload` -/
def execution (sim : Sim) (totals : Totals) : Except ReplayError Execution := do
  return {
    feeBps := totals.feeBps
    maxLeverage := totals.maxLeverage
    opened := sim.opened
    closed := sim.closed
    skipped := sim.skipped
    liquidations := sim.liquidations
    requestFees := ← quantizeMoney ctx sim.requestFees
    requestRealizedPnl := ← quantizeMoney ctx sim.requestRealized
    balance := sim.balance
    equity := sim.equity
    netPnl := totals.netPnl
    equityPnl := totals.equityPnl
    openTrades := totals.openTrades
    closedTrades := totals.closedTrades
    marks := sim.marks
    simulatedActivity := none }

/-- The session once the request is executed. -/
def settle (plan : Plan) (sim : Sim) (totals : Totals) : Session :=
  { plan.session with
    status := plan.targetStatus
    balance := sim.balance
    equity := sim.equity
    summary := { plan.session.summary.recovered with
      strategyEvaluated := true
      executionSimulated := true
      totals := some totals } }

/-- What the simulation of a stored response runs with. -/
def plan (config : Config) (session : Session) (requestId : String) (response : StepResponse)
    (decisions : List Decision) : Plan where
  config := config
  session := session
  requestId := requestId
  decisions := decisions
  targetStatus := targetStatus session response
  lastCandleTime := (response.candles.getLast response.candles_ne).openTime

/-- The execution of what is stored for a request. -/
def executeStored (requestId : String) (stored : StoredStep) (decisions : List Decision) (db : Db) :
    Except ReplayError (StepResponse × Db) := do
  let config ← executionConfig db.session.config
  let _ ← positive db.session.initialBalance "initialBalance"
  let plan := plan config db.session requestId stored.response decisions
  let sim ← stored.response.candles.foldlM (simulateCandle ctx plan)
    (start db.session db.trades requestId)
  let totals ← totals ctx plan sim
  let execution ← execution ctx sim totals
  let session := settle plan sim totals
  let response := { stored.response with
    session := session
    execution := some execution
    executionSimulated := true }
  return (response, { db with
    session := session
    trades := sim.trades
    events := db.events ++ sim.events ++ [.executionCompleted requestId execution]
    requests := db.requests.set requestId { stored with response := response } })

/-- `enrich_step(store, result)` -/
def enrichStep (response : StepResponse) (db : Db) : Except ReplayError (StepResponse × Db) :=
  if response.execution.isSome then return (response, db)
  else if response.strategy.isNone then
    .error (.simulation "Strategy/risk enrichment must complete before simulated execution.")
  else match db.requests.get? response.requestId with
    | none => .error (.simulation "Replay step idempotency record is unavailable.")
    | some stored =>
      if stored.response.execution.isSome then
        return ({ stored.response with idempotent := response.idempotent }, db)
      else match stored.response.strategy with
        | some strategy => executeStored ctx response.requestId stored strategy.decisions db
        | none => .error (.simulation "Persisted strategy/risk response is incomplete.")

end Simulation

end IntradayBot.Replay
