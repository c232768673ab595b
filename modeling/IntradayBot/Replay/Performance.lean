import Mathlib.Data.Finset.Image
import Mathlib.Data.Prod.Lex
import IntradayBot.Data.SortBy
import IntradayBot.Replay.SimulatedExecution

/-!
# The performance of a replay

The performance of a session is read from what the database keeps of it: the metrics come from its
trades and its account (`calculateTradeMetrics`), the drawdown and the equity curve from one pass
over its `pnl.marked` events, in their order (`performance`). The pass samples the events at indexes
that are spread evenly (`equitySampleIndexes`), and ignores those whose equity is not a number.
-/

namespace IntradayBot.Replay.Analytics

open Decimal

variable (ctx : Context)

/-- The exceptions of the analytics. -/
inductive AnalyticsError
  /-- `ReplayAnalyticsValidationError` -/
  | validation (message : String)
  /-- `ReplayAnalyticsStoreError` -/
  | store (message : String)
  /-- `decimal.InvalidOperation` -/
  | invalidOperation
  deriving DecidableEq, Repr

/-! ## Numbers -/

/-- `_decimal(value, field)`, of a value that has no default. -/
def decimal (value : Option Json) (field : String) : Except AnalyticsError ℚ :=
  match decimalOf (present value) with
  | none => .error (.store s!"Stored {field} is not numeric.")
  | some none => .error (.store s!"Stored {field} is not finite.")
  | some (some q) => .ok q

/-- `value.quantize(quantum, rounding=ROUND_DOWN)` -/
def quantized (places : ℕ) (value : ℚ) : Except AnalyticsError ℚ :=
  match ctx.quantize places value with
  | some q => .ok q
  | none => .error .invalidOperation

/-- `_money(value)` -/
def money (value : ℚ) : Except AnalyticsError ℚ := quantized ctx moneyPlaces value

/-- The last place of `PERCENT_QUANTUM` and `R_QUANTUM`. -/
def ratioPlaces : ℕ := 4

/-- `_pct(value)`, `_r(value)` -/
def ratio (value : ℚ) : Except AnalyticsError ℚ := quantized ctx ratioPlaces value

/-! ## Metrics -/

/-- The key that the trades are sorted by. Trades with the same identifier have the same entry
    time. -/
def tradeKey (trade : Trade) : ℤ ×ₗ ℤ :=
  let exitTime := match trade.exitTime with
    | none | some 0 => 9999999999999
    | some time => time
  toLex (exitTime, trade.entryTime)

/-- `profitFactorStatus` -/
inductive ProfitFactorStatus
  | finite
  | noLosses
  | noClosedProfitOrLoss
  deriving DecidableEq, Repr

/-- `compact_trade(row)` -/
structure CompactTrade where
  tradeId : ℤ
  realizedPnl : ℚ
  exitTime : Option ℤ
  deriving DecidableEq, Repr

/-- `compact_trade(row)` -/
def compactTrade (trade : Trade) : CompactTrade where
  tradeId := trade.entryTime
  realizedPnl := trade.realizedPnl
  exitTime := trade.exitTime

/-- The first of the trades that no other one beats: `max` and `min` with a key. -/
def pick (better : ℚ → ℚ → Bool) (trades : List Trade) : Option Trade :=
  trades.foldl (fun found trade => match found with
    | none => some trade
    | some best => if better trade.realizedPnl best.realizedPnl then some trade else some best) none

/-- The consecutive wins and losses, at a trade. -/
structure Streaks where
  winRun : ℕ
  lossRun : ℕ
  maxWins : ℕ
  maxLosses : ℕ

/-- The pass of the loop on a trade. -/
def Streaks.next (s : Streaks) (pnl : ℚ) : Streaks :=
  if 0 < pnl then
    { winRun := s.winRun + 1, lossRun := 0
      maxWins := max s.maxWins (s.winRun + 1), maxLosses := s.maxLosses }
  else if pnl < 0 then
    { winRun := 0, lossRun := s.lossRun + 1
      maxWins := s.maxWins, maxLosses := max s.maxLosses (s.lossRun + 1) }
  else { s with winRun := 0, lossRun := 0 }

/-- What a trade has made for what it risked, if it is known to have risked anything. -/
def rValue (trade : Trade) : Option ℚ :=
  if 0 < trade.payload.riskAmount then some (ctx.div trade.realizedPnl trade.payload.riskAmount)
  else none

/-- How long a trade was open, if its times are in order. -/
def duration (trade : Trade) : Option ℤ :=
  let exitTime := match trade.exitTime with
    | none | some 0 => trade.entryTime
    | some time => time
  if trade.entryTime ≤ exitTime then some (exitTime - trade.entryTime) else none

/-- `total / count if count else 0` -/
def average (total : ℚ) (count : ℕ) : ℚ := if count = 0 then 0 else ctx.div total count

/-- `calculate_trade_metrics(trades, session)`. No trade is ever `CANCELLED`. -/
structure Metrics where
  totalTrades : ℕ
  closedTrades : ℕ
  openTrades : ℕ
  winningTrades : ℕ
  losingTrades : ℕ
  breakevenTrades : ℕ
  longTrades : ℕ
  shortTrades : ℕ
  winRatePct : ℚ
  grossProfit : ℚ
  grossLoss : ℚ
  netRealizedPnl : ℚ
  feesPaid : ℚ
  expectancy : ℚ
  averageWin : ℚ
  averageLoss : ℚ
  profitFactor : Option ℚ
  profitFactorStatus : ProfitFactorStatus
  totalR : ℚ
  averageR : ℚ
  rSampleTrades : ℕ
  averageTradeDurationMs : ℤ
  maxConsecutiveWins : ℕ
  maxConsecutiveLosses : ℕ
  bestTrade : Option CompactTrade
  worstTrade : Option CompactTrade
  initialBalance : ℚ
  balance : ℚ
  equity : ℚ
  netPnl : ℚ
  equityPnl : ℚ
  deriving DecidableEq, Repr

/-- `profit_factor` and `profit_factor_status` -/
def profitFactor (grossProfit grossLoss : ℚ) :
    Except AnalyticsError (Option ℚ × ProfitFactorStatus) :=
  if 0 < grossLoss then do return (some (← ratio ctx (ctx.div grossProfit grossLoss)), .finite)
  else if 0 < grossProfit then return (none, .noLosses)
  else return (none, .noClosedProfitOrLoss)

/-- `calculate_trade_metrics(trades, session)` -/
def calculateTradeMetrics (trades : List Trade) (session : Session) :
    Except AnalyticsError Metrics := do
  let ordered := sortBy tradeKey trades
  let closed := ordered.filter fun t => t.status = .closed
  let pnls := closed.map (·.realizedPnl)
  let fees := ctx.sum (ordered.map (·.fees))
  let grossProfit := ctx.sum (pnls.filter (0 < ·))
  let grossLoss := ctx.neg (ctx.sum (pnls.filter (· < 0)))
  let netRealized := ctx.sum pnls
  let wins := pnls.countP (0 < ·)
  let losses := pnls.countP (· < 0)
  let rValues := closed.filterMap (rValue ctx)
  let durations := closed.filterMap duration
  let totalR := ctx.sum rValues
  let streaks := pnls.foldl Streaks.next ⟨0, 0, 0, 0⟩
  let (factor, factorStatus) ← profitFactor ctx grossProfit grossLoss
  return {
    totalTrades := ordered.length
    closedTrades := closed.length
    openTrades := ordered.countP fun t => t.status = .opened
    winningTrades := wins
    losingTrades := losses
    breakevenTrades := pnls.countP (· = 0)
    longTrades := ordered.countP fun t => t.side = .buy
    shortTrades := ordered.countP fun t => t.side = .sell
    winRatePct := ← ratio ctx (average ctx (ctx.mul wins 100) closed.length)
    grossProfit := ← money ctx grossProfit
    grossLoss := ← money ctx grossLoss
    netRealizedPnl := ← money ctx netRealized
    feesPaid := ← money ctx fees
    expectancy := ← money ctx (average ctx netRealized closed.length)
    averageWin := ← money ctx (average ctx grossProfit wins)
    averageLoss := ← money ctx (average ctx grossLoss losses)
    profitFactor := factor
    profitFactorStatus := factorStatus
    totalR := ← ratio ctx totalR
    averageR := ← ratio ctx (average ctx totalR rValues.length)
    rSampleTrades := rValues.length
    averageTradeDurationMs := durations.sum / durations.length
    maxConsecutiveWins := streaks.maxWins
    maxConsecutiveLosses := streaks.maxLosses
    bestTrade := (pick (fun a b => b < a) closed).map compactTrade
    worstTrade := (pick (fun a b => a < b) closed).map compactTrade
    initialBalance := ← money ctx session.initialBalance
    balance := ← money ctx session.balance
    equity := ← money ctx session.equity
    netPnl := ← money ctx (ctx.sub session.balance session.initialBalance)
    equityPnl := ← money ctx (ctx.sub session.equity session.initialBalance) }

/-! ## Drawdown -/

/-- `_new_drawdown(…)` -/
structure DrawdownState where
  peak : ℚ
  current : ℚ
  peakTime : Option ℤ
  maxAmount : ℚ
  maxPct : ℚ
  maxPeakTime : Option ℤ
  maxTroughTime : Option ℤ
  deriving DecidableEq, Repr

/-- `_new_drawdown(initial_equity, initial_time)` -/
def newDrawdown (initialEquity : ℚ) (initialTime : Option ℤ) : DrawdownState where
  peak := initialEquity
  current := initialEquity
  peakTime := initialTime
  maxAmount := 0
  maxPct := 0
  maxPeakTime := initialTime
  maxTroughTime := initialTime

/-- `amount * 100 / peak if peak > 0 else 0` -/
def percentOf (amount peak : ℚ) : ℚ := if 0 < peak then ctx.div (ctx.mul amount 100) peak else 0

/-- `_advance_drawdown(state, equity, point_time)` -/
def advanceDrawdown (state : DrawdownState) (equity : ℚ) (pointTime : Option ℤ) : DrawdownState :=
  let state := { state with current := equity }
  let state := if state.peak < equity then { state with peak := equity, peakTime := pointTime }
    else state
  let amount := ctx.sub state.peak equity
  let percent := percentOf ctx amount state.peak
  if state.maxAmount < amount ∨ (amount = state.maxAmount ∧ state.maxPct < percent) then
    { state with
      maxAmount := amount
      maxPct := percent
      maxPeakTime := state.peakTime
      maxTroughTime := pointTime }
  else state

/-- `_drawdown_result(state)` -/
structure DrawdownResult where
  maxDrawdown : ℚ
  maxDrawdownPct : ℚ
  maxDrawdownPeakTime : Option ℤ
  maxDrawdownTroughTime : Option ℤ
  currentDrawdown : ℚ
  currentDrawdownPct : ℚ
  highWaterEquity : ℚ
  deriving DecidableEq, Repr

/-- `current_amount` -/
def DrawdownState.currentAmount (state : DrawdownState) : ℚ := ctx.sub state.peak state.current

/-- `_drawdown_result(state)` -/
def drawdownResult (state : DrawdownState) : Except AnalyticsError DrawdownResult := do
  let currentAmount := state.currentAmount ctx
  return {
    maxDrawdown := ← money ctx state.maxAmount
    maxDrawdownPct := ← ratio ctx state.maxPct
    maxDrawdownPeakTime := state.maxPeakTime
    maxDrawdownTroughTime := state.maxTroughTime
    currentDrawdown := ← money ctx currentAmount
    currentDrawdownPct := ← ratio ctx (percentOf ctx currentAmount state.peak)
    highWaterEquity := ← money ctx state.peak }

/-- An equity, and when it was marked. -/
structure EquityPoint where
  equity : ℚ
  time : Option ℤ
  deriving DecidableEq, Repr

/-- The loop of `calculate_drawdown(initial_equity, points, initial_time=)`. -/
def drawdownOf (initial : EquityPoint) (points : List EquityPoint) : DrawdownState :=
  points.foldl (fun state point => advanceDrawdown ctx state point.equity point.time)
    (newDrawdown initial.equity initial.time)

/-! ## The equity curve -/

/-- `equity_sample_indexes(mark_count, curve_limit)` -/
def equitySampleIndexes (markCount curveLimit : ℤ) : Finset ℕ :=
  let count := (max 0 markCount).toNat
  let limit := (max 2 curveLimit).toNat
  if count ≤ limit then Finset.range count
  else (Finset.range limit).image fun index => index * (count - 1) / (limit - 1)

/-- A row of `replay_events` with the type `pnl.marked`. -/
structure MarkRow where
  sequenceNo : ℤ
  candleOpenTime : Option ℤ
  payload : Json
  createdAt : ℤ

/-- The rows of `pnl.marked`, `ORDER BY sequence_no ASC`; the numbers are a primary key. -/
structure MarkRows where
  rows : List MarkRow
  sorted : rows.Pairwise fun a b => a.sequenceNo < b.sequenceNo

/-- A point of the curve. -/
structure CurvePoint where
  sequenceNo : ℤ
  candleOpenTime : Option ℤ
  balance : Option Json
  equity : ℚ
  unrealizedPnl : Option Json
  createdAt : ℤ

/-- `payload.get(key)`, unless it is `None`. -/
def given (payload : Json) (key : String) : Option Json :=
  match payload.get key with
  | some .null => none
  | value => value

/-- The point of a row, whose equity is the number. -/
def MarkRow.point (row : MarkRow) (equity : ℚ) : Except AnalyticsError CurvePoint := do
  return {
    sequenceNo := row.sequenceNo
    candleOpenTime := row.candleOpenTime
    balance := given row.payload "balance"
    equity := ← money ctx equity
    unrealizedPnl := given row.payload "unrealizedPnl"
    createdAt := row.createdAt }

/-- The state of the pass over the marks. -/
structure Sampling where
  drawdown : DrawdownState
  sampled : List CurvePoint
  ignoredMarks : ℕ
  lastValid : Option CurvePoint

/-- The pass of the loop on a mark, and its index. -/
def sampleMark (sampleIndexes : Finset ℕ) (s : Sampling) : MarkRow × ℕ →
    Except AnalyticsError Sampling
  | (row, index) =>
    match decimal (row.payload.get "equity") "equity mark" with
    | .error _ => return { s with ignoredMarks := s.ignoredMarks + 1 }
    | .ok equity => do
      let point ← row.point ctx equity
      return { s with
        drawdown := advanceDrawdown ctx s.drawdown equity row.candleOpenTime
        lastValid := some point
        sampled := if index ∈ sampleIndexes then s.sampled ++ [point] else s.sampled }

/-- The samples, with the last valid mark at their end. -/
def withLast (limit : ℕ) (sampled : List CurvePoint) (lastValid : Option CurvePoint) :
    List CurvePoint :=
  match lastValid, sampled.getLast? with
  | none, _ => sampled
  | some last, none => [last]
  | some last, some point =>
    if point.sequenceNo = last.sequenceNo then sampled
    else if limit ≤ sampled.length then sampled.dropLast ++ [last]
    else sampled ++ [last]

/-! ## Performance -/

/-- `MAX_CURVE_LIMIT` -/
def MAX_CURVE_LIMIT : ℕ := 1000

/-- `performance(session_id, …)`, but for what it copies from the session. -/
structure Performance where
  isFinal : Bool
  metrics : Metrics
  drawdown : DrawdownResult
  recoveryFactor : Option ℚ
  equityCurve : List CurvePoint
  included : Bool
  totalMarks : ℕ
  ignoredMalformedMarks : ℕ
  samplingStride : Option ℕ

/-- The state before the first mark of the session. -/
def Sampling.start (session : Session) : Sampling where
  drawdown := newDrawdown session.initialBalance (some session.startTime)
  sampled := []
  ignoredMarks := 0
  lastValid := none

/-- The loop over the marks. -/
def sampleMarks (sampleIndexes : Finset ℕ) (session : Session) (marks : MarkRows) :
    Except AnalyticsError Sampling :=
  marks.rows.zipIdx.foldlM (sampleMark ctx sampleIndexes) (.start session)

/-- `recoveryFactor` -/
def recoveryFactor (netRealizedPnl maxDrawdown : ℚ) : Except AnalyticsError (Option ℚ) :=
  if 0 < maxDrawdown then some <$> ratio ctx (ctx.div netRealizedPnl maxDrawdown) else return none

/-- `performance(session_id, include_equity_curve=, curve_limit=)`, where `markCount` is what the
    marks were counted as before they were read. -/
def performance (session : Session) (trades : List Trade) (marks : MarkRows) (markCount : ℕ)
    (includeEquityCurve : Bool) (curveLimit : ℕ) : Except AnalyticsError Performance := do
  require (2 ≤ curveLimit ∧ curveLimit ≤ MAX_CURVE_LIMIT)
    (.validation s!"curveLimit must be between 2 and {MAX_CURVE_LIMIT}.")
  let metrics ← calculateTradeMetrics ctx trades session
  let sampleIndexes := if includeEquityCurve then equitySampleIndexes markCount curveLimit else ∅
  let sampling ← sampleMarks ctx sampleIndexes session marks
  let drawdown ← drawdownResult ctx sampling.drawdown
  let recoveryFactor ← recoveryFactor ctx metrics.netRealizedPnl drawdown.maxDrawdown
  return {
    isFinal := session.status = .completed ∧ metrics.openTrades = 0
    metrics := metrics
    drawdown := drawdown
    recoveryFactor := recoveryFactor
    equityCurve :=
      if includeEquityCurve then withLast curveLimit sampling.sampled sampling.lastValid else []
    included := includeEquityCurve
    totalMarks := markCount
    ignoredMalformedMarks := sampling.ignoredMarks
    samplingStride :=
      if !includeEquityCurve then none
      else if curveLimit < markCount then
        some (max 1 ⌈((markCount - 1 : ℚ) / (curveLimit - 1))⌉₊)
      else some 1 }

end IntradayBot.Replay.Analytics
