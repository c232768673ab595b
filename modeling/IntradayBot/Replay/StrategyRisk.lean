import IntradayBot.Replay.Storage

/-!
# The strategy of a replay

The strategy looks at the frozen candles up to the one it decides on: the averages of the
closes, their strength and the range of the candles vote for a side. A decision for a side
that is *eligible* comes with a plan of its risk: where to stop and to take profit, and how
much to buy or sell.

`enrichStep` decides on all candles of a step, in a transaction that records the decisions in
the response of the step. A retry finds them there.
-/

namespace IntradayBot.Replay

open Decimal

namespace Strategy

variable (ctx : Context)

/-- `MIN_HISTORY` -/
def MIN_HISTORY : ℕ := 50

/-- `GRADE_RISK_PCT` -/
def gradeRiskPct : Grade → Option ℚ
  | .aPlus => some 1
  | .a => some (3 / 4)
  | .bPlus | .reject => none

/-! ## Indicators -/

/-- `_ema(values, period)` -/
def ema (values : List ℚ) (period : ℕ) : ℚ :=
  let seed := ctx.div (ctx.sum (values.take period)) period
  let alpha := ctx.div 2 (period + 1)
  (values.drop period).foldl
    (fun result value => ctx.add (ctx.mul value alpha) (ctx.mul result (ctx.sub 1 alpha))) seed

/-- `_rsi(values, period)` -/
def rsi (values : List ℚ) (period : ℕ) : ℚ :=
  let changes := List.zipWith ctx.sub values.tail values
  let sample := changes.drop (changes.length - period)
  let gains := ctx.div (ctx.sum (sample.map fun change => max change 0)) period
  let losses := ctx.div (ctx.sum (sample.map fun change => max (ctx.neg change) 0)) period
  if losses = 0 then 100
  else ctx.sub 100 (ctx.div 100 (ctx.add 1 (ctx.div gains losses)))

/-- The range of a candle, from the close of the one before it. -/
def trueRange (candle previous : Candle) : ℚ :=
  max (max (ctx.sub candle.highPrice candle.lowPrice)
    (ctx.abs (ctx.sub candle.highPrice previous.closePrice)))
    (ctx.abs (ctx.sub candle.lowPrice previous.closePrice))

/-- `_atr(candles, period)` -/
def atr (candles : List Candle) (period : ℕ) : ℚ :=
  let rows := candles.drop (candles.length - (period + 1))
  ctx.div (ctx.sum (List.zipWith (trueRange ctx) rows.tail rows)) period

/-- The difference of the two averages. -/
def macdLine (values : List ℚ) : ℚ := ctx.sub (ema ctx values 12) (ema ctx values 26)

/-- `_macd(values)`: the line, its signal, and their difference. -/
def macd (values : List ℚ) : ℚ × ℚ × ℚ :=
  let line := macdLine ctx values
  let subsets := (List.range 9).map fun i => values.take (values.length - 8 + i)
  let rolling := (subsets.filter (26 ≤ ·.length)).map (macdLine ctx)
  let signal := ctx.div (ctx.sum rolling) rolling.length
  (line, signal, ctx.sub line signal)

/-! ## Decisions -/

/-- `indicators` -/
def indicators (candles : List Candle) : Indicators :=
  let closes := candles.map (·.closePrice)
  let close := closes.getLast?.getD 0
  let ema20 := ema ctx closes 20
  let ema50 := ema ctx closes 50
  let rsi14 := rsi ctx closes 14
  let (line, signal, histogram) := macd ctx closes
  { close, ema20, ema50, rsi14
    atr14 := atr ctx candles 14
    macd := line
    macdSignal := signal
    macdHistogram := histogram
    longVotes := [decide (ema20 < close), decide (ema50 < ema20), decide (0 < histogram),
      decide (48 ≤ rsi14 ∧ rsi14 ≤ 70)].count true
    shortVotes := [decide (close < ema20), decide (ema20 < ema50), decide (histogram < 0),
      decide (30 ≤ rsi14 ∧ rsi14 ≤ 52)].count true }

/-- The signal, and the score it has. -/
def signal (i : Indicators) : Signal × ℕ :=
  if max i.longVotes i.shortVotes < 3 ∨ i.longVotes = i.shortVotes then
    (.wait, max i.longVotes i.shortVotes)
  else if i.shortVotes < i.longVotes then (.buy, i.longVotes)
  else (.sell, i.shortVotes)

/-- The grade of a score. -/
def grade (score : ℕ) : Grade :=
  if score = 4 then .aPlus else if score = 3 then .a else if score = 2 then .bPlus else .reject

/-- `risk`, for an account of so much equity. -/
def riskPlan (signal : Signal) (riskPct close atr equity : ℚ) : Except ReplayError RiskPlan := do
  let stopDistance := ctx.mul atr (3 / 2)
  let stop := if signal = .buy then ctx.sub close stopDistance else ctx.add close stopDistance
  let target :=
    if signal = .buy then ctx.add close (ctx.mul stopDistance 2)
    else ctx.sub close (ctx.mul stopDistance 2)
  let riskAmount ← quantizeMoney ctx (ctx.div (ctx.mul equity riskPct) 100)
  let quantity ← quantizeMoney ctx (ctx.div riskAmount stopDistance)
  return {
    riskPct, riskAmount, stopDistance, quantity
    entryPrice := close
    stopLoss := stop
    takeProfit := target }

/-- `evaluate(candles, session)`, in a session of so much equity. -/
def evaluate (candles : List Candle) (equity : ℚ) : Except ReplayError Evaluation :=
  if candles.length < MIN_HISTORY then
    return {
      evaluated := false
      signal := .wait
      grade := .reject
      eligible := false
      risk := none
      historyCandles := candles.length
      indicators := none }
  else do
    let i := indicators ctx candles
    let (signal, score) := signal i
    let grade := grade score
    let riskPct := if signal ≠ .wait ∧ 0 < i.atr14 then gradeRiskPct grade else none
    let risk ← match riskPct with
      | some riskPct => some <$> riskPlan ctx signal riskPct i.close i.atr14 equity
      | none => pure none
    return {
      evaluated := true
      signal, grade, risk
      eligible := riskPct.isSome
      historyCandles := candles.length
      indicators := some i }

/-- The decision on a candle of the step. -/
def decisionOf (snapshot : CandleTable) (response : StepResponse) (candle : Candle) :
    Except ReplayError Decision := do
  let history := snapshot.rows.filter (·.openTime ≤ candle.openTime)
  let evaluation ← evaluate ctx history response.session.equity
  return {
    toEvaluation := evaluation
    candleOpenTime := candle.openTime
    strategyMode := response.session.strategyMode
    requestId := response.requestId }

/-- The events of a decision. -/
def events (decision : Decision) : List Event :=
  .strategyEvaluated decision ::
    if decision.risk.isSome then [.riskCandidate decision] else []

/-- What the decisions add to the response. -/
def result (decisions : List Decision) : StrategyResult where
  decisions := decisions
  strategyEvaluated := decisions.any (·.evaluated)
  riskEvaluated := decisions.any (·.risk.isSome)
  eligibleCandidates := decisions.countP (·.eligible)

/-- `enrich_step(store, result)` -/
def enrichStep (response : StepResponse) (db : Db) : Except ReplayError (StepResponse × Db) :=
  if response.strategy.isSome then return (response, db)
  else match db.requests.get? response.requestId with
    | none => .error (.runtime "Replay step idempotency record is unavailable.")
    | some stored =>
      if stored.response.strategy.isSome then
        return ({ stored.response with idempotent := response.idempotent }, db)
      else do
        let decisions ← response.candles.mapM (decisionOf ctx db.snapshot response)
        let response := { response with
          strategy := some (result decisions)
          executionSimulated := false }
        return (response, { db with
          events := db.events ++ decisions.flatMap events
          requests := db.requests.set response.requestId { stored with response := response } })

end Strategy

end IntradayBot.Replay
