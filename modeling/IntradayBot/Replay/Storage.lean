import IntradayBot.Data.Decimal
import IntradayBot.Data.Except
import IntradayBot.Data.Json
import IntradayBot.Data.OrdMap
import IntradayBot.Data.PyText

/-!
# What a replay keeps

A replay session steps through candles of the past, and simulates the trades of the
strategy on them. All it knows is in the database: the row of the session, its frozen
candles, its trades, its events, and the requests to step it with their responses. `Db`
holds these rows, for one session, beside the source candles of its symbol and timeframe,
which the collector may rewrite at any time.

Monetary amounts have 8 decimals (`quantizeMoney`). The columns of the tables have 18, and
keep these amounts as they are.

An event has its place in the list as its sequence number. The identifier of a trade is a
digest of the session and of the candle that it was opened at; it is modelled by the time of
this candle.
-/

namespace IntradayBot.Replay

open Decimal

/-- The exceptions of the replay. -/
inductive ReplayError
  /-- `ReplayStorageValidationError`, `ReplayEngineValidationError` -/
  | validation (message : String)
  /-- `ReplayStepConflictError` -/
  | conflict (message : String)
  /-- `ReplayStepDataIncompleteError` -/
  | dataIncomplete (message : String)
  /-- `ReplayStepRepositoryError` -/
  | repository (message : String)
  /-- `ReplaySimulationError` -/
  | simulation (message : String)
  /-- `ReplayEngineStoreError` -/
  | store (message : String)
  /-- `RuntimeError` -/
  | runtime (message : String)
  /-- `decimal.InvalidOperation` -/
  | invalidOperation
  /-- An exception of the database. -/
  | database (reason : String)
  deriving DecidableEq, Repr

/-! ## Numbers -/

/-- `Decimal(str(value))` -/
def decimalOf : Option Json → Option (Option ℚ)
  | some (.num q) => some (some q)
  | some (.str s) => PyText.decimalOfText s
  | _ => none

/-- The last place of the amounts: `MONEY_QUANTUM` has 8 decimals. -/
def moneyPlaces : ℕ := 8

/-- `_quantize(value)` -/
def quantizeMoney (ctx : Context) (value : ℚ) : Except ReplayError ℚ :=
  match ctx.quantize moneyPlaces value with
  | some q => .ok q
  | none => .error .invalidOperation

/-- `_decimal(value, field, positive=True)`, for a value that is a finite number. -/
def positive (value : ℚ) (field : String) : Except ReplayError ℚ :=
  if value ≤ 0 then .error (.simulation s!"{field} must be greater than zero.") else .ok value

/-- What a column of type `NUMERIC(38,18)` keeps of a number, ties away from zero; `none` where
    it overflows. -/
def numeric (q : ℚ) : Option ℚ :=
  let n := ⌊|q| * 10 ^ 18 + 1 / 2⌋
  if n < 10 ^ 38 then some (if q < 0 then -(n / 10 ^ 18) else n / 10 ^ 18) else none

/-- A number in a column of type `NUMERIC(38,18)`. -/
def column (q : ℚ) : Except ReplayError ℚ :=
  match numeric q with
  | some q => .ok q
  | none => .error (.database "numeric field overflow")

/-! ## Candles -/

/-- `INTERVAL_MS` has the timeframes as its keys. -/
inductive Timeframe
  | m5
  | m15
  | m60
  deriving DecidableEq, Repr

/-- `INTERVAL_MS[timeframe]` -/
def Timeframe.intervalMs : Timeframe → ℤ
  | .m5 => 300000
  | .m15 => 900000
  | .m60 => 3600000

/-- A row of `replay_candles` or of `replay_session_candles`, within a session. -/
structure Candle where
  openTime : ℤ
  openPrice : ℚ
  highPrice : ℚ
  lowPrice : ℚ
  closePrice : ℚ
  volume : ℚ
  turnover : Option ℚ
  source : String
  deriving DecidableEq, Repr

/-- `None if _is_missing(value) else value` -/
def present : Option Json → Option Json
  | some .null | some (.str "") => none
  | value => value

/-- `_decimal(value, field, …)` -/
def candleDecimal (value : Option Json) (field : String) (lowest : ℚ → Prop)
    [DecidablePred lowest] (message : String) : Except ReplayError ℚ :=
  match decimalOf value with
  | none => .error (.validation s!"{field} must be numeric.")
  | some none => .error (.validation s!"{field} must be finite.")
  | some (some q) => if lowest q then .ok q else .error (.validation s!"{field} {message}")

/-- `normalize_replay_candle(payload)`, of a symbol and timeframe. -/
def normalizeReplayCandle (openTime : ℤ) (payload : Json) : Except ReplayError Candle := do
  require (1 ≤ openTime) (.validation "open_time must be at least 1.")
  let price (field : String) (key : String) : Except ReplayError ℚ :=
    candleDecimal ((payload.get key).orElse fun _ => payload.get field) field (0 < ·)
      "must be greater than zero."
  let openPrice ← price "open" "open_price"
  let highPrice ← price "high" "high_price"
  let lowPrice ← price "low" "low_price"
  let closePrice ← price "close" "close_price"
  let volume ← candleDecimal (payload.get "volume") "volume" (0 ≤ ·) "cannot be negative."
  let turnover ← (present (payload.get "turnover")).mapM fun turnover =>
    candleDecimal (some turnover) "turnover" (0 ≤ ·) "cannot be negative."
  require (max (max openPrice closePrice) lowPrice ≤ highPrice)
    (.validation "Candle high is below another OHLC value.")
  require (lowPrice ≤ min (min openPrice closePrice) highPrice)
    (.validation "Candle low is above another OHLC value.")
  let source := match payload.get "source" with
    | some (.str source) => PyText.strip (if source = "" then "bybit_public_kline" else source)
    | _ => "bybit_public_kline"
  require (source ≠ "") (.validation "Candle source is required.")
  return {
    openTime, openPrice, highPrice, lowPrice, closePrice, volume, turnover
    source := (source.take 80).toString }

/-- The candle in the columns of its table. -/
def Candle.stored (candle : Candle) : Except ReplayError Candle := do
  return { candle with
    openPrice := ← column candle.openPrice
    highPrice := ← column candle.highPrice
    lowPrice := ← column candle.lowPrice
    closePrice := ← column candle.closePrice
    volume := ← column candle.volume
    turnover := ← candle.turnover.mapM column }

/-- Candles by their time. -/
structure CandleTable where
  rows : List Candle
  sorted : rows.Pairwise fun a b => a.openTime < b.openTime

/-! ## Sessions -/

/-- `REPLAY_SESSION_STATUSES` -/
inductive Status
  | ready
  | running
  | paused
  | completed
  | failed
  | cancelled
  deriving DecidableEq, Repr

/-- The text of a status. -/
def Status.text : Status → String
  | ready => "READY"
  | running => "RUNNING"
  | paused => "PAUSED"
  | completed => "COMPLETED"
  | failed => "FAILED"
  | cancelled => "CANCELLED"

inductive StrategyMode
  | conservative
  | balanced
  | aggressive
  deriving DecidableEq, Repr

/-- What a step writes to the summary of a session. -/
structure Progress where
  processedCandles : ℤ
  remainingCandles : ℤ
  lastCandleOpenTime : ℤ
  lastStepRequestId : String
  deriving DecidableEq, Repr

/-- What the simulated execution writes to the summary of a session. -/
structure Totals where
  feeBps : ℚ
  maxLeverage : ℚ
  openTrades : ℕ
  closedTrades : ℕ
  winningTrades : ℕ
  losingTrades : ℕ
  liquidations : ℕ
  realizedPnl : ℚ
  netPnl : ℚ
  equityPnl : ℚ
  feesPaid : ℚ
  lastExecutionRequestId : String
  deriving DecidableEq, Repr

/-- `summary` -/
structure Summary where
  pendingFinalStatus : Option Status
  pipelineRecoveryRequired : Bool
  pendingReplayRequestId : Option String
  progress : Option Progress
  strategyEvaluated : Bool
  executionSimulated : Bool
  totals : Option Totals
  deriving DecidableEq, Repr

/-- `{}` -/
def Summary.empty : Summary where
  pendingFinalStatus := none
  pipelineRecoveryRequired := false
  pendingReplayRequestId := none
  progress := none
  strategyEvaluated := false
  executionSimulated := false
  totals := none

/-- The summary without its recovery markers. -/
def Summary.recovered (s : Summary) : Summary :=
  { s with
    pendingFinalStatus := none
    pipelineRecoveryRequired := false
    pendingReplayRequestId := none }

/-- A row of `replay_sessions`. -/
structure Session where
  sessionId : String
  symbol : String
  timeframe : Timeframe
  status : Status
  startTime : ℤ
  endTime : ℤ
  cursorTime : Option ℤ
  initialBalance : ℚ
  balance : ℚ
  equity : ℚ
  strategyMode : StrategyMode
  config : Json
  summary : Summary

/-! ## Decisions of the strategy -/

/-- `signal` -/
inductive Signal
  | wait
  | buy
  | sell
  deriving DecidableEq, Repr

/-- `grade` -/
inductive Grade
  | aPlus
  | a
  | bPlus
  | reject
  deriving DecidableEq, Repr

/-- `risk` -/
structure RiskPlan where
  riskPct : ℚ
  riskAmount : ℚ
  entryPrice : ℚ
  stopLoss : ℚ
  takeProfit : ℚ
  stopDistance : ℚ
  quantity : ℚ
  deriving DecidableEq, Repr

/-- `indicators`, of a history that is long enough. -/
structure Indicators where
  close : ℚ
  ema20 : ℚ
  ema50 : ℚ
  rsi14 : ℚ
  atr14 : ℚ
  macd : ℚ
  macdSignal : ℚ
  macdHistogram : ℚ
  longVotes : ℕ
  shortVotes : ℕ
  deriving DecidableEq, Repr

/-- What the strategy says of a candle. -/
structure Evaluation where
  evaluated : Bool
  signal : Signal
  grade : Grade
  eligible : Bool
  risk : Option RiskPlan
  historyCandles : ℕ
  indicators : Option Indicators
  deriving DecidableEq, Repr

/-- What the strategy said of a candle, for a request. -/
structure Decision extends Evaluation where
  candleOpenTime : ℤ
  strategyMode : StrategyMode
  requestId : String
  deriving DecidableEq, Repr

/-! ## Trades -/

/-- `side` -/
inductive Side
  | buy
  | sell
  deriving DecidableEq, Repr

/-- `OPEN` and `CLOSED`. -/
inductive TradeStatus
  | opened
  | closed
  deriving DecidableEq, Repr

/-- Why a trade was closed. -/
inductive ExitReason
  | stopLoss
  | takeProfit
  | sessionEnd
  deriving DecidableEq, Repr

/-- What the entry writes to the payload of a trade. -/
structure EntryPayload where
  grade : Grade
  strategyMode : StrategyMode
  riskPct : ℚ
  riskAmount : ℚ
  stopLoss : ℚ
  takeProfit : ℚ
  stopDistance : ℚ
  entryFee : ℚ
  feeBps : ℚ
  maxLeverage : ℚ
  entryRequestId : String
  entryCandleOpenTime : ℤ
  deriving DecidableEq, Repr

/-- What the exit adds to it. -/
structure ExitPayload where
  exitReason : ExitReason
  exitCandleOpenTime : ℤ
  exitFee : ℚ
  grossPnl : ℚ
  effectiveGrossPnl : ℚ
  rawBalanceDelta : ℚ
  appliedBalanceDelta : ℚ
  availableBalanceBeforeExit : ℚ
  liquidationAdjustment : ℚ
  limitedLiabilityApplied : Bool
  netPnl : ℚ
  sameCandleConflict : Bool
  deriving DecidableEq, Repr

/-- A row of `replay_trades`, whose identifier is the digest of its session and entry time. -/
structure Trade where
  symbol : String
  side : Side
  status : TradeStatus
  entryTime : ℤ
  exitTime : Option ℤ
  entryPrice : ℚ
  exitPrice : Option ℚ
  quantity : ℚ
  realizedPnl : ℚ
  fees : ℚ
  payload : EntryPayload
  exit : Option ExitPayload
  deriving DecidableEq, Repr

/-! ## Requests and responses -/

/-- `MAX_STEP_CANDLES` -/
def MAX_STEP_CANDLES : ℕ := 100

/-- A request to step, as `normalize_step_request` leaves it. -/
structure StepRequest where
  requestId : String
  steps : ℕ
  expectedCursorTime : Option ℤ
  one_le_steps : 1 ≤ steps
  steps_le : steps ≤ MAX_STEP_CANDLES
  deriving DecidableEq

/-- `_stored_step_request(request)` -/
structure StepParams where
  steps : ℕ
  expectedCursorTime : Option ℤ
  deriving DecidableEq, Repr

/-- `_stored_step_request(request)` -/
def StepRequest.params (request : StepRequest) : StepParams where
  steps := request.steps
  expectedCursorTime := request.expectedCursorTime

/-- The account after a candle. -/
structure Mark where
  candleOpenTime : ℤ
  balance : ℚ
  equity : ℚ
  unrealizedPnl : ℚ
  openTradeId : Option ℤ
  deriving DecidableEq, Repr

/-- `execution` -/
structure Execution where
  feeBps : ℚ
  maxLeverage : ℚ
  opened : ℕ
  closed : ℕ
  skipped : ℕ
  liquidations : ℕ
  requestFees : ℚ
  requestRealizedPnl : ℚ
  balance : ℚ
  equity : ℚ
  netPnl : ℚ
  equityPnl : ℚ
  openTrades : ℕ
  closedTrades : ℕ
  marks : List Mark
  simulatedActivity : Option Bool
  deriving DecidableEq, Repr

/-- What the enrichment by the strategy adds to a response. -/
structure StrategyResult where
  decisions : List Decision
  strategyEvaluated : Bool
  riskEvaluated : Bool
  eligibleCandidates : ℕ
  deriving DecidableEq, Repr

/-- The response to a request, as far as it went. -/
structure StepResponse where
  idempotent : Bool
  requestId : String
  requestedSteps : ℕ
  processedSteps : ℕ
  previousCursorTime : Option ℤ
  cursorTime : ℤ
  remainingCandles : ℤ
  completed : Bool
  session : Session
  candles : List Candle
  candles_ne : candles ≠ []
  /-- `strategyEnrichmentComplete` -/
  strategy : Option StrategyResult
  /-- `executionEnrichmentComplete` -/
  execution : Option Execution
  executionSimulated : Bool
  /-- `executionActivityFinalized` -/
  finalized : Bool

/-- A row of `replay_step_requests`. -/
structure StoredStep where
  request : StepParams
  response : StepResponse

/-! ## Events -/

/-- Why an eligible decision opened no trade. -/
inductive SkipReason
  | notEligible
  | invalidSide
  | invalidProtection
  | quantityZero
  | insufficientBalanceForFee
  | openTradeExists
  | sessionFinalCandle
  | accountDepleted
  deriving DecidableEq, Repr

/-- A row of `replay_events`. -/
inductive Event
  | sessionCreated (candleSnapshotCount : ℕ)
  | sessionReset
  | stepStarted (requestId : String) (request : StepParams) (previousCursorTime : Option ℤ)
  | candleAdvanced (requestId : String) (stepIndex : ℕ) (candle : Candle)
  | stepCompleted (requestId : String) (request : StepParams) (response : StepResponse)
  | strategyEvaluated (decision : Decision)
  | riskCandidate (decision : Decision)
  | executionStarted (requestId : String)
  | executionSkipped (requestId : String) (candleOpenTime : ℤ) (reason : SkipReason)
      (signal : Signal) (grade : Grade)
  | tradeOpened (requestId : String) (trade : Trade)
  | tradeClosed (requestId : String) (trade : Trade) (exitReason : ExitReason)
  | pnlMarked (requestId : String) (mark : Mark)
  | executionCompleted (requestId : String) (execution : Execution)

/-! ## The database -/

/-- The rows of a session. -/
structure Db where
  session : Session
  /-- `replay_session_candles` -/
  snapshot : CandleTable
  /-- `replay_step_requests` -/
  requests : OrdMap String StoredStep
  /-- `replay_trades` -/
  trades : List Trade
  /-- `replay_events` -/
  events : List Event
  /-- `replay_candles`, of the symbol and timeframe of the session. -/
  source : CandleTable

namespace CandleTable

/-- No candles. -/
def empty : CandleTable := ⟨[], .nil⟩

/-- `SELECT … WHERE open_time BETWEEN first AND last ORDER BY open_time ASC` -/
def between (t : CandleTable) (first last : ℤ) : CandleTable where
  rows := t.rows.filter fun c => first ≤ c.openTime ∧ c.openTime ≤ last
  sorted := t.sorted.filter _

/-- `INSERT … ON CONFLICT(…,open_time) DO UPDATE` -/
def upsert (t : CandleTable) (c : Candle) : CandleTable where
  rows := t.rows.filter (·.openTime < c.openTime) ++ c :: t.rows.filter (c.openTime < ·.openTime)
  sorted := by
    rw [List.pairwise_append, List.pairwise_cons]
    refine ⟨t.sorted.filter _, ⟨fun b hb => ?_, t.sorted.filter _⟩, fun a ha b hb => ?_⟩
    · simpa using (List.mem_filter.1 hb).2
    · have hac : a.openTime < c.openTime := by simpa using (List.mem_filter.1 ha).2
      rcases List.mem_cons.1 hb with rfl | hb
      · exact hac
      · exact hac.trans (by simpa using (List.mem_filter.1 hb).2)

/-- `upsert_replay_candles([candle])` -/
def upsertReplayCandle (t : CandleTable) (c : Candle) : Except ReplayError CandleTable :=
  t.upsert <$> c.stored

end CandleTable

end IntradayBot.Replay
