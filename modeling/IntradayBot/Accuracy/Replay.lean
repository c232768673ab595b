import IntradayBot.Data.Decimal
import IntradayBot.Data.SortBy
import Mathlib.Data.List.DropRight

/-!
# The accuracy replay

`replay` goes through past candles, and at every few of them asks the strategies for their votes
on what was closed by then, in three timeframes. A decision of the router opens a trade at the
open of the next candle. What becomes of the trade is looked up in the candles that follow
(`estimateTradeOutcome`), and the candles at which it is open are skipped (`blockedUntil`).

The strategies and the router are parameters (`Engines`), as functions of the candles that they
are given. Prices are exact.
-/

namespace IntradayBot.Accuracy

/-- A candle. -/
structure Bar where
  time : ℤ
  openPrice : ℚ
  high : ℚ
  low : ℚ
  close : ℚ
  volume : ℚ
  deriving DecidableEq

inductive Interval
  | five
  | fifteen
  | sixty
  deriving DecidableEq

/-- `_INTERVAL_MS` -/
def Interval.ms : Interval → ℤ
  | .five => 300000
  | .fifteen => 900000
  | .sixty => 3600000

inductive Signal
  | buy
  | sell
  | wait
  deriving DecidableEq

structure Vote where
  engine : String
  signal : Signal
  reason : String
  strength : ℚ
  deriving DecidableEq

structure Router where
  decision : Signal
  confidence : ℕ
  requiredVotes : ℕ
  mode : String
  reason : String
  deriving DecidableEq

/-- A strategy, as a function of the candles of 1H, 15M and 5M. -/
abbrev Strategy := List Bar → List Bar → List Bar → Vote

/-- The strategies and the router. -/
structure Engines where
  trendFollowing : Strategy
  srBreakout : Strategy
  rsiDivergence : Strategy
  vwapBounce : Strategy
  liquiditySweep : Strategy
  routeVotes : List Vote → String → Router

/-- `round(x, n)` -/
def roundTo (n : ℕ) (x : ℚ) : ℚ := Decimal.roundHalfEven (x * 10 ^ n) / 10 ^ n

/-- The candle is closed at the time. -/
abbrev ClosedBy (interval : Interval) (time : ℤ) (bar : Bar) : Prop :=
  bar.time + interval.ms ≤ time

/-- The candles closed at the time, in order. -/
def closedBars (candles : List Bar) (time : ℤ) (interval : Interval) : List Bar :=
  sortBy Bar.time (candles.filter fun bar => ClosedBy interval time bar)

/-- `closed_at(candles, decision_time, interval, limit)` -/
def closedAt (candles : List Bar) (decisionTime : ℤ) (interval : Interval) (limit : ℕ) :
    List Bar := (closedBars candles decisionTime interval).rtake limit

/-- `avg_volume(candles, period)` -/
def avgVolume (candles : List Bar) (period : ℕ) : ℚ :=
  let window := candles.rtake period
  if window = [] then 0 else (window.map Bar.volume).sum / window.length

/-- `vote(engine, signal, reason, strength)` -/
def vote (engine : String) (signal : Signal) (reason : String) (strength : ℚ) : Vote :=
  ⟨engine, signal, reason, roundTo 2 strength⟩

/-- The start of the day (UTC) of a time in milliseconds. -/
def startOfDay (time : ℤ) : ℤ := time / 86400000 * 86400000

/-- `deterministic_orb(core, tf1h, tf15m, tf5m, decision_time)`; `replay` calls it with candles
    in each timeframe. -/
def deterministicOrb (tf1h tf15m tf5m : List Bar) (decisionTime : ℤ) : Vote :=
  match tf1h.find? fun row => startOfDay decisionTime ≤ row.time, tf15m.getLast?, tf5m.getLast? with
  | some opening, some last15, some last5 =>
    let volumeOk := avgVolume tf5m 20 * (108 / 100) ≤ last5.volume
    if opening.high < last15.close ∧ opening.high < last5.close ∧ volumeOk then
      vote "ORB" .buy "Replay UTC opening range high broken, 15M/5M confirmed"
        (last5.close - opening.high)
    else if last15.close < opening.low ∧ last5.close < opening.low ∧ volumeOk then
      vote "ORB" .sell "Replay UTC opening range low broken, 15M/5M confirmed"
        (opening.low - last5.close)
    else vote "ORB" .wait "Replay opening range not confirmed on closed 15M/5M candles" 0
  | _, _, _ => vote "ORB" .wait "No closed 1H candle found for replay UTC day" 0

/-! ## Trades -/

inductive Outcome
  | win
  | loss
  | flat
  | unresolved
  deriving DecidableEq

/-- A position that is opened at `entry`. -/
structure Opening where
  long : Bool
  entry : ℚ
  stopLossPct : ℚ
  takeProfitPct : ℚ

namespace Opening

variable (o : Opening)

/-- `stop` -/
def stop : ℚ :=
  if o.long then o.entry * (1 - o.stopLossPct / 100) else o.entry * (1 + o.stopLossPct / 100)

/-- `target` -/
def target : ℚ :=
  if o.long then o.entry * (1 + o.takeProfitPct / 100) else o.entry * (1 - o.takeProfitPct / 100)

/-- `hit_stop` -/
def hitStop (bar : Bar) : Bool := if o.long then bar.low ≤ o.stop else o.stop ≤ bar.high

/-- `hit_target` -/
def hitTarget (bar : Bar) : Bool := if o.long then o.target ≤ bar.high else bar.low ≤ o.target

/-- The profit at a price, in percent. -/
def pnlPct (price : ℚ) : ℚ :=
  if o.long then (price - o.entry) / o.entry * 100 else (o.entry - price) / o.entry * 100

/-- The loops of `estimate_trade_outcome`: the outcome, the number of the candle from `index` on,
    and the exit. -/
def firstHit (index : ℕ) : List Bar → Option (Outcome × ℕ × ℚ)
  | [] => none
  | bar :: future =>
    if o.hitStop bar ∧ o.hitTarget bar then some (.loss, index, o.stop)
    else if o.hitTarget bar then some (.win, index, o.target)
    else if o.hitStop bar then some (.loss, index, o.stop)
    else firstHit (index + 1) future

end Opening

/-- `estimate_trade_outcome(side, entry_price, future, stop_loss_pct, take_profit_pct)` -/
def estimateTradeOutcome (o : Opening) (future : List Bar) : Outcome × ℕ × ℚ :=
  match future.getLast? with
  | none => (.unresolved, 0, o.entry)
  | some last =>
    match o.firstHit 1 future with
    | some outcome => outcome
    | none =>
      let pnl := o.pnlPct last.close
      (if 0 < pnl then .win else if pnl < 0 then .loss else .flat, future.length, last.close)

/-- An element of `trades`. -/
structure Trade where
  signalTime : ℤ
  decisionTime : ℤ
  entryTime : ℤ
  side : Signal
  entry : ℚ
  exit : ℚ
  outcome : Outcome
  pnlPct : ℚ
  barsHeld : ℕ
  router : Router
  votes : List Vote

/-! ## The loop -/

/-- What `replay` is called with, beside the engines. -/
structure Request where
  symbol : String
  /-- `horizon == "7d"` -/
  week : Bool
  mode : String
  stopLossPct : ℚ
  takeProfitPct : ℚ

namespace Request

variable (r : Request)

def interval : Interval := if r.week then .fifteen else .five
def lookahead : ℕ := if r.week then 16 else 24
def step : ℕ := if r.week then 2 else 3

end Request

/-- The candles of the three timeframes. -/
structure Histories where
  entryTf : List Bar
  tf15 : List Bar
  tf1h : List Bar

/-- `entry_tf`, sorted. -/
def Histories.entries (h : Histories) : List Bar := sortBy Bar.time h.entryTf

/-- What the loop does at a candle. -/
inductive Seen
  /-- The candle is skipped: a trade is open. -/
  | blocked
  /-- There are too few closed candles. -/
  | short
  | decided (votes : List Vote) (router : Router) (trade : Option Trade)
  /-- The price at which the trade opens is 0, by which the profit is divided. -/
  | raised (votes : List Vote) (router : Router)

/-- What the loop does at the candle of an index. -/
structure Record where
  index : ℕ
  decisionTime : ℤ
  seen : Seen

section loop

variable (e : Engines) (r : Request) (h : Histories)

/-- The votes on the candles closed at the decision; `none` if they are too few. -/
def votesAt (decisionTime : ℤ) : Option (List Vote) :=
  let replayEntry := closedAt h.entryTf decisionTime r.interval 120
  let replay15 := closedAt h.tf15 decisionTime .fifteen 120
  let replay1h := closedAt h.tf1h decisionTime .sixty 120
  if min (min replayEntry.length replay15.length) replay1h.length < 60 then none
  else some [e.trendFollowing replay1h replay15 replayEntry,
    e.srBreakout replay1h replay15 replayEntry,
    e.rsiDivergence replay1h replay15 replayEntry,
    e.vwapBounce replay1h replay15 replayEntry,
    e.liquiditySweep replay1h replay15 replayEntry,
    deterministicOrb replay1h replay15 replayEntry decisionTime]

/-- The position that a decision opens. -/
def openingOf (decision : Signal) (entryCandle : Bar) : Opening where
  long := decision = .buy
  entry := entryCandle.openPrice
  stopLossPct := r.stopLossPct
  takeProfitPct := r.takeProfitPct

/-- `estimate_trade_outcome`, for the trade of the decision at `index`. -/
def outcomeAt (index : ℕ) (o : Opening) : Outcome × ℕ × ℚ :=
  estimateTradeOutcome o ((h.entries.drop (index + 1)).take r.lookahead)

/-- The trade of the decision at `index`. -/
def tradeOf (index : ℕ) (signalCandle entryCandle : Bar) (votes : List Vote) (router : Router) :
    Trade :=
  let o := openingOf r router.decision entryCandle
  let result := outcomeAt r h index o
  { signalTime := signalCandle.time
    decisionTime := signalCandle.time + r.interval.ms
    entryTime := entryCandle.time
    side := router.decision
    entry := roundTo 8 o.entry
    exit := roundTo 8 result.2.2
    outcome := result.1
    pnlPct := roundTo 4 (o.pnlPct result.2.2)
    barsHeld := result.2.1
    router := router
    votes := votes }

/-- `blocked_until`, after the trade of the decision at `index`. -/
def blockedBy (index : ℕ) (o : Opening) : ℕ := index + 1 + max 1 (outcomeAt r h index o).2.1 - 1

/-- The body of the loop of `replay`: the record, and `blocked_until` for the next index; the
    loop ends where it raises. -/
def visit (index blockedUntil : ℕ) : Option (Record × Option ℕ) :=
  match h.entries[index]?, h.entries[index + 1]? with
  | some signalCandle, some entryCandle =>
    let decisionTime := signalCandle.time + r.interval.ms
    let record (seen : Seen) : Record := ⟨index, decisionTime, seen⟩
    if index ≤ blockedUntil then some (record .blocked, some blockedUntil)
    else
      match votesAt e r h decisionTime with
      | none => some (record .short, some blockedUntil)
      | some votes =>
        let router := e.routeVotes votes r.mode
        if router.decision = .wait then
          some (record (.decided votes router none), some blockedUntil)
        else if entryCandle.openPrice = 0 then some (record (.raised votes router), none)
        else
          let trade := tradeOf r h index signalCandle entryCandle votes router
          some (record (.decided votes router (some trade)),
            some (blockedBy r h index (openingOf r router.decision entryCandle)))
  | _, _ => none

/-- The loop of `replay`, at the indices that are left. -/
def loop : List ℕ → ℕ → List Record
  | [], _ => []
  | index :: indices, blockedUntil =>
    match visit e r h index blockedUntil with
    | none => []
    | some (record, none) => [record]
    | some (record, some blockedUntil) => record :: loop indices blockedUntil

/-- `range(80, max(80, len(entry_tf) - lookahead - 1), step)` -/
def indices : List ℕ :=
  List.range' 80 ((h.entryTf.length - r.lookahead - 1 - 80 + r.step - 1) / r.step) r.step

/-- What the loop does. -/
def records : List Record := loop e r h (indices r h) 0

end loop

/-! ## The answer -/

def Record.trade? (record : Record) : Option Trade :=
  match record.seen with
  | .decided _ _ trade => trade
  | _ => none

def Record.votes (record : Record) : List Vote :=
  match record.seen with
  | .decided votes _ _ | .raised votes _ => votes
  | _ => []

def Record.signal? (record : Record) : Option Signal :=
  match record.seen with
  | .decided _ router _ | .raised _ router => some router.decision
  | _ => none

def Record.Raised (record : Record) : Prop :=
  match record.seen with
  | .raised _ _ => True
  | _ => False

instance (record : Record) : Decidable record.Raised := by
  unfold Record.Raised
  cases record.seen <;> infer_instance

/-- The answer of `replay`, beside what it repeats of the request. -/
structure Report where
  candles : ℕ
  trades : List Trade
  wins : ℕ
  losses : ℕ
  flats : ℕ
  winRate : ℚ
  estimatedPnlPct : ℚ
  signalCounts : Signal → ℕ
  votesByEngine : String → Signal → ℕ

inductive Failure
  | notOk (message : String)
  | zeroDivision

/-- What `core.fetch_candles` returns: the candles, or `None`, and a message. -/
abbrev Fetched := Option (List Bar) × String

/-- `replay(core, symbol, horizon, mode, stop_loss_pct, take_profit_pct)` -/
def replay (e : Engines) (r : Request) (entryTf tf15 tf1h : Fetched) : Except Failure Report :=
  let h : Histories := ⟨entryTf.1.getD [], tf15.1.getD [], tf1h.1.getD []⟩
  if h.entryTf = [] then .error (.notOk entryTf.2)
  else if h.tf15 = [] then .error (.notOk tf15.2)
  else if h.tf1h = [] then .error (.notOk tf1h.2)
  else
    let seen := records e r h
    if seen.any (·.Raised) then .error .zeroDivision
    else
      let trades := seen.filterMap Record.trade?
      let wins := trades.countP (·.outcome = .win)
      let losses := trades.countP (·.outcome = .loss)
      .ok
        { candles := h.entryTf.length
          trades := trades.rtake 100
          wins := wins
          losses := losses
          flats := trades.length - wins - losses
          winRate := if trades = [] then 0 else roundTo 2 ((wins : ℚ) / trades.length * 100)
          estimatedPnlPct := roundTo 4 (trades.map Trade.pnlPct).sum
          signalCounts := fun signal => (seen.filterMap Record.signal?).count signal
          votesByEngine := fun engine signal =>
            (seen.flatMap Record.votes).countP fun v => v.engine = engine ∧ v.signal = signal }

end IntradayBot.Accuracy
