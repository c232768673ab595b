import IntradayBot.Accuracy.Replay
import Mathlib.Tactic.Ring

/-!
# The trend of closed candles

The watchlist reads the trend of a symbol from its closed 1H candles (`classifyTrend`): the moving
averages of 20 and 50 closes are in order, the last close is beyond both, and the fast average
moved that way. The strategies read a direction from the same candles with averages of their own
(`trendDirection`).

Both compute one moving average (`workerEma_eq_ema`), and a trend is the direction that the
strategies see (`trendDirection_of_classifyTrend`). Prices are exact.
-/

namespace IntradayBot.Setup

open Accuracy

/-- The text of a signal. -/
def signalText : Signal → String
  | .buy => "Buy"
  | .sell => "Sell"
  | .wait => "WAIT"

/-- `filter_closed_candles(candles, interval, now_ms)` -/
def filterClosedCandles (candles : List Accuracy.Bar) (interval : Interval) (nowMs : ℤ) :
    List Accuracy.Bar :=
  candles.filter fun bar => ClosedBy interval nowMs bar

theorem mem_filterClosedCandles {candles : List Accuracy.Bar} {interval : Interval} {nowMs : ℤ}
    {bar : Accuracy.Bar} :
    bar ∈ filterClosedCandles candles interval nowMs ↔
      bar ∈ candles ∧ bar.time + interval.ms ≤ nowMs := by
  simp [filterClosedCandles]

/-- `l[-1 - n]`, of a list that is longer. -/
def fromEnd (l : List ℚ) (n : ℕ) : ℚ := l.reverse[n]?.getD 0

/-! ## Moving averages -/

/-- The loop of `_ema`. -/
def workerEmaFrom (multiplier : ℚ) : ℚ → List ℚ → List ℚ
  | _, [] => []
  | current, value :: values =>
    let next := (value - current) * multiplier + current
    next :: workerEmaFrom multiplier next values

/-- `_ema(values, period)` of the worker. -/
def workerEma (values : List ℚ) (period : ℕ) : List ℚ :=
  if values.length < period then []
  else
    let current := (values.take period).sum / period
    current :: workerEmaFrom (2 / (period + 1)) current (values.drop period)

/-- The loop of `ema`. -/
def emaFrom (alpha : ℚ) : ℚ → List ℚ → List ℚ
  | _, [] => []
  | last, value :: values =>
    let next := value * alpha + last * (1 - alpha)
    next :: emaFrom alpha next values

/-- `ema(values, period)` of the strategies. -/
def ema (values : List ℚ) (period : ℕ) : List ℚ :=
  if values.length < period then []
  else
    let first := (values.take period).sum / period
    first :: emaFrom (2 / (period + 1)) first (values.drop period)

theorem workerEmaFrom_eq_emaFrom (multiplier current : ℚ) (values : List ℚ) :
    workerEmaFrom multiplier current values = emaFrom multiplier current values := by
  induction values generalizing current with
  | nil => rfl
  | cons value values ih =>
    have hnext : (value - current) * multiplier + current =
        value * multiplier + current * (1 - multiplier) := by ring
    simp only [workerEmaFrom, emaFrom, hnext, ih]

/-- The worker and the strategies compute one moving average. -/
theorem workerEma_eq_ema (values : List ℚ) (period : ℕ) :
    workerEma values period = ema values period := by
  simp only [workerEma, ema, workerEmaFrom_eq_emaFrom]

/-! ## Trends -/

/-- The trend of a symbol on the watchlist. -/
inductive Trend
  | bullish
  | bearish
  deriving DecidableEq, Repr

/-- `_expected_side(trend)`: a trend has a side. -/
def Trend.expectedSide : Trend → Signal
  | .bullish => .buy
  | .bearish => .sell

/-- `classify_trend(candles)`: the trend, if it is clear, its score and the reason. -/
def classifyTrend (candles : List Accuracy.Bar) : Option Trend × ℚ × String :=
  let closes := candles.map Accuracy.Bar.close
  let ema20 := workerEma closes 20
  let ema50 := workerEma closes 50
  if ema20.length < 4 ∨ ema50.length < 4 then (none, 0, "Not enough EMA history")
  else
    let price := fromEnd closes 0
    let fast := fromEnd ema20 0
    let slow := fromEnd ema50 0
    let fastSlope := fast - fromEnd ema20 3
    let separationPct := if 0 < price then |fast - slow| / price * 100 else 0
    let slopePct := if 0 < price then |fastSlope| / price * 100 else 0
    let score := roundTo 4 (min 100 (separationPct * 45 + slopePct * 250))
    let reason := "EMA20/EMA50 alignment, price location, and EMA20 slope confirmed"
    if slow < fast ∧ fast < price ∧ 0 < fastSlope then (some .bullish, score, reason)
    else if fast < slow ∧ price < fast ∧ fastSlope < 0 then (some .bearish, score, reason)
    else (none, 0, "Trend is not cleanly bullish or bearish")

/-- `trend_direction(candles)` -/
def trendDirection (candles : List Accuracy.Bar) : Signal :=
  let closes := candles.map Accuracy.Bar.close
  let fast := ema closes 20
  let slow := ema closes 50
  if fast.length < 2 ∨ slow.length < 2 then .wait
  else if fromEnd slow 0 < fromEnd fast 0 ∧ fromEnd fast 0 < fromEnd closes 0 then .buy
  else if fromEnd fast 0 < fromEnd slow 0 ∧ fromEnd closes 0 < fromEnd fast 0 then .sell
  else .wait

variable {candles : List Accuracy.Bar} {trend : Trend} {score : ℚ} {reason : String}

/-- The side of a trend is the direction that the strategies see on the same candles. -/
theorem trendDirection_of_classifyTrend (h : classifyTrend candles = (some trend, score, reason)) :
    trendDirection candles = trend.expectedSide := by
  simp only [classifyTrend, workerEma_eq_ema] at h
  split at h
  · cases h
  rename_i hlength
  rw [not_or, not_lt, not_lt] at hlength
  have hlong : ¬((ema (candles.map Accuracy.Bar.close) 20).length < 2 ∨
      (ema (candles.map Accuracy.Bar.close) 50).length < 2) := by omega
  rw [trendDirection]
  rw [if_neg hlong]
  split at h
  · rename_i hbull
    obtain rfl : Trend.bullish = trend := Option.some.inj (Prod.mk.inj h).1
    exact if_pos ⟨hbull.1, hbull.2.1⟩
  split at h
  · rename_i hbear
    obtain rfl : Trend.bearish = trend := Option.some.inj (Prod.mk.inj h).1
    rw [if_neg fun hbull => lt_asymm hbull.1 hbear.1]
    exact if_pos ⟨hbear.1, hbear.2.1⟩
  · cases h

end IntradayBot.Setup
