import IntradayBot.Strategy.Indicators

/-!
# The strategies

The six strategies vote on closed candles of 1H, 15M and 5M. Each one votes for a side only after
checks of the larger timeframes, and of the body, the volume and the direction of the last 5M
candle; its strength is a score from 0 to 5.

Prices are exact, and so are the bounds that the source writes as decimals.
-/

namespace IntradayBot.Strategy

open Accuracy
open Setup (ema fromEnd trendDirection signalText)

/-- `f"{value:.nf}"`, of a number that is not negative. -/
def fixed (places : ℕ) (value : ℚ) : String :=
  let digits := (Decimal.roundHalfEven (value * 10 ^ places)).toNat
  let fraction := toString (digits % 10 ^ places)
  s!"{digits / 10 ^ places}." ++ "".pushn '0' (places - fraction.length) ++ fraction

/-! ## Strengths -/

/-- Points that are given if a condition holds. -/
def points (condition : Prop) [Decidable condition] (value : ℚ) : ℚ :=
  if condition then value else 0

/-- `_trend_strength(separation_pct, slope_pct, body_ratio, volume_ratio)` -/
def trendStrength (separationPct slopePct bodyRatio volumeRatio : ℚ) : ℚ :=
  min 5 (11 / 4 + points (12 / 100 ≤ separationPct) (1 / 2) +
    points (8 / 100 ≤ |slopePct|) (1 / 2) + points (45 / 100 ≤ bodyRatio) (1 / 2) +
    points (11 / 10 ≤ volumeRatio) (1 / 2))

/-- `_breakout_strength(close, level, volume_ratio, body_ratio, retested)` -/
def breakoutStrength (close level volumeRatio bodyRatio : ℚ) (retested : Bool) : ℚ :=
  let distancePct := if level = 0 then 0 else |(close - level) / level| * 100
  min 5 (5 / 2 + points (8 / 100 ≤ distancePct) (3 / 4) + points (55 / 100 ≤ bodyRatio) (3 / 4) +
    points (135 / 100 ≤ volumeRatio) (3 / 4) + points retested (3 / 4))

/-- `_divergence_strength(rsi_delta, body_ratio, volume_ratio, price_move_pct)` -/
def divergenceStrength (rsiDelta bodyRatio volumeRatio priceMovePct : ℚ) : ℚ :=
  min 5 (5 / 2 + points (6 ≤ rsiDelta) (3 / 4) + points (35 / 100 ≤ bodyRatio) (1 / 2) +
    points (11 / 10 ≤ volumeRatio) (1 / 2) + points (1 / 4 ≤ priceMovePct) (1 / 2))

/-- `_liquidity_strength(sweep_pct, wick_ratio, volume_ratio, body_ratio)` -/
def liquidityStrength (sweepPct wickRatio volumeRatio bodyRatio : ℚ) : ℚ :=
  min 5 (5 / 2 + points (8 / 100 ≤ sweepPct) (1 / 2) + points (45 / 100 ≤ wickRatio) (3 / 4) +
    points (5 / 4 ≤ volumeRatio) (3 / 4) + points (3 / 10 ≤ bodyRatio) (1 / 2))

/-- `score` of the VWAP bounce. -/
def bounceStrength (distancePct bodyRatio volumeRatio : ℚ) : ℚ :=
  min 5 (11 / 4 + points (distancePct ≤ 18 / 100) (1 / 2) + points (45 / 100 ≤ bodyRatio) (1 / 2) +
    points (11 / 10 ≤ volumeRatio) (1 / 2) + 1 / 2)

/-! ## Trend following -/

/-- The difference of the averages of 20 and 50 closes, in percent of the last close. -/
def separationPct (candles : List Accuracy.Bar) : ℚ :=
  let closes := candles.map (·.close)
  if fromEnd closes 0 = 0 then 0
  else |(fromEnd (ema closes 20) 0 - fromEnd (ema closes 50) 0) / fromEnd closes 0| * 100

/-- The distance of a price from a level on a side, in percent of the level. -/
def beyondPct (side : Signal) (price level : ℚ) : ℚ :=
  if side = .buy then (price - level) / level * 100 else (level - price) / level * 100

/-- The candle reaches back to the level, and closes on the side of it. -/
def Reclaims (side : Signal) (bar : Accuracy.Bar) (level : ℚ) : Prop :=
  if side = .buy then bar.low ≤ level ∧ level ≤ bar.close
  else level ≤ bar.high ∧ bar.close ≤ level

instance (side : Signal) (bar : Accuracy.Bar) (level : ℚ) :
    Decidable (Reclaims side bar level) := by
  unfold Reclaims
  infer_instance

/-- `trend_following_engine(tf1h, tf15m, tf5m)` -/
def trendFollowingEngine (tf1h tf15m tf5m : List Accuracy.Bar) : Vote :=
  let wait (reason : String) : Vote := vote "Trend Follow" .wait reason 0
  if tf1h.length < 55 ∨ tf15m.length < 25 ∨ tf5m.length < 21 then
    wait "Not enough closed candles for trend-follow confirmation"
  else if ¬(Ordered tf1h ∧ Ordered tf15m ∧ Ordered tf5m) then
    wait "Candle timestamps are missing, duplicated, or out of order"
  else
    let direction := trendDirection tf1h
    if direction = .wait then wait "1H EMA20/50 trend not clean"
    else
      let slope := slopePct (ema (tf1h.map (·.close)) 20) 3
      if separationPct tf1h < 6 / 100 ∨
          ¬(direction = .buy ∧ 4 / 100 < slope ∨ direction = .sell ∧ slope < -4 / 100) then
        wait "1H trend lacks EMA separation or slope strength"
      else
        let ema20 := ema (tf15m.map (·.close)) 20
        let last15 := barFromEnd tf15m 0
        let emaRef := fromEnd ema20 0
        if ema20 = [] then wait "15M EMA setup unavailable"
        else if ¬StructureAligned tf15m direction 6 then
          wait s!"1H {signalText direction}; 15M structure is not aligned"
        else if ¬(Reclaims direction last15 emaRef ∨ NearValue last15.close emaRef (28 / 100)) then
          wait s!"1H {signalText direction}; waiting for 15M EMA pullback/reclaim"
        else if emaRef = 0 ∨ 9 / 10 < beyondPct direction last15.close emaRef then
          wait s!"1H {signalText direction}; 15M close is overextended from EMA20"
        else
          let last5 := barFromEnd tf5m 0
          if candleDirection last5 ≠ direction ∨ ¬Follows direction (barFromEnd tf5m 1) last5 ∨
              bodyRatio last5 < 35 / 100 ∨ volumeRatio tf5m < 95 / 100 then
            wait s!"1H {signalText direction}; waiting for 5M body, volume, and follow-through"
          else
            vote "Trend Follow" direction (s!"1H {signalText direction} trend, 15M EMA reclaim, " ++
              "5M follow-through confirmed")
              (trendStrength (separationPct tf1h) slope (bodyRatio last5) (volumeRatio tf5m))

/-! ## Breakouts -/

/-- The last eight candles are not wider than four average ranges. -/
def Consolidating (candles : List Accuracy.Bar) : Prop :=
  let window := candles.rtake 8
  let range15 := maxOf (window.map (·.high)) - minOf (window.map (·.low))
  let avgRange15 := avgRange (candles.rtake 30)
  0 < avgRange15 ∧ range15 ≤ avgRange15 * 4

instance (candles : List Accuracy.Bar) : Decidable (Consolidating candles) := by
  unfold Consolidating
  infer_instance

/-- The last candle is wider than three and a half average ranges. -/
def Oversized (candles : List Accuracy.Bar) : Prop :=
  let avgRange5 := avgRange (beforeLast candles 20)
  0 < avgRange5 ∧
    avgRange5 * (7 / 2) < (barFromEnd candles 0).high - (barFromEnd candles 0).low

instance (candles : List Accuracy.Bar) : Decidable (Oversized candles) := by
  unfold Oversized
  infer_instance

/-- `sr_breakout_engine(tf1h, tf15m, tf5m)` -/
def srBreakoutEngine (tf1h tf15m tf5m : List Accuracy.Bar) : Vote :=
  let wait (reason : String) : Vote := vote "S/R Breakout" .wait reason 0
  if tf1h.length < 31 ∨ tf15m.length < 30 ∨ tf5m.length < 21 then
    wait "Not enough closed structure for breakout confirmation"
  else if ¬(Ordered tf1h ∧ Ordered tf15m ∧ Ordered tf5m) then
    wait "Candle timestamps are missing, duplicated, or out of order"
  else
    let support := (swingZone (beforeLast tf1h 30) 30).1
    let resistance := (swingZone (beforeLast tf1h 30) 30).2
    let last5 := barFromEnd tf5m 0
    let prev5 := barFromEnd tf5m 1
    let last15 := barFromEnd tf15m 0
    let body := bodyRatio last5
    let ratio := volumeRatio tf5m
    if resistance < last5.high ∧ last5.close ≤ resistance then
      wait "False breakout: wick pierced resistance but 5M closed back inside"
    else if last5.low < support ∧ support ≤ last5.close then
      wait "False breakdown: wick pierced support but 5M closed back inside"
    else if resistance < last5.close then
      if ¬Consolidating tf15m ∨ Oversized tf5m then
        wait "Breakout rejected: expanded structure or abnormal 5M candle"
      else if last15.close ≤ resistance ∨ body < 45 / 100 ∨ ratio < 6 / 5 then
        wait "Resistance break needs 15M close, strong body, and volume confirmation"
      else
        let retested : Bool := ConfirmedRetest prev5 last5 resistance .buy
        vote "S/R Breakout" .buy
          (if retested then "Confirmed resistance breakout and retest"
            else "Confirmed resistance breakout")
          (breakoutStrength last5.close resistance ratio body retested)
    else if last5.close < support then
      if ¬Consolidating tf15m ∨ Oversized tf5m then
        wait "Breakdown rejected: expanded structure or abnormal 5M candle"
      else if support ≤ last15.close ∨ body < 45 / 100 ∨ ratio < 6 / 5 then
        wait "Support break needs 15M close, strong body, and volume confirmation"
      else
        let retested : Bool := ConfirmedRetest prev5 last5 support .sell
        vote "S/R Breakout" .sell
          (if retested then "Confirmed support breakdown and retest"
            else "Confirmed support breakdown")
          (breakoutStrength last5.close support ratio body retested)
    else wait "No confirmed 1H support/resistance breakout"

/-! ## Divergence -/

/-- The side that a divergence at pivots of a kind is for. -/
def PivotKind.side : PivotKind → Signal
  | .high => .sell
  | .low => .buy

def PivotKind.name : PivotKind → String
  | .high => "bearish"
  | .low => "bullish"

/-- `rsi_delta` -/
def PivotKind.rsiDelta : PivotKind → ℚ → ℚ → ℚ
  | .high, rsiFirst, rsiSecond => rsiFirst - rsiSecond
  | .low, rsiFirst, rsiSecond => rsiSecond - rsiFirst

/-- The second pivot is beyond the first one. -/
def PivotKind.Diverges (kind : PivotKind) (first second : ℚ) : Prop :=
  match kind with
  | .high => first < second
  | .low => second < first

instance (kind : PivotKind) (first second : ℚ) : Decidable (kind.Diverges first second) := by
  unfold PivotKind.Diverges
  cases kind <;> infer_instance

/-- The relative strength leaves room for a move to the side. -/
def PivotKind.RsiAllows (kind : PivotKind) (rsiNow : ℚ) : Prop :=
  match kind with
  | .high => 48 ≤ rsiNow
  | .low => rsiNow ≤ 52

instance (kind : PivotKind) (rsiNow : ℚ) : Decidable (kind.RsiAllows rsiNow) := by
  unfold PivotKind.RsiAllows
  cases kind <;> infer_instance

/-- The part of `rsi_divergence_engine` about the pivots of a kind. -/
def divergence (kind : PivotKind) (tf1h tf15m tf5m : List Accuracy.Bar) : Option Vote :=
  let closes15 := tf15m.map (·.close)
  let recent := tf15m.rtake 34
  let offset := tf15m.length - recent.length
  let rsiNow := rsi closes15 14
  let last5 := barFromEnd tf5m 0
  let body := bodyRatio last5
  let ratio := volumeRatio tf5m
  (lastTwo (pivotPoints recent kind)).bind fun pivots =>
    let first := pivots.1
    let second := pivots.2
    let rsiFirst := rsiAt closes15 (offset + first.1)
    let rsiSecond := rsiAt closes15 (offset + second.1)
    let rsiDelta := kind.rsiDelta rsiFirst rsiSecond
    let priceMovePct := if first.2 = 0 then 0 else |(second.2 - first.2) / first.2| * 100
    if PivotIsFresh (offset + second.1) tf15m.length ∧
        PivotSeparationOk (offset + first.1) (offset + second.1) ∧
        PriceNearPivot (barFromEnd tf15m 0).close second.2 ∧ kind.Diverges first.2 second.2 ∧
        4 ≤ rsiDelta ∧ kind.RsiAllows rsiNow ∧
        candleDirection last5 = kind.side ∧ Follows kind.side (barFromEnd tf5m 1) last5 ∧
        3 / 10 ≤ body ∧ 1 ≤ ratio ∧ (trendDirection tf1h = .wait ∨ trendDirection tf1h = kind.side)
    then
      some (vote "RSI Divergence" kind.side
        (s!"Fresh 15M {kind.name} pivot divergence confirmed, " ++
          s!"RSI {fixed 1 rsiNow}, delta {fixed 1 rsiDelta}")
        (divergenceStrength rsiDelta body ratio priceMovePct))
    else none

/-- `rsi_divergence_engine(tf1h, tf15m, tf5m)` -/
def rsiDivergenceEngine (tf1h tf15m tf5m : List Accuracy.Bar) : Vote :=
  let wait (reason : String) : Vote := vote "RSI Divergence" .wait reason 0
  if tf15m.length < 35 ∨ tf5m.length < 21 then
    wait "Not enough closed candles for pivot RSI divergence"
  else if ¬(Ordered tf15m ∧ Ordered tf5m) then
    wait "Candle timestamps are missing, duplicated, or out of order"
  else if ¬ConfirmedAfter (barFromEnd tf15m 0) (barFromEnd tf5m 0) then
    wait "5M reversal is not chronologically aligned after the latest closed 15M candle"
  else
    match divergence .low tf1h tf15m tf5m, divergence .high tf1h tf15m tf5m with
    | some bullish, _ => bullish
    | none, some bearish => bearish
    | none, none =>
      wait s!"No fresh, nearby pivot divergence, RSI {fixed 1 (rsi (tf15m.map (·.close)) 14)}"

/-! ## Bounces -/

/-- `vwap_bounce_engine(tf1h, tf15m, tf5m)` -/
def vwapBounceEngine (tf1h tf15m tf5m : List Accuracy.Bar) : Vote :=
  let wait (reason : String) : Vote := vote "VWAP Bounce" .wait reason 0
  if tf1h.length < 55 ∨ tf15m.length < 40 ∨ tf5m.length < 21 then
    wait "Not enough closed candles for VWAP confirmation"
  else if ¬(Ordered tf1h ∧ Ordered tf15m ∧ Ordered tf5m) then
    wait "Candle timestamps are missing, duplicated, or out of order"
  else
    let direction := trendDirection tf1h
    if direction = .wait then wait "1H trend not clean for VWAP bounce"
    else
      match vwap (tf15m.rtake 40) with
      | none => wait "15M VWAP volume unavailable"
      | some level =>
        let last15 := barFromEnd tf15m 0
        let prev15 := barFromEnd tf15m 1
        let distancePct := if level = 0 then 999 else |(last15.close - level) / level| * 100
        let crosses : Bool :=
          if direction = .buy then prev15.close < level ∧ level ≤ last15.close
          else level < prev15.close ∧ last15.close ≤ level
        if 35 / 100 < distancePct then
          wait s!"1H {signalText direction}; 15M close is too far from VWAP"
        else if ¬VwapStructureAligned tf15m direction 6 then
          wait s!"1H {signalText direction}; 15M VWAP structure is not aligned"
        else if ¬(Reclaims direction last15 level ∨ crosses) then
          wait s!"1H {signalText direction}; waiting for 15M VWAP reclaim/rejection"
        else if 45 / 100 < beyondPct direction last15.close level then
          wait s!"1H {signalText direction}; VWAP bounce is already overextended"
        else
          let last5 := barFromEnd tf5m 0
          if candleDirection last5 ≠ direction ∨ ¬Follows direction (barFromEnd tf5m 1) last5 ∨
              bodyRatio last5 < 35 / 100 ∨ volumeRatio tf5m < 95 / 100 then
            wait (s!"1H {signalText direction}; waiting for 5M VWAP bounce body, volume, " ++
              "and follow-through")
          else
            vote "VWAP Bounce" direction (s!"1H {signalText direction}, 15M VWAP reclaim, " ++
              "5M follow-through confirmed")
              (bounceStrength distancePct (bodyRatio last5) (volumeRatio tf5m))

/-! ## Sweeps -/

/-- The part of `liquidity_sweep_engine` after a sweep for a side. -/
def sweepVote (side : Signal) (sweepPct : ℚ) (tf1h tf15m tf5m : List Accuracy.Bar) : Vote :=
  let wait (reason : String) : Vote := vote "Liquidity Sweep" .wait reason 0
  let last5 := barFromEnd tf5m 0
  let wick := wickRatio (barFromEnd tf15m 0) side
  if trendDirection tf1h ≠ .wait ∧ trendDirection tf1h ≠ side then
    wait (if side = .buy then "Bullish liquidity sweep blocked by strong 1H downtrend"
      else "Bearish liquidity sweep blocked by strong 1H uptrend")
  else if wick < 35 / 100 ∨ volumeRatio tf5m < 105 / 100 ∨ bodyRatio last5 < 1 / 4 ∨
      ¬(Follows side (barFromEnd tf5m 1) last5 ∧ candleDirection last5 = side) then
    wait (if side = .buy then
        "Bullish sweep needs wick rejection, volume, and chronological 5M follow-through"
      else "Bearish sweep needs wick rejection, volume, and chronological 5M follow-through")
  else
    vote "Liquidity Sweep" side
      (if side = .buy then "Bullish 15M stop-hunt reclaim with aligned 5M follow-through"
        else "Bearish 15M stop-hunt reclaim with aligned 5M follow-through")
      (liquidityStrength sweepPct wick (volumeRatio tf5m) (bodyRatio last5))

/-- `liquidity_sweep_engine(tf1h, tf15m, tf5m)` -/
def liquiditySweepEngine (tf1h tf15m tf5m : List Accuracy.Bar) : Vote :=
  let wait (reason : String) : Vote := vote "Liquidity Sweep" .wait reason 0
  if tf15m.length < 25 ∨ tf5m.length < 21 then
    wait "Not enough closed candles for liquidity sweep confirmation"
  else if ¬(Ordered tf15m ∧ Ordered tf5m) then
    wait "Candle timestamps are missing, duplicated, or out of order"
  else
    let last15 := barFromEnd tf15m 0
    let priorHigh := maxOf ((beforeLast tf15m 20).map (·.high))
    let priorLow := minOf ((beforeLast tf15m 20).map (·.low))
    if ¬ConfirmedAfter last15 (barFromEnd tf5m 0) then
      wait "5M follow-through is not chronologically aligned after the 15M sweep"
    else if last15.low < priorLow ∧ priorLow < last15.close then
      let sweepPct := if priorLow = 0 then 0 else (priorLow - last15.low) / priorLow * 100
      sweepVote .buy sweepPct tf1h tf15m tf5m
    else if priorHigh < last15.high ∧ last15.close < priorHigh then
      let sweepPct := if priorHigh = 0 then 0 else (last15.high - priorHigh) / priorHigh * 100
      sweepVote .sell sweepPct tf1h tf15m tf5m
    else wait "No confirmed stop-hunt liquidity sweep"

/-! ## The opening range of the day -/

/-- `orb_engine(tf1h, tf15m, tf5m)`, on the day that starts at `midnight` (UTC). -/
def orbEngine (midnight : ℤ) (tf1h tf15m tf5m : List Accuracy.Bar) : Vote :=
  match tf1h.find? fun candle => midnight ≤ candle.time with
  | none => vote "ORB" .wait "No 1H candle found for current UTC day" 0
  | some opening =>
    let last15 := barFromEnd tf15m 0
    let last5 := barFromEnd tf5m 0
    let volumeOk : Bool := avgVolume tf5m 20 * (11 / 10) ≤ last5.volume
    if opening.high < last15.close ∧ opening.high < last5.close ∧ volumeOk then
      vote "ORB" .buy "1H opening range high broken, 15M/5M confirmed"
        (last5.close - opening.high)
    else if last15.close < opening.low ∧ last5.close < opening.low ∧ volumeOk then
      vote "ORB" .sell "1H opening range low broken, 15M/5M confirmed"
        (opening.low - last5.close)
    else vote "ORB" .wait "Opening range not confirmed on 15M and 5M" 0

end IntradayBot.Strategy
