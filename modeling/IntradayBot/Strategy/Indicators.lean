import IntradayBot.Setup.Trend

/-!
# Indicators

What the strategies compute from closed candles, beside the moving averages: the relative strength
index, swings and pivots, the volume-weighted price, and the shape of a candle.

Prices are exact. A list that is indexed from its end is longer than the index, as the strategies
check before.
-/

namespace IntradayBot.Strategy

open Accuracy
open Setup (ema fromEnd trendDirection)

/-! ## Lists -/

/-- `candles[-1 - n]` -/
def barFromEnd (candles : List Accuracy.Bar) (n : ℕ) : Accuracy.Bar :=
  candles.reverse[n]?.getD ⟨0, 0, 0, 0, 0, 0⟩

/-- `candles[-1 - n:-1]` -/
def beforeLast (candles : List Accuracy.Bar) (n : ℕ) : List Accuracy.Bar := candles.dropLast.rtake n

/-- `max(values)` -/
def maxOf : List ℚ → ℚ
  | [] => 0
  | value :: values => values.foldr max value

/-- `min(values)` -/
def minOf : List ℚ → ℚ
  | [] => 0
  | value :: values => values.foldr min value

theorem foldr_mem {f : ℚ → ℚ → ℚ} (hf : ∀ a b, f a b = a ∨ f a b = b) (value : ℚ)
    (values : List ℚ) : values.foldr f value ∈ value :: values := by
  induction values with
  | nil => exact List.mem_cons_self
  | cons first values ih =>
    rw [List.foldr_cons]
    rcases hf first (values.foldr f value) with hfirst | hrest
    · rw [hfirst]
      exact List.mem_cons_of_mem _ List.mem_cons_self
    · rw [hrest]
      exact List.cons_subset_cons _ (List.subset_cons_self _ _) ih

theorem maxOf_mem {values : List ℚ} (h : values ≠ []) : maxOf values ∈ values := by
  obtain ⟨value, values, rfl⟩ := List.exists_cons_of_ne_nil h
  exact foldr_mem max_choice value values

theorem minOf_mem {values : List ℚ} (h : values ≠ []) : minOf values ∈ values := by
  obtain ⟨value, values, rfl⟩ := List.exists_cons_of_ne_nil h
  exact foldr_mem min_choice value values

/-! ## Relative strength -/

/-- The changes from a value to the next one. -/
def changes (values : List ℚ) : List ℚ :=
  List.zipWith (fun previous value => value - previous) values values.tail

/-- The average of the first `period` values, and the loop over the others. -/
def smoothed (period : ℕ) (values : List ℚ) : ℚ :=
  (values.drop period).foldl (fun average value => (average * (period - 1) + value) / period)
    ((values.take period).sum / period)

/-- `rsi(values, period)` -/
def rsi (values : List ℚ) (period : ℕ) : ℚ :=
  if values.length ≤ period then 50
  else
    let avgGain := smoothed period ((changes values).map fun change => max change 0)
    let avgLoss := smoothed period ((changes values).map fun change => |min change 0|)
    if avgLoss = 0 then 100 else 100 - 100 / (1 + avgGain / avgLoss)

/-- `_rsi_at(closes, index)` -/
def rsiAt (closes : List ℚ) (index : ℕ) : ℚ :=
  if index < 14 then 50 else rsi (closes.take (index + 1)) 14

/-! ## Candles -/

/-- `candle_direction(candle)` -/
def candleDirection (bar : Accuracy.Bar) : Signal :=
  if bar.openPrice < bar.close then .buy else if bar.close < bar.openPrice then .sell else .wait

/-- The last candle closed beyond the one before it. -/
def Follows (side : Signal) (previous last : Accuracy.Bar) : Prop :=
  match side with
  | .buy => previous.close < last.close
  | .sell => last.close < previous.close
  | .wait => False

instance (side : Signal) (previous last : Accuracy.Bar) :
    Decidable (Follows side previous last) := by
  unfold Follows
  cases side <;> infer_instance

/-- `near_value(price, target, pct)` -/
abbrev NearValue (price target pct : ℚ) : Prop :=
  target ≠ 0 ∧ |(price - target) / target| * 100 ≤ pct

/-- `swing_zone(candles, period)` -/
def swingZone (candles : List Accuracy.Bar) (period : ℕ) : ℚ × ℚ :=
  let window := candles.rtake period
  (minOf (window.map (·.low)), maxOf (window.map (·.high)))

/-- `_avg_range(candles)` -/
def avgRange (candles : List Accuracy.Bar) : ℚ :=
  if candles = [] then 0
  else (candles.map fun bar => max (bar.high - bar.low) 0).sum / candles.length

/-- The body of a candle as a part of its range, which is at least `floor`. -/
def bodyRatioOver (floor : ℚ) (bar : Accuracy.Bar) : ℚ :=
  |bar.close - bar.openPrice| / max (bar.high - bar.low) floor

/-- `_body_ratio(candle)` -/
def bodyRatio (bar : Accuracy.Bar) : ℚ := bodyRatioOver (1 / 10 ^ 8) bar

/-- `_wick_ratio(candle, side)` -/
def wickRatio (bar : Accuracy.Bar) (side : Signal) : ℚ :=
  let wick := if side = .buy then min bar.openPrice bar.close - bar.low
    else bar.high - max bar.openPrice bar.close
  max wick 0 / max (bar.high - bar.low) (1 / 10 ^ 8)

/-- `_slope_pct(values, lookback)` -/
def slopePct (values : List ℚ) (lookback : ℕ) : ℚ :=
  if values.length ≤ lookback ∨ fromEnd values lookback = 0 then 0
  else (fromEnd values 0 - fromEnd values lookback) / fromEnd values lookback * 100

/-- `_structure_aligned(candles, direction, lookback)` -/
def StructureAligned (candles : List Accuracy.Bar) (direction : Signal) (lookback : ℕ) : Prop :=
  let window := candles.rtake lookback
  let half := max 2 (lookback / 2)
  lookback ≤ window.length ∧
    match direction with
    | .buy => minOf ((window.take half).map (·.low)) ≤ minOf ((window.rtake half).map (·.low))
    | .sell => maxOf ((window.rtake half).map (·.high)) ≤ maxOf ((window.take half).map (·.high))
    | .wait => False

instance (candles : List Accuracy.Bar) (direction : Signal) (lookback : ℕ) :
    Decidable (StructureAligned candles direction lookback) := by
  unfold StructureAligned
  cases direction <;> infer_instance

/-- `_vwap(candles)` -/
def vwap (candles : List Accuracy.Bar) : Option ℚ :=
  let totalVolume := (candles.map (·.volume)).sum
  if totalVolume ≤ 0 then none
  else some ((candles.map fun bar => (bar.high + bar.low + bar.close) / 3 * bar.volume).sum /
    totalVolume)

/-- `_vwap_structure_aligned(candles, direction, lookback)` -/
def VwapStructureAligned (candles : List Accuracy.Bar) (direction : Signal) (lookback : ℕ) : Prop :=
  let window := candles.rtake lookback
  lookback ≤ window.length ∧
    match direction with
    | .buy => (barFromEnd window (lookback - 1)).close ≤ (barFromEnd window 0).close
    | .sell => (barFromEnd window 0).close ≤ (barFromEnd window (lookback - 1)).close
    | .wait => False

instance (candles : List Accuracy.Bar) (direction : Signal) (lookback : ℕ) :
    Decidable (VwapStructureAligned candles direction lookback) := by
  unfold VwapStructureAligned
  cases direction <;> infer_instance

/-- The quotient of the last volume and the average of the 20 before it. -/
def volumeRatio (candles : List Accuracy.Bar) : ℚ :=
  let volumeBase := avgVolume (beforeLast candles 20) 20
  if 0 < volumeBase then (barFromEnd candles 0).volume / volumeBase else 0

/-! ## Pivots -/

inductive PivotKind
  | high
  | low
  deriving DecidableEq

/-- The field that a pivot is about. -/
def PivotKind.field : PivotKind → Accuracy.Bar → ℚ
  | .high => (·.high)
  | .low => (·.low)

/-- The value is beyond the values before it, and at least at those after it. -/
def PivotKind.Beyond (kind : PivotKind) (value : ℚ) (prior future : List ℚ) : Prop :=
  match kind with
  | .high => maxOf prior < value ∧ maxOf future ≤ value
  | .low => value < minOf prior ∧ value ≤ minOf future

instance (kind : PivotKind) (value : ℚ) (prior future : List ℚ) :
    Decidable (kind.Beyond value prior future) := by
  unfold PivotKind.Beyond
  cases kind <;> infer_instance

/-- `_pivot_points(candles, field, kind)`: the places of the pivots and their values. -/
def pivotPoints (candles : List Accuracy.Bar) (kind : PivotKind) : List (ℕ × ℚ) :=
  let values := candles.map kind.field
  (List.range' 2 (values.length - 4)).filterMap fun index =>
    let value := values[index]?.getD 0
    let prior := (values.take index).rtake 2
    let future := (values.drop (index + 1)).take 2
    if kind.Beyond value prior future then some (index, value) else none

/-- The last two of the pivots. -/
def lastTwo (pivots : List (ℕ × ℚ)) : Option ((ℕ × ℚ) × (ℕ × ℚ)) :=
  match pivots.reverse with
  | second :: first :: _ => some (first, second)
  | _ => none

/-- `_pivot_is_fresh(second_index, total)` -/
abbrev PivotIsFresh (secondIndex total : ℕ) : Prop :=
  0 ≤ (total : ℤ) - 1 - secondIndex ∧ (total : ℤ) - 1 - secondIndex ≤ 6

/-- `_pivot_separation_ok(first_index, second_index)` -/
abbrev PivotSeparationOk (firstIndex secondIndex : ℕ) : Prop :=
  3 ≤ (secondIndex : ℤ) - firstIndex ∧ (secondIndex : ℤ) - firstIndex ≤ 18

/-- `_price_near_pivot(current_price, pivot_price)` -/
abbrev PriceNearPivot (currentPrice pivotPrice : ℚ) : Prop :=
  0 < pivotPrice ∧ |(currentPrice - pivotPrice) / pivotPrice| * 100 ≤ 5 / 2

/-! ## Times -/

/-- `_ordered(candles)`: times that are not those of the exchange are in any order. -/
def Ordered (candles : List Accuracy.Bar) : Prop :=
  (∀ bar ∈ candles, bar.time < 100000000000) ∨
    ∀ p ∈ candles.zip candles.tail, p.1.time < p.2.time

instance (candles : List Accuracy.Bar) : Decidable (Ordered candles) := by
  unfold Ordered
  infer_instance

/-- `_five_minute_confirmation_after_15m(sweep_candle, confirmation_candle)` -/
def ConfirmedAfter (sweep confirmation : Accuracy.Bar) : Prop :=
  100000000000 ≤ sweep.time ∧ 100000000000 ≤ confirmation.time →
    sweep.time + 900000 ≤ confirmation.time ∧ confirmation.time ≤ sweep.time + 900000 + 1200000

instance (sweep confirmation : Accuracy.Bar) : Decidable (ConfirmedAfter sweep confirmation) := by
  unfold ConfirmedAfter
  infer_instance

/-- `_confirmed_retest(previous5, last5, level, side)` -/
def ConfirmedRetest (previous last : Accuracy.Bar) (level : ℚ) (side : Signal) : Prop :=
  if side = .buy then level < previous.close ∧ last.low ≤ level ∧ level < last.close
  else previous.close < level ∧ level ≤ last.high ∧ last.close < level

instance (previous last : Accuracy.Bar) (level : ℚ) (side : Signal) :
    Decidable (ConfirmedRetest previous last level side) := by
  unfold ConfirmedRetest
  infer_instance

end IntradayBot.Strategy
