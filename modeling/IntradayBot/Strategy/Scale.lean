import IntradayBot.Strategy.Agreement
import Mathlib.Algebra.BigOperators.Ring.List

/-!
# Units of the candles

The votes do not depend on the units in which prices and volumes are quoted (`strategies_units`):
all that the strategies compare are directions and percentages. The exception is the range of the
last candles, which is divided by as if it were never less than a fixed number (`Resolved`).
-/

namespace IntradayBot.Strategy

open Accuracy
open Setup (ema emaFrom fromEnd trendDirection)

/-- A change of the units of prices and volumes. -/
structure Units where
  price : ℚ
  volume : ℚ
  price_pos : 0 < price
  volume_pos : 0 < volume

namespace Units

variable (u : Units)

/-- A candle in other units. -/
def bar (bar : Accuracy.Bar) : Accuracy.Bar where
  time := bar.time
  openPrice := u.price * bar.openPrice
  high := u.price * bar.high
  low := u.price * bar.low
  close := u.price * bar.close
  volume := u.volume * bar.volume

/-- Candles in other units. -/
def bars (candles : List Accuracy.Bar) : List Accuracy.Bar := candles.map u.bar

/-- Prices in other units. -/
def prices (values : List ℚ) : List ℚ := values.map fun value => u.price * value

variable {u}

/-! ## Lists -/

section

variable {a b d : ℚ}

theorem le_iff : u.price * a ≤ u.price * b ↔ a ≤ b := mul_le_mul_iff_right₀ u.price_pos

theorem lt_iff : u.price * a < u.price * b ↔ a < b := mul_lt_mul_iff_right₀ u.price_pos

theorem eq_zero_iff : u.price * a = 0 ↔ a = 0 := mul_eq_zero_iff_left u.price_pos.ne'

theorem pos_iff : 0 < u.price * a ↔ 0 < a := mul_pos_iff_of_pos_left u.price_pos

theorem sub_div : (u.price * a - u.price * b) / (u.price * d) = (a - b) / d := by
  rw [← mul_sub, mul_div_mul_left _ _ u.price_pos.ne']

theorem max_eq : max (u.price * a) (u.price * b) = u.price * max a b :=
  (mul_max_of_nonneg _ _ u.price_pos.le).symm

theorem min_eq : min (u.price * a) (u.price * b) = u.price * min a b :=
  (mul_min_of_nonneg _ _ u.price_pos.le).symm

theorem abs_eq : |u.price * a| = u.price * |a| := by
  rw [abs_mul, abs_of_pos u.price_pos]

end

section

variable {values : List ℚ} {candles : List Accuracy.Bar} {n : ℕ}

theorem length_prices : (u.prices values).length = values.length := List.length_map _

theorem length_bars : (u.bars candles).length = candles.length := List.length_map _

theorem closes_bars : (u.bars candles).map (·.close) = u.prices (candles.map (·.close)) := by
  simp [bars, prices, bar]

theorem highs_bars : (u.bars candles).map (·.high) = u.prices (candles.map (·.high)) := by
  simp [bars, prices, bar]

theorem lows_bars : (u.bars candles).map (·.low) = u.prices (candles.map (·.low)) := by
  simp [bars, prices, bar]

theorem fromEnd_prices : fromEnd (u.prices values) n = u.price * fromEnd values n := by
  rw [fromEnd, fromEnd, prices, ← List.map_reverse, List.getElem?_map]
  cases values.reverse[n]? with
  | none => exact (mul_zero _).symm
  | some value => rfl

theorem barFromEnd_bars : barFromEnd (u.bars candles) n = u.bar (barFromEnd candles n) := by
  rw [barFromEnd, barFromEnd, bars, ← List.map_reverse, List.getElem?_map]
  cases candles.reverse[n]? with
  | none => simp [bar]
  | some value => rfl

theorem rtake_bars : (u.bars candles).rtake n = u.bars (candles.rtake n) := by
  rw [List.rtake, List.rtake, length_bars, bars, bars, List.map_drop]

theorem take_bars : (u.bars candles).take n = u.bars (candles.take n) := (List.map_take ..).symm

theorem rtake_prices : (u.prices values).rtake n = u.prices (values.rtake n) := by
  rw [List.rtake, List.rtake, length_prices, prices, prices, List.map_drop]

theorem take_prices : (u.prices values).take n = u.prices (values.take n) := (List.map_take ..).symm

theorem drop_prices : (u.prices values).drop n = u.prices (values.drop n) := (List.map_drop ..).symm

theorem beforeLast_bars : beforeLast (u.bars candles) n = u.bars (beforeLast candles n) := by
  rw [beforeLast, beforeLast, ← rtake_bars, bars, bars, List.map_dropLast]

theorem foldr_prices {f : ℚ → ℚ → ℚ} (hf : ∀ a b, f (u.price * a) (u.price * b) = u.price * f a b)
    (value : ℚ) : (u.prices values).foldr f (u.price * value) = u.price * values.foldr f value := by
  induction values with
  | nil => rfl
  | cons first values ih =>
    rw [prices, List.map_cons, List.foldr_cons, ← prices, ih, hf, List.foldr_cons]

theorem maxOf_prices : maxOf (u.prices values) = u.price * maxOf values := by
  cases values with
  | nil => exact (mul_zero _).symm
  | cons value values => exact foldr_prices (fun _ _ => max_eq) value

theorem minOf_prices : minOf (u.prices values) = u.price * minOf values := by
  cases values with
  | nil => exact (mul_zero _).symm
  | cons value values => exact foldr_prices (fun _ _ => min_eq) value

theorem sum_prices : (u.prices values).sum = u.price * values.sum := by
  rw [prices, List.sum_map_mul_left, List.map_id']

/-! ## Averages -/

theorem emaFrom_prices (alpha last : ℚ) :
    emaFrom alpha (u.price * last) (u.prices values) = u.prices (emaFrom alpha last values) := by
  induction values generalizing last with
  | nil => rfl
  | cons value values ih =>
    have hnext : u.price * value * alpha + u.price * last * (1 - alpha) =
        u.price * (value * alpha + last * (1 - alpha)) := by ring
    simp only [prices, List.map_cons, emaFrom] at ih ⊢
    rw [hnext, ih]

theorem ema_prices : ema (u.prices values) n = u.prices (ema values n) := by
  rw [ema, ema, length_prices]
  split_ifs
  · rfl
  · rw [take_prices, drop_prices, sum_prices, mul_div_assoc]
    exact congrArg _ (emaFrom_prices _ _)

theorem prices_eq_nil : u.prices values = [] ↔ values = [] := List.map_eq_nil_iff

theorem trendDirection_bars : trendDirection (u.bars candles) = trendDirection candles := by
  simp only [trendDirection, closes_bars, ema_prices, length_prices, fromEnd_prices, lt_iff]

theorem slopePct_prices : slopePct (u.prices values) n = slopePct values n := by
  simp only [slopePct, length_prices, fromEnd_prices, eq_zero_iff, sub_div]

theorem separationPct_bars : separationPct (u.bars candles) = separationPct candles := by
  simp only [separationPct, closes_bars, ema_prices, fromEnd_prices, eq_zero_iff, sub_div]

/-! ## Relative strength -/

theorem changes_prices : changes (u.prices values) = u.prices (changes values) := by
  rw [changes, changes, prices, prices, ← List.map_tail, List.zipWith_map, List.map_zipWith]
  simp only [mul_sub]

theorem smoothed_prices (period : ℕ) :
    smoothed period (u.prices values) = u.price * smoothed period values := by
  have hfold : ∀ (l : List ℚ) (start : ℚ),
      (u.prices l).foldl (fun average value : ℚ => (average * (period - 1) + value) / period)
        (u.price * start) =
      u.price *
        l.foldl (fun average value : ℚ => (average * (period - 1) + value) / period) start := by
    intro l
    induction l with
    | nil => exact fun _ => rfl
    | cons value l ih =>
      intro start
      have hnext : (u.price * start * (period - 1) + u.price * value) / period =
          u.price * ((start * (period - 1) + value) / period) := by ring
      rw [prices, List.map_cons, List.foldl_cons, hnext, ← prices, ih, List.foldl_cons]
  rw [smoothed, smoothed, take_prices, drop_prices, sum_prices, mul_div_assoc, hfold]

theorem gains_prices : ((u.prices values).map fun change => max change 0) =
    u.prices (values.map fun change => max change 0) := by
  simp only [prices, List.map_map]
  refine List.map_congr_left fun value _ => ?_
  have h := max_eq (u := u) (a := value) (b := 0)
  rwa [mul_zero] at h

theorem losses_prices : ((u.prices values).map fun change => |min change 0|) =
    u.prices (values.map fun change => |min change 0|) := by
  simp only [prices, List.map_map]
  refine List.map_congr_left fun value _ => ?_
  have h := min_eq (u := u) (a := value) (b := 0)
  rw [mul_zero] at h
  rw [Function.comp_apply, Function.comp_apply, h, abs_eq]

theorem rsi_prices : rsi (u.prices values) n = rsi values n := by
  simp only [rsi, length_prices, changes_prices, gains_prices, losses_prices, smoothed_prices,
    eq_zero_iff, mul_div_mul_left _ _ u.price_pos.ne']

theorem rsiAt_prices : rsiAt (u.prices values) n = rsiAt values n := by
  simp only [rsiAt, take_prices, rsi_prices]

/-! ## Candles -/

theorem candleDirection_bar (x : Accuracy.Bar) : candleDirection (u.bar x) = candleDirection x := by
  simp only [candleDirection, bar, lt_iff]

theorem follows_bar {side : Signal} {x y : Accuracy.Bar} :
    Follows side (u.bar x) (u.bar y) ↔ Follows side x y := by
  cases side <;> simp only [Follows, bar, lt_iff]

theorem nearValue_iff {a b pct : ℚ} :
    NearValue (u.price * a) (u.price * b) pct ↔ NearValue a b pct := by
  simp only [NearValue, ne_eq, eq_zero_iff, sub_div]

theorem beyondPct_eq {side : Signal} {a b : ℚ} :
    beyondPct side (u.price * a) (u.price * b) = beyondPct side a b := by
  simp only [beyondPct, sub_div]

theorem reclaims_bar {side : Signal} {x : Accuracy.Bar} {level : ℚ} :
    Reclaims side (u.bar x) (u.price * level) ↔ Reclaims side x level := by
  simp only [Reclaims, bar, le_iff]

theorem swingZone_bars : swingZone (u.bars candles) n =
    (u.price * (swingZone candles n).1, u.price * (swingZone candles n).2) := by
  simp only [swingZone, rtake_bars, highs_bars, lows_bars, maxOf_prices, minOf_prices]

theorem avgRange_bars : avgRange (u.bars candles) = u.price * avgRange candles := by
  have hranges : ((u.bars candles).map fun x => max (x.high - x.low) 0) =
      u.prices (candles.map fun x => max (x.high - x.low) 0) := by
    rw [bars, prices, List.map_map, List.map_map]
    refine List.map_congr_left fun x _ => ?_
    have h := max_eq (u := u) (a := x.high - x.low) (b := 0)
    rwa [mul_zero, mul_sub] at h
  have hnil : u.bars candles = [] ↔ candles = [] := List.map_eq_nil_iff
  rw [avgRange, avgRange, hranges, sum_prices, length_bars]
  simp only [hnil]
  split_ifs
  · exact (mul_zero _).symm
  · exact mul_div_assoc ..

theorem avgVolume_bars : avgVolume (u.bars candles) n = u.volume * avgVolume candles n := by
  have hvolumes : ∀ l, (u.bars l).map (·.volume) = l.map fun x => u.volume * x.volume := by
    intro l
    simp [bars, bar]
  have hnil : ∀ l, u.bars l = [] ↔ l = [] := fun l => List.map_eq_nil_iff
  simp only [avgVolume, rtake_bars, hvolumes, List.sum_map_mul_left, length_bars, hnil]
  split_ifs
  · exact (mul_zero _).symm
  · exact mul_div_assoc ..

theorem volumeRatio_bars : volumeRatio (u.bars candles) = volumeRatio candles := by
  simp only [volumeRatio, beforeLast_bars, avgVolume_bars, barFromEnd_bars, bar,
    mul_pos_iff_of_pos_left u.volume_pos, mul_div_mul_left _ _ u.volume_pos.ne']

theorem structureAligned_bars {direction : Signal} :
    StructureAligned (u.bars candles) direction n ↔ StructureAligned candles direction n := by
  cases direction <;> simp only [StructureAligned, rtake_bars, take_bars, length_bars, highs_bars,
    lows_bars, maxOf_prices, minOf_prices, le_iff]

theorem vwapStructureAligned_bars {direction : Signal} :
    VwapStructureAligned (u.bars candles) direction n ↔
      VwapStructureAligned candles direction n := by
  cases direction <;>
    simp only [VwapStructureAligned, rtake_bars, length_bars, barFromEnd_bars, bar, le_iff]

theorem vwap_bars : vwap (u.bars candles) = (vwap candles).map (u.price * ·) := by
  have hvolume : ((u.bars candles).map (·.volume)).sum =
      u.volume * (candles.map (·.volume)).sum := by
    rw [← List.sum_map_mul_left, bars, List.map_map]
    rfl
  have hweighted : ((u.bars candles).map fun x => (x.high + x.low + x.close) / 3 * x.volume).sum =
      u.volume * (u.price *
        (candles.map fun x => (x.high + x.low + x.close) / 3 * x.volume).sum) := by
    rw [← List.sum_map_mul_left, ← List.sum_map_mul_left, bars, List.map_map]
    refine congrArg List.sum (List.map_congr_left fun x _ => ?_)
    simp only [Function.comp_apply, bar]
    ring
  have hnonpos : ∀ a, u.volume * a ≤ 0 ↔ a ≤ 0 := fun a => by
    rw [← not_lt, ← not_lt, mul_pos_iff_of_pos_left u.volume_pos]
  simp only [vwap, hvolume, hweighted, hnonpos, mul_div_mul_left _ _ u.volume_pos.ne']
  split_ifs
  · rfl
  · rw [Option.map_some, mul_div_assoc]

theorem ordered_bars : Ordered (u.bars candles) ↔ Ordered candles := by
  have hzip : (u.bars candles).zip (u.bars candles).tail =
      (candles.zip candles.tail).map (Prod.map u.bar u.bar) := by
    rw [bars, ← List.map_tail, List.zip_map]
  rw [Ordered, Ordered, hzip]
  simp only [bars, List.forall_mem_map]
  rfl

theorem confirmedAfter_bar {x y : Accuracy.Bar} :
    ConfirmedAfter (u.bar x) (u.bar y) ↔ ConfirmedAfter x y := Iff.rfl

theorem confirmedRetest_bar {side : Signal} {x y : Accuracy.Bar} {level : ℚ} :
    ConfirmedRetest (u.bar x) (u.bar y) (u.price * level) side ↔
      ConfirmedRetest x y level side := by
  simp only [ConfirmedRetest, bar, lt_iff, le_iff]

theorem pivotPoints_bars {kind : PivotKind} : pivotPoints (u.bars candles) kind =
    (pivotPoints candles kind).map fun pivot => (pivot.1, u.price * pivot.2) := by
  have hvalues : (u.bars candles).map kind.field = u.prices (candles.map kind.field) := by
    cases kind
    · exact highs_bars
    · exact lows_bars
  have hvalue : ∀ index : ℕ, (u.prices (candles.map kind.field))[index]?.getD 0 =
      u.price * (candles.map kind.field)[index]?.getD 0 := by
    intro index
    rw [prices, List.getElem?_map]
    cases (candles.map kind.field)[index]? with
    | none => exact (mul_zero _).symm
    | some value => rfl
  have hbeyond : ∀ value prior future,
      kind.Beyond (u.price * value) (u.prices prior) (u.prices future) ↔
        kind.Beyond value prior future := by
    intro value prior future
    cases kind <;> simp only [PivotKind.Beyond, maxOf_prices, minOf_prices, lt_iff, le_iff]
  simp only [pivotPoints, hvalues, length_prices, List.map_filterMap]
  refine List.filterMap_congr fun index _ => ?_
  rw [take_prices, rtake_prices, drop_prices, take_prices, hvalue]
  simp only [hbeyond]
  split_ifs <;> rfl

theorem lastTwo_map (pivots : List (ℕ × ℚ)) :
    lastTwo (pivots.map fun pivot => (pivot.1, u.price * pivot.2)) =
      (lastTwo pivots).map fun p => ((p.1.1, u.price * p.1.2), (p.2.1, u.price * p.2.2)) := by
  rw [lastTwo, lastTwo, ← List.map_reverse]
  rcases pivots.reverse with _ | ⟨second, _ | ⟨first, rest⟩⟩ <;> rfl

end

/-! ## Ranges -/

/-- The range of a candle is not less than what it is divided by, in both units; or the candle is
    flat. -/
def Resolved (u : Units) (x : Accuracy.Bar) : Prop :=
  (1 / 10 ^ 8 ≤ x.high - x.low ∧ 1 / 10 ^ 8 ≤ u.price * (x.high - x.low)) ∨
    x.openPrice = x.low ∧ x.close = x.low ∧ x.high = x.low

theorem bodyRatioOver_bar {x : Accuracy.Bar} (h : u.Resolved x) {floor : ℚ}
    (hfloor : floor ≤ 1 / 10 ^ 8) : bodyRatioOver floor (u.bar x) = bodyRatioOver floor x := by
  rcases h with ⟨h, h'⟩ | ⟨hopen, hclose, -⟩
  · simp only [bodyRatioOver, bar, ← mul_sub]
    rw [max_eq_left (hfloor.trans h), max_eq_left (hfloor.trans h'), abs_eq,
      mul_div_mul_left _ _ u.price_pos.ne']
  · simp [bodyRatioOver, bar, hopen, hclose]

theorem wickRatio_bar {x : Accuracy.Bar} (h : u.Resolved x) {side : Signal} :
    wickRatio (u.bar x) side = wickRatio x side := by
  have hmax : ∀ a, max (u.price * a) 0 = u.price * max a 0 := fun a => by
    have hzero := max_eq (u := u) (a := a) (b := 0)
    rwa [mul_zero] at hzero
  rcases h with ⟨h, h'⟩ | ⟨hopen, hclose, hhigh⟩
  · simp only [wickRatio, bar, min_eq, max_eq, ← mul_sub]
    rw [max_eq_left h, max_eq_left h', ← mul_ite, hmax, mul_div_mul_left _ _ u.price_pos.ne']
  · simp [wickRatio, bar, hopen, hclose, hhigh]

/-! ## The strategies -/

section

variable {tf1h tf15m tf5m : List Accuracy.Bar}

theorem bodyRatio_bars (h5 : u.Resolved (barFromEnd tf5m 0)) :
    bodyRatio (u.bar (barFromEnd tf5m 0)) = bodyRatio (barFromEnd tf5m 0) :=
  bodyRatioOver_bar h5 le_rfl

theorem trendFollowingEngine_bars (h5 : u.Resolved (barFromEnd tf5m 0)) :
    trendFollowingEngine (u.bars tf1h) (u.bars tf15m) (u.bars tf5m) =
      trendFollowingEngine tf1h tf15m tf5m := by
  have hclose : ∀ x, (u.bar x).close = u.price * x.close := fun _ => rfl
  simp only [trendFollowingEngine, length_bars, ordered_bars, trendDirection_bars,
    separationPct_bars, closes_bars, ema_prices, slopePct_prices, prices_eq_nil,
    structureAligned_bars, barFromEnd_bars, fromEnd_prices, hclose, reclaims_bar, nearValue_iff,
    eq_zero_iff, beyondPct_eq, candleDirection_bar, follows_bar, bodyRatio_bars h5,
    volumeRatio_bars]

theorem consolidating_bars : Consolidating (u.bars tf15m) ↔ Consolidating tf15m := by
  simp only [Consolidating, rtake_bars, highs_bars, lows_bars, maxOf_prices, minOf_prices,
    avgRange_bars, pos_iff, ← mul_sub, mul_assoc, le_iff]

theorem oversized_bars : Oversized (u.bars tf5m) ↔ Oversized tf5m := by
  simp only [Oversized, beforeLast_bars, barFromEnd_bars, bar, avgRange_bars, pos_iff, ← mul_sub,
    mul_assoc, lt_iff]

theorem srBreakoutEngine_bars (h5 : u.Resolved (barFromEnd tf5m 0)) :
    srBreakoutEngine (u.bars tf1h) (u.bars tf15m) (u.bars tf5m) =
      srBreakoutEngine tf1h tf15m tf5m := by
  have hclose : ∀ x, (u.bar x).close = u.price * x.close := fun _ => rfl
  have hhigh : ∀ x, (u.bar x).high = u.price * x.high := fun _ => rfl
  have hlow : ∀ x, (u.bar x).low = u.price * x.low := fun _ => rfl
  have hstrength : ∀ close level ratio body retested,
      breakoutStrength (u.price * close) (u.price * level) ratio body retested =
        breakoutStrength close level ratio body retested := by
    intro close level ratio body retested
    simp only [breakoutStrength, eq_zero_iff, sub_div]
  simp only [srBreakoutEngine, length_bars, ordered_bars, beforeLast_bars, swingZone_bars,
    barFromEnd_bars, hclose, hhigh, hlow, lt_iff, le_iff, consolidating_bars, oversized_bars,
    bodyRatio_bars h5, volumeRatio_bars, confirmedRetest_bar, hstrength]

theorem divergence_bars {kind : PivotKind} (h5 : u.Resolved (barFromEnd tf5m 0)) :
    divergence kind (u.bars tf1h) (u.bars tf15m) (u.bars tf5m) =
      divergence kind tf1h tf15m tf5m := by
  have hclose : ∀ x, (u.bar x).close = u.price * x.close := fun _ => rfl
  have hnear : ∀ a b, PriceNearPivot (u.price * a) (u.price * b) ↔ PriceNearPivot a b := by
    intro a b
    simp only [PriceNearPivot, pos_iff, sub_div]
  have hdiverges : ∀ a b, kind.Diverges (u.price * a) (u.price * b) ↔ kind.Diverges a b := by
    intro a b
    cases kind <;> simp only [PivotKind.Diverges, lt_iff]
  simp only [divergence, closes_bars, rtake_bars, length_bars, rsi_prices, rsiAt_prices,
    barFromEnd_bars, hclose, bodyRatio_bars h5, volumeRatio_bars, pivotPoints_bars, lastTwo_map,
    Option.bind_map, Function.comp_def, eq_zero_iff, sub_div, hnear, hdiverges,
    candleDirection_bar, follows_bar, trendDirection_bars]

theorem rsiDivergenceEngine_bars (h5 : u.Resolved (barFromEnd tf5m 0)) :
    rsiDivergenceEngine (u.bars tf1h) (u.bars tf15m) (u.bars tf5m) =
      rsiDivergenceEngine tf1h tf15m tf5m := by
  simp only [rsiDivergenceEngine, length_bars, ordered_bars, barFromEnd_bars, confirmedAfter_bar,
    divergence_bars h5, closes_bars, rsi_prices]

theorem vwapBounceEngine_bars (h5 : u.Resolved (barFromEnd tf5m 0)) :
    vwapBounceEngine (u.bars tf1h) (u.bars tf15m) (u.bars tf5m) =
      vwapBounceEngine tf1h tf15m tf5m := by
  have hclose : ∀ x, (u.bar x).close = u.price * x.close := fun _ => rfl
  simp only [vwapBounceEngine, length_bars, ordered_bars, trendDirection_bars, rtake_bars,
    vwap_bars, barFromEnd_bars]
  rcases vwap (tf15m.rtake 40) with _ | level
  · rfl
  · simp only [Option.map_some, hclose, eq_zero_iff, sub_div, lt_iff, le_iff,
      vwapStructureAligned_bars, reclaims_bar, beyondPct_eq, candleDirection_bar, follows_bar,
      bodyRatio_bars h5, volumeRatio_bars]

theorem liquiditySweepEngine_bars (h15 : u.Resolved (barFromEnd tf15m 0))
    (h5 : u.Resolved (barFromEnd tf5m 0)) :
    liquiditySweepEngine (u.bars tf1h) (u.bars tf15m) (u.bars tf5m) =
      liquiditySweepEngine tf1h tf15m tf5m := by
  have hclose : ∀ x, (u.bar x).close = u.price * x.close := fun _ => rfl
  have hhigh : ∀ x, (u.bar x).high = u.price * x.high := fun _ => rfl
  have hlow : ∀ x, (u.bar x).low = u.price * x.low := fun _ => rfl
  simp only [liquiditySweepEngine, sweepVote, length_bars, ordered_bars, barFromEnd_bars,
    beforeLast_bars, highs_bars, lows_bars, maxOf_prices, minOf_prices, confirmedAfter_bar, hclose,
    hhigh, hlow, lt_iff, eq_zero_iff, sub_div, trendDirection_bars, wickRatio_bar h15,
    volumeRatio_bars, bodyRatio_bars h5, follows_bar, candleDirection_bar]

theorem sessionOrbEngine_bars (cfg : OrbSettings) (h5 : u.Resolved (barFromEnd tf5m 0)) :
    sessionOrbEngine cfg (u.bars tf1h) (u.bars tf15m) (u.bars tf5m) =
      sessionOrbEngine cfg tf1h tf15m tf5m := by
  have hclose : ∀ x, (u.bar x).close = u.price * x.close := fun _ => rfl
  have htime : ∀ x, (u.bar x).time = x.time := fun _ => rfl
  have hfilter : ∀ start rangeEnd : ℤ, ((u.bars tf15m).filter fun row =>
      start ≤ cfg.wallClock row.time ∧ cfg.wallClock row.time < rangeEnd) =
        u.bars (tf15m.filter fun row =>
          start ≤ cfg.wallClock row.time ∧ cfg.wallClock row.time < rangeEnd) := by
    intro start rangeEnd
    rw [bars, List.filter_map]
    rfl
  have hbody : bodyRatioOver (1 / 10 ^ 12) (u.bar (barFromEnd tf5m 0)) =
      bodyRatioOver (1 / 10 ^ 12) (barFromEnd tf5m 0) := bodyRatioOver_bar h5 (by norm_num)
  simp only [sessionOrbEngine, sessionBreak, length_bars, barFromEnd_bars, htime, hfilter,
    highs_bars, lows_bars, maxOf_prices, minOf_prices, hclose, lt_iff, trendDirection_bars,
    volumeRatio_bars, hbody, follows_bar, eq_zero_iff, beyondPct_eq]

/-! ## The filters -/

theorem direction15M_bars : direction15M (u.bars tf15m) = direction15M tf15m := by
  simp only [direction15M, closes_bars, ema_prices, fromEnd_prices, lt_iff, le_iff]

theorem confluence_bars : confluence (u.bars tf1h) (u.bars tf15m) (u.bars tf5m) =
    confluence tf1h tf15m tf5m := by
  have hfive : direction5M (u.bars tf5m) = direction5M tf5m := by
    simp only [direction5M, barFromEnd_bars, candleDirection_bar, follows_bar]
  simp only [confluence, length_bars, closes_bars, ema_prices, prices_eq_nil, trendDirection_bars,
    direction15M_bars, hfive]

theorem atr_bars (period : ℕ) : atr (u.bars tf1h) period = u.price * atr tf1h period := by
  have hvalues : List.zipWith (fun previous row : Accuracy.Bar =>
      max (max (row.high - row.low) |row.high - previous.close|) |row.low - previous.close|)
      (u.bars tf1h) (u.bars tf1h).tail = u.prices (List.zipWith (fun previous row : Accuracy.Bar =>
      max (max (row.high - row.low) |row.high - previous.close|) |row.low - previous.close|)
      tf1h tf1h.tail) := by
    rw [bars, prices, ← List.map_tail, List.zipWith_map, List.map_zipWith]
    simp only [bar, ← mul_sub, abs_eq, max_eq]
  simp only [atr, length_bars, hvalues, length_prices, rtake_prices, sum_prices]
  split_ifs
  · exact (mul_zero _).symm
  · exact mul_div_assoc ..
  · exact (mul_zero _).symm

theorem detectRegime_bars : detectRegime (u.bars tf1h) = detectRegime tf1h := by
  have hnonpos : ∀ a, u.price * a ≤ 0 ↔ a ≤ 0 := fun a => by
    rw [← not_lt, ← not_lt, pos_iff]
  simp only [detectRegime, length_bars, closes_bars, ema_prices, prices_eq_nil, fromEnd_prices,
    hnonpos, slopePct_prices, atr_bars, ← mul_sub, abs_eq, lt_iff,
    mul_div_mul_left _ _ u.price_pos.ne']

end

end Units

/-- Prices in thousands. -/
def thousands : Units := ⟨1 / 1000, 1, by norm_num, by norm_num⟩

/-- In units that are too large the last 5M candle is not resolved, and no vote is left. -/
example : let u : Units := ⟨1 / 10 ^ 9, 1, by norm_num, by norm_num⟩
    (strategies exampleEnvironment.settings 0 (u.bars exampleSnapshot.tf1h.candles)
      (u.bars exampleSnapshot.tf15m.candles) (u.bars exampleSnapshot.tf5m.candles)).map
        (·.signal) = [.wait, .wait, .wait, .wait, .wait, .wait] := by decide +kernel

end IntradayBot.Strategy
