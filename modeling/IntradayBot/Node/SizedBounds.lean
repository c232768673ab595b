import IntradayBot.Node.SizedPlan

/-!
# The bounds of a sized plan

A plan keeps to the risk, the margin and the rules of the instrument (`QtyBounds`,
`PriceBounds`), up to the tolerances that the checks have: values are rounded with one, so
that a quantity may be rounded up to a multiple of the step that it all but reaches.

Every plan under the rules of an instrument does so just when `floorToStep` counts the step as
itself, and the tick as a whole number of ticks (`plan_within_bounds_iff`). It takes the scale
of a step from its text, and miscounts a step such as `2.5e-7`.
-/

namespace IntradayBot.Node

namespace LiveSizer

variable {payload plan : Json} {truth : Truth} {config : Config} {nowSeconds : ℕ}

/-- A number that is a multiple of the step. -/
def IsMultiple (step q : ℚ) : Prop := ∃ n : ℤ, q = n * step

/-- The quantity of a plan keeps to the risk, the margin and the limits of the instrument, and
    is the largest one that does. -/
structure QtyBounds (truth : Truth) (x : Plan) : Prop where
  positive : 0 < x.sizing.qty
  multiple : IsMultiple x.sizing.qtyStep x.sizing.qty
  min : x.sizing.minOrderQty ≤ x.sizing.qty + 1 / 10 ^ 12
  min_multiple : 1 / 10 ^ 12 < x.sizing.qtyStep →
    IsMultiple x.sizing.qtyStep x.sizing.minOrderQty → x.sizing.minOrderQty ≤ x.sizing.qty
  max : ∀ m : ℚ, x.rules.maxOrderQty = m → x.sizing.qty ≤ m + 1 / 10 ^ 9
  max_multiple : ∀ m : ℚ, x.rules.maxOrderQty = m → IsMultiple x.sizing.qtyStep m →
    x.sizing.qty ≤ m
  risk : x.sizing.qty * |x.mark - x.technical.technicalStopLoss| ≤
    x.equity / 100 + Max.max (1 / 10 ^ 8) (x.equity / 100 / 10 ^ 9)
  margin : x.sizing.qty * x.mark / x.leverage ≤ x.remaining truth + 1 / 10 ^ 8
  leverage : 0 < x.leverage ∧ x.leverage ≤ 10
  /-- One step more is too much. -/
  maximal : x.equity / 100 <
        (x.sizing.qty + x.sizing.qtyStep) * |x.mark - x.technical.technicalStopLoss| ∨
      x.remaining truth < (x.sizing.qty + x.sizing.qtyStep) * x.mark / x.leverage ∨
      ∃ m : ℚ, x.rules.maxOrderQty = m ∧ m < x.sizing.qty + x.sizing.qtyStep

/-- The stop and the target of a plan are prices of the instrument, on their sides of the
    mark. -/
structure PriceBounds (payload : Json) (truth : Truth) (config : Config) (x : Plan) : Prop where
  stop : if Json.isText "Buy" (payload.get "side") then x.technical.technicalStopLoss < x.mark
    else x.mark < x.technical.technicalStopLoss
  take : if Json.isText "Buy" (payload.get "side") then x.mark < x.technical.takeProfitReference
    else x.technical.takeProfitReference < x.mark
  ticks : ∀ t ∈ tickOf truth, 0 < t →
    IsMultiple t x.technical.technicalStopLoss ∧ IsMultiple t x.technical.takeProfitReference
  reward : config.minimumGrossRr ≤ |x.technical.takeProfitReference - x.mark| /
    |x.mark - x.technical.technicalStopLoss| + 1 / 10 ^ 9
  reward_onTick : OnTick (tickOf truth) x.mark →
    config.minimumGrossRr ≤ |x.technical.takeProfitReference - x.mark| /
      |x.mark - x.technical.technicalStopLoss|

/-- A rounded quantity is the largest one allowed, where the step is counted as itself. -/
theorem qtyBounds {x : Plan} (h : Made payload truth config nowSeconds x)
    (hc : counted x.sizing.qtyStep = x.sizing.qtyStep) : QtyBounds truth x := by
  obtain ⟨-, hdistance, hpos, -⟩ := technicalPlan_eq_ok h.technical
  obtain ⟨hlev, hlev10⟩ := planLeverage_eq_ok h.leverage
  have hs := sizePlan_eq_ok h.sizing
  have hstep := h.step_pos
  have hqty := hs.qty
  have hrisk := hs.risk
  rw [hdistance] at hqty hrisk hpos
  set unrounded := unroundedQty (x.equity / 100 / |x.mark - x.technical.technicalStopLoss|)
    x.available x.mark x.leverage (truth.pendingReservedMargin.getD 0) x.rules with hunrounded
  have hunrounded0 : 0 < unrounded := (pos_of_floorToStep (hqty ▸ hs.qty_pos)).2
  have hmax : ∀ m : ℚ, x.rules.maxOrderQty = m → unrounded ≤ m := by
    intro m hm
    rw [hunrounded, unroundedQty, hm, WithTop.untopD_coe]
    exact (min_le_left _ _).trans (min_le_right _ _)
  obtain ⟨n, -, hn, hle, hlt⟩ := floorToStep_spec hstep hunrounded0
  rw [hc] at hn hle hlt
  have hqtyn : x.sizing.qty = n * x.sizing.qtyStep := hqty.trans hn
  refine ⟨hs.qty_pos, ⟨n, hqtyn⟩, hs.min_le, fun htiny hmul => ?_, fun m hm => ?_,
    fun m hm hmul => ?_, hrisk, hs.margin, ⟨hlev, hlev10⟩, ?_⟩
  · obtain ⟨k, hk⟩ := hmul
    have hminQty := hs.min_le
    rw [hqtyn, hk] at hminQty
    have hkn : k < n + 1 := by
      have hkn : (k : ℚ) * x.sizing.qtyStep < (n + 1) * x.sizing.qtyStep := by linarith
      exact_mod_cast lt_of_mul_lt_mul_right hkn hstep.le
    rw [hqtyn, hk]
    exact mul_le_mul_of_nonneg_right (by exact_mod_cast Int.lt_add_one_iff.1 hkn) hstep.le
  · rw [hqty]
    exact (floorToStep_le (hqty ▸ hs.qty_pos)).trans (by linarith [hmax m hm])
  · obtain ⟨k, rfl⟩ := hmul
    have hle : n * counted x.sizing.qtyStep ≤
        k * counted x.sizing.qtyStep + 1 / 10 ^ 9 / scale x.sizing.qtyStep := by
      rw [hc]
      linarith [hmax _ hm]
    have hnk : n ≤ k := mul_counted_le hle
    rw [hqtyn]
    exact mul_le_mul_of_nonneg_right (by exact_mod_cast hnk) hstep.le
  · -- the next multiple is beyond the value, hence beyond one of its three bounds
    have hlt : unrounded < x.sizing.qty + x.sizing.qtyStep := by
      rw [hqtyn]
      linarith
    have hmark := h.mark_pos
    have hremaining : x.remaining truth * x.leverage / x.mark < x.sizing.qty + x.sizing.qtyStep →
        x.remaining truth < (x.sizing.qty + x.sizing.qtyStep) * x.mark / x.leverage := by
      rw [div_lt_iff₀ hmark, lt_div_iff₀ hlev]
      exact id
    rw [hunrounded, unroundedQty, min_lt_iff] at hlt
    rcases hlt with hlt | hlt
    · rcases eq_or_ne x.rules.maxOrderQty ⊤ with hm | hm
      · rw [hm, WithTop.untopD_top, min_self, div_lt_iff₀ hpos] at hlt
        exact .inl hlt
      · obtain ⟨m, hm⟩ := WithTop.ne_top_iff_exists.1 hm
        rw [← hm, WithTop.untopD_coe, min_lt_iff, div_lt_iff₀ hpos] at hlt
        exact hlt.imp_right fun hlt => .inr ⟨m, hm.symm, hlt⟩
    · exact .inr (.inl (hremaining hlt))

theorem priceBounds {x : Plan} (h : Made payload truth config nowSeconds x)
    (ht : TickCounted (tickOf truth)) : PriceBounds payload truth config x := by
  obtain ⟨-, hdistance, hpos, hreward⟩ := technicalPlan_eq_ok h.technical
  rw [hdistance] at hreward hpos
  have hmark := h.mark_pos
  -- a multiple of what the tick is counted as is one of the tick
  have hmultiple : ∀ {t price : ℚ}, t ∈ tickOf truth → 0 < t →
      (∃ k : ℤ, price = k * counted t) → IsMultiple t price := by
    rintro t price hmem ht0 ⟨k, rfl⟩
    obtain ⟨n, hn⟩ := ht t hmem ht0
    exact ⟨k * n, by rw [hn]; push_cast; ring⟩
  rcases h.sides with
    ⟨hbuy, hstop0, hstop, hfloor, htake⟩ | ⟨hsell, hstop, htake0, hceil, htake⟩
  · -- A long trade: the stop is floored, the target is rounded up.
    refine ⟨by rwa [hbuy, if_pos rfl], ?_, fun t hmem ht0 => ?_,
      by rwa [config.minimumGrossRr_eq], fun hon => ?_⟩
    · rw [hbuy, if_pos rfl]
      exact lt_take_of_buy hmark hstop hfloor htake hreward
    · have hp := positiveTick_eq hmem ht0
      obtain ⟨low, hlow⟩ := hfloor
      rw [floorPrice_eq, hp, Option.elim_some] at hlow
      rw [ceilPrice_eq, hp, Option.elim_some] at htake
      exact ⟨hmultiple hmem ht0 (hlow ▸ exists_floorToStep ht0 low),
        hmultiple hmem ht0 (htake ▸ exists_ceilToStep ht0 (ht t hmem ht0) _)⟩
    · rw [take_of_buy hmark hstop hon hfloor] at htake
      have hdist : 0 < x.mark - x.technical.technicalStopLoss := by linarith
      rw [htake, add_sub_cancel_left, abs_of_pos hdist, abs_of_pos (by linarith),
        config.minimumGrossRr_eq, le_div_iff₀ hdist]
      linarith
  · -- A short trade is its mirror image.
    refine ⟨by simpa [hsell] using hstop, ?_, fun t hmem ht0 => ?_,
      by rwa [config.minimumGrossRr_eq], fun hon => ?_⟩
    · simpa [hsell] using take_lt_of_sell ht hstop htake0 hceil htake hreward
    · have hp := positiveTick_eq hmem ht0
      obtain ⟨high, hhigh⟩ := hceil
      rw [ceilPrice_eq, hp, Option.elim_some] at hhigh
      rw [floorPrice_eq, hp, Option.elim_some] at htake
      exact ⟨hmultiple hmem ht0 (hhigh ▸ exists_ceilToStep ht0 (ht t hmem ht0) high),
        hmultiple hmem ht0 (htake ▸ exists_floorToStep ht0 _)⟩
    · rw [htake] at htake0
      rw [take_of_sell ht hon htake0 hceil] at htake
      have hdist : 0 < x.technical.technicalStopLoss - x.mark := by linarith
      rw [htake, sub_sub_cancel_left, abs_neg, abs_sub_comm x.mark, abs_of_pos hdist,
        abs_of_pos (by linarith), config.minimumGrossRr_eq, le_div_iff₀ hdist]
      linarith

/-! ## Every plan of an instrument -/

/-- An instrument that only limits the step and the least of a quantity. -/
def tickedInstrument (qtyStep tickSize : Field) (minOrderQty : ℚ) : InstrumentRow where
  status := some (.str "Trading")
  tickSize := tickSize
  qtyStep := qtyStep
  minOrderQty := some (.num minOrderQty)
  maxMktOrderQty := none
  maxMarketOrderQty := none
  maxOrderQty := none
  minNotionalValue := none
  maxLeverage := none

/-- An account that buys the quantity `quantity` at twice the price `price`, with its stop
    there. -/
def tickedTruth (qtyStep tickSize : Field) (price quantity minOrderQty : ℚ) : Truth where
  wallet := [⟨some (.num (100 * quantity * price)), some (.num (2 * price * quantity))⟩]
  instrument := [tickedInstrument qtyStep tickSize minOrderQty]
  ticker := [⟨some (.num (2 * price)), none⟩]
  positions := []
  activeOrders := []
  kline15m := [1, 2, 3].map fun time => ⟨some (.num time), some (.num price), some (.num price)⟩
  pendingReservedMargin := none
  orderLinkId := .entry "BTCUSDT"

/-- The candidate of such a trade. -/
def tickedPayload (price : ℚ) : Json := .obj
  [("symbol", .str "BTCUSDT"), ("side", .str "Buy"), ("createdAt", .num 1000),
    ("entryReference", .num (2 * price))]

/-- The settings with the shortest structure. -/
def tickedConfig : Config := loadConfig "node" none none none (some 3)

section

variable {qtyStep tickSize : Field} {price quantity minOrderQty step : ℚ}

theorem technicalPlan_ticked (hprice : 0 < price) (htick : Json.isInfinity tickSize = false)
    (hstop : floorPrice price (Json.numberOrZero tickSize) = price)
    (htake : ceilPrice (4 * price) (Json.numberOrZero tickSize) = 4 * price) :
    technicalPlan (tickedPayload price) (tickedTruth qtyStep tickSize price quantity minOrderQty)
      tickedConfig (2 * price) (1000 * 1000) = .ok {
        technicalStopLoss := price
        takeProfitReference := 4 * price
        stopDistance := price
        grossRr := 2
        structureLookback := 3
        latestClosed15mCandleTime := 3 } := by
  have hcandles : normalizeClosedFifteenMinuteCandles
      (tickedTruth qtyStep tickSize price quantity minOrderQty).kline15m (1000 * 1000) =
        [⟨1, price, price⟩, ⟨2, price, price⟩, ⟨3, price, price⟩] := by
    norm_num [normalizeClosedFifteenMinuteCandles, tickedTruth, closedCandle, Json.toNumber, hprice,
      List.insertionSort, List.orderedInsert, List.filterMap]
  have hlookback : tickedConfig.structureLookback = 3 := by decide +kernel
  have hbuy : Json.isText "Buy" ((tickedPayload price).get "side") = true := rfl
  have htickSize : ((tickedTruth qtyStep tickSize price quantity minOrderQty).instrument.head?.bind
    InstrumentRow.tickSize) = tickSize := rfl
  have hprices : structuralPrices tickedConfig true [⟨1, price, price⟩, ⟨2, price, price⟩,
      ⟨3, price, price⟩] tickSize (2 * price) = .ok (price, 4 * price) := by
    have hvalue : 2 * price + (2 * price - price) * 2 = 4 * price := by ring
    have hlt : price < 2 * price := by linarith
    simp [structuralPrices, htick, tickedConfig.minimumGrossRr_eq, hstop, hvalue, htake, await,
      hprice, hlt]
  have hdistance : |2 * price - price| = price := by
    rw [show 2 * price - price = price by ring, abs_of_pos hprice]
  have hreward : |4 * price - 2 * price| / price = 2 := by
    rw [show 4 * price - 2 * price = 2 * price by ring, abs_of_pos (by linarith),
      mul_div_cancel_right₀ _ hprice.ne']
  unfold technicalPlan
  simp only [hcandles, hlookback, htickSize, hbuy, List.length_cons, List.length_nil, max_eq_right,
    Nat.one_le_ofNat, tickedConfig.minimumGrossRr_eq]
  refine bind_eq_ok.2 ⟨(), await_eq_ok.2 (by norm_num), bind_eq_ok.2 ⟨_, hprices,
    bind_eq_ok.2 ⟨(), await_eq_ok.2 ?_, ?_⟩⟩⟩
  · rw [hdistance, hreward]
    exact ⟨hprice, by norm_num⟩
  · simp only [hdistance, hreward]
    rfl

/-- The limits of such an instrument. -/
theorem quantityRules_ticked (hstep : Json.limitOrZero qtyStep = some (step : WithTop ℚ))
    (hstep0 : 0 < step) (hmin : 0 < minOrderQty) :
    quantityRules (tickedInstrument qtyStep tickSize minOrderQty) = .ok {
      qtyStep := step
      minOrderQty := minOrderQty
      maxOrderQty := ⊤
      minNotionalValue := some (0 : ℚ) } := by
  have hminField : Json.limitOrZero (some (.num minOrderQty)) = some (minOrderQty : WithTop ℚ) := by
    simp [Json.limitOrZero, Json.orElse, Json.truthy, hmin.ne', Json.toLimit, Json.isInfinity,
      Json.toNumber]
  have hnotional : Json.limitOrZero none = some ((0 : ℚ) : WithTop ℚ) := rfl
  simp only [quantityRules, tickedInstrument, hstep, hminField, hnotional]
  refine bind_eq_ok.2 ⟨(), await_eq_ok.2 ⟨WithTop.coe_pos.2 hstep0, WithTop.coe_pos.2 hmin, ?_⟩, rfl⟩
  exact WithTop.coe_lt_top 0

theorem sizePlan_ticked (hprice : 0 < price) (hqty : 0 < floorToStep quantity step)
    (hle : floorToStep quantity step ≤ quantity) (hmin : minOrderQty ≤ floorToStep quantity step)
    {rules : QuantityRules}
    (hrules : rules = {
      qtyStep := step
      minOrderQty := minOrderQty
      maxOrderQty := ⊤
      minNotionalValue := some (0 : ℚ) }) :
    ∃ sizing, sizePlan (100 * quantity * price / 100) (100 * quantity * price / 100 / price)
        (2 * price * quantity) (2 * price) price 10 0 rules = .ok sizing ∧
      sizing.minOrderQty = minOrderQty ∧ sizing.qty = floorToStep quantity step ∧ sizing.qtyStep = step := by
  have hquantity : 0 < quantity := hqty.trans_le hle
  have hunrounded : min (min (100 * quantity * price / 100 / price)
      (WithTop.untopD (100 * quantity * price / 100 / price) (⊤ : WithTop ℚ)))
      (max 0 (2 * price * quantity - 0) * 10 / (2 * price)) = quantity := by
    have hraw : 100 * quantity * price / 100 / price = quantity := by
      field_simp
    have hcap : max 0 (2 * price * quantity - 0) * 10 / (2 * price) = 10 * quantity := by
      rw [sub_zero, max_eq_right (by positivity)]
      field_simp
    rw [WithTop.untopD_top, min_self, hraw, hcap, min_eq_left (by linarith)]
  subst hrules
  unfold sizePlan
  simp only [hunrounded]
  refine ⟨_, bind_eq_ok.2 ⟨(), await_eq_ok.2 le_rfl, bind_eq_ok.2 ⟨(step, minOrderQty),
    rfl, bind_eq_ok.2 ⟨(), await_eq_ok.2 ⟨hqty, by linarith⟩, bind_eq_ok.2 ⟨(), await_eq_ok.2 rfl,
    bind_eq_ok.2 ⟨(), await_eq_ok.2 ?_, bind_eq_ok.2 ⟨(), await_eq_ok.2 ?_, rfl⟩⟩⟩⟩⟩⟩, rfl, rfl, rfl⟩
  · have hrisk : floorToStep quantity step * price ≤ quantity * price :=
      mul_le_mul_of_nonneg_right hle hprice.le
    have := le_max_left (1 / 10 ^ 8 : ℚ) (100 * quantity * price / 100 / 10 ^ 9)
    linarith
  · have hmargin : floorToStep quantity step * (2 * price) ≤ quantity * (2 * price) :=
      mul_le_mul_of_nonneg_right hle (by linarith)
    have := mul_pos hquantity hprice
    have := le_max_right 0 (2 * price * quantity - 0)
    linarith

/-- The plan buys the quantity, rounded, at twice the price. -/
structure Fits (truth : Truth) (x : Plan) (quantity price step : ℚ) : Prop where
  stop : x.technical.technicalStopLoss = price
  qtyStep : x.sizing.qtyStep = step
  qty : x.sizing.qty = floorToStep quantity step
  equity : x.equity = 100 * quantity * price
  mark : x.mark = 2 * price
  leverage : x.leverage = 10
  remaining : x.remaining truth = max 0 (2 * price * quantity - 0)
  unlimited : x.rules.maxOrderQty = ⊤

/-- Under such rules, a quantity that is rounded down to a positive one is sized to that. -/
theorem plan_ticked (hprice : 0 < price) (htick : Json.isInfinity tickSize = false)
    (hstop : floorPrice price (Json.numberOrZero tickSize) = price)
    (htake : ceilPrice (4 * price) (Json.numberOrZero tickSize) = 4 * price)
    (hstep : Json.limitOrZero qtyStep = some (step : WithTop ℚ)) (hstep0 : 0 < step)
    (hmin0 : 0 < minOrderQty) (hmin : minOrderQty ≤ floorToStep quantity step)
    (hle : floorToStep quantity step ≤ quantity) :
    ∃ plan x, buildLiveExecutionPlan (tickedPayload price)
        (tickedTruth qtyStep tickSize price quantity minOrderQty) tickedConfig 1000 = .ok plan ∧
      Made (tickedPayload price) (tickedTruth qtyStep tickSize price quantity minOrderQty)
        tickedConfig 1000 x ∧
      x.instrument = tickedInstrument qtyStep tickSize minOrderQty ∧
      x.sizing.minOrderQty = minOrderQty ∧
      Fits (tickedTruth qtyStep tickSize price quantity minOrderQty) x quantity price step := by
  have hqty : 0 < floorToStep quantity step := hmin0.trans_le hmin
  have hquantity : 0 < quantity := hqty.trans_le hle
  obtain ⟨sizing, hsizing, hminEq, hqtyEq, hstepEq⟩ := sizePlan_ticked hprice hqty hle hmin rfl
  have hmark : Json.toNumber (Json.orElse (some (.num (2 * price))) none) = some (2 * price) := by
    simp [Json.orElse, Json.truthy, hprice.ne', Json.toNumber]
  have hreference : Json.toNumber ((tickedPayload price).get "entryReference") = some (2 * price) := rfl
  have hcreated : candidateCreatedSeconds (tickedPayload price) = 1000 := by
    change candidateCreatedSeconds (tickedPayload 1) = 1000
    decide +kernel
  have hmade : Made (tickedPayload price)
      (tickedTruth qtyStep tickSize price quantity minOrderQty) tickedConfig 1000
      ⟨_, 100 * quantity * price, 2 * price * quantity, 2 * price, 2 * price, _, _, 10, sizing⟩ := {
    instrument := rfl
    wallet := ⟨_, rfl, rfl, rfl⟩
    ticker := ⟨_, rfl, hmark⟩
    reference := hreference
    equity_pos := by positivity
    available_nonneg := by positivity
    mark_pos := by positivity
    reference_pos := by positivity
    created := by rw [hcreated]; norm_num
    fresh := by rw [hcreated]; decide +kernel
    drift := by
      have := tickedConfig.maxEntryDriftPct_pos
      rw [sub_self, abs_zero, zero_div, zero_mul]
      positivity
    technical := technicalPlan_ticked hprice htick hstop htake
    rules := quantityRules_ticked hstep hstep0 hmin0
    leverage := rfl
    sizing := hsizing }
  exact ⟨_, _, hmade.returned rfl (by rw [hcreated]; norm_num) rfl, hmade, rfl,
    hminEq, ⟨rfl, hstepEq, hqtyEq, rfl, rfl, rfl, rfl, rfl⟩⟩

/-- Where a step is left in the quantity before it was rounded, one step more is not too much. -/
theorem Fits.not_maximal {truth : Truth} {x : Plan} (h : Fits truth x (quantity + step) price step)
    (hprice : 0 < price) (hquantity : 0 < quantity + step)
    (hfloor : floorToStep (quantity + step) step = quantity) :
    ¬(x.equity / 100 <
        (x.sizing.qty + x.sizing.qtyStep) * |x.mark - x.technical.technicalStopLoss| ∨
      x.remaining truth < (x.sizing.qty + x.sizing.qtyStep) * x.mark / x.leverage ∨
      ∃ m : ℚ, x.rules.maxOrderQty = m ∧ m < x.sizing.qty + x.sizing.qtyStep) := by
  have hpos := mul_pos hquantity hprice
  rw [h.qty, hfloor, h.qtyStep, h.equity, h.mark, h.stop, h.leverage, h.remaining, h.unlimited,
    show 2 * price - price = price by ring, abs_of_pos hprice]
  rintro (hlt | hlt | ⟨m, hm, -⟩)
  · linarith
  · have := le_max_right 0 (2 * price * (quantity + step) - 0)
    linarith
  · exact WithTop.top_ne_coe hm

end

/-- A price that is not rounded, nor is four times it: the tick as it is counted. -/
def tickPrice (tick : Option ℚ) : ℚ := (positiveTick tick).elim 1 counted

theorem tickPrice_pos (tick : Option ℚ) : 0 < tickPrice tick := by
  unfold tickPrice
  rcases positiveTick tick with _ | t
  · exact one_pos
  · exact counted_pos t

theorem floorPrice_tickPrice (tick : Option ℚ) : floorPrice (tickPrice tick) tick = tickPrice tick := by
  rw [floorPrice_eq, tickPrice]
  rcases hp : positiveTick tick with _ | t
  · rfl
  · have := floorToStep_mul (positiveTick_pos hp) (m := 1) (by simpa using counted_pos t)
    simpa using this

theorem ceilPrice_tickPrice (tick : Option ℚ) :
    ceilPrice (4 * tickPrice tick) tick = 4 * tickPrice tick := by
  rw [ceilPrice_eq, tickPrice]
  rcases hp : positiveTick tick with _ | t
  · rfl
  · have hpos := counted_pos t
    have := floorToStep_mul (positiveTick_pos hp) (m := 4) (by push_cast; linarith)
    push_cast at this
    rw [Option.elim_some, Option.elim_some, ceilToStep, this, if_pos (by linarith)]

/-- The step as it is counted is not rounded, and neither is half a step more rounded up. -/
theorem floorToStep_counted {step : ℚ} (hs : 0 < step) :
    floorToStep (counted step) step = counted step := by
  simpa using floorToStep_mul hs (m := 1) (by simpa using counted_pos step)

theorem floorToStep_counted_add {step : ℚ} (hs : 0 < step) (h : 2 * step ≤ counted step) :
    floorToStep (counted step + step) step = counted step := by
  have hpos := counted_pos step
  obtain ⟨n, -, heq, hle, hlt⟩ := floorToStep_spec hs (show 0 < counted step + step by linarith)
  have hsmall : 1 / 10 ^ 9 / scale step ≤ 1 / 10 ^ 9 * counted step := by
    rw [div_eq_mul_one_div]
    exact mul_le_mul_of_nonneg_left (unit_le_counted step) (by norm_num)
  have hlow : (0 : ℚ) < n := by
    have : counted step < (n + 1) * counted step := by linarith
    have := (lt_mul_iff_one_lt_left hpos).1 this
    linarith
  have hhigh : (n : ℚ) < 2 := by
    refine lt_of_mul_lt_mul_right ?_ hpos.le
    norm_num at hsmall
    linarith
  have hn : n = 1 := by
    have hlow : 0 < n := by exact_mod_cast hlow
    have hhigh : n < 2 := by exact_mod_cast hhigh
    omega
  rw [heq, hn, Int.cast_one, one_mul]

/-- The instrument has the step `qtyStep` and the tick `tickSize`. -/
def Ruled (qtyStep tickSize : Field) (truth : Truth) : Prop :=
  ∃ instrument, truth.instrument.head? = some instrument ∧ instrument.qtyStep = qtyStep ∧
    instrument.tickSize = tickSize

/-- Every plan of an instrument keeps to the bounds just when its step is counted as itself,
    and its tick as a whole number of ticks. -/
theorem plan_within_bounds_iff {qtyStep tickSize : Field} {step : ℚ}
    (hstep : Json.limitOrZero qtyStep = some (step : WithTop ℚ)) (hstep0 : 0 < step)
    (htick : Json.isInfinity tickSize = false) :
    (∀ payload truth config nowSeconds plan, Ruled qtyStep tickSize truth →
      buildLiveExecutionPlan payload truth config nowSeconds = .ok plan →
      ∃ x, Made payload truth config nowSeconds x ∧ Returned plan x ∧ QtyBounds truth x ∧
        PriceBounds payload truth config x) ↔
    counted step = step ∧ TickCounted (Json.numberOrZero tickSize) := by
  constructor
  · intro hall
    set tick := Json.numberOrZero tickSize
    have hprice := tickPrice_pos tick
    -- a plan that buys the quantity, rounded, at twice the price
    have hplan : ∀ quantity, 0 < floorToStep quantity step → floorToStep quantity step ≤ quantity →
        ∃ truth x, Made (tickedPayload (tickPrice tick)) truth tickedConfig 1000 x ∧
          QtyBounds truth x ∧ PriceBounds (tickedPayload (tickPrice tick)) truth tickedConfig x ∧
          tickOf truth = tick ∧ Fits truth x quantity (tickPrice tick) step := by
      intro quantity hqty hle
      obtain ⟨plan, x, hplan, hx, -, -, hfits⟩ := plan_ticked hprice htick
        (floorPrice_tickPrice tick) (ceilPrice_tickPrice tick) hstep hstep0 hqty le_rfl hle
      obtain ⟨y, hy, -, hbounds, hprices⟩ := hall _ _ _ _ _ ⟨_, rfl, rfl, rfl⟩ hplan
      obtain rfl := hx.unique hy
      exact ⟨_, x, hx, hbounds, hprices, rfl, hfits⟩
    have hcounted0 := counted_pos step
    obtain ⟨truth, x, -, hbounds, hprices, htickOf, hfits⟩ := hplan (counted step)
      (by rwa [floorToStep_counted hstep0]) (floorToStep_counted hstep0).le
    refine ⟨?_, fun t hmem ht0 => ?_⟩
    · obtain ⟨n, hn⟩ := hbounds.multiple
      rw [hfits.qtyStep, hfits.qty, floorToStep_counted hstep0] at hn
      by_contra hne
      -- the step is counted as two steps at least, and one more could be bought
      have hn0 : (0 : ℚ) < n := pos_of_mul_pos_left (hn ▸ hcounted0) hstep0.le
      have hn2 : (2 : ℚ) ≤ n := by
        have hn0 : 0 < n := by exact_mod_cast hn0
        have hn1 : n ≠ 1 := fun h => hne (by rw [hn, h]; norm_num)
        exact_mod_cast (show 2 ≤ n by omega)
      have htwice : 2 * step ≤ counted step := by
        rw [hn]
        exact mul_le_mul_of_nonneg_right hn2 hstep0.le
      have hfloor := floorToStep_counted_add hstep0 htwice
      obtain ⟨truth', x', -, hbounds', -, -, hfits'⟩ := hplan (counted step + step)
        (by rwa [hfloor]) (by rw [hfloor]; linarith)
      exact hfits'.not_maximal hprice (by linarith) hfloor hbounds'.maximal
    · have hmultiple := (hprices.ticks t (htickOf ▸ hmem) ht0).1
      rw [hfits.stop, tickPrice, positiveTick_eq hmem ht0] at hmultiple
      exact hmultiple
  · rintro ⟨hcounted, hticks⟩ payload truth config nowSeconds plan
      ⟨instrument, hinstrument, rfl, rfl⟩ hplan
    obtain ⟨x, hx, rfl⟩ := buildLiveExecutionPlan_eq_ok hplan
    obtain rfl := Option.some.inj (hinstrument.symm.trans hx.instrument)
    have hstepEq : x.sizing.qtyStep = step := by
      have hrules := (quantityRules_eq_ok hx.rules).1
      rw [hstep, (sizePlan_eq_ok hx.sizing).step] at hrules
      exact (WithTop.coe_injective (Option.some.inj hrules)).symm
    refine ⟨x, hx, sized_returned x, qtyBounds hx (by rw [hstepEq, hcounted]), priceBounds hx ?_⟩
    rwa [tickOf, hinstrument]

theorem plan_within_bounds_iff_hundred :
    ∃ plan, buildLiveExecutionPlan examplePayload
        (exampleTruth "100" "0.01" "0.001" "0.001" (some (.str "50"))) tickedConfig 1000 = .ok plan ∧
      ∃ x, Made examplePayload (exampleTruth "100" "0.01" "0.001" "0.001" (some (.str "50")))
          tickedConfig 1000 x ∧ Returned plan x ∧
        QtyBounds (exampleTruth "100" "0.01" "0.001" "0.001" (some (.str "50"))) x ∧
        PriceBounds examplePayload (exampleTruth "100" "0.01" "0.001" "0.001" (some (.str "50")))
          tickedConfig x := by
  have hok : (buildLiveExecutionPlan examplePayload
      (exampleTruth "100" "0.01" "0.001" "0.001" (some (.str "50"))) tickedConfig 1000).isOk = true := by
    decide +kernel
  have hstep : Json.limitOrZero (some (.str "0.001")) = some ((1 / 1000 : ℚ) : WithTop ℚ) :=
    Json.toLimit_of_toNumber (by decide +kernel) (by decide +kernel)
  have htick : Json.numberOrZero (some (.str "0.01")) = some (1 / 100) := by decide +kernel
  have hfinite : Json.isInfinity (some (.str "0.01")) = false := by decide +kernel
  rcases hplan : buildLiveExecutionPlan examplePayload
      (exampleTruth "100" "0.01" "0.001" "0.001" (some (.str "50"))) tickedConfig 1000 with e | plan
  · simp [hplan, Except.isOk, Except.toBool] at hok
  · refine ⟨plan, rfl, (plan_within_bounds_iff hstep (by norm_num) hfinite).2
      ⟨?_, fun t ht _ => ⟨1, ?_⟩⟩ _ _ _ _ _ ⟨_, rfl, rfl, rfl⟩ hplan⟩
    · exact counted_of_decimals (by norm_num) (by norm_num) (by decide +kernel)
    · obtain rfl := Option.some.inj (htick.symm.trans ht)
      rw [Int.cast_one, one_mul]
      exact counted_of_decimals (by norm_num) (by norm_num) (by decide +kernel)

/-! ## Where a plan misses the bounds -/

/-- A number of the plan of the example. -/
def planned (truth : Truth) (key : String) : Option ℚ :=
  (buildLiveExecutionPlan examplePayload truth tickedConfig 1000).toOption.bind fun plan =>
    Json.toNumber (plan.get key)

/-- A limit of the instrument of the example. -/
def limit (truth : Truth) (field : InstrumentRow → Field) : Option ℚ :=
  truth.instrument.head?.bind fun row => Json.toNumber (field row)

/-- A quantity of no step, since the step is counted as `3e-7`; and within the tolerances, a
    quantity beyond the maximum, one below the minimum, less than two to one, and a quantity
    that one more step would leave there. -/
theorem plan_beyond_bounds :
    (∃ q step, planned (exampleTruth "100" "0.01" "0.00000025" "0.00000025" none) "qty" = some q ∧
      limit (exampleTruth "100" "0.01" "0.00000025" "0.00000025" none) InstrumentRow.qtyStep =
        some step ∧ ¬ IsMultiple step q) ∧
    (∃ q m, planned (exampleTruth "100" "0.01" "1" "1" (some (.str "2.9999999999"))) "qty" = some q ∧
      limit (exampleTruth "100" "0.01" "1" "1" (some (.str "2.9999999999")))
        InstrumentRow.maxMktOrderQty = some m ∧ m < q) ∧
    (∃ q m, planned (exampleTruth "100" "0.01" "1" "3.0000000000005" (some (.str "3"))) "qty" =
        some q ∧
      limit (exampleTruth "100" "0.01" "1" "3.0000000000005" (some (.str "3")))
        InstrumentRow.minOrderQty = some m ∧ q < m) ∧
    (∃ mark stop take,
      planned (exampleTruth "100.0000000000003" "0.01" "1" "1" none) "executableMarkPrice" =
        some mark ∧
      planned (exampleTruth "100.0000000000003" "0.01" "1" "1" none) "technicalStopLoss" =
        some stop ∧
      planned (exampleTruth "100.0000000000003" "0.01" "1" "1" none) "takeProfitReference" =
        some take ∧
      |take - mark| / |mark - stop| < 2) ∧
    (∃ q, planned (exampleTruth "100" "0.01" "0.0000000001" "1" none) "qty" = some q ∧
      (q + 1 / 10 ^ 10) * |100 - 99| ≤ 10 + max (1 / 10 ^ 8) (10 / 10 ^ 9) ∧
      (q + 1 / 10 ^ 10) * 100 / 10 ≤ 1000 + 1 / 10 ^ 8) := by
  refine ⟨⟨99999999 / 10 ^ 7, 25 / 10 ^ 8, by decide +kernel, by decide +kernel, ?_⟩,
    ⟨3, 29999999999 / 10 ^ 10, by decide +kernel, by decide +kernel, by norm_num⟩,
    ⟨3, 30000000000005 / 10 ^ 13, by decide +kernel, by decide +kernel, by norm_num⟩,
    ⟨1000000000000003 / 10 ^ 13, 99, 102, by decide +kernel, by decide +kernel, by decide +kernel,
      by norm_num [abs_of_pos, abs_of_neg]⟩,
    ⟨10, by decide +kernel, by norm_num, by norm_num⟩⟩
  -- two fifths of a step are left
  rintro ⟨n, hn⟩
  have hn : ((199999998 : ℤ) : ℚ) = (5 * n : ℤ) := by
    push_cast
    linarith
  have : (199999998 : ℤ) = 5 * n := by exact_mod_cast hn
  omega

end LiveSizer

end IntradayBot.Node
