import IntradayBot.Replay.Gains

/-!
# Sessions of moderate size

A session is of moderate size (`Moderate`) if its account, also with what the open trade may still
gain, and the sums of its fees and profits are far below the 20 digits that there are before the
decimals. Then all that is computed at a candle has room (`Moderate.simulate`), and the account grows
by no more than a twentieth: a plan risks a hundredth of the equity, its target is twice as far away
as its stop, and a trade leaves at the latest at its target.
-/

namespace IntradayBot.Replay

open Decimal Simulation

variable {plan : Plan} {candle : Candle} {sim sim' : Sim} {trade : Trade} {initial : ℚ} {time : ℤ}
  {low high m s price : ℚ}

/-! ## Bounds -/

/-- The most that an open trade is worth. -/
def maxWorth : ℚ := 10 ^ 18

/-- The most that an entry or an exit adds to a sum. -/
def maxAmount : ℚ := 2 * 10 ^ 16

/-- The prices of the trade at its quantity are worth no more than the most. -/
structure Trade.Bounded (high : ℚ) (trade : Trade) : Prop where
  prices : ∀ price ∈ [trade.entryPrice, trade.payload.stopLoss, trade.payload.takeProfit],
    price ≤ 10 ^ 13 ∧ price * trade.quantity ≤ maxWorth
  high : high * trade.quantity ≤ maxWorth
  fees : |trade.fees| ≤ 10 ^ 16

/-- The account is no more than `m`, also with what the open trade may gain, and no sum of the
    session or of the request is more than `s`. -/
structure Moderate (high m s : ℚ) (sim : Sim) : Prop where
  balance : sim.balance ≤ m
  equity : sim.equity ≤ m
  trade : ∀ trade, sim.open_ = some trade → trade.Bounded high ∧ sim.balance + trade.gain ≤ m
  sums : ∀ sum ∈ [feesSum sim.trades, realizedSum sim.trades, sim.requestFees,
    sim.requestRealized], |sum| ≤ s

/-- The bounds that the amounts of a session have room in. -/
structure Scale (low high m s : ℚ) : Prop where
  quantum_le : MONEY_QUANTUM ≤ low
  high_le : high ≤ 10 ^ 12
  one_le : 1 ≤ m
  le : m ≤ 10 ^ 13
  mul_le : m * (1 + high) ≤ 10 ^ 16 * low
  sums_le : s ≤ 10 ^ 19

/-- The candle's prices are within the bounds. -/
structure Candle.Within (low high : ℚ) (candle : Candle) : Prop where
  low : low ≤ candle.lowPrice
  high : candle.highPrice ≤ high
  open_ : candle.lowPrice ≤ candle.openPrice ∧ candle.openPrice ≤ candle.highPrice
  close : candle.lowPrice ≤ candle.closePrice ∧ candle.closePrice ≤ candle.highPrice

instance : Decidable (candle.Within low high) :=
  decidable_of_iff (low ≤ candle.lowPrice ∧ candle.highPrice ≤ high ∧
    (candle.lowPrice ≤ candle.openPrice ∧ candle.openPrice ≤ candle.highPrice) ∧
    candle.lowPrice ≤ candle.closePrice ∧ candle.closePrice ≤ candle.highPrice)
    ⟨fun ⟨h₁, h₂, h₃, h₄⟩ => ⟨h₁, h₂, h₃, h₄⟩, fun ⟨h₁, h₂, h₃, h₄⟩ => ⟨h₁, h₂, h₃, h₄⟩⟩

/-! ## Exits -/

theorem Moderate.abs_worth_le (h : Moderate high m s sim)
    (hready : Ready .default initial time sim) (hopen : sim.open_ = some trade)
    (hprice : 0 < price) (hworth : price * trade.quantity ≤ maxWorth) :
    |price - trade.entryPrice| * |trade.quantity| ≤ maxWorth := by
  have hstored := hready.stored trade hopen
  have hq := hstored.quantity
  have hentry := ((h.trade trade hopen).1.prices trade.entryPrice (by simp)).2
  rw [abs_of_pos hq]
  rcases le_total price trade.entryPrice with hp | hp
  · rw [abs_of_nonpos (sub_nonpos.2 hp)]
    nlinarith [mul_pos hprice hq]
  · rw [abs_of_nonneg (sub_nonneg.2 hp)]
    nlinarith [mul_pos hstored.entryPrice hq]

/-- There is room for the amounts of a trade that leaves at a price of this size. -/
theorem Moderate.closable (h : Moderate high m s sim) (hscale : Scale low high m s)
    (hready : Ready .default initial time sim) (hopen : sim.open_ = some trade)
    (hprice : 0 < price ∧ price ≤ 10 ^ 13) (hworth : price * trade.quantity ≤ maxWorth) :
    Closable .default plan sim trade price := by
  obtain ⟨hbounded, -⟩ := h.trade trade hopen
  have hstored := hready.stored trade hopen
  have hq := hstored.quantity
  have hentry := (hbounded.prices trade.entryPrice (by simp)).2
  have hle := hscale.le
  have hsums := h.sums
  have hsumsLe := hscale.sums_le
  have hbalance := hready.booked.balance
  have hbalanceLe := h.balance
  obtain ⟨hfees₁, hfees₂⟩ := abs_le.1 hbounded.fees
  have hworth' := h.abs_worth_le hready hopen hprice.1 hworth
  simp only [maxWorth] at hworth hworth'
  refine ⟨room_of_lt ?_, room_of_lt ?_, room_of_lt ?_, fun gross exitFee hgross hexitFee => ?_⟩
  · rw [abs_of_pos hprice.1]
    linarith
  · exact (abs_gross_le _ _ _ _).trans_lt (by linarith)
  · exact (abs_fee_le hprice.1.le hq.le plan.config.feeBps.2).trans_lt (by linarith)
  have hgross := (abs_grossPnl_le hgross).trans (mul_le_mul_of_nonneg_left hworth' (by norm_num))
  obtain ⟨hgross₁, hgross₂⟩ := abs_le.1 hgross
  obtain ⟨hfee₁, hfee₂⟩ := fee_bounds hexitFee hprice.1.le hq.le plan.config.feeBps.2
  have happlied₁ := le_max_left (gross - exitFee) (-sim.balance)
  have happlied₂ := le_max_right (gross - exitFee) (-sim.balance)
  have happlied₃ : max (gross - exitFee) (-sim.balance) ≤ 101 / 100 * 10 ^ 18 :=
    max_le (by linarith) (by linarith)
  simp only [List.forall_mem_cons, abs_le] at hsums
  obtain ⟨⟨hs₁, hs₂⟩, ⟨hs₃, hs₄⟩, ⟨hs₅, hs₆⟩, ⟨hs₇, hs₈⟩, -⟩ := hsums
  intro amount hamount
  refine room_of_lt ?_
  simp only [closeAmounts, List.mem_cons, List.not_mem_nil, or_false] at hamount
  generalize max (gross - exitFee) (-sim.balance) = applied at *
  rcases hamount with rfl | rfl | rfl | rfl | rfl | rfl | rfl | rfl | rfl | rfl <;>
    exact abs_lt.2 ⟨by linarith, by linarith⟩

/-- Amounts that are added up on the grid, and have room, are added up exactly. -/
theorem add_exact {x y : ℚ} (hx : OnGrid moneyPlaces x) (hy : OnGrid moneyPlaces y)
    (h : |x + y| < 10 ^ 20) : Context.default.add x y = x + y :=
  Context.fit_of_room (hx.add hy) (room_of_lt h)

theorem Moderate.leave {decision : ExitDecision} {exit : ExitPayload} {closed : Trade}
    (h : Moderate high m s sim) (hscale : Scale low high m s)
    (hready : Ready .default initial time sim) (hopen : sim.open_ = some trade)
    (hprice : 0 < decision.price) (hworth : decision.price * trade.quantity ≤ maxWorth)
    (hnear : trade.Near decision.price)
    (hl : Leaves .default plan candle trade decision sim exit closed sim') :
    Moderate high m (s + maxAmount) sim' := by
  obtain ⟨hbounded, hgain⟩ := h.trade trade hopen
  have hq := (hready.stored trade hopen).quantity.le
  have hgrid := hready.booked.onGrid hopen
  have hmem := hready.booked.mem_openTrades hopen
  have hsettles := hl.closes.settles hgrid hready.booked.balance
    (hready.booked.fees _ (List.mem_filter.1 hmem).1)
  have hgross := hnear.gross_le hq hl.closes.gross
  obtain ⟨hfee₁, hfee₂⟩ := fee_bounds hl.closes.exitFee hprice.le hq plan.config.feeBps.2
  have hbalance := hready.booked.balance
  have hle := hscale.le
  have hone := hscale.one_le
  have hsumsLe := hscale.sums_le
  obtain ⟨hfees₁, hfees₂⟩ := abs_le.1 hbounded.fees
  rw [maxWorth] at hworth
  -- What the close does to the account: no more than the gain, and no less than all of it.
  have happlied := hsettles.applied
  have happlied₁ : exit.appliedBalanceDelta ≤ m - sim.balance := by
    rw [happlied]
    exact max_le (by linarith) (by linarith)
  have happlied₂ : -sim.balance ≤ exit.appliedBalanceDelta := by
    rw [happlied]
    exact le_max_right _ _
  have hrealized := hsettles.realizedPnl
  have hnew : sim'.balance = sim.balance + exit.appliedBalanceDelta :=
    Context.quantize_add hgrid hsettles.onGrid_applied (quantizeMoney_eq_ok.1 hl.balance)
  obtain ⟨hfeesSum, hrealizedSum⟩ := hl.sums_eq hopen hready.booked hsettles
  have hsums := h.sums
  simp only [List.forall_mem_cons, abs_le] at hsums
  obtain ⟨⟨hs₁, hs₂⟩, ⟨hs₃, hs₄⟩, ⟨hs₅, hs₆⟩, ⟨hs₇, hs₈⟩, -⟩ := hsums
  have hbalanceLe := h.balance
  have hrequestFees : sim'.requestFees = sim.requestFees + exit.exitFee := by
    rw [hl.requestFees, add_exact hready.requestFees.1 (onGrid_quantizeMoney hl.closes.exitFee)]
    exact abs_lt.2 ⟨by linarith, by linarith⟩
  have hrequestRealized : sim'.requestRealized = sim.requestRealized + closed.realizedPnl := by
    rw [hl.requestRealized, add_exact hready.requestRealized.1 hsettles.onGrid_realizedPnl]
    rw [hrealized]
    exact abs_lt.2 ⟨by linarith, by linarith⟩
  refine ⟨by linarith, by rw [hl.equity]; linarith, fun t ht => ?_, ?_⟩
  · rw [hl.open_] at ht
    cases ht
  · rw [hfeesSum, hrealizedSum, hrequestFees, hrequestRealized, hrealized, maxAmount]
    simp only [List.forall_mem_cons, abs_le]
    exact ⟨⟨by linarith, by linarith⟩, ⟨by linarith, by linarith⟩, ⟨by linarith, by linarith⟩,
      ⟨by linarith, by linarith⟩, List.forall_mem_nil _⟩

theorem Moderate.mono {m' s' : ℚ} (h : Moderate high m s sim) (hm : m ≤ m') (hs : s ≤ s') :
    Moderate high m' s' sim where
  balance := h.balance.trans hm
  equity := h.equity.trans hm
  trade trade ht := ⟨(h.trade trade ht).1, (h.trade trade ht).2.trans hm⟩
  sums sum hsum := (h.sums sum hsum).trans hs

/-- The price is one of a candle, or one that is stored with the open trade. -/
theorem Moderate.price_bounds (h : Moderate high m s sim) (hscale : Scale low high m s)
    (hready : Ready .default initial time sim) (hopen : sim.open_ = some trade)
    (hprice : low ≤ price ∧ price ≤ high ∨
      price ∈ [trade.payload.stopLoss, trade.payload.takeProfit]) :
    (0 < price ∧ price ≤ 10 ^ 13) ∧ price * trade.quantity ≤ maxWorth := by
  obtain ⟨hbounded, -⟩ := h.trade trade hopen
  have hstored := hready.stored trade hopen
  rcases hprice with ⟨hlow, hhigh⟩ | hmem
  · have hpos := quantum_pos.trans_le hscale.quantum_le
    have hle := hscale.high_le
    refine ⟨⟨by linarith, by linarith⟩, ?_⟩
    exact (mul_le_mul_of_nonneg_right hhigh hstored.quantity.le).trans hbounded.high
  · refine ⟨⟨?_, (hbounded.prices price (List.mem_cons_of_mem _ hmem)).1⟩,
      (hbounded.prices price (List.mem_cons_of_mem _ hmem)).2⟩
    simp only [List.mem_cons, List.not_mem_nil, or_false] at hmem
    rcases hmem with rfl | rfl
    · exact hstored.stopLoss
    · exact hstored.takeProfit

theorem Candle.Within.open_mem (h : candle.Within low high) :
    low ≤ candle.openPrice ∧ candle.openPrice ≤ high :=
  ⟨h.low.trans h.open_.1, h.open_.2.trans h.high⟩

theorem Candle.Within.close_mem (h : candle.Within low high) :
    low ≤ candle.closePrice ∧ candle.closePrice ≤ high :=
  ⟨h.low.trans h.close.1, h.close.2.trans h.high⟩

/-- The price that an exit is decided at has bounds, too. -/
theorem Moderate.exit_bounds {decision : ExitDecision} (h : Moderate high m s sim)
    (hscale : Scale low high m s) (hready : Ready .default initial time sim)
    (hopen : sim.open_ = some trade) (hwithin : candle.Within low high)
    (hdecision : exitDecision trade candle = .ok (some decision)) :
    (0 < decision.price ∧ decision.price ≤ 10 ^ 13) ∧
      decision.price * trade.quantity ≤ maxWorth := by
  refine h.price_bounds hscale hready hopen ?_
  rcases List.mem_cons.1 (exitDecision_eq_some hdecision).2 with heq | hmem
  · exact .inl (heq ▸ hwithin.open_mem)
  · exact .inr hmem

theorem Moderate.exits (h : Moderate high m s sim) (hscale : Scale low high m s)
    (hready : Ready .default initial candle.openTime sim) (hwithin : candle.Within low high)
    (hexits : Simulation.exits .default plan candle sim = .ok sim') :
    Moderate high m (s + maxAmount) sim' ∧
      ∀ trade, sim'.open_ = some trade → trade.Near candle.closePrice := by
  have hstays : Moderate high m (s + maxAmount) sim := h.mono le_rfl (by norm_num [maxAmount])
  rcases hopen : sim.open_ with _ | trade
  · rw [Simulation.exits, hopen] at hexits
    obtain rfl := pure_eq_ok.1 hexits
    exact ⟨hstays, by simp [hopen]⟩
  · rw [Simulation.exits, hopen] at hexits
    obtain ⟨decision, hdecision, hexits⟩ := bind_eq_ok.1 hexits
    rcases decision with _ | decision
    · obtain rfl := pure_eq_ok.1 hexits
      refine ⟨hstays, fun trade' hopen' => ?_⟩
      obtain rfl := Option.some.inj (hopen.symm.trans hopen')
      have hmem := hready.booked.mem_openTrades hopen
      exact exitDecision_eq_none hdecision (hready.before _ (List.mem_filter.1 hmem).1)
        hwithin.close.1 hwithin.close.2
    · obtain ⟨exit, closed, hl⟩ := leave_eq_ok hexits
      obtain ⟨hprice, hworth⟩ := h.exit_bounds hscale hready hopen hwithin hdecision
      refine ⟨h.leave hscale hready hopen hprice.1 hworth (exitDecision_eq_some hdecision).1 hl, ?_⟩
      simp [hl.open_]

/-! ## Entries -/

/-- What the strategy plans at a candle. -/
def Planned (plan : Plan) (candle : Candle) : Prop :=
  ∀ decision risk, plan.decisionAt candle.openTime = some decision → decision.risk = some risk →
    ∃ side atr, Plans candle decision.signal risk side atr

theorem Plans.spaced {signal : Signal} {risk : RiskPlan} {side : Side} {atr : ℚ}
    (h : Plans candle signal risk side atr) (hclose : candle.closePrice ≤ 10 ^ 12) :
    Spaced candle.closePrice (Context.default.mul atr (3 / 2)) risk :=
  h.leeway.spaced hclose h.stopLoss h.takeProfit

theorem Scale.le_low (h : Scale low high m s) (hwithin : candle.Within low high) :
    m ≤ 10 ^ 16 * low := by
  have hpos := quantum_pos.trans_le h.quantum_le
  have hhigh := hwithin.close_mem.1.trans hwithin.close_mem.2
  have hone := h.one_le
  have := h.mul_le
  nlinarith [mul_nonneg (zero_le_one.trans hone) (hpos.le.trans hhigh)]

/-- What is entered has a value of about ten times the account at most. -/
theorem Moderate.sizes_le {config : Config} {risk : RiskPlan} {signal : Signal} {side : Side}
    {atr quantity : ℚ} (h : Moderate high m s sim) (hscale : Scale low high m s)
    (hwithin : candle.Within low high) (hequity : 0 < sim.equity)
    (hplans : Plans candle signal risk side atr)
    (hsizes : Sizes .default config sim.equity candle risk quantity) :
    0 < quantity ∧ quantity * candle.closePrice ≤ 101 / 10 * m := by
  have hle := hwithin.close_mem.2.trans hscale.high_le
  have hpos := quantum_pos.trans_le (hscale.quantum_le.trans hwithin.close_mem.1)
  have hspaced := hplans.spaced hle
  have hquantum := quantum_pos
  have hdistance : 0 < Context.default.abs (Context.default.sub candle.closePrice risk.stopLoss) := by
    have := hspaced.quantum_le
    have := hspaced.stop
    linarith
  obtain ⟨-, hworth, hq⟩ := hsizes.bounds hequity.le hplans.riskPct hpos hdistance
  have := h.equity
  exact ⟨hq, by linarith⟩

/-- There is room for what an entry by a plan computes. -/
theorem Moderate.openable {signal : Signal} {risk : RiskPlan} {side : Side} {atr : ℚ}
    (h : Moderate high m s sim) (hscale : Scale low high m s)
    (hready : Ready .default initial time sim) (hwithin : candle.Within low high)
    (hequity : 0 < sim.equity) (hplans : Plans candle signal risk side atr) :
    Openable .default plan sim candle side risk := by
  have hle := hwithin.close_mem.2.trans hscale.high_le
  have hlow := hwithin.close_mem.1
  have hpos := quantum_pos.trans_le (hscale.quantum_le.trans hlow)
  have hspaced := hplans.spaced hle
  have hquantum : MONEY_QUANTUM = 1 / 10 ^ 8 := rfl
  have hequityLe := h.equity
  have hm := hscale.le
  have hdistance := hspaced.quantum_le
  have hstop := hspaced.stop
  have hstopLe := hspaced.stop_le
  have hprices := hspaced.prices
  rw [hquantum] at hdistance hprices
  set d := Context.default.abs (Context.default.sub candle.closePrice risk.stopLoss) with hd
  have hdpos : 1 / 10 ^ 8 ≤ d := by linarith
  have hfee : ∀ quantity, Sizes .default plan.config sim.equity candle risk quantity →
      |Context.default.div (Context.default.mul (Context.default.mul candle.closePrice quantity)
        plan.config.feeBps) 10000| ≤ 10 ^ 13 := by
    intro quantity hsizes
    obtain ⟨hq, hworth⟩ := h.sizes_le hscale hwithin hequity hplans hsizes
    have := abs_fee_le hpos.le hq.le plan.config.feeBps.2
    linarith
  have hamount := abs_riskAmount_le hequity.le hplans.riskPct
  refine ⟨?_, ?_, fun _ => ⟨?_, fun amount hquantize => ?_, ?_, fun quantity hsizes => ?_, ?_, ?_⟩⟩
  · have := (hprices risk.stopLoss (by simp)).1
    linarith
  · have := (hprices risk.takeProfit (by simp)).1
    linarith
  · exact room_of_lt (hamount.trans_lt (by linarith))
  · have habs := riskAmount_le hequity.le hplans.riskPct hquantize
    refine room_of_lt ((abs_div_le amount d).trans_lt ?_)
    have hdiv : |amount| / |d| ≤ 2 * 10 ^ 11 / (1 / 10 ^ 8) := by
      refine div_le_div₀ (by norm_num) (by linarith) (by norm_num) ?_
      rw [abs_of_pos (by linarith)]
      exact hdpos
    norm_num at hdiv ⊢
    linarith
  · have hleverage := abs_leverage_le hequity.le hpos plan.config.maxLeverage.2
    refine room_of_lt ?_
    have hlowpos : 0 < low := quantum_pos.trans_le hscale.quantum_le
    have hmlow := hscale.le_low hwithin
    have hmul := mul_le_mul_of_nonneg_left hlow (abs_nonneg (Context.default.div
      (Context.default.mul sim.equity plan.config.maxLeverage) candle.closePrice))
    refine lt_of_mul_lt_mul_right ?_ hlowpos.le
    linarith
  · exact room_of_lt ((hfee quantity hsizes).trans_lt (by norm_num))
  · intro quantity entryFee _ _ _
    rw [List.forall_mem_cons]
    refine ⟨⟨hscale.quantum_le.trans hlow, room_of_lt ?_⟩, fun price hprice => ?_⟩
    · rw [abs_of_pos hpos]
      linarith
    · obtain ⟨hge, hprice⟩ := hprices price hprice
      refine ⟨by rwa [hquantum], room_of_lt ?_⟩
      rw [abs_of_nonneg (by linarith)]
      linarith
  · intro quantity entryFee hsizes hquantize _
    have hentryFee := (abs_quantizeMoney_le hquantize).trans (hfee quantity hsizes)
    obtain ⟨hfee₁, hfee₂⟩ := abs_le.1 hentryFee
    have hbalance := hready.booked.balance
    have hbalanceLe := h.balance
    have hsub := Context.abs_default_fit_le (sim.balance - entryFee)
    have habs : |sim.balance - entryFee| ≤ 2 * 10 ^ 13 := abs_le.2 ⟨by linarith, by linarith⟩
    have hsums := h.sums
    have hsumsLe := hscale.sums_le
    simp only [List.forall_mem_cons, abs_le] at hsums
    obtain ⟨⟨hs₁, hs₂⟩, -, ⟨hs₅, hs₆⟩, -⟩ := hsums
    simp only [List.forall_mem_cons]
    refine ⟨room_of_lt ?_, room_of_lt ?_, room_of_lt ?_, room_of_lt ?_, List.forall_mem_nil _⟩
    · rw [abs_of_pos (by linarith)]
      linarith
    · exact hsub.trans_lt (by linarith)
    · exact abs_lt.2 ⟨by linarith, by linarith⟩
    · exact abs_lt.2 ⟨by linarith, by linarith⟩

theorem Scale.mul_high_le (h : Scale low high m s) (hpos : 0 ≤ m) :
    m * high ≤ 10 ^ 16 * low := by
  have := h.mul_le
  linarith

/-- What is entered by a plan is bounded. -/
theorem Moderate.bounded {decision : Decision} {risk : RiskPlan} {side : Side} {atr : ℚ}
    (h : Moderate high m s sim) (hscale : Scale low high m s) (hwithin : candle.Within low high)
    (hequity : 0 < sim.equity) (hplans : Plans candle decision.signal risk side atr)
    (ho : Opens .default plan.config decision candle sim.balance sim.equity risk trade) :
    trade.Bounded high := by
  have hspaced := hplans.spaced (hwithin.close_mem.2.trans hscale.high_le)
  obtain ⟨hq, hworth⟩ := h.sizes_le hscale hwithin hequity hplans ho.sizes
  obtain ⟨hfee₁, hfee₂⟩ := fee_bounds ho.fee ho.close.le hq.le plan.config.feeBps.2
  have hm := hscale.le
  have hone := hscale.one_le
  have hhigh := hwithin.close_mem.2.trans hscale.high_le
  have hprices := hspaced.prices
  simp only [List.forall_mem_cons] at hprices
  have hlowpos := quantum_pos.trans_le hscale.quantum_le
  -- What is stored is no more than four times the close.
  have hbound : ∀ {price}, price ≤ 4 * candle.closePrice →
      price ≤ 10 ^ 13 ∧ price * trade.quantity ≤ maxWorth := by
    intro price hprice
    have := mul_le_mul_of_nonneg_right hprice hq.le
    rw [maxWorth]
    exact ⟨by linarith, by linarith⟩
  refine ⟨?_, ?_, abs_le.2 ⟨by linarith, by linarith⟩⟩
  · obtain ⟨hstop, htarget, -⟩ := ho.positive
    simp only [List.forall_mem_cons]
    refine ⟨hbound ?_, hbound ?_, hbound ?_, List.forall_mem_nil _⟩
    · have := (quantizeMoney_near ho.entryPrice ho.close.le).1
      linarith [ho.close]
    · exact (quantizeMoney_near ho.stopLoss hstop.le).1.trans hprices.1.2
    · exact (quantizeMoney_near ho.takeProfit htarget.le).1.trans hprices.2.1.2
  · have hlow := mul_le_mul_of_nonneg_left hwithin.close_mem.1 hq.le
    have hmul := hscale.mul_high_le (by linarith)
    have hhighpos : 0 ≤ high := by linarith [hwithin.close_mem.1, hwithin.close_mem.2]
    have := mul_le_mul_of_nonneg_left (hlow.trans hworth) hhighpos
    rw [maxWorth]
    refine le_of_mul_le_mul_right ?_ hlowpos
    nlinarith

theorem Moderate.enter {decision : Decision} (h : Moderate high m s sim)
    (hscale : Scale low high m s) (hready : Ready .default initial time sim)
    (hwithin : candle.Within low high) (hplanned : Planned plan candle)
    (he : Enters .default plan candle sim decision trade sim') :
    Moderate high (21 / 20 * m) (s + maxAmount) sim' ∧ trade.Near candle.closePrice := by
  obtain ⟨risk, ho⟩ := openTrade_eq_ok he.opens
  obtain ⟨side, atr, hplans⟩ := hplanned decision risk he.decided ho.planned
  have hspaced := hplans.spaced (hwithin.close_mem.2.trans hscale.high_le)
  have hbounded := h.bounded hscale hwithin he.account.1 hplans ho
  obtain ⟨hq, hworth⟩ := h.sizes_le hscale hwithin he.account.1 hplans ho.sizes
  obtain ⟨hfee₁, hfee₂⟩ := fee_bounds ho.fee ho.close.le hq.le plan.config.feeBps.2
  have hgain := ho.gain_le hready.booked.equity hplans.riskPct.2 hspaced
  obtain ⟨hround₁, hround₂⟩ :=
    abs_le.1 (Context.abs_quantize_fit_sub_le (quantizeMoney_eq_ok.1 he.balance))
  have hequity := h.equity
  have hbalance := h.balance
  have hone := hscale.one_le
  have hm := hscale.le
  have hsumsLe := hscale.sums_le
  have hplaces : (1 : ℚ) / 10 ^ moneyPlaces = 1 / 10 ^ 8 := rfl
  rw [hplaces] at hround₁ hround₂
  have hsums := h.sums
  simp only [List.forall_mem_cons, abs_le] at hsums
  obtain ⟨⟨hs₁, hs₂⟩, hs₃, ⟨hs₅, hs₆⟩, hs₇, -⟩ := hsums
  have htrades := insertTrade_eq_ok he.trades
  have hfeesSum : feesSum sim'.trades = feesSum sim.trades + trade.fees := by
    simp [feesSum, htrades]
  have hrealizedSum : realizedSum sim'.trades = realizedSum sim.trades := by
    simp [realizedSum, closedTrades, htrades, ho.status]
  have hrequestFees : sim'.requestFees = sim.requestFees + trade.fees := by
    rw [he.requestFees, add_exact hready.requestFees.1 (onGrid_quantizeMoney ho.fee)]
    exact abs_lt.2 ⟨by linarith, by linarith⟩
  refine ⟨⟨by linarith, by rw [he.equity]; linarith, fun t ht => ?_, ?_⟩, ho.best_near.1⟩
  · obtain rfl := Option.some.inj (he.open_.symm.trans ht)
    exact ⟨hbounded, by linarith⟩
  · rw [hfeesSum, hrealizedSum, hrequestFees, he.requestRealized, maxAmount]
    simp only [List.forall_mem_cons, abs_le]
    exact ⟨⟨by linarith, by linarith⟩, ⟨by linarith, by linarith⟩, ⟨by linarith, by linarith⟩,
      ⟨by linarith, by linarith⟩, List.forall_mem_nil _⟩

theorem Moderate.enters (h : Moderate high m s sim) (hscale : Scale low high m s)
    (hready : Ready .default initial time sim) (hwithin : candle.Within low high)
    (hplanned : Planned plan candle)
    (hnear : ∀ trade, sim.open_ = some trade → trade.Near candle.closePrice)
    (henters : Simulation.enters .default plan candle sim = .ok sim') :
    Moderate high (21 / 20 * m) (s + maxAmount) sim' ∧
      ∀ trade, sim'.open_ = some trade → trade.Near candle.closePrice := by
  have hone := hscale.one_le
  have hstays : Moderate high (21 / 20 * m) (s + maxAmount) sim :=
    h.mono (by linarith) (by norm_num [maxAmount])
  rcases enters_cases henters with rfl | ⟨decision, reason, rfl⟩ | ⟨decision, trade, he⟩
  · exact ⟨hstays, hnear⟩
  · exact ⟨⟨hstays.balance, hstays.equity, hstays.trade, hstays.sums⟩, hnear⟩
  · obtain ⟨hentered, hnear'⟩ := h.enter hscale hready hwithin hplanned he
    refine ⟨hentered, fun trade' hopen => ?_⟩
    obtain rfl := Option.some.inj (he.open_.symm.trans hopen)
    exact hnear'

/-! ## Candles -/

theorem Moderate.ends (h : Moderate high m s sim) (hscale : Scale low high m s)
    (hready : Ready .default initial time sim) (hwithin : candle.Within low high)
    (hnear : ∀ trade, sim.open_ = some trade → trade.Near candle.closePrice)
    (hends : Simulation.ends .default plan candle sim = .ok sim') :
    Moderate high m (s + maxAmount) sim' ∧
      ∀ trade, sim'.open_ = some trade → trade.Near candle.closePrice := by
  rcases ends_cases hends with ⟨rfl, -⟩ | ⟨trade, exit, closed, hopen, hl⟩
  · exact ⟨h.mono le_rfl (by norm_num [maxAmount]), hnear⟩
  · obtain ⟨hprice, hworth⟩ := h.price_bounds hscale hready hopen (.inl hwithin.close_mem)
    refine ⟨h.leave hscale hready hopen hprice.1 hworth (hnear trade hopen) hl, ?_⟩
    simp [hl.open_]

/-- There is room to mark an account of moderate size. -/
theorem Moderate.markable (h : Moderate high m s sim) (hscale : Scale low high m s)
    (hready : Ready .default initial time sim) (hwithin : candle.Within low high)
    (hopen : sim.open_ = some trade) : Markable .default sim trade candle.closePrice := by
  obtain ⟨hprice, hworth⟩ := h.price_bounds hscale hready hopen (.inl hwithin.close_mem)
  have habs := h.abs_worth_le hready hopen hprice.1 hworth
  rw [maxWorth] at habs
  refine ⟨room_of_lt ((abs_gross_le _ _ _ _).trans_lt (by linarith)), fun gross hgross => ?_⟩
  obtain ⟨hgross₁, hgross₂⟩ := abs_le.1 (abs_grossPnl_le hgross)
  have hbalance := hready.booked.balance
  have hbalanceLe := h.balance
  have hm := hscale.le
  have hadd := Context.abs_default_fit_le (sim.balance + gross)
  have hsum : |sim.balance + gross| ≤ 2 * 10 ^ 18 := abs_le.2 ⟨by linarith, by linarith⟩
  have hmax : |max 0 (Context.default.add sim.balance gross)| ≤
      |Context.default.add sim.balance gross| := by
    rw [abs_of_nonneg (le_max_left _ _)]
    exact max_le (abs_nonneg _) (le_abs_self _)
  exact room_of_lt (hmax.trans_lt (hadd.trans_lt (by linarith)))

/-- The account is marked to no more than the open trade may still gain. -/
theorem Moderate.marks (h : Moderate high m s sim) (hscale : Scale low high m s)
    (hready : Ready .default initial time sim) (hwithin : candle.Within low high)
    (hnear : ∀ trade, sim.open_ = some trade → trade.Near candle.closePrice)
    (hmarks : Simulation.marks .default plan candle sim = .ok sim') : Moderate high m s sim' := by
  obtain ⟨mark, hm⟩ := marks_eq_ok hmarks
  have hbalance := hready.booked.balance
  have hle := hscale.le
  have hone := hscale.one_le
  have hequity : mark.equity ≤ m := by
    have hmarked := hm.equity
    rcases hopen : sim.open_ with _ | trade
    · rw [hopen] at hmarked
      obtain ⟨equity, he, hmarked⟩ := bind_eq_ok.1 hmarked
      obtain ⟨rfl, -⟩ := Prod.mk.inj (pure_eq_ok.1 hmarked)
      exact (Context.quantize_le (quantizeMoney_eq_ok.1 he) hbalance).trans h.balance
    · rw [hopen] at hmarked
      simp only [markedEquity, bind_eq_ok, positive_eq_ok, pure_eq_ok] at hmarked
      obtain ⟨entry, ⟨-, rfl⟩, q, ⟨-, rfl⟩, gross, hgross, equity, he, hmarked⟩ := hmarked
      obtain ⟨rfl, -⟩ := Prod.mk.inj hmarked
      have hgain := (h.trade trade hopen).2
      have hgross' := (hnear trade hopen).gross_le (hready.stored trade hopen).quantity.le hgross
      refine (Context.quantize_le (quantizeMoney_eq_ok.1 he) (le_max_left _ _)).trans ?_
      have hsum : Context.default.add sim.balance gross = sim.balance + gross := by
        obtain ⟨hprice, hworth⟩ := h.price_bounds hscale hready hopen (.inl hwithin.close_mem)
        have habs := h.abs_worth_le hready hopen hprice.1 hworth
        rw [maxWorth] at habs
        obtain ⟨hgross₁, hgross₂⟩ := abs_le.1 (abs_grossPnl_le hgross)
        refine add_exact (hready.booked.onGrid hopen) (onGrid_quantizeMoney hgross) ?_
        exact abs_lt.2 ⟨by linarith, by linarith⟩
      rw [hsum]
      exact max_le (by linarith) (by linarith)
  rw [hm.sim]
  exact ⟨h.balance, hequity, h.trade, h.sums⟩

theorem Scale.mono {m' s' : ℚ} (h : Scale low high m' s') (hone : 1 ≤ m) (hm : m ≤ m')
    (hs : s ≤ s') (hhigh : 0 ≤ high) : Scale low high m s where
  quantum_le := h.quantum_le
  high_le := h.high_le
  one_le := hone
  le := hm.trans h.le
  mul_le := (mul_le_mul_of_nonneg_right hm (by linarith)).trans h.mul_le
  sums_le := hs.trans h.sums_le

/-- A candle goes through, and the account grows by no more than a twentieth. -/
theorem Moderate.simulate (h : Moderate high m s sim) (hone : 1 ≤ m)
    (hscale : Scale low high (21 / 20 * m) (s + 3 * maxAmount))
    (hready : Ready .default initial candle.openTime sim) (hwithin : candle.Within low high)
    (hplanned : Planned plan candle) :
    ∃ sim', simulateCandle .default plan sim candle = .ok sim' ∧
      Ready .default initial (candle.openTime + 1) sim' ∧
      Moderate high (21 / 20 * m) (s + 3 * maxAmount) sim' := by
  have hlow := quantum_pos.trans_le hscale.quantum_le
  obtain ⟨hclose, hcloseHigh⟩ := hwithin.close_mem
  have hamount : 0 ≤ maxAmount := by norm_num [maxAmount]
  have hscale₀ : Scale low high m s := hscale.mono hone (by linarith) (by linarith) (by linarith)
  have hscale₁ : Scale low high m (s + maxAmount) :=
    hscale.mono hone (by linarith) (by linarith) (by linarith)
  have hscale₂ : Scale low high (21 / 20 * m) (s + maxAmount + maxAmount) :=
    hscale.mono (by linarith) le_rfl (by linarith) (by linarith)
  -- The stages of the candle, each with room for what it computes.
  obtain ⟨sim₁, h₁, hready₁⟩ : ∃ sim₁, Simulation.exits .default plan candle sim = .ok sim₁ ∧
      Ready .default initial candle.openTime sim₁ := hready.exits
    ⟨hlow.trans_le hwithin.open_mem.1, hlow.trans_le (hclose.trans hwithin.close.2),
      hlow.trans_le hwithin.low⟩ fun trade decision hopen hdecision => by
        obtain ⟨hprice, hworth⟩ := h.exit_bounds hscale₀ hready hopen hwithin hdecision
        exact h.closable hscale₀ hready hopen hprice hworth
  obtain ⟨hm₁, hnear₁⟩ := h.exits hscale₀ hready hwithin h₁
  obtain ⟨sim₂, h₂, hready₂⟩ : ∃ sim₂, Simulation.enters .default plan candle sim₁ = .ok sim₂ ∧
      Ready .default initial (candle.openTime + 1) sim₂ := hready₁.enters (hlow.trans_le hclose)
    (fun decision risk hat hrisk => by
      obtain ⟨side, atr, hplans⟩ := hplanned decision risk hat hrisk
      exact hplans.riskPct.1)
    fun decision risk side _ _ hequity _ hat _ hrisk hside => by
      obtain ⟨side', atr, hplans⟩ := hplanned decision risk hat hrisk
      obtain rfl := Option.some.inj (hside.symm.trans hplans.signalled)
      exact hm₁.openable hscale₁ hready₁ hwithin hequity hplans
  obtain ⟨hm₂, hnear₂⟩ := hm₁.enters hscale₁ hready₁ hwithin hplanned hnear₁ h₂
  obtain ⟨sim₃, h₃, hready₃⟩ : ∃ sim₃, Simulation.ends .default plan candle sim₂ = .ok sim₃ ∧
      Ready .default initial (candle.openTime + 1) sim₃ := hready₂.ends
    fun trade hopen _ => by
      obtain ⟨hprice, hworth⟩ := hm₂.price_bounds hscale₂ hready₂ hopen (.inl hwithin.close_mem)
      exact hm₂.closable hscale₂ hready₂ hopen hprice hworth
  obtain ⟨hm₃, hnear₃⟩ := hm₂.ends hscale₂ hready₂ hwithin hnear₂ h₃
  have hscale₃ : Scale low high (21 / 20 * m) (s + maxAmount + maxAmount + maxAmount) :=
    hscale.mono (by linarith) le_rfl (by linarith) (by linarith)
  obtain ⟨sim', h₄, hready', -⟩ : ∃ sim', Simulation.marks .default plan candle sim₃ = .ok sim' ∧
      Ready .default initial (candle.openTime + 1) sim' ∧ _ := hready₃.marks fun trade hopen =>
    hm₃.markable hscale₃ hready₃ hwithin hopen
  have hm' := hm₃.marks hscale₃ hready₃ hwithin hnear₃ h₄
  refine ⟨sim', ?_, hready', hm'.mono le_rfl (by linarith)⟩
  exact bind_eq_ok.2 ⟨_, positive_eq_ok.2 ⟨hlow.trans_le hclose, rfl⟩, bind_eq_ok.2 ⟨_, h₁,
    bind_eq_ok.2 ⟨_, h₂, bind_eq_ok.2 ⟨_, h₃, h₄⟩⟩⟩⟩

/-- So do all candles, one after the other. -/
theorem Moderate.run {candles : List Candle} (h : Moderate high m s sim) (hone : 1 ≤ m)
    (hscale : Scale low high ((21 / 20) ^ candles.length * m)
      (s + candles.length * (3 * maxAmount)))
    (hready : Ready .default initial time sim) (hne : candles ≠ [])
    (hsorted : candles.Pairwise fun a b => a.openTime < b.openTime)
    (hfirst : ∀ c ∈ candles, time ≤ c.openTime) (hwithin : ∀ c ∈ candles, c.Within low high)
    (hplanned : ∀ c ∈ candles, Planned plan c) :
    ∃ sim', candles.foldlM (simulateCandle .default plan) sim = .ok sim' ∧
      Ready .default initial ((candles.getLast hne).openTime + 1) sim' := by
  induction candles generalizing sim time m s with
  | nil => exact absurd rfl hne
  | cons c l ih =>
    rw [List.forall_mem_cons] at hfirst hwithin hplanned
    rw [List.pairwise_cons] at hsorted
    have hlow := quantum_pos.trans_le hscale.quantum_le
    have hhigh : 0 ≤ high := by linarith [hwithin.1.close_mem.1, hwithin.1.close_mem.2]
    have hamount : 0 ≤ maxAmount := by norm_num [maxAmount]
    have hpow : (1 : ℚ) ≤ (21 / 20) ^ l.length := one_le_pow₀ (by norm_num)
    have hm : 21 / 20 * m ≤ (21 / 20) ^ (c :: l).length * m := by
      rw [List.length_cons, pow_succ, mul_assoc]
      exact le_mul_of_one_le_left (by linarith) hpow
    have hs : s + 3 * maxAmount ≤ s + (c :: l).length * (3 * maxAmount) := by
      have : (0 : ℚ) ≤ l.length * (3 * maxAmount) := by positivity
      rw [List.length_cons]
      push_cast
      linarith
    obtain ⟨sim₁, h₁, hready₁, hm₁⟩ := h.simulate hone
      (hscale.mono (by linarith) hm hs hhigh) (hready.mono hfirst.1) hwithin.1 hplanned.1
    -- The last candle is named by the statement, so the induction has to know whether it is this
    -- one.
    by_cases hnil : l = []
    · subst hnil
      refine ⟨sim₁, ?_, hready₁⟩
      rw [List.foldlM_cons, h₁]
      rfl
    · have hscale' : Scale low high ((21 / 20) ^ l.length * (21 / 20 * m))
          (s + 3 * maxAmount + l.length * (3 * maxAmount)) := by
        refine hscale.mono ?_ (le_of_eq ?_) (le_of_eq ?_) hhigh
        · exact one_le_mul_of_one_le_of_one_le hpow (by linarith)
        · rw [List.length_cons, pow_succ, mul_assoc]
        · rw [List.length_cons]
          push_cast
          ring
      obtain ⟨sim', h', hready'⟩ := ih hm₁ (by linarith) hscale' hready₁ hnil hsorted.2
        (fun a ha => hsorted.1 a ha) hwithin.2 hplanned.2
      refine ⟨sim', ?_, ?_⟩
      · rw [List.foldlM_cons, h₁]
        exact h'
      · rw [List.getLast_cons hnil]
        exact hready'

end IntradayBot.Replay
