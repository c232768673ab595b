import IntradayBot.Replay.Room

/-!
# What a trade can gain

A trade gains no more than the distance to its target, or to its stop if that one is beyond
(`Trade.gain`): it leaves at the latest at the target, and the close of a candle that does not reach
the target is before it.
-/

namespace IntradayBot.Replay

open Decimal Simulation

variable {plan : Plan} {candle : Candle} {trade : Trade} {side : Side} {entry price q gross : ℚ}

/-! ## Amounts -/

/-- There is room for amounts below 10²⁰. -/
theorem room_of_lt {q : ℚ} (h : |q| < 10 ^ 20) : Context.default.Room moneyPlaces q := by
  refine Context.room_iff.2 fun digits hd => ?_
  obtain rfl := Option.some.inj hd
  exact h.trans_eq (by norm_num [moneyPlaces])

theorem abs_quantizeMoney_le {ctx : Context} {r : ℚ} (h : quantizeMoney ctx q = .ok r) :
    |r| ≤ |q| :=
  Context.abs_quantize_le (quantizeMoney_eq_ok.1 h)

theorem abs_direction (side : Side) : |direction side| = 1 := by
  cases side <;> simp [direction]

/-- What the operations of a gross profit make of it, before it is cut to 8 decimals. -/
theorem abs_gross_le (side : Side) (entry price q : ℚ) :
    |Context.default.mul (Context.default.mul (Context.default.sub price entry) q)
      (direction side)| ≤ 101 / 100 * (|price - entry| * |q|) := by
  have hsub := Context.abs_default_fit_le (price - entry)
  have hmul := Context.abs_default_fit_le (Context.default.sub price entry * q)
  have hdir := Context.abs_default_fit_le
    (Context.default.mul (Context.default.sub price entry) q * direction side)
  rw [abs_mul] at hmul
  rw [abs_mul, abs_direction, mul_one] at hdir
  have hq : |Context.default.sub price entry| * |q| ≤ 1001 / 1000 * |price - entry| * |q| :=
    mul_le_mul_of_nonneg_right hsub (abs_nonneg q)
  have hpos : 0 ≤ |price - entry| * |q| := by positivity
  calc |Context.default.mul (Context.default.mul (Context.default.sub price entry) q)
        (direction side)|
      ≤ 1001 / 1000 * (1001 / 1000 * (1001 / 1000 * |price - entry| * |q|)) := by
        refine hdir.trans (mul_le_mul_of_nonneg_left ?_ (by norm_num))
        exact hmul.trans (mul_le_mul_of_nonneg_left hq (by norm_num))
    _ ≤ 101 / 100 * (|price - entry| * |q|) := by linarith

theorem abs_grossPnl_le (h : grossPnl .default side entry price q = .ok gross) :
    |gross| ≤ 101 / 100 * (|price - entry| * |q|) :=
  (abs_quantizeMoney_le h).trans (abs_gross_le side entry price q)

/-- A trade that leaves on the wrong side of its entry gains nothing. -/
theorem grossPnl_nonpos (h : grossPnl .default side entry price q = .ok gross) (hq : 0 ≤ q)
    (hside : direction side * (price - entry) ≤ 0) : gross ≤ 0 := by
  refine Context.quantize_nonpos (quantizeMoney_eq_ok.1 h) (Context.fit_nonpos ?_)
  cases side with
  | buy =>
    simp only [direction, one_mul, mul_one] at hside ⊢
    refine Context.fit_nonpos (mul_nonpos_of_nonpos_of_nonneg (Context.fit_nonpos hside) hq)
  | sell =>
    simp only [direction, neg_one_mul, mul_neg_one, neg_nonpos] at hside ⊢
    exact Context.fit_nonneg (mul_nonneg (Context.fit_nonneg hside) hq)

/-- A trade gains no more than what it leaves beyond its entry. -/
theorem grossPnl_le_width {width : ℚ} (h : grossPnl .default side entry price q = .ok gross)
    (hq : 0 ≤ q) (hwidth : 0 ≤ width) (hside : direction side * (price - entry) ≤ width) :
    gross ≤ 101 / 100 * (width * q) := by
  rcases le_or_gt (direction side * (price - entry)) 0 with hle | hlt
  · exact (grossPnl_nonpos h hq hle).trans (by positivity)
  · have habs : |price - entry| = direction side * (price - entry) := by
      rw [← abs_of_pos hlt, abs_mul, abs_direction, one_mul]
    refine (le_abs_self gross).trans ((abs_grossPnl_le h).trans ?_)
    rw [habs, abs_of_nonneg hq]
    have := mul_le_mul_of_nonneg_right hside hq
    linarith

theorem abs_fee_le {feeBps : ℚ} (hprice : 0 ≤ price) (hq : 0 ≤ q)
    (hbps : 0 ≤ feeBps ∧ feeBps ≤ MAX_FEE_BPS) :
    |Context.default.div (Context.default.mul (Context.default.mul price q) feeBps) 10000| ≤
      price * q / 90 := by
  have hpos : 0 ≤ price * q := mul_nonneg hprice hq
  have hmul := Context.abs_default_fit_le (price * q)
  have hfee := Context.abs_default_fit_le (Context.default.mul price q * feeBps)
  have hdiv := Context.abs_default_fit_le
    (Context.default.mul (Context.default.mul price q) feeBps / 10000)
  rw [abs_of_nonneg hpos] at hmul
  rw [abs_mul, abs_of_nonneg hbps.1] at hfee
  rw [abs_div, abs_of_nonneg (by norm_num : (0 : ℚ) ≤ 10000)] at hdiv
  have hbound : |Context.default.mul price q| * feeBps ≤ 1001 / 1000 * (price * q) * 100 :=
    mul_le_mul hmul hbps.2 hbps.1 (by positivity)
  have : |Context.default.mul (Context.default.mul price q) feeBps| ≤
      1001 / 1000 * (1001 / 1000 * (price * q) * 100) :=
    hfee.trans (mul_le_mul_of_nonneg_left hbound (by norm_num))
  refine hdiv.trans ?_
  rw [mul_div_assoc', div_le_div_iff₀ (by norm_num) (by norm_num)]
  linarith

theorem fee_bounds {feeBps exitFee : ℚ} (h : fee .default price q feeBps = .ok exitFee)
    (hprice : 0 ≤ price) (hq : 0 ≤ q) (hbps : 0 ≤ feeBps ∧ feeBps ≤ MAX_FEE_BPS) :
    0 ≤ exitFee ∧ exitFee ≤ price * q / 90 := by
  refine ⟨Context.quantize_nonneg (quantizeMoney_eq_ok.1 h) (Context.fit_nonneg ?_), ?_⟩
  · exact div_nonneg (Context.fit_nonneg (mul_nonneg (Context.fit_nonneg (mul_nonneg hprice hq))
      hbps.1)) (by norm_num)
  · exact (le_abs_self _).trans ((abs_quantizeMoney_le h).trans (abs_fee_le hprice hq hbps))

/-! ## Exits -/

/-- The best price that the trade leaves at, the one farther on of its stop and its target. -/
def Trade.best (trade : Trade) : ℚ :=
  match trade.side with
  | .buy => max trade.payload.stopLoss trade.payload.takeProfit
  | .sell => min trade.payload.stopLoss trade.payload.takeProfit

/-- The way from the entry to the best price, and a quantum more. -/
def Trade.span (trade : Trade) : ℚ :=
  max 0 (direction trade.side * (trade.best - trade.entryPrice)) + MONEY_QUANTUM

/-- What the trade gains at most. -/
def Trade.gain (trade : Trade) : ℚ := 101 / 100 * (trade.span * trade.quantity)

/-- The price is no more than a quantum beyond the best one. -/
def Trade.Near (trade : Trade) (price : ℚ) : Prop :=
  direction trade.side * (price - trade.best) ≤ MONEY_QUANTUM

theorem quantum_pos : 0 < MONEY_QUANTUM := by
  norm_num [MONEY_QUANTUM, moneyPlaces]

theorem Trade.span_pos (trade : Trade) : 0 < trade.span :=
  add_pos_of_nonneg_of_pos (le_max_left _ _) quantum_pos

theorem Trade.Near.gross_le (h : trade.Near price) (hq : 0 ≤ trade.quantity)
    (hgross : grossPnl .default trade.side trade.entryPrice price trade.quantity = .ok gross) :
    gross ≤ trade.gain := by
  refine grossPnl_le_width hgross hq trade.span_pos.le ?_
  have hsplit : direction trade.side * (price - trade.entryPrice) =
      direction trade.side * (trade.best - trade.entryPrice) +
        direction trade.side * (price - trade.best) := by ring
  rw [hsplit, Trade.span]
  exact add_le_add (le_max_right _ _) h

theorem Trade.near_of_buy (h : trade.side = .buy)
    (hle : price ≤ max trade.payload.stopLoss trade.payload.takeProfit + MONEY_QUANTUM) :
    trade.Near price := by
  rw [Trade.Near, Trade.best, h, direction, one_mul]
  linarith

theorem Trade.near_of_sell (h : trade.side = .sell)
    (hle : min trade.payload.stopLoss trade.payload.takeProfit ≤ price + MONEY_QUANTUM) :
    trade.Near price := by
  rw [Trade.Near, Trade.best, h, direction]
  linarith

/-- A trade leaves at its stop, its target, or at a worse open. -/
theorem exitDecision_eq_some {decision : ExitDecision}
    (h : exitDecision trade candle = .ok (some decision)) :
    trade.Near decision.price ∧
      decision.price ∈ [candle.openPrice, trade.payload.stopLoss, trade.payload.takeProfit] := by
  have hquantum := quantum_pos.le
  simp only [exitDecision, bind_eq_ok, positive_eq_ok] at h
  obtain ⟨stop, ⟨-, rfl⟩, target, ⟨-, rfl⟩, h⟩ := h
  split at h
  · cases h
  simp only [bind_eq_ok, positive_eq_ok] at h
  obtain ⟨openPrice, ⟨-, rfl⟩, high, ⟨-, rfl⟩, low, ⟨-, rfl⟩, h⟩ := h
  cases hside : trade.side with
  | buy =>
    have hstop := le_max_left trade.payload.stopLoss trade.payload.takeProfit
    have htarget := le_max_right trade.payload.stopLoss trade.payload.takeProfit
    rw [hside] at h
    dsimp only at h
    split at h
    · obtain rfl := Option.some.inj (pure_eq_ok.1 h)
      dsimp only
      split
      · exact ⟨Trade.near_of_buy hside (by linarith), by simp⟩
      · exact ⟨Trade.near_of_buy hside (by linarith), by simp⟩
    · split at h
      · obtain rfl := Option.some.inj (pure_eq_ok.1 h)
        exact ⟨Trade.near_of_buy hside (by linarith), by simp⟩
      · cases h
  | sell =>
    have hstop := min_le_left trade.payload.stopLoss trade.payload.takeProfit
    have htarget := min_le_right trade.payload.stopLoss trade.payload.takeProfit
    rw [hside] at h
    dsimp only at h
    split at h
    · obtain rfl := Option.some.inj (pure_eq_ok.1 h)
      dsimp only
      split
      · exact ⟨Trade.near_of_sell hside (by linarith), by simp⟩
      · exact ⟨Trade.near_of_sell hside (by linarith), by simp⟩
    · split at h
      · obtain rfl := Option.some.inj (pure_eq_ok.1 h)
        exact ⟨Trade.near_of_sell hside (by linarith), by simp⟩
      · cases h

/-- A trade that stays has not reached its target. -/
theorem exitDecision_eq_none (h : exitDecision trade candle = .ok none)
    (htime : trade.entryTime < candle.openTime) (hlow : candle.lowPrice ≤ candle.closePrice)
    (hhigh : candle.closePrice ≤ candle.highPrice) : trade.Near candle.closePrice := by
  have hquantum := quantum_pos.le
  simp only [exitDecision, bind_eq_ok, positive_eq_ok, if_neg htime.not_ge] at h
  obtain ⟨stop, ⟨-, rfl⟩, target, ⟨-, rfl⟩, openPrice, ⟨-, rfl⟩, high, ⟨-, rfl⟩, low, ⟨-, rfl⟩, h⟩ := h
  cases hside : trade.side with
  | buy =>
    have htarget := le_max_right trade.payload.stopLoss trade.payload.takeProfit
    rw [hside] at h
    dsimp only at h
    split at h
    · cases pure_eq_ok.1 h
    · split at h
      · cases pure_eq_ok.1 h
      · exact Trade.near_of_buy hside (by linarith)
  | sell =>
    have htarget := min_le_right trade.payload.stopLoss trade.payload.takeProfit
    rw [hside] at h
    dsimp only at h
    split at h
    · cases pure_eq_ok.1 h
    · split at h
      · cases pure_eq_ok.1 h
      · exact Trade.near_of_sell hside (by linarith)

/-! ## Plans -/

/-- Numbers of this size are kept to fourteen decimals. -/
theorem fit_near {x : ℚ} (hlow : -10 ^ 13 ≤ x) (hhigh : x ≤ 10 ^ 13) :
    x - 1 / 10 ^ 14 ≤ Context.default.fit x ∧ Context.default.fit x ≤ x + 1 / 10 ^ 14 := by
  have hsmall : |x| / 10 ^ 27 ≤ 1 / 10 ^ 14 := by
    rw [div_le_div_iff₀ (by norm_num) (by norm_num)]
    linarith [abs_le.2 ⟨hlow, hhigh⟩]
  obtain ⟨hge, hle⟩ := abs_le.1 ((Context.abs_default_fit_sub_le x).trans hsmall)
  exact ⟨by linarith, by linarith⟩

/-- So is the distance of two of them. -/
theorem abs_sub_near {x y : ℚ} (hlow : -10 ^ 12 ≤ x - y) (hhigh : x - y ≤ 10 ^ 12) :
    |x - y| - 2 / 10 ^ 14 ≤ Context.default.abs (Context.default.sub x y) ∧
      Context.default.abs (Context.default.sub x y) ≤ |x - y| + 2 / 10 ^ 14 := by
  have habs := abs_le.2 ⟨hlow, hhigh⟩
  obtain ⟨hs₁, hs₂⟩ := fit_near (x := x - y) (by linarith) (by linarith)
  have hsub : |Context.default.sub x y - (x - y)| ≤ 1 / 10 ^ 14 :=
    abs_le.2 ⟨by rw [Context.sub]; linarith, by rw [Context.sub]; linarith⟩
  have hge := abs_sub_abs_le_abs_sub (Context.default.sub x y) (x - y)
  have hle := abs_sub_abs_le_abs_sub (x - y) (Context.default.sub x y)
  rw [abs_sub_comm (x - y)] at hle
  have hpos := abs_nonneg (Context.default.sub x y)
  obtain ⟨ha₁, ha₂⟩ := fit_near (x := |Context.default.sub x y|) (by linarith) (by linarith)
  exact ⟨by rw [Context.abs]; linarith, by rw [Context.abs]; linarith⟩

/-- The stop and the target of a plan, so far from the close. -/
structure Spaced (close distance : ℚ) (risk : RiskPlan) : Prop where
  quantum_le : 149 / 100 * MONEY_QUANTUM ≤ distance
  prices : ∀ price ∈ [risk.stopLoss, risk.takeProfit], MONEY_QUANTUM ≤ price ∧ price ≤ 4 * close
  stop : 99 / 100 * distance ≤ Context.default.abs (Context.default.sub close risk.stopLoss)
  stop_le : Context.default.abs (Context.default.sub close risk.stopLoss) ≤ 4 * close
  target : |risk.takeProfit - close| ≤ 201 / 100 * distance

/-- The stop of a side, so far from the close. -/
def stopAt (side : Side) (close distance : ℚ) : ℚ :=
  match side with
  | .buy => Context.default.sub close distance
  | .sell => Context.default.add close distance

/-- The target of a side, with a stop so far from the close. -/
def targetAt (side : Side) (close distance : ℚ) : ℚ :=
  match side with
  | .buy => Context.default.add close (Context.default.mul distance 2)
  | .sell => Context.default.sub close (Context.default.mul distance 2)

/-- How far the plan of a side goes below the close: to the stop of a buy, or to the target of a
    sale. -/
def depth (side : Side) (atr : ℚ) : ℚ :=
  match side with
  | .buy => 3 / 2 * atr
  | .sell => 3 * atr

/-- The average range is no less than a quantum, and leaves the plan above zero. -/
structure Leeway (side : Side) (close atr : ℚ) : Prop where
  quantum_le : MONEY_QUANTUM ≤ atr
  depth_le : depth side atr + 2 * MONEY_QUANTUM ≤ close

instance {close atr : ℚ} : Decidable (Leeway side close atr) :=
  decidable_of_iff (MONEY_QUANTUM ≤ atr ∧ depth side atr + 2 * MONEY_QUANTUM ≤ close)
    ⟨fun ⟨h₁, h₂⟩ => ⟨h₁, h₂⟩, fun ⟨h₁, h₂⟩ => ⟨h₁, h₂⟩⟩

/-- A sale goes farther below the close than a buy. -/
theorem Leeway.of_sell {close atr : ℚ} (h : Leeway .sell close atr) (side : Side) :
    Leeway side close atr := by
  have hquantum := quantum_pos.trans_le h.quantum_le
  have hdepth := h.depth_le
  cases side with
  | buy =>
    refine ⟨h.quantum_le, ?_⟩
    simp only [depth] at hdepth ⊢
    linarith
  | sell => exact h

theorem Leeway.spaced {close atr : ℚ} {risk : RiskPlan} (h : Leeway side close atr)
    (hclose : close ≤ 10 ^ 12)
    (hstop : risk.stopLoss = stopAt side close (Context.default.mul atr (3 / 2)))
    (htarget : risk.takeProfit = targetAt side close (Context.default.mul atr (3 / 2))) :
    Spaced close (Context.default.mul atr (3 / 2)) risk := by
  have hquantum := h.quantum_le
  have hle := h.depth_le
  have hq : MONEY_QUANTUM = 1 / 10 ^ 8 := rfl
  rw [hq] at hquantum hle
  have hatr : 3 / 2 * atr + 2 / 10 ^ 8 ≤ close := by
    cases side with
    | buy =>
      rw [depth] at hle
      linarith
    | sell =>
      rw [depth] at hle
      linarith
  obtain ⟨hd₁, hd₂⟩ := fit_near (x := atr * (3 / 2)) (by linarith) (by linarith)
  change _ ≤ Context.default.mul atr (3 / 2) at hd₁
  change Context.default.mul atr (3 / 2) ≤ _ at hd₂
  generalize Context.default.mul atr (3 / 2) = distance at *
  obtain ⟨ht₁, ht₂⟩ := fit_near (x := distance * 2) (by linarith) (by linarith)
  change _ ≤ Context.default.mul distance 2 at ht₁
  change Context.default.mul distance 2 ≤ _ at ht₂
  cases side with
  | buy =>
    rw [stopAt] at hstop
    rw [targetAt] at htarget
    generalize Context.default.mul distance 2 = double at *
    obtain ⟨hs₁, hs₂⟩ := fit_near (x := close - distance) (by linarith) (by linarith)
    obtain ⟨hp₁, hp₂⟩ := fit_near (x := close + double) (by linarith) (by linarith)
    change _ ≤ Context.default.sub close distance at hs₁
    change Context.default.sub close distance ≤ _ at hs₂
    change _ ≤ Context.default.add close double at hp₁
    change Context.default.add close double ≤ _ at hp₂
    rw [← hstop] at hs₁ hs₂
    rw [← htarget] at hp₁ hp₂
    obtain ⟨ha₁, ha₂⟩ := abs_sub_near (x := close) (y := risk.stopLoss) (by linarith) (by linarith)
    rw [abs_of_pos (by linarith : 0 < close - risk.stopLoss)] at ha₁ ha₂
    have habs : |risk.takeProfit - close| ≤ 201 / 100 * distance := by
      rw [abs_of_pos (by linarith)]
      linarith
    refine ⟨by rw [hq]; linarith, ?_, by linarith, by linarith, habs⟩
    simp only [List.forall_mem_cons, List.not_mem_nil, hq]
    exact ⟨⟨by linarith, by linarith⟩, ⟨by linarith, by linarith⟩, fun _ => False.elim⟩
  | sell =>
    rw [stopAt] at hstop
    rw [targetAt] at htarget
    rw [depth] at hle
    generalize Context.default.mul distance 2 = double at *
    obtain ⟨hs₁, hs₂⟩ := fit_near (x := close + distance) (by linarith) (by linarith)
    obtain ⟨hp₁, hp₂⟩ := fit_near (x := close - double) (by linarith) (by linarith)
    change _ ≤ Context.default.add close distance at hs₁
    change Context.default.add close distance ≤ _ at hs₂
    change _ ≤ Context.default.sub close double at hp₁
    change Context.default.sub close double ≤ _ at hp₂
    rw [← hstop] at hs₁ hs₂
    rw [← htarget] at hp₁ hp₂
    obtain ⟨ha₁, ha₂⟩ := abs_sub_near (x := close) (y := risk.stopLoss) (by linarith) (by linarith)
    rw [abs_of_neg (by linarith : close - risk.stopLoss < 0)] at ha₁ ha₂
    have habs : |risk.takeProfit - close| ≤ 201 / 100 * distance := by
      rw [abs_of_neg (by linarith)]
      linarith
    refine ⟨by rw [hq]; linarith, ?_, by linarith, by linarith, habs⟩
    simp only [List.forall_mem_cons, List.not_mem_nil, hq]
    exact ⟨⟨by linarith, by linarith⟩, ⟨by linarith, by linarith⟩, fun _ => False.elim⟩

/-! ## Entries -/

section

variable {equity riskPct amount distance m : ℚ} {config : Config} {risk : RiskPlan}

theorem abs_div_le (x y : ℚ) : |Context.default.div x y| ≤ 1001 / 1000 * (|x| / |y|) := by
  have h := Context.abs_default_fit_le (x / y)
  rwa [abs_div] at h

/-- What a plan risks is about a hundredth of the equity. -/
theorem abs_riskAmount_le (hequity : 0 ≤ equity) (hpct : 0 < riskPct ∧ riskPct ≤ 1) :
    |Context.default.div (Context.default.mul equity riskPct) 100| ≤ 101 / 10000 * equity := by
  have hmul := Context.abs_default_fit_le (equity * riskPct)
  have hdiv := abs_div_le (Context.default.mul equity riskPct) 100
  rw [abs_of_nonneg (mul_nonneg hequity hpct.1.le)] at hmul
  rw [abs_of_pos (by norm_num : (0 : ℚ) < 100)] at hdiv
  have hle : equity * riskPct ≤ equity := mul_le_of_le_one_right hequity hpct.2
  have : |Context.default.mul equity riskPct| ≤ 1001 / 1000 * (equity * riskPct) := hmul
  linarith

theorem riskAmount_le (hequity : 0 ≤ equity) (hpct : 0 < riskPct ∧ riskPct ≤ 1)
    (h : quantizeMoney .default (Context.default.div (Context.default.mul equity riskPct) 100) =
      .ok amount) : |amount| ≤ 101 / 10000 * equity :=
  (abs_quantizeMoney_le h).trans (abs_riskAmount_le hequity hpct)

/-- Of a leverage of no more than ten, the quantity is worth no more than about ten times the
    equity. -/
theorem abs_leverage_le {close leverage : ℚ} (hequity : 0 ≤ equity) (hclose : 0 < close)
    (hleverage : 1 ≤ leverage ∧ leverage ≤ MAX_LEVERAGE) :
    |Context.default.div (Context.default.mul equity leverage) close| * close ≤
      101 / 10 * equity := by
  have hnonneg : 0 ≤ leverage := zero_le_one.trans hleverage.1
  have hmul := Context.abs_default_fit_le (equity * leverage)
  have hdiv := abs_div_le (Context.default.mul equity leverage) close
  rw [abs_of_nonneg (mul_nonneg hequity hnonneg)] at hmul
  rw [abs_of_pos hclose, mul_div_assoc', le_div_iff₀ hclose] at hdiv
  have hle : equity * leverage ≤ equity * 10 :=
    mul_le_mul_of_nonneg_left (hleverage.2.trans_eq rfl) hequity
  have : |Context.default.mul equity leverage| ≤ 1001 / 1000 * (equity * leverage) := hmul
  linarith

/-- The quantity loses about a hundredth of the equity at the stop, and has a leverage of about ten
    at most. -/
theorem Simulation.Sizes.bounds (h : Sizes .default config equity candle risk q)
    (hequity : 0 ≤ equity) (hpct : 0 < risk.riskPct ∧ risk.riskPct ≤ 1)
    (hclose : 0 < candle.closePrice)
    (hdistance : 0 < Context.default.abs (Context.default.sub candle.closePrice risk.stopLoss)) :
    q * Context.default.abs (Context.default.sub candle.closePrice risk.stopLoss) ≤
        102 / 10000 * equity ∧ q * candle.closePrice ≤ 101 / 10 * equity ∧ 0 < q := by
  obtain ⟨amount, byRisk, byLeverage, hamount, hbyRisk, hbyLeverage, rfl, hpos⟩ := h
  have hrisk := riskAmount_le hequity hpct hamount
  have hdiv := abs_div_le amount
    (Context.default.abs (Context.default.sub candle.closePrice risk.stopLoss))
  rw [abs_of_pos hdistance, mul_div_assoc', le_div_iff₀ hdistance] at hdiv
  have hleverage := abs_leverage_le hequity hclose config.maxLeverage.2
  have hle₁ : min byRisk byLeverage ≤ |byRisk| := (min_le_left _ _).trans (le_abs_self _)
  have hle₂ : min byRisk byLeverage ≤ |byLeverage| := (min_le_right _ _).trans (le_abs_self _)
  refine ⟨?_, ?_, hpos⟩
  · have := mul_le_mul_of_nonneg_right (hle₁.trans (abs_quantizeMoney_le hbyRisk)) hdistance.le
    linarith
  · have := mul_le_mul_of_nonneg_right (hle₂.trans (abs_quantizeMoney_le hbyLeverage)) hclose.le
    linarith

/-- A price that is stored loses less than a quantum. -/
theorem quantizeMoney_near {r : ℚ} (h : quantizeMoney .default price = .ok r) (hprice : 0 ≤ price) :
    r ≤ price ∧ price - MONEY_QUANTUM ≤ r := by
  refine ⟨Context.quantize_le (quantizeMoney_eq_ok.1 h) hprice, ?_⟩
  have := Context.lt_quantize (quantizeMoney_eq_ok.1 h) hprice
  rw [MONEY_QUANTUM]
  linarith

/-- A trade is entered before its target, which is its best price. -/
theorem Simulation.Opens.best_near {decision : Decision} {balance : ℚ}
    (h : Opens .default config decision candle balance equity risk trade) :
    trade.Near candle.closePrice ∧
      direction trade.side * (trade.best - trade.entryPrice) ≤
        |risk.takeProfit - candle.closePrice| + MONEY_QUANTUM := by
  obtain ⟨hstop, htarget, -⟩ := h.positive
  obtain ⟨hentry₁, hentry₂⟩ := quantizeMoney_near h.entryPrice h.close.le
  obtain ⟨htarget₁, htarget₂⟩ := quantizeMoney_near h.takeProfit htarget.le
  have hprotected := h.protected_
  have hquantum := quantum_pos
  cases hside : trade.side with
  | buy =>
    rw [hside] at hprotected
    obtain ⟨hlow, hhigh⟩ := hprotected
    have hbest : trade.best = trade.payload.takeProfit := by
      rw [Trade.best, hside]
      exact max_eq_right (Context.quantize_mono (quantizeMoney_eq_ok.1 h.stopLoss)
        (quantizeMoney_eq_ok.1 h.takeProfit) (hlow.trans hhigh).le)
    rw [Trade.Near, hside, hbest, direction, abs_of_pos (sub_pos.2 hhigh)]
    exact ⟨by linarith, by linarith⟩
  | sell =>
    rw [hside] at hprotected
    obtain ⟨hlow, hhigh⟩ := hprotected
    have hbest : trade.best = trade.payload.takeProfit := by
      rw [Trade.best, hside]
      exact min_eq_right (Context.quantize_mono (quantizeMoney_eq_ok.1 h.takeProfit)
        (quantizeMoney_eq_ok.1 h.stopLoss) (hlow.trans hhigh).le)
    rw [Trade.Near, hside, hbest, direction, abs_of_neg (sub_neg.2 hlow)]
    exact ⟨by linarith, by linarith⟩

/-- What is entered by a plan gains no more than a twenty-fifth of the equity. -/
theorem Simulation.Opens.gain_le {decision : Decision} {balance : ℚ}
    (h : Opens .default config decision candle balance equity risk trade) (hequity : 0 ≤ equity)
    (hpct : risk.riskPct ≤ 1) (hspaced : Spaced candle.closePrice distance risk) :
    trade.gain ≤ equity / 25 := by
  have hquantum := hspaced.quantum_le
  have hpos := quantum_pos
  have hstop := hspaced.stop
  have htarget := hspaced.target
  set d := Context.default.abs (Context.default.sub candle.closePrice risk.stopLoss)
  have hd : 0 < d := by linarith
  obtain ⟨hqd, -, hq⟩ := h.sizes.bounds hequity ⟨h.positive.2.2, hpct⟩ h.close hd
  have hspan : trade.span ≤ 339 / 100 * d := by
    have hbest := h.best_near.2
    have hmax : max 0 (direction trade.side * (trade.best - trade.entryPrice)) ≤
        |risk.takeProfit - candle.closePrice| + MONEY_QUANTUM :=
      max_le (by positivity) hbest
    rw [Trade.span]
    linarith
  have hmul := mul_le_mul_of_nonneg_right hspan hq.le
  rw [Trade.gain]
  linarith

end

/-! ## Signals -/

/-- The frozen candles up to the time. -/
def history (candles : List Candle) (time : ℤ) : List Candle := candles.filter (·.openTime ≤ time)

/-- At the candle the strategy signals no side, or there is no range, or leeway enough. -/
def Signalled (candles : List Candle) (candle : Candle) : Prop :=
  let i := Strategy.indicators .default (history candles candle.openTime)
  Strategy.MIN_HISTORY ≤ (history candles candle.openTime).length → 0 < i.atr14 →
    ∀ side, sideOf (Strategy.signal i).1 = some side → Leeway side candle.closePrice i.atr14

theorem getLast?_history {candles : List Candle} {c : Candle}
    (h : candles.Pairwise fun a b => a.openTime < b.openTime) (hmem : c ∈ candles) :
    (history candles c.openTime).getLast? = some c := by
  induction candles with
  | nil => cases hmem
  | cons a l ih =>
    rw [List.pairwise_cons] at h
    rcases List.mem_cons.1 hmem with rfl | hmem
    · have hnone : l.filter (·.openTime ≤ c.openTime) = [] :=
        List.filter_eq_nil_iff.2 fun b hb => by simpa using h.1 b hb
      rw [history, List.filter_cons_of_pos (by simp), hnone]
      rfl
    · have hlast := ih h.2 hmem
      rw [history, List.filter_cons_of_pos (by simpa using (h.1 c hmem).le)]
      rw [history] at hlast
      rw [List.getLast?_cons, hlast]
      rfl

/-- A plan that the strategy makes at the candle, for the side that it signals. -/
structure Plans (candle : Candle) (signal : Signal) (risk : RiskPlan) (side : Side) (atr : ℚ) :
    Prop where
  signalled : sideOf signal = some side
  leeway : Leeway side candle.closePrice atr
  riskPct : 0 < risk.riskPct ∧ risk.riskPct ≤ 1
  stopLoss : risk.stopLoss = stopAt side candle.closePrice (Context.default.mul atr (3 / 2))
  takeProfit : risk.takeProfit = targetAt side candle.closePrice (Context.default.mul atr (3 / 2))
  stopDistance : risk.stopDistance = Context.default.mul atr (3 / 2)

theorem stopAt_eq {signal : Signal} (h : sideOf signal = some side) (close distance : ℚ) :
    (if signal = .buy then Context.default.sub close distance
      else Context.default.add close distance) = stopAt side close distance := by
  cases signal with
  | wait => cases h
  | buy =>
    obtain rfl := Option.some.inj h
    rfl
  | sell =>
    obtain rfl := Option.some.inj h
    rfl

theorem targetAt_eq {signal : Signal} (h : sideOf signal = some side) (close distance : ℚ) :
    (if signal = .buy then Context.default.add close (Context.default.mul distance 2)
      else Context.default.sub close (Context.default.mul distance 2)) =
      targetAt side close distance := by
  cases signal with
  | wait => cases h
  | buy =>
    obtain rfl := Option.some.inj h
    rfl
  | sell =>
    obtain rfl := Option.some.inj h
    rfl

theorem gradeRiskPct_le {grade : Grade} {riskPct : ℚ}
    (h : Strategy.gradeRiskPct grade = some riskPct) : 0 < riskPct ∧ riskPct ≤ 1 := by
  cases grade with
  | aPlus | a =>
    obtain rfl := Option.some.inj h
    norm_num
  | bPlus | reject => cases h

theorem evaluate_plans {candles : List Candle} {candle : Candle} {equity : ℚ}
    {evaluation : Evaluation} {risk : RiskPlan}
    (hsorted : candles.Pairwise fun a b => a.openTime < b.openTime) (hmem : candle ∈ candles)
    (hsignalled : Signalled candles candle)
    (h : Strategy.evaluate .default (history candles candle.openTime) equity = .ok evaluation)
    (hrisk : evaluation.risk = some risk) :
    ∃ side atr, Plans candle evaluation.signal risk side atr := by
  have hclose : (Strategy.indicators .default (history candles candle.openTime)).close =
      candle.closePrice := by
    simp [Strategy.indicators, List.getLast?_map, getLast?_history hsorted hmem]
  rw [Strategy.evaluate] at h
  split at h
  · obtain rfl := pure_eq_ok.1 h
    cases hrisk
  rename_i hlen
  dsimp only at h
  split at h
  · rename_i riskPct hpct
    split at hpct
    · rename_i hsignal
      simp only [bind_eq_ok, map_eq_ok, pure_eq_ok, Strategy.riskPlan] at h
      obtain ⟨_, ⟨plan, ⟨_, -, _, -, rfl⟩, rfl⟩, rfl⟩ := h
      obtain rfl := Option.some.inj hrisk
      obtain ⟨side, hside⟩ : ∃ side, sideOf (Strategy.signal (Strategy.indicators .default
          (history candles candle.openTime))).1 = some side := by
        cases hs : (Strategy.signal (Strategy.indicators .default
          (history candles candle.openTime))).1 with
        | wait => exact absurd hs hsignal.1
        | buy => exact ⟨.buy, rfl⟩
        | sell => exact ⟨.sell, rfl⟩
      refine ⟨side, _, hside, hsignalled (not_lt.1 hlen) hsignal.2 side hside,
        gradeRiskPct_le hpct, ?_, ?_, rfl⟩
      · exact (stopAt_eq hside _ _).trans (by rw [hclose])
      · exact (targetAt_eq hside _ _).trans (by rw [hclose])
    · cases hpct
  · obtain rfl := pure_eq_ok.1 h
    cases hrisk

end IntradayBot.Replay
