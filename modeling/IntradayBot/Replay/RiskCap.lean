import IntradayBot.Replay.Exits

/-!
# The risk of an entry

An entry sizes a trade so that its stop loses what the session risks, and not more than its
leverage allows. The prices that it stores have 8 decimals, and the stop-out is calculated from
these. In exact arithmetic, the stored prices lose at most one unit of their last place more, for
each unit that is traded (`openTrade_caps`).
-/

namespace IntradayBot.Replay

open Decimal Simulation

variable {trade : Trade} {candle later : Candle} {decision : Decision} {config : Config}
  {session : Session} {balance equity : ℚ} {requestId : String} {risk : RiskPlan}

/-- A candle does not start past the stop. -/
def NoGap (trade : Trade) (candle : Candle) : Prop :=
  match trade.side with
  | .buy => trade.payload.stopLoss ≤ candle.openPrice
  | .sell => candle.openPrice ≤ trade.payload.stopLoss

/-- A stop without a gap is at the stored level. -/
theorem exitDecision_stopLoss {exit : ExitDecision}
    (h : exitDecision trade candle = .ok (some exit)) (hreason : exit.reason = .stopLoss)
    (hgap : NoGap trade candle) : exit.price = trade.payload.stopLoss := by
  simp only [exitDecision, bind_eq_ok, positive_eq_ok] at h
  obtain ⟨_, ⟨-, rfl⟩, _, ⟨-, rfl⟩, h⟩ := h
  split at h
  · cases h
  simp only [bind_eq_ok, positive_eq_ok] at h
  obtain ⟨_, ⟨-, rfl⟩, _, ⟨-, rfl⟩, _, ⟨-, rfl⟩, h⟩ := h
  rw [NoGap] at hgap
  rcases hside : trade.side with _ | _ <;> rw [hside] at h hgap <;> dsimp only at h hgap
  all_goals
    split at h
    · obtain rfl := Option.some.inj (pure_eq_ok.1 h)
      exact if_neg hgap.not_gt
    split at h
    · obtain rfl := Option.some.inj (pure_eq_ok.1 h)
      cases hreason
    · cases pure_eq_ok.1 h

/-- What is risked, per unit, and the size. -/
theorem Simulation.Sizes.caps {quantity : ℚ} (h : Sizes .exact config equity candle risk quantity)
    (hclose : 0 < candle.closePrice) (hdistance : candle.closePrice ≠ risk.stopLoss) :
    quantity * |candle.closePrice - risk.stopLoss| ≤ equity * risk.riskPct / 100 ∧
      quantity * candle.closePrice ≤ equity * config.maxLeverage := by
  obtain ⟨amount, byRisk, byLeverage, hamount, hbyRisk, hbyLeverage, rfl, hpos⟩ := h
  have hpos' := lt_min_iff.1 hpos
  have hbyRisk' := Context.quantize_le_of_pos (quantizeMoney_eq_ok.1 hbyRisk) hpos'.1
  have hbyLeverage' := Context.quantize_le_of_pos (quantizeMoney_eq_ok.1 hbyLeverage) hpos'.2
  change byRisk ≤ amount / |candle.closePrice - risk.stopLoss| at hbyRisk'
  change byLeverage ≤ equity * config.maxLeverage / candle.closePrice at hbyLeverage'
  have habs : 0 < |candle.closePrice - risk.stopLoss| := abs_pos.2 (sub_ne_zero.2 hdistance)
  have hamountpos : 0 < amount := (div_pos_iff_of_pos_right habs).1 (hpos'.1.trans_le hbyRisk')
  have hamount' := Context.quantize_le_of_pos (quantizeMoney_eq_ok.1 hamount) hamountpos
  constructor
  · calc min byRisk byLeverage * |candle.closePrice - risk.stopLoss|
        ≤ byRisk * |candle.closePrice - risk.stopLoss| :=
          mul_le_mul_of_nonneg_right (min_le_left _ _) habs.le
      _ ≤ amount := (le_div_iff₀ habs).1 hbyRisk'
      _ ≤ equity * risk.riskPct / 100 := hamount'
  · calc min byRisk byLeverage * candle.closePrice ≤ byLeverage * candle.closePrice :=
          mul_le_mul_of_nonneg_right (min_le_right _ _) hclose.le
      _ ≤ equity * config.maxLeverage := (le_div_iff₀ hclose).1 hbyLeverage'

/-- The stored prices are apart by at most one unit of the last place more. -/
theorem Simulation.Opens.distance_le
    (h : Opens .exact config decision candle balance equity risk trade) :
    |trade.payload.stopLoss - trade.entryPrice| ≤
      |candle.closePrice - risk.stopLoss| + 1 / 10 ^ moneyPlaces := by
  have hentry := Context.quantize_le (quantizeMoney_eq_ok.1 h.entryPrice) h.close.le
  have hentry' := Context.lt_quantize (quantizeMoney_eq_ok.1 h.entryPrice) h.close.le
  have hstop := Context.quantize_le (quantizeMoney_eq_ok.1 h.stopLoss) h.positive.1.le
  have hstop' := Context.lt_quantize (quantizeMoney_eq_ok.1 h.stopLoss) h.positive.1.le
  have hleft := neg_abs_le (candle.closePrice - risk.stopLoss)
  have hright := le_abs_self (candle.closePrice - risk.stopLoss)
  rw [abs_le]
  constructor <;> linarith

/-- A trade is opened within the risk and the leverage of the session, its fee is less than the
    balance, and a stop-out loses what is risked at most, but for the decimals of its prices. -/
theorem openTrade_caps
    (h : openTrade .exact config session decision candle balance equity requestId =
      .ok (.opened trade)) :
    0 < trade.quantity ∧ trade.quantity * candle.closePrice ≤ equity * config.maxLeverage ∧
      trade.quantity * trade.entryPrice ≤ equity * config.maxLeverage ∧ trade.fees < balance ∧
      ∃ risk, decision.risk = some risk ∧
        ∀ later exit feeBps available closed delta exitFee payload,
          exitDecision trade later = .ok (some exit) → exit.reason = .stopLoss →
          NoGap trade later →
          closeTrade .exact trade later exit feeBps available = .ok (closed, delta, exitFee) →
          closed.exit = some payload →
          -payload.grossPnl ≤ equity * risk.riskPct / 100 + trade.quantity * (1 / 10 ^ 8) := by
  obtain ⟨risk, hopens⟩ := openTrade_eq_ok h
  have hne : candle.closePrice ≠ risk.stopLoss := by
    have hprotected := hopens.protected_
    rcases hside : trade.side with _ | _ <;> rw [hside] at hprotected
    · exact hprotected.1.ne'
    · exact hprotected.2.ne
  have hquantity : 0 < trade.quantity := by
    obtain ⟨_, _, _, -, -, -, -, hpos⟩ := hopens.sizes
    exact hpos
  obtain ⟨hrisk, hleverage⟩ := hopens.sizes.caps hopens.close hne
  have hentry := Context.quantize_le (quantizeMoney_eq_ok.1 hopens.entryPrice) hopens.close.le
  refine ⟨hquantity, hleverage, (mul_le_mul_of_nonneg_left hentry hquantity.le).trans hleverage,
    hopens.affordable, risk, hopens.planned, ?_⟩
  intro later exit feeBps available closed delta exitFee payload hexit hreason hgap hclose hpayload
  obtain ⟨payload', hcloses, -, -⟩ := closeTrade_eq_ok hclose
  obtain rfl : payload' = payload := by
    obtain ⟨_, -, heq⟩ := hcloses.closed_eq
    rw [heq] at hpayload
    exact Option.some.inj hpayload
  have hgross := hcloses.gross
  rw [exitDecision_stopLoss hexit hreason hgap, grossPnl, quantizeMoney_eq_ok] at hgross
  -- The loss of a stop is quantity times distance, and the rounded entry moves the distance by a
  -- unit.
  have habs : |payload'.grossPnl| ≤
      trade.quantity * |trade.payload.stopLoss - trade.entryPrice| := by
    refine (Context.abs_quantize_le hgross).trans_eq ?_
    change |(trade.payload.stopLoss - trade.entryPrice) * trade.quantity * direction trade.side| = _
    have hdirection : |direction trade.side| = 1 := by
      rcases trade.side with _ | _ <;> simp [direction]
    rw [abs_mul, hdirection, mul_one, abs_mul, abs_of_pos hquantity, mul_comm]
  calc -payload'.grossPnl ≤ |payload'.grossPnl| := neg_le_abs _
    _ ≤ trade.quantity * |trade.payload.stopLoss - trade.entryPrice| := habs
    _ ≤ trade.quantity * (|candle.closePrice - risk.stopLoss| + 1 / 10 ^ moneyPlaces) :=
        mul_le_mul_of_nonneg_left hopens.distance_le hquantity.le
    _ = trade.quantity * |candle.closePrice - risk.stopLoss| +
        trade.quantity * (1 / 10 ^ moneyPlaces) := mul_add _ _ _
    _ ≤ equity * risk.riskPct / 100 + trade.quantity * (1 / 10 ^ 8) :=
        add_le_add_left hrisk _

/-- The trade that an entry opened. -/
def Simulation.Entry.trade? : Entry → Option Trade
  | .opened trade => some trade
  | .skipped _ => none

/-- A decision to buy with a stop of more than 8 decimals. -/
def fineDecision : Decision where
  evaluated := true
  signal := .buy
  grade := .a
  eligible := true
  risk := some {
    riskPct := 1
    riskAmount := 10
    entryPrice := 100
    stopLoss := 951234567899 / 10000000000
    takeProfit := 120
    stopDistance := 5
    quantity := 2 }
  historyCandles := 60
  indicators := none
  candleOpenTime := 600000
  strategyMode := .balanced
  requestId := "a"

/-- A candle that reaches the stop. -/
def fineStop : Candle := candleOf 900000 100 101 90 92

/-- It opens a trade, within the leverage, and the stop loses what is risked at most. -/
theorem openTrade_caps_fine : ∃ config trade exit closed delta exitFee payload,
    executionConfig fineSession.config = .ok config ∧
    openTrade .exact config fineSession fineDecision (candleOf 600000 100 100 100 100) 1000 1000
      "a" = .ok (.opened trade) ∧
    exitDecision trade fineStop = .ok (some exit) ∧
    closeTrade .exact trade fineStop exit config.feeBps 1000 = .ok (closed, delta, exitFee) ∧
    closed.exit = some payload ∧ trade.quantity * 100 ≤ 3000 ∧
    -payload.grossPnl ≤ 10 + trade.quantity * (1 / 10 ^ 8) := by
  have h : (executionConfig fineSession.config).toOption.any fun config => decide
      (config.maxLeverage.1 = 3 ∧ (openTrade .exact config fineSession fineDecision
        (candleOf 600000 100 100 100 100) 1000 1000 "a").toOption.any fun entry =>
          entry.trade?.any fun trade => decide (trade.side = .buy ∧
            trade.payload.stopLoss ≤ fineStop.openPrice ∧
            (exitDecision trade fineStop).toOption.any fun exit => exit.any fun exit => decide
              (exit.reason = .stopLoss ∧ (closeTrade .exact trade fineStop exit config.feeBps
                1000).toOption.any fun p => p.1.exit.isSome))) := by
    decide +kernel
  obtain ⟨config, hconfig, h⟩ := any_toOption.1 h
  obtain ⟨hleverage, h⟩ := of_decide_eq_true h
  obtain ⟨entry, hentry, h⟩ := any_toOption.1 h
  obtain ⟨trade, htrade, h⟩ := (Option.any_eq_true _ _).1 h
  obtain ⟨hside, hopen, h⟩ := of_decide_eq_true h
  obtain ⟨decided, hexit, h⟩ := any_toOption.1 h
  obtain ⟨exit, rfl, h⟩ := (Option.any_eq_true _ _).1 h
  obtain ⟨hreason, h⟩ := of_decide_eq_true h
  obtain ⟨⟨closed, delta, exitFee⟩, hclose, h⟩ := any_toOption.1 h
  obtain ⟨payload, hpayload⟩ := Option.isSome_iff_exists.1 h
  have hgap : NoGap trade fineStop := by
    rw [NoGap, hside]
    exact hopen
  obtain rfl : entry = .opened trade := by
    cases entry with
    | opened trade' => rw [Option.some.inj htrade]
    | skipped reason => cases htrade
  obtain ⟨-, hcap, -, -, risk, hrisk, hstop⟩ := openTrade_caps hentry
  have hloss := hstop _ _ _ _ _ _ _ _ hexit hreason hgap hclose hpayload
  obtain rfl := Option.some.inj hrisk
  rw [hleverage] at hcap
  exact ⟨config, trade, exit, closed, delta, exitFee, payload, hconfig, hentry, hexit, hclose,
    hpayload, hcap.trans_eq (by norm_num), hloss.trans_eq (by norm_num)⟩

end IntradayBot.Replay
