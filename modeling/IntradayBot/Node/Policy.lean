import Mathlib.Tactic.Linarith
import Mathlib.Tactic.Positivity
import IntradayBot.Data.Except
import IntradayBot.Node.TradeManager

/-!
# The policy of the trade manager

What the numbers of a cycle are: the levels of a plan (`ManagementPlan.Fits`), and the
quantity of an order that closes a part (`closeQuantity_cases`).
-/

namespace IntradayBot.Node

namespace TradeManager

/-- The levels of a plan are those of the policy, for a trade of the side. -/
structure Fits (side : Side) (plan : ManagementPlan) : Prop where
  initialQty : 0 < plan.initialQty
  averageEntry : 0 < plan.averageEntry
  riskDistance : 0 < plan.riskDistance
  tp1Price : plan.tp1Price = target plan.averageEntry plan.riskDistance side tp1R
  tp2Price : plan.tp2Price = target plan.averageEntry plan.riskDistance side tp2R

/-- The second level lies beyond the first one. -/
theorem Fits.reached_tp1 {side : Side} {plan : ManagementPlan} (h : Fits side plan) {mark : ℚ}
    (hm : reached mark plan.tp2Price side) : reached mark plan.tp1Price side := by
  have hr := h.riskDistance
  rw [h.tp2Price, target] at hm
  rw [h.tp1Price, target]
  rcases side with _ | _ <;> simp only [reached, Side.direction, tp1R, tp2R] at hm ⊢ <;> linarith

/-- What the numbers of a cycle are. -/
theorem observe_eq_ok {payload : Json} {position : PositionRow} {tickers : List TickerRow}
    {instruments : List InstrumentRow} {o : Observation}
    (h : observe payload position tickers instruments = .ok o) :
    ∃ ticker tickers' instruments', tickers = ticker :: tickers' ∧
      instruments = o.instrument :: instruments' ∧
      Json.toNumber (Json.orElse ticker.markPrice ticker.lastPrice) = some o.mark ∧ 0 < o.mark ∧
      Json.toNumber position.size = some o.currentQty ∧ 0 < o.currentQty ∧
      Json.toNumber (Json.orElse position.avgPrice (payload.get "entryReference")) = some o.entry ∧
      0 < o.entry ∧ Json.toNumber (payload.get "technicalStopLoss") = some o.initialStop ∧
      0 < o.initialStop ∧ 0 < o.risk := by
  unfold observe at h
  split at h
  · obtain ⟨mark, hmark, h⟩ := bind_eq_ok.1 h
    obtain ⟨currentQty, hqty, h⟩ := bind_eq_ok.1 h
    obtain ⟨entry, hentry, h⟩ := bind_eq_ok.1 h
    obtain ⟨initialStop, hstop, h⟩ := bind_eq_ok.1 h
    obtain ⟨_, hrisk, h⟩ := bind_eq_ok.1 h
    obtain rfl := Except.ok.inj h
    rw [positiveNumber_eq_ok] at hmark hqty hentry hstop
    exact ⟨_, _, _, rfl, rfl, hmark.1, hmark.2, hqty.1, hqty.2, hentry.1, hentry.2, hstop.1,
      hstop.2, ensure_eq_ok.1 hrisk⟩
  · exact nomatch h

/-- The plan of a management that starts is one of the policy. -/
theorem plan_fits {o : Observation} (hqty : 0 < o.currentQty) (hentry : 0 < o.entry)
    (hrisk : 0 < o.risk) (symbol : String) (side : Side) : Fits side (o.plan symbol side) :=
  ⟨hqty, hentry, hrisk, rfl, rfl⟩

/-! ## Quantities -/

/-- The step of the quantities is not negative. -/
def Stepped (row : InstrumentRow) : Prop :=
  ∀ q, Json.parseNumber (Json.toText (Json.orElse row.qtyStep (some (.str "0")))) = some q → 0 ≤ q

/-- A quantity is rounded down, up to the rounding of the scale. -/
theorem floorToStep_le {value : ℚ} {step : String} (hv : 0 ≤ value)
    (hs : ∀ q, Json.parseNumber step = some q → 0 ≤ q) :
    floorToStep value step ≤ value + 1 / 10 ^ 9 := by
  rw [floorToStep]
  split
  · positivity
  rename_i h
  have hscale : (1 : ℚ) ≤ 10 ^ decimals step := one_le_pow₀ (by norm_num)
  have hpos : (0 : ℚ) < 10 ^ decimals step := lt_of_lt_of_le one_pos hscale
  set units : ℤ := ((Json.parseNumber step).map fun q =>
    roundHalfUp (q * 10 ^ decimals step)).getD 0 with hunits
  have hunits : 0 ≤ units := by
    rw [hunits]
    rcases hq : Json.parseNumber step with _ | q
    · exact le_rfl
    · have := hs q hq
      exact Int.floor_nonneg.2 (by positivity)
  -- Whole units of the step never exceed the scaled value they are taken from.
  have hfloor : (⌊value * 10 ^ decimals step + 1 / 10 ^ 9⌋.fdiv units * units : ℤ) ≤
      ⌊value * 10 ^ decimals step + 1 / 10 ^ 9⌋ := by
    rw [Int.fdiv_eq_ediv_of_nonneg _ hunits]
    exact Int.ediv_mul_le _ fun h0 => h (.inl h0)
  rw [div_le_iff₀ hpos]
  calc ((⌊value * 10 ^ decimals step + 1 / 10 ^ 9⌋.fdiv units * units : ℤ) : ℚ)
      ≤ (⌊value * 10 ^ decimals step + 1 / 10 ^ 9⌋ : ℤ) := by exact_mod_cast hfloor
    _ ≤ value * 10 ^ decimals step + 1 / 10 ^ 9 := Int.floor_le _
    _ ≤ (value + 1 / 10 ^ 9) * 10 ^ decimals step := by
      rw [add_mul]
      have : (1 : ℚ) / 10 ^ 9 * 1 ≤ 1 / 10 ^ 9 * 10 ^ decimals step := by gcongr
      linarith

/-- The quantity closed is the share of the initial one, or all that is left of a position
    that is no larger than the minimum. -/
theorem closeQuantity_cases {initialQty available closePct quantity : ℚ}
    {instrument : InstrumentRow} {action : Action}
    (h : closeQuantity initialQty available instrument action closePct = .ok quantity)
    (hs : Stepped instrument) (hq : 0 ≤ initialQty * closePct / 100) (ha : 0 ≤ available) :
    quantity ≤ initialQty * closePct / 100 + 1 / 10 ^ 9 ∨
      quantity = available ∧ ∃ minQty, Json.numberOrZero instrument.minOrderQty = some minQty ∧
        available ≤ minQty + 1 / 10 ^ 12 := by
  have hfloor : floorToStep (min (initialQty * closePct / 100) available)
      (Json.toText (Json.orElse instrument.qtyStep (some (.str "0")))) ≤
        initialQty * closePct / 100 + 1 / 10 ^ 9 :=
    (floorToStep_le (le_min hq ha) hs).trans (add_le_add_left (min_le_left _ _) _)
  rw [closeQuantity] at h
  split at h
  · rename_i minQty hmin
    split at h
    · split at h
      · obtain rfl := Except.ok.inj h
        exact .inr ⟨rfl, minQty, hmin, ‹_›⟩
      · exact nomatch h
    · exact .inl (Except.ok.inj h ▸ hfloor)
  · exact .inl (Except.ok.inj h ▸ hfloor)

end TradeManager

end IntradayBot.Node
