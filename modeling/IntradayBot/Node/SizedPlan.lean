import IntradayBot.Data.Except
import IntradayBot.Node.Rounding

/-!
# The plan of a sized candidate

What `buildLiveExecutionPlan` has found true of the exchange when it returns a plan, and the
numbers that it returns (`Plan`, `buildLiveExecutionPlan_eq_ok`): on which side of the mark the
stop and the target are, and what the quantity was checked against.
-/

namespace IntradayBot.Node

namespace LiveSizer

theorem positive_eq_ok {value : Field} {label : String} {q : ℚ} :
    positive value label = .ok q ↔ Json.toNumber value = some q ∧ 0 < q := by
  rw [positive]
  rcases Json.toNumber value with _ | r
  · simp
  · by_cases hr : 0 < r
    · simp only [hr, if_true, Except.ok.injEq, Option.some.injEq]
      exact ⟨fun h => ⟨h, h ▸ hr⟩, fun h => h.1⟩
    · simp only [hr, if_false, reduceCtorEq, Option.some.injEq, false_iff]
      rintro ⟨rfl, hq⟩
      exact hr hq

theorem firstRow_eq_ok {α : Type} {rows : List α} {code : WaitCode} {message : String} {row : α} :
    firstRow rows code message = .ok row ↔ rows.head? = some row := by
  rcases rows with _ | ⟨r, rows⟩ <;> simp [firstRow]

theorem availableBalance_eq_ok {wallet : WalletRow} {q : ℚ} :
    availableBalance wallet = .ok q ↔
      Json.toNumber wallet.totalAvailableBalance = some q ∧ 0 ≤ q := by
  rw [availableBalance]
  rcases Json.toNumber wallet.totalAvailableBalance with _ | r
  · simp
  · by_cases hr : 0 ≤ r
    · simp only [hr, if_true, Except.ok.injEq, Option.some.injEq]
      exact ⟨fun h => ⟨h, h ▸ hr⟩, fun h => h.1⟩
    · simp only [hr, if_false, reduceCtorEq, Option.some.injEq, false_iff]
      rintro ⟨rfl, hq⟩
      exact hr hq

/-! ## What a plan is made from -/

/-- The tick of the prices of an instrument. -/
def tickOf (truth : Truth) : Option ℚ :=
  Json.numberOrZero (truth.instrument.head?.bind InstrumentRow.tickSize)

/-- The numbers that a plan is made from. -/
structure Plan where
  instrument : InstrumentRow
  equity : ℚ
  available : ℚ
  mark : ℚ
  entryReference : ℚ
  technical : TechnicalPlan
  rules : QuantityRules
  leverage : ℚ
  sizing : Sizing

/-- The margin that is left beside the other candidates. -/
def Plan.remaining (x : Plan) (truth : Truth) : ℚ :=
  max 0 (x.available - truth.pendingReservedMargin.getD 0)

/-- The numbers of a plan are those of the exchange, and pass the checks. -/
structure Made (payload : Json) (truth : Truth) (config : Config) (nowSeconds : ℕ) (x : Plan) :
    Prop where
  instrument : truth.instrument.head? = some x.instrument
  wallet : ∃ wallet, truth.wallet.head? = some wallet ∧
    Json.toNumber wallet.totalEquity = some x.equity ∧
    Json.toNumber wallet.totalAvailableBalance = some x.available
  ticker : ∃ ticker, truth.ticker.head? = some ticker ∧
    Json.toNumber (Json.orElse ticker.markPrice ticker.lastPrice) = some x.mark
  reference : Json.toNumber (payload.get "entryReference") = some x.entryReference
  equity_pos : 0 < x.equity
  available_nonneg : 0 ≤ x.available
  mark_pos : 0 < x.mark
  reference_pos : 0 < x.entryReference
  created : candidateCreatedSeconds payload ≠ 0
  fresh : nowSeconds - candidateCreatedSeconds payload ≤ config.maxCandidateAgeSeconds
  drift : |x.mark - x.entryReference| / x.entryReference * 100 ≤
    config.maxEntryDriftPct + 1 / 10 ^ 12
  technical : technicalPlan payload truth config x.mark (nowSeconds * 1000) = .ok x.technical
  rules : quantityRules x.instrument = .ok x.rules
  leverage : planLeverage config x.instrument = .ok x.leverage
  sizing : sizePlan (x.equity / 100) (x.equity / 100 / x.technical.stopDistance) x.available
    x.mark x.technical.stopDistance x.leverage (truth.pendingReservedMargin.getD 0) x.rules =
      .ok x.sizing

/-- The payload with the numbers of a plan. -/
def Plan.sized (x : Plan) (payload : Json) (truth : Truth) (nowSeconds : ℕ) : Json :=
  payload.setAll (sizedProps x.mark x.entryReference
    (|x.mark - x.entryReference| / x.entryReference * 100) x.equity x.available x.leverage
    (truth.pendingReservedMargin.getD 0) nowSeconds x.technical x.rules x.sizing)

variable {payload plan : Json} {truth : Truth} {config : Config} {nowSeconds : ℕ}

theorem buildLiveExecutionPlan_eq_ok
    (h : buildLiveExecutionPlan payload truth config nowSeconds = .ok plan) :
    ∃ x, Made payload truth config nowSeconds x ∧ plan = x.sized payload truth nowSeconds := by
  -- The plan runs through without an error, so every step of it gave a value.
  obtain ⟨wallet, hwallet, h⟩ := bind_eq_ok.1 h
  obtain ⟨instrument, hinstrument, h⟩ := bind_eq_ok.1 h
  obtain ⟨ticker, hticker, h⟩ := bind_eq_ok.1 h
  obtain ⟨_, -, h⟩ := bind_eq_ok.1 h
  obtain ⟨_, hfresh, h⟩ := bind_eq_ok.1 h
  obtain ⟨equity, hequity, h⟩ := bind_eq_ok.1 h
  obtain ⟨available, havailable, h⟩ := bind_eq_ok.1 h
  obtain ⟨mark, hmark, h⟩ := bind_eq_ok.1 h
  obtain ⟨entryReference, hreference, h⟩ := bind_eq_ok.1 h
  obtain ⟨_, hdrift, h⟩ := bind_eq_ok.1 h
  obtain ⟨_, -, h⟩ := bind_eq_ok.1 h
  obtain ⟨technical, htechnical, h⟩ := bind_eq_ok.1 h
  obtain ⟨_, -, h⟩ := bind_eq_ok.1 h
  obtain ⟨rules, hrules, h⟩ := bind_eq_ok.1 h
  obtain ⟨leverage, hleverage, h⟩ := bind_eq_ok.1 h
  obtain ⟨sizing, hsizing, h⟩ := bind_eq_ok.1 h
  rw [firstRow_eq_ok] at hwallet hinstrument hticker
  rw [positive_eq_ok] at hequity hmark hreference
  rw [availableBalance_eq_ok] at havailable
  rw [await_eq_ok] at hfresh hdrift
  exact ⟨⟨instrument, equity, available, mark, entryReference, technical, rules, leverage, sizing⟩,
    { instrument := hinstrument
      wallet := ⟨wallet, hwallet, hequity.1, havailable.1⟩
      ticker := ⟨ticker, hticker, hmark.1⟩
      reference := hreference.1
      equity_pos := hequity.2
      available_nonneg := havailable.2
      mark_pos := hmark.2
      reference_pos := hreference.2
      created := hfresh.1
      fresh := hfresh.2.1
      drift := hdrift
      technical := htechnical
      rules := hrules
      leverage := hleverage
      sizing := hsizing }, (pure_eq_ok.1 h).symm⟩

/-- The plan returned has the numbers of `x`. -/
structure Returned (plan : Json) (x : Plan) : Prop where
  qty : plan.get "qty" = some (.str (Json.numberText x.sizing.qty))
  stop : plan.get "technicalStopLoss" = some (.num x.technical.technicalStopLoss)
  take : plan.get "takeProfitReference" = some (.num x.technical.takeProfitReference)
  leverage : plan.get "leverage" = some (.num x.leverage)
  mark : plan.get "executableMarkPrice" = some (.num x.mark)

theorem sized_returned (x : Plan) : Returned (x.sized payload truth nowSeconds) x where
  qty := by simp [Plan.sized, sizedProps]
  stop := by simp [Plan.sized, sizedProps]
  take := by simp [Plan.sized, sizedProps]
  leverage := by simp [Plan.sized, sizedProps]
  mark := by simp [Plan.sized, sizedProps]

/-! ## The parts of a plan -/

/-- The limits of a quantity are positive. -/
theorem quantityRules_eq_ok {instrument : InstrumentRow} {rules : QuantityRules}
    (h : quantityRules instrument = .ok rules) :
    Json.limitOrZero instrument.qtyStep = some rules.qtyStep ∧
      Json.limitOrZero instrument.minOrderQty = some rules.minOrderQty ∧
      0 < rules.qtyStep ∧ 0 < rules.minOrderQty ∧ 0 < rules.maxOrderQty := by
  rw [quantityRules] at h
  split at h
  · rename_i qtyStep minOrderQty maxOrderQty hstep hmin hmax
    obtain ⟨_, hpos, h⟩ := bind_eq_ok.1 h
    rw [await_eq_ok] at hpos
    obtain rfl := pure_eq_ok.1 h
    exact ⟨hstep, hmin, hpos⟩
  · exact nomatch h

theorem finiteRules_eq_ok {rules : QuantityRules} {p : ℚ × ℚ} (h : finiteRules rules = .ok p) :
    rules.qtyStep = (p.1 : WithTop ℚ) ∧ rules.minOrderQty = (p.2 : WithTop ℚ) := by
  rw [finiteRules] at h
  split at h
  · rename_i hstep hmin
    obtain rfl := Except.ok.inj h
    exact ⟨hstep, hmin⟩
  · exact nomatch h

theorem planLeverage_eq_ok {instrument : InstrumentRow} {leverage : ℚ}
    (h : planLeverage config instrument = .ok leverage) : 0 < leverage ∧ leverage ≤ 10 := by
  rw [planLeverage] at h
  split at h
  · obtain ⟨_, -, h⟩ := bind_eq_ok.1 h
    obtain ⟨_, hpos, h⟩ := bind_eq_ok.1 h
    rw [await_eq_ok] at hpos
    obtain rfl := pure_eq_ok.1 h
    exact ⟨hpos, min_le_right _ _⟩
  · exact nomatch h

/-- The quantity before it is rounded. -/
def unroundedQty (rawRiskQty available mark leverage pendingReservedMargin : ℚ)
    (rules : QuantityRules) : ℚ :=
  min (min rawRiskQty (rules.maxOrderQty.untopD rawRiskQty))
    (max 0 (available - pendingReservedMargin) * leverage / mark)

/-- What the checks of a quantity have found true. -/
structure Sized (riskBudgetUsdt rawRiskQty available mark stopDistance leverage
    pendingReservedMargin : ℚ) (rules : QuantityRules) (sizing : Sizing) : Prop where
  step : rules.qtyStep = (sizing.qtyStep : WithTop ℚ)
  min : rules.minOrderQty = (sizing.minOrderQty : WithTop ℚ)
  qty : sizing.qty = floorToStep
    (unroundedQty rawRiskQty available mark leverage pendingReservedMargin rules) sizing.qtyStep
  qty_pos : 0 < sizing.qty
  min_le : sizing.minOrderQty ≤ sizing.qty + 1 / 10 ^ 12
  risk : sizing.qty * stopDistance ≤ riskBudgetUsdt + max (1 / 10 ^ 8) (riskBudgetUsdt / 10 ^ 9)
  margin : sizing.qty * mark / leverage ≤ max 0 (available - pendingReservedMargin) + 1 / 10 ^ 8

theorem sizePlan_eq_ok {riskBudgetUsdt rawRiskQty available mark stopDistance leverage
    pendingReservedMargin : ℚ} {rules : QuantityRules} {sizing : Sizing}
    (h : sizePlan riskBudgetUsdt rawRiskQty available mark stopDistance leverage
      pendingReservedMargin rules = .ok sizing) :
    Sized riskBudgetUsdt rawRiskQty available mark stopDistance leverage pendingReservedMargin
      rules sizing := by
  obtain ⟨_, -, h⟩ := bind_eq_ok.1 h
  obtain ⟨⟨qtyStep, minOrderQty⟩, hfinite, h⟩ := bind_eq_ok.1 h
  obtain ⟨_, hqty, h⟩ := bind_eq_ok.1 h
  obtain ⟨_, -, h⟩ := bind_eq_ok.1 h
  obtain ⟨_, hrisk, h⟩ := bind_eq_ok.1 h
  obtain ⟨_, hmargin, h⟩ := bind_eq_ok.1 h
  rw [await_eq_ok] at hqty hrisk hmargin
  obtain rfl := pure_eq_ok.1 h
  obtain ⟨hstep, hmin⟩ := finiteRules_eq_ok hfinite
  exact ⟨hstep, hmin, rfl, hqty.1, hqty.2, hrisk, hmargin⟩

/-- The step of a plan is that of the instrument, and positive. -/
theorem Made.step_pos {x : Plan} (h : Made payload truth config nowSeconds x) :
    0 < x.sizing.qtyStep := by
  obtain ⟨-, -, hpos, -⟩ := quantityRules_eq_ok h.rules
  rw [(sizePlan_eq_ok h.sizing).step] at hpos
  exact WithTop.coe_pos.1 hpos

/-- The prices of a structural plan: the stop and the target come from rounding, on the side
    of the trade. -/
theorem structuralPrices_eq_ok {structural : List Candle} {tickSize : Field} {mark stop take : ℚ}
    {buy : Bool} (h : structuralPrices config buy structural tickSize mark = .ok (stop, take)) :
    (buy = true ∧ 0 < stop ∧ stop < mark ∧
        (∃ low, stop = floorPrice low (Json.numberOrZero tickSize)) ∧
        take = ceilPrice (mark + (mark - stop) * 2) (Json.numberOrZero tickSize)) ∨
      (buy = false ∧ mark < stop ∧ 0 < take ∧
        (∃ high, stop = ceilPrice high (Json.numberOrZero tickSize)) ∧
        take = floorPrice (mark - (stop - mark) * 2) (Json.numberOrZero tickSize)) := by
  rw [structuralPrices, config.minimumGrossRr_eq] at h
  rcases buy with _ | _
  · obtain ⟨_, hstop, h⟩ := bind_eq_ok.1 h
    obtain ⟨_, htake, h⟩ := bind_eq_ok.1 h
    rw [await_eq_ok] at hstop htake
    obtain ⟨rfl, rfl⟩ := Prod.mk.inj (pure_eq_ok.1 h)
    exact .inr ⟨rfl, hstop.2, htake, ⟨_, rfl⟩, rfl⟩
  · obtain ⟨_, hstop, h⟩ := bind_eq_ok.1 h
    rw [await_eq_ok] at hstop
    obtain ⟨rfl, rfl⟩ := Prod.mk.inj (pure_eq_ok.1 h)
    exact .inl ⟨rfl, hstop.2.1, hstop.2.2, ⟨_, rfl⟩, rfl⟩

theorem technicalPlan_eq_ok {mark nowMs : ℚ} {t : TechnicalPlan}
    (h : technicalPlan payload truth config mark nowMs = .ok t) :
    (∃ structural, structuralPrices config (Json.isText "Buy" (payload.get "side")) structural
        (truth.instrument.head?.bind InstrumentRow.tickSize) mark =
          .ok (t.technicalStopLoss, t.takeProfitReference)) ∧
      t.stopDistance = |mark - t.technicalStopLoss| ∧ 0 < t.stopDistance ∧
      2 ≤ |t.takeProfitReference - mark| / t.stopDistance + 1 / 10 ^ 9 := by
  obtain ⟨_, -, h⟩ := bind_eq_ok.1 h
  obtain ⟨⟨stop, take⟩, hprices, h⟩ := bind_eq_ok.1 h
  obtain ⟨_, hreward, h⟩ := bind_eq_ok.1 h
  rw [await_eq_ok, config.minimumGrossRr_eq] at hreward
  obtain rfl := pure_eq_ok.1 h
  exact ⟨⟨_, hprices⟩, rfl, hreward.1, hreward.2⟩

/-- The sides of a plan: its stop is below the mark, or above it. -/
theorem Made.sides {x : Plan} (h : Made payload truth config nowSeconds x) :
    (Json.isText "Buy" (payload.get "side") = true ∧ 0 < x.technical.technicalStopLoss ∧
        x.technical.technicalStopLoss < x.mark ∧
        (∃ low, x.technical.technicalStopLoss = floorPrice low (tickOf truth)) ∧
        x.technical.takeProfitReference =
          ceilPrice (x.mark + (x.mark - x.technical.technicalStopLoss) * 2) (tickOf truth)) ∨
      (Json.isText "Buy" (payload.get "side") = false ∧ x.mark < x.technical.technicalStopLoss ∧
        0 < x.technical.takeProfitReference ∧
        (∃ high, x.technical.technicalStopLoss = ceilPrice high (tickOf truth)) ∧
        x.technical.takeProfitReference =
          floorPrice (x.mark - (x.technical.technicalStopLoss - x.mark) * 2) (tickOf truth)) := by
  obtain ⟨⟨structural, hprices⟩, -⟩ := technicalPlan_eq_ok h.technical
  exact structuralPrices_eq_ok hprices

/-- The numbers of a plan give it, unless the exposure or the age of the candidate forbids it. -/
theorem Made.returned {x : Plan} (h : Made payload truth config nowSeconds x)
    (hstatus : Json.textOrEmpty x.instrument.status = "Trading")
    (hfuture : candidateCreatedSeconds payload - nowSeconds ≤ (30 : ℚ))
    (hexposure : checkExposure payload truth config = .ok ()) :
    buildLiveExecutionPlan payload truth config nowSeconds =
      .ok (x.sized payload truth nowSeconds) := by
  obtain ⟨wallet, hwallet, hequity, havailable⟩ := h.wallet
  obtain ⟨ticker, hticker, hmark⟩ := h.ticker
  obtain ⟨-, -, hdistance, -⟩ := technicalPlan_eq_ok h.technical
  have hraw : 0 < x.equity / 100 / x.technical.stopDistance :=
    div_pos (div_pos h.equity_pos (by norm_num)) hdistance
  exact bind_eq_ok.2 ⟨wallet, firstRow_eq_ok.2 hwallet,
    bind_eq_ok.2 ⟨x.instrument, firstRow_eq_ok.2 h.instrument,
    bind_eq_ok.2 ⟨ticker, firstRow_eq_ok.2 hticker, bind_eq_ok.2 ⟨(), await_eq_ok.2 hstatus,
    bind_eq_ok.2 ⟨(), await_eq_ok.2 ⟨h.created, h.fresh, hfuture⟩,
    bind_eq_ok.2 ⟨x.equity, positive_eq_ok.2 ⟨hequity, h.equity_pos⟩,
    bind_eq_ok.2 ⟨x.available, availableBalance_eq_ok.2 ⟨havailable, h.available_nonneg⟩,
    bind_eq_ok.2 ⟨x.mark, positive_eq_ok.2 ⟨hmark, h.mark_pos⟩,
    bind_eq_ok.2 ⟨x.entryReference, positive_eq_ok.2 ⟨h.reference, h.reference_pos⟩,
    bind_eq_ok.2 ⟨(), await_eq_ok.2 h.drift, bind_eq_ok.2 ⟨(), hexposure,
    bind_eq_ok.2 ⟨_, h.technical, bind_eq_ok.2 ⟨(), await_eq_ok.2 hraw,
    bind_eq_ok.2 ⟨_, h.rules, bind_eq_ok.2 ⟨_, h.leverage,
    bind_eq_ok.2 ⟨_, h.sizing, rfl⟩⟩⟩⟩⟩⟩⟩⟩⟩⟩⟩⟩⟩⟩⟩⟩

/-- A plan is made from one set of numbers. -/
theorem Made.unique {x y : Plan} (hx : Made payload truth config nowSeconds x)
    (hy : Made payload truth config nowSeconds y) : x = y := by
  obtain ⟨wallet, hwallet, hequity, havailable⟩ := hx.wallet
  obtain ⟨wallet', hwallet', hequity', havailable'⟩ := hy.wallet
  obtain ⟨ticker, hticker, hmark⟩ := hx.ticker
  obtain ⟨ticker', hticker', hmark'⟩ := hy.ticker
  obtain rfl := Option.some.inj (hwallet.symm.trans hwallet')
  obtain rfl := Option.some.inj (hticker.symm.trans hticker')
  obtain ⟨instrument, equity, available, mark, reference, technical, rules, leverage, sizing⟩ := x
  obtain rfl := Option.some.inj (hx.instrument.symm.trans hy.instrument)
  obtain rfl := Option.some.inj (hequity.symm.trans hequity')
  obtain rfl := Option.some.inj (havailable.symm.trans havailable')
  obtain rfl := Option.some.inj (hmark.symm.trans hmark')
  obtain rfl := Option.some.inj (hx.reference.symm.trans hy.reference)
  obtain rfl := Except.ok.inj (hx.technical.symm.trans hy.technical)
  obtain rfl := Except.ok.inj (hx.rules.symm.trans hy.rules)
  obtain rfl := Except.ok.inj (hx.leverage.symm.trans hy.leverage)
  obtain rfl := Except.ok.inj (hx.sizing.symm.trans hy.sizing)
  rfl

/-! ## The sides of the prices -/

section

variable {tick : Option ℚ} {mark stop take : ℚ}

/-- The target of a buy is above the mark: were it not, it would be below the stop, a whole
    tick away from what it was rounded up from. -/
theorem lt_take_of_buy (hmark : 0 < mark) (hstop : stop < mark)
    (hfloor : ∃ low, stop = floorPrice low tick)
    (htake : take = ceilPrice (mark + (mark - stop) * 2) tick)
    (hreward : 2 ≤ |take - mark| / |mark - stop| + 1 / 10 ^ 9) : mark < take := by
  obtain ⟨low, hlow⟩ := hfloor
  rw [floorPrice_eq] at hlow
  rw [ceilPrice_eq] at htake
  rcases hp : positiveTick tick with _ | t
  · simp only [hp, Option.elim_none] at htake
    linarith
  · simp only [hp, Option.elim_some] at hlow htake
    have hpos := positiveTick_pos hp
    obtain ⟨m, hm⟩ := exists_floorToStep hpos low
    obtain ⟨k, -, hk, -, hup⟩ :=
      floorToStep_spec hpos (show 0 < mark + (mark - stop) * 2 by linarith)
    have hle := floorToStep_le_ceilToStep hpos (mark + (mark - stop) * 2)
    rw [← htake, hk] at hle
    by_contra hlt
    have hdist : 0 < mark - stop := by linarith
    rw [abs_of_pos hdist, abs_of_nonpos (by linarith), ← sub_le_iff_le_add, le_div_iff₀ hdist]
      at hreward
    have hkm : k < m := by
      have hkm : (k : ℚ) * counted t < m * counted t := by
        rw [← hm, ← hlow]
        linarith
      exact_mod_cast lt_of_mul_lt_mul_right hkm (counted_pos t).le
    have hgap : ((k : ℚ) + 1) * counted t ≤ m * counted t :=
      mul_le_mul_of_nonneg_right (by exact_mod_cast hkm) (counted_pos t).le
    rw [← hm, ← hlow] at hgap
    linarith

/-- The target of a sell is below the mark. -/
theorem take_lt_of_sell (ht : TickCounted tick) (hstop : mark < stop) (hpos : 0 < take)
    (hceil : ∃ high, stop = ceilPrice high tick)
    (htake : take = floorPrice (mark - (stop - mark) * 2) tick)
    (hreward : 2 ≤ |take - mark| / |mark - stop| + 1 / 10 ^ 9) : take < mark := by
  obtain ⟨high, hhigh⟩ := hceil
  rw [ceilPrice_eq] at hhigh
  rw [floorPrice_eq] at htake
  rcases hp : positiveTick tick with _ | t
  · simp only [hp, Option.elim_none] at htake
    linarith
  · simp only [hp, Option.elim_some] at hhigh htake
    have htpos := positiveTick_pos hp
    obtain ⟨m, hm⟩ := exists_ceilToStep htpos (ht.counted hp) high
    obtain ⟨k, -, hk, hle, -⟩ := floorToStep_spec htpos (pos_of_floorToStep (htake ▸ hpos)).2
    rw [← htake] at hk
    by_contra hlt
    have hdist : 0 < stop - mark := by linarith
    rw [abs_sub_comm mark, abs_of_pos hdist, abs_of_nonneg (by linarith), ← sub_le_iff_le_add,
      le_div_iff₀ hdist] at hreward
    -- Stop and target are ticks `m` and `k`: were the target not below the mark, a whole tick
    -- would lie between them.
    have hkm : m < k := by
      have hkm : (m : ℚ) * counted t < k * counted t := by
        rw [← hk, ← hm, ← hhigh]
        linarith
      exact_mod_cast lt_of_mul_lt_mul_right hkm (counted_pos t).le
    have hgap : ((m : ℚ) + 1) * counted t ≤ k * counted t :=
      mul_le_mul_of_nonneg_right (by exact_mod_cast hkm) (counted_pos t).le
    have hunit := unit_le_counted t
    have hsmall : 1 / 10 ^ 9 / scale t < 1 / scale t :=
      div_lt_div_of_pos_right (by norm_num) (scale_pos t)
    rw [← hk] at hgap hle
    rw [add_mul, ← hm, ← hhigh, one_mul] at hgap
    linarith

/-- The mark is a whole number of ticks, as they are counted. -/
def OnTick (tick : Option ℚ) (mark : ℚ) : Prop :=
  ∀ t ∈ positiveTick tick, ∃ k : ℤ, mark = k * counted t

/-- From a mark on the tick, the target of a buy is not rounded. -/
theorem take_of_buy (hmark : 0 < mark) (hstop : stop < mark) (hon : OnTick tick mark)
    (hfloor : ∃ low, stop = floorPrice low tick) :
    ceilPrice (mark + (mark - stop) * 2) tick = mark + (mark - stop) * 2 := by
  obtain ⟨low, hlow⟩ := hfloor
  rw [floorPrice_eq] at hlow
  rw [ceilPrice_eq]
  rcases hp : positiveTick tick with _ | t
  · rfl
  · simp only [hp, Option.elim_some] at hlow ⊢
    obtain ⟨k, hk⟩ := hon t hp
    obtain ⟨m, hm⟩ := exists_floorToStep (positiveTick_pos hp) low
    have hvalue : mark + (mark - stop) * 2 = (3 * k - 2 * m : ℤ) * counted t := by
      rw [hlow, hm, hk]
      push_cast
      ring
    have hfloor := floorToStep_mul (positiveTick_pos hp) (m := 3 * k - 2 * m)
      (by rw [← hvalue]; linarith)
    rw [hvalue, ceilToStep, hfloor, if_pos (by linarith [show (0 : ℚ) < 1 / 10 ^ 12 by norm_num])]

/-- From a mark on the tick, the target of a sell is not rounded. -/
theorem take_of_sell (ht : TickCounted tick) (hon : OnTick tick mark)
    (hpos : 0 < floorPrice (mark - (stop - mark) * 2) tick)
    (hceil : ∃ high, stop = ceilPrice high tick) :
    floorPrice (mark - (stop - mark) * 2) tick = mark - (stop - mark) * 2 := by
  obtain ⟨high, hhigh⟩ := hceil
  rw [ceilPrice_eq] at hhigh
  rw [floorPrice_eq] at hpos ⊢
  rcases hp : positiveTick tick with _ | t
  · rfl
  · simp only [hp, Option.elim_some] at hhigh hpos ⊢
    obtain ⟨k, hk⟩ := hon t hp
    obtain ⟨m, hm⟩ := exists_ceilToStep (positiveTick_pos hp) (ht.counted hp) high
    have hvalue : mark - (stop - mark) * 2 = (3 * k - 2 * m : ℤ) * counted t := by
      rw [hhigh, hm, hk]
      push_cast
      ring
    have hfloor := floorToStep_mul (positiveTick_pos hp) (m := 3 * k - 2 * m)
      (by rw [← hvalue]; exact (pos_of_floorToStep hpos).2)
    rw [hvalue, hfloor]

end

/-! ## An example -/

/-- A candidate of 17 minutes after the epoch. -/
def examplePayload : Json := .obj
  [("symbol", .str "BTCUSDT"), ("side", .str "Buy"), ("createdAt", .num 1000),
    ("entryReference", .num 100)]

/-- An account of 1000 USDT and an instrument, at the price of `mark`. -/
def exampleTruth (mark tickSize qtyStep minOrderQty : String) (maxOrderQty : Field) : Truth where
  wallet := [⟨some (.num 1000), some (.num 1000)⟩]
  instrument := [{
    status := some (.str "Trading")
    tickSize := some (.str tickSize)
    qtyStep := some (.str qtyStep)
    minOrderQty := some (.str minOrderQty)
    maxMktOrderQty := maxOrderQty
    maxMarketOrderQty := none
    maxOrderQty := none
    minNotionalValue := none
    maxLeverage := none }]
  ticker := [⟨some (.str mark), none⟩]
  positions := []
  activeOrders := []
  kline15m := [1, 2, 3].map fun time => ⟨some (.num time), some (.num 101), some (.num 99)⟩
  pendingReservedMargin := none
  orderLinkId := .entry "BTCUSDT"

end LiveSizer

end IntradayBot.Node
