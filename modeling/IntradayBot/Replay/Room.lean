import IntradayBot.Replay.Accounting
import IntradayBot.Replay.Partition

/-!
# Room for the amounts of a simulation

The amounts of a replay have 8 decimals, and 28 digits at most: what has more raises. A candle goes
through if its prices are positive and there is room for all that it computes, when a trade leaves
(`Ready.leave`), when one is entered (`Ready.enters`) and when the account is marked (`Ready.marks`).
-/

namespace IntradayBot.Replay

open Decimal Engine Simulation

variable {ctx : Context} {db db' : Db} {n k : ℕ} {plan : Plan} {candle : Candle} {sim sim' : Sim}
  {trade : Trade} {trades : List Trade} {initial : ℚ} {time : ℤ} {risk : RiskPlan}

/-! ## Conditions -/

/-- The fees of the trades. -/
def feesSum (trades : List Trade) : ℚ := (trades.map (·.fees)).sum

/-- The strategy can size the plan for an account of so much equity. -/
def Affords (ctx : Context) (equity : ℚ) (risk : RiskPlan) : Prop :=
  ctx.Room moneyPlaces (ctx.div (ctx.mul equity risk.riskPct) 100) ∧
    ∀ amount, quantizeMoney ctx (ctx.div (ctx.mul equity risk.riskPct) 100) = .ok amount →
      ctx.Room moneyPlaces (ctx.div amount risk.stopDistance)

/-- The amounts that a close adds up, of what the prices say and of the fee. -/
def closeAmounts (sim : Sim) (trade : Trade) (gross exitFee : ℚ) : List ℚ :=
  let net := gross - exitFee
  let applied := max net (-sim.balance)
  let realized := applied - trade.fees
  [net, applied - net, gross + (applied - net), trade.fees + exitFee, realized,
    sim.balance + applied, sim.requestFees + exitFee, sim.requestRealized + realized,
    feesSum sim.trades + exitFee, realizedSum sim.trades + realized]

/-- There is room for the amounts of a close at the price. -/
structure Closable (ctx : Context) (plan : Plan) (sim : Sim) (trade : Trade) (price : ℚ) :
    Prop where
  room_price : ctx.Room moneyPlaces price
  room_gross : ctx.Room moneyPlaces (ctx.mul (ctx.mul (ctx.sub price trade.entryPrice) trade.quantity)
    (direction trade.side))
  room_fee : ctx.Room moneyPlaces
    (ctx.div (ctx.mul (ctx.mul price trade.quantity) plan.config.feeBps) 10000)
  amounts : ∀ gross exitFee,
    grossPnl ctx trade.side trade.entryPrice price trade.quantity = .ok gross →
    fee ctx price trade.quantity plan.config.feeBps = .ok exitFee →
    ∀ amount ∈ closeAmounts sim trade gross exitFee, ctx.Room moneyPlaces amount

/-- The plan of a protected entry has places for its prices, and there is room for its amounts. -/
structure Enterable (ctx : Context) (plan : Plan) (sim : Sim) (candle : Candle) (risk : RiskPlan) :
    Prop where
  amount : ctx.Room moneyPlaces (ctx.div (ctx.mul sim.equity risk.riskPct) 100)
  byRisk : ∀ amount, quantizeMoney ctx (ctx.div (ctx.mul sim.equity risk.riskPct) 100) = .ok amount →
    ctx.Room moneyPlaces (ctx.div amount (ctx.abs (ctx.sub candle.closePrice risk.stopLoss)))
  byLeverage : ctx.Room moneyPlaces
    (ctx.div (ctx.mul sim.equity plan.config.maxLeverage) candle.closePrice)
  room_fee : ∀ quantity, Sizes ctx plan.config sim.equity candle risk quantity → ctx.Room moneyPlaces
    (ctx.div (ctx.mul (ctx.mul candle.closePrice quantity) plan.config.feeBps) 10000)
  places : ∀ quantity entryFee, Sizes ctx plan.config sim.equity candle risk quantity →
    fee ctx candle.closePrice quantity plan.config.feeBps = .ok entryFee → entryFee < sim.balance →
    ∀ price ∈ [candle.closePrice, risk.stopLoss, risk.takeProfit],
      MONEY_QUANTUM ≤ price ∧ ctx.Room moneyPlaces price
  amounts : ∀ quantity entryFee, Sizes ctx plan.config sim.equity candle risk quantity →
    fee ctx candle.closePrice quantity plan.config.feeBps = .ok entryFee → entryFee < sim.balance →
    ∀ amount ∈ [ctx.abs (ctx.sub candle.closePrice risk.stopLoss), ctx.sub sim.balance entryFee,
      sim.requestFees + entryFee, feesSum sim.trades + entryFee], ctx.Room moneyPlaces amount

/-- The plan of the strategy can be entered, if its prices protect the entry. -/
structure Openable (ctx : Context) (plan : Plan) (sim : Sim) (candle : Candle) (side : Side)
    (risk : RiskPlan) : Prop where
  stopLoss : 0 < risk.stopLoss
  takeProfit : 0 < risk.takeProfit
  enterable : Protected side candle.closePrice risk.stopLoss risk.takeProfit →
    Enterable ctx plan sim candle risk

/-- There is room to mark the open trade to the close. -/
structure Markable (ctx : Context) (sim : Sim) (trade : Trade) (close : ℚ) : Prop where
  unrealized : ctx.Room moneyPlaces (ctx.mul (ctx.mul (ctx.sub close trade.entryPrice)
    trade.quantity) (direction trade.side))
  equity : ∀ unrealized,
    grossPnl ctx trade.side trade.entryPrice close trade.quantity = .ok unrealized →
    ctx.Room moneyPlaces (max 0 (ctx.add sim.balance unrealized))

/-! ## Amounts -/

theorem quantizeMoney_succeeds {q : ℚ} (h : ctx.Room moneyPlaces q) :
    Succeeds (quantizeMoney ctx q) := by
  obtain ⟨r, hr⟩ := h.exists_quantize
  exact ⟨r, quantizeMoney_eq_ok.2 hr⟩

theorem positive_succeeds {q : ℚ} {field : String} (h : 0 < q) : Succeeds (positive q field) :=
  ⟨q, positive_eq_ok.2 ⟨h, rfl⟩⟩

theorem onGrid_quantizeMoney {q r : ℚ} (h : quantizeMoney ctx q = .ok r) : OnGrid moneyPlaces r :=
  Context.onGrid_quantize (quantizeMoney_eq_ok.1 h)

theorem room_quantizeMoney {q r : ℚ} (h : quantizeMoney ctx q = .ok r) : ctx.Room moneyPlaces r :=
  Context.room_of_quantize (quantizeMoney_eq_ok.1 h)

/-- On the grid, what there is room for is kept. -/
theorem quantizeMoney_fit {q : ℚ} (hq : OnGrid moneyPlaces q) (h : ctx.Room moneyPlaces q) :
    quantizeMoney ctx (ctx.fit q) = .ok q := by
  rw [Context.fit_of_room hq h]
  exact quantizeMoney_eq_ok.2 (Context.quantize_of_room hq h)

theorem quantizeMoney_self {q : ℚ} (hq : OnGrid moneyPlaces q) (h : ctx.Room moneyPlaces q) :
    quantizeMoney ctx q = .ok q :=
  quantizeMoney_eq_ok.2 (Context.quantize_of_room hq h)

/-- A price with a place is not cut to zero. -/
theorem quantizeMoney_pos {q r : ℚ} (hq : MONEY_QUANTUM ≤ q) (h : quantizeMoney ctx q = .ok r) :
    0 < r := by
  obtain ⟨-, rfl⟩ := Context.quantize_eq_some.1 (quantizeMoney_eq_ok.1 h)
  have hone : (1 : ℤ) ≤ truncate (q * 10 ^ moneyPlaces) := by
    have hle : (1 : ℚ) ≤ q * 10 ^ moneyPlaces := by
      rw [MONEY_QUANTUM, div_le_iff₀ (by positivity)] at hq
      exact hq
    rw [truncate, if_pos (zero_le_one.trans hle)]
    exact Int.le_floor.2 (by exact_mod_cast hle)
  have : (0 : ℚ) < truncate (q * 10 ^ moneyPlaces) := by exact_mod_cast hone
  positivity

/-! ## The state of a simulation -/

/-- The prices and the quantity of an open trade are positive. -/
structure Stored (trade : Trade) : Prop where
  entryPrice : 0 < trade.entryPrice
  quantity : 0 < trade.quantity
  stopLoss : 0 < trade.payload.stopLoss
  takeProfit : 0 < trade.payload.takeProfit

/-- The simulation may go on with the candle at the time. -/
structure Ready (ctx : Context) (initial : ℚ) (time : ℤ) (sim : Sim) : Prop where
  booked : Booked initial sim
  stored : ∀ trade, sim.open_ = some trade → Stored trade
  before : ∀ t ∈ sim.trades, t.entryTime < time
  balance : ctx.Room moneyPlaces sim.balance
  equity : sim.equity = initial ∨ OnGrid moneyPlaces sim.equity ∧ ctx.Room moneyPlaces sim.equity
  feesSum : ctx.Room moneyPlaces (feesSum sim.trades)
  realizedSum : ctx.Room moneyPlaces (realizedSum sim.trades)
  requestFees : OnGrid moneyPlaces sim.requestFees ∧ ctx.Room moneyPlaces sim.requestFees
  requestRealized : OnGrid moneyPlaces sim.requestRealized ∧
    ctx.Room moneyPlaces sim.requestRealized

theorem Ready.mono {time' : ℤ} (h : Ready ctx initial time sim) (hle : time ≤ time') :
    Ready ctx initial time' sim :=
  { h with before := fun t ht => (h.before t ht).trans_le hle }

/-! ## Exits -/

theorem limitedLiabilityDelta_succeeds {raw balance : ℚ} (hraw : OnGrid moneyPlaces raw)
    (hgrid : OnGrid moneyPlaces balance) (hbalance : 0 ≤ balance)
    (hroom : ctx.Room moneyPlaces balance) (hrawRoom : ctx.Room moneyPlaces raw)
    (hdelta : ctx.Room moneyPlaces (max raw (-balance) - raw)) :
    Succeeds (limitedLiabilityDelta ctx raw balance) := by
  have hneg : ctx.neg (max 0 balance) = -balance := by
    rw [max_eq_right hbalance, Context.neg]
    exact Context.fit_neg_quantize (Context.quantize_of_room hgrid hroom)
  rw [limitedLiabilityDelta, quantizeMoney_self hgrid hroom, quantizeMoney_self hraw hrawRoom]
  change Succeeds (quantizeMoney ctx (ctx.sub (max raw (ctx.neg (max 0 balance))) raw) >>= _)
  rw [hneg]
  exact .bind ⟨_, quantizeMoney_fit ((hraw.max hgrid.neg).sub hraw) hdelta⟩ fun _ _ => .ok _

theorem closeTrade_succeeds {decision : ExitDecision} (h : Closable ctx plan sim trade decision.price)
    (hs : Booked initial sim) (hroom : ctx.Room moneyPlaces sim.balance)
    (hopen : sim.open_ = some trade) (htrade : Stored trade) (hfees : OnGrid moneyPlaces trade.fees) :
    Succeeds (closeTrade ctx trade candle decision plan.config.feeBps sim.balance) := by
  have hgrid := hs.onGrid hopen
  refine .bind (positive_succeeds htrade.entryPrice) fun _ hentry => ?_
  obtain ⟨-, rfl⟩ := positive_eq_ok.1 hentry
  refine .bind (positive_succeeds htrade.quantity) fun _ hquantity => ?_
  obtain ⟨-, rfl⟩ := positive_eq_ok.1 hquantity
  refine .bind (quantizeMoney_succeeds h.room_gross) fun gross hgross => ?_
  refine .bind (quantizeMoney_succeeds h.room_fee) fun exitFee hexitFee => ?_
  have hong := onGrid_quantizeMoney hgross
  have honf := onGrid_quantizeMoney hexitFee
  have hamounts := h.amounts gross exitFee hgross hexitFee
  simp only [closeAmounts, List.forall_mem_cons] at hamounts
  obtain ⟨hnet, hwritten, heffective, htotal, hrealized, -⟩ := hamounts
  -- From here on each amount is on the grid already; it only has to fit.
  refine .bind ⟨_, quantizeMoney_fit (hong.sub honf) hnet⟩ fun raw hraw => ?_
  obtain rfl := Except.ok.inj ((quantizeMoney_fit (hong.sub honf) hnet).symm.trans hraw)
  refine .bind (limitedLiabilityDelta_succeeds (hong.sub honf) hgrid hs.balance hroom hnet hwritten)
    fun delta hdelta => ?_
  obtain ⟨happlied, hadjustment⟩ :=
    limitedLiabilityDelta_eq_ok (hong.sub honf) hgrid hs.balance hdelta
  have hona := (hong.sub honf).max hgrid.neg
  rw [hadjustment, happlied]
  refine .bind ⟨_, quantizeMoney_fit (hong.add (hona.sub (hong.sub honf))) heffective⟩ fun _ _ => ?_
  refine .bind ⟨_, quantizeMoney_fit (hfees.add honf) htotal⟩ fun _ _ => ?_
  refine .bind ⟨_, quantizeMoney_fit (hona.sub hfees) hrealized⟩ fun _ _ => ?_
  refine .bind (quantizeMoney_succeeds hroom) fun _ _ => ?_
  exact .bind (quantizeMoney_succeeds h.room_price) fun _ _ => .ok _

theorem updateOpenTrade_succeeds {closed : Trade} (h : trade ∈ openTrades trades)
    (htime : closed.entryTime = trade.entryTime) : Succeeds (updateOpenTrade trades closed) := by
  obtain ⟨hmem, hstatus⟩ := List.mem_filter.1 h
  rw [updateOpenTrade, if_pos]
  · exact .ok _
  · exact List.any_eq_true.2
      ⟨trade, hmem, decide_eq_true ⟨htime.symm, of_decide_eq_true hstatus⟩⟩

theorem Booked.mem_openTrades (h : Booked initial sim) (hopen : sim.open_ = some trade) :
    trade ∈ openTrades sim.trades := by
  rw [h.holdsOpen, hopen]
  exact List.mem_singleton_self _

/-- The closed trade takes the place of the open one, so the sums change by its own amounts. -/
theorem Simulation.Leaves.sums_eq {decision : ExitDecision} {exit : ExitPayload} {closed : Trade}
    (h : Leaves ctx plan candle trade decision sim exit closed sim')
    (hopen : sim.open_ = some trade) (hs : Booked initial sim)
    (hsettles : Settles sim.balance trade exit closed) :
    feesSum sim'.trades = feesSum sim.trades + exit.exitFee ∧
      realizedSum sim'.trades = realizedSum sim.trades + closed.realizedPnl := by
  obtain ⟨l₁, l₂, htrades, htrades', hl₁, hl₂⟩ := h.trades_eq hopen hs.holdsOpen
  have hclosed : closedTrades [closed] = [closed] := by simp [closedTrades, h.status]
  have hopened : closedTrades [trade] = [] := by
    simp [closedTrades, of_decide_eq_true (List.mem_filter.1 (hs.mem_openTrades hopen)).2]
  constructor
  · rw [htrades, htrades']
    simp only [feesSum, List.map_append, List.map_cons, List.sum_append, List.sum_cons,
      hsettles.fees]
    ring
  · rw [htrades, htrades', List.append_cons, List.append_cons l₁ trade]
    simp only [realizedSum, closedTrades] at hclosed hopened ⊢
    simp only [List.filter_append, hclosed, hopened, List.map_append, List.sum_append,
      List.map_cons, List.map_nil, List.sum_cons, List.sum_nil]
    ring

/-- A close that there is room for goes through. -/
theorem Ready.leave {decision : ExitDecision} (candle : Candle) (hs : Ready ctx initial time sim)
    (hopen : sim.open_ = some trade) (h : Closable ctx plan sim trade decision.price) :
    ∃ sim', Simulation.leave ctx plan candle trade decision sim = .ok sim' ∧
      Ready ctx initial time sim' := by
  have hmem := hs.booked.mem_openTrades hopen
  have hfees := hs.booked.fees _ (List.mem_filter.1 hmem).1
  have hgrid := hs.booked.onGrid hopen
  have hsucceeds : Succeeds (Simulation.leave ctx plan candle trade decision sim) := by
    refine .bind (closeTrade_succeeds h hs.booked hs.balance hopen (hs.stored _ hopen) hfees)
      fun p hp => ?_
    obtain ⟨closed, delta, exitFee⟩ := p
    obtain ⟨exit, hcloses, rfl, rfl⟩ := closeTrade_eq_ok hp
    have hsettles := hcloses.settles hgrid hs.booked.balance hfees
    have hamounts := h.amounts _ _ hcloses.gross hcloses.exitFee
    simp only [closeAmounts, List.forall_mem_cons] at hamounts
    obtain ⟨-, -, -, -, -, hbalance, -⟩ := hamounts
    rw [← hsettles.applied] at hbalance
    have hquantize := quantizeMoney_fit (hgrid.add hsettles.onGrid_applied) hbalance
    refine .bind (updateOpenTrade_succeeds hmem ?_) fun trades _ => ?_
    · obtain ⟨_, -, heq⟩ := hcloses.closed_eq
      rw [heq]
    refine .bind ⟨_, hquantize⟩ fun balance hb => ?_
    obtain rfl := Except.ok.inj (hquantize.symm.trans hb)
    refine .bind (.require ?_) fun _ _ => .ok _
    have := hsettles.applied ▸ le_max_right (exit.grossPnl - exit.exitFee) (-sim.balance)
    linarith
  obtain ⟨sim', hsim⟩ := hsucceeds
  refine ⟨sim', hsim, ?_⟩
  obtain ⟨exit, closed, hl⟩ := leave_eq_ok hsim
  have hsettles := hl.closes.settles hgrid hs.booked.balance hfees
  have hamounts := h.amounts _ _ hl.closes.gross hl.closes.exitFee
  simp only [closeAmounts, List.forall_mem_cons] at hamounts
  obtain ⟨-, -, -, -, -, hbalance, hrequestFees, hrequestRealized, hfeesSum, hrealizedSum, -⟩ :=
    hamounts
  rw [← hsettles.applied] at hbalance hrequestRealized hrealizedSum
  rw [← hsettles.realizedPnl] at hrequestRealized hrealizedSum
  obtain ⟨l₁, l₂, htrades, htrades', -, -⟩ := hl.trades_eq hopen hs.booked.holdsOpen
  obtain ⟨hfeesEq, hrealizedEq⟩ := hl.sums_eq hopen hs.booked hsettles
  have hbooked := hs.booked.leave hopen hl
  have hbalance' := room_quantizeMoney hl.balance
  have honf : OnGrid moneyPlaces exit.exitFee := onGrid_quantizeMoney hl.closes.exitFee
  refine ⟨hbooked, ?_, fun t ht => ?_, hbalance', .inr ?_, ?_, ?_, ?_, ?_⟩
  · simp [hl.open_]
  · rw [htrades'] at ht
    rcases List.mem_append.1 ht with ht | ht
    · exact hs.before t (by rw [htrades]; exact List.mem_append_left _ ht)
    · rcases List.mem_cons.1 ht with rfl | ht
      · rw [hl.entryTime]
        exact hs.before trade (List.mem_filter.1 hmem).1
      · exact hs.before t (by
          rw [htrades]
          exact List.mem_append_right _ (List.mem_cons_of_mem _ ht))
  · rw [hl.equity]
    exact ⟨onGrid_quantizeMoney hl.balance, hbalance'⟩
  · rwa [hfeesEq]
  · rwa [hrealizedEq]
  · rw [hl.requestFees, Context.add,
      Context.fit_of_room (hs.requestFees.1.add honf) hrequestFees]
    exact ⟨hs.requestFees.1.add honf, hrequestFees⟩
  · rw [hl.requestRealized, Context.add,
      Context.fit_of_room (hs.requestRealized.1.add hsettles.onGrid_realizedPnl) hrequestRealized]
    exact ⟨hs.requestRealized.1.add hsettles.onGrid_realizedPnl, hrequestRealized⟩

theorem exitDecision_succeeds (h : Stored trade) (hopen : 0 < candle.openPrice)
    (hhigh : 0 < candle.highPrice) (hlow : 0 < candle.lowPrice) :
    Succeeds (exitDecision trade candle) := by
  refine .bind (positive_succeeds h.stopLoss) fun _ _ => ?_
  refine .bind (positive_succeeds h.takeProfit) fun _ _ => ?_
  refine .ite (fun _ => .ok _) fun _ => ?_
  refine .bind (positive_succeeds hopen) fun _ _ => ?_
  refine .bind (positive_succeeds hhigh) fun _ _ => ?_
  refine .bind (positive_succeeds hlow) fun _ _ => ?_
  rcases trade.side with _ | _
  · exact .ite (fun _ => .ok _) fun _ => .ite (fun _ => .ok _) fun _ => .ok _
  · exact .ite (fun _ => .ok _) fun _ => .ite (fun _ => .ok _) fun _ => .ok _

theorem Ready.exits (hs : Ready ctx initial time sim)
    (hprices : 0 < candle.openPrice ∧ 0 < candle.highPrice ∧ 0 < candle.lowPrice)
    (h : ∀ trade decision, sim.open_ = some trade →
      exitDecision trade candle = .ok (some decision) → Closable ctx plan sim trade decision.price) :
    ∃ sim', Simulation.exits ctx plan candle sim = .ok sim' ∧ Ready ctx initial time sim' := by
  rcases hopen : sim.open_ with _ | trade
  · refine ⟨sim, ?_, hs⟩
    rw [Simulation.exits, hopen]
    rfl
  · obtain ⟨hopenPrice, hhigh, hlow⟩ := hprices
    obtain ⟨decision, hdecision⟩ := exitDecision_succeeds (hs.stored _ hopen) hopenPrice hhigh hlow
    rcases decision with _ | decision
    · refine ⟨sim, ?_, hs⟩
      rw [Simulation.exits, hopen]
      exact bind_eq_ok.2 ⟨none, hdecision, rfl⟩
    · obtain ⟨sim', hleave, hs'⟩ := hs.leave candle hopen (h _ _ hopen hdecision)
      refine ⟨sim', ?_, hs'⟩
      rw [Simulation.exits, hopen]
      exact bind_eq_ok.2 ⟨some decision, hdecision, hleave⟩

/-! ## Entries -/

/-- What an entry brings to a simulation that goes on. -/
structure Entered (ctx : Context) (sim : Sim) (candle : Candle) (trade : Trade) : Prop where
  stored : Stored trade
  status : trade.status = .opened
  time : trade.entryTime = candle.openTime
  onGrid_fees : OnGrid moneyPlaces trade.fees
  balance : ctx.Room moneyPlaces (ctx.sub sim.balance trade.fees)
  requestFees : ctx.Room moneyPlaces (sim.requestFees + trade.fees)
  feesSum : ctx.Room moneyPlaces (feesSum sim.trades + trade.fees)

/-- What a decision is opened with, or that it is not. -/
theorem openTrade_clear {decision : Decision} (hclose : 0 < candle.closePrice)
    (hpct : ∀ risk, decision.risk = some risk → 0 < risk.riskPct)
    (h : ∀ risk side, decision.eligible → decision.risk = some risk →
      sideOf decision.signal = some side → Openable ctx plan sim candle side risk) :
    Succeeds (openTrade ctx plan.config plan.session decision candle sim.balance sim.equity
      plan.requestId) := by
  rw [openTrade]
  rcases hrisk : decision.risk with _ | risk
  · exact .ok _
  rcases he : decision.eligible with _ | _
  · exact .ok _
  rcases hside : sideOf decision.signal with _ | side
  · exact .ok _
  have ho := h risk side he hrisk hside
  refine .bind (positive_succeeds hclose) fun _ hq => ?_
  obtain ⟨-, rfl⟩ := positive_eq_ok.1 hq
  refine .bind (positive_succeeds ho.stopLoss) fun _ hq => ?_
  obtain ⟨-, rfl⟩ := positive_eq_ok.1 hq
  refine .bind (positive_succeeds ho.takeProfit) fun _ hq => ?_
  obtain ⟨-, rfl⟩ := positive_eq_ok.1 hq
  refine .ite (fun _ => .ok _) fun hprotected => ?_
  have hen := ho.enterable (not_not.1 hprotected)
  refine .bind (positive_succeeds (hpct risk hrisk)) fun _ hq => ?_
  obtain ⟨-, rfl⟩ := positive_eq_ok.1 hq
  refine .bind (quantizeMoney_succeeds hen.amount) fun amount hamount => ?_
  refine .bind (quantizeMoney_succeeds (hen.byRisk amount hamount)) fun byRisk hbyRisk => ?_
  refine .bind (quantizeMoney_succeeds hen.byLeverage) fun byLeverage hbyLeverage => ?_
  refine .ite (fun _ => .ok _) fun hquantity => ?_
  -- The size is known and positive; the fee and the prices of the trade follow.
  have hsizes : Sizes ctx plan.config sim.equity candle risk (min byRisk byLeverage) :=
    ⟨amount, byRisk, byLeverage, hamount, hbyRisk, hbyLeverage, rfl, not_le.1 hquantity⟩
  refine .bind (quantizeMoney_succeeds (hen.room_fee _ hsizes)) fun entryFee hfee => ?_
  refine .ite (fun _ => .ok _) fun hafford => ?_
  have hplaces := hen.places _ _ hsizes hfee (not_le.1 hafford)
  have hamounts := hen.amounts _ _ hsizes hfee (not_le.1 hafford)
  simp only [List.forall_mem_cons] at hplaces hamounts
  refine .bind (quantizeMoney_succeeds hplaces.2.1.2) fun _ _ => ?_
  refine .bind (quantizeMoney_succeeds hplaces.2.2.1.2) fun _ _ => ?_
  refine .bind (quantizeMoney_succeeds hamounts.1) fun _ _ => ?_
  exact .bind (quantizeMoney_succeeds hplaces.1.2) fun _ _ => .ok _

theorem Simulation.Opens.entered {decision : Decision}
    (h : Opens ctx plan.config decision candle sim.balance sim.equity risk trade)
    (ho : Openable ctx plan sim candle trade.side risk) : Entered ctx sim candle trade := by
  have hen := ho.enterable h.protected_
  have hplaces := hen.places _ _ h.sizes h.fee h.affordable
  have hamounts := hen.amounts _ _ h.sizes h.fee h.affordable
  simp only [List.forall_mem_cons] at hplaces hamounts
  obtain ⟨⟨hclose, -⟩, ⟨hstop, -⟩, ⟨htarget, -⟩, -⟩ := hplaces
  obtain ⟨-, hbalance, hrequestFees, hfeesSum, -⟩ := hamounts
  obtain ⟨_, _, _, -, -, -, -, hquantity⟩ := h.sizes
  exact ⟨⟨quantizeMoney_pos hclose h.entryPrice, hquantity, quantizeMoney_pos hstop h.stopLoss,
    quantizeMoney_pos htarget h.takeProfit⟩, h.status, h.entryTime, onGrid_quantizeMoney h.fee,
    hbalance, hrequestFees, hfeesSum⟩

theorem insertTrade_succeeds (h : ∀ t ∈ trades, t.entryTime < trade.entryTime) :
    Succeeds (insertTrade trades trade) := by
  rw [insertTrade, if_neg]
  · exact .ok _
  · intro hany
    obtain ⟨t, ht, heq⟩ := List.any_eq_true.1 hany
    exact (h t ht).ne (of_decide_eq_true heq)

/-- An entry that is clear goes through. -/
theorem Ready.enters (hs : Ready ctx initial candle.openTime sim) (hclose : 0 < candle.closePrice)
    (hpct : ∀ decision risk, plan.decisionAt candle.openTime = some decision →
      decision.risk = some risk → 0 < risk.riskPct)
    (h : ∀ decision risk side, sim.open_ = none → plan.isFinal candle = false → 0 < sim.equity →
      0 < sim.balance → plan.decisionAt candle.openTime = some decision → decision.eligible →
      decision.risk = some risk → sideOf decision.signal = some side →
      Openable ctx plan sim candle side risk) :
    ∃ sim', Simulation.enters ctx plan candle sim = .ok sim' ∧
      Ready ctx initial (candle.openTime + 1) sim' := by
  have hentered : ∀ decision trade, sim.open_ = none → plan.isFinal candle = false →
      0 < sim.equity → 0 < sim.balance → plan.decisionAt candle.openTime = some decision →
      openTrade ctx plan.config plan.session decision candle sim.balance sim.equity
        plan.requestId = .ok (.opened trade) → Entered ctx sim candle trade :=
    fun decision trade hopen hfinal hequity hbalance hat hopens => by
      obtain ⟨risk, ho⟩ := openTrade_eq_ok hopens
      exact ho.entered (h decision risk trade.side hopen hfinal hequity hbalance hat ho.eligible
        ho.planned ho.side)
  have hsucceeds : Succeeds (Simulation.enters ctx plan candle sim) := by
    rw [Simulation.enters]
    rcases hd : (plan.decisionAt candle.openTime).filter (·.eligible) with _ | decision <;> rw [hd]
    · exact .ok _
    obtain ⟨hat, -⟩ := Option.filter_eq_some_iff.1 hd
    have hentry : Succeeds (entry ctx plan candle decision sim) := by
      refine .ite (fun _ => .ok _) fun hopen => .ite (fun _ => .ok _) fun hfinal => ?_
      refine .ite (fun _ => .ok _) fun haccount => ?_
      rw [not_or, not_le, not_le] at haccount
      exact openTrade_clear hclose (fun risk => hpct decision risk hat) fun risk side he hrisk hside =>
        h decision risk side (by simpa using hopen) (by simpa using hfinal) haccount.1 haccount.2 hat
          he hrisk hside
    refine .bind hentry fun entry he => ?_
    rcases entry with trade | reason
    · obtain ⟨hopen, hfinal, haccount, hopens⟩ := entry_eq_opened he
      have hen := hentered decision trade hopen hfinal haccount.1 haccount.2 hat hopens
      refine .bind (insertTrade_succeeds fun t ht => ?_) fun _ _ => ?_
      · rw [hen.time]
        exact hs.before t ht
      · exact .bind (quantizeMoney_succeeds hen.balance) fun _ _ => .ok _
    · exact .ok _
  obtain ⟨sim', hsim⟩ := hsucceeds
  refine ⟨sim', hsim, ?_⟩
  -- No entry leaves the account as it is; an entry appends one open trade.
  have hs' := hs.mono (Int.le_add_one le_rfl)
  rcases enters_cases hsim with rfl | ⟨_, _, rfl⟩ | ⟨decision, trade, he⟩
  · exact hs'
  · exact { hs' with booked := hs.booked.congr rfl hs.booked.equity rfl rfl }
  have hen := hentered decision trade he.free he.early he.account.1 he.account.2 he.decided he.opens
  have htrades := insertTrade_eq_ok he.trades
  refine ⟨hs.booked.enter he, ?_, fun t ht => ?_, room_quantizeMoney he.balance, ?_, ?_, ?_, ?_, ?_⟩
  · intro t ht
    rw [he.open_] at ht
    exact Option.some.inj ht ▸ hen.stored
  · rw [htrades] at ht
    rcases List.mem_append.1 ht with ht | ht
    · exact hs'.before t ht
    · rw [List.mem_singleton.1 ht, hen.time]
      exact Int.lt_add_one_of_le le_rfl
  · rw [he.equity]
    exact hs.equity
  · have : Replay.feesSum sim'.trades = Replay.feesSum sim.trades + trade.fees := by
      simp [Replay.feesSum, htrades]
    rw [this]
    exact hen.feesSum
  · have : Replay.realizedSum sim'.trades = Replay.realizedSum sim.trades := by
      simp [Replay.realizedSum, closedTrades, htrades, hen.status]
    rw [this]
    exact hs.realizedSum
  · have hgrid := hs.requestFees.1.add hen.onGrid_fees
    rw [he.requestFees, Context.add, Context.fit_of_room hgrid hen.requestFees]
    exact ⟨hgrid, hen.requestFees⟩
  · rw [he.requestRealized]
    exact hs.requestRealized

/-! ## Candles -/

theorem Ready.ends (hs : Ready ctx initial time sim)
    (h : ∀ trade, sim.open_ = some trade → plan.isFinal candle →
      Closable ctx plan sim trade candle.closePrice) :
    ∃ sim', Simulation.ends ctx plan candle sim = .ok sim' ∧ Ready ctx initial time sim' := by
  rw [Simulation.ends]
  rcases hopen : sim.open_ with _ | trade
  · exact ⟨sim, rfl, hs⟩
  dsimp only
  split
  · exact hs.leave candle hopen (h trade hopen ‹_›)
  · exact ⟨sim, rfl, hs⟩

theorem Ready.marks (hs : Ready ctx initial time sim)
    (h : ∀ trade, sim.open_ = some trade → Markable ctx sim trade candle.closePrice) :
    ∃ sim', Simulation.marks ctx plan candle sim = .ok sim' ∧ Ready ctx initial time sim' ∧
      OnGrid moneyPlaces sim'.equity ∧ ctx.Room moneyPlaces sim'.equity := by
  have hequity : ∃ equity unrealized, markedEquity ctx sim.balance sim.open_ candle.closePrice =
      .ok (equity, unrealized) ∧ OnGrid moneyPlaces equity ∧ ctx.Room moneyPlaces equity := by
    -- Flat, the equity is the balance; otherwise the open trade is valued at the close.
    rcases hopen : sim.open_ with _ | trade
    · obtain ⟨equity, he⟩ := quantizeMoney_succeeds hs.balance
      exact ⟨equity, 0, bind_eq_ok.2 ⟨_, he, rfl⟩, onGrid_quantizeMoney he, room_quantizeMoney he⟩
    · have hm := h trade hopen
      have hst := hs.stored trade hopen
      obtain ⟨unrealized, hu⟩ := quantizeMoney_succeeds hm.unrealized
      obtain ⟨equity, he⟩ := quantizeMoney_succeeds (hm.equity unrealized hu)
      exact ⟨equity, unrealized, bind_eq_ok.2 ⟨_, positive_eq_ok.2 ⟨hst.entryPrice, rfl⟩,
        bind_eq_ok.2 ⟨_, positive_eq_ok.2 ⟨hst.quantity, rfl⟩, bind_eq_ok.2 ⟨_, hu,
          bind_eq_ok.2 ⟨_, he, rfl⟩⟩⟩⟩, onGrid_quantizeMoney he, room_quantizeMoney he⟩
  obtain ⟨equity, unrealized, he, hgrid, hroom⟩ := hequity
  have hmarks : Succeeds (Simulation.marks ctx plan candle sim) := .bind ⟨_, he⟩ fun _ _ => .ok _
  obtain ⟨sim', hsim⟩ := hmarks
  obtain ⟨mark, hm⟩ := marks_eq_ok hsim
  have hmark : mark.equity = equity := by
    have := hm.equity
    rw [he] at this
    exact (Prod.mk.inj (Except.ok.inj this)).1.symm
  have hsim' : sim'.equity = equity := by rw [hm.sim, ← hmark]
  refine ⟨sim', hsim, ?_, hsim' ▸ hgrid, hsim' ▸ hroom⟩
  have hbooked := hs.booked.mark hm
  rw [hm.sim] at hbooked ⊢
  exact { hs with
    booked := hbooked
    equity := .inr ⟨hmark ▸ hgrid, hmark ▸ hroom⟩ }

/-! ## The end of a step -/

/-- There is room for the difference of an amount to the initial balance. -/
theorem quantizeMoney_sub_initial {q bound : ℚ} (hbound : OnGrid moneyPlaces bound)
    (hroom : ctx.Room moneyPlaces bound) (hinitial : 0 ≤ initial ∧ initial ≤ bound) (hq : 0 ≤ q)
    (h : q = initial ∨ OnGrid moneyPlaces q ∧ ctx.Room moneyPlaces q) :
    Succeeds (quantizeMoney ctx (ctx.sub q initial)) := by
  refine quantizeMoney_succeeds ?_
  rw [Context.sub]
  rcases h with rfl | ⟨hgrid, hqroom⟩
  · rw [sub_self, Context.fit_zero]
    exact Context.room_zero _ _
  · exact Context.room_fit_between hbound.neg hgrid (hroom.neg hbound) hqroom (by linarith)
      (by linarith)

theorem Ready.totals {bound : ℚ} (hs : Ready ctx plan.session.initialBalance time sim)
    (hbound : OnGrid moneyPlaces bound) (hroom : ctx.Room moneyPlaces bound)
    (hinitial : 0 ≤ plan.session.initialBalance ∧ plan.session.initialBalance ≤ bound) :
    Succeeds (totals ctx plan sim) := by
  refine .bind (quantizeMoney_succeeds hs.realizedSum) fun _ _ => ?_
  refine .bind (quantizeMoney_succeeds hs.feesSum) fun _ _ => ?_
  have hbalance : sim.balance = plan.session.initialBalance ∨
      OnGrid moneyPlaces sim.balance ∧ ctx.Room moneyPlaces sim.balance :=
    hs.booked.grid.imp And.right fun hgrid => ⟨hgrid, hs.balance⟩
  refine .bind (quantizeMoney_sub_initial hbound hroom hinitial hs.booked.balance hbalance)
    fun _ _ => ?_
  exact .bind (quantizeMoney_sub_initial hbound hroom hinitial hs.booked.equity hs.equity)
    fun _ _ => .ok _

theorem Ready.execution {totals : Totals} (hs : Ready ctx initial time sim) :
    Succeeds (execution ctx sim totals) :=
  .bind (quantizeMoney_succeeds hs.requestFees.2) fun _ _ =>
    .bind (quantizeMoney_succeeds hs.requestRealized.2) fun _ _ => .ok _

/-! ## Decisions -/

/-- What does not depend on the account is in the plan for none. -/
theorem riskPlan_zero (signal : Signal) (riskPct close atr : ℚ) :
    ∃ risk, Strategy.riskPlan ctx signal riskPct close atr 0 = .ok risk ∧ risk.riskPct = riskPct ∧
      risk.stopDistance = ctx.mul atr (3 / 2) := by
  have hzero : ∀ q : ℚ, ctx.div 0 q = 0 := fun q => by
    rw [Context.div, zero_div, Context.fit_zero]
  have hmul : ctx.mul 0 riskPct = 0 := by
    rw [Context.mul, zero_mul, Context.fit_zero]
  refine ⟨_, bind_eq_ok.2 ⟨0, by rw [hmul, hzero]; exact quantizeMoney_zero,
    bind_eq_ok.2 ⟨0, by rw [hzero]; exact quantizeMoney_zero, rfl⟩⟩, rfl, rfl⟩

/-- The strategy decides where it can size its plan. -/
theorem evaluate_succeeds {candles : List Candle} {equity : ℚ}
    (h : ∀ evaluation risk, Strategy.evaluate ctx candles 0 = .ok evaluation →
      evaluation.risk = some risk → Affords ctx equity risk) :
    Succeeds (Strategy.evaluate ctx candles equity) := by
  -- The plan at equity zero has the same distance and percentage, and those decide what has to
  -- fit.
  have hzero : ∀ riskPct close atr signal,
      (∀ risk, Strategy.riskPlan ctx signal riskPct close atr 0 = .ok risk →
        Affords ctx equity risk) →
      Succeeds (Strategy.riskPlan ctx signal riskPct close atr equity) :=
    fun riskPct close atr signal hrisk => by
      obtain ⟨risk, hplan, hpct, hdistance⟩ := riskPlan_zero signal riskPct close atr
      obtain ⟨hamount, hquantity⟩ := hrisk risk hplan
      rw [hpct] at hamount hquantity
      rw [hdistance] at hquantity
      refine .bind (quantizeMoney_succeeds hamount) fun amount ha => ?_
      exact .bind (quantizeMoney_succeeds (hquantity amount ha)) fun _ _ => .ok _
  rw [Strategy.evaluate] at h ⊢
  split
  · exact .ok _
  · rename_i hlen
    rw [if_neg hlen] at h
    dsimp only at h ⊢
    split
    · rename_i riskPct hpct
      refine .bind (.map (hzero _ _ _ _ fun risk hrisk => ?_) _) fun _ _ => .ok _
      simp only [hpct, bind_eq_ok, map_eq_ok, pure_eq_ok] at h
      exact h _ risk ⟨_, ⟨risk, hrisk, rfl⟩, rfl⟩ rfl
    · exact .ok _

end IntradayBot.Replay
