import IntradayBot.Replay.SimulatedExecution

/-!
# A candle of the simulation

What the simulation of a candle does, case by case: an exit, an entry or a skipped decision,
the exit at the end of the session, and the mark. A property of the simulation that each of
them keeps (`Kept`) is kept by a candle, and by all candles of a request.

The trade that the simulation holds open is the only open one (`HoldsOpen`).
-/

namespace IntradayBot.Replay

open Decimal

variable {ctx : Context}

theorem quantizeMoney_eq_ok {q r : ℚ} :
    quantizeMoney ctx q = .ok r ↔ ctx.quantize moneyPlaces q = some r := by
  rw [quantizeMoney]
  split <;> simp [*]

theorem positive_eq_ok {value q : ℚ} {field : String} :
    positive value field = .ok q ↔ 0 < value ∧ q = value := by
  rw [positive]
  split
  · simp [*]
  · rename_i h
    simp [not_le.1 h, eq_comm]

namespace Simulation

variable {plan : Plan} {candle : Candle} {trade : Trade} {decision : ExitDecision}
  {sim sim' : Sim} {trades trades' : List Trade}

/-! ## Exits -/

/-- What a close computes. -/
structure Closes (ctx : Context) (trade : Trade) (candle : Candle) (decision : ExitDecision)
    (feeBps balance : ℚ) (exit : ExitPayload) (closed : Trade) : Prop where
  entryPrice : 0 < trade.entryPrice
  quantity : 0 < trade.quantity
  gross : grossPnl ctx trade.side trade.entryPrice decision.price trade.quantity = .ok exit.grossPnl
  exitFee : fee ctx decision.price trade.quantity feeBps = .ok exit.exitFee
  raw : quantizeMoney ctx (ctx.sub exit.grossPnl exit.exitFee) = .ok exit.rawBalanceDelta
  delta : limitedLiabilityDelta ctx exit.rawBalanceDelta balance =
    .ok ⟨exit.appliedBalanceDelta, exit.liquidationAdjustment⟩
  effective : quantizeMoney ctx (ctx.add exit.grossPnl exit.liquidationAdjustment) =
    .ok exit.effectiveGrossPnl
  fees : quantizeMoney ctx (ctx.add trade.fees exit.exitFee) = .ok closed.fees
  net : quantizeMoney ctx (ctx.sub exit.appliedBalanceDelta trade.fees) = .ok exit.netPnl
  available : quantizeMoney ctx balance = .ok exit.availableBalanceBeforeExit
  reason : exit.exitReason = decision.reason
  time : exit.exitCandleOpenTime = candle.openTime
  limited : exit.limitedLiabilityApplied = decide (0 < exit.liquidationAdjustment)
  closed_eq : ∃ price, quantizeMoney ctx decision.price = .ok price ∧ closed = { trade with
    status := .closed
    exitTime := some candle.openTime
    exitPrice := some price
    realizedPnl := exit.netPnl
    fees := closed.fees
    exit := some exit }

theorem closeTrade_eq_ok {feeBps balance : ℚ} {closed : Trade} {delta exitFee : ℚ}
    (h : closeTrade ctx trade candle decision feeBps balance = .ok (closed, delta, exitFee)) :
    ∃ exit, Closes ctx trade candle decision feeBps balance exit closed ∧
      delta = exit.appliedBalanceDelta ∧ exitFee = exit.exitFee := by
  simp only [closeTrade, bind_eq_ok, pure_eq_ok, positive_eq_ok, Prod.mk.injEq] at h
  obtain ⟨_, ⟨hentry, rfl⟩, _, ⟨hquantity, rfl⟩, gross, hgross, fee, hfee, raw, hraw, delta, hdelta,
    effective, heffective, fees, hfees, net, hnet, available, havailable, price, hprice, rfl, rfl,
    rfl⟩ := h
  let exit : ExitPayload := {
    exitReason := decision.reason
    exitCandleOpenTime := candle.openTime
    exitFee := fee
    grossPnl := gross
    effectiveGrossPnl := effective
    rawBalanceDelta := raw
    appliedBalanceDelta := delta.applied
    availableBalanceBeforeExit := available
    liquidationAdjustment := delta.adjustment
    limitedLiabilityApplied := 0 < delta.adjustment
    netPnl := net
    sameCandleConflict := decision.sameCandleConflict }
  exact ⟨exit, ⟨hentry, hquantity, hgross, hfee, hraw, hdelta, heffective, hfees, hnet, havailable,
    rfl, rfl, rfl, price, hprice, rfl⟩, rfl, rfl⟩

/-- What an exit does. -/
structure Leaves (ctx : Context) (plan : Plan) (candle : Candle) (trade : Trade)
    (decision : ExitDecision) (sim : Sim) (exit : ExitPayload) (closed : Trade) (sim' : Sim) :
    Prop where
  closes : Closes ctx trade candle decision plan.config.feeBps sim.balance exit closed
  trades : updateOpenTrade sim.trades closed = .ok sim'.trades
  balance : quantizeMoney ctx (ctx.add sim.balance exit.appliedBalanceDelta) = .ok sim'.balance
  nonneg : 0 ≤ sim'.balance
  equity : sim'.equity = sim'.balance
  open_ : sim'.open_ = none
  events : sim'.events = sim.events ++ [.tradeClosed plan.requestId closed decision.reason]
  requestFees : sim'.requestFees = ctx.add sim.requestFees exit.exitFee
  requestRealized : sim'.requestRealized = ctx.add sim.requestRealized closed.realizedPnl
  marks : sim'.marks = sim.marks

theorem leave_eq_ok (h : leave ctx plan candle trade decision sim = .ok sim') :
    ∃ exit closed, Leaves ctx plan candle trade decision sim exit closed sim' := by
  simp only [leave, bind_eq_ok, pure_eq_ok, require_eq_ok] at h
  obtain ⟨⟨closed, delta, exitFee⟩, hclose, trades, htrades, balance, hbalance, -, hnonneg, rfl⟩ := h
  obtain ⟨exit, hcloses, rfl, rfl⟩ := closeTrade_eq_ok hclose
  exact ⟨exit, closed, hcloses, htrades, hbalance, hnonneg, rfl, rfl, rfl, rfl, rfl, rfl⟩

/-! ## Entries -/

/-- The simulation after a decision that opens nothing. -/
def Sim.skip (sim : Sim) (plan : Plan) (candle : Candle) (decision : Decision)
    (reason : SkipReason) : Sim :=
  { sim with
    skipped := sim.skipped + 1
    events := sim.events ++ [.executionSkipped plan.requestId candle.openTime reason
      decision.signal decision.grade] }

/-- What an entry does. -/
structure Enters (ctx : Context) (plan : Plan) (candle : Candle) (sim : Sim) (decision : Decision)
    (trade : Trade) (sim' : Sim) : Prop where
  decided : plan.decisionAt candle.openTime = some decision
  free : sim.open_ = none
  early : plan.isFinal candle = false
  account : 0 < sim.equity ∧ 0 < sim.balance
  opens : openTrade ctx plan.config plan.session decision candle sim.balance sim.equity
    plan.requestId = .ok (.opened trade)
  trades : insertTrade sim.trades trade = .ok sim'.trades
  balance : quantizeMoney ctx (ctx.sub sim.balance trade.fees) = .ok sim'.balance
  equity : sim'.equity = sim.equity
  open_ : sim'.open_ = some trade
  events : sim'.events = sim.events ++ [.tradeOpened plan.requestId trade]
  requestFees : sim'.requestFees = ctx.add sim.requestFees trade.fees
  requestRealized : sim'.requestRealized = sim.requestRealized
  marks : sim'.marks = sim.marks

/-- When a decision opens a trade. -/
theorem entry_eq_opened {decision : Decision}
    (h : entry ctx plan candle decision sim = .ok (.opened trade)) :
    sim.open_ = none ∧ plan.isFinal candle = false ∧ (0 < sim.equity ∧ 0 < sim.balance) ∧
      openTrade ctx plan.config plan.session decision candle sim.balance sim.equity
        plan.requestId = .ok (.opened trade) := by
  rw [entry] at h
  split at h
  · cases h
  rename_i hopen
  split at h
  · cases h
  rename_i hfinal
  split at h
  · cases h
  rename_i haccount
  rw [not_or, not_le, not_le] at haccount
  exact ⟨by simpa using hopen, by simpa using hfinal, haccount, h⟩

/-- Either nothing is decided, or a trade is opened, or it is not. -/
theorem enters_cases (h : enters ctx plan candle sim = .ok sim') :
    sim' = sim ∨ (∃ decision reason, sim' = sim.skip plan candle decision reason) ∨
      ∃ decision trade, Enters ctx plan candle sim decision trade sim' := by
  rw [enters] at h
  rcases hdecision : (plan.decisionAt candle.openTime).filter (·.eligible) with _ | decision <;>
    rw [hdecision] at h
  · exact .inl (pure_eq_ok.1 h).symm
  obtain ⟨entry, hentry, h⟩ := bind_eq_ok.1 h
  rcases entry with trade | reason
  · simp only [bind_eq_ok, pure_eq_ok] at h
    obtain ⟨trades, htrades, balance, hbalance, rfl⟩ := h
    obtain ⟨hopen, hfinal, haccount, hopens⟩ := entry_eq_opened hentry
    exact .inr (.inr ⟨decision, trade, (Option.filter_eq_some_iff.1 hdecision).1, hopen, hfinal,
      haccount, hopens, htrades, hbalance, rfl, rfl, rfl, rfl, rfl, rfl⟩)
  · exact .inr (.inl ⟨decision, reason, (pure_eq_ok.1 h).symm⟩)

/-- The quantity that is entered with. -/
def Sizes (ctx : Context) (config : Config) (equity : ℚ) (candle : Candle) (risk : RiskPlan)
    (quantity : ℚ) : Prop :=
  ∃ amount byRisk byLeverage,
    quantizeMoney ctx (ctx.div (ctx.mul equity risk.riskPct) 100) = .ok amount ∧
    quantizeMoney ctx (ctx.div amount (ctx.abs (ctx.sub candle.closePrice risk.stopLoss))) =
      .ok byRisk ∧
    quantizeMoney ctx (ctx.div (ctx.mul equity config.maxLeverage) candle.closePrice) =
      .ok byLeverage ∧
    quantity = min byRisk byLeverage ∧ 0 < quantity

/-- What an entry computes. -/
structure Opens (ctx : Context) (config : Config) (decision : Decision) (candle : Candle)
    (balance equity : ℚ) (risk : RiskPlan) (trade : Trade) : Prop where
  planned : decision.risk = some risk
  eligible : decision.eligible = true
  side : sideOf decision.signal = some trade.side
  close : 0 < candle.closePrice
  positive : 0 < risk.stopLoss ∧ 0 < risk.takeProfit ∧ 0 < risk.riskPct
  protected_ : Protected trade.side candle.closePrice risk.stopLoss risk.takeProfit
  sizes : Sizes ctx config equity candle risk trade.quantity
  fee : fee ctx candle.closePrice trade.quantity config.feeBps = .ok trade.fees
  affordable : trade.fees < balance
  status : trade.status = .opened
  entryTime : trade.entryTime = candle.openTime
  entryPrice : quantizeMoney ctx candle.closePrice = .ok trade.entryPrice
  stopLoss : quantizeMoney ctx risk.stopLoss = .ok trade.payload.stopLoss
  takeProfit : quantizeMoney ctx risk.takeProfit = .ok trade.payload.takeProfit
  realizedPnl : trade.realizedPnl = 0
  exit : trade.exit = none

theorem openTrade_eq_ok {config : Config} {session : Session} {decision : Decision}
    {balance equity : ℚ} {requestId : String}
    (h : openTrade ctx config session decision candle balance equity requestId =
      .ok (.opened trade)) :
    ∃ risk, Opens ctx config decision candle balance equity risk trade := by
  -- Every refusal returns before the trade is built; its checks are read off in their order.
  rw [openTrade] at h
  split at h
  · cases h
  rename_i risk hrisk
  split at h
  · cases h
  rename_i heligible
  split at h
  · cases h
  rename_i side hside
  simp only [bind_eq_ok, positive_eq_ok] at h
  obtain ⟨_, ⟨hclose, rfl⟩, _, ⟨hstop, rfl⟩, _, ⟨htarget, rfl⟩, h⟩ := h
  split at h
  · cases h
  rename_i hprotected
  simp only [bind_eq_ok, positive_eq_ok] at h
  obtain ⟨_, ⟨hpct, rfl⟩, amount, hamount, byRisk, hbyRisk, byLeverage, hbyLeverage, h⟩ := h
  split at h
  · cases h
  rename_i hquantity
  simp only [bind_eq_ok] at h
  obtain ⟨fee, hfee, h⟩ := h
  split at h
  · cases h
  rename_i hbalance
  simp only [bind_eq_ok, pure_eq_ok] at h
  obtain ⟨stop, hstop', target, htarget', distance, hdistance, price, hprice, h⟩ := h
  obtain rfl := Entry.opened.inj h
  exact ⟨risk, hrisk, by simpa using heligible, hside, hclose, ⟨hstop, htarget, hpct⟩,
    not_not.1 hprotected,
    ⟨amount, byRisk, byLeverage, hamount, hbyRisk, hbyLeverage, rfl, not_le.1 hquantity⟩, hfee,
    not_le.1 hbalance, rfl, rfl, hprice, hstop', htarget', rfl, rfl⟩

/-! ## A candle -/

/-- What a mark does. -/
structure Marks (ctx : Context) (plan : Plan) (candle : Candle) (sim : Sim) (mark : Mark)
    (sim' : Sim) : Prop where
  equity : markedEquity ctx sim.balance sim.open_ candle.closePrice =
    .ok (mark.equity, mark.unrealizedPnl)
  time : mark.candleOpenTime = candle.openTime
  balance : mark.balance = sim.balance
  sim : sim' = { sim with
    equity := mark.equity
    events := sim.events ++ [.pnlMarked plan.requestId mark]
    marks := sim.marks ++ [mark] }

theorem marks_eq_ok (h : marks ctx plan candle sim = .ok sim') :
    ∃ mark, Marks ctx plan candle sim mark sim' := by
  simp only [marks, bind_eq_ok, pure_eq_ok] at h
  obtain ⟨⟨equity, unrealized⟩, hequity, rfl⟩ := h
  exact ⟨⟨candle.openTime, sim.balance, equity, unrealized, sim.open_.map (·.entryTime)⟩, hequity,
    rfl, rfl, rfl⟩

theorem exits_cases (h : exits ctx plan candle sim = .ok sim') :
    sim' = sim ∨ ∃ trade decision exit closed, sim.open_ = some trade ∧
      exitDecision trade candle = .ok (some decision) ∧
      Leaves ctx plan candle trade decision sim exit closed sim' := by
  rw [exits] at h
  split at h
  · exact .inl (pure_eq_ok.1 h).symm
  rename_i trade hopen
  obtain ⟨decision, hdecision, h⟩ := bind_eq_ok.1 h
  rcases decision with _ | decision
  · exact .inl (pure_eq_ok.1 h).symm
  · obtain ⟨exit, closed, hl⟩ := leave_eq_ok h
    exact .inr ⟨trade, decision, exit, closed, hopen, hdecision, hl⟩

theorem ends_cases (h : ends ctx plan candle sim = .ok sim') :
    (sim' = sim ∧ (plan.isFinal candle = true → sim.open_ = none)) ∨
      ∃ trade exit closed, sim.open_ = some trade ∧
      Leaves ctx plan candle trade ⟨.sessionEnd, candle.closePrice, false⟩ sim exit closed sim' := by
  rw [ends] at h
  split at h
  · rename_i hopen
    exact .inl ⟨(pure_eq_ok.1 h).symm, fun _ => hopen⟩
  rename_i trade hopen
  split at h
  · obtain ⟨exit, closed, hl⟩ := leave_eq_ok h
    exact .inr ⟨trade, exit, closed, hopen, hl⟩
  · rename_i hfinal
    exact .inl ⟨(pure_eq_ok.1 h).symm, fun h => absurd h hfinal⟩

/-- The stages of a candle. -/
theorem simulateCandle_eq_ok (h : simulateCandle ctx plan sim candle = .ok sim') :
    ∃ sim₁ sim₂ sim₃, 0 < candle.closePrice ∧ exits ctx plan candle sim = .ok sim₁ ∧
      enters ctx plan candle sim₁ = .ok sim₂ ∧ ends ctx plan candle sim₂ = .ok sim₃ ∧
      marks ctx plan candle sim₃ = .ok sim' := by
  simp only [simulateCandle, bind_eq_ok, positive_eq_ok] at h
  obtain ⟨_, ⟨hclose, -⟩, sim₁, h₁, sim₂, h₂, sim₃, h₃, h₄⟩ := h
  exact ⟨sim₁, sim₂, sim₃, hclose, h₁, h₂, h₃, h₄⟩

variable (ctx) in
/-- A property of the simulation that the stages of a candle keep. -/
structure Kept (plan : Plan) (I : Sim → Prop) : Prop where
  leave : ∀ {candle trade decision sim exit closed sim'}, sim.open_ = some trade → I sim →
    Leaves ctx plan candle trade decision sim exit closed sim' → I sim'
  skip : ∀ {candle sim} decision reason, I sim → I (sim.skip plan candle decision reason)
  enter : ∀ {candle sim decision trade sim'}, I sim →
    Enters ctx plan candle sim decision trade sim' → I sim'
  mark : ∀ {candle sim mark sim'}, I sim → Marks ctx plan candle sim mark sim' → I sim'

variable {I : Sim → Prop}

/-- A candle keeps what its stages keep. -/
theorem Kept.keeps (hI : Kept ctx plan I) (h : simulateCandle ctx plan sim candle = .ok sim')
    (hs : I sim) : I sim' := by
  obtain ⟨sim₁, sim₂, sim₃, -, h₁, h₂, h₃, h₄⟩ := simulateCandle_eq_ok h
  have hs₁ : I sim₁ := by
    rcases exits_cases h₁ with rfl | ⟨_, _, _, _, hopen, -, hl⟩
    · exact hs
    · exact hI.leave hopen hs hl
  have hs₂ : I sim₂ := by
    rcases enters_cases h₂ with rfl | ⟨_, _, rfl⟩ | ⟨_, _, he⟩
    · exact hs₁
    · exact hI.skip _ _ hs₁
    · exact hI.enter hs₁ he
  have hs₃ : I sim₃ := by
    rcases ends_cases h₃ with ⟨rfl, -⟩ | ⟨_, _, _, hopen, hl⟩
    · exact hs₂
    · exact hI.leave hopen hs₂ hl
  obtain ⟨mark, hm⟩ := marks_eq_ok h₄
  exact hI.mark hs₃ hm

/-- The candles of a request keep what the stages of each keep. -/
theorem Kept.run (hI : Kept ctx plan I) {candles : List Candle}
    (h : candles.foldlM (simulateCandle ctx plan) sim = .ok sim') (hs : I sim) : I sim' := by
  induction candles generalizing sim with
  | nil => exact pure_eq_ok.1 h ▸ hs
  | cons candle candles ih =>
    rw [List.foldlM_cons] at h
    obtain ⟨sim₁, h₁, h⟩ := bind_eq_ok.1 h
    exact ih h (hI.keeps h₁ hs)

/-! ## The open trade -/

/-- The open trades. -/
def openTrades (trades : List Trade) : List Trade := trades.filter fun t => t.status = .opened

/-- The trade that the simulation holds open is the only open one. -/
def HoldsOpen (sim : Sim) : Prop := openTrades sim.trades = sim.open_.toList

/-- The only open trade of a list, and its place. -/
theorem openTrades_eq_singleton (h : openTrades trades = [trade]) :
    ∃ l₁ l₂, trades = l₁ ++ trade :: l₂ ∧ openTrades l₁ = [] ∧ openTrades l₂ = [] ∧
      trade.status = .opened := by
  obtain ⟨l₁, l₂, rfl, h₁, htrade, h₂⟩ := List.filter_eq_cons_iff.1 h
  exact ⟨l₁, l₂, rfl, List.filter_eq_nil_iff.2 h₁, h₂, by simpa using htrade⟩

/-- The only open trade is replaced by the closed one. -/
theorem updateOpenTrade_eq_ok {closed : Trade} (h : openTrades trades = [trade])
    (htime : closed.entryTime = trade.entryTime)
    (hu : updateOpenTrade trades closed = .ok trades') :
    ∃ l₁ l₂, trades = l₁ ++ trade :: l₂ ∧ trades' = l₁ ++ closed :: l₂ ∧
      openTrades l₁ = [] ∧ openTrades l₂ = [] := by
  obtain ⟨l₁, l₂, rfl, h₁, h₂, htrade⟩ := openTrades_eq_singleton h
  have keep : ∀ l : List Trade, openTrades l = [] →
      l.map (fun t => if t.entryTime = closed.entryTime ∧ t.status = .opened then closed else t) =
        l := fun l hl => by
    refine (List.map_congr_left fun t ht => ?_).trans l.map_id
    have : ¬ t.status = .opened := by simpa using List.filter_eq_nil_iff.1 hl t ht
    rw [if_neg fun h => this h.2, id]
  rw [updateOpenTrade] at hu
  split at hu
  · refine ⟨l₁, l₂, rfl, ?_, h₁, h₂⟩
    rw [← pure_eq_ok.1 hu, List.map_append, List.map_cons, keep l₁ h₁, keep l₂ h₂,
      if_pos ⟨htime.symm, htrade⟩]
  · cases hu

theorem insertTrade_eq_ok (h : insertTrade trades trade = .ok trades') :
    trades' = trades ++ [trade] := by
  rw [insertTrade] at h
  split at h
  · cases h
  · exact (pure_eq_ok.1 h).symm

theorem openTrades_append (l₁ l₂ : List Trade) :
    openTrades (l₁ ++ l₂) = openTrades l₁ ++ openTrades l₂ :=
  List.filter_append ..

theorem openTrades_singleton_of_closed (h : trade.status = .closed) : openTrades [trade] = [] := by
  simp [openTrades, h]

theorem openTrades_singleton_of_opened (h : trade.status = .opened) :
    openTrades [trade] = [trade] := by
  simp [openTrades, h]

theorem Leaves.status {exit : ExitPayload} {closed : Trade}
    (h : Leaves ctx plan candle trade decision sim exit closed sim') : closed.status = .closed := by
  obtain ⟨_, -, heq⟩ := h.closes.closed_eq
  rw [heq]

theorem Leaves.entryTime {exit : ExitPayload} {closed : Trade}
    (h : Leaves ctx plan candle trade decision sim exit closed sim') :
    closed.entryTime = trade.entryTime := by
  obtain ⟨_, -, heq⟩ := h.closes.closed_eq
  rw [heq]

/-- The trade that leaves is replaced by the closed one. -/
theorem Leaves.trades_eq {exit : ExitPayload} {closed : Trade} (hopen : sim.open_ = some trade)
    (hs : HoldsOpen sim) (h : Leaves ctx plan candle trade decision sim exit closed sim') :
    ∃ l₁ l₂, sim.trades = l₁ ++ trade :: l₂ ∧ sim'.trades = l₁ ++ closed :: l₂ ∧
      openTrades l₁ = [] ∧ openTrades l₂ = [] :=
  updateOpenTrade_eq_ok (by rw [hs, hopen]; rfl) h.entryTime h.trades

variable (ctx plan) in
theorem holdsOpen_kept : Kept ctx plan HoldsOpen where
  leave hopen hs h := by
    obtain ⟨l₁, l₂, -, htrades, h₁, h₂⟩ := h.trades_eq hopen hs
    rw [HoldsOpen, htrades, h.open_, List.append_cons, openTrades_append, openTrades_append, h₁,
      h₂, openTrades_singleton_of_closed h.status]
    rfl
  skip _ _ hs := hs
  enter hs h := by
    obtain ⟨_, ht⟩ := openTrade_eq_ok h.opens
    rw [HoldsOpen, h.open_, insertTrade_eq_ok h.trades, openTrades_append, hs, h.free,
      openTrades_singleton_of_opened ht.status]
    rfl
  mark hs h := by
    rw [h.sim]
    exact hs

/-- Where at most one trade is open, it is the one loaded. -/
theorem loadOpenTrade_of_le_one (h : (openTrades trades).length ≤ 1) :
    openTrades trades = (loadOpenTrade trades).toList := by
  rw [loadOpenTrade]
  change _ = ((openTrades trades).insertionSort _).head?.toList
  rcases hl : openTrades trades with _ | ⟨t, _ | ⟨t', l⟩⟩
  · rfl
  · rfl
  · rw [hl] at h
    simp at h

theorem holdsOpen_start {session : Session} {requestId : String}
    (h : (openTrades trades).length ≤ 1) : HoldsOpen (start session trades requestId) :=
  loadOpenTrade_of_le_one h

theorem HoldsOpen.le_one (h : HoldsOpen sim) : (openTrades sim.trades).length ≤ 1 := by
  rw [h]
  cases sim.open_ <;> simp

/-- The trade that is held open is the one that the next request loads. -/
theorem HoldsOpen.loadOpenTrade (h : HoldsOpen sim) : loadOpenTrade sim.trades = sim.open_ := by
  have hl := (loadOpenTrade_of_le_one h.le_one).symm.trans h
  rcases ht : Simulation.loadOpenTrade sim.trades with _ | t <;> rcases ho : sim.open_ with _ | t' <;>
    simp_all

end Simulation

end IntradayBot.Replay
