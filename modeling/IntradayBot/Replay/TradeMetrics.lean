import IntradayBot.Replay.Accounting
import IntradayBot.Replay.Exits
import IntradayBot.Replay.EquityCurve

/-!
# The two summaries of a session

The execution of a step writes a summary of the trades (`totals`), and the performance of the
session is calculated from the trades that are stored (`calculateTradeMetrics`). Both count the
same trades, and add up the same amounts: these have 8 decimals, so that no sum of them is rounded
if the metrics can be calculated at all. Only a trade that has realized exactly nothing is counted
apart in the metrics, and as a losing one in the summary (`metrics_agree_iff`).
-/

namespace IntradayBot.Replay

open Decimal Engine Simulation

variable {ctx : Context} {plan : Plan} {candle : Candle} {sim sim' : Sim} {trade closed : Trade}
  {trades : List Trade} {decision : ExitDecision} {exit : ExitPayload}

/-! ## The trades of a session -/

theorem Simulation.fee_nonneg {price quantity feeBps paid : ℚ} (hprice : 0 ≤ price)
    (hquantity : 0 ≤ quantity) (hfeeBps : 0 ≤ feeBps)
    (h : fee ctx price quantity feeBps = .ok paid) : 0 ≤ paid := by
  have hvalue : 0 ≤ ctx.mul price quantity := Context.fit_nonneg (mul_nonneg hprice hquantity)
  have hbps : 0 ≤ ctx.mul (ctx.mul price quantity) feeBps :=
    Context.fit_nonneg (mul_nonneg hvalue hfeeBps)
  exact Context.quantize_nonneg (quantizeMoney_eq_ok.1 h)
    (Context.fit_nonneg (div_nonneg hbps (by norm_num)))

/-- The trades have paid their fees, and each was entered at another time. -/
structure Charged (trades : List Trade) : Prop where
  fees : ∀ t ∈ trades, 0 ≤ t.fees
  entryTime : (trades.map (·.entryTime)).Nodup

namespace Charged

theorem nil : Charged [] := ⟨by simp, List.nodup_nil⟩

theorem leave (hs : Charged sim.trades) (hopen : sim.open_ = some trade) (hholds : HoldsOpen sim)
    (hprice : 0 < decision.price)
    (h : Leaves ctx plan candle trade decision sim exit closed sim') : Charged sim'.trades := by
  obtain ⟨l₁, l₂, htrades, htrades', -, -⟩ := h.trades_eq hopen hholds
  have hfees := hs.fees
  have htime := hs.entryTime
  rw [htrades] at hfees htime
  have hexit : 0 ≤ exit.exitFee :=
    fee_nonneg hprice.le h.closes.quantity.le plan.config.feeBps.2.1 h.closes.exitFee
  have hclosed : 0 ≤ closed.fees := Context.quantize_nonneg (quantizeMoney_eq_ok.1 h.closes.fees)
    (Context.fit_nonneg (add_nonneg (hfees trade (by simp)) hexit))
  rw [htrades']
  refine ⟨fun t ht => ?_, ?_⟩
  · rcases List.mem_append.1 ht with ht | ht
    · exact hfees t (List.mem_append_left _ ht)
    · rcases List.mem_cons.1 ht with rfl | ht
      · exact hclosed
      · exact hfees t (by simp [ht])
  · rw [List.map_append, List.map_cons] at htime ⊢
    rwa [h.entryTime]

theorem enter {decision : Decision} (hs : Charged sim.trades)
    (h : Enters ctx plan candle sim decision trade sim') : Charged sim'.trades := by
  obtain ⟨_, ho⟩ := openTrade_eq_ok h.opens
  obtain ⟨_, _, _, -, -, -, -, hquantity⟩ := ho.sizes
  have hfee : 0 ≤ trade.fees :=
    fee_nonneg ho.close.le hquantity.le plan.config.feeBps.2.1 ho.fee
  have hnew : trade.entryTime ∉ sim.trades.map (·.entryTime) := by
    intro hmem
    obtain ⟨t, ht, htime⟩ := List.mem_map.1 hmem
    have hinsert := h.trades
    rw [insertTrade, if_pos (List.any_eq_true.2 ⟨t, ht, decide_eq_true htime⟩)] at hinsert
    cases hinsert
  rw [insertTrade_eq_ok h.trades]
  refine ⟨fun t ht => ?_, ?_⟩
  · rcases List.mem_append.1 ht with ht | ht
    · exact hs.fees t ht
    · obtain rfl := List.mem_singleton.1 ht
      exact hfee
  · rw [List.map_append, List.map_singleton]
    exact hs.entryTime.append (List.nodup_singleton _) (by simpa using hnew)

/-- A candle keeps it: an exit is at a price of the trade or of the candle. -/
theorem simulate (hs : Charged sim.trades) (hholds : HoldsOpen sim)
    (h : simulateCandle ctx plan sim candle = .ok sim') : Charged sim'.trades := by
  have hkept := holdsOpen_kept ctx plan
  obtain ⟨sim₁, sim₂, sim₃, hclose, h₁, h₂, h₃, h₄⟩ := simulateCandle_eq_ok h
  obtain ⟨hs₁, hholds₁⟩ : Charged sim₁.trades ∧ HoldsOpen sim₁ := by
    rcases exits_cases h₁ with rfl | ⟨_, _, _, _, hopen, hdecision, hl⟩
    · exact ⟨hs, hholds⟩
    · exact ⟨hs.leave hopen hholds (exitDecision_pos hdecision) hl, hkept.leave hopen hholds hl⟩
  obtain ⟨hs₂, hholds₂⟩ : Charged sim₂.trades ∧ HoldsOpen sim₂ := by
    rcases enters_cases h₂ with rfl | ⟨_, _, rfl⟩ | ⟨_, _, he⟩
    · exact ⟨hs₁, hholds₁⟩
    · exact ⟨hs₁, hholds₁⟩
    · exact ⟨hs₁.enter he, hkept.enter hholds₁ he⟩
  have hs₃ : Charged sim₃.trades := by
    rcases ends_cases h₃ with ⟨rfl, -⟩ | ⟨_, _, _, hopen, hl⟩
    · exact hs₂
    · exact hs₂.leave hopen hholds₂ hclose hl
  obtain ⟨mark, hm⟩ := marks_eq_ok h₄
  rw [hm.sim]
  exact hs₃

theorem run {candles : List Candle} (hs : Charged sim.trades) (hholds : HoldsOpen sim)
    (h : candles.foldlM (simulateCandle ctx plan) sim = .ok sim') : Charged sim'.trades := by
  induction candles generalizing sim with
  | nil => exact pure_eq_ok.1 h ▸ hs
  | cons candle candles ih =>
    rw [List.foldlM_cons] at h
    obtain ⟨sim₁, h₁, h⟩ := bind_eq_ok.1 h
    exact ih (hs.simulate hholds h₁) ((holdsOpen_kept ctx plan).keeps h₁ hholds) h

end Charged

namespace Analytics

variable {session : Session} {m : Metrics} {totals : Totals} {l : List ℚ} {r : ℚ}

/-! ## The metrics -/

/-- What the closed trades have realized, in the order of the metrics. -/
def realized (trades : List Trade) : List ℚ :=
  ((sortBy tradeKey trades).filter fun t => t.status = .closed).map (·.realizedPnl)

theorem realized_perm (trades : List Trade) :
    (realized trades).Perm ((closedTrades trades).map (·.realizedPnl)) :=
  ((sortBy_perm tradeKey trades).filter _).map _

/-- What the metrics count, and what they add up. -/
structure Calculates (ctx : Context) (trades : List Trade) (session : Session) (m : Metrics) :
    Prop where
  closedTrades : m.closedTrades = (closedTrades trades).length
  openTrades : m.openTrades = trades.countP fun t => t.status = .opened
  winningTrades : m.winningTrades = (realized trades).countP (0 < ·)
  losingTrades : m.losingTrades = (realized trades).countP (· < 0)
  breakevenTrades : m.breakevenTrades = (realized trades).countP (· = 0)
  grossProfit : ctx.quantize moneyPlaces (ctx.sum ((realized trades).filter (0 < ·))) =
    some m.grossProfit
  grossLoss : ctx.quantize moneyPlaces (ctx.neg (ctx.sum ((realized trades).filter (· < 0)))) =
    some m.grossLoss
  netRealizedPnl : ctx.quantize moneyPlaces (ctx.sum (realized trades)) = some m.netRealizedPnl
  feesPaid : ctx.quantize moneyPlaces (ctx.sum ((sortBy tradeKey trades).map (·.fees))) =
    some m.feesPaid
  netPnl : ctx.quantize moneyPlaces (ctx.sub session.balance session.initialBalance) =
    some m.netPnl

theorem money_eq_ok {q : ℚ} : money ctx q = .ok r ↔ ctx.quantize moneyPlaces q = some r := by
  rw [money, quantized]
  split <;> simp [*]

theorem calculateTradeMetrics_eq_ok (h : calculateTradeMetrics ctx trades session = .ok m) :
    Calculates ctx trades session m := by
  simp only [calculateTradeMetrics, bind_eq_ok, pure_eq_ok, money_eq_ok] at h
  obtain ⟨_, -, _, -, profit, hprofit, loss, hloss, net, hnet, fees, hfees, _, -, _, -, _, -, _, -,
    _, -, _, -, _, -, _, -, netPnl, hnetPnl, _, -, rfl⟩ := h
  have hsorted := sortBy_perm tradeKey trades
  exact ⟨(hsorted.filter _).length_eq, hsorted.countP_eq _, rfl, rfl, rfl, hprofit, hloss, hnet,
    hfees, hnetPnl⟩

/-! ## Sums -/

/-- What quantizes is the sum of amounts of one sign. -/
theorem sum_of_quantize (hgrid : ∀ x ∈ l, OnGrid moneyPlaces x) (hsign : ∀ x ∈ l, 0 ≤ x)
    (h : ctx.quantize moneyPlaces (ctx.sum l) = some r) :
    ctx.Room moneyPlaces l.sum ∧ r = l.sum := by
  have hroom : ctx.Room moneyPlaces (ctx.sum l) := (Context.quantize_eq_some.1 h).1
  have hsum := Context.sum_of_room hgrid (.inl hsign) hroom
  rw [hsum] at hroom h
  exact ⟨hroom, Context.quantize_self (.sum hgrid) h⟩

theorem sum_of_quantize_neg (hgrid : ∀ x ∈ l, OnGrid moneyPlaces x) (hsign : ∀ x ∈ l, x ≤ 0)
    (h : ctx.quantize moneyPlaces (ctx.neg (ctx.sum l)) = some r) :
    ctx.Room moneyPlaces l.sum ∧ r = -l.sum := by
  have hneg : ctx.Room moneyPlaces (-ctx.sum l) :=
    Context.room_of_fit (Context.quantize_eq_some.1 h).1
  have hroom : ctx.Room moneyPlaces (ctx.sum l) := hneg.mono (abs_neg _).ge
  have hsum := Context.sum_of_room hgrid (.inr hsign) hroom
  rw [hsum] at hroom h
  exact ⟨hroom, Context.quantize_fit (OnGrid.sum hgrid).neg h⟩

/-- What the amounts of the metrics are. -/
structure Adds (trades : List Trade) (m : Metrics) : Prop where
  netRealizedPnl : m.netRealizedPnl = realizedSum trades
  profit : m.grossProfit - m.grossLoss = m.netRealizedPnl
  feesPaid : m.feesPaid = (trades.map (·.fees)).sum

/-- Amounts that have 8 decimals are added up without rounding. -/
theorem Calculates.adds (h : Calculates ctx trades session m) (hs : Charged trades)
    (hfees : ∀ t ∈ trades, OnGrid moneyPlaces t.fees)
    (hrealized : ∀ t ∈ trades, OnGrid moneyPlaces t.realizedPnl) : Adds trades m := by
  have hgrid : ∀ x ∈ realized trades, OnGrid moneyPlaces x := by
    intro x hx
    obtain ⟨t, ht, rfl⟩ := List.mem_map.1 ((realized_perm trades).mem_iff.1 hx)
    exact hrealized t (List.mem_filter.1 ht).1
  have hsorted : ((sortBy tradeKey trades).map (·.fees)).Perm (trades.map (·.fees)) :=
    (sortBy_perm tradeKey trades).map _
  obtain ⟨hpos, hprofit⟩ := sum_of_quantize (fun x hx => hgrid x (List.mem_filter.1 hx).1)
    (fun x hx => (of_decide_eq_true (List.mem_filter.1 hx).2).le) h.grossProfit
  obtain ⟨hneg, hloss⟩ := sum_of_quantize_neg (fun x hx => hgrid x (List.mem_filter.1 hx).1)
    (fun x hx => (of_decide_eq_true (List.mem_filter.1 hx).2).le) h.grossLoss
  -- With room for the gains and for the losses the running sum is never rounded.
  have hnet : m.netRealizedPnl = (realized trades).sum := by
    have hq := h.netRealizedPnl
    rw [Context.sum_of_room_parts hgrid hpos hneg] at hq
    exact Context.quantize_self (.sum hgrid) hq
  refine ⟨hnet.trans (realized_perm trades).sum_eq, ?_, ?_⟩
  · rw [hprofit, hloss, hnet, Context.sum_eq_parts (realized trades), sub_neg_eq_add]
  · have hpaid : ∀ x ∈ (sortBy tradeKey trades).map (·.fees), OnGrid moneyPlaces x ∧ 0 ≤ x := by
      intro x hx
      obtain ⟨t, ht, rfl⟩ := List.mem_map.1 (hsorted.mem_iff.1 hx)
      exact ⟨hfees t ht, hs.fees t ht⟩
    obtain ⟨-, hsum⟩ :=
      sum_of_quantize (fun x hx => (hpaid x hx).1) (fun x hx => (hpaid x hx).2) h.feesPaid
    exact hsum.trans hsorted.sum_eq

/-! ## Counts -/

theorem countP_signs (l : List ℚ) :
    l.countP (0 < ·) + l.countP (· < 0) + l.countP (· = 0) = l.length := by
  induction l with
  | nil => rfl
  | cons x l ih =>
    rcases lt_trichotomy x 0 with hx | rfl | hx
    · simp [hx, hx.not_gt, hx.ne]
      omega
    · simp
      omega
    · simp [hx, hx.not_gt, hx.ne']
      omega

/-- What is not positive is negative, but for what is zero. -/
theorem countP_nonpos_iff (l : List ℚ) :
    l.countP (· < 0) = l.countP (· ≤ 0) ↔ ∀ x ∈ l, x ≠ 0 := by
  have hsplit : l.countP (· ≤ 0) = l.countP (· < 0) + l.countP (· = 0) := by
    induction l with
    | nil => rfl
    | cons x l ih =>
      rcases lt_trichotomy x 0 with hx | rfl | hx
      · simp [hx, hx.le, hx.ne, ih]
        omega
      · simp [ih]
        omega
      · simp [hx.not_ge, hx.not_gt, hx.ne', ih]
  rw [hsplit, left_eq_add, List.countP_eq_zero]
  exact forall₂_congr fun x _ => by rw [decide_eq_true_iff]

/-! ## Sessions -/

/-- The summaries of the performance and of the execution agree. -/
structure Agree (m : Metrics) (totals : Totals) : Prop where
  closedTrades : m.closedTrades = totals.closedTrades
  openTrades : m.openTrades = totals.openTrades
  winningTrades : m.winningTrades = totals.winningTrades
  losingTrades : m.losingTrades = totals.losingTrades
  realizedPnl : m.netRealizedPnl = totals.realizedPnl
  feesPaid : m.feesPaid = totals.feesPaid
  netPnl : m.netPnl = totals.netPnl

/-- The summary of the execution counts the trades of the session. -/
structure Counts (ctx : Context) (db : Db) (totals : Totals) : Prop where
  closedTrades : totals.closedTrades = (Simulation.closedTrades db.trades).length
  openTrades : totals.openTrades = db.trades.countP fun t => t.status = .opened
  winningTrades : totals.winningTrades =
    (Simulation.closedTrades db.trades).countP fun t => 0 < t.realizedPnl
  losingTrades : totals.losingTrades =
    (Simulation.closedTrades db.trades).countP fun t => t.realizedPnl ≤ 0
  netPnl : ctx.quantize moneyPlaces (ctx.sub db.session.balance db.session.initialBalance) =
    some totals.netPnl

/-- Trades of other entry times have other keys. -/
theorem tradeKey_nodup (h : Charged trades) : (trades.map tradeKey).Nodup := by
  refine .of_map (fun key : ℤ ×ₗ ℤ => (ofLex key).2) ?_
  rw [List.map_map]
  exact h.entryTime

/-- The metrics do not depend on the order of the trades. -/
theorem calculateTradeMetrics_perm {trades' : List Trade} (h : Charged trades)
    (hperm : trades'.Perm trades) :
    calculateTradeMetrics ctx trades' session = calculateTradeMetrics ctx trades session := by
  rw [calculateTradeMetrics, sortBy_congr hperm (tradeKey_nodup h), calculateTradeMetrics]

theorem counts_step {request : StepRequest} {db db' : Db}
    {candles : {l : List Candle // l ≠ []}} {decisions : List Decision}
    (h : Stepped ctx request db candles decisions plan sim totals db') : Counts ctx db' totals := by
  obtain ⟨_, -, -, hsession⟩ := h.session
  have ht := h.totals_eq
  simp only [Simulation.totals, bind_eq_ok, pure_eq_ok, quantizeMoney_eq_ok] at ht
  obtain ⟨_, -, _, -, net, hnet, _, -, rfl⟩ := ht
  have htrades := h.trades
  refine ⟨?_, ?_, ?_, ?_, ?_⟩
  · rw [htrades]
  · rw [htrades]
  · rw [htrades]
  · rw [htrades]
  · rw [hsession]
    exact hnet

/-- What the trades and the summary of a session are, between two steps. -/
structure Audited (ctx : Context) (db : Db) : Prop where
  account : Account db
  charged : Charged db.trades
  counts : ∀ totals, db.session.summary.totals = some totals → Counts ctx db totals
  sums : ∀ totals, db.session.summary.totals = some totals →
    Sums db.session.initialBalance db.trades totals

theorem Audited.step {n k : ℕ} {request : StepRequest} {db db' : Db}
    {candles : {l : List Candle // l ≠ []}} {decisions : List Decision}
    (h : Audited ctx db) (ht : Tidy db n k)
    (hs : Stepped ctx request db candles decisions plan sim totals db') : Audited ctx db' := by
  obtain ⟨summary, -, hsummary, hsession⟩ := hs.session
  have htotals : db'.session.summary.totals = some totals := by rw [hsession]; exact hsummary
  refine ⟨hs.account h.account, ?_, fun totals' h' => ?_, fun totals' h' => ?_⟩
  · rw [hs.trades]
    exact Charged.run h.charged (holdsOpen_start ht.one) hs.sim_eq
  · obtain rfl : totals = totals' := Option.some.inj (htotals.symm.trans h')
    exact counts_step hs
  · obtain rfl : totals = totals' := Option.some.inj (htotals.symm.trans h')
    exact hs.sums h.account

/-- The two summaries agree, unless a closed trade has realized nothing. -/
theorem Audited.agree_iff {db : Db} (h : Audited ctx db)
    (ht : db.session.summary.totals = some totals) (hm : Calculates ctx db.trades db.session m) :
    Agree m totals ↔ ∀ t ∈ Simulation.closedTrades db.trades, t.realizedPnl ≠ 0 := by
  have hcounts := h.counts totals ht
  have hsums := h.sums totals ht
  have hadds := hm.adds h.charged h.account.booked.fees h.account.booked.realizedPnl
  have hperm := realized_perm db.trades
  have hlosing : totals.losingTrades = (realized db.trades).countP (· ≤ 0) := by
    rw [hcounts.losingTrades, hperm.countP_eq, List.countP_map]
    rfl
  have hiff : m.losingTrades = totals.losingTrades ↔
      ∀ t ∈ Simulation.closedTrades db.trades, t.realizedPnl ≠ 0 := by
    rw [hm.losingTrades, hlosing, countP_nonpos_iff]
    simp only [hperm.mem_iff, List.forall_mem_map]
  refine ⟨fun hagree => hiff.1 hagree.losingTrades, fun hne => ⟨?_, ?_, ?_, hiff.2 hne, ?_, ?_, ?_⟩⟩
  · rw [hm.closedTrades, hcounts.closedTrades]
  · rw [hm.openTrades, hcounts.openTrades]
  · rw [hm.winningTrades, hcounts.winningTrades, hperm.countP_eq, List.countP_map]
    rfl
  · rw [hadds.netRealizedPnl, hsums.realizedPnl]
  · rw [hadds.feesPaid, hsums.feesPaid]
  · exact Option.some.inj (hm.netPnl.symm.trans hcounts.netPnl)

/-- However many steps of a session succeed, its performance and its summary agree exactly if no
    closed trade has realized nothing. The metrics count every closed trade once, do not depend on
    the order of the trades, and can always be calculated in exact arithmetic. -/
theorem metrics_agree_iff {request : StartRequest} {now : ℤ} {source : CandleTable} {db db' : Db}
    {requests : List StepRequest} (hstart : startSession request now source = .ok db)
    (h : stepAll ctx requests db = .ok db') (ht : db'.session.summary.totals = some totals) :
    (ctx = .exact → ∃ m, calculateTradeMetrics ctx db'.trades db'.session = .ok m) ∧
      (∀ trades : List Trade, trades.Perm db'.trades → calculateTradeMetrics ctx trades db'.session =
        calculateTradeMetrics ctx db'.trades db'.session) ∧
      ∀ m, calculateTradeMetrics ctx db'.trades db'.session = .ok m →
        m.winningTrades + m.losingTrades + m.breakevenTrades = m.closedTrades ∧
        m.grossProfit - m.grossLoss = m.netRealizedPnl ∧
        (Agree m totals ↔ ∀ t ∈ Simulation.closedTrades db'.trades, t.realizedPnl ≠ 0) := by
  obtain ⟨n, hfresh⟩ := startSession_fresh hstart
  have hnone : ∀ totals, db.session.summary.totals ≠ some totals := by
    intro totals
    rw [hfresh.summary]
    exact (Option.some_ne_none _).symm
  -- A fresh session has no totals to audit; every step audits those it writes.
  have haudited : Audited ctx db :=
    ⟨hfresh.account (startSession_initialBalance hstart).1, hfresh.trades ▸ .nil,
      fun totals h => absurd h (hnone totals), fun totals h => absurd h (hnone totals)⟩
  obtain ⟨_, -, haudit⟩ := stepAll_keeps (P := fun _ => Audited ctx)
    (fun _ ht ha hs _ _ _ _ _ => ha.step ht hs) hfresh.tidy haudited h
  refine ⟨?_, fun trades hperm => calculateTradeMetrics_perm haudit.charged hperm, fun m hm => ?_⟩
  · rintro rfl
    exact calculateTradeMetrics_exact _ _
  have hc := calculateTradeMetrics_eq_ok hm
  have hadds := hc.adds haudit.charged haudit.account.booked.fees haudit.account.booked.realizedPnl
  refine ⟨?_, hadds.profit, haudit.agree_iff ht hc⟩
  rw [hc.winningTrades, hc.losingTrades, hc.breakevenTrades, hc.closedTrades, countP_signs,
    (realized_perm _).length_eq, List.length_map]

/-- The rising prices, but for the last candle, which stays where the one before it closes. -/
def evenCandles : CandleTable where
  rows := (List.range 50).map risingCandle ++
    [{ risingCandle 49 with openTime := (risingCandle 50).openTime }]
  sorted := by decide +kernel

/-- A session over them, without fees. -/
def evenStart : Except ReplayError Db :=
  startSession
    { sessionId := "session"
      symbol := "BTCUSDT"
      timeframe := .m5
      requestedStart := 1700000100000
      requestedEnd := 1700015100000
      initialBalance := some (.num 1000)
      strategyMode := .balanced
      config := .obj [("replayFeeBps", .num 0)] }
    1800000000000 evenCandles

/-- The trade of the session leaves at the price that it was entered at. -/
theorem even_run : ∃ db db' totals m, evenStart = .ok db ∧
    stepAll .default [risingStep] db = .ok db' ∧ db'.session.summary.totals = some totals ∧
    calculateTradeMetrics .default db'.trades db'.session = .ok m ∧
    m.losingTrades = 0 ∧ totals.losingTrades = 1 := by
  have h : evenStart.toOption.any fun db =>
      (stepAll .default [risingStep] db).toOption.any fun db' =>
        db'.session.summary.totals.any fun totals =>
          (calculateTradeMetrics .default db'.trades db'.session).toOption.any fun m =>
            decide (m.losingTrades = 0 ∧ totals.losingTrades = 1) := by
    decide +kernel
  obtain ⟨db, hdb, h⟩ := any_toOption.1 h
  obtain ⟨db', hdb', h⟩ := any_toOption.1 h
  obtain ⟨totals, htotals, h⟩ := (Option.any_eq_true _ _).1 h
  obtain ⟨m, hm, h⟩ := any_toOption.1 h
  obtain ⟨hmetrics, hsummary⟩ := of_decide_eq_true h
  exact ⟨db, db', totals, m, hdb, hdb', htotals, hm, hmetrics, hsummary⟩

/-- In this session, they do not agree. -/
theorem metrics_agree_iff_even : ∃ db db' totals m, evenStart = .ok db ∧
    stepAll .default [risingStep] db = .ok db' ∧ db'.session.summary.totals = some totals ∧
    calculateTradeMetrics .default db'.trades db'.session = .ok m ∧
    (Agree m totals ↔ ∀ t ∈ Simulation.closedTrades db'.trades, t.realizedPnl ≠ 0) := by
  obtain ⟨db, db', totals, m, hdb, hdb', htotals, hm, -⟩ := even_run
  exact ⟨db, db', totals, m, hdb, hdb', htotals, hm,
    ((metrics_agree_iff hdb hdb' htotals).2.2 m hm).2.2⟩

/-- The performance of a session and its summary do not always count the same trades as losing. -/
theorem not_metrics_agree : ¬∀ request now source db, startSession request now source = .ok db →
    ∀ requests db', stepAll .default requests db = .ok db' →
      ∀ totals, db'.session.summary.totals = some totals →
        ∃ m, calculateTradeMetrics .default db'.trades db'.session = .ok m ∧ Agree m totals := by
  intro hall
  obtain ⟨db, db', totals, m, hdb, hdb', htotals, hm, hmetrics, hsummary⟩ := even_run
  obtain ⟨m', hm', hagree⟩ := hall _ _ _ db hdb _ db' hdb' totals htotals
  obtain rfl : m = m' := Except.ok.inj (hm.symm.trans hm')
  have := hagree.losingTrades
  rw [hmetrics, hsummary] at this
  cases this

end Analytics

end IntradayBot.Replay
