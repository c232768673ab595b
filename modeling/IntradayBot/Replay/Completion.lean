import IntradayBot.Replay.Moderate

/-!
# Sessions that complete

A step that raises leaves its session to recover, and a retry raises again when it is because of
the data. Over candles of moderate prices, whose ranges leave the stops and the targets of the
strategy above zero (`Tame`), nothing raises as long as the account is of moderate size before each
step (`Modest`): the session is never stuck, and completes (`session_completes`).

On candles that fall fast enough the strategy plans a target below zero, and the session is stuck
(`not_completes_falling`).
-/

namespace IntradayBot.Replay

open Decimal Engine Simulation

variable {db db' : Db} {n k : ℕ} {plan : Plan} {candle : Candle} {sim sim' : Sim}
  {trade : Trade} {initial low high : ℚ} {time : ℤ} {request : StepRequest}

/-! ## Conditions -/

/-- The prices of the frozen candles are between the bounds, and where the strategy signals a side,
    the range of the candles leaves the prices of its plan above zero. -/
structure Tame (candles : List Candle) (low high : ℚ) : Prop where
  quantum_le : MONEY_QUANTUM ≤ low
  high_le : high ≤ 10 ^ 12
  within : ∀ candle ∈ candles, candle.Within low high
  signalled : ∀ candle ∈ candles, Signalled candles candle

/-- What an open trade may be worth, at its own prices and at the highest one. -/
def Trade.stake (high : ℚ) (trade : Trade) : ℚ :=
  (1 + 2 * trade.quantity) * (trade.entryPrice + trade.payload.stopLoss + trade.payload.takeProfit +
    high) + |trade.fees|

/-- The size of an account: its balance and equity, what it has paid and realized, and what its open
    trade may be worth. -/
def Db.stake (high : ℚ) (db : Db) : ℚ :=
  1 + db.session.balance + db.session.equity + |feesSum db.trades| + |realizedSum db.trades| +
    (loadOpenTrade db.trades).elim 0 (Trade.stake high)

/-- The account is of moderate size, also if it grows by a twentieth with each candle. -/
structure Modest (low high : ℚ) (request : StepRequest) (db : Db) : Prop where
  le : (21 / 20) ^ request.steps * db.stake high ≤ 10 ^ 13
  mul_le : (21 / 20) ^ request.steps * db.stake high * (1 + high) ≤ 10 ^ 16 * low

instance : Decidable (Modest low high request db) :=
  decidable_of_iff ((21 / 20) ^ request.steps * db.stake high ≤ 10 ^ 13 ∧
    (21 / 20) ^ request.steps * db.stake high * (1 + high) ≤ 10 ^ 16 * low)
    ⟨fun ⟨h₁, h₂⟩ => ⟨h₁, h₂⟩, fun ⟨h₁, h₂⟩ => ⟨h₁, h₂⟩⟩

/-- The request is the next one of a client: it is new, and knows where the session is. -/
structure Sends (request : StepRequest) (db : Db) : Prop where
  new : db.requests.get? request.requestId = none
  cursor : request.expectedCursorTime = db.session.cursorTime

instance : Decidable (Sends request db) :=
  decidable_of_iff ((db.requests.get? request.requestId).isNone ∧
    request.expectedCursorTime = db.session.cursorTime)
    ⟨fun ⟨h₁, h₂⟩ => ⟨Option.isNone_iff_eq_none.1 h₁, h₂⟩,
      fun ⟨h₁, h₂⟩ => ⟨Option.isNone_iff_eq_none.2 h₁, h₂⟩⟩

/-! ## The start of a step -/

/-- The prices of an open trade, and their values, are part of its stake. -/
theorem Trade.stake_bounds (h : Stored trade) (hhigh : 0 ≤ high) :
    (∀ price ∈ [trade.entryPrice, trade.payload.stopLoss, trade.payload.takeProfit, high],
        price ≤ trade.stake high ∧ price * trade.quantity ≤ trade.stake high) ∧
      |trade.fees| ≤ trade.stake high ∧
      2 * (trade.entryPrice + trade.payload.stopLoss + trade.payload.takeProfit + high) *
        trade.quantity ≤ trade.stake high := by
  have hfees := abs_nonneg trade.fees
  obtain ⟨hentry, hq, hstop, htarget⟩ := h
  set sum := trade.entryPrice + trade.payload.stopLoss + trade.payload.takeProfit + high with hsum
  have hpos : 0 ≤ sum := by linarith
  have hstake : trade.stake high = sum + 2 * sum * trade.quantity + |trade.fees| := by
    rw [Trade.stake, ← hsum]
    ring
  have hmul : 0 ≤ sum * trade.quantity := mul_nonneg hpos hq.le
  have hbound : ∀ {price}, price ≤ sum → price ≤ trade.stake high ∧
      price * trade.quantity ≤ trade.stake high := by
    intro price hle
    have := mul_le_mul_of_nonneg_right hle hq.le
    exact ⟨by linarith, by linarith⟩
  refine ⟨?_, by linarith, by linarith⟩
  simp only [List.forall_mem_cons]
  exact ⟨hbound (by linarith), hbound (by linarith), hbound (by linarith), hbound (by linarith),
    List.forall_mem_nil _⟩

/-- What a stored trade gains is part of its stake. -/
theorem Trade.gain_le_stake (h : Stored trade) (hhigh : MONEY_QUANTUM ≤ high) :
    trade.gain ≤ trade.stake high := by
  have hquantum := quantum_pos
  obtain ⟨-, -, hstake⟩ := trade.stake_bounds h (hquantum.le.trans hhigh)
  obtain ⟨hentry, hq, hstop, htarget⟩ := h
  have hspan : trade.span ≤ trade.entryPrice + trade.payload.stopLoss + trade.payload.takeProfit +
      high := by
    have hbest : direction trade.side * (trade.best - trade.entryPrice) ≤
        trade.entryPrice + trade.payload.stopLoss + trade.payload.takeProfit := by
      rw [Trade.best]
      cases trade.side with
      | buy =>
        have := max_le_add_of_nonneg hstop.le htarget.le
        simp only [direction, one_mul]
        linarith
      | sell =>
        have := (lt_min hstop htarget).le
        simp only [direction]
        linarith
    have := max_le (by linarith : (0 : ℚ) ≤ trade.entryPrice + trade.payload.stopLoss +
      trade.payload.takeProfit) hbest
    rw [Trade.span]
    linarith
  have := mul_le_mul_of_nonneg_right hspan hq.le
  have hpos : 0 ≤ (trade.entryPrice + trade.payload.stopLoss + trade.payload.takeProfit + high) *
      trade.quantity := mul_nonneg (by linarith) hq.le
  rw [Trade.gain]
  linarith

/-- The simulation of a step starts at the size of the account. -/
theorem Modest.moderate (h : Modest low high request db) (hhigh : MONEY_QUANTUM ≤ high)
    (hready : Ready .default initial time (start db.session db.trades request.requestId)) :
    1 ≤ db.stake high ∧ db.stake high ≤ 10 ^ 13 ∧
      Moderate high (db.stake high) (db.stake high)
        (start db.session db.trades request.requestId) := by
  have hbalance : 0 ≤ db.session.balance := hready.booked.balance
  have hequity : 0 ≤ db.session.equity := hready.booked.equity
  have hfees := abs_nonneg (feesSum db.trades)
  have hrealized := abs_nonneg (realizedSum db.trades)
  have hopen : 0 ≤ (loadOpenTrade db.trades).elim 0 (Trade.stake high) := by
    rcases ht : loadOpenTrade db.trades with _ | trade
    · exact le_rfl
    · exact (abs_nonneg _).trans
        (trade.stake_bounds (hready.stored trade ht) (quantum_pos.le.trans hhigh)).2.1
  have hstake : db.stake high = 1 + db.session.balance + db.session.equity +
    |feesSum db.trades| + |realizedSum db.trades| +
      (loadOpenTrade db.trades).elim 0 (Trade.stake high) := rfl
  have hone : 1 ≤ db.stake high := by linarith
  have hle : db.stake high ≤ 10 ^ 13 :=
    (le_mul_of_one_le_left (by linarith) (one_le_pow₀ (by norm_num))).trans h.le
  refine ⟨hone, hle, ⟨?_, ?_, fun trade ht => ?_, ?_⟩⟩
  · change db.session.balance ≤ _
    linarith
  · change db.session.equity ≤ _
    linarith
  · have ht : loadOpenTrade db.trades = some trade := ht
    have hstored := hready.stored trade ht
    obtain ⟨hprices, hfee, -⟩ := trade.stake_bounds hstored (quantum_pos.le.trans hhigh)
    have hgain := trade.gain_le_stake hstored hhigh
    rw [ht, Option.elim_some] at hstake
    have hbound : ∀ {x}, x ≤ trade.stake high → x ≤ 10 ^ 13 := fun hx => by linarith
    refine ⟨⟨fun price hmem => ?_, ?_, ?_⟩, ?_⟩
    · obtain ⟨hprice, hworth⟩ := hprices price (List.mem_append_left [high] hmem)
      exact ⟨hbound hprice, (hbound hworth).trans (by norm_num [maxWorth])⟩
    · exact (hbound (hprices high (by simp)).2).trans (by norm_num [maxWorth])
    · exact (hbound hfee).trans (by norm_num)
    · change db.session.balance + trade.gain ≤ _
      linarith
  · simp only [List.forall_mem_cons]
    refine ⟨?_, ?_, ?_, ?_, List.forall_mem_nil _⟩
    · change |feesSum db.trades| ≤ _
      linarith
    · change |realizedSum db.trades| ≤ _
      linarith
    · change |(0 : ℚ)| ≤ _
      rw [abs_zero]
      linarith
    · change |(0 : ℚ)| ≤ _
      rw [abs_zero]
      linarith

/-- The strategy can size what it plans. -/
theorem Plans.affords {signal : Signal} {risk : RiskPlan} {side : Side} {atr equity : ℚ}
    (h : Plans candle signal risk side atr) (hclose : candle.closePrice ≤ 10 ^ 12)
    (hequity : 0 ≤ equity ∧ equity ≤ 10 ^ 13) : Affords .default equity risk := by
  refine ⟨room_of_lt ?_, fun amount hamount => room_of_lt ?_⟩
  · exact (abs_riskAmount_le hequity.1 h.riskPct).trans_lt (by linarith)
  · have hrisk := riskAmount_le hequity.1 h.riskPct hamount
    have hdistance := (h.spaced hclose).quantum_le
    rw [← h.stopDistance, MONEY_QUANTUM, moneyPlaces] at hdistance
    have hpos : 0 < risk.stopDistance := lt_of_lt_of_le (by norm_num) hdistance
    refine (abs_div_le amount risk.stopDistance).trans_lt ?_
    rw [abs_of_pos hpos, mul_div_assoc', div_lt_iff₀ hpos]
    linarith

/-! ## Steps -/

/-- A session that has never been stuck, over `k` of its `n` candles. -/
structure Steady (low high : ℚ) (db : Db) (n k : ℕ) : Prop where
  tidy : Tidy db n k
  tame : Tame db.candles low high
  ready : Ready .default db.session.initialBalance (db.session.timeAt k)
    (start db.session db.trades "")
  times : db.candles.map (·.openTime) = db.session.times n
  config : ∃ config, executionConfig db.session.config = .ok config
  initialBalance : 0 < db.session.initialBalance ∧ db.session.initialBalance ≤ maxBalance
  waits : k < n → db.session.status = .ready ∨ db.session.status = .paused
  completed : k = n → db.session.status = .completed

theorem Ready.congr (h : Ready .default initial time sim) (hbalance : sim'.balance = sim.balance)
    (hequity : sim'.equity = sim.equity) (hopen : sim'.open_ = sim.open_)
    (htrades : sim'.trades = sim.trades)
    (hfees : OnGrid moneyPlaces sim'.requestFees ∧ Context.default.Room moneyPlaces sim'.requestFees)
    (hrealized : OnGrid moneyPlaces sim'.requestRealized ∧
      Context.default.Room moneyPlaces sim'.requestRealized) : Ready .default initial time sim' := by
  refine ⟨h.booked.congr hbalance (hequity ▸ h.booked.equity) hopen htrades, ?_, ?_, ?_, ?_, ?_, ?_,
    hfees, hrealized⟩
  · rw [hopen]
    exact h.stored
  · rw [htrades]
    exact h.before
  · rw [hbalance]
    exact h.balance
  · rw [hequity]
    exact h.equity
  · rw [htrades]
    exact h.feesSum
  · rw [htrades]
    exact h.realizedSum

theorem onGrid_room_zero : OnGrid moneyPlaces 0 ∧ Context.default.Room moneyPlaces 0 :=
  ⟨.zero _, Context.room_zero _ _⟩

namespace Steady

/-- The request starts its own sums at zero; the rest of the account is the stored one. -/
theorem starts (h : Steady low high db n k) (request : StepRequest) :
    Ready .default db.session.initialBalance (db.session.timeAt k)
      (Simulation.start db.session db.trades request.requestId) :=
  h.ready.congr rfl rfl rfl rfl onGrid_room_zero onGrid_room_zero

theorem quantum_le_high (h : Steady low high db n k) {candles : {l : List Candle // l ≠ []}}
    (hb : batch db request.steps = .ok candles) : MONEY_QUANTUM ≤ high := by
  obtain ⟨c, hc⟩ := List.exists_mem_of_ne_nil _ candles.2
  have hwithin := h.tame.within c (mem_candles_of_batch hb hc)
  exact h.tame.quantum_le.trans (hwithin.close_mem.1.trans hwithin.close_mem.2)

/-- The strategy decides on the candles of a step. -/
theorem decides (h : Steady low high db n k) (hm : Modest low high request db)
    {candles : {l : List Candle // l ≠ []}} (hb : batch db request.steps = .ok candles) :
    Succeeds (candles.1.mapM (Strategy.decisionOf .default db.ensuredSnapshot
      (advanced request db.session candles))) := by
  obtain ⟨-, hle, hmoderate⟩ := hm.moderate (h.quantum_le_high hb) (h.starts request)
  refine .mapM fun candle hmem => ?_
  have hmem := mem_candles_of_batch hb hmem
  have hclose := (h.tame.within candle hmem).close_mem.2.trans h.tame.high_le
  refine .bind (evaluate_succeeds fun evaluation risk he hrisk => ?_) fun _ _ => .ok _
  obtain ⟨side, atr, hplans⟩ := evaluate_plans db.ensuredSnapshot.sorted hmem
    (h.tame.signalled candle hmem) he hrisk
  exact hplans.affords hclose ⟨h.ready.booked.equity, hmoderate.equity.trans hle⟩

/-- What a step decides on a candle is what the strategy plans there. -/
theorem planned (h : Steady low high db n k) {candles : {l : List Candle // l ≠ []}}
    {decisions : List Decision} {x : StepResponse} (hb : batch db request.steps = .ok candles)
    (hd : candles.1.mapM (Strategy.decisionOf .default db.ensuredSnapshot x) = .ok decisions)
    (hplan : plan.decisions = decisions) (hmem : candle ∈ db.candles) : Planned plan candle := by
  intro decision risk hat hrisk
  have hdecision : decision ∈ decisions := by
    rw [← hplan, ← List.mem_reverse]
    exact List.mem_of_find?_eq_some hat
  obtain ⟨c, hc, hdecided⟩ := exists_of_mem_mapM hd hdecision
  have hc := mem_candles_of_batch hb hc
  -- The decision is the one on this candle, since no other one has its time.
  have htime : c.openTime = candle.openTime := by
    rw [Plan.decisionAt] at hat
    rw [← decisionOf_time hdecided]
    simpa using List.find?_some hat
  have hnodup : (db.candles.map (·.openTime)).Nodup :=
    (List.pairwise_map.2 db.ensuredSnapshot.sorted).imp ne_of_lt
  obtain rfl := List.inj_on_of_nodup_map hnodup hc hmem htime
  obtain ⟨evaluation, he, hdecision⟩ := bind_eq_ok.1 hdecided
  obtain rfl := pure_eq_ok.1 hdecision
  exact evaluate_plans db.ensuredSnapshot.sorted hmem (h.tame.signalled c hmem) he hrisk

theorem scale (h : Steady low high db n k) (hm : Modest low high request db)
    {candles : {l : List Candle // l ≠ []}} (hb : batch db request.steps = .ok candles)
    (hone : 1 ≤ db.stake high) (hle : db.stake high ≤ 10 ^ 13) :
    Scale low high ((21 / 20) ^ candles.1.length * db.stake high)
      (db.stake high + candles.1.length * (3 * maxAmount)) := by
  obtain ⟨-, -, hslice⟩ := h.tidy.passed.slice request.one_le_steps hb
  have hlength : candles.1.length ≤ request.steps := by
    rw [hslice]
    exact (List.length_take_le _ _).trans (min_le_left _ _)
  have hhundred : (candles.1.length : ℚ) ≤ 100 := by
    exact_mod_cast hlength.trans request.steps_le
  have hhigh := quantum_pos.trans_le (h.quantum_le_high hb)
  have hmul : (21 / 20 : ℚ) ^ candles.1.length * db.stake high ≤
      (21 / 20) ^ request.steps * db.stake high :=
    mul_le_mul_of_nonneg_right (pow_le_pow_right₀ (by norm_num) hlength) (by linarith)
  refine ⟨h.tame.quantum_le, h.tame.high_le, ?_, hmul.trans hm.le,
    (mul_le_mul_of_nonneg_right hmul (by linarith)).trans hm.mul_le, ?_⟩
  · exact one_le_mul_of_one_le_of_one_le (one_le_pow₀ (by norm_num)) hone
  · rw [maxAmount]
    linarith

/-- The candles of a step are simulated. -/
theorem simulates (h : Steady low high db n k) (hm : Modest low high request db)
    {candles : {l : List Candle // l ≠ []}} {decisions : List Decision} {config : Config}
    (hb : batch db request.steps = .ok candles)
    (hd : candles.1.mapM (Strategy.decisionOf .default db.ensuredSnapshot
      (advanced request db.session candles)) = .ok decisions)
    (hplan : plan = Simulation.plan config (advanced request db.session candles).session
      request.requestId (advanced request db.session candles) decisions) :
    ∃ sim totals, candles.1.foldlM (simulateCandle .default plan)
        (start plan.session db.trades request.requestId) = .ok sim ∧
      Simulation.totals .default plan sim = .ok totals ∧
      Succeeds (Simulation.execution .default sim totals) ∧
      Ready .default db.session.initialBalance ((candles.1.getLast candles.2).openTime + 1) sim := by
  subst hplan
  obtain ⟨hk, htimes, hslice⟩ := h.tidy.passed.slice request.one_le_steps hb
  have hsorted : candles.1.Pairwise fun a b => a.openTime < b.openTime :=
    hslice ▸ db.ensuredSnapshot.sorted.sublist ((List.take_sublist ..).trans (List.drop_sublist ..))
  have hfirst : ∀ c ∈ candles.1, db.session.timeAt k ≤ c.openTime := by
    intro c hmem
    obtain ⟨-, htime⟩ := times_of_slice candles.2 htimes (by omega) hslice
    obtain ⟨i, hi, -, hc⟩ := htime c hmem
    rw [hc, Session.timeAt_le]
    exact hi
  have hready := h.starts request
  obtain ⟨hone, hle, hmoderate⟩ := hm.moderate (h.quantum_le_high hb) hready
  obtain ⟨sim, hsim, hs⟩ := hmoderate.run hone (h.scale hm hb hone hle) hready candles.2 hsorted
    hfirst (fun c hc => h.tame.within c (mem_candles_of_batch hb hc))
    fun c hc => @planned _ _ _ (Simulation.plan config _ request.requestId _ decisions) _ _ _ _ h _ _ _
      hb hd rfl (mem_candles_of_batch hb hc)
  have hbound : OnGrid moneyPlaces maxBalance := ⟨maxBalance.num * 10 ^ 8, by
    norm_num [maxBalance, moneyPlaces]⟩
  obtain ⟨totals, htotals⟩ : Succeeds (Simulation.totals .default (Simulation.plan config
      (advanced request db.session candles).session request.requestId
      (advanced request db.session candles) decisions) sim) :=
    Ready.totals hs hbound (room_of_lt (by norm_num [maxBalance]))
      ⟨h.initialBalance.1.le, h.initialBalance.2⟩
  exact ⟨sim, totals, hsim, htotals, hs.execution, hs⟩

/-- A step of a session that waits for it succeeds. -/
theorem succeeds (h : Steady low high db n k) (hk : k < n) (hs : Sends request db)
    (hm : Modest low high request db) :
    Succeeds (stepOnce .default request db) := by
  obtain ⟨config, hconfig⟩ := h.config
  obtain ⟨candles, hb⟩ := h.tidy.passed.exists_batch h.times hk request.one_le_steps
  rw [stepOnce]
  refine .bind ?_ fun _ _ => ?_
  · rw [validateExecutionPreflight, hconfig]
    exact .ok _
  have hadvance : advanceSession request db =
      .ok (advanced request db.session candles, db.advance request candles) := by
    have hstatus : ¬ db.session.status ∉ [.ready, .paused] := by
      rcases h.waits hk with hw | hw <;> simp [hw]
    rw [advanceSession, hs.new]
    dsimp only
    rw [if_neg hstatus, if_neg (not_not.2 hs.cursor), hb]
    rfl
  -- The four transactions of a step, each from what the one before it recorded.
  refine .bind ⟨_, hadvance⟩ fun p hp => ?_
  obtain rfl := Except.ok.inj (hadvance.symm.trans hp)
  have hrx := Recorded.advance request db candles
  refine .bind (hrx.strategy_succeeds (h.decides hm hb)) fun p hp => ?_
  obtain ⟨x, db₁⟩ := p
  rcases hrx.strategy_cases hp with ⟨hne, -⟩ | ⟨stored, decisions, -, -, hdecided, hx, rfl⟩
  · exact absurd rfl hne
  have hry : Recorded { (db.advance request candles).respond stored x with
      events := (db.advance request candles).events ++ decisions.flatMap Strategy.events } x :=
    .respond (db.advance request candles) stored x
  obtain ⟨sim, totals, hsim, htotals, hexecution, -⟩ := h.simulates hm hb hdecided rfl
  have hstrategy : x.strategy = some (Strategy.result decisions) := by
    rw [hx]
    rfl
  refine .bind (hry.execution_succeeds hstrategy hconfig h.initialBalance.1
    ⟨sim, totals, by rw [hx]; exact hsim, by rw [hx]; exact htotals, hexecution⟩) fun p hp => ?_
  obtain ⟨z, db₂⟩ := p
  have hrz : Recorded db₂ z := by
    rcases hry.execution_cases hp with ⟨-, rfl, rfl⟩ | ⟨stored', _, _, _, _, _, -, -, -, -, -, hdb⟩
    · exact hry
    · rw [hdb]
      exact Recorded.congr (.respond _ stored' z) rfl
  exact hrz.finalize_succeeds

/-- After it, the session may go on. -/
theorem step (h : Steady low high db n k) (hk : k < n) (hs : Sends request db)
    (hm : Modest low high request db) :
    ∃ y db', stepOnce .default request db = .ok (y, db') ∧
      ∃ c, 0 < c ∧ Steady low high db' n (k + c) := by
  obtain ⟨⟨y, db'⟩, hstep⟩ := h.succeeds hk hs hm
  refine ⟨y, db', hstep, ?_⟩
  obtain ⟨candles, decisions, plan, sim, totals, hst⟩ := stepOnce_new hs.new hstep
  obtain ⟨c, hpos, hle, hslice, hcandles, htidy, hcompleted⟩ := hst.tidy h.tidy
  obtain ⟨config, hconfig, hplan⟩ := hst.plan_eq
  obtain ⟨sim', -, hsim, -, -, hready⟩ :=
    h.simulates hm hst.advances.batch hst.decided hplan
  obtain rfl := Except.ok.inj (hsim.symm.trans hst.sim_eq)
  obtain ⟨summary, -, -, hsession⟩ := hst.session
  have hsame : db'.session.timeframe = db.session.timeframe ∧
      db'.session.startTime = db.session.startTime ∧ db'.session.config = db.session.config := by
    rw [hsession, hst.plan_session]
    exact ⟨rfl, rfl, rfl⟩
  have htimes : db'.candles.map (·.openTime) = db'.session.times n := by
    rw [hcandles, h.times, Session.times, Session.times, hsame.1, hsame.2.1]
  have hlast : (candles.1.getLast candles.2).openTime + 1 ≤ db'.session.timeAt (k + c) := by
    have htime : db'.session.timeAt (k + c) = db.session.timeAt (k + c) := by
      rw [Session.timeAt, Session.timeAt, hsame.1, hsame.2.1]
    rw [(times_of_slice candles.2 h.times hle hslice).1, htime]
    exact Int.add_one_le_of_lt (db.session.timeAt_lt (by omega))
  have hstatus : db'.session.status = plan.targetStatus := by rw [hsession]
  rw [hst.targetStatus_eq h.tidy.pendingFinal] at hstatus
  -- The session completes exactly when the candles of the step are the last ones.
  refine ⟨c, hpos, htidy, ?_, ?_, htimes, ?_, ?_, fun hlt => .inr ?_, fun heq => ?_⟩
  · rw [hcandles]
    exact h.tame
  · rw [hst.initialBalance_eq, hst.trades]
    refine (hready.mono hlast).congr ?_ ?_ hready.booked.holdsOpen.loadOpenTrade rfl
      onGrid_room_zero onGrid_room_zero
    · rw [hsession]
      rfl
    · rw [hsession]
      rfl
  · rw [hsame.2.2]
    exact h.config
  · rw [hst.initialBalance_eq]
    exact h.initialBalance
  · rw [hstatus, if_neg (mt hcompleted.1 (by omega))]
  · rw [hstatus, if_pos (hcompleted.2 heq)]

end Steady

/-! ## Runs -/

/-- The session after so many steps of a client. -/
def stepsBy (ctx : Context) (client : Db → StepRequest) : ℕ → Db → Except ReplayError Db
  | 0, db => return db
  | m + 1, db => do
    let (_, db) ← stepOnce ctx (client db) db
    stepsBy ctx client m db

theorem stepsBy_succ {client : Db → StepRequest} {m : ℕ} {y : StepResponse}
    (h : stepOnce .default (client db) db = .ok (y, db')) :
    stepsBy .default client (m + 1) db = stepsBy .default client m db' := by
  rw [stepsBy, h]
  rfl

/-- A session that is over does not change any more. -/
theorem stepsBy_over (ht : Tidy db n n) {client : Db → StepRequest} {m : ℕ}
    (h : stepsBy .default client m db = .ok db') : db' = db := by
  induction m with
  | zero => exact (pure_eq_ok.1 h).symm
  | succ m ih =>
    obtain ⟨⟨y, db₁⟩, hstep, hrest⟩ := bind_eq_ok.1 h
    rcases stepOnce_cases ht.staged ht.finalized hstep with rfl | ⟨_, _, _, _, _, hs⟩
    · exact ih hrest
    · obtain ⟨c, hpos, hle, -⟩ := hs.tidy ht
      omega

/-- A session of moderate size before each step completes, and none of its steps raises. -/
theorem Steady.completes (h : Steady low high db n k) {client : Db → StepRequest}
    (hok : ∀ m db', stepsBy .default client m db = .ok db' → db'.session.status ≠ .completed →
      Sends (client db') db' ∧ Modest low high (client db') db') :
    (∃ m db', stepsBy .default client m db = .ok db' ∧ db'.session.status = .completed) ∧
      ∀ m db', stepsBy .default client m db = .ok db' → db'.session.status ≠ .completed →
        Succeeds (stepOnce .default (client db') db') := by
  obtain ⟨d, hd⟩ := Nat.exists_eq_add_of_le h.tidy.passed.le
  -- On the number of candles left: every step takes at least one of them.
  induction d using Nat.strong_induction_on generalizing db k with
  | _ d ih =>
    rcases Nat.eq_zero_or_pos d with rfl | hpos
    · have hstatus := h.completed hd.symm
      rw [add_zero] at hd
      subst hd
      refine ⟨⟨0, db, rfl, hstatus⟩, fun m db' hm hne => absurd ?_ hne⟩
      rw [stepsBy_over h.tidy hm]
      exact hstatus
    · have hk : k < n := by omega
      have hne : db.session.status ≠ .completed := by
        rcases h.waits hk with hw | hw <;> simp [hw]
      obtain ⟨hs, hc⟩ := hok 0 db rfl hne
      obtain ⟨y, db₁, hstep, c, hcpos, h₁⟩ := h.step hk hs hc
      have hle := h₁.tidy.passed.le
      obtain ⟨⟨m, db', hm, hstatus⟩, hall⟩ := ih (d - c) (by omega) h₁
        (fun m db' hm => hok (m + 1) db' ((stepsBy_succ hstep).trans hm)) (by omega)
      refine ⟨⟨m + 1, db', (stepsBy_succ hstep).trans hm, hstatus⟩, fun m' db'' hm' hne' => ?_⟩
      rcases m' with _ | m'
      · obtain rfl := pure_eq_ok.1 hm'
        exact ⟨_, hstep⟩
      · exact hall m' db'' ((stepsBy_succ hstep).symm.trans hm') hne'

/-! ## Whole sessions -/

/-- The frozen candles of the session are on the grid of its timeframe, and none is missing. -/
def Continuous (db : Db) : Prop :=
  db.candles.map (·.openTime) =
    db.session.times (db.session.span db.session.startTime db.session.endTime).toNat

theorem Fresh.steady (h : Fresh db n)
    (hinitial : 0 < db.session.initialBalance ∧ db.session.initialBalance ≤ maxBalance)
    (hpreflight : validateExecutionPreflight db = .ok ()) (hcontinuous : Continuous db)
    (htame : Tame db.candles low high) : Steady low high db n 0 := by
  -- Nothing was traded, so all sums are empty and the balance is the initial one.
  have hbooked := (h.account hinitial.1.le).booked
  have htrades : (start db.session db.trades "").trades = [] := h.trades
  have hopen : (start db.session db.trades "").open_ = none := by
    change loadOpenTrade db.trades = none
    rw [h.trades]
    rfl
  have hbalance : (start db.session db.trades "").balance = db.session.initialBalance := h.balance
  refine ⟨h.tidy, htame, ⟨hbooked, ?_, ?_, ?_, .inl h.equity, ?_, ?_, onGrid_room_zero,
    onGrid_room_zero⟩, ?_, ?_, hinitial, fun _ => .inl h.status,
      fun hn => absurd hn h.passed.pos.ne⟩
  · simp [hopen]
  · simp [htrades]
  · rw [hbalance]
    exact room_of_lt (abs_lt.2 ⟨by linarith, hinitial.2.trans_lt (by norm_num [maxBalance])⟩)
  · rw [htrades]
    exact Context.room_zero _ _
  · rw [htrades]
    exact Context.room_zero _ _
  · rw [hcontinuous, h.passed.span, Int.toNat_natCast]
  · rw [validateExecutionPreflight] at hpreflight
    split at hpreflight
    · exact ⟨_, ‹_›⟩
    · cases hpreflight
    · cases hpreflight

/-- A session over continuous candles of moderate prices, of moderate size before each step, is
    stepped to its end, and none of its steps raises. -/
theorem session_completes {request : StartRequest} {now : ℤ} {source : CandleTable}
    (hstart : startSession request now source = .ok db)
    (hpreflight : validateExecutionPreflight db = .ok ()) (hcontinuous : Continuous db)
    (hinitial : 0 < db.session.initialBalance) (htame : Tame db.candles low high)
    {client : Db → StepRequest} (hok : ∀ m db', stepsBy .default client m db = .ok db' →
      db'.session.status ≠ .completed →
        Sends (client db') db' ∧ Modest low high (client db') db') :
    (∃ m db', stepsBy .default client m db = .ok db' ∧ db'.session.status = .completed) ∧
      ∀ m db', stepsBy .default client m db = .ok db' → db'.session.status ≠ .completed →
        Succeeds (stepOnce .default (client db') db') := by
  obtain ⟨n, hfresh⟩ := startSession_fresh hstart
  exact (hfresh.steady ⟨hinitial, (startSession_initialBalance hstart).2⟩ hpreflight hcontinuous
    htame).completes hok

/-- The client that steps over the session of rising prices: up to the candle that a trade is opened
    at, and then over the last one. -/
def risingClient (db : Db) : StepRequest :=
  if db.session.cursorTime = none then risingFirst
  else { risingLast with expectedCursorTime := db.session.cursorTime }

/-- The session of rising prices completes; a trade is opened on the way. -/
theorem session_completes_rising : ∃ db m db' m' db'', risingStart = .ok db ∧
    stepsBy .default risingClient m db = .ok db' ∧ (loadOpenTrade db'.trades).isSome ∧
    stepsBy .default risingClient m' db = .ok db'' ∧ db''.session.status = .completed := by
  -- One evaluation checks what the theorem asks of the session and of its client.
  have h : risingStart.toOption.any fun db => decide
      ((executionConfig db.session.config).toOption.isSome ∧
        db.candles.map (·.openTime) =
          db.session.times (db.session.span db.session.startTime db.session.endTime).toNat ∧
        db.session.span db.session.startTime db.session.endTime = 51 ∧
        0 < db.session.initialBalance ∧ MONEY_QUANTUM ≤ 1000 ∧ (4000 : ℚ) ≤ 10 ^ 12 ∧
        (∀ candle ∈ db.candles, candle.Within 1000 4000) ∧
        (∀ candle ∈ db.candles,
          Strategy.MIN_HISTORY ≤ (history db.candles candle.openTime).length →
            Leeway .sell candle.closePrice (Strategy.indicators .default
              (history db.candles candle.openTime)).atr14) ∧
        Sends (risingClient db) db ∧ Modest 1000 4000 (risingClient db) db ∧
        (stepOnce .default (risingClient db) db).toOption.any fun p => decide
          (p.2.session.nextTime = p.2.session.timeAt 50 ∧ (loadOpenTrade p.2.trades).isSome ∧
            Sends (risingClient p.2) p.2 ∧ Modest 1000 4000 (risingClient p.2) p.2)) := by
    decide +kernel
  obtain ⟨db, hdb, h⟩ := any_toOption.1 h
  obtain ⟨hconfig, hcontinuous, hspan, hinitial, hlow, hhigh, hwithin, hleeway, hsends, hmodest, h⟩ :=
    of_decide_eq_true h
  obtain ⟨⟨y, db₁⟩, hstep, h⟩ := any_toOption.1 h
  obtain ⟨hnext, hopen, hsends₁, hmodest₁⟩ := of_decide_eq_true h
  obtain ⟨n, hfresh⟩ := startSession_fresh hdb
  obtain ⟨config, hconfig⟩ := Option.isSome_iff_exists.1 hconfig
  have hpreflight : validateExecutionPreflight db = .ok () := by
    rw [validateExecutionPreflight]
    rcases he : executionConfig db.session.config with e | config'
    · rw [he] at hconfig
      cases hconfig
    · rfl
  have htame : Tame db.candles 1000 4000 := ⟨hlow, hhigh, hwithin, fun candle hmem hlen _ side _ =>
    (hleeway candle hmem hlen).of_sell side⟩
  have hsteady := hfresh.steady ⟨hinitial, (startSession_initialBalance hdb).2⟩ hpreflight
    hcontinuous htame
  obtain rfl : n = 51 := by
    have := hfresh.passed.span
    omega
  -- The first step leaves one candle, and the second one takes it.
  obtain ⟨_, _, hstep', c, -, hsteady₁⟩ := hsteady.step (by norm_num) hsends hmodest
  obtain ⟨rfl, rfl⟩ := Prod.mk.inj (Except.ok.inj (hstep.symm.trans hstep'))
  obtain rfl : c = 50 := by
    have := (Session.timeAt_inj db₁.session).1 (hsteady₁.tidy.passed.next.symm.trans hnext)
    omega
  obtain ⟨_, db₂, hstep₂, c, hpos, hsteady₂⟩ := hsteady₁.step (by norm_num) hsends₁ hmodest₁
  obtain rfl : c = 1 := by
    have := hsteady₂.tidy.passed.le
    omega
  have hok : ∀ m db', stepsBy .default risingClient m db = .ok db' →
      db'.session.status ≠ .completed →
        Sends (risingClient db') db' ∧ Modest 1000 4000 (risingClient db') db' := by
    intro m db' hm hne
    rcases m with _ | _ | m
    · obtain rfl := pure_eq_ok.1 hm
      exact ⟨hsends, hmodest⟩
    · rw [stepsBy_succ hstep] at hm
      obtain rfl := pure_eq_ok.1 hm
      exact ⟨hsends₁, hmodest₁⟩
    · rw [stepsBy_succ hstep, stepsBy_succ hstep₂] at hm
      rw [stepsBy_over hsteady₂.tidy hm] at hne
      exact absurd (hsteady₂.completed rfl) hne
  obtain ⟨m, db', hm, hdone⟩ :=
    (session_completes hdb hpreflight hcontinuous hinitial htame hok).1
  exact ⟨db, 1, db₁, m, db', hdb, stepsBy_succ hstep, hopen, hm, hdone⟩

/-- The candle is what is stored of a payload that is accepted. -/
def Accepted (candle : Candle) : Prop :=
  ∃ payload, (normalizeReplayCandle candle.openTime payload >>= Candle.stored) = .ok candle

/-- A payload of a candle. -/
def Candle.payload (c : Candle) : Json :=
  .obj [("open", .num c.openPrice), ("high", .num c.highPrice), ("low", .num c.lowPrice),
    ("close", .num c.closePrice), ("volume", .num c.volume)]

/-- A candle of a session whose prices fall faster and faster, each of them after a spike. -/
def fallingCandle (i : ℕ) : Candle where
  openTime := 1700000100000 + i * 300000
  openPrice := 10000 - i ^ 2
  highPrice := 20000 - i ^ 2
  lowPrice := 10000 - i ^ 2
  closePrice := 10000 - i ^ 2
  volume := 1
  turnover := none
  source := "bybit_public_kline"

/-- So many candles that the strategy decides on the last one but one. -/
def fallingCandles : CandleTable where
  rows := (List.range 51).map fallingCandle
  sorted := by decide +kernel

/-- A session over them. -/
def fallingStart : Except ReplayError Db :=
  startSession
    { sessionId := "session"
      symbol := "BTCUSDT"
      timeframe := .m5
      requestedStart := 1700000100000
      requestedEnd := 1700015100000
      initialBalance := some (.num 1000)
      strategyMode := .balanced
      config := .obj [] }
    1800000000000 fallingCandles

/-- The client that steps to the candle that the strategy decides on. -/
def fallingClient (_ : Db) : StepRequest := risingFirst

/-- When the target of a sale is below zero, the session is stuck. -/
theorem not_completes_falling : ¬ ∀ request now source db, startSession request now source = .ok db →
    validateExecutionPreflight db = .ok () → Continuous db → (∀ c ∈ db.candles, Accepted c) →
      ∀ client, (∀ m db', stepsBy .default client m db = .ok db' →
        db'.session.status ≠ .completed → Sends (client db') db') →
      ∃ m db', stepsBy .default client m db = .ok db' ∧ db'.session.status = .completed := by
  intro hall
  have h : fallingStart.toOption.any fun db => decide
      ((validateExecutionPreflight db).toOption.isSome ∧
        db.candles.map (·.openTime) =
          db.session.times (db.session.span db.session.startTime db.session.endTime).toNat ∧
        (∀ c ∈ db.candles, ((normalizeReplayCandle c.openTime c.payload >>=
          Candle.stored).toOption.any fun c' => c' = c) = true) ∧
        db.session.status ≠ .completed ∧
        (stepOnce .default (fallingClient db) db).toOption.isNone) := by
    decide +kernel
  obtain ⟨db, hdb, h⟩ := any_toOption.1 h
  obtain ⟨hpreflight, hcontinuous, haccepted, hstatus, hraises⟩ := of_decide_eq_true h
  obtain ⟨n, hfresh⟩ := startSession_fresh hdb
  have hpreflight : validateExecutionPreflight db = .ok () := by
    rcases hv : validateExecutionPreflight db with e | u <;> rw [hv] at hpreflight
    cases hpreflight
  -- the first step raises, so there is no other state than the first one
  have honly : ∀ m db', stepsBy .default fallingClient m db = .ok db' → db' = db := by
    intro m db' hm
    rcases m with _ | m
    · exact (pure_eq_ok.1 hm).symm
    · obtain ⟨p, hstep, -⟩ := bind_eq_ok.1 hm
      rw [hstep] at hraises
      cases hraises
  obtain ⟨m, db', hm, hdone⟩ := hall _ _ _ db hdb hpreflight hcontinuous
    (fun c hc => by
      obtain ⟨c', hc', heq⟩ := any_toOption.1 (haccepted c hc)
      obtain rfl := of_decide_eq_true heq
      exact ⟨_, hc'⟩)
    fallingClient fun m db' hm _ => by
      obtain rfl := honly m db' hm
      exact ⟨by rw [hfresh.requests]; rfl, hfresh.cursor.symm⟩
  obtain rfl := honly m db' hm
  exact hstatus hdone

end IntradayBot.Replay

