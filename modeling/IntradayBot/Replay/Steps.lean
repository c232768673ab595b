import IntradayBot.Replay.Retries

/-!
# Steps that succeed

A step that succeeds either repeats a request, and changes nothing, or it advances the session
over the next candles and simulates them (`Stepped`). What such steps keep holds after any
number of them (`stepAll_keeps`).
-/

namespace IntradayBot.Replay

open Engine Simulation

variable {ctx : Decimal.Context} {db db' : Db} {n k : ℕ} {request : StepRequest}
  {y : StepResponse}

/-- What a step does that succeeds, of a request that is new. -/
structure Stepped (ctx : Decimal.Context) (request : StepRequest) (db : Db)
    (candles : {l : List Candle // l ≠ []}) (decisions : List Decision) (plan : Plan) (sim : Sim)
    (totals : Totals) (db' : Db) : Prop where
  advances : Advances request db candles
  decided : candles.1.mapM
    (Strategy.decisionOf ctx db.ensuredSnapshot (advanced request db.session candles)) =
      .ok decisions
  plan_eq : ∃ config, executionConfig db.session.config = .ok config ∧
    plan = Simulation.plan config (advanced request db.session candles).session request.requestId
      (advanced request db.session candles) decisions
  initialBalance : 0 < db.session.initialBalance
  sim_eq : candles.1.foldlM (simulateCandle ctx plan)
    (start plan.session db.trades request.requestId) = .ok sim
  totals_eq : Simulation.totals ctx plan sim = .ok totals
  session : ∃ summary : Summary, summary.pendingFinalStatus = none ∧ summary.totals = some totals ∧
    db'.session = { plan.session with
      status := plan.targetStatus
      balance := sim.balance
      equity := sim.equity
      summary := summary }
  trades : db'.trades = sim.trades
  marks : db'.marks = db.marks ++ marksOf sim.events
  events : ∃ execution, db'.events = db.events ++
    stepEvents request db.session.cursorTime (advanced request db.session candles) ++
    decisions.flatMap Strategy.events ++ sim.events ++
    [.executionCompleted request.requestId execution]
  snapshot : db'.snapshot = db.ensuredSnapshot
  source : db'.source = db.source
  requests : ∃ stored : StoredStep, Complete stored.response ∧
    stored.response.requestId = request.requestId ∧ ∀ id, db'.requests.get? id =
      if id = request.requestId then some stored else db.requests.get? id

theorem marksOf_strategyEvents (decisions : List Decision) :
    marksOf (decisions.flatMap Strategy.events) = [] :=
  marksOf_eq_nil (markTimes_strategyEvents decisions)

/-- A step that succeeds, of a request that is new. -/
theorem stepOnce_new (hnew : db.requests.get? request.requestId = none)
    (h : stepOnce ctx request db = .ok (y, db')) : ∃ candles decisions plan sim totals,
      Stepped ctx request db candles decisions plan sim totals db' := by
  simp only [stepOnce, bind_eq_ok] at h
  obtain ⟨_, -, ⟨a, db₁⟩, ha, ⟨x, db₂⟩, hx, ⟨z, db₃⟩, hz, hy⟩ := h
  rcases advanceSession_cases ha with ⟨stored, hget, -⟩ | ⟨candles, hadvances, rfl, rfl⟩
  · rw [hnew] at hget
    cases hget
  -- The request is new, so none of the transactions after it finds its work done.
  have ha := Recorded.advance request db candles
  rcases ha.strategy_cases hx with ⟨hne, -⟩ | ⟨stored, decisions, -, -, hdecided, hx', rfl⟩
  · exact absurd rfl hne
  have hrx : Recorded { (db.advance request candles).respond stored x with
      events := (db.advance request candles).events ++ decisions.flatMap Strategy.events } x :=
    .respond (db.advance request candles) stored x
  rcases hrx.execution_cases hz with ⟨hne, -⟩ |
    ⟨stored', strategy, plan, sim, totals, execution, -, hstrategy, -, hexecutes, hz', hdb₃⟩
  · exact absurd (by rw [hx']; rfl) hne
  obtain rfl : strategy = Strategy.result decisions := by
    rw [hx'] at hstrategy
    exact (Option.some.inj hstrategy).symm
  have hrz : Recorded db₃ z :=
    (Recorded.respond ((db.advance request candles).respond stored x) stored' z).congr
      (by rw [hdb₃]; rfl)
  have hmark : markIdempotent (advanced request db.session candles) z = z := rfl
  rw [hmark] at hy
  rcases hrz.finalize_cases hy with ⟨hn | hf, -⟩ |
    ⟨stored'', execution', hexecution, -, -, hy', rfl⟩
  · rw [hz'] at hn
    cases hn
  · rw [hz', hx'] at hf
    cases hf
  subst hdb₃
  have hid : z.requestId = request.requestId := by rw [hz', hx']; rfl
  have hidx : x.requestId = request.requestId := by rw [hx']; rfl
  have hidy : y.requestId = request.requestId := by rw [hy', ← hid]; rfl
  obtain ⟨config, hconfig, hplan⟩ := hexecutes.plan_eq
  refine ⟨candles, decisions, plan, sim, totals, hadvances, hdecided,
    ⟨config, hconfig, by rw [hplan, hidx, hx']; rfl⟩, hexecutes.initialBalance, ?_,
    hexecutes.totals_eq, ⟨y.session.summary, ?_, ?_, ?_⟩, rfl, ?_,
    ⟨execution, by rw [← hidx]; rfl⟩, rfl, rfl,
    ⟨{ stored'' with response := y }, ⟨?_, ?_, ?_⟩, hidy, fun id => ?_⟩⟩
  · have := hexecutes.sim_eq
    rw [hplan, hidx, hx'] at this ⊢
    exact this
  · rw [hy']
    rfl
  · rw [hy', hz']
    rfl
  · rw [hy', hz']
    rfl
  · change marksOf (_ ++ _ ++ _ ++ _ ++ _) = marksOf _ ++ _
    rw [marksOf_append, marksOf_append, marksOf_append, marksOf_append, marksOf_strategyEvents,
      marksOf_eq_nil (markTimes_stepEvents _), show marksOf [_] = [] from rfl, List.append_nil,
      List.append_nil, List.append_nil]
  · rw [hy', hz', hx']
    exact Option.some_ne_none _
  · rw [hy']
    exact Option.some_ne_none _
  · rw [hy']
    rfl
  · change (OrdMap.set _ y.requestId _).get? id = _
    rw [OrdMap.get?_set, hidy]
    split
    · rfl
    · rename_i hne
      change (OrdMap.set _ z.requestId _).get? id = _
      rw [OrdMap.get?_set, hid, if_neg hne]
      change (OrdMap.set _ x.requestId _).get? id = _
      rw [OrdMap.get?_set, hidx, if_neg hne]
      change (OrdMap.set _ request.requestId _).get? id = _
      rw [OrdMap.get?_set, if_neg hne]

/-- A step that succeeds repeats a request, or it is a new one. -/
theorem stepOnce_cases (hst : Staged db) (hall : AllFinalized db)
    (h : stepOnce ctx request db = .ok (y, db')) :
    db' = db ∨ ∃ candles decisions plan sim totals,
      Stepped ctx request db candles decisions plan sim totals db' := by
  rcases hget : db.requests.get? request.requestId with _ | stored
  · exact .inr (stepOnce_new hget h)
  simp only [stepOnce, bind_eq_ok] at h
  obtain ⟨_, -, ⟨a, db₁⟩, ha, ⟨x, db₂⟩, hx, ⟨z, db₃⟩, hz, hy⟩ := h
  rcases advanceSession_cases ha with ⟨stored', hget', -, rfl, rfl⟩ | ⟨candles, hadvances, -⟩
  · have hc : Complete stored'.again := (hst.complete hget' (hall.get? hget')).again
    obtain ⟨rfl, rfl⟩ := Prod.mk.inj (Except.ok.inj (hc.strategy.symm.trans hx))
    obtain ⟨rfl, rfl⟩ := Prod.mk.inj (Except.ok.inj (hc.execution.symm.trans hz))
    exact .inl (Prod.mk.inj (Except.ok.inj (hc.finalize.symm.trans hy))).2.symm
  · rw [hadvances.fresh] at hget
    cases hget

/-! ## Any number of steps -/

/-- A session all of whose steps have succeeded, over `k` of its `n` candles. -/
structure Tidy (db : Db) (n k : ℕ) : Prop where
  passed : Passed db n k
  staged : Staged db
  finalized : AllFinalized db
  pendingFinal : db.session.summary.pendingFinalStatus = none
  one : (openTrades db.trades).length ≤ 1

namespace Stepped

variable {candles : {l : List Candle // l ≠ []}} {decisions : List Decision} {plan : Plan}
  {sim : Sim} {totals : Totals}

/-- The simulation starts with the account of the session. -/
theorem plan_session (h : Stepped ctx request db candles decisions plan sim totals db') :
    plan.session = (advanced request db.session candles).session := by
  obtain ⟨_, -, hplan⟩ := h.plan_eq
  rw [hplan]
  rfl

theorem initialBalance_eq (h : Stepped ctx request db candles decisions plan sim totals db') :
    db'.session.initialBalance = db.session.initialBalance := by
  obtain ⟨_, -, -, hs⟩ := h.session
  rw [hs, h.plan_session]
  rfl

/-- The simulation ends with the only open trade. -/
theorem holdsOpen (h : Stepped ctx request db candles decisions plan sim totals db')
    (hone : (openTrades db.trades).length ≤ 1) : HoldsOpen sim :=
  (holdsOpen_kept ctx plan).run h.sim_eq (holdsOpen_start hone)

/-- The session is over when there are no candles left. -/
theorem targetStatus_eq (h : Stepped ctx request db candles decisions plan sim totals db')
    (hp : db.session.summary.pendingFinalStatus = none) : plan.targetStatus =
      if (advanced request db.session candles).completed then .completed else .paused := by
  obtain ⟨_, -, hplan⟩ := h.plan_eq
  rw [hplan]
  change (Option.getD _ _) = _
  rw [show (advanced request db.session candles).session.summary.pendingFinalStatus = none from hp]
  rfl

/-- The step goes over the next candles. -/
theorem tidy (h : Stepped ctx request db candles decisions plan sim totals db')
    (ht : Tidy db n k) : ∃ c, 0 < c ∧ k + c ≤ n ∧ candles.1 = (db.candles.drop k).take c ∧
      db'.candles = db.candles ∧ Tidy db' n (k + c) ∧
      ((advanced request db.session candles).completed = true ↔ k + c = n) := by
  obtain ⟨summary, hpending, -, hsession⟩ := h.session
  obtain ⟨c, hc, hle, hslice, hcandles, hpassed, hcompleted⟩ :
      ∃ c, 0 < c ∧ k + c ≤ n ∧ candles.1 = (db.candles.drop k).take c ∧
        (db.advance request candles).candles = db.candles ∧
        Passed (db.advance request candles) n (k + c) ∧
        ((advanced request db.session candles).completed = true ↔ k + c = n) :=
    ht.passed.advance h.advances.batch rfl rfl
  -- After the advance no transaction touches the candles.
  have hsame : SameCandles (db.advance request candles) db' :=
    ⟨by rw [hsession, h.plan_session]; rfl, h.snapshot, h.source⟩
  obtain ⟨stored, hstored, hid, hrequests⟩ := h.requests
  refine ⟨c, hc, hle, hslice, ?_, ⟨hpassed.congr (by rw [hsame.session]) (by rw [hsame.session])
    (by rw [hsame.session]) (by rw [hsame.session]) hsame.snapshot hsame.source,
    ⟨fun id s hs => ?_, fun id s hs => ?_, fun id s hs => ?_⟩, fun s hs => ?_, ?_, ?_⟩, hcompleted⟩
  · rw [← hcandles, Db.candles, Db.candles, Db.ensuredSnapshot, Db.ensuredSnapshot,
      snapshotSessionCandles, snapshotSessionCandles, hsame.snapshot, hsame.source, hsame.session]
  · rw [hrequests] at hs
    split at hs
    · obtain rfl := Option.some.inj hs
      exact hid.trans (Eq.symm ‹_›)
    · exact ht.staged.named _ _ hs
  · rw [hrequests] at hs
    split at hs
    · obtain rfl := Option.some.inj hs
      exact fun _ => hstored.decided
    · exact ht.staged.decided _ _ hs
  · rw [hrequests] at hs
    split at hs
    · obtain rfl := Option.some.inj hs
      exact fun _ => hstored.executed
    · exact ht.staged.executed _ _ hs
  · obtain ⟨id, hget⟩ := OrdMap.mem_values.1 hs
    rw [hrequests] at hget
    split at hget
    · obtain rfl := Option.some.inj hget
      exact hstored.finalized
    · exact ht.finalized.get? hget
  · rw [hsession]
    exact hpending
  · rw [h.trades]
    exact (h.holdsOpen ht.one).le_one

end Stepped

theorem Fresh.tidy (h : Fresh db n) : Tidy db n 0 := by
  have hget : ∀ {id stored}, db.requests.get? id ≠ some stored := by simp [h.requests]
  refine ⟨h.passed, h.staged, fun stored hs => ?_, by rw [h.summary]; rfl, ?_⟩
  · obtain ⟨id, hs⟩ := OrdMap.mem_values.1 hs
    exact absurd hs hget
  · simp [h.trades, openTrades]

/-- What new steps keep, any number of steps keeps. -/
theorem stepAll_keeps {P : ℕ → Db → Prop}
    (hP : ∀ {k request db candles decisions plan sim totals db'} (c : ℕ), Tidy db n k → P k db →
      Stepped ctx request db candles decisions plan sim totals db' → 0 < c → k + c ≤ n →
      candles.1 = (db.candles.drop k).take c → db'.candles = db.candles →
      ((advanced request db.session candles).completed = true ↔ k + c = n) → P (k + c) db')
    {requests : List StepRequest} (ht : Tidy db n k) (hk : P k db)
    (h : stepAll ctx requests db = .ok db') : ∃ k', Tidy db' n k' ∧ P k' db' := by
  induction requests generalizing db k with
  | nil =>
    obtain rfl := pure_eq_ok.1 h
    exact ⟨k, ht, hk⟩
  | cons request requests ih =>
    rw [stepAll, List.foldlM_cons] at h
    obtain ⟨db₁, hstep, hrest⟩ := bind_eq_ok.1 h
    obtain ⟨⟨y, db₂⟩, honce, heq⟩ := map_eq_ok.1 hstep
    obtain rfl : db₂ = db₁ := heq
    rcases stepOnce_cases ht.staged ht.finalized honce with rfl |
      ⟨candles, decisions, plan, sim, totals, hs⟩
    · exact ih ht hk hrest
    · obtain ⟨c, hc, hle, hslice, hcandles, ht', hcompleted⟩ := hs.tidy ht
      exact ih ht' (hP c ht hk hs hc hle hslice hcandles hcompleted) hrest

/-! ## A session that trades -/

/-- A candle of a session whose prices rise faster and faster. -/
def risingCandle (i : ℕ) : Candle where
  openTime := 1700000100000 + i * 300000
  openPrice := 1000 + i ^ 2
  highPrice := 1000 + i ^ 2
  lowPrice := 1000 + i ^ 2
  closePrice := 1000 + i ^ 2
  volume := 1
  turnover := none
  source := "bybit_public_kline"

/-- So many candles that the strategy decides on the last two: it opens a trade at the first
    one, and the second one reaches its target. -/
def risingCandles : CandleTable where
  rows := (List.range 50).map risingCandle ++ [{ risingCandle 50 with highPrice := 4000 }]
  sorted := by decide +kernel

/-- A session over them, whose initial balance has 9 decimals. -/
def risingStart : Except ReplayError Db :=
  startSession
    { sessionId := "session"
      symbol := "BTCUSDT"
      timeframe := .m5
      requestedStart := 1700000100000
      requestedEnd := 1700015100000
      initialBalance := some (.num (1000000000005 / 1000000000))
      strategyMode := .balanced
      config := .obj [] }
    1800000000000 risingCandles

/-- A step over all of its candles. -/
def risingStep : StepRequest := ⟨"a", 51, none, by decide, by decide⟩

/-- A step up to the candle that the trade is opened at. -/
def risingFirst : StepRequest := ⟨"b", 50, none, by decide, by decide⟩

/-- A step over the last candle. -/
def risingLast : StepRequest :=
  { flatFirst with requestId := "c", expectedCursorTime := some 1700014800000 }

/-- The session, in a single step and in two of them. -/
theorem rising_runs : ∃ db db₁ db₂, risingStart = .ok db ∧
    stepAll .default [risingStep] db = .ok db₁ ∧
    stepAll .default [risingFirst, risingLast] db = .ok db₂ ∧
    (closedTrades db₁.trades).length = 1 ∧
    (∃ totals, db₁.session.summary.totals = some totals ∧
      totals.netPnl ≠ ((closedTrades db₁.trades).map (·.realizedPnl)).sum -
        ((openTrades db₁.trades).map (·.fees)).sum) ∧
    db₁.session.cursorTime = db₂.session.cursorTime := by
  have h : risingStart.toOption.any fun db =>
      (stepAll .default [risingStep] db).toOption.any fun db₁ =>
      (stepAll .default [risingFirst, risingLast] db).toOption.any fun db₂ => decide
        ((closedTrades db₁.trades).length = 1 ∧
          (db₁.session.summary.totals.any fun totals =>
            decide (totals.netPnl ≠ ((closedTrades db₁.trades).map (·.realizedPnl)).sum -
              ((openTrades db₁.trades).map (·.fees)).sum)) ∧
          db₁.session.cursorTime = db₂.session.cursorTime) := by
    decide +kernel
  obtain ⟨db, hdb, h⟩ := any_toOption.1 h
  obtain ⟨db₁, h₁, h⟩ := any_toOption.1 h
  obtain ⟨db₂, h₂, h⟩ := any_toOption.1 h
  obtain ⟨hclosed, hne, hcursor⟩ := of_decide_eq_true h
  obtain ⟨totals, htotals, hne⟩ := (Option.any_eq_true _ _).1 hne
  exact ⟨db, db₁, db₂, hdb, h₁, h₂, hclosed, ⟨totals, htotals, of_decide_eq_true hne⟩, hcursor⟩

end IntradayBot.Replay
