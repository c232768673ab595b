import IntradayBot.Replay.Engine
import IntradayBot.Replay.Frozen
import IntradayBot.Replay.Trading

/-!
# What the transactions do

The cases of each transaction of a step. As only one step is under way at a time, the response
that it works on is the one that is stored (`Recorded`): a transaction either finds its work
done, and changes nothing, or does it and stores the response it returns.
-/

namespace IntradayBot.Replay

open Decimal

variable {ctx : Context} {db db' : Db} {request : StepRequest} {x y : StepResponse}

/-- The response is the one stored for its request, up to its being a repeated one. -/
def Recorded (db : Db) (x : StepResponse) : Prop :=
  ∃ stored b, db.requests.get? x.requestId = some stored ∧
    x = { stored.response with idempotent := b }

/-- The database with a new response to a request. -/
def Db.respond (db : Db) (stored : StoredStep) (x : StepResponse) : Db :=
  { db with requests := db.requests.set x.requestId { stored with response := x } }

/-- How a session advances. -/
structure Advances (request : StepRequest) (db : Db) (candles : {l : List Candle // l ≠ []}) :
    Prop where
  fresh : db.requests.get? request.requestId = none
  status : db.session.status = .ready ∨ db.session.status = .paused
  cursor : request.expectedCursorTime = db.session.cursorTime
  batch : batch db request.steps = .ok candles

/-- The database once the session has advanced. -/
def Db.advance (db : Db) (request : StepRequest) (candles : {l : List Candle // l ≠ []}) : Db :=
  let x := advanced request db.session candles
  { db with
    session := x.session
    snapshot := db.ensuredSnapshot
    events := db.events ++ stepEvents request db.session.cursorTime x
    requests := db.requests.set request.requestId ⟨request.params, x⟩ }

/-- Either the request is repeated, or the session advances. -/
theorem advanceSession_cases (h : advanceSession request db = .ok (x, db')) :
    (∃ stored, db.requests.get? request.requestId = some stored ∧
      stored.request = request.params ∧ x = { stored.response with idempotent := true } ∧
      db' = db) ∨
    ∃ candles, Advances request db candles ∧ x = advanced request db.session candles ∧
      db' = db.advance request candles := by
  -- A known request with the same parameters is answered again; one with others is refused.
  rw [advanceSession] at h
  split at h
  · rename_i stored hget
    split at h
    · rename_i hparams
      obtain ⟨rfl, rfl⟩ := Prod.mk.inj (Except.ok.inj h)
      exact .inl ⟨stored, hget, hparams, rfl, rfl⟩
    · cases h
  · rename_i hget
    split at h
    · cases h
    rename_i hstatus
    split at h
    · cases h
    rename_i hcursor
    simp only [bind_eq_ok, pure_eq_ok] at h
    obtain ⟨candles, hb, h⟩ := h
    obtain ⟨rfl, rfl⟩ := Prod.mk.inj h
    exact .inr ⟨candles, ⟨hget, or_iff_not_imp_left.2 (by simpa using hstatus), not_not.1 hcursor,
      hb⟩, rfl, rfl⟩

/-- What the strategy adds to a response. -/
def StepResponse.strategized (x : StepResponse) (decisions : List Decision) : StepResponse :=
  { x with strategy := some (Strategy.result decisions), executionSimulated := false }

/-- What the execution of a response does. -/
structure Executes (ctx : Context) (x : StepResponse) (decisions : List Decision) (db : Db)
    (plan : Simulation.Plan) (sim : Simulation.Sim) (totals : Totals) (execution : Execution) :
    Prop where
  plan_eq : ∃ config, Simulation.executionConfig db.session.config = .ok config ∧
    plan = Simulation.plan config db.session x.requestId x decisions
  initialBalance : 0 < db.session.initialBalance
  sim_eq : x.candles.foldlM (Simulation.simulateCandle ctx plan)
    (Simulation.start db.session db.trades x.requestId) = .ok sim
  totals_eq : Simulation.totals ctx plan sim = .ok totals
  execution_eq : Simulation.execution ctx sim totals = .ok execution

namespace Recorded

theorem get? (h : Recorded db x) : ∃ stored, db.requests.get? x.requestId = some stored ∧
    stored.response = { x with idempotent := stored.response.idempotent } := by
  obtain ⟨stored, b, hget, hx⟩ := h
  exact ⟨stored, hget, by rw [hx]⟩

/-- What is stored for a request is recorded under its name. -/
theorem requestId {stored : StoredStep} (h : Recorded db x)
    (hget : db.requests.get? x.requestId = some stored) :
    stored.response = { x with idempotent := stored.response.idempotent } := by
  obtain ⟨stored', hget', hx⟩ := h.get?
  rw [hget] at hget'
  rwa [Option.some.inj hget']

theorem respond (db : Db) (stored : StoredStep) (x : StepResponse) :
    Recorded (db.respond stored x) x :=
  ⟨{ stored with response := x }, x.idempotent, OrdMap.get?_set_self _ _ _, rfl⟩

theorem advance (request : StepRequest) (db : Db) (candles : {l : List Candle // l ≠ []}) :
    Recorded (db.advance request candles) (advanced request db.session candles) :=
  ⟨⟨request.params, _⟩, false, OrdMap.get?_set_self _ _ _, rfl⟩

/-- Either the strategy has decided, or it does. -/
theorem strategy_cases (hx : Recorded db x) (h : Strategy.enrichStep ctx x db = .ok (y, db')) :
    (x.strategy ≠ none ∧ y = x ∧ db' = db) ∨
    ∃ stored decisions, x.strategy = none ∧ db.requests.get? x.requestId = some stored ∧
      x.candles.mapM (Strategy.decisionOf ctx db.snapshot x) = .ok decisions ∧
      y = x.strategized decisions ∧
      db' = { db.respond stored y with
        events := db.events ++ decisions.flatMap Strategy.events } := by
  obtain ⟨stored, hget, hstored⟩ := hx.get?
  rw [Strategy.enrichStep] at h
  split at h
  · rename_i hsome
    obtain ⟨rfl, rfl⟩ := Prod.mk.inj (Except.ok.inj h)
    exact .inl ⟨Option.isSome_iff_ne_none.1 hsome, rfl, rfl⟩
  rename_i hsome
  have hnone : x.strategy = none := by simpa using hsome
  rw [hget] at h
  dsimp only at h
  rw [if_neg (by rw [hstored]; exact hsome)] at h
  simp only [bind_eq_ok, pure_eq_ok] at h
  obtain ⟨decisions, hd, h⟩ := h
  obtain ⟨rfl, rfl⟩ := Prod.mk.inj h
  exact .inr ⟨stored, decisions, hnone, hget, hd, rfl, rfl⟩

/-- Either the candles are executed, or they are now. -/
theorem execution_cases (hx : Recorded db x) (h : Simulation.enrichStep ctx x db = .ok (y, db')) :
    (x.execution ≠ none ∧ y = x ∧ db' = db) ∨
    ∃ stored strategy plan sim totals execution, x.execution = none ∧ x.strategy = some strategy ∧
      db.requests.get? x.requestId = some stored ∧
      Executes ctx x strategy.decisions db plan sim totals execution ∧
      y = { x with
        idempotent := stored.response.idempotent
        session := Simulation.settle plan sim totals
        execution := some execution
        executionSimulated := true } ∧
      db' = { db.respond stored y with
        session := y.session
        trades := sim.trades
        events := db.events ++ sim.events ++ [.executionCompleted x.requestId execution] } := by
  obtain ⟨stored, b, hget, rfl⟩ := hx
  rw [Simulation.enrichStep] at h
  split at h
  · rename_i hsome
    obtain ⟨rfl, rfl⟩ := Prod.mk.inj (Except.ok.inj h)
    exact .inl ⟨Option.isSome_iff_ne_none.1 hsome, rfl, rfl⟩
  rename_i hsome
  split at h
  · cases h
  rename_i hstrategy
  rw [hget] at h
  dsimp only at h
  rw [if_neg (by exact hsome)] at h
  -- The strategy has answered, so the stored decisions are there to be executed.
  obtain ⟨strategy, hs⟩ : ∃ strategy, stored.response.strategy = some strategy :=
    Option.ne_none_iff_exists'.1 (by simpa using hstrategy)
  simp only [hs, Simulation.executeStored, bind_eq_ok, pure_eq_ok] at h
  obtain ⟨config, hconfig, _, hinitial, sim, hsim, totals, htotals, execution, hexecution, h⟩ := h
  obtain ⟨rfl, rfl⟩ := Prod.mk.inj h
  refine .inr ⟨stored, strategy, _, sim, totals, execution, by simpa using hsome, hs, hget,
    ⟨⟨config, hconfig, rfl⟩, (positive_eq_ok.1 hinitial).1, hsim, htotals, hexecution⟩, ?_, ?_⟩
  · rw [← hs]
    rfl
  · rw [← hs]
    rfl

/-- Either there is nothing left to finalize, or the response is finalized. -/
theorem finalize_cases (hx : Recorded db x)
    (h : Engine.finalizeExecutionResponse x db = .ok (y, db')) :
    ((x.execution = none ∨ x.finalized = true) ∧ y = x ∧ db' = db) ∨
    ∃ stored execution, x.execution = some execution ∧ x.finalized = false ∧
      db.requests.get? x.requestId = some stored ∧
      y = Engine.finalizedResponse x execution ∧
      db' = { db.respond stored y with session := { db.session with
        status := y.session.status
        summary := y.session.summary } } := by
  obtain ⟨stored, hget, -⟩ := hx.get?
  rw [Engine.finalizeExecutionResponse] at h
  split at h
  · rename_i hnone
    obtain ⟨rfl, rfl⟩ := Prod.mk.inj (Except.ok.inj h)
    exact .inl ⟨.inl hnone, rfl, rfl⟩
  rename_i execution hsome
  split at h
  · rename_i hfinal
    obtain ⟨rfl, rfl⟩ := Prod.mk.inj (Except.ok.inj h)
    exact .inl ⟨.inr hfinal, rfl, rfl⟩
  rename_i hfinal
  rw [hget] at h
  obtain ⟨rfl, rfl⟩ := Prod.mk.inj (Except.ok.inj h)
  exact .inr ⟨stored, execution, hsome, by simpa using hfinal, hget, rfl, rfl⟩

theorem strategy_succeeds (hx : Recorded db x)
    (h : Succeeds (x.candles.mapM (Strategy.decisionOf ctx db.snapshot x))) :
    Succeeds (Strategy.enrichStep ctx x db) := by
  obtain ⟨stored, hget, hstored⟩ := hx.get?
  refine .ite (fun _ => .ok _) fun _ => ?_
  rw [hget]
  refine .ite (fun _ => .ok _) fun _ => ?_
  exact h.bind fun _ _ => .ok _

theorem execution_succeeds (hx : Recorded db x) {strategy : StrategyResult}
    (hstrategy : x.strategy = some strategy) {config : Simulation.Config}
    (hconfig : Simulation.executionConfig db.session.config = .ok config)
    (hinitial : 0 < db.session.initialBalance)
    (h : ∃ sim totals, x.candles.foldlM (Simulation.simulateCandle ctx
        (Simulation.plan config db.session x.requestId x strategy.decisions))
        (Simulation.start db.session db.trades x.requestId) = .ok sim ∧
      Simulation.totals ctx (Simulation.plan config db.session x.requestId x strategy.decisions)
        sim = .ok totals ∧ Succeeds (Simulation.execution ctx sim totals)) :
    Succeeds (Simulation.enrichStep ctx x db) := by
  obtain ⟨stored, b, hget, rfl⟩ := hx
  obtain ⟨sim, totals, hsim, htotals, hexecution⟩ := h
  refine .ite (fun _ => .ok _) fun _ => .ite (fun hnone => ?_) fun _ => ?_
  · rw [hstrategy] at hnone
    cases hnone
  rw [hget]
  refine .ite (fun _ => .ok _) fun _ => ?_
  have hstored : stored.response.strategy = some strategy := hstrategy
  dsimp only
  rw [hstored]
  -- Configuration, balance, simulation, totals, report: each is given by a hypothesis.
  refine .bind ⟨config, hconfig⟩ fun _ hc => ?_
  obtain rfl := Except.ok.inj (hconfig.symm.trans hc)
  refine .bind ⟨_, positive_eq_ok.2 ⟨hinitial, rfl⟩⟩ fun _ _ => ?_
  refine .bind ⟨sim, hsim⟩ fun _ hs => ?_
  obtain rfl := Except.ok.inj (hsim.symm.trans hs)
  refine .bind ⟨totals, htotals⟩ fun _ ht => ?_
  obtain rfl := Except.ok.inj (htotals.symm.trans ht)
  exact hexecution.bind fun _ _ => .ok _

theorem finalize_succeeds (hx : Recorded db x) :
    Succeeds (Engine.finalizeExecutionResponse x db) := by
  obtain ⟨stored, hget, -⟩ := hx.get?
  rw [Engine.finalizeExecutionResponse]
  rcases x.execution with _ | execution
  · exact .ok _
  refine .ite (fun _ => .ok _) fun _ => ?_
  rw [hget]
  exact .ok _

end Recorded

end IntradayBot.Replay
