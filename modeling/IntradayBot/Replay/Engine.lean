import Mathlib.Logic.Relation
import IntradayBot.Replay.SimulatedExecution
import IntradayBot.Replay.StepRepository
import IntradayBot.Replay.StrategyRisk

/-!
# The replay engine

`CandleReplayEngine.step` makes several transactions, one after the other: the cursor of the
session advances, the strategy decides, the trades are simulated, and the response is
finalized. When one of the last three raises, another transaction marks that the session
has to recover. A lock serializes the steps of a session, of all processes: at most one is
under way, in one of the phases of `Phase`. `Phase.run` is the transaction of a phase.

A transaction may fail before or after it is committed, and the process may be killed
at any time (`Step`). Meanwhile, the session may be reset, which does not wait for the lock,
and the source candles may change.

`stepOnce` is a step of which nothing fails.
-/

namespace IntradayBot.Replay

open Decimal

variable (ctx : Context)

namespace Engine

/-! ## Transactions -/

/-- `_validate_execution_preflight(store, session_id)` -/
def validateExecutionPreflight (db : Db) : Except ReplayError Unit :=
  match Simulation.executionConfig db.session.config with
  | .ok _ => .ok ()
  | .error (.simulation message) =>
    .error (.validation s!"Invalid replay execution configuration: {message}")
  | .error e => .error e

/-- `_mark_recovery_required(store, advanced)` -/
def markRecoveryRequired (advanced : StepResponse) (db : Db) : Db :=
  { db with session := { db.session with
      status := .running
      summary := { db.session.summary with
        pendingFinalStatus := some (if advanced.completed then .completed else .paused)
        pipelineRecoveryRequired := true
        pendingReplayRequestId := some advanced.requestId } } }

/-- The response of `_finalize_execution_response`, of which this is the execution. -/
def finalizedResponse (response : StepResponse) (execution : Execution) : StepResponse :=
  let active := 0 < execution.opened ∨ 0 < execution.closed ∨ 0 < execution.openTrades
  { response with
    session := { response.session with
      summary := { response.session.summary.recovered with executionSimulated := active } }
    executionSimulated := active
    finalized := true
    execution := some { execution with simulatedActivity := some (decide active) } }

/-- `_finalize_execution_response(store, result)` -/
def finalizeExecutionResponse (response : StepResponse) (db : Db) :
    Except ReplayError (StepResponse × Db) :=
  match response.execution with
  | none => return (response, db)
  | some execution =>
    if response.finalized then return (response, db)
    else match db.requests.get? response.requestId with
      | none => .error (.store "Final simulated execution response was not persisted.")
      | some stored =>
        let response := finalizedResponse response execution
        return (response, { db with
          session := { db.session with
            status := response.session.status
            summary := response.session.summary }
          requests := db.requests.set response.requestId { stored with response := response } })

/-! ## Phases -/

/-- How far a step is. -/
inductive Phase
  /-- No step is under way. -/
  | idle
  | preflight (request : StepRequest)
  | advance (request : StepRequest)
  /-- The session has advanced, and the strategy is to decide. -/
  | strategy (advanced : StepResponse)
  | execution (advanced strategized : StepResponse)
  | finalize (advanced executed : StepResponse)
  /-- `except Exception: _mark_recovery_required(self.store, advanced); raise` -/
  | recover (advanced : StepResponse) (error : ReplayError)
  | returned (outcome : Except ReplayError StepResponse)

/-- No step is under way. -/
def Phase.Rests : Phase → Prop
  | .idle | .returned _ => True
  | _ => False

instance : DecidablePred Phase.Rests
  | .idle | .returned _ => .isTrue trivial
  | .preflight _ | .advance _ | .strategy _ | .execution .. | .finalize .. | .recover .. =>
    .isFalse id

/-- The request under way, once the session has advanced for it. -/
def Phase.advanced? : Phase → Option StepResponse
  | .strategy a | .execution a _ | .finalize a _ | .recover a _ => some a
  | _ => none

/-- The response, marked as the repeated one that the first transaction found. -/
def markIdempotent (advanced executed : StepResponse) : StepResponse :=
  if advanced.idempotent then { executed with idempotent := true } else executed

/-- The transaction of a phase: the next phase, and what the database is then. -/
def Phase.run : Phase → Db → Except ReplayError (Phase × Db)
  | .idle, db => .ok (.idle, db)
  | .preflight request, db => do
    validateExecutionPreflight db
    return (.advance request, db)
  | .advance request, db => do
    let (advanced, db) ← advanceSession request db
    return (.strategy advanced, db)
  | .strategy advanced, db => do
    let (strategized, db) ← Strategy.enrichStep ctx advanced db
    return (.execution advanced strategized, db)
  | .execution advanced strategized, db => do
    let (executed, db) ← Simulation.enrichStep ctx strategized db
    return (.finalize advanced (markIdempotent advanced executed), db)
  | .finalize _ executed, db => do
    let (response, db) ← finalizeExecutionResponse executed db
    return (.returned (.ok response), db)
  | .recover advanced error, db => .ok (.returned (.error error), markRecoveryRequired advanced db)
  | .returned outcome, db => .ok (.returned outcome, db)

/-- Where a phase goes when its transaction raises. -/
def Phase.raised (e : ReplayError) : Phase → Phase
  | .strategy advanced | .execution advanced _ | .finalize advanced _ => .recover advanced e
  | _ => .returned (.error e)

/-- The phase asks the database. -/
def Phase.Queries : Phase → Prop
  | .idle | .returned _ => False
  | .preflight _ | .advance _ | .recover _ _ => True
  | .strategy advanced => advanced.strategy.isNone
  | .execution _ strategized => strategized.execution.isNone ∧ strategized.strategy.isSome
  | .finalize _ executed => executed.execution.isSome ∧ executed.finalized = false

instance : DecidablePred Phase.Queries
  | .idle | .returned _ => .isFalse id
  | .preflight _ | .advance _ | .recover _ _ => .isTrue trivial
  | .strategy advanced => inferInstanceAs (Decidable (advanced.strategy.isNone = true))
  | .execution _ x =>
    inferInstanceAs (Decidable (x.execution.isNone = true ∧ x.strategy.isSome = true))
  | .finalize _ x => inferInstanceAs (Decidable (x.execution.isSome = true ∧ x.finalized = false))

/-! ## Runs -/

/-- The database, and how far the step under way is. -/
structure State where
  phase : Phase
  db : Db

/-- What happens in a step of the system. -/
inductive Label
  | receive
  | commit
  | raise
  | lost
  | unacknowledged
  | kill
  | reset
  | collect
  deriving DecidableEq

/-- The steps of the system. -/
inductive Step : State → Label → State → Prop
  /-- A request arrives, and gets the lock. -/
  | receive {s : State} (request : StepRequest) :
      s.phase.Rests → Step s .receive ⟨.preflight request, s.db⟩
  | commit {s : State} {phase : Phase} {db : Db} :
      ¬ s.phase.Rests → s.phase.run ctx s.db = .ok (phase, db) → Step s .commit ⟨phase, db⟩
  /-- The transaction raises, and is rolled back. -/
  | raise {s : State} {e : ReplayError} :
      s.phase.run ctx s.db = .error e → Step s .raise ⟨s.phase.raised e, s.db⟩
  /-- A call of the database raises before the commit. -/
  | lost {s : State} (reason : String) :
      s.phase.Queries → Step s .lost ⟨s.phase.raised (.database reason), s.db⟩
  /-- The commit itself raises, and yet it is done. -/
  | unacknowledged {s : State} {phase : Phase} {db : Db} (reason : String) :
      s.phase.Queries → s.phase.run ctx s.db = .ok (phase, db) →
      Step s .unacknowledged ⟨s.phase.raised (.database reason), db⟩
  /-- The process is killed, and the lock is free again. -/
  | kill {s : State} : Step s .kill ⟨.idle, s.db⟩
  | reset {s : State} {db : Db} : resetSession s.db = .ok db → Step s .reset ⟨s.phase, db⟩
  /-- The collector writes the source candles. -/
  | collect {s : State} {candle : Candle} {source : CandleTable} :
      s.db.source.upsertReplayCandle candle = .ok source →
      Step s .collect ⟨s.phase, { s.db with source := source }⟩

/-- A condition on the steps of a run. -/
abbrev Condition := State → Label → State → Prop

/-- The runs whose steps all meet `ok`. -/
inductive Run (ok : Condition) : State → State → Prop
  | refl {s : State} : Run ok s s
  | step {s₀ s s' : State} {l : Label} :
      Run ok s₀ s → Step ctx s l s' → ok s l s' → Run ok s₀ s'

/-! ## Concrete runs -/

/-- A step, with what it takes to make it. -/
inductive Move
  | receive (request : StepRequest)
  | commit
  | raise
  | lost
  | unacknowledged
  | kill
  | reset
  | collect (candle : Candle)

/-- The step that a move makes. -/
def Move.label : Move → Label
  | .receive _ => .receive
  | .commit => .commit
  | .raise => .raise
  | .lost => .lost
  | .unacknowledged => .unacknowledged
  | .kill => .kill
  | .reset => .reset
  | .collect _ => .collect

/-- The state after a move, if it can be made. -/
def play (s : State) : Move → Option State
  | .receive request => if s.phase.Rests then some ⟨.preflight request, s.db⟩ else none
  | .commit =>
    if s.phase.Rests then none
    else match s.phase.run ctx s.db with
      | .ok (phase, db) => some ⟨phase, db⟩
      | .error _ => none
  | .raise => match s.phase.run ctx s.db with
    | .ok _ => none
    | .error e => some ⟨s.phase.raised e, s.db⟩
  | .lost => if s.phase.Queries then some ⟨s.phase.raised (.database ""), s.db⟩ else none
  | .unacknowledged =>
    if s.phase.Queries then
      match s.phase.run ctx s.db with
      | .ok (_, db) => some ⟨s.phase.raised (.database ""), db⟩
      | .error _ => none
    else none
  | .kill => some ⟨.idle, s.db⟩
  | .reset => match resetSession s.db with
    | .ok db => some ⟨s.phase, db⟩
    | .error _ => none
  | .collect candle => match s.db.source.upsertReplayCandle candle with
    | .ok source => some ⟨s.phase, { s.db with source := source }⟩
    | .error _ => none

/-- The state after moves that all meet `ok`. -/
def playAll (ok : State → Label → Bool) (s : State) : List Move → Option State
  | [] => some s
  | m :: ms => if ok s m.label then (play ctx s m).bind fun s' => playAll ok s' ms else none

variable {ctx}

theorem Step.of_play {s s' : State} {m : Move} (h : play ctx s m = some s') :
    Step ctx s m.label s' := by
  -- Each move is played under the guards of the step it is the name of.
  cases m with
  | receive request =>
    obtain ⟨hrests, h⟩ := Option.ite_none_right_eq_some.1 h
    obtain rfl := Option.some.inj h
    exact .receive request hrests
  | commit =>
    obtain ⟨hrests, h⟩ := Option.ite_none_left_eq_some.1 h
    split at h
    · rename_i hrun
      obtain rfl := Option.some.inj h
      exact .commit hrests hrun
    · cases h
  | raise =>
    rw [play] at h
    split at h
    · cases h
    · rename_i hrun
      obtain rfl := Option.some.inj h
      exact .raise hrun
  | lost =>
    obtain ⟨hqueries, h⟩ := Option.ite_none_right_eq_some.1 h
    obtain rfl := Option.some.inj h
    exact .lost _ hqueries
  | unacknowledged =>
    obtain ⟨hqueries, h⟩ := Option.ite_none_right_eq_some.1 h
    split at h
    · rename_i hrun
      obtain rfl := Option.some.inj h
      exact .unacknowledged _ hqueries hrun
    · cases h
  | kill =>
    obtain rfl := Option.some.inj h
    exact .kill
  | reset =>
    rw [play] at h
    split at h
    · rename_i hreset
      obtain rfl := Option.some.inj h
      exact .reset hreset
    · cases h
  | collect candle =>
    rw [play] at h
    split at h
    · rename_i hsource
      obtain rfl := Option.some.inj h
      exact .collect hsource
    · cases h

theorem Run.trans {ok : Condition} {s₀ s₁ s₂ : State} (h₁ : Run ctx ok s₀ s₁)
    (h₂ : Run ctx ok s₁ s₂) : Run ctx ok s₀ s₂ := by
  induction h₂ with
  | refl => exact h₁
  | step _ hs hok ih => exact .step ih hs hok

theorem Run.mono {ok ok' : Condition} {s s' : State} (h : ∀ s l s', ok s l s' → ok' s l s')
    (hr : Run ctx ok s s') : Run ctx ok' s s' := by
  induction hr with
  | refl => exact .refl
  | step _ hs hok ih => exact .step ih hs (h _ _ _ hok)

/-- Moves make a run. -/
theorem Run.of_playAll {ok : State → Label → Bool} {s s' : State} {ms : List Move}
    (h : playAll ctx ok s ms = some s') : Run ctx (fun s l _ => ok s l) s s' := by
  induction ms generalizing s with
  | nil => exact Option.some.inj h ▸ .refl
  | cons m ms ih =>
    obtain ⟨hok, h⟩ := Option.ite_none_right_eq_some.1 h
    obtain ⟨s₁, h₁, h₂⟩ := Option.bind_eq_some_iff.1 h
    exact (Run.step .refl (.of_play h₁) hok).trans (ih h₂)

/-- Moves of a session that starts make a run. -/
theorem Run.exists_of_start {start : Except ReplayError Db} {ok : State → Label → Bool}
    {ms : List Move} {p : State → Bool}
    (h : (start.toOption.bind fun db => playAll ctx ok ⟨.idle, db⟩ ms).any p) :
    ∃ db s, start = .ok db ∧ Run ctx (fun s l _ => ok s l) ⟨.idle, db⟩ s ∧ p s := by
  obtain ⟨s, hs, hp⟩ := (Option.any_eq_true _ _).1 h
  obtain ⟨db, hdb, hplay⟩ := Option.bind_eq_some_iff.1 hs
  rcases start with e | db'
  · cases hdb
  · obtain rfl := Option.some.inj hdb
    exact ⟨db', s, rfl, .of_playAll hplay, hp⟩

/-- A flat candle. -/
def flatCandle (i : ℕ) : Candle where
  openTime := 1700000100000 + i * 300000
  openPrice := 100
  highPrice := 100
  lowPrice := 100
  closePrice := 100
  volume := 1
  turnover := none
  source := "bybit_public_kline"

/-- Three flat candles. -/
def flatCandles : CandleTable where
  rows := (List.range 3).map flatCandle
  sorted := by simp [List.range_succ, flatCandle]

/-- A short session over flat candles, as it starts. -/
def flatStart : Except ReplayError Db :=
  startSession
    { sessionId := "session"
      symbol := "BTCUSDT"
      timeframe := .m5
      requestedStart := 1700000100000
      requestedEnd := 1700000700000
      initialBalance := some (.num 1000)
      strategyMode := .balanced
      config := .obj [] }
    1800000000000 flatCandles

/-- A step over the first candle of it. -/
def flatFirst : StepRequest := ⟨"a", 1, none, by decide, by decide⟩

/-- A step over the others. -/
def flatRest : StepRequest := ⟨"b", 2, some 1700000100000, by decide, by decide⟩

variable (ctx)

/-! ## Steps without failures -/

/-- `CandleReplayEngine.step(payload)`, of which nothing fails but what raises by itself. -/
def stepOnce (request : StepRequest) (db : Db) : Except ReplayError (StepResponse × Db) := do
  validateExecutionPreflight db
  let (advanced, db) ← advanceSession request db
  let (strategized, db) ← Strategy.enrichStep ctx advanced db
  let (executed, db) ← Simulation.enrichStep ctx strategized db
  finalizeExecutionResponse (markIdempotent advanced executed) db

/-- The requests one after the other. -/
def stepAll (requests : List StepRequest) (db : Db) : Except ReplayError Db :=
  requests.foldlM (fun db request => Prod.snd <$> stepOnce ctx request db) db

end Engine

end IntradayBot.Replay
