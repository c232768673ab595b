import IntradayBot.Data.Grid
import IntradayBot.Replay.Storage

/-!
# Steps and sessions

`advanceSession` moves the cursor of a session over the next candles, of which it checks that
none is missing, and records the request and its response: the same request, sent again, gets
the same response. `resetSession` takes the session back to its start, and keeps its frozen
candles and the recorded requests.

`startSession` creates a session, over a range of candles that are all there. The frozen
candles are a copy of them.
-/

namespace IntradayBot.Replay

/-! ## Frozen candles -/

/-- `snapshot_session_candles(cursor, session)`, where the session has none. -/
def snapshotSessionCandles (session : Session) (source : CandleTable) : CandleTable :=
  source.between session.startTime session.endTime

/-- `_ensure_session_snapshot(cursor, session)` -/
def Db.ensuredSnapshot (db : Db) : CandleTable :=
  if db.snapshot.rows = [] then snapshotSessionCandles db.session db.source else db.snapshot

/-- How many candles there are from one time to another, with both ends. -/
def Session.span (s : Session) (first last : ℤ) : ℤ := (last - first) / s.timeframe.intervalMs + 1

/-! ## Steps -/

/-- `next_time` -/
def Session.nextTime (s : Session) : ℤ :=
  match s.cursorTime with
  | none => s.startTime
  | some cursor => cursor + s.timeframe.intervalMs

/-- `expected_times` -/
def Session.expectedTimes (s : Session) (count : ℕ) : List ℤ :=
  grid s.nextTime s.timeframe.intervalMs count

/-- The candles that a request for so many steps processes. -/
def batch (db : Db) (steps : ℕ) : Except ReplayError {l : List Candle // l ≠ []} :=
  let session := db.session
  let snapshot := db.ensuredSnapshot
  if (snapshot.rows.length : ℤ) ≠ session.span session.startTime session.endTime then
    .error (.dataIncomplete "Replay session candle snapshot is incomplete.")
  else if session.endTime < session.nextTime then
    .error (.conflict "Replay session has no remaining candles.")
  else
    let processCount := min steps (session.span session.nextTime session.endTime).toNat
    let lastExpected := session.nextTime + (processCount - 1) * session.timeframe.intervalMs
    let candles := (snapshot.between session.nextTime lastExpected).rows
    if h : candles.map (·.openTime) = session.expectedTimes processCount ∧ candles ≠ [] then
      .ok ⟨candles, h.2⟩
    else .error (.dataIncomplete "Replay candle snapshot is incomplete at the current cursor.")

/-- The session, and the response, after these candles. -/
def advanced (request : StepRequest) (session : Session) (candles : {l : List Candle // l ≠ []}) :
    StepResponse :=
  let newCursor := (candles.1.getLast candles.2).openTime
  let remaining := (session.endTime - newCursor) / session.timeframe.intervalMs
  let status : Status := if remaining = 0 then .completed else .paused
  let session' := { session with
    status := status
    cursorTime := some newCursor
    summary := { session.summary with
      progress := some {
        processedCandles := session.span session.startTime newCursor
        remainingCandles := remaining
        lastCandleOpenTime := newCursor
        lastStepRequestId := request.requestId }
      strategyEvaluated := false
      executionSimulated := false } }
  { idempotent := false
    requestId := request.requestId
    requestedSteps := request.steps
    processedSteps := candles.1.length
    previousCursorTime := session.cursorTime
    cursorTime := newCursor
    remainingCandles := remaining
    completed := status = .completed
    session := session'
    candles := candles.1
    candles_ne := candles.2
    strategy := none
    execution := none
    executionSimulated := false
    finalized := false }

/-- The events of a step. -/
def stepEvents (request : StepRequest) (previousCursor : Option ℤ) (response : StepResponse) :
    List Event :=
  .stepStarted request.requestId request.params previousCursor ::
    response.candles.mapIdx (fun index candle =>
      .candleAdvanced request.requestId (index + 1) candle) ++
    [.stepCompleted request.requestId request.params response]

/-- `advance_session(store, request)` -/
def advanceSession (request : StepRequest) (db : Db) : Except ReplayError (StepResponse × Db) :=
  match db.requests.get? request.requestId with
  | some stored =>
    if stored.request = request.params then return ({ stored.response with idempotent := true }, db)
    else .error (.conflict "requestId already exists with different replay step parameters.")
  | none =>
    if db.session.status ∉ [Status.ready, .paused] then
      .error (.conflict s!"Replay session status {db.session.status.text} cannot be stepped.")
    else if request.expectedCursorTime ≠ db.session.cursorTime then
      .error (.conflict "Replay cursor changed; refresh the session before stepping again.")
    else do
      let candles ← batch db request.steps
      let response := advanced request db.session candles
      return (response, { db with
        session := response.session
        snapshot := db.ensuredSnapshot
        events := db.events ++ stepEvents request db.session.cursorTime response
        requests := db.requests.set request.requestId ⟨request.params, response⟩ })

/-! ## Sessions -/

/-- `reset_session(store, session_id)` -/
def resetSession (db : Db) : Except ReplayError Db :=
  if db.session.status = .running then
    .error (.validation "A running replay session must be paused before reset.")
  else return { db with
    trades := []
    events := [.sessionReset]
    session := { db.session with
      status := .ready
      cursorTime := none
      balance := db.session.initialBalance
      equity := db.session.initialBalance
      summary := .empty } }

/-- A request to start a session, of which the identifiers are checked. -/
structure StartRequest where
  sessionId : String
  symbol : String
  timeframe : Timeframe
  requestedStart : ℤ
  requestedEnd : ℤ
  initialBalance : Option Json
  strategyMode : StrategyMode
  config : Json

/-- `MIN_SESSION_CANDLES` -/
def MIN_SESSION_CANDLES : ℤ := 2

/-- `MAX_REPLAY_CANDLES` -/
def MAX_REPLAY_CANDLES : ℤ := 200000

/-- `_positive_decimal(value, field)` -/
def positiveDecimal (value : Option Json) (field : String) : Except ReplayError ℚ :=
  match decimalOf value with
  | none => .error (.validation s!"{field} must be numeric.")
  | some none => .error (.validation s!"{field} must be greater than zero.")
  | some (some q) =>
    if q ≤ 0 then .error (.validation s!"{field} must be greater than zero.")
    else if 1000000000000 < q then .error (.validation s!"{field} exceeds the replay safety limit.")
    else .ok q

/-- `normalize_sync_request(payload, now_ms)`: the times of the first and of the last candle. -/
def normalizeSyncRequest (timeframe : Timeframe) (requestedStart requestedEnd now : ℤ) :
    Except ReplayError (ℤ × ℤ) := do
  let interval := timeframe.intervalMs
  require (1000000000000 ≤ requestedStart)
    (.validation "startTime must be a Unix timestamp in milliseconds.")
  require (1000000000000 ≤ requestedEnd)
    (.validation "endTime must be a Unix timestamp in milliseconds.")
  require (requestedStart ≤ requestedEnd) (.validation "endTime cannot precede startTime.")
  let lastClosedOpen := now / interval * interval - interval
  let alignedStart := (requestedStart + interval - 1) / interval * interval
  let alignedEnd := min (requestedEnd / interval * interval) lastClosedOpen
  require (alignedStart ≤ alignedEnd)
    (.validation "The selected range does not contain a fully closed replay candle.")
  require ((alignedEnd - alignedStart) / interval + 1 ≤ MAX_REPLAY_CANDLES) (.validation
    s!"Replay data request exceeds the {MAX_REPLAY_CANDLES} candle safety limit.")
  return (alignedStart, alignedEnd)

/-- `cached_range_status(store, request)["complete"]` -/
def CandleTable.Covers (t : CandleTable) (s : Session) : Prop :=
  grid s.startTime s.timeframe.intervalMs (s.span s.startTime s.endTime).toNat ⊆
    t.rows.map (·.openTime)

instance (t : CandleTable) (s : Session) : Decidable (t.Covers s) :=
  inferInstanceAs (Decidable (∀ ⦃_ : ℤ⦄, _ → _))

/-- `ReplaySessionService.start(payload)`, for a session that does not exist, once its candles
    are there. -/
def startSession (request : StartRequest) (now : ℤ) (source : CandleTable) :
    Except ReplayError Db := do
  let initialBalance ← positiveDecimal request.initialBalance "initialBalance"
  let (startTime, endTime) ←
    normalizeSyncRequest request.timeframe request.requestedStart request.requestedEnd now
  let balance ← column initialBalance
  let session : Session := {
    sessionId := request.sessionId
    symbol := request.symbol
    timeframe := request.timeframe
    status := .ready
    startTime := startTime
    endTime := endTime
    cursorTime := none
    initialBalance := balance
    balance := balance
    equity := balance
    strategyMode := request.strategyMode
    config := request.config
    summary := .empty }
  require (MIN_SESSION_CANDLES ≤ session.span startTime endTime) (.validation
    s!"Replay session requires at least {MIN_SESSION_CANDLES} fully closed candles.")
  require (source.Covers session)
    (.dataIncomplete "Replay candle range is incomplete; sync data before starting.")
  let snapshot := snapshotSessionCandles session source
  return {
    session, snapshot, source
    requests := ∅
    trades := []
    events := [.sessionCreated snapshot.rows.length] }

end IntradayBot.Replay
