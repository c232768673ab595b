import IntradayBot.Setup.Watchlist

/-!
# The classification of 15M setups

The second stage of the scan. For each row of the watchlist the strategies are asked for their
votes, if the latest closed 15M candle is there (`classifySymbol`). The strongest vote on the side
of the trend is the setup, with a grade for its strength.

A row with a setup is from closed candles and the strongest vote (`classifySymbol_setup`). The
rows of the watchlist are those of its own candle, whatever the status of the watchlist is
(`currentHourlyRows`). The strategies are a parameter.
-/

namespace IntradayBot.Setup

open Accuracy
open IntradayBot.Runtime (integer)

/-! ## Grades -/

inductive Grade
  | aPlus
  | a
  | bPlus
  | reject
  deriving DecidableEq, Repr

/-- The text of a grade. -/
def Grade.text : Grade → String
  | .aPlus => "A+"
  | .a => "A"
  | .bPlus => "B+"
  | .reject => "REJECT"

/-- The variables of the environment, if they are numbers. -/
structure GradeEnvironment where
  aPlusStrength : Option ℚ
  aStrength : Option ℚ
  bPlusStrength : Option ℚ

/-- `settings()`, of which the grading uses these. -/
structure GradeSettings where
  aPlusStrength : ℚ
  aStrength : ℚ
  bPlusStrength : ℚ

/-- `settings()`, with these variables of the environment. -/
def GradeEnvironment.settings (env : GradeEnvironment) : GradeSettings where
  aPlusStrength := number env.aPlusStrength (9 / 2) 0 5
  aStrength := number env.aStrength (19 / 5) 0 5
  bPlusStrength := number env.bPlusStrength (16 / 5) 0 5

/-- What `grade_for_strength` returns. -/
structure Grading where
  grade : Grade
  gradeScore : ℚ
  executionEligible : Bool
  watchOnly : Bool
  deriving DecidableEq

/-- `grade_for_strength(strength)` -/
def gradeForStrength (cfg : GradeSettings) (strength : ℚ) : Grading :=
  let value := max 0 (min 5 |strength|)
  let grade :=
    if cfg.aPlusStrength ≤ value then Grade.aPlus
    else if cfg.aStrength ≤ value then .a
    else if cfg.bPlusStrength ≤ value then .bPlus
    else .reject
  { grade := grade
    gradeScore := roundTo 2 (value / 5 * 100)
    executionEligible := grade = .aPlus ∨ grade = .a
    watchOnly := grade = .bPlus }

/-! ## Classified rows -/

/-- What the strategies answer about a symbol: `core.evaluate_signal(symbol, "5", "aggressive")`. -/
structure Evaluation where
  signal : Signal
  reason : String
  votes : List Vote
  router : Router
  /-- `indicators["entryInterval"]`, where `None` is the empty text. -/
  entryInterval : String
  /-- `indicators["signalCandleTime"]` -/
  signalCandleTime : Option ℤ
  deriving DecidableEq

/-- An element of `strategyVotes`. -/
structure GradedVote extends Vote where
  alignedWithWatchlist : Bool
  grading : Grading
  deriving DecidableEq

structure MarketMetrics where
  atr15mPct : Option ℚ
  volumeRatio : Option ℚ
  marketMetricsCandleTime : Option ℤ
  deriving DecidableEq

inductive SetupStatus
  | setupClassified
  | watching
  | noSetup
  | error
  deriving DecidableEq, Repr

/-- The fields of a row for which the strategies answered. -/
structure Engine where
  engineSignal : Signal
  engineReason : String
  entryInterval : String
  latestFiveMinuteCandleTime : Option ℤ
  deriving DecidableEq

/-- The fields of a row whose votes count. -/
structure Votes where
  router : Router
  strategyVotes : List GradedVote
  matchedStrategies : List String
  opposingStrategies : List String
  waitingStrategies : List String
  deriving DecidableEq

/-- The fields of a row whose setup is classified. -/
structure ClassifiedSetup where
  strategy : String
  strategyReason : String
  strategyStrength : ℚ
  grading : Grading
  deriving DecidableEq

/-- A row of the classification. -/
structure SetupRow where
  symbol : String
  watchlistTrend : Trend
  oneHourCandleTime : ℤ
  fifteenMinuteCandleTime : ℤ
  metrics : MarketMetrics
  expectedSide : Option Signal
  observedFifteenMinuteCandleTime : Option ℤ
  engine : Option Engine
  votes : Option Votes
  status : SetupStatus
  setup : Option ClassifiedSetup
  reason : String
  deriving DecidableEq

/-- Why a row has no votes. -/
inductive Rejection
  | missing15mHistory
  | stale15mCandle
  | invalid5mContext
  | engineError
  | dependencyError
  deriving DecidableEq, Repr

/-! ## A symbol -/

/-- What the exchange and the strategies answer to a classification. -/
structure SetupAnswers where
  /-- `core.fetch_candles(symbol, "15", limit=…)`, of which `None` is the empty list. -/
  candles : String → Except String (List Accuracy.Bar)
  evaluate : String → Except String Evaluation

/-- `core.simple_atr(highs, lows, closes, period)` -/
def simpleAtr (candles : List Accuracy.Bar) (period : ℕ) : ℚ :=
  if candles.length ≤ period then 0
  else
    let ranges := List.zipWith (fun previous bar : Accuracy.Bar =>
      max (bar.high - bar.low) (max |bar.high - previous.close| |bar.low - previous.close|))
      candles candles.tail
    (ranges.rtake period).sum / period

/-- `_closed_15m_market_metrics(core, history)` -/
def closed15mMarketMetrics (history : List Accuracy.Bar) : MarketMetrics :=
  if history.length < 21 then ⟨none, none, none⟩
  else
    let close := fromEnd (history.map Accuracy.Bar.close) 0
    let volumes := history.map Accuracy.Bar.volume
    let atr := simpleAtr history 14
    let baselineRows := volumes.dropLast.rtake 20
    let baseline := if 0 < baselineRows.sum then baselineRows.sum / baselineRows.length else 0
    let time := (history.getLast?.map Accuracy.Bar.time).getD 0
    { atr15mPct := if 0 < close ∧ 0 < atr then some (roundTo 5 (atr / close * 100)) else none
      volumeRatio := if 0 < baseline then some (roundTo 4 (fromEnd volumes 0 / baseline)) else none
      marketMetricsCandleTime := if time = 0 then none else some time }

/-- `_vote_payload(vote, expected_side)` -/
def votePayload (cfg : GradeSettings) (expectedSide : Signal) (vote : Vote) : GradedVote where
  toVote := vote
  alignedWithWatchlist := vote.signal = expectedSide
  grading := gradeForStrength cfg vote.strength

/-- `max(votes, key=lambda vote: abs(vote["strength"]))`: the first of the strongest ones. -/
def strongest : List Vote → Option Vote
  | [] => none
  | vote :: votes =>
    match strongest votes with
    | some best => if |vote.strength| < |best.strength| then some best else some vote
    | none => some vote

/-- `_actionable_vote(votes, expected_side)` -/
def actionableVote (votes : List Vote) (expectedSide : Signal) : Option Vote :=
  strongest (votes.filter fun vote => vote.signal = expectedSide)

/-- The engines whose vote is the signal. -/
def enginesFor (signal : Signal) (votes : List Vote) : List String :=
  (votes.filter fun vote => vote.signal = signal).map Vote.engine

/-- The opposite side. -/
def opposing (side : Signal) : Signal := if side = .buy then .sell else .buy

/-- The part of `common` that is about the engine. -/
def Evaluation.engine (evaluation : Evaluation) : Engine where
  engineSignal := evaluation.signal
  engineReason := evaluation.reason
  entryInterval := evaluation.entryInterval
  latestFiveMinuteCandleTime := evaluation.signalCandleTime

/-- The part of `common` that is about the votes. -/
def commonVotes (cfg : GradeSettings) (side : Signal) (evaluation : Evaluation) : Votes where
  router := evaluation.router
  strategyVotes := evaluation.votes.map (votePayload cfg side)
  matchedStrategies := enginesFor side evaluation.votes
  opposingStrategies := enginesFor (opposing side) evaluation.votes
  waitingStrategies := enginesFor .wait evaluation.votes

/-- `base` -/
def baseRow (row : WatchRow) (targetOpen : ℤ) : SetupRow where
  symbol := Json.upperCase row.symbol
  watchlistTrend := row.trend
  oneHourCandleTime := row.oneHourCandleTime
  fifteenMinuteCandleTime := targetOpen
  metrics := ⟨none, none, none⟩
  expectedSide := none
  observedFifteenMinuteCandleTime := none
  engine := none
  votes := none
  status := .noSetup
  setup := none
  reason := ""

/-- The part of `_classify_symbol` that asks the strategies. -/
def classifyVotes (cfg : GradeSettings) (base : SetupRow) (side : Signal)
    (answer : Except String Evaluation) : SetupRow × Option Rejection :=
  match answer with
  | .error message =>
    ({ base with status := .error, reason := s!"Strategy engine failed: {message}" },
      some .engineError)
  | .ok evaluation =>
    if evaluation.entryInterval ≠ "5" ∨ evaluation.signalCandleTime = none then
      ({ base with
        engine := some evaluation.engine
        status := .error
        reason := "Real closed 5M strategy context is unavailable" }, some .invalid5mContext)
    else
      let votes := commonVotes cfg side evaluation
      let common := { base with engine := some evaluation.engine, votes := some votes }
      match actionableVote evaluation.votes side with
      | some vote =>
        ({ common with
          status := .setupClassified
          setup := some ⟨vote.engine, vote.reason, vote.strength,
            gradeForStrength cfg vote.strength⟩
          reason := "Trend-aligned strategy setup classified; " ++
            "awaiting Step 6 closed-5M entry confirmation" }, none)
      | none =>
        if votes.waitingStrategies ≠ [] then
          ({ common with
            status := .watching
            reason := "No trend-aligned actionable vote; " ++
              "existing strategies remain in WAIT state" }, none)
        else
          ({ common with
            status := .noSetup
            reason := "No trend-aligned strategy setup on the closed 15M candle" }, none)

/-- What a classification uses. -/
structure SetupSettings where
  grades : GradeSettings
  minimumClosedCandles : ℤ

/-- `_classify_symbol(core, watchlist_row, target_open_ms, now_ms)` -/
def classifySymbol (cfg : SetupSettings) (answers : SetupAnswers) (timestamp : ℤ) (row : WatchRow) :
    Except String (SetupRow × Option Rejection) := do
  let base := baseRow row (targetOpenMs .fifteen timestamp)
  if base.symbol = "" then
    return ({ base with
      status := .error, reason := "Strategy classifier dependencies are unavailable" },
      some .dependencyError)
  else
    let side := row.trend.expectedSide
    let base := { base with expectedSide := some side }
    let candles ← answers.candles base.symbol
    let history := closedHistory candles .fifteen cfg.minimumClosedCandles (timestamp * 1000)
    match history.getLast? with
    | none =>
      return ({ base with reason := "Not enough fully closed 15M candle history" },
        some .missing15mHistory)
    | some last =>
      let base := { base with metrics := closed15mMarketMetrics history }
      if last.time ≠ base.fifteenMinuteCandleTime then
        return ({ base with
          observedFifteenMinuteCandleTime := some last.time
          reason := "Latest fully closed 15M candle is stale" }, some .stale15mCandle)
      else return classifyVotes cfg.grades base side (answers.evaluate base.symbol)

/-! ## The classification -/

/-- `_MAX_WATCHLIST_ROWS` -/
def MAX_WATCHLIST_ROWS : ℕ := 50

/-- `symbols` and `rows`. -/
structure Classification where
  symbols : List String
  rows : List SetupRow

/-- `_current_hourly_rows(upstream)` -/
def currentHourlyRows (upstream : Stage Watchlist) : List WatchRow :=
  let activeSymbols := (upstream.content.symbols.map Json.upperCase).filter fun symbol =>
    PyText.strip symbol ≠ ""
  let candleTime := upstream.candleTime.getD 0
  (upstream.content.rows.filter fun row =>
    let symbol := Json.upperCase row.symbol
    symbol ≠ "" ∧ (activeSymbols = [] ∨ symbol ∈ activeSymbols) ∧
      (0 < candleTime → row.oneHourCandleTime = candleTime)).take MAX_WATCHLIST_ROWS

/-- The part of `build(core, now)` that computes the payload. -/
def classify (cfg : SetupSettings) (answers : SetupAnswers) (timestamp : ℤ)
    (upstream : Stage Watchlist) : Except String (Body Classification) := do
  let upstreamRows := currentHourlyRows upstream
  if upstreamRows = [] then .error "Hourly Top-50 watchlist is unavailable"
  else
    let classified ← upstreamRows.mapM (classifySymbol cfg answers timestamp)
    let rows := classified.map Prod.fst
    return {
      status := if rows = [] then .empty else .ready
      candleTime := some (targetOpenMs .fifteen timestamp)
      updatedAt := timestamp
      content := ⟨rows.map (·.symbol), rows⟩
      lastError := if rows = [] then some "No watchlist symbol was classified" else none }

/-- The body that is read back has the candle time and the symbols that were saved. -/
def Classification.confirms (confirmed body : Body Classification) : Bool :=
  confirmed.candleTime = body.candleTime ∧ confirmed.content.symbols = body.content.symbols

/-- What a restart keeps of a saved classification. -/
def Classification.accept (saved : Classification) : Option Classification :=
  let rows := saved.rows.take MAX_WATCHLIST_ROWS
  let symbols := ((saved.symbols.map Json.upperCase).filter fun symbol =>
    PyText.strip symbol ≠ "").take MAX_WATCHLIST_ROWS
  if symbols.isEmpty = rows.isEmpty then some ⟨symbols, rows⟩ else none

/-- What a classification meets. -/
structure SetupBuild where
  grades : GradeEnvironment
  /-- `SETUP_WORKER_MIN_15M_CANDLES` -/
  minimumClosedCandles : Option ℤ
  answers : SetupAnswers
  saving : Saving

/-- The settings of a classification. -/
def SetupBuild.settings (b : SetupBuild) : SetupSettings where
  grades := b.grades.settings
  minimumClosedCandles := integer b.minimumClosedCandles 60 30 240

/-- `build(core, now)` -/
def buildClassification (b : SetupBuild) (timestamp : ℤ) (upstream : Stage Watchlist)
    (s : Stage Classification) : Stage Classification :=
  s.build Classification.confirms (fun content => content.rows ≠ []) b.saving
    (classify b.settings b.answers timestamp upstream)

/-! ## What is classified -/

theorem strongest_eq_some {votes : List Vote} {vote : Vote} (h : strongest votes = some vote) :
    vote ∈ votes ∧ ∀ other ∈ votes, |other.strength| ≤ |vote.strength| := by
  induction votes generalizing vote with
  | nil => cases h
  | cons first votes ih =>
    rw [strongest] at h
    split at h
    · rename_i best hbest
      obtain ⟨hmem, hle⟩ := ih hbest
      split at h
      · rename_i hlt
        obtain rfl := Option.some.inj h
        exact ⟨List.mem_cons_of_mem _ hmem, List.forall_mem_cons.2 ⟨hlt.le, hle⟩⟩
      · rename_i hge
        obtain rfl := Option.some.inj h
        refine ⟨List.mem_cons_self, List.forall_mem_cons.2 ⟨le_rfl, fun other hother => ?_⟩⟩
        exact (hle other hother).trans (not_lt.1 hge)
    · rename_i hnone
      obtain rfl := Option.some.inj h
      cases votes with
      | nil => simp
      | cons second votes =>
        rw [strongest] at hnone
        split at hnone
        · split at hnone <;> cases hnone
        · cases hnone

/-- The strongest vote on a side. -/
structure Actionable (votes : List Vote) (side : Signal) (vote : Vote) : Prop where
  mem : vote ∈ votes
  aligned : vote.signal = side
  strongest : ∀ other ∈ votes, other.signal = side → |other.strength| ≤ |vote.strength|

theorem actionable_of_actionableVote {votes : List Vote} {side : Signal} {vote : Vote}
    (h : actionableVote votes side = some vote) : Actionable votes side vote := by
  obtain ⟨hmem, hle⟩ := strongest_eq_some h
  rw [List.mem_filter, decide_eq_true_eq] at hmem
  refine ⟨hmem.1, hmem.2, fun other hother haligned => hle other ?_⟩
  exact List.mem_filter.2 ⟨hother, decide_eq_true haligned⟩

/-- The row of a watchlist is classified with a setup, of candles and votes. -/
structure ClassifiedBy (cfg : SetupSettings) (answers : SetupAnswers) (timestamp : ℤ)
    (watch : WatchRow) (row : SetupRow) (setup : ClassifiedSetup) : Prop where
  symbol : row.symbol = Json.upperCase watch.symbol
  side : row.expectedSide = some watch.trend.expectedSide
  oneHourCandleTime : row.oneHourCandleTime = watch.oneHourCandleTime
  current : row.fifteenMinuteCandleTime = targetOpenMs .fifteen timestamp
  closed : ∃ candles, answers.candles row.symbol = .ok candles ∧
    cfg.minimumClosedCandles ≤ (filterClosedCandles candles .fifteen (timestamp * 1000)).length ∧
    ∃ last ∈ (filterClosedCandles candles .fifteen (timestamp * 1000)).getLast?,
      last.time = row.fifteenMinuteCandleTime
  voted : ∃ evaluation vote, answers.evaluate row.symbol = .ok evaluation ∧
    evaluation.entryInterval = "5" ∧ evaluation.signalCandleTime ≠ none ∧
    Actionable evaluation.votes watch.trend.expectedSide vote ∧
    setup = ⟨vote.engine, vote.reason, vote.strength, gradeForStrength cfg.grades vote.strength⟩

theorem mem_closedHistory {candles : List Accuracy.Bar} {interval : Interval} {minimum nowMs : ℤ}
    {last : Accuracy.Bar}
    (h : (closedHistory candles interval minimum nowMs).getLast? = some last) :
    minimum ≤ (filterClosedCandles candles interval nowMs).length ∧
      (filterClosedCandles candles interval nowMs).getLast? = some last := by
  rw [closedHistory] at h
  split at h
  · exact ⟨‹_›, h⟩
  · cases h

/-- What the strategies answer classifies a row with the strongest vote on its side. -/
theorem classifyVotes_setup {cfg : GradeSettings} {base row : SetupRow} {side : Signal}
    {answer : Except String Evaluation} {rejection : Option Rejection} {setup : ClassifiedSetup}
    (hbase : base.setup = none) (h : classifyVotes cfg base side answer = (row, rejection))
    (hsetup : row.setup = some setup) :
    (row.symbol = base.symbol ∧ row.expectedSide = base.expectedSide ∧
      row.oneHourCandleTime = base.oneHourCandleTime ∧
      row.fifteenMinuteCandleTime = base.fifteenMinuteCandleTime) ∧
    ∃ evaluation vote, answer = .ok evaluation ∧
      evaluation.entryInterval = "5" ∧ evaluation.signalCandleTime ≠ none ∧
      Actionable evaluation.votes side vote ∧
      setup = ⟨vote.engine, vote.reason, vote.strength, gradeForStrength cfg vote.strength⟩ := by
  -- Without a vote on the side, the row has the setup of its base, which is none.
  have hnone : ∀ base' : SetupRow, base'.setup = none → base' ≠ row := by
    rintro _ hnone rfl
    cases hnone.symm.trans hsetup
  unfold classifyVotes at h
  split at h
  · exact absurd (Prod.mk.inj h).1 (hnone _ hbase)
  rename_i evaluation
  split at h
  · exact absurd (Prod.mk.inj h).1 (hnone _ hbase)
  rename_i hcontext
  rw [not_or, not_not] at hcontext
  dsimp only at h
  split at h
  · rename_i vote hvote
    obtain rfl := (Prod.mk.inj h).1
    exact ⟨⟨rfl, rfl, rfl, rfl⟩, evaluation, vote, rfl, hcontext.1, hcontext.2,
      actionable_of_actionableVote hvote, (Option.some.inj hsetup).symm⟩
  · split at h
    · exact absurd (Prod.mk.inj h).1 (hnone _ hbase)
    · exact absurd (Prod.mk.inj h).1 (hnone _ hbase)

/-- A row with a setup is classified by candles and votes. -/
theorem classifySymbol_setup {cfg : SetupSettings} {answers : SetupAnswers} {timestamp : ℤ}
    {watch : WatchRow} {row : SetupRow} {rejection : Option Rejection} {setup : ClassifiedSetup}
    (h : classifySymbol cfg answers timestamp watch = .ok (row, rejection))
    (hsetup : row.setup = some setup) : ClassifiedBy cfg answers timestamp watch row setup := by
  rw [classifySymbol] at h
  split at h
  · obtain rfl := (Prod.mk.inj (pure_eq_ok.1 h)).1
    cases hsetup
  obtain ⟨candles, hcandles, h⟩ := bind_eq_ok.1 h
  dsimp only at h
  split at h
  · obtain rfl := (Prod.mk.inj (pure_eq_ok.1 h)).1
    cases hsetup
  rename_i last hlast
  split at h
  · obtain rfl := (Prod.mk.inj (pure_eq_ok.1 h)).1
    cases hsetup
  rename_i htime
  obtain ⟨⟨hsymbol, hside, hhour, hfifteen⟩, hvoted⟩ :=
    classifyVotes_setup rfl (pure_eq_ok.1 h) hsetup
  obtain ⟨hminimum, hlast⟩ := mem_closedHistory hlast
  refine ⟨hsymbol, hside, hhour, hfifteen, ⟨candles, ?_, hminimum, last, hlast, ?_⟩, ?_⟩
  · rw [hsymbol]
    exact hcandles
  · rw [hfifteen]
    exact not_not.1 htime
  · rw [hsymbol]
    exact hvoted

end IntradayBot.Setup
