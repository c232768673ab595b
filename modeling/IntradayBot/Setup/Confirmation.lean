import IntradayBot.Data.PyValue
import IntradayBot.Setup.Classifier

/-!
# The confirmation of entries

The third stage of the scan. A setup that is classified and graded A+ or A is confirmed by the
latest closed 5M candle, if it opened after the setup candle closed and went the way of the setup
(`confirmSymbol`). What is confirmed is queued, once for its key (`queueCandidate`), for the risk
checks.
-/

namespace IntradayBot.Setup

open Accuracy
open IntradayBot.Runtime (integer)

/-- A candidate of the queue. -/
structure Candidate where
  candidateKey : String
  symbol : String
  side : Signal
  strategy : String
  setupFifteenMinuteCandleTime : ℤ
  entryFiveMinuteCandleTime : ℤ
  entryReference : ℚ
  setupStrategyReason : String
  strategyStrength : ℚ
  grade : Grade
  gradeScore : ℚ
  fiveMinuteOpen : ℚ
  fiveMinuteClose : ℚ
  createdAt : ℤ
  deriving DecidableEq

/-- The dictionary of a candidate. -/
def Candidate.toDict (c : Candidate) : PyDict :=
  [("candidateKey", .str c.candidateKey), ("symbol", .str c.symbol),
    ("side", .str (signalText c.side)), ("strategy", .str c.strategy),
    ("setupFifteenMinuteCandleTime", .int c.setupFifteenMinuteCandleTime),
    ("entryFiveMinuteCandleTime", .int c.entryFiveMinuteCandleTime),
    ("entryReference", .float (.finite c.entryReference)),
    ("entryReferenceSource", .str "CLOSED_5M_CLOSE"),
    ("setupStrategyReason", .str c.setupStrategyReason),
    ("entryStrategyReason",
      .str s!"Favorable closed 5M candle confirmed {signalText c.side} entry"),
    ("strategyStrength", .float (.finite c.strategyStrength)),
    ("grade", .str c.grade.text), ("gradeScore", .float (.finite c.gradeScore)),
    ("setupGrade", .str c.grade.text), ("setupGradeScore", .float (.finite c.gradeScore)),
    ("fiveMinuteOpen", .float (.finite c.fiveMinuteOpen)),
    ("fiveMinuteClose", .float (.finite c.fiveMinuteClose)),
    ("confirmationRule", .str "FAVORABLE_CLOSED_5M_CANDLE"), ("createdAt", .int c.createdAt),
    ("riskStatus", .str "PENDING_RISK"), ("positionSizingStatus", .str "NOT_EVALUATED_STEP8"),
    ("executionStatus", .str "AWAITING_NODE_EXECUTION"), ("orderSubmitted", .bool false)]

inductive EntryStatus
  | entryWait
  | setupInvalidated
  | blockedGrade
  | error
  | entryConfirmed
  deriving DecidableEq, Repr

inductive CandleDirection
  | bullish
  | bearish
  | flat
  deriving DecidableEq, Repr

/-- The fields of a row whose candle counts. -/
structure EntryCandle where
  fiveMinuteOpen : ℚ
  fiveMinuteClose : ℚ
  fiveMinuteDirection : CandleDirection
  deriving DecidableEq

/-- A row of the confirmation. -/
structure EntryRow where
  symbol : String
  side : Option Signal
  strategy : String
  setupFifteenMinuteCandleTime : ℤ
  entryFiveMinuteCandleTime : ℤ
  setupGrading : Option Grading
  observedFiveMinuteCandleTime : Option ℤ
  candle : Option EntryCandle
  status : EntryStatus
  entryReference : Option ℚ
  candidateKey : Option String
  reason : String
  queued : Bool
  deriving DecidableEq

/-- Why a setup is not confirmed for good. -/
inductive EntryRejection
  | invalidSetupIdentity
  | setupGradeBlocked
  | missing5mHistory
  | stale5mCandle
  | invalidEntryReference
  deriving DecidableEq, Repr

/-- `_closed_five_minute_history(core, symbol, now_ms)`, of the candles of the answer. -/
def closedFiveMinuteHistory (candles : List Accuracy.Bar) (nowMs : ℤ) : List Accuracy.Bar :=
  filterClosedCandles candles .five nowMs

/-- The candle went the way of the side. -/
def Favorable (side : Signal) (bar : Accuracy.Bar) : Prop :=
  side = .buy ∧ bar.openPrice < bar.close ∨ side = .sell ∧ bar.close < bar.openPrice

instance (side : Signal) (bar : Accuracy.Bar) : Decidable (Favorable side bar) :=
  inferInstanceAs (Decidable (_ ∨ _))

/-- `candidate_key` -/
def candidateKey (symbol : String) (setupTime entryTime : ℤ) (side : Signal) (strategy : String) :
    String :=
  s!"{symbol}:{setupTime}:{entryTime}:{signalText side}:{strategy}"

/-- The candidate of a confirmed setup. -/
def candidateOf (row : SetupRow) (setup : ClassifiedSetup) (side : Signal)
    (targetFive targetSetup : ℤ) (timestamp : ℤ) (bar : Accuracy.Bar) : Candidate where
  candidateKey := candidateKey (Json.upperCase row.symbol) targetSetup targetFive side setup.strategy
  symbol := Json.upperCase row.symbol
  side := side
  strategy := setup.strategy
  setupFifteenMinuteCandleTime := targetSetup
  entryFiveMinuteCandleTime := targetFive
  entryReference := roundTo 12 bar.close
  setupStrategyReason := setup.strategyReason
  strategyStrength := setup.strategyStrength
  grade := setup.grading.grade
  gradeScore := setup.grading.gradeScore
  fiveMinuteOpen := roundTo 12 bar.openPrice
  fiveMinuteClose := roundTo 12 bar.close
  createdAt := timestamp

/-- `base` -/
def entryBase (row : SetupRow) (targetFive targetSetup : ℤ) : EntryRow where
  symbol := Json.upperCase row.symbol
  side := row.expectedSide
  strategy := (row.setup.map ClassifiedSetup.strategy).getD ""
  setupFifteenMinuteCandleTime := targetSetup
  entryFiveMinuteCandleTime := targetFive
  setupGrading := row.setup.map ClassifiedSetup.grading
  observedFiveMinuteCandleTime := none
  candle := none
  status := .entryWait
  entryReference := none
  candidateKey := none
  reason := ""
  queued := false

/-- The part of `_confirm_symbol` that looks at the latest closed 5M candle. -/
def confirmCandle (base : EntryRow) (candidate : Candidate) (bar : Accuracy.Bar) :
    EntryRow × Option Candidate × Option EntryRejection :=
  let observed := { base with observedFiveMinuteCandleTime := some bar.time }
  if bar.time ≠ base.entryFiveMinuteCandleTime then
    ({ observed with reason := "Latest fully closed 5M candle is stale" }, none, some .stale5mCandle)
  else if bar.openPrice ≤ 0 ∨ bar.close ≤ 0 then
    ({ observed with status := .error, reason := "Closed-5M candle open/close is invalid" }, none,
      some .invalidEntryReference)
  else
    let common := { observed with
      candle := some {
        fiveMinuteOpen := roundTo 12 bar.openPrice
        fiveMinuteClose := roundTo 12 bar.close
        fiveMinuteDirection :=
          if bar.openPrice < bar.close then .bullish
          else if bar.close < bar.openPrice then .bearish
          else .flat } }
    if ¬Favorable candidate.side bar then
      ({ common with
        reason := s!"Closed 5M candle is not favorable for {signalText candidate.side}" }, none, none)
    else
      ({ common with
        status := .entryConfirmed
        entryReference := some candidate.entryReference
        candidateKey := some candidate.candidateKey
        reason := "Favorable closed 5M candle confirmed the classified 15M setup" },
        some candidate, none)

/-- `_confirm_symbol(core, setup, target_five_minute_ms, target_setup_ms, now_ms)` -/
def confirmSymbol (candles : String → Except String (List Accuracy.Bar))
    (timestamp targetFive targetSetup : ℤ) (row : SetupRow) :
    Except String (EntryRow × Option Candidate × Option EntryRejection) := do
  let base := entryBase row targetFive targetSetup
  match row.setup, row.expectedSide with
  | some setup, some side =>
    if base.symbol = "" ∨ side = .wait ∨ setup.strategy = "" then
      return ({ base with
        status := .setupInvalidated, reason := "Classified setup identity is incomplete" }, none,
        some .invalidSetupIdentity)
    else if ¬setup.grading.executionEligible ∨
        setup.grading.grade ≠ .aPlus ∧ setup.grading.grade ≠ .a then
      return ({ base with
        status := .blockedGrade
        reason := "Classified 15M setup is not A+/A execution eligible" }, none,
        some .setupGradeBlocked)
    else
      let history := closedFiveMinuteHistory (← candles base.symbol) (timestamp * 1000)
      match history.getLast? with
      | none =>
        return ({ base with reason := "Fully closed 5M candle history is unavailable" }, none,
          some .missing5mHistory)
      | some latest =>
        return confirmCandle base
          (candidateOf row setup side targetFive targetSetup timestamp latest) latest
  | _, _ =>
    return ({ base with
      status := .setupInvalidated, reason := "Classified setup identity is incomplete" }, none,
      some .invalidSetupIdentity)

/-! ## The queue -/

/-- `_queue_limit()`: `SETUP_WORKER_QUEUE_LIMIT` within its bounds. -/
def queueLimit (value : Option ℤ) : ℕ := (max 1 (integer value 100 10 1000)).toNat

/-- `_queue_candidate(queue, candidate)` -/
def queueCandidate (limit : ℕ) (queue : List Candidate) (candidate : Candidate) :
    List Candidate × Bool :=
  if candidate.candidateKey ∈ queue.map (·.candidateKey) then (queue, false)
  else ((queue ++ [candidate]).rtake limit, true)

/-- `rows` and `confirmedEntryQueue`. -/
structure Entries where
  setupFifteenMinuteCandleTime : Option ℤ
  rows : List EntryRow
  confirmedEntryQueue : List Candidate

/-- The row and the queue, after what `_confirm_symbol` returned. -/
def queueRow (limit : ℕ) (queue : List Candidate)
    (confirmed : EntryRow × Option Candidate × Option EntryRejection) : EntryRow × List Candidate :=
  match confirmed with
  | (row, some candidate, _) =>
    let (queue, added) := queueCandidate limit queue candidate
    if added then ({ row with queued := true }, queue)
    else ({ row with
      queued := false
      reason := "Closed-5M entry was already confirmed and queued" }, queue)
  | (row, none, _) => ({ row with queued := false }, queue)

/-- The loop of `build`. -/
def confirmAll (limit : ℕ) (confirm : SetupRow →
      Except String (EntryRow × Option Candidate × Option EntryRejection)) :
    List Candidate → List SetupRow → Except String (List EntryRow × List Candidate)
  | queue, [] => return ([], queue)
  | queue, setup :: setups => do
    let (row, queue) := queueRow limit queue (← confirm setup)
    let (rows, queue) ← confirmAll limit confirm queue setups
    return (row :: rows, queue)

/-- The rows of the classification that are classified. -/
def setupRows (classification : Classification) : List SetupRow :=
  classification.rows.filter fun row => row.status = .setupClassified

/-- The part of `build(core, now)` that computes the payload. -/
def confirm (limit : ℕ) (candles : String → Except String (List Accuracy.Bar)) (timestamp : ℤ)
    (classification : Stage Classification) (queue : List Candidate) :
    Except String (Body Entries) := do
  let targetFive := targetOpenMs .five timestamp
  let targetSetup := targetOpenMs .fifteen timestamp
  if classification.status ≠ .ready then .error "Closed-15M strategy classification is not ready"
  else if classification.candleTime.getD 0 ≠ targetSetup then
    .error "Closed-15M strategy classification is stale"
  -- A setup candle must close before a later 5M candle can confirm entry.
  else if targetFive < targetSetup + 900000 then
    return {
      status := .waiting
      candleTime := some targetFive
      updatedAt := timestamp
      content := ⟨some targetSetup, [], queue⟩
      lastError := none }
  else
    let (rows, queue) ← confirmAll limit (confirmSymbol candles timestamp targetFive targetSetup)
      queue (setupRows classification.content)
    return {
      status := .ready
      candleTime := some targetFive
      updatedAt := timestamp
      content := ⟨some targetSetup, rows, queue⟩
      lastError := none }

/-- The body that is read back has the candle time and the queue that were saved. -/
def Entries.confirms (confirmed body : Body Entries) : Bool :=
  confirmed.candleTime = body.candleTime ∧
    confirmed.content.confirmedEntryQueue = body.content.confirmedEntryQueue

/-- What a confirmation meets. -/
structure EntryBuild where
  /-- `SETUP_WORKER_QUEUE_LIMIT` -/
  limit : Option ℤ
  /-- `core.fetch_candles(symbol, "5", limit=120)`, of which `None` is the empty list. -/
  candles : String → Except String (List Accuracy.Bar)
  saving : Saving

/-- `build(core, now)` -/
def buildEntries (b : EntryBuild) (timestamp : ℤ) (classification : Stage Classification)
    (s : Stage Entries) : Stage Entries :=
  s.build Entries.confirms (fun content => content.rows ≠ [] ∨ content.confirmedEntryQueue ≠ [])
    b.saving
    (confirm (queueLimit b.limit) b.candles timestamp classification s.content.confirmedEntryQueue)

/-- `ensure_current(core, now)` -/
def ensureEntries (b : EntryBuild) (timestamp : ℤ) (classification : Stage Classification)
    (s : Stage Entries) : Stage Entries :=
  if s.due .five timestamp then buildEntries b timestamp classification s else s

/-! ## What is confirmed -/

section

variable {candles : String → Except String (List Accuracy.Bar)}
  {timestamp targetFive targetSetup : ℤ}
  {row : SetupRow} {entry : EntryRow} {candidate : Candidate} {rejection : Option EntryRejection}
  {limit : ℕ} {queue : List Candidate}

/-- The candidate is what a classified row is confirmed as, by the latest closed 5M candle. -/
structure ConfirmedBy (candles : String → Except String (List Accuracy.Bar))
    (timestamp targetFive targetSetup : ℤ) (row : SetupRow) (setup : ClassifiedSetup)
    (bar : Accuracy.Bar) (candidate : Candidate) : Prop where
  classified : row.setup = some setup
  side : row.expectedSide = some candidate.side
  identified : candidate.symbol ≠ "" ∧ candidate.strategy ≠ ""
  graded : setup.grading.executionEligible ∧ (candidate.grade = .aPlus ∨ candidate.grade = .a)
  built : candidate =
    candidateOf row setup candidate.side targetFive targetSetup timestamp bar
  latest : ∃ fetched, candles candidate.symbol = .ok fetched ∧
    (filterClosedCandles fetched .five (timestamp * 1000)).getLast? = some bar
  time : bar.time = targetFive
  positive : 0 < bar.openPrice ∧ 0 < bar.close
  favorable : Favorable candidate.side bar

theorem confirmCandle_eq_some {base : EntryRow} {bar : Accuracy.Bar} {c : Candidate}
    (h : confirmCandle base candidate bar = (entry, some c, rejection)) :
    c = candidate ∧ entry.candidateKey = some candidate.candidateKey ∧
      bar.time = base.entryFiveMinuteCandleTime ∧ (0 < bar.openPrice ∧ 0 < bar.close) ∧
      Favorable candidate.side bar := by
  rw [confirmCandle] at h
  dsimp only at h
  split at h
  · cases h
  rename_i htime
  split at h
  · cases h
  rename_i hprices
  split at h
  · cases h
  rename_i hfavorable
  cases h
  rw [not_or, not_le, not_le] at hprices
  exact ⟨rfl, rfl, not_not.1 htime, hprices, not_not.1 hfavorable⟩

theorem confirmSymbol_eq_some
    (h : confirmSymbol candles timestamp targetFive targetSetup row =
      .ok (entry, some candidate, rejection)) :
    entry.candidateKey = some candidate.candidateKey ∧
      ∃ setup bar, ConfirmedBy candles timestamp targetFive targetSetup row setup bar candidate := by
  rw [confirmSymbol] at h
  dsimp only at h
  split at h
  swap
  · cases h
  rename_i setup side hsetup hside
  split at h
  · cases h
  rename_i hidentity
  split at h
  · cases h
  rename_i hgrade
  obtain ⟨fetched, hfetched, h⟩ := bind_eq_ok.1 h
  split at h
  · cases h
  rename_i bar hbar
  obtain ⟨rfl, hkey, htime, hpositive, hfavorable⟩ := confirmCandle_eq_some (pure_eq_ok.1 h)
  simp only [not_or, not_and, not_not] at hidentity hgrade
  refine ⟨hkey, setup, bar, hsetup, hside, ⟨hidentity.1, hidentity.2.2⟩, ⟨hgrade.1, ?_⟩, rfl,
    ⟨fetched, hfetched, hbar⟩, htime, hpositive, hfavorable⟩
  by_cases haPlus : setup.grading.grade = .aPlus
  · exact .inl haPlus
  · exact .inr (hgrade.2 haPlus)

/-! ## What is queued -/

theorem mem_queueCandidate {c : Candidate} (h : c ∈ (queueCandidate limit queue candidate).1) :
    c ∈ queue ∨ c = candidate := by
  rw [queueCandidate] at h
  split at h
  · exact .inl h
  · simpa using List.mem_of_mem_drop h

theorem nodup_queueCandidate (h : (queue.map (·.candidateKey)).Nodup) :
    ((queueCandidate limit queue candidate).1.map (·.candidateKey)).Nodup := by
  rw [queueCandidate]
  split
  · exact h
  · rename_i hnew
    have hall : ((queue ++ [candidate]).map (·.candidateKey)).Nodup := by
      rw [List.map_append, List.map_singleton, List.nodup_append_comm]
      exact List.nodup_cons.2 ⟨hnew, h⟩
    exact ((List.drop_sublist _ _).map _).nodup hall

theorem length_queueCandidate :
    (queueCandidate limit queue candidate).1.length ≤ max queue.length limit := by
  rw [queueCandidate]
  split
  · exact le_max_left ..
  · have : ((queue ++ [candidate]).rtake limit).length ≤ limit := by
      rw [List.rtake, List.length_drop]
      omega
    exact this.trans (le_max_right ..)

variable {confirm : SetupRow → Except String (EntryRow × Option Candidate × Option EntryRejection)}
  {setups : List SetupRow} {rows : List EntryRow} {queue' : List Candidate}

theorem queueRow_some : (queueRow limit queue (entry, some candidate, rejection)).2 =
    (queueCandidate limit queue candidate).1 := by
  rw [queueRow]
  dsimp only
  split <;> rfl

/-- What each queued candidate keeps of the queue, the loop keeps. -/
theorem confirmAll_keeps {I : List Candidate → Prop}
    (hstep : ∀ queue, I queue → ∀ setup ∈ setups, ∀ entry candidate rejection,
      confirm setup = .ok (entry, some candidate, rejection) →
        I (queueCandidate limit queue candidate).1)
    (h : confirmAll limit confirm queue setups = .ok (rows, queue')) (hqueue : I queue) :
    I queue' := by
  induction setups generalizing queue rows with
  | nil =>
    cases h
    exact hqueue
  | cons setup setups ih =>
    rw [confirmAll] at h
    obtain ⟨⟨entry, candidate, rejection⟩, hconfirm, h⟩ := bind_eq_ok.1 h
    dsimp only at h
    obtain ⟨⟨rest, queue''⟩, hrest, h⟩ := bind_eq_ok.1 h
    cases h
    refine ih (fun queue hq setup hsetup => hstep queue hq setup (List.mem_cons_of_mem _ hsetup))
      hrest ?_
    cases candidate with
    | none => exact hqueue
    | some candidate =>
      rw [queueRow_some]
      exact hstep queue hqueue setup List.mem_cons_self entry candidate rejection hconfirm

/-- The key that a row queued. -/
def EntryRow.queuedKey (row : EntryRow) : Option String :=
  if row.queued then row.candidateKey else none

/-- The keys that a build queued. -/
def queuedKeys (rows : List EntryRow) : List String := rows.filterMap EntryRow.queuedKey

theorem queuedKey_queueRow {key : String}
    (h : (queueRow limit queue (entry, some candidate, rejection)).1.queuedKey = some key) :
    entry.candidateKey = some key := by
  rw [queueRow] at h
  dsimp only at h
  split at h
  · exact h
  · cases h

/-- A key that the loop queued is of a candidate that one of the setups was confirmed as. -/
theorem mem_queuedKeys (h : confirmAll limit confirm queue setups = .ok (rows, queue')) {key : String}
    (hkey : key ∈ queuedKeys rows) : ∃ setup ∈ setups, ∃ entry candidate rejection,
      confirm setup = .ok (entry, some candidate, rejection) ∧ entry.candidateKey = some key := by
  induction setups generalizing queue rows with
  | nil =>
    cases h
    cases hkey
  | cons setup setups ih =>
    rw [confirmAll] at h
    obtain ⟨⟨entry, candidate, rejection⟩, hconfirm, h⟩ := bind_eq_ok.1 h
    dsimp only at h
    obtain ⟨⟨rest, queue''⟩, hrest, h⟩ := bind_eq_ok.1 h
    cases h
    obtain ⟨row, hrow, hrowkey⟩ := List.mem_filterMap.1 hkey
    rcases List.mem_cons.1 hrow with rfl | hrow
    · cases candidate with
      | none => cases hrowkey
      | some candidate =>
        exact ⟨setup, List.mem_cons_self, entry, candidate, rejection, hconfirm,
          queuedKey_queueRow hrowkey⟩
    · obtain ⟨setup, hsetup, hfound⟩ := ih hrest (List.mem_filterMap.2 ⟨row, hrow, hrowkey⟩)
      exact ⟨setup, List.mem_cons_of_mem _ hsetup, hfound⟩

/-- The loop queues each key once, if the setups are confirmed under different keys. -/
theorem nodup_queuedKeys (h : confirmAll limit confirm queue setups = .ok (rows, queue'))
    (hdistinct : setups.Pairwise fun setup later => ∀ entry candidate rejection entry' candidate'
      rejection', confirm setup = .ok (entry, some candidate, rejection) →
        confirm later = .ok (entry', some candidate', rejection') →
          entry.candidateKey ≠ entry'.candidateKey) : (queuedKeys rows).Nodup := by
  induction setups generalizing queue rows with
  | nil =>
    cases h
    exact List.nodup_nil
  | cons setup setups ih =>
    obtain ⟨hfirst, hdistinct⟩ := List.pairwise_cons.1 hdistinct
    rw [confirmAll] at h
    obtain ⟨⟨entry, candidate, rejection⟩, hconfirm, h⟩ := bind_eq_ok.1 h
    dsimp only at h
    obtain ⟨⟨rest, queue''⟩, hrest, h⟩ := bind_eq_ok.1 h
    cases h
    have hnodup := ih hrest hdistinct
    cases hkey : (queueRow limit queue (entry, candidate, rejection)).1.queuedKey with
    | none => rwa [queuedKeys, List.filterMap_cons_none hkey]
    | some key =>
      rw [queuedKeys, List.filterMap_cons_some hkey]
      refine List.nodup_cons.2 ⟨fun hmem => ?_, hnodup⟩
      obtain ⟨later, hlater, entry', candidate', rejection', hconfirm', hkey'⟩ :=
        mem_queuedKeys hrest hmem
      cases candidate with
      | none => cases hkey
      | some candidate =>
        exact hfirst later hlater _ _ _ _ _ _ hconfirm hconfirm'
          ((queuedKey_queueRow hkey).trans hkey'.symm)

end

end IntradayBot.Setup
