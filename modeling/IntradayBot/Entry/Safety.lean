import IntradayBot.Entry.Guards

/-!
# Entry Safety

Entry Safety decides of each confirmed candidate whether it is safe to open right now
(`evaluateCandidate`): its identity and stage, its age, the agreement policy, the daily risk, the
guard against open positions and the cooldown since the last trade. A candidate is judged alone,
with a copy of `BOT_STATE` made when the run began, and the checks are recorded in its row.

A run (`build`) judges its queue in order and publishes the candidates that it approves.
-/

namespace IntradayBot.Entry

open PyText

/-- What the checks depend on besides `BOT_STATE`. -/
structure Rules where
  /-- `str` of a value that is no text. -/
  repr : PyValue → String
  /-- `_max_candidate_age_seconds()` -/
  maxCandidateAgeSeconds : ℚ
  /-- The symbols that `agreement_execution_guard` excludes. -/
  restricted : String → Bool

/-- What the authorities answer about a candidate; `none` is an authority that is not installed. -/
structure Answers where
  daily : Option (Except String PyDict)
  guards : Option (Gates × Reads)

/-- `_number(value, default)` -/
def number (value : PyValue) (default : ℚ) : Except String ℚ :=
  match value.float? with
  | .ok (.finite q) => .ok q
  | .error .overflowError => .error "int too large to convert to float"
  | _ => .ok default

/-- `int(q)` -/
def truncate (q : ℚ) : ℤ := q.num.tdiv q.den

/-- `_blocked(candidate, code, reason, checks, timestamp)` -/
def blocked (candidate : PyDict) (code reason : String) (checks : PyDict) (timestamp : ℤ) :
    PyDict × Option PyDict :=
  (candidate.update
    [("riskStatus", .str "BLOCKED_RISK"), ("riskPolicyId", .str "AUTHORITATIVE_ENTRY_RISK_V1"),
      ("riskDecisionAt", .int timestamp), ("riskApproved", .bool false),
      ("riskDecision", .dict [("ok", .bool false), ("code", .str code), ("reason", .str reason),
        ("checks", .dict checks)]),
      ("positionSizingStatus", .str "NOT_EVALUATED_STEP8"),
      ("executionStatus", .str "BLOCKED_BY_RISK"), ("orderSubmitted", .bool false)], none)

/-- The record of a candidate that passed all checks. -/
def approve (candidate checks : PyDict) (timestamp : ℤ) : PyDict :=
  candidate.update
    [("riskStatus", .str "APPROVED_RISK"), ("riskPolicyId", .str "AUTHORITATIVE_ENTRY_RISK_V1"),
      ("riskDecisionAt", .int timestamp), ("riskApproved", .bool true),
      ("riskSizeFactor", .float (.finite 1)), ("riskFlags", .list []),
      ("riskDecision", .dict [("ok", .bool true), ("code", .str "RISK_APPROVED"),
        ("reason", .str "Entry Safety checks approved candidate"), ("checks", .dict checks)]),
      ("positionSizingStatus", .str "NOT_EVALUATED_STEP8"),
      ("executionStatus", .str "AWAITING_POSITION_SIZING"), ("orderSubmitted", .bool false)]

/-- The symbol of a candidate, as Entry Safety reads it: symbols are ASCII texts. -/
def candidateSymbol (rules : Rules) (candidate : PyDict) : String :=
  Json.upperCase ((candidate.get "symbol").textOrEmpty rules.repr)

/-- The stage of a candidate that Step 6 confirmed. -/
def confirmedContract (candidate : PyDict) : Bool :=
  (candidate.get "riskStatus").isText "PENDING_RISK" &&
    (candidate.get "positionSizingStatus").isText "NOT_EVALUATED_STEP8"

/-- The candidate has the identity and the stage of a confirmed entry. -/
def Confirmed (rules : Rules) (candidate : PyDict) : Prop :=
  (candidate.get "candidateKey").textOrEmpty rules.repr ≠ "" ∧
    candidateSymbol rules candidate ≠ "" ∧
    (candidate.get "side").textOrEmpty rules.repr ∈ ["Buy", "Sell"] ∧
    (candidate.get "grade").textOrEmpty rules.repr ∈ ["A+", "A"] ∧
    confirmedContract candidate ∧ (candidate.get "orderSubmitted").isFalse

instance (rules : Rules) (candidate : PyDict) : Decidable (Confirmed rules candidate) :=
  inferInstanceAs (Decidable (_ ∧ _))

/-- The report of the daily risk. -/
def dailyReport (answer : Except String PyDict) : PyDict :=
  match answer with
  | .ok daily => daily
  | .error message =>
    [("ok", .bool false), ("blocked", .bool true),
      ("reason", .str s!"Authoritative daily-risk evaluation failed: {message}")]

/-- The daily risk allows new entries. -/
def dailyAllowed (daily : PyDict) : Bool :=
  (daily.get "ok").truthy && !(daily.get "blocked").truthy &&
    (daily.getOr "newEntriesAllowed" (.bool true)).truthy

/-- The verdict of the guard on a candidate. -/
def positionReport (rules : Rules) (guards : Gates × Reads) (candidate : PyDict)
    (state : BotState) : PyDict :=
  match protectedExistingPositionGuard rules.repr guards.1 guards.2
    (candidateSymbol rules candidate) ((candidate.get "side").textOrEmpty rules.repr) state with
  | .ok position => position
  | .error message =>
    [("ok", .bool false), ("reason", .str s!"Protected position guard failed: {message}")]

/-- Seconds since the last trade, if there was one. -/
def elapsedSeconds (state : BotState) (timestamp : ℤ) : Option ℚ :=
  if 0 < state.lastTradeAt then some (timestamp - state.lastTradeAt) else none

/-- The cooldown since the last trade is over. -/
def cooldownOk (state : BotState) (timestamp : ℤ) : Bool :=
  (elapsedSeconds state timestamp).all fun elapsed =>
    ((max 0 state.cooldownSeconds : ℤ) : ℚ) ≤ elapsed

/-- The record of the check of the cooldown. -/
def cooldownCheck (state : BotState) (timestamp : ℤ) : PyValue :=
  .dict [("ok", .bool (cooldownOk state timestamp)),
    ("cooldownSeconds", .int (max 0 state.cooldownSeconds)),
    ("lastTradeAt", .float (.finite state.lastTradeAt)),
    ("elapsedSeconds", (elapsedSeconds state timestamp).elim .none fun q => .float (.finite q)),
    ("source", .str "existing_risk_cooldown_rule")]

/-- The part of `_evaluate_candidate` that asks the authorities, after the checks so far. -/
def evaluateAuthorities (rules : Rules) (answers : Answers) (candidate : PyDict) (state : BotState)
    (timestamp : ℤ) (checks : PyDict) : PyDict × Option PyDict :=
  match answers.daily with
  | none =>
    blocked candidate "DAILY_RISK_AUTHORITY_UNAVAILABLE"
      "Authoritative daily-risk reader is unavailable" checks timestamp
  | some answer =>
    let daily := dailyReport answer
    let checks := checks ++ [("dailyRisk", .dict daily)]
    if ¬dailyAllowed daily then
      blocked candidate ((daily.get "lockType").textOr rules.repr "DAILY_RISK_BLOCKED")
        ((daily.get "reason").textOr rules.repr "Authoritative daily risk blocked") checks timestamp
    else match answers.guards with
    | none =>
      blocked candidate "POSITION_GUARD_UNAVAILABLE" "Protected position guard is unavailable"
        checks timestamp
    | some guards =>
      let position := positionReport rules guards candidate state
      let checks := checks ++ [("positionGuard", .dict position)]
      if ¬(position.get "ok").truthy then
        blocked candidate "POSITION_GUARD_BLOCKED"
          ((position.get "reason").textOr rules.repr "Position guard blocked") checks timestamp
      else
        let checks := checks ++ [("cooldown", cooldownCheck state timestamp)]
        if ¬cooldownOk state timestamp then
          blocked candidate "COOLDOWN_ACTIVE" "Cooldown active" checks timestamp
        else
          let approved := approve candidate checks timestamp
          (approved, some approved)

/-- The age of a candidate; one without a time is too old. -/
def ageSeconds (createdAt timestamp : ℤ) : ℤ := if 0 < createdAt then timestamp - createdAt else 10 ^ 9

/-- `_evaluate_candidate(core, candidate, state, timestamp)`: the row of the candidate, and its
    record if it is approved. -/
def evaluateCandidate (rules : Rules) (answers : Answers) (candidate : PyDict) (state : BotState)
    (timestamp : ℤ) : Except String (PyDict × Option PyDict) :=
  let checks : PyDict := [("confirmedEntry", .dict
    [("ok", .bool (confirmedContract candidate)),
      ("source", .str "five_minute_entry_confirmation.confirmedEntryQueue")])]
  if ¬Confirmed rules candidate then
    .ok (blocked candidate "INVALID_CONFIRMED_ENTRY"
      "Confirmed-entry identity, grade, stage, or order state is invalid" checks timestamp)
  else do
    let age := ageSeconds (truncate (← number (candidate.get "createdAt") 0)) timestamp
    let checks := checks ++ [("freshness", .dict
      [("ok", .bool (age ≤ rules.maxCandidateAgeSeconds)), ("ageSeconds", .int age),
        ("maximumAgeSeconds", .float (.finite rules.maxCandidateAgeSeconds)),
        ("source", .str "execution_handoff.settings.maxCandidateAgeSeconds")])]
    if rules.maxCandidateAgeSeconds < age then
      return blocked candidate "CANDIDATE_STALE"
        s!"Confirmed entry age {age}s exceeds existing limit" checks timestamp
    else
      let symbol := candidateSymbol rules candidate
      let restricted := rules.restricted (strip symbol)
      let checks := checks ++ [("agreement", .dict
        [("ok", .bool !restricted), ("restricted", .bool restricted),
          ("source", .str "agreement_execution_guard")])]
      if restricted then
        return blocked candidate "AGREEMENT_REQUIRED_SYMBOL_BLOCKED"
          (s!"{strip symbol} is excluded by the Bybit Demo agreement-required " ++
            "contract policy at authoritative_entry_risk.") checks timestamp
      else return evaluateAuthorities rules answers candidate state timestamp checks

/-! ## Runs -/

/-- The state that Entry Safety publishes. -/
structure RiskState where
  status : String
  /-- `None` is the empty text. -/
  inputFingerprint : String
  fiveMinuteCandleTime : PyValue
  updatedAt : ℤ
  rows : List PyDict
  approvedRiskQueue : List PyDict
  lastError : Option String

/-- The state before the first run. -/
def RiskState.idle : RiskState := ⟨"idle", "", .none, 0, [], [], none⟩

/-- The state after a run that failed: what was published before stays. -/
def RiskState.failed (risk : RiskState) (message : String) : RiskState :=
  { risk with
    status := if risk.rows ≠ [] ∨ risk.inputFingerprint ≠ "" then "stale" else "error"
    lastError := some message }

/-- The confirmed entries of Step 6 may be judged. -/
def sourceReady (repr : PyValue → String) (source : PyDict) : Bool :=
  (source.get "status").textOrEmpty repr ∈ ["ready", "empty", "waiting"]

/-- `source.get("confirmedEntryQueue")` -/
def confirmedEntryQueue (source : PyDict) : List PyDict :=
  (source.get "confirmedEntryQueue").dictRows

/-- The keys of a queue, in order. -/
def sortedKeys (repr : PyValue → String) (queue : List PyDict) : String :=
  let keys := (queue.filter fun row => (row.get "candidateKey").truthy).map fun row =>
    (row.get "candidateKey").text repr
  "|".intercalate (keys.insertionSort (· ≤ ·))

/-- `_fingerprint(upstream)` -/
def fingerprint (repr : PyValue → String) (source : PyDict) : Except String String := do
  let time := source.get "fiveMinuteCandleTime"
  let candle ← (if time.truthy then time else .int 0).int? repr
  return s!"{candle}:{sortedKeys repr (confirmedEntryQueue source)}"

/-- The state after a run that judged its whole queue. -/
def ready (rules : Rules) (timestamp : ℤ) (source : PyDict) (rows approved : List PyDict) :
    Except String RiskState := do
  return {
    status := if rows = [] then "empty" else "ready"
    inputFingerprint := ← fingerprint rules.repr source
    fiveMinuteCandleTime := source.get "fiveMinuteCandleTime"
    updatedAt := timestamp
    rows := rows
    approvedRiskQueue := approved
    lastError := none }

/-- The rows of a queue and its approved candidates, judged one after the other; the `n`-th is
    judged with the answers `answers n`. -/
def judgeAll (rules : Rules) (answers : ℕ → Answers) (state : BotState) (timestamp : ℤ) :
    List PyDict → Except String (List PyDict × List PyDict)
  | [] => .ok ([], [])
  | candidate :: queue => do
    let (row, approved) ← evaluateCandidate rules (answers 0) candidate state timestamp
    let (rows, rest) ← judgeAll rules (fun n => answers (n + 1)) state timestamp queue
    return (row :: rows, approved.toList ++ rest)

/-- `build(core, now, upstream)` -/
def buildRisk (rules : Rules) (answers : ℕ → Answers) (source : PyDict) (state : BotState)
    (timestamp : ℤ) (risk : RiskState) : RiskState :=
  if ¬sourceReady rules.repr source then risk.failed "Closed-5M entry confirmation is not ready"
  else
    match (do
      let (rows, approved) ←
        judgeAll rules answers state timestamp (confirmedEntryQueue source)
      ready rules timestamp source rows approved) with
    | .ok risk => risk
    | .error message => risk.failed message

/-- `due(core)` -/
def riskDue (repr : PyValue → String) (source : PyDict) (risk : RiskState) : Except String Bool := do
  return (← fingerprint repr source) ≠ risk.inputFingerprint ∨ risk.status ∈ ["error", "stale"]

/-! ## What is approved -/

variable {rules : Rules} {answers : Answers} {candidate : PyDict} {state : BotState} {timestamp : ℤ}

/-- The checks that a candidate has to pass. -/
structure Passes (rules : Rules) (answers : Answers) (candidate : PyDict) (state : BotState)
    (timestamp : ℤ) : Prop where
  confirmed : Confirmed rules candidate
  fresh : ∃ createdAt, number (candidate.get "createdAt") 0 = .ok createdAt ∧
    ageSeconds (truncate createdAt) timestamp ≤ rules.maxCandidateAgeSeconds
  unrestricted : rules.restricted (strip (candidateSymbol rules candidate)) = false
  daily : ∃ answer, answers.daily = some answer ∧ dailyAllowed (dailyReport answer)
  guarded : ∃ guards, answers.guards = some guards ∧
    ((positionReport rules guards candidate state).get "ok").truthy
  cooled : cooldownOk state timestamp

/-- The authorities approve a candidate exactly if none of them objects. -/
theorem evaluateAuthorities_approved {checks row approved : PyDict}
    (h : evaluateAuthorities rules answers candidate state timestamp checks =
      (row, some approved)) :
    (∃ answer, answers.daily = some answer ∧ dailyAllowed (dailyReport answer)) ∧
      (∃ guards, answers.guards = some guards ∧
        ((positionReport rules guards candidate state).get "ok").truthy) ∧
      cooldownOk state timestamp ∧ ∃ checks, approved = approve candidate checks timestamp := by
  -- The three authorities are asked in this order, and each refusal is final.
  rw [evaluateAuthorities] at h
  split at h
  · cases h
  rename_i answer hdaily
  dsimp only at h
  split at h
  · cases h
  rename_i hallowed
  split at h
  · cases h
  rename_i guards hguards
  split at h
  · cases h
  rename_i hposition
  split at h
  · cases h
  rename_i hcooldown
  have happroved := Option.some.inj (Prod.mk.inj h).2
  exact ⟨⟨answer, hdaily, not_not.1 hallowed⟩, ⟨guards, hguards, not_not.1 hposition⟩,
    not_not.1 hcooldown, _, happroved.symm⟩

/-- A candidate that is approved passes the checks, and is published with its record. -/
theorem evaluateCandidate_approved {row approved : PyDict}
    (h : evaluateCandidate rules answers candidate state timestamp = .ok (row, some approved)) :
    Passes rules answers candidate state timestamp ∧
      ∃ checks, approved = approve candidate checks timestamp := by
  rw [evaluateCandidate] at h
  dsimp only at h
  split at h
  · cases h
  rename_i hconfirmed
  obtain ⟨createdAt, hcreated, h⟩ := bind_eq_ok.1 h
  split at h
  · cases h
  rename_i hage
  split at h
  · cases h
  rename_i hrestricted
  obtain ⟨hdaily, hguarded, hcooled, happroved⟩ := evaluateAuthorities_approved (pure_eq_ok.1 h)
  exact ⟨⟨not_not.1 hconfirmed, ⟨createdAt, hcreated, not_lt.1 hage⟩, Bool.eq_false_iff.2 hrestricted,
    hdaily, hguarded, hcooled⟩, happroved⟩

/-- No authority objects to a candidate that passes the checks. -/
theorem Passes.authorities (h : Passes rules answers candidate state timestamp) (checks : PyDict) :
    ∃ approved, evaluateAuthorities rules answers candidate state timestamp checks =
      (approved, some approved) := by
  obtain ⟨answer, hdaily, hallowed⟩ := h.daily
  obtain ⟨guards, hguards, hposition⟩ := h.guarded
  simp only [evaluateAuthorities, hdaily, hallowed, hguards, hposition, h.cooled, not_true_eq_false,
    ↓reduceIte]
  exact ⟨_, rfl⟩

/-- A candidate that passes the checks is approved. -/
theorem Passes.approved (h : Passes rules answers candidate state timestamp) :
    ∃ approved,
      evaluateCandidate rules answers candidate state timestamp = .ok (approved, some approved) := by
  obtain ⟨createdAt, hcreated, hage⟩ := h.fresh
  have hauthorities : ∀ checks, ∃ approved,
      (pure (evaluateAuthorities rules answers candidate state timestamp checks) : Except String _) =
        .ok (approved, some approved) := fun checks => by
    obtain ⟨approved, happroved⟩ := h.authorities checks
    exact ⟨approved, congrArg _ happroved⟩
  rw [evaluateCandidate]
  dsimp only
  rw [if_neg (not_not.2 h.confirmed), hcreated]
  dsimp only [bind, Except.bind]
  rw [if_neg (not_lt.2 hage), h.unrestricted, if_neg Bool.false_ne_true]
  exact hauthorities _

instance (rules : Rules) (answers : Answers) (candidate : PyDict) (state : BotState) (timestamp : ℤ) :
    Decidable (Passes rules answers candidate state timestamp) :=
  match h : evaluateCandidate rules answers candidate state timestamp with
  | .ok (_, some _) => .isTrue (evaluateCandidate_approved h).1
  | .ok (_, none) => .isFalse fun hpasses => by
    obtain ⟨approved, happroved⟩ := hpasses.approved
    cases (Prod.mk.inj (Except.ok.inj (h.symm.trans happroved))).2
  | .error _ => .isFalse fun hpasses => by
    obtain ⟨approved, happroved⟩ := hpasses.approved
    cases h.symm.trans happroved

/-- A candidate only passes if the exchange counted fewer positions than `BOT_STATE` allows. -/
theorem Passes.room (h : Passes rules answers candidate state timestamp) :
    ∃ guards, answers.guards = some guards ∧ Room guards.2 state := by
  obtain ⟨guards, hguards, hposition⟩ := h.guarded
  refine ⟨guards, hguards, ?_⟩
  rw [positionReport] at hposition
  split at hposition
  · rename_i position hguard
    exact protectedExistingPositionGuard_ok hguard hposition
  · simp [PyDict.get, PyValue.truthy] at hposition

/-- The cooldown is over exactly if it is since the last trade, where there was one. -/
theorem cooldownOk_iff : cooldownOk state timestamp ↔
    (0 < state.lastTradeAt → state.lastTradeAt + (max 0 state.cooldownSeconds : ℤ) ≤ timestamp) := by
  rw [cooldownOk, elapsedSeconds]
  split
  · rename_i htrade
    simp only [htrade, Option.all_some, decide_eq_true_eq, true_implies, le_sub_iff_add_le']
  · rename_i hnone
    simp [hnone]

end IntradayBot.Entry
