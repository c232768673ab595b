import IntradayBot.Data.PyValue

/-!
# The payload of the handoff

A candidate approved by Entry Safety leaves Python as a payload (`handoffPayload`): the facts of
the candidate that Node executes, with the constants of the contract between the two. Some facts
are checked here, and the others are copied as they are.
-/

namespace IntradayBot.Entry

/-- `_positive(value)` -/
def positive (value : PyValue) : Except PyError Bool :=
  match value.float? with
  | .ok x => .ok x.positive
  | .error .overflowError => .error .overflowError
  | .error _ => .ok false

/-- The key of the payload of a candidate. -/
def candidateKeyOf (repr : PyValue → String) (candidate : PyDict) : String :=
  PyText.strip ((candidate.get "candidateKey").textOrEmpty repr)

/-- The symbol of the payload of a candidate: symbols are ASCII texts. -/
def symbolOf (repr : PyValue → String) (candidate : PyDict) : String :=
  Json.upperCase (PyText.strip ((candidate.get "symbol").textOrEmpty repr))

/-- The payload of a candidate. -/
def payloadOf (repr : PyValue → String) (candidate : PyDict) : PyDict :=
  [("candidateKey", .str (candidateKeyOf repr candidate)),
    ("symbol", .str (symbolOf repr candidate)),
    ("side", .str ((candidate.get "side").textOrEmpty repr)),
    ("strategy", candidate.get "strategy"),
    ("grade", .str ((candidate.get "grade").textOrEmpty repr)),
    ("gradeScore", candidate.get "gradeScore"),
    ("entryReference", candidate.get "entryReference"),
    ("entryFiveMinuteCandleTime", candidate.get "entryFiveMinuteCandleTime"),
    ("setupFifteenMinuteCandleTime", candidate.get "setupFifteenMinuteCandleTime"),
    ("createdAt", candidate.get "createdAt"),
    ("riskApproved", .bool true),
    ("riskStatus", .str "APPROVED_RISK"),
    ("riskPerTradePct", .float (.finite 1)),
    ("gradeRiskPct", .float (.finite 1)),
    ("effectiveRiskPerTradePct", .float (.finite 1)),
    ("executionStatus", .str "AWAITING_NODE_EXECUTION"),
    ("orderSubmitted", .bool false),
    ("qualified", .bool true)]

/-- `_handoff_payload(candidate)`: the payload, or the reason why there is none. -/
def handoffPayload (repr : PyValue → String) (candidate : PyDict) :
    Except PyError (Except String PyDict) :=
  if ¬(candidate.get "riskApproved").isTrue ∨
      ¬(candidate.get "riskStatus").isText "APPROVED_RISK" then
    .ok (.error "Candidate is not Entry-Safety approved")
  else if (candidate.get "grade").textOrEmpty repr ∉ ["A+", "A"] then
    .ok (.error "Only A+ and A candidates are executable")
  else if ¬(candidate.get "orderSubmitted").isFalse then
    .ok (.error "Candidate order state is not unsubmitted")
  else if candidateKeyOf repr candidate = "" ∨ symbolOf repr candidate = "" ∨
      (candidate.get "side").textOrEmpty repr ∉ ["Buy", "Sell"] then
    .ok (.error "Candidate identity is invalid")
  else (positive (candidate.get "entryReference")).map fun ok =>
    if ok then .ok (payloadOf repr candidate) else .error "entryReference must be positive"

/-- The facts that the payload copies without a check. -/
def copied : List String :=
  ["strategy", "gradeScore", "entryFiveMinuteCandleTime", "setupFifteenMinuteCandleTime",
    "createdAt"]

/-- What a candidate that has a payload passed. -/
structure Executable (repr : PyValue → String) (candidate : PyDict) : Prop where
  approved : (candidate.get "riskApproved").isTrue ∧
    (candidate.get "riskStatus").isText "APPROVED_RISK"
  grade : (candidate.get "grade").textOrEmpty repr ∈ ["A+", "A"]
  unsubmitted : (candidate.get "orderSubmitted").isFalse
  key : candidateKeyOf repr candidate ≠ ""
  symbol : symbolOf repr candidate ≠ ""
  side : (candidate.get "side").textOrEmpty repr ∈ ["Buy", "Sell"]
  entry : ∃ x, (candidate.get "entryReference").float? = .ok x ∧ x.positive

theorem positive_eq_true {v : PyValue} (h : positive v = .ok true) :
    ∃ x, v.float? = .ok x ∧ x.positive := by
  unfold positive at h
  split at h
  · rename_i x hx
    exact ⟨x, hx, Except.ok.inj h⟩
  · cases h
  · cases h

theorem handoffPayload_eq_ok {repr : PyValue → String} {candidate payload : PyDict}
    (h : handoffPayload repr candidate = .ok (.ok payload)) :
    payload = payloadOf repr candidate ∧ Executable repr candidate := by
  unfold handoffPayload at h
  split_ifs at h with hrisk hgrade horder hidentity
  · simp at h
  · simp at h
  · simp only [not_or, not_not] at hrisk hidentity
    cases hp : positive (candidate.get "entryReference") with
    | error e => simp [hp, Except.map] at h
    | ok ok =>
      rw [hp] at h
      cases ok with
      | false => simp [Except.map] at h
      | true =>
        simp only [Except.map, if_true, Except.ok.injEq] at h
        exact ⟨h.symm, hrisk, hgrade, horder, hidentity.1, hidentity.2.1, hidentity.2.2,
          positive_eq_true hp⟩
  · simp at h
  · simp at h

end IntradayBot.Entry
