import IntradayBot.Node.Command
import IntradayBot.Node.Config

/-!
# Validation

The checks that a command passes before it is executed: the facts of the
candidate (`validateCandidateFacts`), the contract of a candidate that arrives
already sized (`validateContract`), and the grade and risk that the service is
armed for (`assertFirstTradeCandidate`).
-/

namespace IntradayBot.Node

/-- Throws unless `c`. -/
def ensure (c : Prop) [Decidable c] (message : String) : Except JsError Unit :=
  if c then .ok () else .error (.error message)

theorem ensure_eq_ok {c : Prop} [Decidable c] {message : String} {u : Unit} :
    ensure c message = .ok u ↔ c := by
  unfold ensure
  split <;> simp [*]

/-- `positiveNumber(value, label)` -/
def positiveNumber (value : Option Json) (label : String) : Except JsError ℚ :=
  match Json.toNumber value with
  | some q => if 0 < q then .ok q else .error (.error (label ++ " must be positive"))
  | none => .error (.error (label ++ " must be positive"))

theorem positiveNumber_eq_ok {value : Option Json} {label : String} {q : ℚ} :
    positiveNumber value label = .ok q ↔ Json.toNumber value = some q ∧ 0 < q := by
  unfold positiveNumber
  cases Json.toNumber value with
  | none => simp
  | some r =>
    dsimp only
    split
    · rename_i hr
      simp only [Except.ok.injEq, Option.some.injEq]
      exact ⟨fun h => ⟨h, h ▸ hr⟩, fun h => h.1⟩
    · rename_i hr
      simp only [reduceCtorEq, Option.some.injEq, false_iff]
      exact fun h => hr (h.1 ▸ h.2)

theorem positiveNumber_eq_error {value : Option Json} {label : String} {e : JsError}
    (h : positiveNumber value label = .error e) : e = .error (label ++ " must be positive") := by
  rw [positiveNumber.eq_def] at h
  split at h
  · split at h
    · cases h
    · exact (Except.error.inj h).symm
  · exact (Except.error.inj h).symm

/-- `directRiskApproved(payload)` -/
def directRiskApproved (payload : Json) : Bool :=
  Json.isTrue (payload.get "riskApproved") &&
    Json.textOrEmpty (payload.get "riskStatus") = "APPROVED_RISK"

/-- `legacySizingApproved(payload)` -/
def legacySizingApproved (payload : Json) : Bool :=
  Json.isText "SIZING_APPROVED" (payload.get "positionSizingStatus") &&
    Json.isTrue (payload.get "sizingApproved")

/-- The side of a payload is one of the two. -/
def hasSide (payload : Json) : Bool :=
  Json.isText "Buy" (payload.get "side") || Json.isText "Sell" (payload.get "side")

/-- `validateCandidateFacts(payload, candidateKey)` -/
def validateCandidateFacts (payload : Json) (candidateKey : String) : Except JsError Unit := do
  ensure (payload matches .obj _ | .arr _) "Candidate payload is required"
  ensure (Json.truthy (payload.get "candidateKey") ∧
      Json.isText candidateKey (payload.get "candidateKey") ∧
      Json.truthy (payload.get "symbol") ∧ hasSide payload)
    "Candidate identity is invalid"
  let grade := Json.textOrEmpty (Json.orElse (payload.get "grade")
    (Json.orElse (payload.get "qualityGrade") (payload.get "signalGrade")))
  ensure (grade = "" ∨ grade ∈ ["A+", "A"]) "Node execution requires A+ or A grade"
  ensure (directRiskApproved payload ∨ legacySizingApproved payload)
    "Candidate is neither Entry-Safety approved nor legacy sizing approved"
  ensure (Json.isText "AWAITING_NODE_EXECUTION" (payload.get "executionStatus") ∧
      Json.isFalse (payload.get "orderSubmitted"))
    "Command execution state is invalid"
  let _ ← positiveNumber (payload.get "entryReference") "entryReference"
  let riskPct := Json.toNumber (Json.coalesce (payload.get "riskPerTradePct")
    (Json.coalesce (payload.get "effectiveRiskPerTradePct") (payload.get "gradeRiskPct")))
  ensure (directRiskApproved payload → riskPct.any fun q => 0 < q ∧ q ≤ 1 + 1 / 10 ^ 9)
    "Entry-Safety candidate planned risk must be positive and no greater than 1.00%"

/-- The number is a leverage that may be used. -/
def approvedLeverage (leverage : Option ℚ) : Bool := leverage.any fun q => 0 < q ∧ q ≤ 10

/-- The contract of a candidate that arrives sized. -/
def validateSizing (payload : Json) : Except JsError Unit := do
  ensure (Json.isText "ISOLATED" (payload.get "marginMode")) "Only Isolated margin is approved"
  let leverage := Json.toNumber (payload.get "leverage")
  ensure (approvedLeverage leverage)
    "Execution leverage must be positive and no greater than 10x"
  let requirements := (payload.get "nodeExecutionRequirements").getD .null
  let requiredLeverage := Json.toNumber (requirements.get "leverage")
  ensure (Json.isText "ISOLATED" (requirements.get "marginMode") ∧
      approvedLeverage requiredLeverage ∧ requiredLeverage = leverage ∧
      Json.isTrue (requirements.get "revalidateWalletAndInstrumentRules") ∧
      Json.isTrue (requirements.get "submitOnlyAfterRevalidation"))
    "Node execution revalidation contract is incomplete"
  let _ ← positiveNumber (payload.get "qty") "qty"
  let stop ← positiveNumber (payload.get "technicalStopLoss") "technicalStopLoss"
  let take ← positiveNumber (payload.get "takeProfitReference") "takeProfitReference"
  let _ ← positiveNumber (payload.get "requiredInitialMarginUsdt") "requiredInitialMarginUsdt"
  let entry ← positiveNumber (payload.get "entryReference") "entryReference"
  let buy := Json.isText "Buy" (payload.get "side")
  ensure (buy → stop < entry ∧ entry < take) "Buy technical price plan is invalid"
  ensure (buy ∨ take < entry ∧ entry < stop) "Sell technical price plan is invalid"

/-- `validateContract(payload, candidateKey)`: candidates that arrive without a size
    are sized by the service. -/
def validateContract (payload : Json) (candidateKey : String) : Except JsError Unit := do
  validateCandidateFacts payload candidateKey
  if legacySizingApproved payload then validateSizing payload else return ()

/-- `config.gradeRiskPct[grade]` -/
def gradeRiskPct (grade : String) : Option ℚ := if grade ∈ ["A+", "A"] then some 1 else none

/-- `assertFirstTradeCandidate(command, config)` -/
def assertFirstTradeCandidate (payload : Json) : Except JsError Unit := do
  let grade := Json.upperCase (Json.textOrEmpty (Json.orElse (payload.get "grade")
    (Json.orElse (payload.get "qualityGrade") (payload.get "signalGrade"))))
  let expected := gradeRiskPct grade
  let payloadPct := Json.toNumber
    (Json.coalesce (payload.get "gradeRiskPct") (payload.get "riskPerTradePct"))
  let effectivePct := Json.toNumber (Json.coalesce (payload.get "effectiveRiskPerTradePct")
    (Json.coalesce (payload.get "riskPerTradePct") (payload.get "riskPct")))
  ensure (grade ∈ ["A+", "A"] ∧ expected.isSome)
    "Node execution requires an A+ or A signal grade; B+ is rejected."
  ensure (Json.isTrue (payload.get "qualified") ∨
      Json.upperCase (Json.textOrEmpty (payload.get "executionStatus")) =
        "AWAITING_NODE_EXECUTION")
    "Node execution candidate is not execution-qualified."
  ensure (payloadPct.any fun q => expected.any fun e => |q - e| ≤ 1 / 10 ^ 9)
    s!"Node grade-risk contract requires {grade} at 1.00%."
  ensure (effectivePct.any fun q => expected.any fun e => 0 < q ∧ q - e ≤ 1 / 10 ^ 9)
    s!"Node effective risk for {grade} must be positive and no greater than 1.00%."

end IntradayBot.Node
