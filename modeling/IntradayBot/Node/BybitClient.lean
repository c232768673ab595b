import IntradayBot.Node.HybridRepository

/-!
# The exchange client

The requests that take more than one call: looking an order up, waiting for what
becomes of it, and making sure that a position is protected.
-/

namespace IntradayBot.Node

open Coop

namespace BybitClient

/-- `setLeverage(symbol, leverage)`: that the leverage is set already is fine. -/
def setLeverage (symbol : String) (leverage : Option ℚ) : Proc Unit :=
  Prog.handle (bybit (.setLeverage symbol leverage)) fun e => match e with
    | .api retCode _ => if retCode = 110043 then return () else throw e
    | _ => throw e

/-- `findOrder(symbol, orderLinkId)` -/
def findOrder (symbol : String) (orderLinkId : LinkId) : Proc (Option OrderRow) := do
  match ← bybit (.realtimeOrder symbol orderLinkId) with
  | current :: _ => return some current
  | [] => do
    let history ← bybit (.orderHistory symbol orderLinkId)
    return history.head?

/-- What became of an order. -/
inductive ResolutionState
  | filled
  | partiallyFilled
  | failed
  | unknown
  deriving DecidableEq, Repr

/-- The text of a state. -/
def ResolutionState.text : ResolutionState → String
  | filled => "FILLED"
  | partiallyFilled => "PARTIAL"
  | failed => "FAILED"
  | unknown => "UNKNOWN"

/-- The answer of `waitForResolution`. -/
structure Resolution where
  state : ResolutionState
  executions : List ExecutionRow
  cumulativeQty : Option ℚ

/-- `Math.max(Number(lastOrder?.cumExecQty || 0), …)`, the quantity executed. -/
def cumulativeQty (order : Option OrderRow) (executions : List ExecutionRow) : Option ℚ := do
  return max (← Json.numberOrZero (order.bind OrderRow.cumExecQty))
    (← ExecutionRow.totalQty executions)

/-- What an order and its executions say, if they settle it. -/
def resolve (order : Option OrderRow) (executions : List ExecutionRow) (expectedQty : Option ℚ) :
    Option ResolutionState :=
  let requestedQty : Option ℚ :=
    if Json.truthy (order.bind OrderRow.qty) then Json.toNumber (order.bind OrderRow.qty)
    else some (expectedQty.getD 0)
  let cumulativeQty := cumulativeQty order executions
  let executed := cumulativeQty.any (0 < ·)
  let status := Json.textOrEmpty (order.bind OrderRow.orderStatus)
  let complete := cumulativeQty.any fun q => requestedQty.any fun r => 0 < r ∧ r ≤ q + 1 / 10 ^ 12
  let incomplete := cumulativeQty.any fun q => requestedQty.any fun r => 0 < r ∧ q < r
  if executed ∧ (status = "Filled" ∨ complete) then some .filled
  else if executed ∧ (status = "PartiallyFilled" ∨ incomplete) then some .partiallyFilled
  else if status ∈ ["Cancelled", "Rejected", "Deactivated", "Expired"] then
    some (if executed then .partiallyFilled else .failed)
  else none

/-- The loop of `waitForResolution`, with the polls left before the deadline. -/
def poll (symbol : String) (orderLinkId : LinkId) (expectedQty : Option ℚ) :
    ℕ → Option OrderRow → List ExecutionRow → Proc Resolution
  | 0, order, executions => do
    let cumulativeQty := cumulativeQty order executions
    return {
      state := if cumulativeQty.any (0 < ·) then .partiallyFilled else .unknown
      executions := executions
      cumulativeQty := cumulativeQty }
  | n + 1, _, _ => do
    let (order, executions) ← both (findOrder symbol orderLinkId)
      (bybit (.executions symbol orderLinkId))
    match resolve order executions expectedQty with
    | some state => return {
        state := state
        executions := executions
        cumulativeQty := cumulativeQty order executions }
    | none => poll symbol orderLinkId expectedQty n order executions

/-- `waitForResolution(symbol, orderLinkId, expectedQty)` -/
def waitForResolution (symbol : String) (orderLinkId : LinkId) (expectedQty : Option ℚ) :
    Proc Resolution := do
  let polls ← Prog.request Op.polls
  poll symbol orderLinkId expectedQty polls none []

/-- `Math.abs(Number(price) - expected) > Math.max(Math.abs(expected) * 1e-6, 1e-10)`, which
    does not hold when one of the two is not a number. -/
def differs (price expected : Option ℚ) : Bool :=
  price.any fun p => expected.any fun e => max (|e| / 10 ^ 6) (1 / 10 ^ 10) < |p - e|

/-- A position that shows a stop and a target. -/
def isProtected (position : PositionRow) : Bool :=
  (Json.numberOrZero position.stopLoss).any (0 < ·) &&
    (Json.numberOrZero position.takeProfit).any (0 < ·)

/-- A position that shows no stop, or no target: `Number(price || 0) <= 0`, which does not
    hold of a price that is not a number. -/
def isUnprotected (position : PositionRow) : Bool :=
  (Json.numberOrZero position.stopLoss).any (· ≤ 0) ||
    (Json.numberOrZero position.takeProfit).any (· ≤ 0)

/-- The open position of a symbol. -/
def openPosition (symbol : String) : Proc (Option PositionRow) := do
  let rows ← bybit (.position symbol)
  return rows.find? PositionRow.isOpen

/-- The last checks of `ensureProtection`. -/
def verifyProtection (payload : Json) (position : Option PositionRow) :
    Except JsError PositionRow :=
  match position with
  | none => .error (.error "Mandatory stop-loss/take-profit protection is not verified")
  | some position =>
    if isUnprotected position then
      .error (.error "Mandatory stop-loss/take-profit protection is not verified")
    else if
        differs (Json.toNumber position.stopLoss) (Json.toNumber (payload.get "technicalStopLoss")) ∨
        differs (Json.toNumber position.takeProfit)
          (Json.toNumber (payload.get "takeProfitReference")) then
      .error (.error "Exchange protection prices differ from the approved technical plan")
    else .ok position

/-- `ensureProtection(payload)` -/
def ensureProtection (payload : Json) : Proc PositionRow := do
  let symbol := Json.toText (payload.get "symbol")
  match ← openPosition symbol with
  | none => throw (.error "Filled execution has no matching open position truth")
  | some position =>
    if isProtected position then Prog.ofExcept (verifyProtection payload (some position))
    else do
      bybit (.setTradingStop {
        symbol := symbol
        positionIdx := Json.numberOrZero position.positionIdx
        stopLoss := Json.written (payload.get "technicalStopLoss")
        takeProfit := some (Json.written (payload.get "takeProfitReference")) })
      let position ← openPosition symbol
      Prog.ofExcept (verifyProtection payload position)

end BybitClient

end IntradayBot.Node
