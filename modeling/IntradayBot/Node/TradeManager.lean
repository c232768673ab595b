import IntradayBot.Node.BybitClient
import IntradayBot.Node.LiveSizer
import IntradayBot.Node.Validator

/-!
# Trade management

`cycle` looks at the mark price and at the position of a managed command: at
1.5 R it closes 40% of the initial quantity and moves the stop to the entry, at
2 R it closes another 30%, and then the stop trails the price at half an R.

The orders that close are found again by their link id, so that a cycle that was
cut after sending one does not send it again (`closeFraction`). The record of the
management (`ManagementState`) is saved when it is made and at the end of each
cycle; in between, only the exchange knows what was done.
-/

namespace IntradayBot.Node

open Coop

namespace TradeManager

/-! ## The policy -/

/-- `POLICY.tp1R` -/
def tp1R : ℚ := 3 / 2

/-- `POLICY.tp1ClosePct` -/
def tp1ClosePct : ℚ := 40

/-- `POLICY.tp2R` -/
def tp2R : ℚ := 2

/-- `POLICY.tp2ClosePct` -/
def tp2ClosePct : ℚ := 30

/-- `POLICY.trailingDistanceR` -/
def trailingDistanceR : ℚ := 1 / 2

/-- `target(entry, risk, side, multiple)` -/
def target (entry risk : ℚ) (side : Side) (multiple : ℚ) : ℚ :=
  entry + side.direction * risk * multiple

/-- `reached(mark, price, side)` -/
def reached (mark price : ℚ) (side : Side) : Prop :=
  match side with
  | .buy => price ≤ mark
  | .sell => mark ≤ price

instance (mark price : ℚ) (side : Side) : Decidable (reached mark price side) :=
  match side with
  | .buy => inferInstanceAs (Decidable (price ≤ mark))
  | .sell => inferInstanceAs (Decidable (mark ≤ price))

/-- `decimals(value)` -/
def decimals (text : String) : ℕ :=
  (((text.toList.dropWhile (· ≠ '.')).drop 1).takeWhile (· ≠ '.')).length

/-- `Number(floorToStep(value, step))` -/
def floorToStep (value : ℚ) (step : String) : ℚ :=
  let scale : ℚ := 10 ^ decimals step
  let stepUnits : ℤ := ((Json.parseNumber step).map fun q => roundHalfUp (q * scale)).getD 0
  let valueUnits : ℤ := ⌊value * scale + 1 / 10 ^ 9⌋
  if stepUnits = 0 ∨ valueUnits ≤ 0 then 0
  else (valueUnits.fdiv stepUnits * stepUnits : ℤ) / scale

/-! ## What a cycle sees -/

/-- The open position of a side. -/
def isManaged (side : Side) (row : PositionRow) : Bool :=
  row.isOpen && Json.toText row.side = side.text

/-- `currentPosition(symbol, side)` -/
def currentPosition (symbol : String) (side : Side) : Proc (Option PositionRow) := do
  let rows ← bybit (.position symbol)
  return rows.find? (isManaged side)

/-- The numbers that a cycle starts from. -/
structure Observation where
  mark : ℚ
  currentQty : ℚ
  entry : ℚ
  initialStop : ℚ
  instrument : InstrumentRow

/-- `risk` -/
def Observation.risk (o : Observation) : ℚ := |o.entry - o.initialStop|

/-- The numbers that a cycle starts from, checked. -/
def observe (payload : Json) (position : PositionRow) (tickers : List TickerRow)
    (instruments : List InstrumentRow) : Except JsError Observation :=
  match tickers, instruments with
  | ticker :: _, instrument :: _ => do
    let mark ← positiveNumber (Json.orElse ticker.markPrice ticker.lastPrice) "markPrice"
    let currentQty ← positiveNumber position.size "position.size"
    let entry ← positiveNumber (Json.orElse position.avgPrice (payload.get "entryReference"))
      "position.avgPrice"
    let initialStop ← positiveNumber (payload.get "technicalStopLoss") "technicalStopLoss"
    ensure (0 < |entry - initialStop|) "Initial technical risk distance is invalid"
    return {
      mark := mark
      currentQty := currentQty
      entry := entry
      initialStop := initialStop
      instrument := instrument }
  | _, _ => .error (.error "Ticker or instrument truth unavailable for management")

/-- The plan of a management that starts. -/
def Observation.plan (o : Observation) (symbol : String) (side : Side) : ManagementPlan where
  symbol := symbol
  side := side
  initialQty := o.currentQty
  averageEntry := o.entry
  initialStop := o.initialStop
  riskDistance := o.risk
  tp1Price := target o.entry o.risk side tp1R
  tp2Price := target o.entry o.risk side tp2R

/-- The record of a management that starts. -/
def Observation.initial (o : Observation) (symbol : String) (side : Side) : ManagementState :=
  { ManagementState.blank with
    plan := some (o.plan symbol side)
    lastObservedQty := some o.currentQty }

/-- The record of the management, made if there is none. -/
def loadState (command : Command) (o : Observation) (symbol : String) (side : Side) :
    Proc ManagementState := do
  match ← HybridRepository.getManagementState command.candidateKey with
  | some state => return state
  | none => do
    let state := o.initial symbol side
    HybridRepository.putManagementState command.candidateKey state
    HybridRepository.recordOrder command "MANAGEMENT_INITIALIZED"
    return state

/-! ## Closing a part -/

/-- `action` -/
def actionText : Action → String
  | .tp1 => "tp1"
  | .tp2 => "tp2"

/-- The quantity to close, of what is left. -/
def closeQuantity (initialQty available : ℚ) (instrument : InstrumentRow) (action : Action)
    (closePct : ℚ) : Except JsError ℚ :=
  let step := Json.toText (Json.orElse instrument.qtyStep (some (.str "0")))
  let quantity := floorToStep (min (initialQty * closePct / 100) available) step
  match Json.numberOrZero instrument.minOrderQty with
  | some minQty =>
    if quantity < minQty then
      if available ≤ minQty + 1 / 10 ^ 12 then .ok available
      else .error (.error (actionText action ++ " close quantity is below current Bybit minimum"))
    else .ok quantity
  | none => .ok quantity

/-- The order that closes a part of a position. -/
def closeOrder (command : Command) (side : Side) (position : PositionRow) (action : Action)
    (quantity : ℚ) : OrderRequest where
  symbol := Json.toText (command.payload.get "symbol")
  side := side.opposite.text
  qty := some quantity
  positionIdx := Json.numberOrZero position.positionIdx
  orderLinkId := .management command.candidateKey action
  reduceOnly := true
  stopLoss := none
  takeProfit := none

/-- `closeFraction(command, state, position, instrument, action, closePct)`: the
    quantity closed. -/
def closeFraction (command : Command) (plan : ManagementPlan) (side : Side)
    (position : PositionRow) (instrument : InstrumentRow) (action : Action) (closePct : ℚ) :
    Proc ℚ := do
  let symbol := Json.toText (command.payload.get "symbol")
  let linkId := LinkId.management command.candidateKey action
  let available := (Json.numberOrZero position.size).getD 0
  let quantity ← Prog.ofExcept (closeQuantity plan.initialQty available instrument action closePct)
  let prior ← BybitClient.findOrder symbol linkId
  let executions ← bybit (.executions symbol linkId)
  if prior.isNone ∧ (ExecutionRow.totalQty executions).any (· ≤ 0) then do
    HybridRepository.recordOrder command (Json.upperCase (actionText action) ++ "_INTENT")
    let _ ← bybit (.createOrder (closeOrder command side position action quantity))
    settle symbol linkId quantity
  else settle symbol linkId quantity
where
  /-- What is done once the order was sent. -/
  settle (symbol : String) (linkId : LinkId) (quantity : ℚ) : Proc ℚ := do
    let resolution ← BybitClient.waitForResolution symbol linkId (some quantity)
    HybridRepository.recordFills command resolution.executions
    let closedQty := resolution.cumulativeQty.getD 0
    Prog.require ((resolution.state = .filled ∨ resolution.state = .partiallyFilled) ∧
        resolution.cumulativeQty.any (0 < ·))
      (.error (actionText action ++ " close is not fill-verified; management remains fail-closed"))
    HybridRepository.recordOrder command (Json.upperCase (actionText action) ++ "_FILLED")
    return closedQty

/-- The stop at the entry, and the target at the second level. -/
def breakEvenStop (command : Command) (plan : ManagementPlan) (position : PositionRow) :
    StopRequest where
  symbol := Json.toText (command.payload.get "symbol")
  positionIdx := Json.numberOrZero position.positionIdx
  stopLoss := some plan.averageEntry
  takeProfit := some (some plan.tp2Price)

/-- `moveBreakEven(command, state, position)` -/
def moveBreakEven (command : Command) (plan : ManagementPlan) (position : PositionRow) :
    Proc Unit := do
  bybit (.setTradingStop (breakEvenStop command plan position))
  HybridRepository.recordOrder command "BREAK_EVEN_SET"

/-- The first level: a part is closed, and the stop is moved to the entry. -/
def takeFirst (command : Command) (side : Side) (position : PositionRow) (o : Observation)
    (state : ManagementState) : Proc ManagementState := do
  match state.plan with
  | none => return state
  | some plan =>
    if !state.tp1Done ∧ reached o.mark plan.tp1Price side then do
      let closedQty ← closeFraction command plan side position o.instrument .tp1 tp1ClosePct
      moveBreakEven command plan position
      return { state with tp1Done := true, tp1ClosedQty := some closedQty, breakEvenDone := true }
    else return state

/-- The second level: another part is closed, and the rest trails. -/
def takeSecond (command : Command) (side : Side) (position : PositionRow) (o : Observation)
    (state : ManagementState) : Proc ManagementState := do
  match state.plan with
  | none => return state
  | some plan =>
    if !state.tp2Done ∧ reached o.mark plan.tp2Price side then do
      let closedQty ← closeFraction command plan side position o.instrument .tp2 tp2ClosePct
      return { state with tp2Done := true, tp2ClosedQty := some closedQty, trailingActive := true }
    else return state

/-! ## The trailing stop -/

/-- The stop to set, if it is worth it. -/
def trailingStop (mark : ℚ) (side : Side) (riskDistance : ℚ) (stop : Option ℚ) : Option ℚ :=
  let proposed := mark - side.direction * riskDistance * trailingDistanceR
  let previous := stop.getD 0
  let tighter := match side with
    | .buy => max previous proposed
    | .sell => if 0 < previous then min previous proposed else proposed
  let valid : Bool := match side with
    | .buy => tighter < mark
    | .sell => mark < tighter
  if valid ∧ max (mark / 10 ^ 7) (1 / 10 ^ 8) < |tighter - previous| then some tighter else none

/-- The request for a trailing stop; the target is left as it is. -/
def trailingRequest (symbol : String) (position : PositionRow) (tighter : ℚ) : StopRequest where
  symbol := symbol
  positionIdx := Json.numberOrZero position.positionIdx
  stopLoss := some tighter
  takeProfit := none

/-- The stop of the rest follows the price. -/
def trail (command : Command) (symbol : String) (side : Side) (position : PositionRow)
    (mark : ℚ) (state : ManagementState) : Proc ManagementState := do
  match state.plan with
  | none => return state
  | some plan =>
    if state.tp2Done then
      match trailingStop mark side plan.riskDistance state.trailingStop with
      | none => return state
      | some tighter => do
        bybit (.setTradingStop (trailingRequest symbol position tighter))
        HybridRepository.recordOrder command "RUNNER_TRAILING_UPDATED"
        return { state with trailingStop := some tighter, trailingActive := true }
    else return state

/-! ## The cycle -/

/-- `finishClosed(command, reason)` -/
def finishClosed (command : Command) : Proc Command := do
  if command.state = .partiallyFilled ∨ command.state = .managing then do
    let current ← HybridRepository.transition command .closing
    HybridRepository.recordOrder current "POSITION_CLOSED"
    HybridRepository.transition current .closed
  else do
    HybridRepository.recordOrder command "POSITION_CLOSED"
    HybridRepository.transition command .closed

/-- `closeMissingPosition(command, reason)` -/
def closeMissingPosition (command : Command) (reason : String) : Proc Command := do
  let known ← HybridRepository.getManagementState command.candidateKey
  HybridRepository.putManagementState command.candidateKey
    { known.getD .blank with closeReason := some reason }
  finishClosed command

/-- The position was closed during the cycle. -/
def closedAfter (command : Command) (state : ManagementState) (reason : String) :
    Proc Command := do
  HybridRepository.putManagementState command.candidateKey { state with closeReason := some reason }
  finishClosed command

/-- The end of a cycle: the record is saved. -/
def conclude (command : Command) (state : ManagementState) : Proc Command := do
  HybridRepository.putManagementState command.candidateKey state
  HybridRepository.recordOrder command "MANAGEMENT_RECONCILED"
  if command.state = .partiallyFilled then HybridRepository.transition command .managing
  else return command

/-- The cycle, from an open position on. -/
def manage (command : Command) (symbol : String) (side : Side) (position : PositionRow)
    (o : Observation) : Proc Command := do
  let state ← loadState command o symbol side
  let state := { state with lastObservedQty := some o.currentQty, lastMarkPrice := some o.mark }
  let state ← takeFirst command side position o state
  match ← currentPosition symbol side with
  | none => closedAfter command state "POSITION_CLOSED_AFTER_TP1"
  | some refreshedAfterTp1 => do
    let state ← takeSecond command side refreshedAfterTp1 o state
    match ← currentPosition symbol side with
    | none => closedAfter command state "POSITION_CLOSED_AFTER_TP2"
    | some refreshed => do
      let state ← trail command symbol side refreshed o.mark state
      conclude command state

/-- `cycle(command)` -/
def cycle (command : Command) : Proc Command := do
  Prog.require (command.state = .managing ∨ command.state = .partiallyFilled)
    (.error s!"Step 11 cannot manage command state {command.state.text}")
  let symbol := Json.textOrEmpty (command.payload.get "symbol")
  match Side.ofText? (Json.textOrEmpty (command.payload.get "side")) with
  | none => throw (.error "Managed trade identity is invalid")
  | some side => do
    Prog.require (symbol ≠ "") (.error "Managed trade identity is invalid")
    let (positions, tickers, instruments) ← both (bybit (.position symbol)) <|
      both (bybit (.ticker symbol)) (bybit (.instrument symbol))
    match positions.find? (isManaged side) with
    | none => closeMissingPosition command "EXCHANGE_OR_MANUAL_CLOSE_DETECTED"
    | some position => do
      let o ← Prog.ofExcept (observe command.payload position tickers instruments)
      manage command symbol side position o

end TradeManager

end IntradayBot.Node
