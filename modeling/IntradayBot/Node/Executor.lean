import IntradayBot.Node.BybitClient
import IntradayBot.Node.LiveSizer
import IntradayBot.Node.Validator

/-!
# Execution of a command

`execute` takes a reserved command to its entry order, and a command whose order
was sent to what became of it. Before anything else, it looks for evidence of an
order of the command on the exchange; if there is some, it goes on from there
(*recovery*). Otherwise the candidate is sized, twice, around the account
settings; the size is published in the command; the command becomes
`ORDER_PENDING`, and only then the order is sent.

Until then, errors are handled: a wait leaves the command reserved or gives it
up, another error gives it up. Afterwards the state of the command is no longer
`RESERVED`, and errors only propagate; `execute` is written as these two stages.
-/

namespace IntradayBot.Node

open Coop

namespace Executor

/-- `orderLinkId(candidateKey)` -/
abbrev orderLinkId (candidateKey : String) : LinkId := .entry candidateKey

/-- The symbol of a payload. -/
def symbolOf (payload : Json) : String := Json.toText (payload.get "symbol")

/-- `hasExchangeEvidence(symbol, linkId)` -/
def hasExchangeEvidence (symbol : String) (linkId : LinkId) : Proc Bool := do
  let (order, executions) ← both (BybitClient.findOrder symbol linkId)
    (bybit (.executions symbol linkId))
  return order.isSome || executions.any fun row => (Json.numberOrZero row.execQty).any (0 < ·)

/-- The first half of `ensureAccountSettings`. -/
def ensureMarginMode : Proc Unit := do
  let marginMode := "ISOLATED_MARGIN"
  let before ← bybit .accountInfo
  if Json.textOrEmpty before = marginMode then return ()
  else do
    bybit .setMarginMode
    let after ← bybit .accountInfo
    Prog.require (Json.textOrEmpty after = marginMode)
      (.error "Bybit account margin mode is not verified as ISOLATED_MARGIN")

/-- `ensureAccountSettings(symbol, leverage)` -/
def ensureAccountSettings (config : Config) (symbol : String) (leverage : Field) : Proc Unit := do
  ensureMarginMode
  BybitClient.setLeverage symbol
    ((Json.toNumber (Json.orElse leverage (some (.num config.leverage)))).map (min 10))

/-- `liveTruth(command, payload, linkId)`: the memory is summed before any answer. -/
def liveTruth (config : Config) (command : Command) (payload : Json) (linkId : LinkId) :
    Proc LiveSizer.Truth := do
  let symbol := symbolOf payload
  let (amount, usable) ← Prog.read fun m =>
    (HybridRepository.reservedDirect command.candidateKey m, m.usable)
  let (wallet, instrument, ticker, positions, activeOrders, kline15m, pendingReservedMargin) ←
    both (bybit .wallet) <| both (bybit (.instrument symbol)) <| both (bybit (.ticker symbol)) <|
    both (bybit .positions) <| both (bybit (.activeOrders symbol)) <|
    both (bybit (.klines symbol (max 80 (config.structureLookback + 10)))) <|
    HybridRepository.addReservedRows command.candidateKey amount usable
  return {
    wallet := wallet
    instrument := instrument
    ticker := ticker
    positions := positions
    activeOrders := activeOrders
    kline15m := kline15m
    pendingReservedMargin := pendingReservedMargin
    orderLinkId := linkId }

/-- `prepareLiveExecution(command, payload, linkId)`: the payload, sized. -/
def prepareLiveExecution (config : Config) (command : Command) (payload : Json)
    (linkId : LinkId) : Proc Json := do
  Prog.ofExcept (validateCandidateFacts payload command.candidateKey)
  let truth ← liveTruth config command payload linkId
  let nowSeconds ← Prog.read Memory.now
  Prog.ofExcept (LiveSizer.buildLiveExecutionPlan payload truth config nowSeconds)

/-- `resolvePending(command, payload, linkId)` -/
def resolvePending (command : Command) (payload : Json) (linkId : LinkId) : Proc Command := do
  let resolution ← BybitClient.waitForResolution (symbolOf payload) linkId
    (Json.toNumber (payload.get "qty"))
  HybridRepository.recordFills command resolution.executions
  HybridRepository.recordOrder command ("RESOLUTION_" ++ resolution.state.text)
  match resolution.state with
  | .failed => HybridRepository.transition command .failed
  | .unknown => return command
  | .filled => do
    let _ ← BybitClient.ensureProtection payload
    HybridRepository.recordOrder command "PROTECTION_VERIFIED"
    HybridRepository.transition command .managing
  | .partiallyFilled => do
    let _ ← BybitClient.ensureProtection payload
    HybridRepository.recordOrder command "PROTECTION_VERIFIED"
    HybridRepository.transition command .partiallyFilled

/-- What is to be done with a command that became `ORDER_PENDING`. -/
inductive Pending
  /-- Its order was sent before. -/
  | recovered (command : Command)
  /-- Its order is to be sent, for the payload sized. -/
  | sized (command : Command) (payload : Json)

/-- The stage of `execute` before the order: the command is reserved, and becomes
    `ORDER_PENDING` at the end. -/
def prepare (config : Config) (command : Command) (linkId : LinkId) : Proc Pending := do
  if ← hasExchangeEvidence (symbolOf command.payload) linkId then do
    let command ← HybridRepository.transition command .orderPending
    HybridRepository.recordOrder command "RECOVERED_EXCHANGE_EVIDENCE"
    return .recovered command
  else do
    let payload ← prepareLiveExecution config command command.payload linkId
    ensureAccountSettings config (symbolOf payload) (payload.get "leverage")
    let payload ← prepareLiveExecution config command payload linkId
    let command := { command with payload := payload }
    let command ← Prog.atomically (HybridRepository.markExecutionPayload command payload)
    HybridRepository.recordOrder command "SUBMISSION_INTENT"
    let command ← HybridRepository.transition command .orderPending
    return .sized command payload

/-- The handler of this stage. -/
def blocked (command : Command) (error : JsError) : Proc Command := do
  match error with
  | .wait _ _ retryable => do
    let _ ← (HybridRepository.recordOrder command "NODE_EXECUTION_WAIT").attempt
    if retryable then return command
    else HybridRepository.transition command .failed
  | error => do
    let _ ← (HybridRepository.recordOrder command "PRE_SUBMISSION_BLOCKED").attempt
    let _ ← (HybridRepository.transition command .failed).attempt
    throw error

/-- The entry order of a payload. -/
def entryOrder (payload : Json) (linkId : LinkId) : OrderRequest where
  symbol := symbolOf payload
  side := Json.toText (payload.get "side")
  qty := Json.written (payload.get "qty")
  positionIdx := some 0
  orderLinkId := linkId
  reduceOnly := false
  stopLoss := Json.written (payload.get "technicalStopLoss")
  takeProfit := Json.written (payload.get "takeProfitReference")

/-- The stage of `execute` that sends the order. -/
def submit (command : Command) (payload : Json) (linkId : LinkId) : Proc Command := do
  match ← (bybit (.createOrder (entryOrder payload linkId))).attempt with
  | .error (.api _ _) => do
    let _ ← (HybridRepository.recordOrder command "ORDER_REJECTED").attempt
    HybridRepository.transition command .failed
  | .error error => do
    let _ ← (HybridRepository.recordOrder command "SUBMISSION_UNKNOWN").attempt
    throw error
  | .ok orderId => do
    if Json.trim (Json.textOrEmpty orderId) = "" then do
      HybridRepository.recordOrder command "ACKNOWLEDGEMENT_INCOMPLETE"
      throw (.error "Bybit order acknowledgement has no orderId; command remains ORDER_PENDING")
    else do
      HybridRepository.recordOrder command "ORDER_ACKNOWLEDGED"
      resolvePending command payload linkId

/-- `execute(command)` -/
def execute (config : Config) (command : Command) : Proc Command := do
  Prog.ofExcept (validateContract command.payload command.candidateKey)
  let linkId := orderLinkId command.candidateKey
  match command.state with
  | .orderPending => resolvePending command command.payload linkId
  | .reserved => do
    match ← (prepare config command linkId).attempt with
    | .ok (.recovered pending) => resolvePending pending command.payload linkId
    | .ok (.sized pending payload) => submit pending payload linkId
    | .error error => blocked command error
  | _ => throw (.error s!"Node execution cannot execute command state {command.state.text}")

end Executor

end IntradayBot.Node
