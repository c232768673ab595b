import IntradayBot.Data.Double
import IntradayBot.Data.PyText
import IntradayBot.Data.SortBy
import Mathlib.Data.Prod.Lex
import Mathlib.Data.String.Basic

/-!
# The closed profit of a day

What the trades of a day have won or lost so far, as the daily risk reads it
(`installedDailyClosedPnl`). The journal is asked for the orders of the day first
(`acceptedOrders`): without one, nothing is counted. Otherwise the rows of the first page of
closed profits are counted that an order of the journal opened (`IsTodayTrade`). If that page
cannot be read, the rows of the day are added up among the last 500 closed trades
(`fetchClosedTrades`).

The exchange lists its rows from the newest to the oldest, page after page. Their amounts are read
as doubles, and added up as such.
-/

namespace IntradayBot.Risk

open PyText

/-- A field that is read as a number: it may be missing, or no number. -/
inductive Field (α : Type)
  | missing
  | malformed
  | value (a : α)
  deriving DecidableEq

/-- `int(field or default)`: `none` where it throws. -/
def Field.orDefault {α : Type} (default : α) : Field α → Option α
  | .missing => some default
  | .malformed => none
  | .value a => some a

/-- `left or right` -/
def Field.or {α : Type} : Field α → Field α → Field α
  | .missing, right => right
  | left, _ => left

/-! ## The journal -/

/-- The events of the journal that the profit of a day depends on. -/
inductive Event
  | autoOrder
  | manualOrder
  | partialTakeProfit
  | killSwitch
  | other
  deriving DecidableEq

/-- The answer to an order, where it is an object. -/
structure OrderResponse where
  retCode : Field ℤ
  orderId : String
  orderLinkId : String

structure JournalEntry where
  time : Field ℤ
  event : Event
  symbol : String
  /-- `payload.result` -/
  result : Option OrderResponse
  /-- `payload.closeResult.orders` -/
  closeOrders : List (Option OrderResponse)

/-- An element of `accepted_orders`. -/
structure AcceptedOrder where
  symbol : String
  orderId : String
  orderLinkId : String
  event : Event

/-- What `int` throws. -/
def invalidLiteral : String := "invalid literal for int() with base 10"

/-- `extract_order_info(res, symbol, side, event)` -/
def extractOrderInfo (response : Option OrderResponse) (symbol : String) (event : Event) :
    Except String (List AcceptedOrder) :=
  match response with
  | none => return []
  | some response =>
    match response.retCode with
    | .malformed => throw invalidLiteral
    | .missing => return []
    | .value retCode =>
      if retCode = 0 ∧ (response.orderId ≠ "" ∨ response.orderLinkId ≠ "") then
        return [⟨symbol, response.orderId, response.orderLinkId, event⟩]
      else return []

/-- The accepted orders of an entry of the journal. -/
def entryOrders (startEpoch : ℤ) (entry : JournalEntry) : Except String (List AcceptedOrder) :=
  match entry.time.orDefault 0 with
  | none => throw invalidLiteral
  | some time =>
    if time < startEpoch then return []
    else
      match entry.event with
      | .autoOrder | .manualOrder | .partialTakeProfit =>
        extractOrderInfo entry.result entry.symbol entry.event
      | .killSwitch => do
        let orders ← entry.closeOrders.mapM (extractOrderInfo · entry.symbol .killSwitch)
        return orders.flatten
      | .other => return []

/-- `accepted_orders` -/
def acceptedOrders (startEpoch : ℤ) (journal : List JournalEntry) :
    Except String (List AcceptedOrder) := do
  return (← journal.mapM (entryOrders startEpoch)).flatten

/-! ## The exchange -/

/-- A row of closed profit. -/
structure ClosedPnlRow where
  symbol : String
  /-- The side of the order that closed. -/
  side : String
  orderId : String
  orderLinkId : String
  updatedTime : Field ℤ
  createdTime : Field ℤ
  closedPnl : Field ℚ
  deriving DecidableEq

structure Execution where
  symbol : String
  orderId : String
  orderLinkId : String
  execTime : Field ℤ

/-- What the exchange answers. A request that fails does so with a message. -/
structure Answers where
  /-- The rows since the start of the day. -/
  closedPnl : Except String (List ClosedPnlRow)
  /-- The executions since the start of the day. -/
  executions : Except String (List Execution)
  /-- All rows, as the pages of closed trades list them. -/
  history : Except String (List ClosedPnlRow)

/-- The rows that one request returns at most. -/
def pageLimit : ℕ := 100

/-! ## Today's trades -/

/-- An order that opens a position. -/
def AcceptedOrder.Opens (order : AcceptedOrder) : Prop :=
  order.event = .autoOrder ∨ order.event = .manualOrder

instance (order : AcceptedOrder) : Decidable order.Opens := inferInstanceAs (Decidable (_ ∨ _))

/-- The execution is of an order of the journal that opens a position. -/
def Execution.OfEntry (orders : List AcceptedOrder) (execution : Execution) : Prop :=
  ∃ order ∈ orders, order.Opens ∧
    (order.orderId ≠ "" ∧ execution.orderId = order.orderId ∨
      order.orderLinkId ≠ "" ∧ execution.orderLinkId = order.orderLinkId)

instance (orders : List AcceptedOrder) (execution : Execution) :
    Decidable (execution.OfEntry orders) := inferInstanceAs (Decidable (∃ _ ∈ _, _))

/-- `entry_exec_times_by_symbol.get(symbol)` -/
def entryExecTimes (orders : List AcceptedOrder) (executions : List Execution) (symbol : String) :
    List ℤ :=
  (executions.filter fun ex => ex.symbol = symbol ∧ ex.OfEntry orders).map fun ex =>
    (ex.execTime.orDefault 0).getD 0

/-- `row_time`: `none` where it throws. -/
def ClosedPnlRow.time (startMs : ℤ) (row : ClosedPnlRow) : Option ℤ :=
  (row.updatedTime.or row.createdTime).orDefault startMs

/-- `close_time` -/
def closeTime (executions : List Execution) (row : ClosedPnlRow) (rowTime : ℤ) : ℤ :=
  match executions.find? (·.orderId = row.orderId) with
  | some ex => (ex.execTime.orDefault rowTime).getD rowTime
  | none => rowTime

/-- `is_today_trade` -/
def IsTodayTrade (orders : List AcceptedOrder) (executions : List Execution) (row : ClosedPnlRow)
    (rowTime : ℤ) : Prop :=
  let entryTimes := entryExecTimes orders executions row.symbol
  if entryTimes ≠ [] then ∃ t ∈ entryTimes, t ≤ closeTime executions row rowTime
  else ∃ order ∈ orders, order.Opens ∧ order.symbol = row.symbol

instance (orders : List AcceptedOrder) (executions : List Execution) (row : ClosedPnlRow)
    (rowTime : ℤ) : Decidable (IsTodayTrade orders executions row rowTime) := by
  unfold IsTodayTrade
  infer_instance

/-- `float(row.get("closedPnl") or 0)`: `none` where it throws. -/
def ClosedPnlRow.pnl (row : ClosedPnlRow) : Option ℚ := (row.closedPnl.orDefault 0).map Double.round

/-- What a row adds to `pnl`, if it is counted. -/
def rowPnl (startMs : ℤ) (orders : List AcceptedOrder) (executions : List Execution)
    (row : ClosedPnlRow) : Option ℚ :=
  match row.time startMs, row.pnl with
  | some rowTime, some pnl =>
    if startMs ≤ rowTime ∧ IsTodayTrade orders executions row rowTime then some pnl else none
  | _, _ => none

/-- `get_daily_closed_pnl(date_key)`, for the day that starts at `startEpoch`. -/
def getDailyClosedPnl (startEpoch : ℤ) (journal : List JournalEntry) (answers : Answers) :
    Except String (Option ℚ × String) := do
  let startMs := startEpoch * 1000
  let orders ← acceptedOrders startEpoch journal
  if orders.isEmpty then return (some 0, "OK")
  else
    match answers.closedPnl with
    | .error message => return (none, message)
    | .ok rows =>
      let executions := match answers.executions with
        | .ok executions => executions.take pageLimit
        | .error _ => []
      let counted := (rows.take pageLimit).filterMap (rowPnl startMs orders executions)
      return (some (Double.sum counted), "OK")

/-! ## The fallback -/

/-- `_timestamp_ms(value)` -/
def timestampMs : Field ℤ → ℤ
  | .value t => if 0 < t ∧ t < 10000000000 then t * 1000 else max 0 t
  | _ => 0

/-- A number with so many decimals, as a format writes it. -/
def fixed (decimals : ℕ) (q : ℚ) : String :=
  let units := (Decimal.roundHalfEven (|q| * 10 ^ decimals)).natAbs
  (if q < 0 then "-" else "") ++ Json.padded 1 (units / 10 ^ decimals) ++ "." ++
    Json.padded decimals (units % 10 ^ decimals)

/-- A closed trade, as `normalize_closed_trade` returns it. -/
structure ClosedTrade where
  id : String
  closedPnl : ℚ
  closedAt : ℤ

/-- The side of the position that an order on this side closes. -/
def positionSide (side : String) : String :=
  let lower := String.ofList ((stripChars side.toList).map Char.toLower)
  if lower = "buy" then "SHORT" else if lower = "sell" then "LONG" else "UNKNOWN"

/-- `normalize_closed_trade(row)` -/
def normalizeClosedTrade (row : ClosedPnlRow) : ClosedTrade :=
  let pnl := row.pnl.getD 0
  let closedAt := timestampMs (row.updatedTime.or row.createdTime)
  let orderId := strip (if row.orderId ≠ "" then row.orderId else row.orderLinkId)
  let symbol := Json.upperCase (strip (if row.symbol ≠ "" then row.symbol else "UNKNOWN"))
  { id := if orderId ≠ "" then orderId
      else symbol ++ ":" ++ positionSide row.side ++ ":" ++ toString closedAt ++ ":" ++ fixed 12 pnl
    closedPnl := pnl
    closedAt := closedAt }

/-- The trades of a page, after those of the pages before: a trade whose id was seen is left
    out. -/
def addBatch (trades : List ClosedTrade) (batch : List ClosedPnlRow) : List ClosedTrade :=
  batch.foldl (fun trades row =>
    let trade := normalizeClosedTrade row
    if trade.id ∈ trades.map (·.id) then trades else trades ++ [trade]) trades

/-- The loop of `_fetch_closed_trades(core, max_rows)`, from the rows of the exchange that are left:
    each request asks for as many as are missing, and for 100 at most. -/
def fetchPages (maxRows : ℕ) (trades : List ClosedTrade) (rows : List ClosedPnlRow) :
    List ClosedTrade :=
  let requestLimit := min pageLimit (maxRows - trades.length)
  if _h : rows = [] ∨ requestLimit = 0 then trades
  else fetchPages maxRows (addBatch trades (rows.take requestLimit)) (rows.drop requestLimit)
termination_by rows.length
decreasing_by
  rw [List.length_drop]
  have hrows : 0 < rows.length := List.length_pos_iff.2 fun hrows => _h (.inl hrows)
  omega

/-- Trades in the order of `rows.sort(key=lambda item: (closedAt, id))`. -/
def sortTrades (trades : List ClosedTrade) : List ClosedTrade :=
  sortBy (fun trade => toLex (trade.closedAt, trade.id)) trades

/-- `_fetch_closed_trades(core, max_rows)` -/
def fetchClosedTrades (maxRows : ℕ) (rows : List ClosedPnlRow) : List ClosedTrade :=
  sortTrades (fetchPages maxRows [] rows)

/-- The trade was closed on the day. -/
def ClosedTrade.OfDay (startMs : ℤ) (trade : ClosedTrade) : Prop :=
  startMs ≤ trade.closedAt ∧ trade.closedAt < startMs + 86400000

instance (startMs : ℤ) (trade : ClosedTrade) : Decidable (trade.OfDay startMs) :=
  inferInstanceAs (Decidable (_ ∧ _))

/-- The part of the installed function that takes over when the profit is unavailable. -/
def closedPnlFallback (startEpoch : ℤ) (message : String)
    (history : Except String (List ClosedPnlRow)) : Option ℚ × String :=
  let startMs := if startEpoch < 10000000000 then startEpoch * 1000 else startEpoch
  match history with
  | .error error => (none, message ++ "; canonical closed-PnL fallback failed: " ++ error)
  | .ok rows =>
    let today := (fetchClosedTrades 500 rows).filter (·.OfDay startMs)
    (some (Double.compensatedSum (today.map (·.closedPnl))),
      if today.isEmpty then "OK; no closed-PnL rows for trading day"
      else "OK via canonical Bybit closed-PnL fallback")

/-- `get_daily_closed_pnl(trading_date)`, as `execution_truth_recovery` installs it. -/
def installedDailyClosedPnl (startEpoch : ℤ) (journal : List JournalEntry) (answers : Answers) :
    Except String (Option ℚ × String) := do
  match ← getDailyClosedPnl startEpoch journal answers with
  | (some value, message) => return (some value, message)
  | (none, message) => return closedPnlFallback startEpoch message answers.history

end IntradayBot.Risk
