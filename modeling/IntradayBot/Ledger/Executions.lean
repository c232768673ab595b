import Mathlib.Data.Prod.Lex
import Mathlib.Data.Sign.Basic
import Mathlib.Algebra.Order.Field.Rat
import Mathlib.Data.String.Basic
import IntradayBot.Data.OrdMap
import IntradayBot.Data.SortBy

/-!
# The execution ledger

The ledger of the live executions is made from the fills that the exchange lists and
from the positions that it shows now: `reconcile_executions` walks backward from a
position through the fills of its symbol, and classifies each of them
(`reconcileExecutions`). The positions before the fills of a day are the ones that the
day before is reconciled with (`openingPositionSnapshot`), and the counters of a day are
taken from its rows (`summarizeRows`).

Quantities are exact. An execution is a row that `normalize_execution` lets through:
its quantity is positive.
-/

namespace IntradayBot.Ledger

/-- The side of an execution. -/
inductive Side
  | buy
  | sell
  deriving DecidableEq, Repr

/-- A normalized execution; `apiClosedSize` is what the exchange says was closed, if it does. -/
structure Execution where
  execId : String
  execTime : ℤ
  sequenceNo : Option ℤ
  symbol : String
  orderId : Option String
  side : Side
  execQty : ℚ
  execFee : ℚ
  feeCurrency : String
  leavesQty : ℚ
  apiClosedSize : Option ℚ
  execQty_pos : 0 < execQty
  deriving DecidableEq

/-- `delta`: what an execution adds to the position of its symbol. -/
def Execution.delta (e : Execution) : ℚ :=
  match e.side with
  | .buy => |e.execQty|
  | .sell => -|e.execQty|

/-- What an execution does to a position. -/
inductive LedgerAction
  | entry
  | add
  | partialExit
  | fullExit
  | reversal
  deriving DecidableEq, Repr

/-- An execution with the exposure before and after it. -/
structure LedgerRow extends Execution where
  positionBefore : ℚ
  positionAfter : ℚ
  closedSize : ℚ
  entrySize : ℚ
  action : LedgerAction
  deriving DecidableEq

/-- Signed positions by symbol. -/
abbrev Positions := OrdMap String ℚ

/-- `positions_now.get(symbol, Decimal("0"))` -/
def Positions.at (positions : Positions) (symbol : String) : ℚ := (positions.get? symbol).getD 0

/-- A row of the list of positions, its texts stripped and in their case: the side of a row
    that is neither `Buy` nor `Sell` is missing. -/
structure PositionRow where
  symbol : String
  positionIdx : ℤ
  side : Option Side
  size : ℚ

/-- `_USDT_PERPETUAL_PATTERN.fullmatch(symbol)` -/
def isUsdtPerpetual (symbol : String) : Bool :=
  let base := symbol.toList.dropLast.dropLast.dropLast.dropLast
  symbol.toList = base ++ ['U', 'S', 'D', 'T'] ∧ base ≠ [] ∧
    base.all fun c => c.isUpper || c.isDigit

/-- Why positions cannot be netted. -/
inductive LedgerError
  | hedgeMode (symbol : String)
  | opposingPositions (symbol : String)
  deriving DecidableEq, Repr

/-- One row of `current_signed_positions`, after the positions and the sides seen so far. -/
def signedPosition (row : PositionRow) (acc : Positions × List (String × Side)) :
    Except LedgerError (Positions × List (String × Side)) :=
  let (result, seen) := acc
  if !isUsdtPerpetual row.symbol then .ok acc
  else if row.positionIdx = 1 ∨ row.positionIdx = 2 then .error (.hedgeMode row.symbol)
  else match row.side with
    | none => .ok acc
    | some side =>
      let size := |row.size|
      if size ≤ 0 then .ok acc
      else if (seen.any fun p => p.1 = row.symbol ∧ p.2 ≠ side) then
        .error (.opposingPositions row.symbol)
      else
        let signed := match side with
          | .buy => size
          | .sell => -size
        .ok (result.set row.symbol (result.at row.symbol + signed), (row.symbol, side) :: seen)

/-- `current_signed_positions(rows)` -/
def currentSignedPositions (rows : List PositionRow) : Except LedgerError Positions :=
  (rows.foldlM (fun acc row => signedPosition row acc) (∅, [])).map Prod.fst

/-- The order of executions: time, sequence number, order id, the quantity left (the most
    first), and id. -/
abbrev SortKey := ℤ ×ₗ ℤ ×ₗ String ×ₗ ℚ ×ₗ String

/-- `_execution_sort_key(item)` -/
def executionSortKey (e : Execution) : SortKey :=
  toLex (e.execTime, toLex (e.sequenceNo.getD 0, toLex (e.orderId.getD "",
    toLex (-e.leavesQty, e.execId))))

/-! ## Reconciliation -/

/-- The part of an execution that closes, as the positions show it. -/
def inferredClosed (before delta qty : ℚ) : ℚ :=
  if SignType.sign before ≠ 0 ∧ SignType.sign delta ≠ 0 ∧
      SignType.sign before ≠ SignType.sign delta then min |before| qty
  else 0

/-- The action of an execution. -/
def classify (before after closedSize entrySize : ℚ) : LedgerAction :=
  if 0 < closedSize ∧ 0 < entrySize then .reversal
  else if 0 < closedSize ∧ after = 0 then .fullExit
  else if 0 < closedSize then .partialExit
  else if before = 0 then .entry
  else .add

/-- An execution, the position after it being known. -/
def reconcileExecution (e : Execution) (after : ℚ) : LedgerRow :=
  let qty := |e.execQty|
  let before := after - e.delta
  let apiClosed := min qty |e.apiClosedSize.getD 0|
  let closedSize := max (inferredClosed before e.delta qty) apiClosed
  let entrySize := max 0 (qty - closedSize)
  { e with
    positionBefore := before
    positionAfter := after
    closedSize := closedSize
    entrySize := entrySize
    action := classify before after closedSize entrySize }

/-- The executions of one symbol, from the last one backward: the position before them, and
    their rows. -/
def reconcileSymbol (after : ℚ) (rows : List Execution) : ℚ × List LedgerRow :=
  rows.foldr (fun e acc =>
    let row := reconcileExecution e acc.1
    (row.positionBefore, row :: acc.2)) (after, [])

/-- `grouped`: the executions by symbol. -/
def groupBySymbol (executions : List Execution) : OrdMap String (List Execution) :=
  executions.foldl (fun grouped e =>
    grouped.set e.symbol ((grouped.get? e.symbol).getD [] ++ [e])) ∅

/-- `reconcile_executions(executions, positions_now)` -/
def reconcileExecutions (executions : List Execution) (positionsNow : Positions) : List LedgerRow :=
  sortBy (fun row => executionSortKey row.toExecution)
    ((groupBySymbol executions).entries.flatMap fun group =>
      (reconcileSymbol (positionsNow.at group.1) (sortBy executionSortKey group.2)).2)

/-- `opening_position_snapshot(executions, positions_now)` -/
def openingPositionSnapshot (executions : List Execution) (positionsNow : Positions) : Positions :=
  let (opening, _) := (reconcileExecutions executions positionsNow).foldl
    (fun acc row =>
      if row.symbol ∈ acc.2 then acc
      else (acc.1.set row.symbol row.positionBefore, row.symbol :: acc.2))
    (positionsNow, ([] : List String))
  opening.filterValues fun value => value ≠ 0

/-! ## Counters -/

/-- The counters of a day. -/
structure LedgerSummary where
  totalExecutions : ℕ
  entryExecutions : ℕ
  exitExecutions : ℕ
  partialCloseExecutions : ℕ
  completedTrades : ℕ
  reversalExecutions : ℕ
  executedSymbols : List String
  openPositionSymbols : List String
  feesPaid : ℚ
  feeRebates : ℚ
  netTradingFees : ℚ
  feeCurrencies : List String
  firstExecutionTime : Option ℤ
  lastExecutionTime : Option ℤ

/-- `sorted(set(names))` -/
def sortedNames (names : List String) : List String := sortBy id names.dedup

/-- `summarize_rows(rows, current_positions=positions)` -/
def summarizeRows (rows : List LedgerRow) (positions : Positions) : LedgerSummary :=
  let actions := rows.map (·.action)
  let fees := rows.map (·.execFee)
  let times := rows.map (·.execTime) |>.filter (0 < ·)
  { totalExecutions := rows.length
    entryExecutions := actions.countP (· ∈ [.entry, .add, .reversal])
    exitExecutions := actions.countP (· ∈ [.partialExit, .fullExit, .reversal])
    partialCloseExecutions := actions.count .partialExit
    completedTrades := actions.count .fullExit + actions.count .reversal
    reversalExecutions := actions.count .reversal
    executedSymbols := sortedNames ((rows.map (·.symbol)).filter (· ≠ ""))
    openPositionSymbols := sortedNames
      ((positions.entries.filter (·.2 ≠ 0)).map Prod.fst)
    feesPaid := (fees.map (max · 0)).sum
    feeRebates := (fees.map fun fee => |min fee 0|).sum
    netTradingFees := fees.sum
    feeCurrencies := sortedNames ((rows.map (·.feeCurrency)).filter (· ≠ ""))
    firstExecutionTime := times.min?
    lastExecutionTime := times.max? }

end IntradayBot.Ledger
