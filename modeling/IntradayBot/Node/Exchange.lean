import IntradayBot.Node.Command

/-!
# The exchange, as the service sees it

The requests of the service to Bybit (`BybitOp`) and the rows it is answered
(`BybitOp.Val`). The fields of a row are kept as they are read: JSON values that
may be missing, converted by the code that uses them. Of each row and of each
request, only the fields that the service looks at or chooses are kept.

An order is known by the link id of its request. Link ids are digests: of the
candidate key for an entry, of the candidate key and the action for an order of
the trade manager. They are modelled by what they are digests of (`LinkId`).

`request` sends a request again, once, when it was refused for its time stamp:
a `BybitOp` is the request with this retry.
-/

namespace IntradayBot.Node

/-- A field of a row: a JSON value, or `undefined`. -/
abbrev Field := Option Json

/-- The actions of the trade manager that have an order. -/
inductive Action
  | tp1
  | tp2
  deriving DecidableEq, Repr

/-- `orderLinkId(candidateKey)` and `managementLinkId(candidateKey, action)`. -/
inductive LinkId
  | entry (candidateKey : String)
  | management (candidateKey : String) (action : Action)
  deriving DecidableEq, Repr

structure WalletRow where
  totalEquity : Field
  totalAvailableBalance : Field

/-- The rules of an instrument: its status, and the fields of `priceFilter`,
    `lotSizeFilter` and `leverageFilter`. -/
structure InstrumentRow where
  status : Field
  tickSize : Field
  qtyStep : Field
  minOrderQty : Field
  maxMktOrderQty : Field
  maxMarketOrderQty : Field
  maxOrderQty : Field
  minNotionalValue : Field
  maxLeverage : Field

structure TickerRow where
  markPrice : Field
  lastPrice : Field

structure KlineRow where
  time : Field
  high : Field
  low : Field

structure PositionRow where
  symbol : Field
  side : Field
  size : Field
  avgPrice : Field
  stopLoss : Field
  takeProfit : Field
  positionIdx : Field

structure OrderRow where
  orderLinkId : Option LinkId
  orderStatus : Field
  reduceOnly : Field
  qty : Field
  cumExecQty : Field

structure ExecutionRow where
  execId : Field
  execQty : Field

/-- `Number(row.size || 0) > 0` -/
def PositionRow.isOpen (row : PositionRow) : Bool :=
  (Json.numberOrZero row.size).any (0 < ·)

/-- `rows.reduce((sum, row) => sum + Number(row.execQty || 0), 0)` -/
def ExecutionRow.totalQty (rows : List ExecutionRow) : Option ℚ :=
  rows.foldl (fun sum row => do return (← sum) + (← Json.numberOrZero row.execQty)) (some 0)

/-- A request for a market order. A number sent as text is kept as the number
    that the text writes. -/
structure OrderRequest where
  symbol : String
  side : String
  qty : Option ℚ
  positionIdx : Option ℚ
  orderLinkId : LinkId
  reduceOnly : Bool
  stopLoss : Option ℚ
  takeProfit : Option ℚ

/-- A request for the stops of a position; `takeProfit` is only sent to change it. -/
structure StopRequest where
  symbol : String
  positionIdx : Option ℚ
  stopLoss : Option ℚ
  takeProfit : Option (Option ℚ)

/-- The requests to the exchange. -/
inductive BybitOp
  | accountInfo
  | wallet
  | instrument (symbol : String)
  | ticker (symbol : String)
  | klines (symbol : String) (limit : ℕ)
  | position (symbol : String)
  | positions
  | activeOrders (symbol : String)
  | realtimeOrder (symbol : String) (orderLinkId : LinkId)
  | orderHistory (symbol : String) (orderLinkId : LinkId)
  | executions (symbol : String) (orderLinkId : LinkId)
  | setMarginMode
  | setLeverage (symbol : String) (leverage : Option ℚ)
  | createOrder (request : OrderRequest)
  | setTradingStop (request : StopRequest)

/-- What the exchange answers: the list of rows, the margin mode of the account,
    or the id of an order. -/
abbrev BybitOp.Val : BybitOp → Type
  | .accountInfo => Field
  | .wallet => List WalletRow
  | .instrument _ => List InstrumentRow
  | .ticker _ => List TickerRow
  | .klines _ _ => List KlineRow
  | .position _ | .positions => List PositionRow
  | .activeOrders _ | .realtimeOrder _ _ | .orderHistory _ _ => List OrderRow
  | .executions _ _ => List ExecutionRow
  | .setMarginMode | .setLeverage _ _ | .setTradingStop _ => Unit
  | .createOrder _ => Field

end IntradayBot.Node
