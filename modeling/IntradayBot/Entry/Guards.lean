import Mathlib.Data.List.Basic
import IntradayBot.Data.Except
import IntradayBot.Data.PyValue

/-!
# The guard against open positions

Before an entry, the guard asks the exchange for the positions of the symbol and for all of them
(`existingPositionGuard`): a symbol with a position is blocked, and so is any symbol once as many
positions are open as `BOT_STATE` allows. The exchange answers with the first page of the
positions. Other gates come first (`protectedExistingPositionGuard`), which are only known here by
what they answer.

An exception is known by its text.
-/

namespace IntradayBot.Entry

open PyText

/-- What the entries depend on in `BOT_STATE`. A start request is only accepted within the bounds
    of `LIMITS`. -/
structure BotState where
  enabled : Bool
  maxOpenPositions : ℤ
  cooldownSeconds : ℤ
  lastTradeAt : ℚ
  limits : 1 ≤ maxOpenPositions ∧ maxOpenPositions ≤ 5

/-- An answer of the exchange about positions. -/
structure Payload where
  retCode : ℤ
  retMsg : String
  list : List PyDict

/-- What the exchange answers to the three requests of the guard. -/
structure Reads where
  bySymbol : Except String Payload
  all : Except String Payload
  active : Except String Payload

/-! ## Rows -/

/-- `abs(float(position.get("size") or 0))`, `0` if it is no number. -/
def sizeOf (position : PyDict) : Except String Double :=
  let size := position.get "size"
  match (if size.truthy then size else .int 0).float? with
  | .ok (.finite q) => .ok (.finite |q|)
  | .ok (.inf _) => .ok (.inf false)
  | .ok .nan => .ok .nan
  | .error .overflowError => .error "int too large to convert to float"
  | .error _ => .ok (.finite 0)

/-- The size of a position is not zero. -/
def isOpen (position : PyDict) : Except String Bool := (sizeOf position).map Double.positive

/-- The rows whose size is not zero. -/
def openRows : List PyDict → Except String (List PyDict)
  | [] => .ok []
  | position :: rows => do
    let here ← isOpen position
    let rest ← openRows rows
    return if here then position :: rest else rest

/-- `get_symbol_open_positions(symbol)`: the positions, or a message. -/
def getSymbolOpenPositions (payload : Payload) : Except String (Except String (List PyDict)) :=
  if payload.retCode ≠ 0 then .ok (.error payload.retMsg) else (openRows payload.list).map .ok

/-- `get_open_positions_count()`: the number, or a message. -/
def getOpenPositionsCount (payload : Payload) : Except String (Except String ℕ) :=
  if payload.retCode ≠ 0 then .ok (.error payload.retMsg)
  else (openRows payload.list).map fun rows => .ok rows.length

/-- `summarize_position(position)` -/
def summarizePosition (position : PyDict) : Except String PyDict := do
  let size ← sizeOf position
  return [("symbol", position.getOr "symbol" (.str "")), ("side", position.getOr "side" (.str "")),
    ("size", .float size), ("avgPrice", position.get "avgPrice"),
    ("markPrice", position.get "markPrice"), ("stopLoss", position.get "stopLoss"),
    ("takeProfit", position.get "takeProfit"), ("trailingStop", position.get "trailingStop"),
    ("positionIdx", position.get "positionIdx")]

/-- The symbols of the open positions in an answer. -/
def activeSymbols (repr : PyValue → String) (payload : Payload) : Except String (List String) :=
  if payload.retCode = 0 then
    (openRows payload.list).map fun rows =>
      (rows.filter fun row => (row.get "symbol").truthy).map fun row => (row.get "symbol").text repr
  else .ok []

/-! ## The guard -/

/-- The verdict of a guard, with what it adds to it. -/
def verdict (ok : Bool) (reason : String) (positions : List PyDict) (same opposite : Bool)
    (more : PyDict) : PyDict :=
  ("ok", .bool ok) :: ("reason", .str reason) :: ("positions", .list (positions.map .dict)) ::
    ("sameDirection", .bool same) :: ("oppositeDirection", .bool opposite) :: more

/-- The part of `existing_position_guard` that counts the open positions. -/
def openPositionsGuard (repr : PyValue → String) (reads : Reads) (symbol : String)
    (state : BotState) (summaries : List PyDict) : Except String PyDict := do
  match ← getOpenPositionsCount (← reads.all) with
  | .error message => return verdict false message summaries false false []
  | .ok openCount =>
    let maxOpen := max 1 state.maxOpenPositions
    let counts : PyDict := [("openPositions", .int openCount), ("maxOpenPositions", .int maxOpen)]
    if maxOpen ≤ openCount then
      let active ← activeSymbols repr (← reads.active)
      let symbolText := if active = [] then symbol else ", ".intercalate (active.take 5)
      return verdict false
        s!"Max open positions reached ({openCount}/{maxOpen}); active: {symbolText}" summaries
        false false counts
    else return verdict true "No existing position conflict" summaries false false counts

/-- The side of the position that a signal opens. -/
def signalSide (signal : String) : String := if signal = "Buy" then "Buy" else "Sell"

/-- `existing_position_guard(symbol, signal, state)` -/
def existingPositionGuard (repr : PyValue → String) (reads : Reads) (symbol signal : String)
    (state : BotState) : Except String PyDict := do
  match ← getSymbolOpenPositions (← reads.bySymbol) with
  | .error message => return verdict false message [] false false []
  | .ok positions =>
    let summaries ← positions.mapM summarizePosition
    if summaries.any fun p => (p.get "side").isText (signalSide signal) then
      return verdict false
        s!"Existing {symbol} {signalSide signal} position detected; duplicate entry blocked" summaries
        true false []
    else if summaries.any fun p => (p.get "side").truthy then
      return verdict false
        s!"Existing {symbol} opposite position detected; reverse trade blocked" summaries false true
        []
    else openPositionsGuard repr reads symbol state summaries

/-- The answer of another gate: whether it lets entries pass, why, and what it verified. -/
structure Gate where
  ok : Bool
  reason : String
  verification : PyValue

/-- What the gates in front of the guard answer. -/
structure Gates where
  management : Gate
  pending : Gate
  protection : Gate
  /-- The positions that the gate of the protection looked at. -/
  positions : List PyDict

/-- `_protected_existing_position_guard(symbol, signal, state)` -/
def protectedExistingPositionGuard (repr : PyValue → String) (gates : Gates) (reads : Reads)
    (symbol signal : String) (state : BotState) : Except String PyDict :=
  if ¬gates.management.ok then
    .ok (verdict false s!"New entry blocked: {gates.management.reason}" [] false false
      [("positionManagementBlocked", .bool true),
        ("positionManagementVerification", gates.management.verification)])
  else if ¬gates.pending.ok then
    .ok (verdict false s!"New entry blocked: {gates.pending.reason}" [] false false
      [("fillVerificationBlocked", .bool true), ("fillVerification", gates.pending.verification)])
  else if ¬gates.protection.ok then
    .ok (verdict false s!"New entry blocked: {gates.protection.reason}" gates.positions false false
      [("protectionBlocked", .bool true)])
  else existingPositionGuard repr reads symbol signal state

/-! ## What the guard lets pass -/

@[simp] theorem verdict_ok (ok : Bool) (reason : String) (positions : List PyDict)
    (same opposite : Bool) (more : PyDict) :
    PyDict.get (verdict ok reason positions same opposite more) "ok" = .bool ok := rfl

/-- The exchange counted fewer positions than `BOT_STATE` allows. -/
def Room (reads : Reads) (state : BotState) : Prop :=
  ∃ payload openCount, reads.all = .ok payload ∧
    getOpenPositionsCount payload = .ok (.ok openCount) ∧
    (openCount : ℤ) < max 1 state.maxOpenPositions

variable {repr : PyValue → String} {gates : Gates} {reads : Reads} {symbol signal : String}
  {state : BotState} {d : PyDict}

theorem openPositionsGuard_ok {summaries : List PyDict}
    (h : openPositionsGuard repr reads symbol state summaries = .ok d)
    (hok : (d.get "ok").truthy) : Room reads state := by
  unfold openPositionsGuard at h
  obtain ⟨payload, hall, h⟩ := bind_eq_ok.1 h
  obtain ⟨counted, hcount, h⟩ := bind_eq_ok.1 h
  cases counted with
  | error message =>
    obtain rfl := pure_eq_ok.1 h
    simp [PyValue.truthy] at hok
  | ok openCount =>
    refine ⟨payload, openCount, hall, hcount, ?_⟩
    dsimp only at h
    split at h
    · obtain ⟨answer, -, h⟩ := bind_eq_ok.1 h
      obtain ⟨active, -, h⟩ := bind_eq_ok.1 h
      obtain rfl := pure_eq_ok.1 h
      simp [PyValue.truthy] at hok
    · rename_i hroom
      exact not_le.1 hroom

theorem existingPositionGuard_ok (h : existingPositionGuard repr reads symbol signal state = .ok d)
    (hok : (d.get "ok").truthy) : Room reads state := by
  unfold existingPositionGuard at h
  obtain ⟨payload, -, h⟩ := bind_eq_ok.1 h
  obtain ⟨positions, -, h⟩ := bind_eq_ok.1 h
  cases positions with
  | error message =>
    obtain rfl := pure_eq_ok.1 h
    simp [PyValue.truthy] at hok
  | ok positions =>
    obtain ⟨summaries, -, h⟩ := bind_eq_ok.1 h
    split_ifs at h
    · obtain rfl := pure_eq_ok.1 h
      simp [PyValue.truthy] at hok
    · obtain rfl := pure_eq_ok.1 h
      simp [PyValue.truthy] at hok
    · exact openPositionsGuard_ok h hok

/-- A candidate only passes the guard if there is room for one more position. -/
theorem protectedExistingPositionGuard_ok
    (h : protectedExistingPositionGuard repr gates reads symbol signal state = .ok d)
    (hok : (d.get "ok").truthy) : Room reads state := by
  unfold protectedExistingPositionGuard at h
  split_ifs at h
  · exact existingPositionGuard_ok h hok
  all_goals
    obtain rfl := Except.ok.inj h
    simp [PyValue.truthy] at hok

end IntradayBot.Entry
