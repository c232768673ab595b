import IntradayBot.Data.PyText

/-!
# Final fills

An order that the exchange acknowledged is polled, in its realtime orders and in its history,
until one of them shows it filled or terminal (`verifyFinalFill`). A verification is
*accepted* if the order is fully filled, and *unresolved* if an execution may stand that the
program does not account for.

`verifyFinalFill` sleeps between two attempts; the requester answers each attempt anew.
-/

namespace IntradayBot.Fill

open PyText

/-- The answer to the creation of an order. -/
structure OrderResult where
  retCode : Option ℤ
  retMsg : String
  orderId : String
  orderLinkId : String
  /-- `result.get("reason")`, of an answer that the server gives itself. -/
  reason : String := ""
  deriving DecidableEq

/-- The orders that a request reads. -/
inductive Source
  | realtime
  | history

/-- `source` -/
def Source.text : Source → String
  | .realtime => "realtime"
  | .history => "history"

/-- `params` -/
structure Query where
  symbol : String
  orderId : Option String
  orderLinkId : Option String

/-- A row of the orders, with the text of each value; `none` where it is missing. -/
structure OrderRow where
  orderId : Option String
  orderLinkId : Option String
  orderStatus : Option String
  cumExecQty : Option String
  avgPrice : Option String

/-- The answer to a request for orders. -/
inductive Reply
  /-- The request raises an exception of this class. -/
  | raised (exception : String)
  /-- It is no object. -/
  | invalid
  /-- `retCode != 0` -/
  | failed (retMsg : String)
  /-- `result` is no object. -/
  | noResult
  /-- `result.list` is no list. -/
  | noList
  /-- The orders; `none` for one that is no object. -/
  | orders (rows : List (Option OrderRow))

/-- The exchange, as `verifyFinalFill` sees it: the answer of each attempt. -/
abbrev Requester := ℕ → Source → Query → Reply

/-- The order, as `_status_row` returns it. -/
structure StatusRow where
  source : String := ""
  orderId : String := ""
  orderLinkId : String := ""
  orderStatus : String := ""
  cumExecQty : Option String := none
  avgPrice : Option String := none
  deriving DecidableEq

inductive FillState
  | filled
  | invalidFill
  | partialFill
  | cancelled
  | rejected
  | pending
  | unknown
  | timeout
  | createRejected
  | invalidCreateResponse
  | verificationError
  deriving DecidableEq

/-- The result of `verifyFinalFill`. `ok` and `finalFilled` are `accepted`. -/
structure Verification extends StatusRow where
  accepted : Bool
  state : FillState
  terminal : Bool
  unresolved : Bool
  attempts : ℕ
  reason : String
  deriving DecidableEq

/-- `text or default` -/
def textOr (text default : String) : String := if text = "" then default else text

/-- `_decimal(value)` -/
def decimal (value : Option String) : Option ℚ := (value.bind decimalOfText).join

/-- `_positive(value)` -/
def positive (value : Option String) : Bool :=
  match decimal value with
  | some q => 0 < q
  | none => false

/-- `_normalized_status(value)`: the statuses of the exchange are ASCII texts. -/
def normalizedStatus (value : String) : String :=
  String.ofList ((value.toList.filter Char.isAlphanum).map Char.toLower)

def filledStatuses : List String := ["filled"]
def cancelledStatuses : List String := ["cancelled", "canceled", "deactivated", "expired"]
def rejectedStatuses : List String := ["rejected"]
def partialTerminalStatuses : List String :=
  ["partiallyfilledcanceled", "partiallyfilledcancelled"]
def partialPendingStatuses : List String := ["partiallyfilled"]
def pendingStatuses : List String :=
  ["new", "untriggered", "triggered", "active", "created", "pending"]

/-- `_status_row(payload, source)`: the first order, or what is wrong with the answer. -/
def statusRow (source : String) : Reply → Except String StatusRow
  | .raised exception => .error s!"{source}: {exception}"
  | .invalid => .error s!"{source} returned an invalid response"
  | .failed retMsg => .error (textOr retMsg s!"{source} query failed")
  | .noResult => .error s!"{source} result payload is invalid"
  | .noList => .error s!"{source} order list is invalid"
  | .orders [] => .error s!"{source} has no matching order"
  | .orders (none :: _) => .error s!"{source} order row is invalid"
  | .orders (some row :: _) => .ok
    { source := source
      orderId := row.orderId.getD ""
      orderLinkId := row.orderLinkId.getD ""
      orderStatus := textOr (row.orderStatus.getD "") "Unknown"
      cumExecQty := row.cumExecQty
      avgPrice := row.avgPrice }

/-- `_classified(record, attempt)` -/
def classified (row : StatusRow) (attempt : ℕ) : Verification :=
  let status := normalizedStatus row.orderStatus
  let executed := positive row.cumExecQty
  let base : Verification :=
    { row with
      accepted := false, state := .unknown, terminal := false, unresolved := true,
      attempts := attempt, reason := "" }
  if status ∈ filledStatuses ∧ executed then
    { base with
      accepted := true
      state := .filled
      terminal := true
      unresolved := false
      reason := "Order is Filled with positive executed quantity." }
  else if status ∈ filledStatuses then
    { base with
      state := .invalidFill
      terminal := true
      unresolved := true
      reason := "Bybit reported Filled without a positive executed quantity." }
  else if status ∈ partialTerminalStatuses ∨
      executed ∧ status ∈ cancelledStatuses ++ rejectedStatuses then
    { base with
      state := .partialFill
      terminal := true
      unresolved := true
      reason := "Order ended with executed quantity below a verified full fill; " ++
        "operator review is required." }
  else if status ∈ cancelledStatuses then
    { base with
      state := .cancelled
      terminal := true
      unresolved := false
      reason := "Order reached terminal status " ++ textOr row.orderStatus "Cancelled" ++ "." }
  else if status ∈ rejectedStatuses then
    { base with
      state := .rejected
      terminal := true
      unresolved := false
      reason := "Order was rejected by Bybit." }
  else if status ∈ partialPendingStatuses ∨ executed then
    { base with
      state := .partialFill
      terminal := false
      unresolved := true
      reason := "Order is only partially filled." }
  else
    { base with
      state := if status ∈ pendingStatuses then .pending else .unknown
      terminal := false
      unresolved := true
      reason := "Order has not reached a verified full fill (" ++
        textOr row.orderStatus "Unknown" ++ ")." }

/-- The orders that an attempt finds, and what went wrong with the other requests. -/
def polled (requester : Requester) (query : Query) (attempt : ℕ) :
    List Verification × List String :=
  let replies := [Source.realtime, .history].map fun source =>
    statusRow source.text (requester attempt source query)
  (replies.filterMap fun reply => reply.toOption.map (classified · attempt),
    replies.filterMap fun reply => match reply with
      | .error message => some message
      | .ok _ => none)

/-- The candidate that ends the polling: one that is filled, or else one that is terminal. -/
def decided (candidates : List Verification) : Option Verification :=
  (candidates.find? (·.accepted)).or (candidates.find? (·.terminal))

/-- `last`, after an attempt that found `candidates`. -/
def latest (last : Option Verification) : List Verification → Option Verification
  | [] => last
  | c :: candidates => some (((c :: candidates).find? (·.state = .partialFill)).getD c)

/-- What remains when the attempts are used up. -/
def deadline (orderResult : OrderResult) (attempts : ℕ) (last : Option Verification)
    (errors : List String) : Verification :=
  match last with
  | some last =>
    { last with
      state := if last.state = .partialFill then .partialFill else .timeout
      terminal := false
      unresolved := true
      reason := "Final full fill was not confirmed before the verification deadline." }
  | none =>
    { orderId := orderResult.orderId
      orderLinkId := orderResult.orderLinkId
      accepted := false
      state := .verificationError
      terminal := false
      unresolved := true
      attempts := attempts
      reason := textOr ("; ".intercalate (errors.drop (errors.length - 4)))
        "Order status verification failed." }

/-- The attempts, of which the last `n` are left. -/
def pollFrom (orderResult : OrderResult) (requester : Requester) (query : Query)
    (attempts : ℕ) : ℕ → Option Verification → List String → Verification
  | 0, last, errors => deadline orderResult attempts last errors
  | n + 1, last, errors =>
    let (candidates, failures) := polled requester query (attempts - n)
    match decided candidates with
    | some verification => verification
    | none =>
      pollFrom orderResult requester query attempts n (latest last candidates) (errors ++ failures)

/-- The query for an order. -/
def queryOf (symbol : String) (orderResult : OrderResult) : Query :=
  if orderResult.orderId ≠ "" then
    { symbol := symbol, orderId := some orderResult.orderId, orderLinkId := none }
  else { symbol := symbol, orderId := none, orderLinkId := some orderResult.orderLinkId }

/-- `verify_final_fill(symbol, order_result, requester, attempts)`: `none` is an order result
    that is no object. -/
def verifyFinalFill (symbol : String) (orderResult : Option OrderResult) (requester : Requester)
    (attempts : ℤ) : Verification :=
  match orderResult with
  | none =>
    { accepted := false
      state := .invalidCreateResponse
      terminal := true
      unresolved := true
      attempts := 0
      reason := "Order-create response is invalid." }
  | some orderResult =>
    if orderResult.retCode ≠ some 0 then
      { accepted := false
        state := .createRejected
        terminal := true
        unresolved := false
        attempts := 0
        reason := textOr orderResult.retMsg "Order create was rejected." }
    else if orderResult.orderId = "" ∧ orderResult.orderLinkId = "" then
      { accepted := false
        state := .verificationError
        terminal := false
        unresolved := true
        attempts := 0
        reason := "Order acknowledgement did not include an order identifier." }
    else
      let total := (max 1 attempts).toNat
      pollFrom orderResult requester (queryOf symbol orderResult) total total none []

/-! ## Verdicts -/

/-- An order is *resolved* by a verification that is accepted, or else terminal with
    nothing executed. -/
def Verification.Sound (v : Verification) : Prop :=
  (v.accepted = true → v.terminal = true ∧ v.unresolved = false) ∧
    (v.unresolved = false → v.terminal = true)

theorem classified_sound (row : StatusRow) (attempt : ℕ) : (classified row attempt).Sound := by
  simp only [classified]
  split_ifs <;> simp [Verification.Sound]

theorem polled_sound (requester : Requester) (query : Query) (attempt : ℕ) :
    ∀ v ∈ (polled requester query attempt).1, v.Sound := by
  intro v hv
  obtain ⟨reply, -, hreply⟩ := List.mem_filterMap.1 hv
  obtain ⟨row, -, rfl⟩ := Option.map_eq_some_iff.1 hreply
  exact classified_sound row attempt

theorem mem_of_decided {candidates : List Verification} {v : Verification}
    (h : decided candidates = some v) : v ∈ candidates := by
  rcases Option.or_eq_some_iff.1 h with h | ⟨-, h⟩
  · exact List.mem_of_find?_eq_some h
  · exact List.mem_of_find?_eq_some h

/-- When the polling goes on, nothing was filled. -/
theorem not_accepted_of_decided {candidates : List Verification}
    (h : decided candidates = none) : ∀ v ∈ candidates, v.accepted = false := by
  intro v hv
  have hfind := List.find?_eq_none.1 (Option.or_eq_none_iff.1 h).1 v hv
  simpa using hfind

theorem latest_eq (last : Option Verification) (candidates : List Verification) :
    latest last candidates = last ∨ ∃ v ∈ candidates, latest last candidates = some v := by
  cases candidates with
  | nil => exact .inl rfl
  | cons c candidates =>
    refine .inr ⟨_, ?_, rfl⟩
    cases h : (c :: candidates).find? (·.state = .partialFill) with
    | none => simp
    | some v => simpa using List.mem_of_find?_eq_some h

theorem deadline_sound (orderResult : OrderResult) (attempts : ℕ) {last : Option Verification}
    (errors : List String) (hlast : ∀ v ∈ last, v.accepted = false) :
    (deadline orderResult attempts last errors).Sound := by
  cases last with
  | none => simp [deadline, Verification.Sound]
  | some v => simp [deadline, Verification.Sound, hlast v rfl]

theorem pollFrom_sound (orderResult : OrderResult) (requester : Requester) (query : Query)
    (attempts n : ℕ) {last : Option Verification} (errors : List String)
    (hlast : ∀ v ∈ last, v.accepted = false) :
    (pollFrom orderResult requester query attempts n last errors).Sound := by
  induction n generalizing last errors with
  | zero => exact deadline_sound orderResult attempts errors hlast
  | succ n ih =>
    simp only [pollFrom]
    cases hd : decided (polled requester query (attempts - n)).1 with
    | some v => exact polled_sound requester query _ v (mem_of_decided hd)
    | none =>
      refine ih _ ?_
      intro v hv
      rcases latest_eq last (polled requester query (attempts - n)).1 with h | ⟨w, hw, h⟩
      · exact hlast v (h ▸ hv)
      · obtain rfl : w = v := by simpa [h] using hv
        exact not_accepted_of_decided hd w hw

/-- What is verified as not unresolved is terminal, and what is accepted is resolved. -/
theorem verifyFinalFill_sound (symbol : String) (orderResult : Option OrderResult)
    (requester : Requester) (attempts : ℤ) :
    (verifyFinalFill symbol orderResult requester attempts).Sound := by
  unfold verifyFinalFill
  split
  · simp [Verification.Sound]
  · split_ifs
    · simp [Verification.Sound]
    · simp [Verification.Sound]
    · exact pollFrom_sound _ _ _ _ _ _ (by simp)

end IntradayBot.Fill
