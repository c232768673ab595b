import IntradayBot.Data.Json
import IntradayBot.Data.OrdMap

/-!
# Execution commands

A *command* is a candidate trade on its way through execution: claimed by a slot
(`RESERVED`), submitted (`ORDER_PENDING`), filled (`PARTIALLY_FILLED`,
`MANAGING`), closed (`CLOSING`, `CLOSED`) or given up (`FAILED`). The states of a
command only change along `TRANSITIONS`.

Commands are kept by their key (`CommandMap`), in memory as in the table.

The management of the open trade keeps its own record (`ManagementState`), made
once from the position found when it starts (`ManagementPlan`).
-/

namespace IntradayBot.Node

/-- The codes of an `ExecutionWaitError`. -/
inductive WaitCode
  | walletDataWait
  | technicalPlanWait
  | instrumentRuleWait
  | candidateStale
  | duplicateSymbol
  | maxActiveTrades
  | nodeSizingWait
  | insufficientMargin
  deriving DecidableEq, Repr

/-- An error thrown. -/
inductive JsError
  /-- `new Error(message)` -/
  | error (message : String)
  /-- `new ExecutionWaitError(code, message, retryable)` -/
  | wait (code : WaitCode) (message : String) (retryable : Bool)
  /-- An answer of the exchange refusing the request, with its `retCode`. -/
  | api (retCode : ℤ) (message : String)
  deriving DecidableEq, Repr

/-- `error.message` -/
def JsError.message : JsError → String
  | .error message | .wait _ message _ | .api _ message => message

/-- The states of a command. -/
inductive CommandState
  | available
  | reserved
  | orderPending
  | partiallyFilled
  | managing
  | closing
  | closed
  | failed
  deriving DecidableEq, Repr

namespace CommandState

/-- The text of a state. -/
def text : CommandState → String
  | available => "AVAILABLE"
  | reserved => "RESERVED"
  | orderPending => "ORDER_PENDING"
  | partiallyFilled => "PARTIALLY_FILLED"
  | managing => "MANAGING"
  | closing => "CLOSING"
  | closed => "CLOSED"
  | failed => "FAILED"

/-- `ACTIVE` -/
def ACTIVE : List CommandState := [reserved, orderPending, partiallyFilled, managing, closing]

/-- `TERMINAL` -/
def TERMINAL : List CommandState := [closed, failed]

/-- A command in this state occupies its slot. -/
abbrev Active (s : CommandState) : Prop := s ∈ ACTIVE

/-- A command in this state is over. -/
abbrev Terminal (s : CommandState) : Prop := s ∈ TERMINAL

/-- `TRANSITIONS`: the states that may follow. -/
def TRANSITIONS : CommandState → List CommandState
  | reserved => [orderPending, failed]
  | orderPending => [partiallyFilled, managing, failed]
  | partiallyFilled => [managing, closing, failed]
  | managing => [closing, closed, failed]
  | closing => [closed, failed]
  | available | closed | failed => []

theorem active_or_terminal {s : CommandState} (h : s ≠ available) : s.Active ∨ s.Terminal := by
  revert h
  cases s <;> decide

theorem active_reserved : reserved.Active := by decide

theorem not_active_available : ¬available.Active := by decide

theorem Active.ne_available {s : CommandState} (h : s.Active) : s ≠ available := by
  rintro rfl
  revert h
  decide

theorem Active.not_terminal {s : CommandState} (h : s.Active) : ¬s.Terminal := by
  revert h
  cases s <;> decide

theorem active_of_mem_transitions {s t : CommandState} (h : t ∈ TRANSITIONS s) : s.Active := by
  revert h
  cases s <;> cases t <;> decide

theorem ne_of_mem_transitions {s t : CommandState} (h : t ∈ TRANSITIONS s) :
    t ≠ available ∧ t ≠ reserved := by
  revert h
  cases s <;> cases t <;> decide

end CommandState

/-- Where a command came from. -/
inductive Source
  | direct
  | postgresql
  /-- The copy in memory of a row that could not be written. -/
  | dbShadow
  deriving DecidableEq, Repr

/-- A command, or a row of the table `execution_commands`. -/
structure Command where
  candidateKey : String
  slotId : Option ℕ
  state : CommandState
  payload : Json
  ownerId : Option String
  createdAt : ℕ
  updatedAt : ℕ
  source : Source

/-! ## Commands by key -/

/-- The commands of a store, each under its own key. -/
structure CommandMap where
  map : OrdMap String Command
  keyed : ∀ k c, map.get? k = some c → c.candidateKey = k

namespace CommandMap

/-- No command. -/
def empty : CommandMap := ⟨∅, fun k c h => by simp at h⟩

instance : EmptyCollection CommandMap := ⟨empty⟩

/-- The command of key `k`. -/
def get? (m : CommandMap) (k : String) : Option Command := m.map.get? k

/-- The commands, the oldest first. -/
def commands (m : CommandMap) : List Command := m.map.values

/-- The store with `c` under its key. -/
def put (m : CommandMap) (c : Command) : CommandMap where
  map := m.map.set c.candidateKey c
  keyed k d h := by
    rw [OrdMap.get?_set] at h
    split at h
    · rename_i hk
      rw [← Option.some.inj h, hk]
    · exact m.keyed k d h

@[simp] theorem get?_empty (k : String) : (∅ : CommandMap).get? k = none := rfl

@[simp] theorem commands_empty : (∅ : CommandMap).commands = [] := rfl

theorem candidateKey_of_get? {m : CommandMap} {k : String} {c : Command}
    (h : m.get? k = some c) : c.candidateKey = k := m.keyed k c h

theorem get?_put (m : CommandMap) (c : Command) (k : String) :
    (m.put c).get? k = if k = c.candidateKey then some c else m.get? k :=
  OrdMap.get?_set ..

theorem mem_commands {m : CommandMap} {c : Command} :
    c ∈ m.commands ↔ m.get? c.candidateKey = some c := by
  refine OrdMap.mem_values.trans ⟨fun ⟨k, hk⟩ => ?_, fun h => ⟨_, h⟩⟩
  rwa [m.keyed k c hk]

/-- The commands have distinct keys. -/
theorem nodup_keys (m : CommandMap) : (m.commands.map Command.candidateKey).Nodup := by
  have hkeys : m.commands.map Command.candidateKey = m.map.entries.map Prod.fst := by
    rw [commands, OrdMap.values, List.map_map]
    exact List.map_congr_left fun e he => m.keyed e.1 e.2 (OrdMap.mem_entries.1 he)
  exact hkeys ▸ m.map.nodup

end CommandMap

/-- The earliest command of a list, by date of creation, then by key. -/
def earliest (precedes : String → String → Bool) : List Command → Option Command
  | [] => none
  | c :: l => match earliest precedes l with
    | none => some c
    | some d =>
      if c.createdAt < d.createdAt ∨
        c.createdAt = d.createdAt ∧ precedes c.candidateKey d.candidateKey
      then some c else some d

variable {precedes : String → String → Bool}

theorem mem_of_earliest {l : List Command} {c : Command} (h : earliest precedes l = some c) :
    c ∈ l := by
  induction l with
  | nil => simp [earliest] at h
  | cons d l ih =>
    unfold earliest at h
    split at h
    · simp_all
    · rename_i e he
      split at h
      · simp_all
      · exact List.mem_cons_of_mem _ (ih (he.trans h))

/-- The side of an order or of a position. -/
inductive Side
  | buy
  | sell
  deriving DecidableEq, Repr

namespace Side

/-- The text of a side. -/
def text : Side → String
  | buy => "Buy"
  | sell => "Sell"

/-- The side written by a text. -/
def ofText? (s : String) : Option Side :=
  if s = "Buy" then some buy else if s = "Sell" then some sell else none

/-- `direction(side)` -/
def direction : Side → ℚ
  | buy => 1
  | sell => -1

/-- `opposite(side)` -/
def opposite : Side → Side
  | buy => sell
  | sell => buy

end Side

/-- What is fixed when the management of a trade starts. -/
structure ManagementPlan where
  symbol : String
  side : Side
  initialQty : ℚ
  averageEntry : ℚ
  initialStop : ℚ
  riskDistance : ℚ
  tp1Price : ℚ
  tp2Price : ℚ
  deriving DecidableEq

/-- The record of the management of a trade. The plan is missing from the record
    of a trade found closed before its management started. -/
structure ManagementState where
  plan : Option ManagementPlan
  tp1Done : Bool
  tp1ClosedQty : Option ℚ
  breakEvenDone : Bool
  tp2Done : Bool
  tp2ClosedQty : Option ℚ
  trailingActive : Bool
  trailingStop : Option ℚ
  lastObservedQty : Option ℚ
  lastMarkPrice : Option ℚ
  closeReason : Option String
  deriving DecidableEq

/-- The record `{}`. -/
def ManagementState.blank : ManagementState where
  plan := none
  tp1Done := false
  tp1ClosedQty := none
  breakEvenDone := false
  tp2Done := false
  tp2ClosedQty := none
  trailingActive := false
  trailingStop := none
  lastObservedQty := none
  lastMarkPrice := none
  closeReason := none

end IntradayBot.Node
