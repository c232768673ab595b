import IntradayBot.Node.Service

/-!
# The hybrid repository

Commands live in two stores: in memory (`direct`), where candidates arrive, and
in the table of the database, which only supports. The repository looks into the
memory first. Every call to the database is optional: it is made only while the
database is thought ready, and when it fails the repository goes on without
(`degrade`) for good. A transition that cannot be written becomes a copy in
memory, the *shadow* of the row.
-/

namespace IntradayBot.Node

open Coop

namespace Memory

/-- `this.database && this.support.databaseReady` -/
def usable (m : Memory) : Bool := m.database && m.databaseReady

/-- `_degrade(error)` -/
def degrade (m : Memory) (message : String) : Memory :=
  { m with databaseReady := false, lastError := some message }

/-- The leadership is only claimed in this process from now on. -/
def loseLeadership (m : Memory) : Memory :=
  { m with databaseLeadership := false, localLeader := true }

/-- `this.direct.set(command.candidateKey, command)` -/
def putDirect (m : Memory) (command : Command) : Memory :=
  { m with direct := m.direct.put command }

/-- The commands in memory in a state of `ACTIVE`. -/
def activeDirect (m : Memory) : List Command := m.direct.commands.filter (·.state.Active)

end Memory

/-! ## The database -/

namespace ExecutionRepository

/-- `verifyLeadership()` -/
def verifyLeadership : Proc Bool :=
  Prog.handle (do
    database .leaderAlive
    return true) fun _ => return false

/-- `claim(ownerId, slotId)` -/
def claim (ownerId : String) (slotId now : ℕ) : Proc (Option Command) := do
  Prog.require (slotId = 1 ∨ slotId = 2 ∨ slotId = 3) (.error "slotId must be 1, 2, or 3")
  database (.claim ownerId slotId now)

/-- `transition(command, nextState)` -/
def transition (command : Command) (nextState : CommandState) (now : ℕ) : Proc Command :=
  if edge : nextState ∈ CommandState.TRANSITIONS command.state then do
    match ← database (.updateState command nextState edge now) with
    | some row => return row
    | none => throw (.error "Execution command transition lost ownership, slot, or state changed")
  else throw (.error s!"Invalid transition {command.state.text}->{nextState.text}")

end ExecutionRepository

namespace HybridRepository

/-- The error of a call to the database is only noted. -/
def orDegrade {α : Type} (call : Proc α) (fallback : α) : Proc α :=
  Prog.handle call fun e => do
    Prog.modify (·.degrade e.message)
    return fallback

/-! ## Leadership -/

/-- `verifyLeadership()` -/
def verifyLeadership : Proc Bool := do
  let (asks, localLeader) ← Prog.read fun m =>
    (m.databaseLeadership && m.database, m.localLeader)
  if asks then
    Prog.handle (do
      if ← ExecutionRepository.verifyLeadership then return true
      else do
        Prog.modify fun m => m.loseLeadership.degrade
          "PostgreSQL leader session was lost; continuing only with in-process direct ownership"
        return true) fun e => do
      Prog.modify fun m => m.loseLeadership.degrade e.message
      return true
  else return localLeader

/-! ## Intake -/

/-- The checks of `acceptDirectCandidate(payload)`, and the key of the candidate. -/
def directCandidateKey (payload : Json) : Except JsError String :=
  let candidateKey := Json.trim (Json.textOrEmpty (payload.get "candidateKey"))
  let symbol := Json.upperCase (Json.trim (Json.textOrEmpty (payload.get "symbol")))
  let side := Json.textOrEmpty (payload.get "side")
  let grade := Json.textOrEmpty (payload.get "grade")
  if candidateKey = "" ∨ symbol = "" ∨ side ∉ ["Buy", "Sell"] then
    .error (.error "Direct candidate identity is invalid")
  else if grade ∉ ["A+", "A"] then .error (.error "Direct candidate must be A+ or A")
  else if !Json.isTrue (payload.get "riskApproved") ∨
      Json.toText (payload.get "riskStatus") ≠ "APPROVED_RISK" then
    .error (.error "Direct candidate must be Entry-Safety approved")
  else if Json.toNumber (payload.get "riskPerTradePct") ≠ some 1 then
    .error (.error "Direct candidate riskPerTradePct must equal 1.0")
  else if !Json.isFalse (payload.get "orderSubmitted") then
    .error (.error "Direct candidate must be unsubmitted")
  else .ok candidateKey

/-- The command of a candidate that just arrived. -/
def directCommand (candidateKey : String) (payload : Json) (now : ℕ) : Command where
  candidateKey := candidateKey
  slotId := none
  state := .available
  payload := payload
  ownerId := none
  createdAt := now
  updatedAt := now
  source := .direct

/-- `acceptDirectCandidate(payload)`: the command, and whether it is a duplicate. -/
def acceptDirectCandidate (payload : Json) (m : Memory) : Except JsError (Command × Bool) × Memory :=
  match directCandidateKey payload with
  | .error e => (.error e, m)
  | .ok candidateKey => match m.direct.get? candidateKey with
    | some existing =>
      if existing.payload.canonical ≠ payload.canonical then
        (.error (.error
          "candidateKey already exists with different immutable signal/risk facts"), m)
      else (.ok (existing, true), m)
    | none =>
      let command := directCommand candidateKey payload m.now
      (.ok (command, false), m.putDirect command)

/-! ## Commands for the slots -/

/-- The active commands: those in memory, and the rows whose key is not among them. -/
def mergeActive (memory rows : List Command) : List Command :=
  memory ++ rows.filter fun row => row.candidateKey ∉ memory.map Command.candidateKey

/-- `activeCommands()` -/
def activeCommands : Proc (List Command) := do
  let (memory, usable) ← Prog.read fun m => (m.activeDirect, m.usable)
  if usable then do
    let rows ← orDegrade (database .selectActive) []
    return mergeActive memory rows
  else return memory

/-- The earliest candidate in memory. -/
def firstAvailable (m : Memory) : Option Command :=
  earliest (fun a b => m.localeCompare a b ≠ .gt) (m.direct.commands.filter (·.state = .available))

theorem firstAvailable_some {m : Memory} {c : Command} (h : firstAvailable m = some c) :
    m.direct.get? c.candidateKey = some c ∧ c.state = .available := by
  have hmem := mem_of_earliest h
  simpa only [List.mem_filter, CommandMap.mem_commands, decide_eq_true_eq] using hmem

/-- It is reserved for a slot, if there is one. -/
def claimDirect (ownerId : String) (slotId : ℕ) (m : Memory) : Option Command × Memory :=
  match firstAvailable m with
  | some stored =>
    let reserved : Command :=
      { stored with
        state := .reserved
        slotId := some slotId
        ownerId := some ownerId
        updatedAt := m.now }
    (some reserved, m.putDirect reserved)
  | none => (none, m)

/-- `claim(ownerId, slotId)` -/
def claim (ownerId : String) (slotId : ℕ) : Proc (Option Command) := do
  Prog.require (slotId = 1 ∨ slotId = 2 ∨ slotId = 3) (.error "slotId must be 1, 2, or 3")
  let active ← activeCommands
  if 3 ≤ active.length ∨ ∃ c ∈ active, c.slotId = some slotId then return none
  else do
    let (direct, usable, now) ← Prog.atomically fun m =>
      (((claimDirect ownerId slotId m).1, m.usable, m.now), (claimDirect ownerId slotId m).2)
    match direct with
    | some command => return some command
    | none =>
      if usable then
        orDegrade (do
          let row ← ExecutionRepository.claim ownerId slotId now
          return row.map ({ · with source := .postgresql })) none
      else return none

/-- The command in memory that a slot is working on. -/
def ownedDirect (ownerId : String) (slotId : ℕ) (m : Memory) : Option Command :=
  m.direct.commands.find? fun c =>
    c.ownerId = some ownerId ∧ c.slotId = some slotId ∧ c.state.Active

/-- `ownedActiveCommand(ownerId, slotId)` -/
def ownedActiveCommand (ownerId : String) (slotId : ℕ) : Proc (Option Command) := do
  let (direct, usable) ← Prog.read fun m => (ownedDirect ownerId slotId m, m.usable)
  match direct with
  | some command => return some command
  | none =>
    if usable then
      orDegrade (do
        let row ← database (.selectOwned ownerId slotId)
        return row.map ({ · with source := .postgresql })) none
    else return none

/-! ## Transitions -/

/-- `command.payload || stored.payload` -/
def payloadOr (payload stored : Json) : Json := if Json.truthy (some payload) then payload else stored

/-- The copy in memory of a row that could not be written. -/
def shadow (command : Command) (nextState : CommandState) (now : ℕ) : Command :=
  { command with state := nextState, updatedAt := now, source := .dbShadow }

/-- The entry of a command in memory, moved to a state. -/
def moved (stored command : Command) (nextState : CommandState) (now : ℕ) : Command :=
  { stored with
    state := nextState
    slotId := command.slotId
    ownerId := command.ownerId
    payload := payloadOr command.payload stored.payload
    updatedAt := now }

/-- The part of `transition` in memory; `none` leaves it to the database. -/
def transitionDirect (command : Command) (nextState : CommandState) (m : Memory) :
    Option Command × Memory :=
  match m.direct.get? command.candidateKey with
  | some stored =>
    let command := moved stored command nextState m.now
    (some command, m.putDirect command)
  | none =>
    if m.usable then (none, m)
    else
      let command := shadow command nextState m.now
      (some command, m.putDirect command)

/-- `transition(command, nextState)` -/
def transition (command : Command) (nextState : CommandState) : Proc Command := do
  let (direct, now) ← Prog.atomically fun m =>
    (((transitionDirect command nextState m).1, m.now), (transitionDirect command nextState m).2)
  match direct with
  | some moved => return moved
  | none =>
    Prog.handle (do
      let row ← ExecutionRepository.transition command nextState now
      return { row with source := .postgresql }) fun e =>
      Prog.atomically fun m =>
        let command := shadow command nextState m.now
        (command, (m.degrade e.message).putDirect command)

/-! ## Records -/

/-- The margin reserved by a payload: `Number(payload?.requiredInitialMarginUsdt || 0)`. -/
def payloadMargin (payload : Json) : Option ℚ :=
  Json.numberOrZero (payload.get "requiredInitialMarginUsdt")

/-- The commands in memory about to be executed, other than that of a key. -/
def pendingDirect (candidateKey : String) (m : Memory) : List Command :=
  m.direct.commands.filter fun c => c.candidateKey ≠ candidateKey ∧
    (c.state = .reserved ∨ c.state = .orderPending)

/-- The margin that they reserve; `none` is `NaN`. -/
def reservedDirect (candidateKey : String) (m : Memory) : Option ℚ :=
  (pendingDirect candidateKey m).foldl
    (fun sum c => do return (← sum) + (← payloadMargin c.payload)) (some 0)

/-- The rest of `pendingReservedMargin`, once the sum over the memory is taken. -/
def addReservedRows (candidateKey : String) (amount : Option ℚ) (usable : Bool) :
    Proc (Option ℚ) :=
  if usable then do
    let rows ← orDegrade (database (.reservedMargin candidateKey)) 0
    return amount.map fun a => max 0 (a + rows)
  else return amount.map (max 0)

/-- `pendingReservedMargin(candidateKey)` -/
def pendingReservedMargin (candidateKey : String) : Proc (Option ℚ) := do
  let (amount, usable) ← Prog.read fun m => (reservedDirect candidateKey m, m.usable)
  addReservedRows candidateKey amount usable

/-- `getManagementState(candidateKey)` -/
def getManagementState (candidateKey : String) : Proc (Option ManagementState) := do
  let (known, usable) ← Prog.read fun m => (m.management.get? candidateKey, m.usable)
  match known with
  | some state => return some state
  | none =>
    if usable then
      orDegrade (do
        match ← database (.selectManagement candidateKey) with
        | some state => do
          Prog.modify fun m => { m with management := m.management.set candidateKey state }
          return some state
        | none => return none) none
    else return none

/-- `putManagementState(candidateKey, state)` -/
def putManagementState (candidateKey : String) (state : ManagementState) : Proc Unit := do
  let usable ← Prog.atomically fun m =>
    (m.usable, { m with management := m.management.set candidateKey state })
  if usable then orDegrade (database (.upsertManagement candidateKey state)) ()
  else return ()

/-- The part of `recordOrder` in memory. -/
def recordOrderDirect (command : Command) (m : Memory) : Memory :=
  match m.direct.get? command.candidateKey with
  | some stored => m.putDirect { stored with payload := payloadOr command.payload stored.payload }
  | none => m

/-- `recordOrder(command, status, evidence)`: the evidence is left out. -/
def recordOrder (command : Command) (status : String) : Proc Unit := do
  let usable ← Prog.atomically fun m => (m.usable, recordOrderDirect command m)
  if usable then orDegrade (database (.upsertOrder command.candidateKey status)) ()
  else return ()

/-- The fills of a command, one row each. -/
def insertFills (candidateKey : String) : List ExecutionRow → Proc Unit
  | [] => return ()
  | execution :: executions => do
    let fillKey := Json.trim (Json.textOrEmpty execution.execId)
    if fillKey = "" ∨ (Json.numberOrZero execution.execQty).any (· ≤ 0) then
      insertFills candidateKey executions
    else do
      database (.insertFill candidateKey fillKey)
      insertFills candidateKey executions

/-- `recordFills(command, executions)` -/
def recordFills (command : Command) (executions : List ExecutionRow) : Proc Unit := do
  let usable ← Prog.read Memory.usable
  if usable then orDegrade (insertFills command.candidateKey executions) ()
  else return ()

/-- `markExecutionPayload(command, payload)` -/
def markExecutionPayload (command : Command) (payload : Json) (m : Memory) : Command × Memory :=
  match m.direct.get? command.candidateKey with
  | some stored =>
    ({ command with payload := payload },
      m.putDirect { stored with payload := payload, updatedAt := m.now })
  | none => (command, m)

/-! ## What the programs leave alone -/

/-- A segment that leaves the commands in memory and the calls alone, and does not
    make the database ready. -/
structure Quiet (f : Memory → Memory) : Prop where
  direct : ∀ m, (f m).direct = m.direct
  calls : ∀ m, (f m).calls = m.calls
  database : ∀ m, (f m).database = m.database
  databaseReady : ∀ m, (f m).databaseReady = true → m.databaseReady = true

/-- A request that neither claims nor updates a row, nor reaches an order or a
    position. -/
def QuietOp : Op → Prop
  | .db o => o.Quiet
  | .bybit (.createOrder _) | .bybit (.setTradingStop _) => False
  | _ => True

theorem quiet_id : Quiet fun m => m := ⟨fun _ => rfl, fun _ => rfl, fun _ => rfl, fun _ h => h⟩

theorem quiet_degrade (message : String) : Quiet (·.degrade message) :=
  ⟨fun _ => rfl, fun _ => rfl, fun _ => rfl, fun _ h => by cases h⟩

theorem quiet_setManagement (candidateKey : String) (state : ManagementState) :
    Quiet fun m => { m with management := m.management.set candidateKey state } :=
  ⟨fun _ => rfl, fun _ => rfl, fun _ => rfl, fun _ h => h⟩

section

variable {α : Type} {F : (Memory → Memory) → Prop} {A : Op → Prop}

theorem all_orDegrade {call : Proc α} {fallback : α} (hF : ∀ message, F (·.degrade message))
    (h : call.All F A) : (orDegrade call fallback).All F A :=
  h.handle fun _ => .bind (.modify (hF _)) fun _ => .ret _

theorem all_recordOrder {command : Command} {status : String} (h : F (recordOrderDirect command))
    (hF : ∀ message, F (·.degrade message)) (hA : A (.db (.upsertOrder command.candidateKey status))) :
    (recordOrder command status).All F A := by
  refine .bind (.atomically h) fun usable => ?_
  split
  · exact all_orDegrade hF (.request hA)
  · exact .ret _

end

/-- A request to the database. -/
def ToDatabase : Op → Prop
  | .db _ => True
  | _ => False

/-- What only calls the database does what every call to it may do. -/
theorem all_of_toDatabase {α : Type} {F : (Memory → Memory) → Prop} {A : Op → Prop} {p : Proc α}
    (hA : ∀ o, A (.db o)) (h : p.All F ToDatabase) : p.All F A := by
  refine h.mono (fun _ hf => hf) fun o ho => ?_
  cases o with
  | db o => exact hA o
  | _ => exact ho.elim

theorem recordOrder_toDatabase (command : Command) (status : String) :
    (recordOrder command status).All (fun _ => True) ToDatabase :=
  all_recordOrder trivial (fun _ => trivial) trivial

theorem transition_toDatabase (command : Command) (nextState : CommandState) :
    (transition command nextState).All (fun _ => True) ToDatabase := by
  refine .bind (.atomically trivial) fun (direct, now) => ?_
  rcases direct with _ | moved
  · refine .handle (.bind ?_ fun row => .ret _) fun e => .atomically trivial
    rw [ExecutionRepository.transition]
    split
    · refine .bind (.request trivial) fun row => ?_
      rcases row with _ | row
      · exact .throw _
      · exact .ret _
    · exact .throw _
  · exact .ret _

theorem verifyLeadership_quiet : verifyLeadership.All Quiet QuietOp := by
  have hlose : ∀ message, Quiet fun m => m.loseLeadership.degrade message := fun message =>
    ⟨fun _ => rfl, fun _ => rfl, fun _ => rfl, fun _ h => by cases h⟩
  refine .bind (.read _ quiet_id) fun (asks, localLeader) => ?_
  dsimp only
  split
  · refine .handle (.bind (.handle (.bind (.request trivial) fun _ => .ret _) fun _ => .ret _)
      fun ok => ?_) fun e => .bind (.modify (hlose _)) fun _ => .ret _
    split
    · exact .ret _
    · exact .bind (.modify (hlose _)) fun _ => .ret _
  · exact .ret _

theorem activeCommands_quiet : activeCommands.All Quiet QuietOp := by
  refine .bind (.read _ quiet_id) fun (memory, usable) => ?_
  dsimp only
  split
  · exact .bind (all_orDegrade quiet_degrade (.request trivial)) fun _ => .ret _
  · exact .ret _

theorem ownedActiveCommand_quiet (ownerId : String) (slotId : ℕ) :
    (ownedActiveCommand ownerId slotId).All Quiet QuietOp := by
  refine .bind (.read _ quiet_id) fun (direct, usable) => ?_
  cases direct with
  | some command => exact .ret _
  | none =>
    dsimp only
    split
    · exact all_orDegrade quiet_degrade (.bind (.request trivial) fun _ => .ret _)
    · exact .ret _

theorem addReservedRows_quiet (candidateKey : String) (amount : Option ℚ) (usable : Bool) :
    (addReservedRows candidateKey amount usable).All Quiet QuietOp := by
  unfold addReservedRows
  split
  · exact .bind (all_orDegrade quiet_degrade (.request trivial)) fun _ => .ret _
  · exact .ret _

theorem getManagementState_quiet (candidateKey : String) :
    (getManagementState candidateKey).All Quiet QuietOp := by
  refine .bind (.read _ quiet_id) fun (known, usable) => ?_
  cases known with
  | some state => exact .ret _
  | none =>
    dsimp only
    split
    · refine all_orDegrade quiet_degrade (.bind (.request trivial) fun state => ?_)
      cases state with
      | some state => exact .bind (.modify (quiet_setManagement _ _)) fun _ => .ret _
      | none => exact .ret _
    · exact .ret _

theorem putManagementState_quiet (candidateKey : String) (state : ManagementState) :
    (putManagementState candidateKey state).All Quiet QuietOp := by
  refine .bind (.atomically (quiet_setManagement _ _)) fun usable => ?_
  split
  · exact all_orDegrade quiet_degrade (.request trivial)
  · exact .ret _

theorem insertFills_quiet (candidateKey : String) (executions : List ExecutionRow) :
    (insertFills candidateKey executions).All Quiet QuietOp := by
  induction executions with
  | nil => exact .ret _
  | cons execution executions ih =>
    unfold insertFills
    dsimp only
    split
    · exact ih
    · exact .bind (.request trivial) fun _ => ih

theorem recordFills_quiet (command : Command) (executions : List ExecutionRow) :
    (recordFills command executions).All Quiet QuietOp := by
  refine .bind (.read _ quiet_id) fun usable => ?_
  split
  · exact all_orDegrade quiet_degrade (insertFills_quiet _ _)
  · exact .ret _

end HybridRepository

end IntradayBot.Node
