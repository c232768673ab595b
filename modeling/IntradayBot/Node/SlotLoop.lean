import IntradayBot.Coop.Rely
import IntradayBot.Node.Executor
import IntradayBot.Node.TradeManager

/-!
# The slot loops

The service runs three loops, one per slot. In each turn, a loop takes the
command that its slot is working on, or claims one, and takes it one step
further: a command not yet executed is executed, a managed one gets a cycle, and
a closing one is closed when its position is gone (`processCommand`).

`service` puts the loops together: they share the memory of the service, and the
tables and the exchange behind it. Candidates arrive from outside, in memory and
in the table. Nothing is known of the exchange here (`ExchangeModel`), but the
orders that were sent are recorded.
-/

namespace IntradayBot.Node

open Coop

namespace SlotLoop

/-- `processCommand(command)` -/
def processCommand (config : Config) (command : Command) : Proc Command := do
  match command.state with
  | .reserved => do
    Prog.ofExcept (assertFirstTradeCandidate command.payload)
    Executor.execute config command
  | .orderPending => Executor.execute config command
  | .partiallyFilled | .managing => TradeManager.cycle command
  | .closing => do
    let positions ← bybit (.position (Json.toText (command.payload.get "symbol")))
    let stillOpen := positions.any fun row =>
      row.isOpen && Json.toText row.side = Json.toText (command.payload.get "side")
    if stillOpen then return command
    else do
      HybridRepository.recordOrder command "CLOSING_RECONCILED"
      HybridRepository.transition command .closed
  | _ => return command

/-- `ownerId` of a slot. -/
def owner (config : Config) (slot : Slot) : String :=
  s!"{config.ownerId}:slot{slot.id}"

/-- A call of a slot for a command, recorded. -/
def recorded (slot : Slot) (kind : CallKind) (call : Proc (Option Command)) :
    Proc (Option Command) := do
  let held ← Prog.request (Op.held slot)
  let command ← call
  Prog.modify fun m =>
    { m with calls := ⟨slot, kind, held, command.map Command.candidateKey⟩ :: m.calls }
  return command

/-- The command that a slot is to work on. -/
def nextCommand (config : Config) (slot : Slot) : Proc (Option Command) := do
  let ownerId := owner config slot
  match ← recorded slot .ownedActiveCommand
    (HybridRepository.ownedActiveCommand ownerId slot.id) with
  | some command => return some command
  | none =>
    if ← Prog.read Memory.recoveryRequired then return none
    else recorded slot .claim (HybridRepository.claim ownerId slot.id)

/-- One turn of `slotLoop(slotId)`. -/
def turn (config : Config) (slot : Slot) : Proc Unit := do
  if ← Prog.read fun m => !m.stopping && m.leader then
    if ← HybridRepository.verifyLeadership then do
      match ← nextCommand config slot with
      | none => return ()
      | some command => do
        let _ ← processCommand config command
        return ()
    else Prog.modify fun m => { m with leader := false }
  else return ()

end SlotLoop

/-! ## The service -/

/-- What is known of the exchange: how it answers, and what happens there. -/
structure ExchangeModel where
  State : Type
  respond : Slot → (o : BybitOp) → State → Except JsError o.Val → State → Prop
  step : State → State → Prop

/-- What is outside of the service. -/
structure Remote (X : ExchangeModel) where
  tables : Tables
  /-- A call to the database has failed. -/
  failed : Bool
  /-- The orders requested, the last one first. -/
  orders : List OrderRequest
  exchange : X.State

/-- The memory of the service, and what is outside of it. -/
abbrev ServiceWorld (X : ExchangeModel) := World Memory (Remote X)

section

variable {X : ExchangeModel}

/-- The command of a key, as the repository sees it. -/
def visible (w : ServiceWorld X) (k : String) : Option Command :=
  (w.mem.direct.get? k).or (w.remote.tables.row? k)

/-- The key of the active command with the id of a slot, in memory or else in the
    table. -/
def heldKey (w : ServiceWorld X) (slot : Slot) : Option String :=
  ((w.mem.activeDirect ++ w.remote.tables.activeRows).find? fun c =>
    c.slotId = some slot.id).map Command.candidateKey

/-- The outcome is a failure. -/
def Outcome.isFailure : Outcome → Bool
  | .done _ => false
  | .lost _ | .unacknowledged _ _ => true

/-- The orders after a request. -/
def requested : BybitOp → List OrderRequest → List OrderRequest
  | .createOrder request, orders => request :: orders
  | _, orders => orders

/-- How a request of a slot may be answered. -/
def respond (slot : Slot) : (o : Op) → ServiceWorld X → Except JsError o.Val → Remote X → Prop
  | .db o, w, a, r => ∃ out, a = (o.answer out w.remote.tables).1 ∧
      r = { w.remote with
        tables := (o.answer out w.remote.tables).2
        failed := w.remote.failed || out.isFailure }
  | .bybit o, w, a, r => ∃ s, X.respond slot o w.remote.exchange a s ∧
      r = { w.remote with exchange := s, orders := requested o w.remote.orders }
  | .toss, w, a, r => (∃ b, a = .ok b) ∧ r = w.remote
  | .polls, w, a, r => (∃ n, a = .ok n) ∧ r = w.remote
  | .held slot, w, a, r => a = .ok (heldKey w slot) ∧ r = w.remote

/-- What happens outside of the loops. -/
inductive Environment : ServiceWorld X → ServiceWorld X → Prop
  /-- A candidate is delivered. -/
  | deliver (payload : Json) (w : ServiceWorld X) :
    Environment w ⟨(HybridRepository.acceptDirectCandidate payload w.mem).2, w.remote⟩
  /-- A candidate is published in the table. -/
  | publish (candidateKey : String) (payload : Json) (now : ℕ) (w : ServiceWorld X) :
    Environment w
      ⟨w.mem, { w.remote with tables := w.remote.tables.publish candidateKey payload now }⟩
  | refresh (candidateKey : String) (payload : Json) (now : ℕ) (w : ServiceWorld X) :
    Environment w
      ⟨w.mem, { w.remote with tables := w.remote.tables.refresh candidateKey payload now }⟩
  | tick (now : ℕ) (w : ServiceWorld X) : Environment w ⟨{ w.mem with now := now }, w.remote⟩
  | exchange (s : X.State) (w : ServiceWorld X) (h : X.step w.remote.exchange s) :
    Environment w ⟨w.mem, { w.remote with exchange := s }⟩
  /-- The service is asked to stop. -/
  | shutdown (w : ServiceWorld X) :
    Environment w ⟨{ w.mem with
      stopping := true, leader := false, localLeader := false, databaseLeadership := false },
      w.remote⟩

/-- The three loops of the service. -/
def service (X : ExchangeModel) (config : Config) :
    System Slot Memory (Remote X) JsError Op.Val where
  body := SlotLoop.turn config
  respond := respond
  env := Environment
  cuts := False

/-- The service when its loops start, nothing in memory and no order requested. -/
structure Starts (w : ServiceWorld X) : Prop where
  mem : ∃ localeCompare database databaseReady now,
    w.mem = .startedIn localeCompare database databaseReady now
  orders : w.remote.orders = []

/-! ## Concrete answers -/

/-- Answers to a slot, given those of the database and of the exchange. -/
def answering (out : DbOp → Outcome)
    (exchange : (o : BybitOp) → X.State → Option (Except JsError o.Val × X.State)) :
    (o : Op) → ServiceWorld X → Option (Except JsError o.Val × Remote X)
  | .db o, w => some ((o.answer (out o) w.remote.tables).1, { w.remote with
      tables := (o.answer (out o) w.remote.tables).2
      failed := w.remote.failed || (out o).isFailure })
  | .bybit o, w => (exchange o w.remote.exchange).map fun (a, s) =>
      (a, { w.remote with exchange := s, orders := requested o w.remote.orders })
  | .toss, w => some (.ok true, w.remote)
  | .polls, w => some (.ok 1, w.remote)
  | .held i, w => some (.ok (heldKey w i), w.remote)

theorem answering_fair (config : Config) {slot : Slot} {out : DbOp → Outcome}
    {exchange : (o : BybitOp) → X.State → Option (Except JsError o.Val × X.State)}
    (h : ∀ o s a s', exchange o s = some (a, s') → X.respond slot o s a s') :
    (Move.run slot (answering out exchange)).Fair (service X config) := by
  intro o w a r ha
  cases o with
  | db o =>
    obtain ⟨rfl, rfl⟩ := Prod.mk.inj (Option.some.inj ha)
    exact ⟨out o, rfl, rfl⟩
  | bybit o =>
    obtain ⟨⟨b, s⟩, hs, hb⟩ := Option.map_eq_some_iff.1 ha
    obtain ⟨rfl, rfl⟩ := Prod.mk.inj hb
    exact ⟨s, h o _ _ s hs, rfl⟩
  | toss =>
    obtain ⟨rfl, rfl⟩ := Prod.mk.inj (Option.some.inj ha)
    exact ⟨⟨true, rfl⟩, rfl⟩
  | polls =>
    obtain ⟨rfl, rfl⟩ := Prod.mk.inj (Option.some.inj ha)
    exact ⟨⟨1, rfl⟩, rfl⟩
  | held slot =>
    obtain ⟨rfl, rfl⟩ := Prod.mk.inj (Option.some.inj ha)
    exact ⟨rfl, rfl⟩

end

end IntradayBot.Node
