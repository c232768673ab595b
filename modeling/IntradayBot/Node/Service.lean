import IntradayBot.Coop.Eval
import IntradayBot.Node.Exchange
import IntradayBot.Node.Repository

/-!
# The execution service

The memory that the three slot loops of the service share (`Memory`), and what
they may ask from outside of it (`Op`). A `Proc` is a function of the service:
an asynchronous program over this memory and these requests.

Beside the calls to the database and to the exchange, a program asks which of
two concurrent requests goes first (`Op.toss`), and how often it may poll before
its deadline (`Op.polls`). `Op.held` and `Memory.calls` are ghosts: they record
what each call to the repository for a command found and returned, and nothing
else depends on them.
-/

namespace IntradayBot.Node

open Coop

/-- The loops that execute commands. -/
abbrev Slot := Fin 3

/-- `slotId` -/
def Slot.id (i : Slot) : ℕ := i.val + 1

/-- The slot of id 1. -/
def slot1 : Slot := 0

/-- The slot of id 2. -/
def slot2 : Slot := 1

/-- The slot of id 3. -/
def slot3 : Slot := 2

theorem Slot.id_injective : Function.Injective Slot.id := fun _ _ h =>
  Fin.ext (Nat.succ_injective h)

/-- The calls of a slot to the repository for a command. -/
inductive CallKind
  | ownedActiveCommand
  | claim
  deriving DecidableEq, Repr

/-- A call of a slot for a command: the key that the slot held when it called,
    and the key it was given. -/
structure SlotCall where
  slot : Slot
  kind : CallKind
  held : Option String
  result : Option String
  deriving DecidableEq, Repr

/-- The memory of the service: the fields of the hybrid repository and of its
    `support`, then those of `runtime`. -/
structure Memory where
  /-- `this.database !== null` -/
  database : Bool
  direct : CommandMap
  management : OrdMap String ManagementState
  localLeader : Bool
  databaseLeadership : Bool
  databaseReady : Bool
  lastError : Option String
  leader : Bool
  recoveryRequired : Bool
  stopping : Bool
  /-- `nowSeconds()` -/
  now : ℕ
  /-- `a.localeCompare(b)`, in the locale of the process -/
  localeCompare : String → String → Ordering
  calls : List SlotCall

/-- The memory when the slot loops start: with a database, without one, or with one
    that is not ready. -/
def Memory.startedIn (localeCompare : String → String → Ordering) (database databaseReady : Bool)
    (now : ℕ) : Memory where
  database := database
  direct := ∅
  management := ∅
  localLeader := !(database && databaseReady)
  databaseLeadership := database && databaseReady
  databaseReady := database && databaseReady
  lastError := none
  leader := true
  recoveryRequired := false
  stopping := false
  now := now
  localeCompare := localeCompare
  calls := []

/-- It, where texts are compared by their code points. -/
abbrev Memory.started : Bool → Bool → ℕ → Memory := .startedIn compare

/-- What a program of the service may ask for. -/
inductive Op
  | db (o : DbOp)
  | bybit (o : BybitOp)
  | toss
  | polls
  | held (slot : Slot)

/-- What it is answered. -/
abbrev Op.Val : Op → Type
  | .db o => o.Val
  | .bybit o => o.Val
  | .toss => Bool
  | .polls => ℕ
  | .held _ => Option String

/-- The functions of the service. -/
abbrev Proc (α : Type) := Prog Memory JsError Op.Val α

/-- A call to the database. -/
def database (o : DbOp) : Proc o.Val := Prog.request (Op.db o)

/-- A request to the exchange. -/
def bybit (o : BybitOp) : Proc o.Val := Prog.request (Op.bybit o)

/-- `Promise.all([p, q])` -/
def both {α β : Type} (p : Proc α) (q : Proc β) : Proc (α × β) :=
  Prog.par Op.toss (fun a => match a with | .ok b => b | .error _ => true) p q

/-- The answers to a program run alone that only calls the database, where the call
    `o` ends as `out o` says. -/
def answerDb (out : DbOp → Outcome) :
    (o : Op) → World Memory Tables → Except JsError o.Val × Tables
  | .db o, w => o.answer (out o) w.remote
  | .bybit _, w => (.error (.error "not asked"), w.remote)
  | .toss, w => (.ok true, w.remote)
  | .polls, w => (.ok 0, w.remote)
  | .held _, w => (.ok none, w.remote)

end IntradayBot.Node
