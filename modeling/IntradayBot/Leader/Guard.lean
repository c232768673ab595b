import Mathlib.Data.Nat.Notation
import Mathlib.Logic.Function.Basic
import IntradayBot.Coop.System

/-!
# The leader lock

The processes of a deployment agree on who runs the worker by an advisory lock of the
database. The lock belongs to a *session*: it is free again when its session unlocks it or
ends, whichever side ends it (`Cloud.endSession`). The process that takes the lock retains
its session, and asks it whether it is still there (`is_leader`).

A function that holds the `_LOCK` of its process is one request here: the only part of it
that other processes see is one statement of the database (`Answers`).

`Process` has two ghosts: whether the worker is between a check that found it leader and the
end of its cycle, and whether it executes the body of the cycle.
-/

namespace IntradayBot.Leader

/-- The state of a process. -/
structure Process where
  /-- `_CONNECTION`: its retained session -/
  connection : Option ℕ := none
  /-- `_STATE["leader"]` -/
  leader : Bool := false
  /-- `_shutdown_started` -/
  shutdownStarted : Bool := false
  /-- `_cleanup_done` -/
  cleanupDone : Bool := false
  /-- `_shutdown_complete` -/
  shutdownComplete : Bool := false
  /-- `_WORKERS_STARTED` -/
  workersStarted : Bool := false
  /-- `_STOP_EVENT` -/
  stopEvent : Bool := false
  /-- `_THREAD` is alive. -/
  threadAlive : Bool := false
  /-- `_PROMOTION_THREAD` is alive. -/
  promoting : Bool := false
  /-- The worker is between a check that found it leader and the end of its cycle. -/
  cycling : Bool := false
  /-- The worker executes the body of `run_due_once`. -/
  running : Bool := false

/-- The database, and the processes `p : ι`. -/
structure Cloud (ι : Type) where
  /-- The session that holds the lock. -/
  lock : Option ℕ
  /-- The number of sessions so far. -/
  sessions : ℕ
  ended : ℕ → Bool
  process : ι → Process

variable {ι : Type} [DecidableEq ι]

def Cloud.set (c : Cloud ι) (p : ι) (f : Process → Process) : Cloud ι :=
  { c with process := Function.update c.process p (f (c.process p)) }

/-- The session `s` ends, which frees its lock. -/
def Cloud.endSession (c : Cloud ι) (s : ℕ) : Cloud ι :=
  { c with
    lock := if c.lock = some s then none else c.lock
    ended := Function.update c.ended s true }

/-- `p` takes the free lock with a new session. -/
def Cloud.grant (c : Cloud ι) (p : ι) : Cloud ι :=
  { c with lock := some c.sessions, sessions := c.sessions + 1 }.set p fun s =>
    { s with connection := some c.sessions, leader := true }

/-- `p` does not lead. -/
def Cloud.deny (c : Cloud ι) (p : ι) : Cloud ι := c.set p fun s => { s with leader := false }

/-- `p` gives its session up, which ends unless it cannot be reached. -/
def Cloud.drop (c : Cloud ι) (p : ι) (reached : Bool) : Cloud ι :=
  let c' := match (c.process p).connection with
    | some s => if reached then c.endSession s else c
    | none => c
  c'.set p fun s => { s with connection := none, leader := false }

/-- `_CONNECTION is not None and _STATE.get("leader")` -/
def Process.Leads (s : Process) : Prop := s.connection ≠ none ∧ s.leader = true

/-- What the threads of a process ask for. -/
inductive Op
  /-- `runtime_instance_guard.acquire(core)` -/
  | acquire
  /-- `runtime_instance_guard.is_leader()` -/
  | isLeader
  /-- `is_leader()`, as the worker asks before it runs the body -/
  | check
  /-- `runtime_instance_guard.release(core, reason)` -/
  | release
  /-- `_shutdown_started(core)` -/
  | shutdownStarted
  /-- The part of `request_shutdown` that holds the lock: whether the shutdown starts now. -/
  | beginShutdown
  | workersStarted
  | setWorkersStarted
  /-- `_ORIGINAL_ORCHESTRATOR_START(…)`: its installers may throw. -/
  | startOrchestrator
  | setStopEvent
  | stopEvent
  /-- `thread.join(timeout=5.0)`: the thread has ended, or 5 seconds are over. -/
  | join
  /-- The worker is scheduled: `_THREAD` is alive. -/
  | awaitThread
  | threadEnds
  /-- The part of `_start_standby_promotion` that starts the thread, unless it is alive. -/
  | startPromotion
  /-- The promotion thread is scheduled. -/
  | awaitPromotion
  | promotionEnds
  /-- A signal, or another cause of a shutdown. -/
  | awaitSignal
  /-- `server.serve_forever()`, until it ends -/
  | serveForever
  /-- The start of `finalize`: whether it was complete before, and whether there is cleanup. -/
  | beginFinalize
  | setCleanupDone
  | setShutdownComplete
  /-- A request to the API, which may start a promotion. -/
  | awaitRequest
  /-- The body of `run_due_once` begins. -/
  | enter
  /-- It ends. -/
  | leave
  /-- The process has exited. -/
  | exited

/-- The values that requests are answered with. -/
abbrev Op.Val : Op → Type
  | .acquire | .isLeader | .check | .shutdownStarted | .beginShutdown | .workersStarted
  | .stopEvent | .awaitRequest => Bool
  | .beginFinalize => Bool × Bool
  | _ => Unit

/-- The answers to a thread of `p`. -/
inductive Answers (p : ι) : (o : Op) → Cloud ι → Except String o.Val → Cloud ι → Prop
  /-- The session answers: it holds the lock. -/
  | acquireKept {c : Cloud ι} {s : ℕ} : (c.process p).connection = some s →
      (c.process p).leader = true → c.ended s = false → Answers p .acquire c (.ok true) c
  | acquireLost {c : Cloud ι} (reached : Bool) : (c.process p).Leads →
      Answers p .acquire c (.ok false) (c.drop p reached)
  | acquireTaken {c : Cloud ι} : ¬(c.process p).Leads → c.lock = none →
      Answers p .acquire c (.ok true) (c.grant p)
  /-- The lock is held by another session, or the database does not answer. -/
  | acquireDenied {c : Cloud ι} : ¬(c.process p).Leads → Answers p .acquire c (.ok false) (c.deny p)
  | isLeaderKept {c : Cloud ι} {s : ℕ} : (c.process p).connection = some s →
      (c.process p).leader = true → c.ended s = false → Answers p .isLeader c (.ok true) c
  | isLeaderLost {c : Cloud ι} (reached : Bool) : (c.process p).Leads →
      Answers p .isLeader c (.ok false) (c.drop p reached)
  | isLeaderUnchecked {c : Cloud ι} : ¬(c.process p).Leads →
      Answers p .isLeader c (.ok (c.process p).leader) c
  | checkKept {c : Cloud ι} {s : ℕ} : (c.process p).connection = some s →
      (c.process p).leader = true → c.ended s = false →
      Answers p .check c (.ok true) (c.set p fun s => { s with cycling := true })
  | checkLost {c : Cloud ι} (reached : Bool) : (c.process p).Leads →
      Answers p .check c (.ok false) (c.drop p reached)
  | checkUnchecked {c : Cloud ι} : ¬(c.process p).Leads →
      Answers p .check c (.ok (c.process p).leader)
        (c.set p fun s => { s with cycling := s.leader })
  | release {c : Cloud ι} (reached : Bool) : Answers p .release c (.ok ()) (c.drop p reached)
  | shutdownStarted {c : Cloud ι} :
      Answers p .shutdownStarted c (.ok (c.process p).shutdownStarted) c
  | beginShutdown {c : Cloud ι} : Answers p .beginShutdown c (.ok (!(c.process p).shutdownStarted))
      (c.set p fun s => { s with shutdownStarted := true })
  | workersStarted {c : Cloud ι} : Answers p .workersStarted c (.ok (c.process p).workersStarted) c
  | setWorkersStarted {c : Cloud ι} : Answers p .setWorkersStarted c (.ok ())
      (c.set p fun s => { s with workersStarted := true })
  | startFails {c : Cloud ι} (e : String) : Answers p .startOrchestrator c (.error e) c
  | startAlive {c : Cloud ι} : (c.process p).threadAlive = true →
      Answers p .startOrchestrator c (.ok ()) c
  | startThread {c : Cloud ι} : (c.process p).threadAlive = false →
      Answers p .startOrchestrator c (.ok ())
        (c.set p fun s => { s with threadAlive := true, stopEvent := false })
  | setStopEvent {c : Cloud ι} : Answers p .setStopEvent c (.ok ())
      (c.set p fun s => { s with stopEvent := true })
  | stopEvent {c : Cloud ι} : Answers p .stopEvent c (.ok (c.process p).stopEvent) c
  | join {c : Cloud ι} : Answers p .join c (.ok ()) c
  | awaitThread {c : Cloud ι} : (c.process p).threadAlive = true →
      Answers p .awaitThread c (.ok ()) c
  | threadEnds {c : Cloud ι} : Answers p .threadEnds c (.ok ())
      (c.set p fun s => { s with threadAlive := false })
  | startPromotion {c : Cloud ι} : Answers p .startPromotion c (.ok ())
      (c.set p fun s => { s with promoting := true })
  | awaitPromotion {c : Cloud ι} : (c.process p).promoting = true →
      Answers p .awaitPromotion c (.ok ()) c
  | promotionEnds {c : Cloud ι} : Answers p .promotionEnds c (.ok ())
      (c.set p fun s => { s with promoting := false })
  | awaitSignal {c : Cloud ι} : Answers p .awaitSignal c (.ok ()) c
  | serveForever {c : Cloud ι} : Answers p .serveForever c (.ok ()) c
  | beginFinalize {c : Cloud ι} : Answers p .beginFinalize c
      (.ok ((c.process p).shutdownComplete, !(c.process p).cleanupDone))
      (c.set p fun s => { s with shutdownStarted := s.shutdownStarted || !s.shutdownComplete })
  | setCleanupDone {c : Cloud ι} : Answers p .setCleanupDone c (.ok ())
      (c.set p fun s => { s with cleanupDone := true })
  | setShutdownComplete {c : Cloud ι} : Answers p .setShutdownComplete c (.ok ())
      (c.set p fun s => { s with shutdownComplete := true })
  | awaitRequest {c : Cloud ι} (mutation : Bool) : Answers p .awaitRequest c (.ok mutation) c
  | enter {c : Cloud ι} : Answers p .enter c (.ok ()) (c.set p fun s => { s with running := true })
  | leave {c : Cloud ι} : Answers p .leave c (.ok ())
      (c.set p fun s => { s with running := false, cycling := false })

end IntradayBot.Leader
