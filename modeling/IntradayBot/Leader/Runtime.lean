import IntradayBot.Leader.Guard

/-!
# The runtime of a process

A process starts its worker once it leads (`guardedStart`), or else a thread that tries again
until it does (`monitor`). The worker checks before each cycle that its process leads, and runs
the cycle (`guardedRunDueOnce`). A shutdown stops the worker, waits for it for a while, and
releases the lock (`shutdownWorker`, `finalize`).

Every process has five kinds of threads, and all of them interleave (`cloud`). A thread that
waits for its turn is one whose first request is not answered yet. The lock of the promotion,
which one thread holds at a time, is left out: the threads interleave more here.
-/

namespace IntradayBot.Leader

open Coop

/-- A thread that returns an `α`. -/
abbrev Proc (α : Type) : Type := Prog Unit String Op.Val α

/-- `orchestrator.stop(timeout=5.0)` -/
def orchestratorStop : Proc Unit := do
  Prog.request Op.setStopEvent
  Prog.request Op.join

/-- `_start_workers_once(…)` -/
def startWorkersOnce : Proc Bool := do
  if ← Prog.request Op.workersStarted then return true
  else if ← Prog.request Op.shutdownStarted then
    Prog.request Op.release
    return false
  else
    match ← Prog.attempt (Prog.request Op.startOrchestrator) with
    | .error _ =>
      Prog.request Op.release
      return false
    | .ok _ =>
      Prog.request Op.setWorkersStarted
      return true

/-- `_promote_from_standby_once(…)` -/
def promoteFromStandbyOnce : Proc Bool := do
  if ← Prog.request Op.shutdownStarted then return false
  else if ← Prog.request Op.acquire then
    if ← Prog.request Op.shutdownStarted then
      Prog.request Op.release
      return false
    else if ← Prog.request Op.workersStarted then return true
    else startWorkersOnce
  else return false

/-- `monitor()`, one turn -/
def monitor : Proc Unit := do
  Prog.request Op.awaitPromotion
  if ← Prog.request Op.shutdownStarted then Prog.request Op.promotionEnds
  else if ← promoteFromStandbyOnce then Prog.request Op.promotionEnds
  else return ()

/-- `guarded_start(…)` -/
def guardedStart : Proc Unit := do
  if ← Prog.request Op.acquire then
    let _ ← startWorkersOnce
    return ()
  else Prog.request Op.startPromotion

/-- `_ORIGINAL_RUN_DUE_ONCE(…)`: what the cycle does is not what matters here. -/
def runDueOnce : Proc Unit := do
  Prog.request Op.enter
  Prog.request Op.leave

/-- `guarded_run_due_once(…)` -/
def guardedRunDueOnce : Proc Unit := do
  if ← Prog.request Op.check then runDueOnce else Prog.request Op.startPromotion

/-- `_loop(…)`, one turn -/
def loop : Proc Unit := do
  Prog.request Op.awaitThread
  if ← Prog.request Op.stopEvent then Prog.request Op.threadEnds else guardedRunDueOnce

/-- What stops the worker and gives up the leadership: the cleanup of `finalize`, and all of
    `_shutdown_worker`. -/
def shutdownWorker : Proc Unit := do
  orchestratorStop
  Prog.request Op.release
  Prog.request Op.setCleanupDone

/-- `request_shutdown(reason)` -/
def requestShutdown : Proc Unit := do
  Prog.request Op.awaitSignal
  if ← Prog.request Op.beginShutdown then shutdownWorker else return ()

/-- `finalize()` -/
def finalize : Proc Unit := do
  match ← Prog.request Op.beginFinalize with
  | (true, _) => return ()
  | (false, true) => do
    shutdownWorker
    Prog.request Op.setShutdownComplete
  | (false, false) => Prog.request Op.setShutdownComplete

/-- `run()` -/
def main : Proc Unit := do
  guardedStart
  Prog.request Op.serveForever
  finalize
  Prog.request Op.exited

/-- A request to the API that asks for the leadership, and may start a promotion. -/
def apiRequest : Proc Unit := do
  let mutation ← Prog.request Op.awaitRequest
  let leader ← Prog.request Op.isLeader
  if mutation && !leader then Prog.request Op.startPromotion else return ()

/-- The threads of a process; the API has any number of them. -/
inductive Thread
  | main
  | worker
  | promotion
  | shutdown
  | api (n : ℕ)
  deriving DecidableEq

def Thread.body : Thread → Proc Unit
  | .main => Leader.main
  | .worker => loop
  | .promotion => monitor
  | .shutdown => requestShutdown
  | .api _ => apiRequest

/-- The processes of a deployment, whose sessions may end at any time. -/
def cloud (ι : Type) [DecidableEq ι] : System (ι × Thread) Unit (Cloud ι) String Op.Val where
  body t := t.2.body
  respond t o w a c := Answers t.1 o w.remote a c
  env w w' := w' = w ∨ ∃ s < w.remote.sessions, w' = ⟨w.mem, w.remote.endSession s⟩
  cuts := False

/-- A deployment where nothing has started. -/
def deployed (ι : Type) : Cloud ι where
  lock := none
  sessions := 0
  ended _ := false
  process _ := {}

/-! ## Concrete runs -/

section

variable {ι : Type} [DecidableEq ι]

/-- The answers to a process `p` that leads where the lock is free, and else tries again. -/
def oblige (p : ι) : (o : Op) → World Unit (Cloud ι) → Option (Except String o.Val × Cloud ι)
  | .acquire, w =>
    if (w.remote.process p).connection = none then
      some (if w.remote.lock = none then (.ok true, w.remote.grant p)
        else (.ok false, w.remote.deny p))
    else none
  | .check, w => (w.remote.process p).connection.bind fun s =>
    if (w.remote.process p).leader = true ∧ w.remote.ended s = false then
      some (.ok true, w.remote.set p fun s => { s with cycling := true })
    else none
  | .workersStarted, w => some (.ok (w.remote.process p).workersStarted, w.remote)
  | .shutdownStarted, w => some (.ok (w.remote.process p).shutdownStarted, w.remote)
  | .startOrchestrator, w =>
    if (w.remote.process p).threadAlive = false then
      some (.ok (), w.remote.set p fun s => { s with threadAlive := true, stopEvent := false })
    else none
  | .setWorkersStarted, w => some (.ok (), w.remote.set p fun s => { s with workersStarted := true })
  | .awaitThread, w =>
    if (w.remote.process p).threadAlive = true then some (.ok (), w.remote) else none
  | .stopEvent, w => some (.ok (w.remote.process p).stopEvent, w.remote)
  | .enter, w => some (.ok (), w.remote.set p fun s => { s with running := true })
  | .leave, w => some (.ok (), w.remote.set p fun s => { s with running := false, cycling := false })
  | .startPromotion, w => some (.ok (), w.remote.set p fun s => { s with promoting := true })
  | .awaitPromotion, w =>
    if (w.remote.process p).promoting = true then some (.ok (), w.remote) else none
  | .promotionEnds, w => some (.ok (), w.remote.set p fun s => { s with promoting := false })
  | _, _ => none

theorem oblige_fair (p : ι) (thread : Thread) :
    (Move.run (p, thread) (oblige p)).Fair (cloud ι) := by
  intro o w a r h
  -- Each answer of `oblige` is one the cloud may give; the side conditions are its guards.
  cases o with
  | acquire =>
    obtain ⟨hnone, h⟩ := Option.ite_none_right_eq_some.1 h
    have hleads : ¬(w.remote.process p).Leads := fun hleads => hleads.1 hnone
    split at h
    · obtain ⟨rfl, rfl⟩ : _ = a ∧ _ = r := by simpa using h
      exact .acquireTaken hleads ‹_›
    · obtain ⟨rfl, rfl⟩ : _ = a ∧ _ = r := by simpa using h
      exact .acquireDenied hleads
  | check =>
    obtain ⟨s, hs, h⟩ := Option.bind_eq_some_iff.1 h
    obtain ⟨⟨hleader, hlive⟩, h⟩ := Option.ite_none_right_eq_some.1 h
    obtain ⟨rfl, rfl⟩ : _ = a ∧ _ = r := by simpa using h
    exact .checkKept hs hleader hlive
  | startOrchestrator =>
    obtain ⟨hdead, h⟩ := Option.ite_none_right_eq_some.1 h
    obtain ⟨rfl, rfl⟩ : _ = a ∧ _ = r := by simpa using h
    exact .startThread hdead
  | awaitThread =>
    obtain ⟨halive, h⟩ := Option.ite_none_right_eq_some.1 h
    obtain ⟨rfl, rfl⟩ : _ = a ∧ _ = r := by simpa using h
    exact .awaitThread halive
  | awaitPromotion =>
    obtain ⟨hpromoting, h⟩ := Option.ite_none_right_eq_some.1 h
    obtain ⟨rfl, rfl⟩ : _ = a ∧ _ = r := by simpa using h
    exact .awaitPromotion hpromoting
  | workersStarted | shutdownStarted | setWorkersStarted | stopEvent | enter | leave
  | startPromotion | promotionEnds =>
    obtain ⟨rfl, rfl⟩ : _ = a ∧ _ = r := by simpa [oblige] using h
    constructor
  | _ => simp [oblige] at h

/-- `p` starts, leads, and begins its first cycle. -/
def begins (p : ι) : List (Move (ι × Thread) Unit (Cloud ι) String Op.Val) :=
  List.replicate 5 (.run (p, .main) (oblige p)) ++
    List.replicate 4 (.run (p, .worker) (oblige p))

theorem begins_fair (p : ι) : ∀ m ∈ begins p, m.Fair (cloud ι) := by
  intro m hm
  rcases List.mem_append.1 hm with hm | hm
  · exact List.eq_of_mem_replicate hm ▸ oblige_fair p .main
  · exact List.eq_of_mem_replicate hm ▸ oblige_fair p .worker

/-- The first session ends. -/
def firstEnds : Move (ι × Thread) Unit (Cloud ι) String Op.Val :=
  .env fun w => if 0 < w.remote.sessions then ⟨w.mem, w.remote.endSession 0⟩ else w

theorem firstEnds_fair :
    (firstEnds : Move (ι × Thread) Unit (Cloud ι) String Op.Val).Fair (cloud ι) := by
  intro w
  by_cases h : 0 < w.remote.sessions
  · exact .inr ⟨0, h, by simp [h]⟩
  · exact .inl (by simp [h])

/-- `p` starts where another one leads, and its promotion is denied. -/
def waits (p : ι) : List (Move (ι × Thread) Unit (Cloud ι) String Op.Val) :=
  List.replicate 2 (.run (p, .main) (oblige p)) ++
    List.replicate 5 (.run (p, .promotion) (oblige p))

theorem waits_fair (p : ι) : ∀ m ∈ waits p, m.Fair (cloud ι) := by
  intro m hm
  rcases List.mem_append.1 hm with hm | hm
  · exact List.eq_of_mem_replicate hm ▸ oblige_fair p .main
  · exact List.eq_of_mem_replicate hm ▸ oblige_fair p .promotion

/-- The cycle of `p` ends, and then the first session; `q` is promoted, and begins a cycle. -/
def follows (p q : ι) : List (Move (ι × Thread) Unit (Cloud ι) String Op.Val) :=
  .run (p, .worker) (oblige p) :: firstEnds ::
    (List.replicate 11 (.run (q, .promotion) (oblige q)) ++
      List.replicate 4 (.run (q, .worker) (oblige q)))

theorem follows_fair (p q : ι) : ∀ m ∈ follows p q, m.Fair (cloud ι) := by
  simp only [follows, List.forall_mem_cons, List.forall_mem_append]
  exact ⟨oblige_fair p .worker, firstEnds_fair,
    fun m hm => List.eq_of_mem_replicate hm ▸ oblige_fair q .promotion,
    fun m hm => List.eq_of_mem_replicate hm ▸ oblige_fair q .worker⟩

end

end IntradayBot.Leader
