import IntradayBot.Ledger.Composition

/-!
# The synchronization of the ledger

`LiveExecutionLedgerService.sync` reads the positions, lists the executions of the current day
up to a cutoff, and reads the positions again: it goes on when both reads are the same. The day
that it reconciles is the current one, or the one before, in the end of which the positions are
those before the executions of the current one. `historical_execution_backfill.run` takes the
cutoff first, lists the executions day after day, and reads the positions once they are all
there.

Each of them is a `Task`, that waits for the answer of its next read. Between any two reads,
fills happen; several tasks are under way at the same time, in one process or in
several, and any of them may fail (`Step`). The rows are written in one transaction, each over
the row that is already there for its execution.
-/

namespace IntradayBot.Ledger

/-- `MAX_SNAPSHOT_ATTEMPTS` -/
def MAX_SNAPSHOT_ATTEMPTS : ℕ := 3

/-- `MAX_DAYS` -/
def MAX_DAYS : ℕ := 30

/-- `positions_before == positions_after`, none of which is zero. -/
def Positions.same (p q : Positions) : Bool :=
  (p.entries ++ q.entries).all fun entry => p.at entry.1 = q.at entry.1

/-- The trading days, in milliseconds: `get_trading_day_start_epoch` of each date. -/
structure Calendar where
  start : ℤ → ℤ
  start_lt : ∀ day, start day < start (day + 1)

/-- `_date_window_ms(core, date_key, now_ms)`, unless the date is in the future. -/
def Calendar.window (c : Calendar) (day now : ℤ) : Option (ℤ × ℤ) :=
  if now < c.start day then none else some (c.start day, min now (c.start (day + 1) - 1))

/-- `get_current_trading_date_key()` -/
def Calendar.IsCurrent (c : Calendar) (day now : ℤ) : Prop :=
  c.start day ≤ now ∧ now < c.start (day + 1)

/-- `_fetch_execution_pages(start_ms, end_ms, trading_date)`: the executions in a window, among
    those that there are. In which order they are listed does not matter. -/
def History.listed (h : History) (window : ℤ × ℤ) : List Execution :=
  h.fills.filter fun e => window.1 ≤ e.execTime ∧ e.execTime ≤ window.2

/-! ## Tasks -/

/-- The dates of a sync. -/
structure SyncDates where
  current : ℤ
  trading : ℤ
  trading_eq : trading = current ∨ trading = current - 1

/-- How far a sync or a backfill is. -/
inductive Task
  | idle
  /-- `positions_before` is read next, after so many attempts. -/
  | snapshot (dates : SyncDates) (attempts : ℕ)
  /-- `cutoff_ms` is read next. -/
  | cutoff (dates : SyncDates) (attempts : ℕ) (before : Positions)
  /-- The executions of the current day are listed next. -/
  | executions (dates : SyncDates) (attempts : ℕ) (before : Positions) (cutoffMs : ℤ)
  /-- `positions_after` is read next. -/
  | compare (dates : SyncDates) (attempts : ℕ) (before : Positions) (cutoffMs : ℤ)
      (listed : List Execution)
  /-- The executions of the day before are listed next. -/
  | previous (current cutoffMs : ℤ) (opening : Positions)
  /-- A backfill of so many days reads `now_ms` next. -/
  | backfill (current : ℤ) (days : ℕ)
  /-- The executions of `day` are listed next, and those of so many days after it. -/
  | pages (now day : ℤ) (left : ℕ) (combined : List Execution)
  /-- The positions are read next. -/
  | positions (combined : List Execution)
  /-- `_persist(rows)` is next. -/
  | persist (rows : List LedgerRow)

namespace Task

/-- The positions are read. -/
def onPositions (p : Positions) : Task → Option Task
  | .snapshot dates attempts => some (.cutoff dates attempts p)
  | .compare dates attempts before cutoffMs listed =>
    if before.same p then
      if dates.trading = dates.current then some (.persist (reconcileExecutions listed p))
      else some (.previous dates.current cutoffMs (openingPositionSnapshot listed p))
    else if attempts + 1 < MAX_SNAPSHOT_ATTEMPTS then some (.snapshot dates (attempts + 1))
    else some .idle
  | .positions combined => some (.persist (reconcileExecutions combined p))
  | _ => none

/-- The clock is read. -/
def onClock (now : ℤ) : Task → Option Task
  | .cutoff dates attempts before => some (.executions dates attempts before now)
  | .backfill current days => some (.pages now (current - (days - 1)) (days - 1) [])
  | _ => none

/-- The executions that are asked for are listed. -/
def onExecutions (c : Calendar) (h : History) : Task → Option Task
  | .executions dates attempts before cutoffMs =>
    some (match c.window dates.current cutoffMs with
      | none => .idle
      | some window => .compare dates attempts before cutoffMs (h.listed window))
  | .previous current cutoffMs opening =>
    some (match c.window (current - 1) cutoffMs with
      | none => .idle
      | some window => .persist (reconcileExecutions (h.listed window) opening))
  | .pages now day left combined =>
    some (match c.window day now with
      | none => .idle
      | some window => match left with
        | 0 => .positions (combined ++ h.listed window)
        | left + 1 => .pages now (day + 1) left (combined ++ h.listed window))
  | _ => none

/-- A task as it starts, at a time. -/
inductive Starts (c : Calendar) (now : ℤ) : Task → Prop
  | sync (dates : SyncDates) : c.IsCurrent dates.current now → Starts c now (.snapshot dates 0)
  | backfill (current : ℤ) (days : ℕ) : c.IsCurrent current now → 1 ≤ days → days ≤ MAX_DAYS →
    Starts c now (.backfill current days)

end Task

/-! ## Runs -/

/-- What has happened to the positions, and the ledger, with the tasks under way. -/
structure World (ι : Type) where
  history : History
  clock : ℤ
  /-- `live_execution_ledger` -/
  ledger : OrdMap String LedgerRow
  tasks : ι → Task

/-- What happens in a step. -/
inductive Label (ι : Type)
  | fill (e : Execution)
  | tick
  | start (i : ι)
  | positions (i : ι) (p : Positions)
  | clock (i : ι)
  | executions (i : ι)
  | persist (i : ι)
  | fail (i : ι)

variable {ι : Type} [DecidableEq ι] (c : Calendar)

/-- The world with a task where it is. -/
def World.goOn (w : World ι) (i : ι) (task : Task) : World ι :=
  { w with tasks := Function.update w.tasks i task }

/-- The steps of the world. -/
inductive Step (w : World ι) : Label ι → World ι → Prop
  /-- The fill comes after those that there are. -/
  | fill (e : Execution) (history : History) : e.execTime = w.clock →
    history.opening = w.history.opening → history.fills = w.history.fills ++ [e] →
    Step w (.fill e) { w with history := history }
  | tick (time : ℤ) : w.clock ≤ time → Step w .tick { w with clock := time }
  | start (i : ι) (task : Task) : w.tasks i = .idle → task.Starts c w.clock →
    Step w (.start i) (w.goOn i task)
  /-- The exchange shows the positions. -/
  | positions (i : ι) (p : Positions) (task : Task) : (∀ s, p.at s = w.history.final s) →
    (w.tasks i).onPositions p = some task → Step w (.positions i p) (w.goOn i task)
  | clock (i : ι) (task : Task) :
    (w.tasks i).onClock w.clock = some task → Step w (.clock i) (w.goOn i task)
  | executions (i : ι) (task : Task) :
    (w.tasks i).onExecutions c w.history = some task → Step w (.executions i) (w.goOn i task)
  | persist (i : ι) (rows : List LedgerRow) : w.tasks i = .persist rows →
    Step w (.persist i) { w.goOn i .idle with ledger := persist w.ledger rows }
  /-- A read fails, or the process is killed. -/
  | fail (i : ι) : Step w (.fail i) (w.goOn i .idle)

/-- A condition on the steps of a run. -/
abbrev Condition (ι : Type) := World ι → Label ι → Prop

/-- The runs whose steps all meet `ok`. -/
inductive Run (ok : Condition ι) (w₀ : World ι) : World ι → Prop
  | refl : Run ok w₀ w₀
  | step {w w' : World ι} {l : Label ι} : Run ok w₀ w → Step c w l w' → ok w l → Run ok w₀ w'

/-- Nothing is written yet, and no task is under way. -/
structure World.Fresh (w : World ι) : Prop where
  ledger : w.ledger = ∅
  tasks : ∀ i, w.tasks i = .idle

/-- Every row says what its fill did. -/
def World.Right (w : World ι) : Prop := ∀ row ∈ w.ledger.values, row ∈ w.history.rows

/-! ## The condition -/

/-- The fills of a symbol after the ones that are listed of it. -/
def History.after (h : History) (listed : List Execution) (s : String) : List Execution :=
  (h.fillsOf s).filter fun e =>
    ∀ a ∈ listed, a.symbol = s → executionSortKey a < executionSortKey e

/-- Where the positions that a task reads are those that it reconciles from: the executions that
    it makes rows of, and the ones after them that it walks through. -/
def Task.reconciles (c : Calendar) (h : History) (p : Positions) :
    Task → Option (List Execution × List Execution)
  | .compare dates _ before cutoffMs listed =>
    if before.same p then
      if dates.trading = dates.current then some (listed, [])
      else (c.window (dates.current - 1) cutoffMs).map fun window => (h.listed window, listed)
    else none
  | .positions combined => some (combined, [])
  | _ => none

/-- When positions are read to reconcile from, the fills that are not listed, of a symbol that
    rows are made of, net to zero. -/
def Settled : Condition ι := fun w l => match l with
  | .positions i p => ∀ executions later,
    (w.tasks i).reconciles c w.history p = some (executions, later) →
      ∀ e ∈ executions, netDelta (w.history.after (executions ++ later) e.symbol) = 0
  | _ => True

end IntradayBot.Ledger
