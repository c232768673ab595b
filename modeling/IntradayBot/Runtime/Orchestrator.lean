import Mathlib.Algebra.BigOperators.Group.Finset.Basic
import Mathlib.Algebra.Order.Floor.Ring
import Mathlib.Data.Rat.Floor
import Mathlib.Tactic.Linarith
import Mathlib.Tactic.NormNum

/-!
# The orchestrator

The worker thread ticks: it runs the stages that are due (`runDueOnce`), waits, and ticks again. The
setup stages are due again so many seconds after they were run, which is after the time at which
they were due. A run confirms entries on the latest 5M candle that has closed.

In a run of the worker whose cycles do not fail, a closed 5M candle is skipped exactly if the setup
stages are once run in a later window than the one in which they are due (`noWindowSkipped_iff`). The
delays of all runs add up, so they must stay within one window for good (`OnTime.lateness_lt`).
-/

namespace IntradayBot.Runtime

/-! ## The state -/

/-- The category of a failure. -/
inductive FailureCategory
  | database
  | exchangeApi
  | marketData
  | validation
  | unknown
  deriving DecidableEq, Repr

/-- `status` -/
inductive RuntimeStatus
  | stopped
  | running
  | backoff
  deriving DecidableEq, Repr

/-- `_STATE` -/
structure RuntimeState where
  status : RuntimeStatus
  lastLoopAt : ℤ
  lastSymbolRunAt : ℤ
  lastSetupRunAt : ℤ
  lastEntryRunAt : ℤ
  lastRiskRunAt : ℤ
  lastSizingRunAt : ℤ
  lastCommandPublishAt : ℤ
  nextSymbolRunAt : ℤ
  nextSetupRunAt : ℤ
  symbolRuns : ℕ
  setupRuns : ℕ
  entryRuns : ℕ
  riskRuns : ℕ
  sizingRuns : ℕ
  commandPublishRuns : ℕ
  backoffActive : Bool
  consecutiveFailureCount : ℕ
  currentRetryDelaySeconds : ℤ
  nextRetryAt : ℤ
  lastFailureAt : ℤ
  lastFailureCategory : Option FailureCategory

/-- `_STATE`, as the module has it. -/
def RuntimeState.initial : RuntimeState where
  status := .stopped
  lastLoopAt := 0
  lastSymbolRunAt := 0
  lastSetupRunAt := 0
  lastEntryRunAt := 0
  lastRiskRunAt := 0
  lastSizingRunAt := 0
  lastCommandPublishAt := 0
  nextSymbolRunAt := 0
  nextSetupRunAt := 0
  symbolRuns := 0
  setupRuns := 0
  entryRuns := 0
  riskRuns := 0
  sizingRuns := 0
  commandPublishRuns := 0
  backoffActive := false
  consecutiveFailureCount := 0
  currentRetryDelaySeconds := 0
  nextRetryAt := 0
  lastFailureAt := 0
  lastFailureCategory := none

/-- `max(minimum, min(maximum, value))`, of the variable of the environment if it is an integer. -/
def integer (value : Option ℤ) (default minimum maximum : ℤ) : ℤ :=
  max minimum (min maximum (value.getD default))

/-- `settings()` -/
structure Settings where
  symbolIntervalSeconds : ℤ
  setupIntervalSeconds : ℤ
  idleSleepSeconds : ℤ
  deriving DecidableEq

/-- `settings()`, with these variables of the environment. -/
def settings (symbolInterval setupInterval idle : Option ℤ) : Settings where
  symbolIntervalSeconds := integer symbolInterval 300 30 3600
  setupIntervalSeconds := integer setupInterval 300 30 3600
  idleSleepSeconds := integer idle 1 1 10

/-! ## A cycle -/

/-- `_BACKOFF_MAX_SECONDS` -/
def BACKOFF_MAX_SECONDS : ℤ := 300

/-- `_retry_delay_seconds(failure_count)` -/
def retryDelaySeconds (failureCount : ℕ) : ℤ :=
  if failureCount = 0 then 0
  else if 7 ≤ failureCount then BACKOFF_MAX_SECONDS
  else min (5 * 2 ^ (failureCount - 1)) BACKOFF_MAX_SECONDS

/-- `_record_failure(exc, timestamp)` -/
def RuntimeState.recordFailure (s : RuntimeState) (category : FailureCategory) (timestamp : ℤ) :
    RuntimeState :=
  let failureCount := s.consecutiveFailureCount + 1
  let retryDelay := retryDelaySeconds failureCount
  { s with
    status := .backoff
    lastLoopAt := timestamp
    backoffActive := 0 < retryDelay
    consecutiveFailureCount := failureCount
    currentRetryDelaySeconds := retryDelay
    nextRetryAt := timestamp + retryDelay
    lastFailureAt := timestamp
    lastFailureCategory := some category }

/-- `_reset_failure_state()` -/
def RuntimeState.resetFailureState (s : RuntimeState) : RuntimeState :=
  { s with
    backoffActive := false
    consecutiveFailureCount := 0
    currentRetryDelaySeconds := 0
    nextRetryAt := 0
    lastFailureAt := 0
    lastFailureCategory := none }

/-- The stages of a cycle. -/
inductive Stage
  | symbolWorker
  | strategyClassifier
  | entryConfirmation
  | entryRisk
  | commandOutbox
  | positionSizing
  deriving DecidableEq, Repr

/-- The setup stages, in their order. -/
def Stage.setup : List Stage :=
  [strategyClassifier, entryConfirmation, entryRisk, commandOutbox, positionSizing]

/-- The symbol stage has run. -/
def RuntimeState.symbolRan (s : RuntimeState) (cfg : Settings) (timestamp : ℤ) : RuntimeState :=
  { s with
    lastSymbolRunAt := timestamp
    nextSymbolRunAt := timestamp + cfg.symbolIntervalSeconds
    symbolRuns := s.symbolRuns + 1 }

/-- The setup stages have run. -/
def RuntimeState.setupRan (s : RuntimeState) (cfg : Settings) (timestamp : ℤ) : RuntimeState :=
  { s with
    lastSetupRunAt := timestamp
    lastEntryRunAt := timestamp
    lastRiskRunAt := timestamp
    lastCommandPublishAt := timestamp
    lastSizingRunAt := timestamp
    nextSetupRunAt := timestamp + cfg.setupIntervalSeconds
    setupRuns := s.setupRuns + 1
    entryRuns := s.entryRuns + 1
    riskRuns := s.riskRuns + 1
    commandPublishRuns := s.commandPublishRuns + 1
    sizingRuns := s.sizingRuns + 1 }

/-- The stages that are due have run. -/
def RuntimeState.cycleRan (s : RuntimeState) (timestamp : ℤ) : RuntimeState :=
  { s with
    lastLoopAt := timestamp
    status := .running }.resetFailureState

/-- `run_due_once(core, …, now)`, where the stages raise, or do not. -/
def runDueOnce (cfg : Settings) (raises : Stage → Option FailureCategory) (timestamp : ℤ)
    (s : RuntimeState) : RuntimeState :=
  if timestamp < s.nextRetryAt then
    { s with
      status := .backoff
      lastLoopAt := timestamp
      backoffActive := true }
  else
    let symbolFailure := if s.nextSymbolRunAt ≤ timestamp then raises .symbolWorker else none
    match symbolFailure with
    | some category => s.recordFailure category timestamp
    | none =>
      let s₁ := if s.nextSymbolRunAt ≤ timestamp then s.symbolRan cfg timestamp else s
      let setupFailure :=
        if s.nextSetupRunAt ≤ timestamp then Stage.setup.findSome? raises else none
      match setupFailure with
      | some category => s₁.recordFailure category timestamp
      | none =>
        (if s.nextSetupRunAt ≤ timestamp then s₁.setupRan cfg timestamp else s₁).cycleRan timestamp

/-! ## Runs of the worker -/

/-- A tick: when it starts, how long its cycle takes, and which stages raise. -/
structure Tick where
  start : ℚ
  duration : ℚ
  raises : Stage → Option FailureCategory

/-- `int(time.time())` -/
def Tick.timestamp (t : Tick) : ℤ := ⌊t.start⌋

/-- The state before a tick. -/
def stateAt (cfg : Settings) (ticks : ℕ → Tick) : ℕ → RuntimeState
  | 0 => .initial
  | n + 1 => runDueOnce cfg (ticks n).raises (ticks n).timestamp (stateAt cfg ticks n)

/-- `_FIVE_MINUTE_SECONDS` -/
def FIVE_MINUTE_SECONDS : ℤ := 300

/-- `_target_open_seconds(timestamp, interval_seconds)` -/
def targetOpenSeconds (timestamp intervalSeconds : ℤ) : ℤ :=
  (timestamp / intervalSeconds - 1) * intervalSeconds

/-- Ticks that come at most two seconds after the cycle before them, whose cycles take less than
    five minutes, and do not fail. -/
structure Steady (ticks : ℕ → Tick) : Prop where
  start : 0 ≤ (ticks 0).start
  duration : ∀ n, 0 ≤ (ticks n).duration ∧ (ticks n).duration < 300
  next : ∀ n, (ticks n).start + (ticks n).duration ≤ (ticks (n + 1)).start ∧
    (ticks (n + 1)).start ≤ (ticks n).start + (ticks n).duration + 2
  succeeds : ∀ n stage, (ticks n).raises stage = none

variable (cfg : Settings) (ticks : ℕ → Tick)

/-- The setup stages have run at a tick. -/
def SetupRan (n : ℕ) : Prop :=
  (stateAt cfg ticks (n + 1)).setupRuns = (stateAt cfg ticks n).setupRuns + 1

/-- The setup stages have run at two ticks, and not between them. -/
structure Consecutive (m n : ℕ) : Prop where
  lt : m < n
  first : SetupRan cfg ticks m
  second : SetupRan cfg ticks n
  between : ∀ k, m < k → k < n → ¬SetupRan cfg ticks k

/-- The latest closed 5M candle of a tick. -/
def target (n : ℕ) : ℤ := targetOpenSeconds (ticks n).timestamp FIVE_MINUTE_SECONDS

/-- No closed 5M candle is skipped. -/
def NoWindowSkipped : Prop :=
  ∀ m n, Consecutive cfg ticks m n → |target ticks n - target ticks m| ≤ FIVE_MINUTE_SECONDS

/-- The setup stages are due at a tick, after they have run before. -/
def DueAgain (n : ℕ) : Prop :=
  0 < (stateAt cfg ticks n).setupRuns ∧
    (stateAt cfg ticks n).nextSetupRunAt ≤ (ticks n).timestamp

instance (n : ℕ) : Decidable (DueAgain cfg ticks n) := inferInstanceAs (Decidable (_ ∧ _))

/-- By how much the setup stages are late at a tick. -/
def lateness (n : ℕ) : ℤ :=
  if DueAgain cfg ticks n then (ticks n).timestamp - (stateAt cfg ticks n).nextSetupRunAt else 0

/-- Where the setup stages are due again, the tick is in the window in which they are. -/
def OnTime : Prop :=
  ∀ n, DueAgain cfg ticks n → (ticks n).timestamp / FIVE_MINUTE_SECONDS =
    (stateAt cfg ticks n).nextSetupRunAt / FIVE_MINUTE_SECONDS

/-! ## A cycle that does not fail -/

variable {cfg ticks} {m n : ℕ}

section

variable {raises : Stage → Option FailureCategory} {timestamp : ℤ} {s : RuntimeState}

/-- A cycle whose stages succeed. -/
theorem runDueOnce_of_succeeds (hraises : ∀ stage, raises stage = none)
    (hretry : s.nextRetryAt ≤ timestamp) : runDueOnce cfg raises timestamp s =
      let s₁ := if s.nextSymbolRunAt ≤ timestamp then s.symbolRan cfg timestamp else s
      (if s.nextSetupRunAt ≤ timestamp then s₁.setupRan cfg timestamp else s₁).cycleRan timestamp := by
  have hsetup : Stage.setup.findSome? raises = none := by
    rw [List.findSome?_eq_none_iff]
    exact fun stage _ => hraises stage
  rw [runDueOnce, if_neg hretry.not_gt, hraises, hsetup, ite_self, ite_self]

theorem runDueOnce_nextSetupRunAt (hraises : ∀ stage, raises stage = none)
    (hretry : s.nextRetryAt ≤ timestamp) : (runDueOnce cfg raises timestamp s).nextSetupRunAt =
      if s.nextSetupRunAt ≤ timestamp then timestamp + cfg.setupIntervalSeconds
      else s.nextSetupRunAt := by
  rw [runDueOnce_of_succeeds hraises hretry]
  dsimp only
  split <;> split <;> rfl

theorem runDueOnce_setupRuns (hraises : ∀ stage, raises stage = none)
    (hretry : s.nextRetryAt ≤ timestamp) : (runDueOnce cfg raises timestamp s).setupRuns =
      if s.nextSetupRunAt ≤ timestamp then s.setupRuns + 1 else s.setupRuns := by
  rw [runDueOnce_of_succeeds hraises hretry]
  dsimp only
  split <;> split <;> rfl

theorem runDueOnce_nextRetryAt (hraises : ∀ stage, raises stage = none)
    (hretry : s.nextRetryAt ≤ timestamp) : (runDueOnce cfg raises timestamp s).nextRetryAt = 0 := by
  rw [runDueOnce_of_succeeds hraises hretry]
  rfl

end

namespace Steady

variable (h : Steady ticks)
include h

theorem timestamp_le (n : ℕ) : (ticks n).timestamp ≤ (ticks (n + 1)).timestamp := by
  refine Int.floor_le_floor ?_
  have := (h.next n).1
  have := (h.duration n).1
  linarith

theorem timestamp_nonneg (n : ℕ) : 0 ≤ (ticks n).timestamp := by
  induction n with
  | zero => exact Int.floor_nonneg.2 h.start
  | succ n ih => exact ih.trans (h.timestamp_le n)

/-- No tick is put off. -/
theorem nextRetryAt_le (n : ℕ) : (stateAt cfg ticks n).nextRetryAt ≤ (ticks n).timestamp := by
  refine le_trans (le_of_eq ?_) (h.timestamp_nonneg n)
  induction n with
  | zero => rfl
  | succ n ih =>
    exact runDueOnce_nextRetryAt (h.succeeds n) (ih.trans_le (h.timestamp_nonneg n))

theorem nextSetupRunAt_succ (n : ℕ) : (stateAt cfg ticks (n + 1)).nextSetupRunAt =
    if (stateAt cfg ticks n).nextSetupRunAt ≤ (ticks n).timestamp then
      (ticks n).timestamp + cfg.setupIntervalSeconds
    else (stateAt cfg ticks n).nextSetupRunAt :=
  runDueOnce_nextSetupRunAt (h.succeeds n) (h.nextRetryAt_le n)

theorem setupRuns_succ (n : ℕ) : (stateAt cfg ticks (n + 1)).setupRuns =
    if (stateAt cfg ticks n).nextSetupRunAt ≤ (ticks n).timestamp then
      (stateAt cfg ticks n).setupRuns + 1
    else (stateAt cfg ticks n).setupRuns :=
  runDueOnce_setupRuns (h.succeeds n) (h.nextRetryAt_le n)

theorem setupRan_iff (n : ℕ) : SetupRan cfg ticks n ↔
    (stateAt cfg ticks n).nextSetupRunAt ≤ (ticks n).timestamp := by
  rw [SetupRan, h.setupRuns_succ]
  split <;> simp_all

/-- After the setup stages have run, they are due again so many seconds later. -/
theorem nextSetupRunAt_of_ran (hm : SetupRan cfg ticks m) (hlt : m < n)
    (hbetween : ∀ k, m < k → k < n → ¬SetupRan cfg ticks k) :
    (stateAt cfg ticks n).nextSetupRunAt = (ticks m).timestamp + cfg.setupIntervalSeconds ∧
      0 < (stateAt cfg ticks n).setupRuns := by
  induction n, hlt using Nat.le_induction with
  | base =>
    have hdue := (h.setupRan_iff m).1 hm
    rw [h.nextSetupRunAt_succ, h.setupRuns_succ, if_pos hdue, if_pos hdue]
    exact ⟨rfl, Nat.succ_pos _⟩
  | succ n hlt ih =>
    have hnot : ¬(stateAt cfg ticks n).nextSetupRunAt ≤ (ticks n).timestamp := fun hdue =>
      hbetween n hlt (Nat.lt_succ_self n) ((h.setupRan_iff n).2 hdue)
    rw [h.nextSetupRunAt_succ, h.setupRuns_succ, if_neg hnot, if_neg hnot]
    exact ih fun k hk hk' => hbetween k hk (hk'.trans (Nat.lt_succ_self n))

/-- The last run of the setup stages before a tick. -/
theorem exists_last (hruns : 0 < (stateAt cfg ticks n).setupRuns) :
    ∃ m < n, SetupRan cfg ticks m ∧ ∀ k, m < k → k < n → ¬SetupRan cfg ticks k := by
  induction n with
  | zero => exact absurd hruns (lt_irrefl 0)
  | succ n ih =>
    by_cases hran : SetupRan cfg ticks n
    · exact ⟨n, Nat.lt_succ_self n, hran, fun k hk hk' => absurd hk (by omega)⟩
    · rw [h.setupRuns_succ, if_neg fun hdue => hran ((h.setupRan_iff n).2 hdue)] at hruns
      obtain ⟨m, hlt, hm, hbetween⟩ := ih hruns
      refine ⟨m, hlt.trans (Nat.lt_succ_self n), hm, fun k hk hk' => ?_⟩
      rcases Nat.lt_succ_iff_lt_or_eq.1 hk' with hk' | rfl
      · exact hbetween k hk hk'
      · exact hran

end Steady

/-! ## Windows -/

/-- The targets of consecutive runs are at most one window apart if the second one is on time. -/
theorem target_sub_le_iff (h : Steady ticks) (hcfg : cfg.setupIntervalSeconds = 300)
    (hmn : Consecutive cfg ticks m n) :
    |target ticks n - target ticks m| ≤ FIVE_MINUTE_SECONDS ↔
      (ticks n).timestamp / FIVE_MINUTE_SECONDS =
        (stateAt cfg ticks n).nextSetupRunAt / FIVE_MINUTE_SECONDS := by
  obtain ⟨hnext, -⟩ := h.nextSetupRunAt_of_ran hmn.first hmn.lt hmn.between
  have hdue := (h.setupRan_iff n).1 hmn.second
  rw [hnext, hcfg] at hdue ⊢
  rw [target, target, targetOpenSeconds, targetOpenSeconds, FIVE_MINUTE_SECONDS, abs_le]
  omega

/-- No closed 5M candle is skipped exactly if the setup stages are always run in the window in which
    they are due. -/
theorem noWindowSkipped_iff (h : Steady ticks) (hcfg : cfg.setupIntervalSeconds = 300) :
    NoWindowSkipped cfg ticks ↔ OnTime cfg ticks := by
  constructor
  · rintro hskipped n ⟨hruns, hdue⟩
    obtain ⟨m, hlt, hm, hbetween⟩ := h.exists_last hruns
    have hmn : Consecutive cfg ticks m n := ⟨hlt, hm, (h.setupRan_iff n).2 hdue, hbetween⟩
    exact (target_sub_le_iff h hcfg hmn).1 (hskipped m n hmn)
  · intro hontime m n hmn
    obtain ⟨-, hruns⟩ := h.nextSetupRunAt_of_ran hmn.first hmn.lt hmn.between
    exact (target_sub_le_iff h hcfg hmn).2
      (hontime n ⟨hruns, (h.setupRan_iff n).1 hmn.second⟩)

/-- As long as every run is on time, the delays of all runs stay within one window. -/
theorem OnTime.sum_lateness_le (hontime : OnTime cfg ticks) (h : Steady ticks)
    (hcfg : cfg.setupIntervalSeconds = 300) (n : ℕ) :
    ∑ k ∈ Finset.range n, lateness cfg ticks k ≤
      if 0 < (stateAt cfg ticks n).setupRuns then
        (stateAt cfg ticks n).nextSetupRunAt % FIVE_MINUTE_SECONDS
      else 0 := by
  induction n with
  | zero => exact le_of_eq rfl
  | succ n ih =>
    rw [Finset.sum_range_succ, h.nextSetupRunAt_succ, h.setupRuns_succ, lateness]
    by_cases hdue : (stateAt cfg ticks n).nextSetupRunAt ≤ (ticks n).timestamp
    · rw [if_pos hdue, if_pos hdue, if_pos (Nat.succ_pos _), hcfg]
      by_cases hruns : 0 < (stateAt cfg ticks n).setupRuns
      · -- the delay moves the next run on, within its window
        have hwindow := hontime n ⟨hruns, hdue⟩
        rw [if_pos hruns] at ih
        rw [if_pos ⟨hruns, hdue⟩]
        rw [FIVE_MINUTE_SECONDS] at ih hwindow ⊢
        omega
      · rw [if_neg hruns] at ih
        rw [if_neg fun hagain => hruns hagain.1, add_zero]
        exact ih.trans (Int.emod_nonneg _ (by decide))
    · rw [if_neg hdue, if_neg hdue, if_neg fun hagain => hdue hagain.2, add_zero]
      exact ih

theorem OnTime.lateness_lt (hontime : OnTime cfg ticks) (h : Steady ticks)
    (hcfg : cfg.setupIntervalSeconds = 300) (n : ℕ) :
    ∑ k ∈ Finset.range n, lateness cfg ticks k < FIVE_MINUTE_SECONDS := by
  refine (hontime.sum_lateness_le h hcfg n).trans_lt ?_
  split
  · exact Int.emod_lt_of_pos _ (by decide)
  · decide

/-! ## Two runs -/

/-- A tick every second. -/
def everySecond (n : ℕ) : Tick := ⟨1714550400 + n, 0, fun _ => none⟩

theorem everySecond_timestamp (n : ℕ) : (everySecond n).timestamp = 1714550400 + n := by
  rw [Tick.timestamp, everySecond, Int.floor_add_natCast]
  norm_num

theorem everySecond_steady : Steady everySecond where
  start := by norm_num [everySecond]
  duration n := by norm_num [everySecond]
  next n := by
    simp only [everySecond]
    push_cast
    constructor <;> linarith
  succeeds _ _ := rfl

/-- A worker that ticks every second is always on time. -/
theorem everySecond_onTime (hcfg : cfg.setupIntervalSeconds = 300) : OnTime cfg everySecond := by
  rintro n ⟨hruns, hdue⟩
  congr 1
  refine le_antisymm ?_ hdue
  rcases n with _ | n
  · exact absurd hruns (lt_irrefl 0)
  rw [everySecond_steady.nextSetupRunAt_succ]
  split
  · rw [everySecond_timestamp, everySecond_timestamp, hcfg]
    push_cast
    omega
  · rename_i hnot
    rw [everySecond_timestamp] at hnot ⊢
    push_cast
    omega

theorem noWindowSkipped_everySecond : NoWindowSkipped (settings none none none) everySecond :=
  (noWindowSkipped_iff everySecond_steady rfl).2 (everySecond_onTime rfl)

/-- A cycle that starts at the end of a window, and takes five minutes but for half a second; then a
    tick every two seconds. -/
def lateTicks : ℕ → Tick
  | 0 => ⟨1714550699, 599 / 2, fun _ => none⟩
  | n + 1 => ⟨3429101997 / 2 + 2 * n, 0, fun _ => none⟩

theorem lateTicks_steady : Steady lateTicks where
  start := by norm_num [lateTicks]
  duration n := by rcases n with _ | n <;> norm_num [lateTicks]
  next n := by
    rcases n with _ | n
    · norm_num [lateTicks]
    · simp only [lateTicks]
      push_cast
      constructor <;> linarith
  succeeds n _ := by rcases n with _ | n <;> rfl

/-- The setup stages are run at the end of a window, and then not before the next but one. -/
theorem not_noWindowSkipped : ¬∀ (cfg : Settings) (ticks : ℕ → Tick), Steady ticks →
    cfg.setupIntervalSeconds = 300 → NoWindowSkipped cfg ticks := by
  intro h
  have hran : ∀ n : Fin 3, SetupRan (settings none none none) lateTicks n ↔ (n : ℕ) ≠ 1 := by
    unfold SetupRan
    decide +kernel
  have hconsecutive : Consecutive (settings none none none) lateTicks 0 2 :=
    ⟨by decide, (hran 0).2 (by decide), (hran 2).2 (by decide), fun k hk hk' => by
      obtain rfl : k = 1 := by omega
      exact fun hk => (hran 1).1 hk rfl⟩
  have hle := h _ _ lateTicks_steady rfl 0 2 hconsecutive
  exact absurd hle (by decide +kernel)

end IntradayBot.Runtime
