import IntradayBot.Fill.PartialGate
import IntradayBot.Fill.PendingEntry
import IntradayBot.Node.Command
import Mathlib.Data.List.Count
import Mathlib.Logic.Function.Basic

/-!
# The management of the open positions

A position in profit is closed in part, once: `managePositions` goes through the positions, and
for each of them through its actions. It skips an action that the journal has as completed, and
one whose last failure is recent (`claim`); it journals what it performs.

An action is journaled under its name if the exchange confirms it, and otherwise as failed,
also where the exchange *accepted* it (`retCode` 0). Such a close is not completed for the next
call, which sends another one once the cooldown is over. The journal is bounded, and what it
drops is forgotten as well. A partial close is hence accepted once just if whenever another one
is due, the journal has kept an entry that completes it (`Kept`), or the cooldown is not over and
the process is the same (`Cooling`).

The process may stop between two actions: its memory is lost, and the journal is not.
-/

namespace IntradayBot.Fill

open PyText

/-! ## The journal -/

/-- What `_completed` reads of an entry of the journal. -/
structure Entry where
  event : String
  positionKey : String
  verified : Bool
  /-- `int(result.get("retCode"))` -/
  retCode : Option ℤ
  deriving DecidableEq

/-- `entries[-limit:]` -/
def keepLast {α : Type} (limit : ℕ) (entries : List α) : List α :=
  if limit = 0 then entries else entries.drop (entries.length - limit)

/-- `_completed(engine, event, key, legacy_key)`: whether the action is verified, `none` where it
    is not completed. -/
def completed (entries : List Entry) (event key legacy : String) : Option Bool :=
  entries.findSome? fun entry =>
    if entry.event = event ∧ (entry.positionKey = key ∨ entry.positionKey = legacy) then
      if entry.verified then some true
      else if entry.retCode = some 0 then some false
      else none
    else none

/-- What the actions read and write. -/
structure Memory where
  journal : List Entry
  /-- `_INFLIGHT` -/
  inflight : List String
  /-- `_FAILED_AT` -/
  failedAt : String → Option ℚ
  /-- `_PENDING_PARTIAL` -/
  pending : Option PendingPartial

/-- `journal.add(event, payload)` -/
def Memory.add (m : Memory) (limit : ℕ) (entry : Entry) : Memory :=
  { m with journal := keepLast limit (m.journal ++ [entry]) }

/-- A new process: the journal is the only thing it finds. -/
def Memory.restart (m : Memory) : Memory where
  journal := m.journal
  inflight := []
  failedAt _ := none
  pending := none

/-- `_claim(key, cooldown)`, at the time `now`: the memory, or the reason to skip the action. -/
def claim (m : Memory) (key : String) (cooldown now : ℚ) : Except String Memory :=
  if key ∈ m.inflight then .error "Action already in progress."
  else if (m.failedAt key).any fun failedAt => now - failedAt < cooldown then
    .error "Previous failure is inside the retry cooldown."
  else .ok { m with inflight := key :: m.inflight }

/-- `_release(key, failed)`, at the time `now`. -/
def release (m : Memory) (key : String) (failed : Bool) (now : ℚ) : Memory :=
  { m with
    inflight := m.inflight.filter (· ≠ key)
    failedAt := Function.update m.failedAt key (if failed then some now else none) }

/-! ## The actions -/

inductive ActionState
  | createRejected
  | positionReduced
  | positionSyncTimeout
  | fill (state : FillState)
  | exception
  | protection
  deriving DecidableEq

/-- What an action returns. -/
structure Action where
  verified : Bool
  /-- `result.get("retCode")` -/
  retCode : Option ℤ
  state : ActionState
  reason : String

/-- What becomes of an action: what the exchange answered to its order, the action, unless it
    raises, and the partial close that it leaves pending. -/
structure Execution where
  answer : Option ℤ
  action : Option Action
  pending : Option PendingPartial

/-- What the exchange answers to a partial close: to the order, `none` for an answer that is no
    object, and to each of the requests that follow. -/
structure CloseAnswers where
  close : Except Unit (Option OrderResult)
  requester : Requester
  polls : ℕ → PositionReply

section actions

variable (repr : PyValue → String)

/-- `(_positive(row.get("size")) if row else Decimal("0")) or Decimal("0")` -/
def sizeShown : Option PyDict → ℚ
  | some row => (positiveOf repr (row.get "size")).getD 0
  | none => 0

/-- `_poll` for a position with at most `left`: the last `n` of the attempts. -/
def pollReduced (position : PyDict) (polls : ℕ → PositionReply) (left : ℚ) (total : ℕ) :
    ℕ → Except PyError Bool
  | 0 => .ok false
  | n + 1 =>
    match positions (polls (total - n)) with
    | none => pollReduced position polls left total n
    | some rows => do
      let current ← matching repr position rows
      if sizeShown repr current ≤ left then return true
      else pollReduced position polls left total n

/-- `_partial` -/
def partialClose (position : PyDict) (attempts : ℤ) (answers : CloseAnswers) : Execution :=
  match answers.close with
  | .error _ => { answer := none, action := none, pending := none }
  | .ok result =>
    let result := sourceOf result
    if accepted : result.retCode = some 0 then
      let fill := verifyFinalFill (symbolOf repr position) (some result) answers.requester attempts
      let record : PendingPartial := ⟨position, result, accepted⟩
      match positiveOf repr (position.get "size"), executedOf fill, fill.accepted with
      | some initial, some executed, true =>
        let total := (max 1 attempts).toNat
        match pollReduced repr position answers.polls (mostLeft initial executed) total total with
        | .error _ => { answer := some 0, action := none, pending := none }
        | .ok true =>
          { answer := some 0
            action := some ⟨true, some 0, .positionReduced,
              "Filled reduce-only quantity is reflected in the position."⟩
            pending := none }
        | .ok false =>
          { answer := some 0
            action := some ⟨false, some 0, .positionSyncTimeout,
              "Partial close filled but position reduction was not synchronized."⟩
            pending := some record }
      | _, _, _ =>
        { answer := some 0
          action := some ⟨false, some 0, .fill fill.state, fill.reason⟩
          pending := if fill.unresolved then some record else none }
    else
      { answer := result.retCode
        action := some ⟨false, result.retCode, .createRejected,
          textOr result.retMsg (textOr result.reason "Partial close rejected.")⟩
        pending := none }

/-- What an action does. The stops are only known by their outcome. -/
inductive Deed
  | partialClose (position : PyDict) (attempts : ℤ) (answers : CloseAnswers)
  /-- `_breakeven` and `_trailing`: whether the stop is confirmed, and the `retCode`; `none` for
      one that raises. -/
  | protection (outcome : Option (Bool × Option ℤ))

def Deed.execute : Deed → Execution
  | .partialClose position attempts answers => Fill.partialClose repr position attempts answers
  | .protection outcome =>
    { answer := outcome.bind Prod.snd
      action := outcome.map fun o => ⟨o.1, o.2, .protection, ""⟩
      pending := none }

/-- The action of a call that raised. -/
def raisedAction : Action := ⟨false, none, .exception, "Management action failed"⟩

end actions

/-- An element of `candidates`, for a position: the times are those of `_claim` and of
    `_release`. -/
structure Candidate where
  event : String
  key : String
  legacy : String
  eligible : Bool
  cooldown : ℚ
  claimedAt : ℚ
  releasedAt : ℚ
  deed : Deed

/-- `action_key` -/
def Candidate.actionKey (c : Candidate) : String := s!"{c.event}:{c.key}"

/-- What the action of the candidate returns. -/
def Candidate.action (repr : PyValue → String) (c : Candidate) : Action :=
  (c.deed.execute repr).action.getD raisedAction

/-- The entry that journals the action. -/
def Candidate.entry (repr : PyValue → String) (c : Candidate) : Entry where
  event := if (c.action repr).verified then c.event else s!"{c.event}_failed"
  positionKey := c.key
  verified := (c.action repr).verified
  retCode := (c.action repr).retCode

inductive Status
  | verified
  | failed
  | skipped
  deriving DecidableEq

/-- An element of `actions`, with what the exchange answered to the order of the action. -/
structure Report where
  event : String
  key : String
  status : Status
  verified : Bool
  reason : String
  answer : Option ℤ

section perform

variable (repr : PyValue → String) (limit : ℕ)

/-- The body of the inner loop of `manage_positions`. -/
def Candidate.perform (m : Memory) (c : Candidate) : Memory × Option Report :=
  if c.eligible then
    match completed m.journal c.event c.key c.legacy with
    | some verified =>
      (m, some ⟨c.event, c.key, .skipped, verified,
        if verified then "Verified action already completed."
        else "Legacy accepted action will not be repeated automatically.", none⟩)
    | none =>
      match claim m c.actionKey c.cooldown c.claimedAt with
      | .error reason => (m, some ⟨c.event, c.key, .skipped, false, reason, none⟩)
      | .ok claimed =>
        let execution := c.deed.execute repr
        let action := c.action repr
        let journaled :=
          { claimed with pending := execution.pending.or m.pending }.add limit (c.entry repr)
        (release journaled c.actionKey (!action.verified) c.releasedAt,
          some ⟨c.event, c.key, if action.verified then .verified else .failed, action.verified,
            action.reason, execution.answer⟩)
  else (m, none)

end perform

/-! ## Positions -/

section positions

variable (repr : PyValue → String)

/-- `_number(value, default, low, high)` -/
def number (value : PyValue) (default low : ℚ) (high : Option ℚ) : Except PyError ℚ :=
  match value.float? with
  | .error .overflowError => .error .overflowError
  | read =>
    let value := match read with
      | .ok (.finite q) => q
      | _ => default
    .ok (high.elim (max low value) (min (max low value)))

/-- `position_key(position)` -/
def positionKey (position : PyDict) : String :=
  let idx := match position.get "positionIdx" with
    | .none => "0"
    | idx => idx.text repr
  let openTime := position.get "openTime"
  let opened :=
    if openTime.truthy then openTime.text repr else (position.get "createdTime").textOrEmpty repr
  let mark := if opened ≠ "" then opened else (position.get "avgPrice").textOr repr "unknown"
  s!"{symbolOf repr position}:{sideOf repr position}:{idx}:{mark}"

/-- `core.position_key(position)` -/
def legacyKey (position : PyDict) : String :=
  let openTime := position.get "openTime"
  let createdTime := position.get "createdTime"
  let opened :=
    if openTime.truthy then openTime.text repr
    else if createdTime.truthy then createdTime.text repr
    else (position.get "updatedTime").textOr repr "0"
  let symbol := (position.getOr "symbol" (.str "")).text repr
  let side := (position.getOr "side" (.str "")).text repr
  s!"{symbol}:{side}:{opened}"

/-- The settings of `manage_positions`. -/
structure Settings where
  cooldown : ℚ
  partialTrigger : ℚ
  breakevenTrigger : ℚ
  trailingTrigger : ℚ
  partialEnabled : Bool
  breakevenEnabled : Bool
  trailingEnabled : Bool

/-- The settings that `BOT_STATE` gives. -/
def settingsOf (state : PyDict) : Except PyError Settings := do
  let cooldown ← number (state.get "positionManagementRetrySeconds") 60 1 (some 3600)
  let partialTrigger ← number (state.get "partialTpTriggerPct") 1 (1 / 10) none
  let _ ← number (state.get "partialTpClosePct") 50 1 (some 100)
  let breakevenTrigger ← number (state.get "breakevenTriggerPct") (3 / 5) (1 / 10) none
  let trailingTrigger ← number (state.get "trailingStopTriggerPct") (4 / 5) (1 / 10) none
  let _ ← number (state.get "trailingStopDistancePct") (7 / 20) (1 / 20) none
  return {
    cooldown := cooldown
    partialTrigger := partialTrigger
    breakevenTrigger := breakevenTrigger
    trailingTrigger := trailingTrigger
    partialEnabled := !(state.getOr "partialTpEnabled" (.bool true)).isFalse
    breakevenEnabled := !(state.getOr "breakevenEnabled" (.bool true)).isFalse
    trailingEnabled := !(state.getOr "trailingStopEnabled" (.bool true)).isFalse }

/-- A position of a call, with what the exchange answers to its actions and the times at which
    each of them is claimed and released. -/
structure Reading where
  position : PyDict
  attempts : ℤ
  closeAnswers : CloseAnswers
  breakeven : Option (Bool × Option ℤ)
  trailing : Option (Bool × Option ℤ)
  claimedAt : String → ℚ
  releasedAt : String → ℚ

/-- `candidates`, for a position that has its prices, its side and its symbol. -/
def candidatesOf (settings : Settings) (reading : Reading) : List Candidate :=
  let position := reading.position
  match positiveOf repr (position.get "avgPrice"), positiveOf repr (position.get "markPrice"),
      Node.Side.ofText? (sideOf repr position) with
  | some avg, some mark, some side =>
    if symbolOf repr position = "" then []
    else
      let pnl := side.direction * (mark - avg) / avg * 100
      let alreadySafe := (positiveOf repr (position.get "stopLoss")).any fun stop =>
        side = .buy ∧ avg ≤ stop ∨ side = .sell ∧ stop ≤ avg
      let candidate (event : String) (eligible : Bool) (deed : Deed) : Candidate :=
        { event := event
          key := positionKey repr position
          legacy := legacyKey repr position
          eligible := eligible
          cooldown := settings.cooldown
          claimedAt := reading.claimedAt event
          releasedAt := reading.releasedAt event
          deed := deed }
      [candidate "partial_take_profit"
          (settings.partialEnabled && settings.partialTrigger ≤ pnl)
          (.partialClose position reading.attempts reading.closeAnswers),
        candidate "breakeven_stop"
          (settings.breakevenEnabled && settings.breakevenTrigger ≤ pnl && !alreadySafe)
          (.protection reading.breakeven),
        candidate "trailing_stop_enabled"
          (settings.trailingEnabled && settings.trailingTrigger ≤ pnl)
          (.protection reading.trailing)]
  | _, _, _ => []

end positions

/-! ## Runs -/

/-- What happens between two states. -/
inductive Step
  | action (c : Candidate)
  /-- Something else is journaled. -/
  | journaled (entry : Entry)
  | restart

/-- What happens in a run. -/
inductive Managing
  /-- `manage_positions(core, state)`; `none` where the positions are not read. -/
  | call (state : PyDict) (readings : Option (List Reading))
  | journaled (entry : Entry)
  | restart

section runs

variable (repr : PyValue → String) (limit : ℕ)

/-- The steps of a call are the actions that it goes through. -/
def Managing.steps : Managing → List Step
  | .call state readings =>
    match settingsOf state with
    | .error _ => []
    | .ok settings =>
      (readings.getD []).flatMap fun reading => (candidatesOf repr settings reading).map .action
  | .journaled entry => [.journaled entry]
  | .restart => [.restart]

/-- The memory after a step, and what the step reports. -/
def Step.perform (m : Memory) : Step → Memory × Option Report
  | .action c => c.perform repr limit m
  | .journaled entry => (m.add limit entry, none)
  | .restart => (m.restart, none)

/-- The steps of a run, each with the memory that it finds. -/
def stages (m : Memory) : List Step → List (Memory × Step)
  | [] => []
  | step :: l => (m, step) :: stages (step.perform repr limit m).1 l

/-- The reports of a run. -/
def reports (m : Memory) (l : List Managing) : List Report :=
  (stages repr limit m (l.flatMap (Managing.steps repr))).filterMap fun stage =>
    (stage.2.perform repr limit stage.1).2

/-- A partial close of the position, accepted by the exchange. -/
def Report.Accepted (key : String) (report : Report) : Prop :=
  report.event = "partial_take_profit" ∧ report.key = key ∧ report.answer = some 0

instance (key : String) (report : Report) : Decidable (report.Accepted key) :=
  inferInstanceAs (Decidable (_ ∧ _ ∧ _))

/-- At most one partial close of the position is accepted in the run. -/
def AcceptedOnce (m : Memory) (l : List Managing) (key : String) : Prop :=
  (reports repr limit m l).countP (Report.Accepted key) ≤ 1

/-- At this step, a partial close of the position is accepted. -/
def Accepts (key : String) (stage : Memory × Step) : Prop :=
  ∃ report, (stage.2.perform repr limit stage.1).2 = some report ∧ report.Accepted key

/-- There is profit enough for a partial close of the position, and the exchange would accept it. -/
structure Due (key : String) (c : Candidate) : Prop where
  event : c.event = "partial_take_profit"
  key : c.key = key
  eligible : c.eligible = true
  answer : (c.deed.execute repr).answer = some 0

/-- Nothing keeps the call from the action. -/
def Candidate.attempted (m : Memory) (c : Candidate) : Bool :=
  c.eligible && (completed m.journal c.event c.key c.legacy).isNone &&
    (claim m c.actionKey c.cooldown c.claimedAt).toOption.isSome

/-- What a step journals. -/
def journaledAt : Memory × Step → Option Entry
  | (m, .action c) => if c.attempted m then some (c.entry repr) else none
  | (_, .journaled entry) => some entry
  | (_, .restart) => none

/-- The process goes on, and does not attempt the action. -/
def Spares (actionKey : String) : Memory × Step → Prop
  | (m, .action c) => c.actionKey = actionKey → c.attempted m = false
  | (_, .journaled _) => True
  | (_, .restart) => False

/-- The entry completes the action. -/
def Entry.Completes (entry : Entry) (c : Candidate) : Prop :=
  entry.event = c.event ∧ (entry.positionKey = c.key ∨ entry.positionKey = c.legacy) ∧
    (entry.verified = true ∨ entry.retCode = some 0)

/-- Of some entries, one completes the action, and fewer than `limit` came after it. -/
def Kept (entries : List Entry) (c : Candidate) : Prop :=
  ∃ before entry after, entries = before ++ entry :: after ∧ entry.Completes c ∧
    (limit = 0 ∨ after.length < limit)

/-- The action failed in some step, `cooldown` seconds ago at most; it was not attempted since, and
    the process is the same. -/
def Cooling (l : List (Memory × Step)) (c : Candidate) : Prop :=
  ∃ before m failed after, l = before ++ (m, .action failed) :: after ∧
    failed.actionKey = c.actionKey ∧ failed.attempted m = true ∧
    (failed.action repr).verified = false ∧ c.claimedAt - failed.releasedAt < c.cooldown ∧
    ∀ stage ∈ after, Spares c.actionKey stage

end runs

/-! ## What a step does -/

section steps

variable {repr : PyValue → String} {limit : ℕ} {m claimed : Memory} {c : Candidate}
  {actionKey : String}

theorem claim_eq_ok {cooldown now : ℚ} :
    claim m actionKey cooldown now = .ok claimed ↔ actionKey ∉ m.inflight ∧
      (∀ failedAt ∈ m.failedAt actionKey, cooldown ≤ now - failedAt) ∧
      claimed = { m with inflight := actionKey :: m.inflight } := by
  rw [claim]
  split_ifs with hinflight hcooling
  · simp [hinflight]
  · obtain ⟨t, ht, hlt⟩ := (Option.any_eq_true _ _).1 hcooling
    simp only [false_iff, not_and]
    exact fun _ hcool => absurd (hcool t ht) (not_le.2 (of_decide_eq_true hlt))
  · have hcool : ∀ t ∈ m.failedAt actionKey, cooldown ≤ now - t := fun t ht => by
      by_contra hlt
      exact hcooling ((Option.any_eq_true _ _).2 ⟨t, ht, decide_eq_true (not_le.1 hlt)⟩)
    simp only [Except.ok.injEq, hinflight, not_false_eq_true, true_and, eq_comm (b := claimed)]
    exact (and_iff_right hcool).symm

/-- An action is attempted just if it is neither completed nor in progress, and its last failure is
    a cooldown ago. -/
theorem attempted_iff : c.attempted m = true ↔ c.eligible = true ∧
    completed m.journal c.event c.key c.legacy = none ∧ c.actionKey ∉ m.inflight ∧
    ∀ failedAt ∈ m.failedAt c.actionKey, c.cooldown ≤ c.claimedAt - failedAt := by
  have hclaim : (claim m c.actionKey c.cooldown c.claimedAt).toOption.isSome = true ↔
      ∃ claimed, claim m c.actionKey c.cooldown c.claimedAt = .ok claimed := by
    cases claim m c.actionKey c.cooldown c.claimedAt <;> simp [Except.toOption]
  rw [Candidate.attempted, Bool.and_eq_true, Bool.and_eq_true, hclaim, Option.isNone_iff_eq_none,
    and_assoc]
  simp only [claim_eq_ok, exists_and_left, exists_eq, and_true]

/-- An action that is attempted is journaled and released, and reported with the answer to its
    order. -/
theorem perform_of_attempted (h : c.attempted m = true) :
    ∃ pending, c.perform repr limit m = (release ({ m with
        inflight := c.actionKey :: m.inflight
        pending := pending }.add limit (c.entry repr)) c.actionKey (!(c.action repr).verified)
          c.releasedAt,
      some ⟨c.event, c.key, if (c.action repr).verified then .verified else .failed,
        (c.action repr).verified, (c.action repr).reason, (c.deed.execute repr).answer⟩) := by
  obtain ⟨heligible, hcompleted, hclaim⟩ := attempted_iff.1 h
  have hclaimed := claim_eq_ok.2 ⟨hclaim.1, hclaim.2, rfl⟩
  refine ⟨(c.deed.execute repr).pending.or m.pending, ?_⟩
  rw [Candidate.perform, if_pos heligible, hcompleted]
  dsimp only
  rw [hclaimed]

/-- An action that is not attempted leaves the memory, and sends no order. -/
theorem perform_of_not_attempted (h : c.attempted m = false) :
    (c.perform repr limit m).1 = m ∧
      ∀ report ∈ (c.perform repr limit m).2, report.answer = none := by
  rw [Candidate.perform]
  split
  · rename_i heligible
    split
    · exact ⟨rfl, fun report hreport => Option.some.inj hreport ▸ rfl⟩
    · rename_i hcompleted
      split
      · exact ⟨rfl, fun report hreport => Option.some.inj hreport ▸ rfl⟩
      · rename_i claimed hclaim
        obtain ⟨hinflight, hcool, -⟩ := claim_eq_ok.1 hclaim
        have := attempted_iff.2 ⟨heligible, hcompleted, hinflight, hcool⟩
        rw [h] at this
        cases this
  · exact ⟨rfl, fun report hreport => by cases hreport⟩

/-- A step adds to the journal what it journals. -/
theorem journal_perform (stage : Memory × Step) :
    (stage.2.perform repr limit stage.1).1.journal =
      (journaledAt repr stage).elim stage.1.journal
        fun entry => keepLast limit (stage.1.journal ++ [entry]) := by
  obtain ⟨m, step⟩ := stage
  cases step with
  | action c =>
    rcases hattempted : c.attempted m with _ | _
    · simp [Step.perform, journaledAt, hattempted, (perform_of_not_attempted hattempted).1]
    · obtain ⟨pending, hperform⟩ := @perform_of_attempted repr limit _ _ hattempted
      simp [Step.perform, journaledAt, hattempted, hperform, release, Memory.add]
  | journaled entry => rfl
  | restart => rfl

/-- No step leaves an action in progress. -/
theorem inflight_perform (stage : Memory × Step)
    (h : actionKey ∉ stage.1.inflight ∨ ¬Spares actionKey stage) :
    actionKey ∉ (stage.2.perform repr limit stage.1).1.inflight := by
  obtain ⟨m, step⟩ := stage
  cases step with
  | action c =>
    rcases hattempted : c.attempted m with _ | _
    · have hspares : Spares actionKey (m, .action c) := fun _ => hattempted
      simpa [Step.perform, (perform_of_not_attempted hattempted).1] using
        h.resolve_right (not_not.2 hspares)
    · obtain ⟨pending, hperform⟩ := @perform_of_attempted repr limit _ _ hattempted
      simp only [Step.perform, hperform, release, Memory.add, List.mem_filter, List.mem_cons,
        decide_eq_true_eq, not_and, not_not]
      rintro (rfl | hm)
      · rfl
      · by_contra hne
        exact h.elim (absurd hm) fun hspares => hspares fun he => absurd he.symm hne
  | journaled entry => exact h.resolve_right (not_not.2 trivial)
  | restart => exact List.not_mem_nil

/-- The last failure of an action after a step: that of the step, or one before it that the step
    spares. -/
theorem failedAt_perform (stage : Memory × Step) (t : ℚ) :
    (stage.2.perform repr limit stage.1).1.failedAt actionKey = some t ↔
      (∃ c, stage.2 = .action c ∧ c.actionKey = actionKey ∧ c.attempted stage.1 = true ∧
        (c.action repr).verified = false ∧ c.releasedAt = t) ∨
      stage.1.failedAt actionKey = some t ∧ Spares actionKey stage := by
  obtain ⟨m, step⟩ := stage
  cases step with
  | action c =>
    rcases hattempted : c.attempted m with _ | _
    · simp [Step.perform, Spares, hattempted, (perform_of_not_attempted hattempted).1]
    · obtain ⟨pending, hperform⟩ := @perform_of_attempted repr limit _ _ hattempted
      by_cases hkey : c.actionKey = actionKey
      · subst hkey
        cases hverified : (c.action repr).verified <;>
          simp [Step.perform, Spares, hattempted, hperform, release, Memory.add, hverified]
      · simp [Step.perform, Spares, hperform, release, Memory.add, hkey,
          Function.update_of_ne (Ne.symm hkey)]
  | journaled entry => simp [Step.perform, Spares, Memory.add]
  | restart => simp [Step.perform, Spares, Memory.restart]

end steps

/-! ## What a run keeps -/

section journal

variable {repr : PyValue → String} {limit : ℕ} {α : Type}

/-- What was dropped does not matter for what is dropped next. -/
theorem keepLast_append (n : ℕ) (l : List α) (a : α) :
    keepLast n (keepLast n l ++ [a]) = keepLast n (l ++ [a]) := by
  simp only [keepLast]
  split
  · rfl
  · rcases Nat.lt_or_ge l.length n with hshort | hlong
    · rw [Nat.sub_eq_zero_of_le hshort.le, List.drop_zero]
    · have hlen : (l.drop (l.length - n) ++ [a]).length - n = 1 := by
        simp
        omega
      rw [hlen, List.drop_append_of_le_length (by simp; omega), List.drop_drop,
        List.drop_append_of_le_length (by simp; omega)]
      congr 2
      simp
      omega

/-- What is kept has fewer than `n` others behind it. -/
theorem mem_keepLast {n : ℕ} {l : List α} {a : α} :
    a ∈ keepLast n l ↔ ∃ before after, l = before ++ a :: after ∧ (n = 0 ∨ after.length < n) := by
  rw [keepLast]
  split
  · rename_i hn
    simp [hn, List.mem_iff_append]
  · rename_i hn
    constructor
    · intro h
      obtain ⟨before, after, hsplit⟩ := List.mem_iff_append.1 h
      refine ⟨l.take (l.length - n) ++ before, after, ?_, .inr ?_⟩
      · rw [List.append_assoc, ← hsplit, List.take_append_drop]
      · have hlength := congrArg List.length hsplit
        simp only [List.length_drop, List.length_append, List.length_cons] at hlength
        omega
    · rintro ⟨before, after, rfl, hafter⟩
      have hdrop : (before ++ a :: after).length - n ≤ before.length := by
        simp only [List.length_append, List.length_cons]
        omega
      rw [List.drop_append_of_le_length hdrop]
      simp

/-- A part of a run is a run. -/
theorem stages_suffix {m : Memory} {l : List Step} {pre rest : List (Memory × Step)}
    (h : stages repr limit m l = pre ++ rest) : ∃ m' l', stages repr limit m' l' = rest := by
  induction pre generalizing m l with
  | nil => exact ⟨m, l, h⟩
  | cons stage pre ih =>
    cases l with
    | nil => cases h
    | cons step l => exact ih (List.cons.inj h).2

/-- The journal after some stages. -/
theorem journal_stages {m : Memory} {l : List Step} {before post : List (Memory × Step)}
    {stage : Memory × Step} {entries : List Entry} (hm : m.journal = keepLast limit entries)
    (h : stages repr limit m l = before ++ stage :: post) :
    stage.1.journal = keepLast limit (entries ++ before.filterMap (journaledAt repr)) := by
  induction before generalizing m l entries with
  | nil =>
    cases l with
    | nil => cases h
    | cons step l =>
      obtain rfl := (List.cons.inj h).1
      simpa using hm
  | cons first before ih =>
    cases l with
    | nil => cases h
    | cons step l =>
      obtain ⟨rfl, hrest⟩ := List.cons.inj h
      have hjournal := @journal_perform repr limit (m, step)
      rcases hentry : journaledAt repr (m, step) with _ | entry
      · rw [hentry] at hjournal
        rw [List.filterMap_cons_none hentry]
        exact ih (hjournal.trans hm) hrest
      · rw [hentry, Option.elim_some, hm, keepLast_append] at hjournal
        rw [List.filterMap_cons_some hentry, List.append_cons]
        exact ih hjournal hrest

/-- After an attempt, the action is not in progress. -/
theorem inflight_stages {m : Memory} {l : List Step} {before post : List (Memory × Step)}
    {stage : Memory × Step} {actionKey : String}
    (hbefore : actionKey ∉ m.inflight ∨ ∃ first ∈ before, ¬Spares actionKey first)
    (h : stages repr limit m l = before ++ stage :: post) : actionKey ∉ stage.1.inflight := by
  induction before generalizing m l with
  | nil =>
    cases l with
    | nil => cases h
    | cons step l =>
      obtain rfl := (List.cons.inj h).1
      simpa using hbefore
  | cons first before ih =>
    cases l with
    | nil => cases h
    | cons step l =>
      obtain ⟨rfl, hrest⟩ := List.cons.inj h
      refine ih ?_ hrest
      rw [List.exists_mem_cons_iff, ← or_assoc] at hbefore
      exact hbefore.imp_left (inflight_perform (m, step))

/-- The last failure of an action after some stages: that of one of them, or one before them that
    they all spare. -/
theorem failedAt_stages {m : Memory} {l : List Step} {before post : List (Memory × Step)}
    {stage : Memory × Step} {actionKey : String} {t : ℚ}
    (h : stages repr limit m l = before ++ stage :: post) :
    stage.1.failedAt actionKey = some t ↔
      (∃ earlier m c later, before = earlier ++ (m, .action c) :: later ∧
        c.actionKey = actionKey ∧ c.attempted m = true ∧ (c.action repr).verified = false ∧
        c.releasedAt = t ∧ ∀ stage ∈ later, Spares actionKey stage) ∨
      m.failedAt actionKey = some t ∧ ∀ stage ∈ before, Spares actionKey stage := by
  induction before generalizing m l with
  | nil =>
    cases l with
    | nil => cases h
    | cons step l =>
      obtain rfl := (List.cons.inj h).1
      simp
  | cons first before ih =>
    cases l with
    | nil => cases h
    | cons step l =>
      obtain ⟨rfl, hrest⟩ := List.cons.inj h
      have hperform := @failedAt_perform repr limit actionKey (m, step) t
      rw [ih hrest, hperform]
      constructor
      · rintro (⟨earlier, m', c, later, rfl, hc⟩ | ⟨⟨c, rfl, hkey, hattempted, hfails, ht⟩ | hm, hall⟩)
        · exact .inl ⟨(m, step) :: earlier, m', c, later, rfl, hc⟩
        · exact .inl ⟨[], m, c, before, rfl, hkey, hattempted, hfails, ht, hall⟩
        · exact .inr ⟨hm.1, List.forall_mem_cons.2 ⟨hm.2, hall⟩⟩
      · rintro (⟨earlier, m', c, later, hsplit, hc⟩ | ⟨hm, hall⟩)
        · cases earlier with
          | nil =>
            obtain ⟨hfirst, rfl⟩ := List.cons.inj hsplit
            obtain ⟨rfl, rfl⟩ := Prod.mk.inj hfirst
            obtain ⟨hkey, hattempted, hfails, ht, hall⟩ := hc
            exact .inr ⟨.inl ⟨c, rfl, hkey, hattempted, hfails, ht⟩, hall⟩
          | cons _ earlier => exact .inl ⟨earlier, m', c, later, (List.cons.inj hsplit).2, hc⟩
        · obtain ⟨hfirst, hall⟩ := List.forall_mem_cons.1 hall
          exact .inr ⟨.inr ⟨hm, hfirst⟩, hall⟩

end journal

/-! ## At most once -/

section once

variable {repr : PyValue → String} {limit : ℕ} {key : String}

/-- An action is completed just if an entry of the journal completes it. -/
theorem completed_isSome {entries : List Entry} {c : Candidate} :
    (completed entries c.event c.key c.legacy).isSome = true ↔
      ∃ entry ∈ entries, entry.Completes c := by
  rw [completed, List.findSome?_isSome_iff]
  refine exists_congr fun entry => and_congr_right fun _ => ?_
  rw [Entry.Completes]
  by_cases hentry : entry.event = c.event ∧ (entry.positionKey = c.key ∨ entry.positionKey = c.legacy)
  · rw [if_pos hentry]
    simp only [hentry, true_and]
    split_ifs <;> simp_all
  · rw [if_neg hentry]
    simp only [Option.isSome_none, Bool.false_eq_true, false_iff]
    exact fun h => hentry ⟨h.1, h.2.1⟩

/-- A close is accepted where it is due and attempted. -/
theorem accepts_iff (stage : Memory × Step) : Accepts repr limit key stage ↔
    ∃ c, stage.2 = .action c ∧ Due repr key c ∧ c.attempted stage.1 = true := by
  obtain ⟨m, step⟩ := stage
  cases step with
  | action c =>
    simp only [Accepts, Step.perform, Step.action.injEq, exists_eq_left']
    rcases hattempted : c.attempted m with _ | _
    · simp only [Bool.false_eq_true, and_false, iff_false, not_exists, not_and]
      intro report hreport haccepted
      have hnone := (@perform_of_not_attempted repr limit _ _ hattempted).2 report hreport
      rw [haccepted.2.2] at hnone
      cases hnone
    · obtain ⟨pending, hperform⟩ := @perform_of_attempted repr limit _ _ hattempted
      have heligible := (attempted_iff.1 hattempted).1
      simp only [hperform, Option.some.injEq, exists_eq_left', Report.Accepted, and_true]
      exact ⟨fun h => ⟨h.1, h.2.1, heligible, h.2.2⟩, fun h => ⟨h.event, h.key, h.answer⟩⟩
  | journaled entry => simp [Accepts, Step.perform]
  | restart => simp [Accepts, Step.perform]

/-- What is counted at most once does not come after itself. -/
theorem countP_le_one {α : Type} (p : α → Bool) (l : List α) :
    l.countP p ≤ 1 ↔
      ∀ pre a between b post, l = pre ++ a :: (between ++ b :: post) → p a → ¬p b := by
  induction l with
  | nil => simp
  | cons a l ih =>
    rw [List.countP_cons]
    constructor
    · intro h pre a' between b post hsplit ha' hb
      cases pre with
      | nil =>
        obtain ⟨rfl, rfl⟩ := List.cons.inj hsplit
        have hpos : 0 < (between ++ b :: post).countP p :=
          List.countP_pos_iff.2 ⟨b, List.mem_append_right _ List.mem_cons_self, hb⟩
        rw [if_pos ha'] at h
        omega
      | cons _ pre =>
        have hl : l.countP p ≤ 1 := by omega
        exact ih.1 hl pre a' between b post (List.cons.inj hsplit).2 ha' hb
    · intro h
      have hl := ih.2 fun pre a' between b post hsplit =>
        h (a :: pre) a' between b post (congrArg (a :: ·) hsplit)
      split
      · rename_i ha
        have hzero : l.countP p = 0 := List.countP_eq_zero.2 fun b hb => by
          obtain ⟨between, post, rfl⟩ := List.mem_iff_append.1 hb
          exact h [] a between b post rfl ha
        omega
      · exact hl

/-- After an accepted close, the next one that is due is held back just if the journal has kept an
    entry that completes it, or the last failure is in its cooldown. -/
theorem attempted_after {m m' : Memory} {l : List Step} {a : Memory × Step}
    {between post : List (Memory × Step)} {c : Candidate}
    (h : stages repr limit m l = a :: (between ++ (m', .action c) :: post))
    (ha : Accepts repr limit key a) (hc : Due repr key c) : c.attempted m' = false ↔
      Kept limit (a.1.journal ++ (a :: between).filterMap (journaledAt repr)) c ∨
        Cooling repr (a :: between) c := by
  obtain ⟨first, hfirst, hdue, hattempted⟩ := (accepts_iff a).1 ha
  have hkey : first.actionKey = c.actionKey := by
    rw [Candidate.actionKey, Candidate.actionKey, hdue.event, hdue.key, hc.event, hc.key]
  have hspares : ¬Spares c.actionKey a := by
    obtain ⟨m₁, step⟩ := a
    subst hfirst
    exact fun hspares => absurd (hspares hkey) (by simp [hattempted])
  have hinflight : c.actionKey ∉ m'.inflight :=
    @inflight_stages repr limit _ _ (a :: between) _ _ _ (.inr ⟨a, List.mem_cons_self, hspares⟩) h
  -- the accepted close is journaled, and its entry and those after it are what the journal kept
  have hjournal : m'.journal =
      keepLast limit (a.1.journal ++ (a :: between).filterMap (journaledAt repr)) := by
    cases l with
    | nil => cases h
    | cons step l =>
      obtain ⟨rfl, hrest⟩ := List.cons.inj h
      have hentry : journaledAt repr (m, step) = some (first.entry repr) := by
        obtain rfl : step = .action first := hfirst
        exact if_pos hattempted
      have hadded := @journal_perform repr limit (m, step)
      rw [hentry, Option.elim_some] at hadded
      rw [List.filterMap_cons_some hentry, List.append_cons]
      exact journal_stages hadded hrest
  have hkept : completed m'.journal c.event c.key c.legacy = none ↔
      ¬Kept limit (a.1.journal ++ (a :: between).filterMap (journaledAt repr)) c := by
    rw [← Option.not_isSome_iff_eq_none, completed_isSome, hjournal, Kept]
    refine not_congr ⟨?_, ?_⟩
    · rintro ⟨entry, hmem, hcompletes⟩
      obtain ⟨before, after, hsplit, hafter⟩ := mem_keepLast.1 hmem
      exact ⟨before, entry, after, hsplit, hcompletes, hafter⟩
    · rintro ⟨before, entry, after, hsplit, hcompletes, hafter⟩
      exact ⟨entry, mem_keepLast.2 ⟨before, after, hsplit, hafter⟩, hcompletes⟩
  have hcool : (∀ t ∈ m'.failedAt c.actionKey, c.cooldown ≤ c.claimedAt - t) ↔
      ¬Cooling repr (a :: between) c := by
    have hfailed : ∀ t, t ∈ m'.failedAt c.actionKey ↔ _ := fun t =>
      @failedAt_stages repr limit _ _ (a :: between) _ _ _ t h
    constructor
    · rintro hall ⟨before, m₁, failed, after, hsplit, hkey, hattempted, hfails, hlt, hspared⟩
      have hmem := (hfailed failed.releasedAt).2
        (.inl ⟨before, m₁, failed, after, hsplit, hkey, hattempted, hfails, rfl, hspared⟩)
      exact absurd (hall _ hmem) (not_le.2 hlt)
    · intro hno t ht
      by_contra hlt
      rcases (hfailed t).1 ht with
        ⟨before, m₁, failed, after, hsplit, hkey, hattempted, hfails, rfl, hspared⟩ | ⟨-, hall⟩
      · exact hno ⟨before, m₁, failed, after, hsplit, hkey, hattempted, hfails, not_le.1 hlt, hspared⟩
      · exact hspares (hall a List.mem_cons_self)
  rw [← Bool.not_eq_true, attempted_iff, hkept, hcool]
  have heligible := hc.eligible
  tauto

/-- At most one partial close of a position is accepted just if, whenever another one is due after
    an accepted one, the journal has kept an entry that completes it, or the last failure is in its
    cooldown. -/
theorem partial_accepted_once_iff (repr : PyValue → String) (limit : ℕ) (m : Memory)
    (l : List Managing) (key : String) : AcceptedOnce repr limit m l key ↔
      ∀ pre a between m' c post, stages repr limit m (l.flatMap (Managing.steps repr)) =
          pre ++ a :: (between ++ (m', .action c) :: post) →
        Accepts repr limit key a → Due repr key c →
        Kept limit (a.1.journal ++ (a :: between).filterMap (journaledAt repr)) c ∨
          Cooling repr (a :: between) c := by
  have hcount : (reports repr limit m l).countP (Report.Accepted key) =
      (stages repr limit m (l.flatMap (Managing.steps repr))).countP fun stage =>
        (stage.2.perform repr limit stage.1).2.any (Report.Accepted key) := by
    rw [reports, List.countP_filterMap]
    congr 1
    funext stage
    cases (stage.2.perform repr limit stage.1).2 <;> rfl
  have haccepts : ∀ stage : Memory × Step,
      (stage.2.perform repr limit stage.1).2.any (Report.Accepted key) = true ↔
        Accepts repr limit key stage := fun stage => by
    rw [Option.any_eq_true]
    simp [Accepts]
  rw [AcceptedOnce, hcount, countP_le_one]
  simp only [haccepts]
  constructor
  · intro h pre a between m' c post hsplit ha hc
    obtain ⟨m₁, l₁, hrest⟩ := stages_suffix hsplit
    refine (attempted_after hrest ha hc).1 (Bool.not_eq_true _ ▸ fun hattempted => ?_)
    exact h pre a between _ post hsplit ha ((accepts_iff _).2 ⟨c, rfl, hc, hattempted⟩)
  · intro h pre a between b post hsplit ha hb
    obtain ⟨c, hstep, hc, hattempted⟩ := (accepts_iff b).1 hb
    obtain ⟨m', step⟩ := b
    obtain rfl : step = .action c := hstep
    obtain ⟨m₁, l₁, hrest⟩ := stages_suffix hsplit
    have hheld := (attempted_after hrest ha hc).2 (h pre a between m' c post hsplit ha hc)
    rw [hheld] at hattempted
    cases hattempted

/-! ### A close that is sent twice -/

/-- A long position with a profit of two percent. -/
def examplePosition : PyDict :=
  [("symbol", .str "BTCUSDT"), ("side", .str "Buy"), ("size", .str "1"), ("avgPrice", .str "100"),
    ("markPrice", .str "102"), ("positionIdx", .int 0), ("createdTime", .str "1700000000000")]

/-- The close is acknowledged, and the order is still new. -/
def exampleReading (time : ℚ) : Reading where
  position := examplePosition
  attempts := 4
  closeAnswers :=
    { close := .ok (some
        { retCode := some 0, retMsg := "OK", orderId := "close-1", orderLinkId := "" })
      requester := fun _ _ _ => .orders [some
        { orderId := some "close-1"
          orderLinkId := none
          orderStatus := some "New"
          cumExecQty := some "0"
          avgPrice := none }]
      polls := fun _ => .noList }
  breakeven := none
  trailing := none
  claimedAt _ := time
  releasedAt _ := time

/-- Two calls, with more than the cooldown between them. -/
def exampleCalls : List Managing :=
  [.call [] (some [exampleReading 0]), .call [] (some [exampleReading 61])]

/-- The second call does not know of the close that the first one sent. -/
theorem partial_accepted_twice :
    ¬∀ (repr : PyValue → String) (limit : ℕ) (m : Memory) (l : List Managing) (key : String),
      AcceptedOnce repr limit m l key := by
  intro h
  have honce : (reports (fun _ => "") 1000 ⟨[], [], fun _ => none, none⟩ exampleCalls).countP
      (Report.Accepted "BTCUSDT:Buy:0:1700000000000") ≤ 1 := h ..
  revert honce
  decide +kernel

end once

end IntradayBot.Fill
