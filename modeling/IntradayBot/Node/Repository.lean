import IntradayBot.Data.SortBy
import IntradayBot.Node.Command

/-!
# The tables

PostgreSQL keeps the commands (`execution_commands`) and the records of trade
management (`runtime_state`). `Tables` holds what the unique index on the slots
of active commands guarantees. Each statement or transaction of the service is
a `DbOp`, whose effect is `DbOp.perform`.

A call may fail, before its effect (`Outcome.lost`) or after it
(`Outcome.unacknowledged`).
-/

namespace IntradayBot.Node

/-- The tables of the database. -/
structure Tables where
  /-- `execution_commands` -/
  commands : CommandMap
  /-- `runtime_state`, by candidate key. -/
  runtimeState : OrdMap String ManagementState
  collation : Collation
  /-- `ux_execution_commands_active_slot` -/
  activeSlots : ∀ k k' c c', commands.get? k = some c → commands.get? k' = some c' →
    c.state.Active → c'.state.Active → c.slotId = c'.slotId → c.slotId ≠ none → k = k'

/-- The calls to the database. -/
inductive DbOp
  /-- `SELECT 1`, in the session that holds the leader lock. -/
  | leaderAlive
  | selectActive
  | claim (ownerId : String) (slotId : ℕ) (now : ℕ)
  | selectOwned (ownerId : String) (slotId : ℕ)
  | updateState (command : Command) (nextState : CommandState)
      (edge : nextState ∈ CommandState.TRANSITIONS command.state) (now : ℕ)
  | reservedMargin (candidateKey : String)
  | selectManagement (candidateKey : String)
  | upsertManagement (candidateKey : String) (state : ManagementState)
  | upsertOrder (candidateKey : String) (status : String)
  | insertFill (candidateKey : String) (execId : String)

/-- What a call to the database returns. -/
abbrev DbOp.Val : DbOp → Type
  | .leaderAlive | .upsertManagement _ _ | .upsertOrder _ _ | .insertFill _ _ => Unit
  | .selectActive => List Command
  | .claim _ _ _ | .selectOwned _ _ | .updateState _ _ _ _ => Option Command
  | .reservedMargin _ => ℚ
  | .selectManagement _ => Option ManagementState

/-- The number written by a text of the form `^[0-9]+(\.[0-9]+)?$`. -/
def plainDecimal (s : String) : Option ℚ :=
  let whole := s.toList.takeWhile Char.isDigit
  match s.toList.dropWhile Char.isDigit with
  | [] => if whole = [] then none else Json.unsigned whole
  | c :: fraction => if c = '.' ∧ whole ≠ [] ∧ fraction ≠ [] then Json.unsigned s.toList else none

/-- The margin of a row, as the database reads it. -/
def rowMargin (payload : Json) : ℚ :=
  match payload.get "requiredInitialMarginUsdt" with
  | some (.num q) => max 0 q
  | some (.str s) => (plainDecimal s).getD 0
  | _ => 0

namespace Tables

/-- No rows. -/
def empty : Tables := ⟨∅, ∅, .codePoints, fun k k' c c' h => by simp at h⟩

instance : EmptyCollection Tables := ⟨empty⟩

/-- The row of key `k`. -/
abbrev row? (t : Tables) (k : String) : Option Command := t.commands.get? k

/-- The rows in a state of `ACTIVE`. -/
def activeRows (t : Tables) : List Command := t.commands.commands.filter (·.state.Active)

theorem mem_activeRows {t : Tables} {c : Command} :
    c ∈ t.activeRows ↔ t.row? c.candidateKey = some c ∧ c.state.Active := by
  simp [activeRows, CommandMap.mem_commands]

/-- The row that `claim` takes: the first available one that is not locked. -/
def claimable (t : Tables) (locked : String → Bool) : Option Command :=
  earliest (fun a b => t.collation.text a ≤ t.collation.text b)
    (t.commands.commands.filter fun c => c.state = .available ∧ !locked c.candidateKey)

theorem claimable_row {t : Tables} {locked : String → Bool} {c : Command}
    (h : t.claimable locked = some c) :
    t.row? c.candidateKey = some c ∧ c.state = .available := by
  have := mem_of_earliest h
  simp only [List.mem_filter, CommandMap.mem_commands, decide_eq_true_eq] at this
  exact ⟨this.1, this.2.1⟩

/-- The slot is not that of an active row. -/
abbrev SlotFree (t : Tables) (slotId : ℕ) : Prop := ∀ c ∈ t.activeRows, c.slotId ≠ some slotId

/-- The tables with the row of `c` rewritten to `c`, which is active only if no
    other active row has its slot. -/
def putRow (t : Tables) (c : Command)
    (h : c.state.Active → ∀ d, t.row? d.candidateKey = some d → d.state.Active →
      d.slotId = c.slotId → d.slotId ≠ none → d.candidateKey = c.candidateKey) : Tables where
  commands := t.commands.put c
  runtimeState := t.runtimeState
  collation := t.collation
  activeSlots k k' d d' hd hd' ha ha' hs hn := by
    have key : ∀ {k d}, t.commands.get? k = some d → d.candidateKey = k := fun h =>
      CommandMap.candidateKey_of_get? h
    rw [CommandMap.get?_put] at hd hd'
    split at hd <;> split at hd'
    · simp_all
    · obtain rfl := Option.some.inj hd
      have := h ha d' (by rwa [Tables.row?, key hd']) ha' hs.symm (hs ▸ hn)
      rw [‹k = _›, ← this, key hd']
    · obtain rfl := Option.some.inj hd'
      have := h ha' d (by rwa [Tables.row?, key hd]) ha hs hn
      rw [‹k' = _›, ← this, key hd]
    · exact t.activeSlots k k' d d' hd hd' ha ha' hs hn

@[simp] theorem row?_putRow (t : Tables) (c : Command) (h) (k : String) :
    (t.putRow c h).row? k = if k = c.candidateKey then some c else t.row? k :=
  CommandMap.get?_put ..

/-- `INSERT … ON CONFLICT(candidate_key) DO NOTHING`: a candidate is published. -/
def publish (t : Tables) (candidateKey : String) (payload : Json) (now : ℕ) : Tables :=
  match t.row? candidateKey with
  | some _ => t
  | none =>
    t.putRow {
      candidateKey := candidateKey
      slotId := none
      state := .available
      payload := payload
      ownerId := none
      createdAt := now
      updatedAt := now
      source := .postgresql } fun h => absurd h CommandState.not_active_available

/-- `UPDATE … WHERE candidate_key=… AND state='AVAILABLE'`: the payload of a candidate
    is refreshed. -/
def refresh (t : Tables) (candidateKey : String) (payload : Json) (now : ℕ) : Tables :=
  match t.row? candidateKey with
  | some row =>
    if row.state = .available then
      t.putRow { row with
        slotId := none, state := .available, ownerId := none, payload := payload, updatedAt := now }
        fun h => absurd h CommandState.not_active_available
    else t
  | none => t

/-- The transaction of `claim`. -/
def claim (t : Tables) (locked : String → Bool) (ownerId : String) (slotId now : ℕ) :
    Option Command × Tables :=
  if free : t.SlotFree slotId then
    if 3 ≤ t.activeRows.length then (none, t)
    else match t.claimable locked with
      | none => (none, t)
      | some row =>
        let claimed : Command :=
          { row with
            state := .reserved
            slotId := some slotId
            ownerId := some ownerId
            updatedAt := now }
        (some claimed, t.putRow claimed fun _ d hd ha hs _ =>
          absurd hs (free d (mem_activeRows.2 ⟨hd, ha⟩)))
  else (none, t)

/-- The row of a command is still as the command says. -/
abbrev Fence (row command : Command) : Prop :=
  row.ownerId = command.ownerId ∧ command.ownerId ≠ none ∧
    row.slotId = command.slotId ∧ command.slotId ≠ none ∧ row.state = command.state

/-- `UPDATE … WHERE candidate_key=… AND owner_id=… AND slot_id=… AND state=…` -/
def updateState (t : Tables) (command : Command) (nextState : CommandState)
    (edge : nextState ∈ CommandState.TRANSITIONS command.state) (now : ℕ) :
    Option Command × Tables :=
  match hrow : t.row? command.candidateKey with
  | none => (none, t)
  | some row =>
    if fence : Fence row command then
      let updated : Command := { row with state := nextState, updatedAt := now }
      (some updated, t.putRow updated fun _ d hd ha hs hn =>
        have key : row.candidateKey = command.candidateKey := CommandMap.candidateKey_of_get? hrow
        have active : row.state.Active := by
          rw [fence.2.2.2.2]
          exact CommandState.active_of_mem_transitions edge
        t.activeSlots _ _ d row hd (by rwa [key]) ha active hs hn)
    else (none, t)

/-- The sum of the margins of the other commands about to be executed. -/
def reservedMargin (t : Tables) (candidateKey : String) : ℚ :=
  ((t.commands.commands.filter fun c => c.candidateKey ≠ candidateKey ∧
    (c.state = .reserved ∨ c.state = .orderPending)).map fun c => rowMargin c.payload).sum

end Tables

/-- What a call returns, and the tables it leaves; rows that are `locked` by others
    are skipped by `claim`. -/
def DbOp.perform (locked : String → Bool) : (o : DbOp) → Tables → o.Val × Tables
  | .leaderAlive, t => ((), t)
  | .selectActive, t => (t.activeRows, t)
  | .claim ownerId slotId now, t => t.claim locked ownerId slotId now
  | .selectOwned ownerId slotId, t =>
    (t.activeRows.find? fun c => c.ownerId = some ownerId ∧ c.slotId = some slotId, t)
  | .updateState command nextState edge now, t => t.updateState command nextState edge now
  | .reservedMargin candidateKey, t => (t.reservedMargin candidateKey, t)
  | .selectManagement candidateKey, t => (t.runtimeState.get? candidateKey, t)
  | .upsertManagement candidateKey state, t =>
    ((), { t with runtimeState := t.runtimeState.set candidateKey state })
  | .upsertOrder _ _, t => ((), t)
  | .insertFill _ _, t => ((), t)

/-- How a call ends. -/
inductive Outcome
  | done (locked : String → Bool)
  /-- It failed without effect. -/
  | lost (reason : String)
  /-- It took effect, but the service does not know. -/
  | unacknowledged (locked : String → Bool) (reason : String)

/-- The answer to a call, and the tables it leaves. -/
def DbOp.answer (out : Outcome) (o : DbOp) (t : Tables) : Except JsError o.Val × Tables :=
  match out with
  | .done locked => ((o.perform locked t).map .ok id)
  | .lost reason => (.error (.error reason), t)
  | .unacknowledged locked reason => (.error (.error reason), (o.perform locked t).2)

/-! ## What the calls do to the rows -/

namespace Tables

variable {t : Tables} {locked : String → Bool} {ownerId : String} {slotId now : ℕ}

/-- Publishing only adds an available row. -/
theorem row?_publish (t : Tables) (candidateKey : String) (payload : Json) (now : ℕ) (k : String) :
    (t.publish candidateKey payload now).row? k = t.row? k ∨
      k = candidateKey ∧ t.row? k = none ∧
        ∃ row, (t.publish candidateKey payload now).row? k = some row ∧ row.state = .available := by
  unfold publish
  split
  · exact .inl rfl
  · rename_i h
    rw [row?_putRow]
    split
    · rename_i hk
      exact .inr ⟨hk, hk ▸ h, _, rfl, rfl⟩
    · exact .inl rfl

/-- Refreshing only rewrites an available row. -/
theorem row?_refresh (t : Tables) (candidateKey : String) (payload : Json) (now : ℕ) (k : String) :
    (t.refresh candidateKey payload now).row? k = t.row? k ∨
      k = candidateKey ∧ ∃ row row', t.row? k = some row ∧ row.state = .available ∧
        (t.refresh candidateKey payload now).row? k = some row' ∧ row'.state = .available := by
  unfold refresh
  split
  · rename_i row h
    split
    · rename_i hst
      rw [row?_putRow]
      split
      · rename_i hk
        have hk' : k = candidateKey :=
          (show k = row.candidateKey from hk).trans (CommandMap.candidateKey_of_get? h)
        exact .inr ⟨hk', row, _, hk' ▸ h, hst, rfl, rfl⟩
      · exact .inl rfl
    · exact .inl rfl
  · exact .inl rfl

/-- What a claim may do. -/
theorem claim_cases (t : Tables) (locked : String → Bool) (ownerId : String) (slotId now : ℕ) :
    t.claim locked ownerId slotId now = (none, t) ∨
      ∃ row claimed : Command, t.row? row.candidateKey = some row ∧ row.state = .available ∧
        t.SlotFree slotId ∧ t.activeRows.length < 3 ∧
        claimed = { row with
          state := .reserved
          slotId := some slotId
          ownerId := some ownerId
          updatedAt := now } ∧
        (t.claim locked ownerId slotId now).1 = some claimed ∧
        ∀ k, (t.claim locked ownerId slotId now).2.row? k =
          if k = row.candidateKey then some claimed else t.row? k := by
  unfold claim
  split
  · split
    · exact .inl rfl
    · split
      · exact .inl rfl
      · rename_i free hlen _ row hrow
        obtain ⟨hget, hst⟩ := claimable_row hrow
        exact .inr ⟨row, _, hget, hst, free, not_le.1 hlen, rfl, rfl, fun k => by rw [row?_putRow]⟩
  · exact .inl rfl

/-- What an update may do. -/
theorem updateState_cases (t : Tables) (command : Command) (nextState : CommandState)
    (edge : nextState ∈ CommandState.TRANSITIONS command.state) (now : ℕ) :
    (t.updateState command nextState edge now = (none, t) ∧
      ∀ row, t.row? command.candidateKey = some row → ¬Fence row command) ∨
    ∃ row updated : Command, t.row? command.candidateKey = some row ∧ Fence row command ∧
      updated = { row with state := nextState, updatedAt := now } ∧
      (t.updateState command nextState edge now).1 = some updated ∧
      ∀ k, (t.updateState command nextState edge now).2.row? k =
        if k = command.candidateKey then some updated else t.row? k := by
  unfold updateState
  split
  · rename_i h
    exact .inl ⟨rfl, by simp [h]⟩
  · rename_i row hrow
    split
    · rename_i fence
      refine .inr ⟨row, _, hrow, fence, rfl, rfl, fun k => ?_⟩
      have key : row.candidateKey = command.candidateKey := CommandMap.candidateKey_of_get? hrow
      simp [key]
    · rename_i fence
      refine .inl ⟨rfl, fun row' h => ?_⟩
      rw [hrow] at h
      rwa [← Option.some.inj h]

end Tables

/-- The call neither claims nor updates a command. -/
def DbOp.Quiet : DbOp → Prop
  | .claim _ _ _ | .updateState _ _ _ _ => False
  | _ => True

theorem DbOp.Quiet.commands_perform {o : DbOp} (h : o.Quiet) (locked : String → Bool)
    (t : Tables) : (o.perform locked t).2.commands = t.commands := by
  cases o <;> first | rfl | exact h.elim

theorem DbOp.Quiet.commands_answer {o : DbOp} (h : o.Quiet) (out : Outcome) (t : Tables) :
    (o.answer out t).2.commands = t.commands := by
  cases out with
  | done locked => exact h.commands_perform locked t
  | lost reason => rfl
  | unacknowledged locked reason => exact h.commands_perform locked t

/-- The call leaves the records of trade management alone. -/
def DbOp.Unmanaging : DbOp → Prop
  | .upsertManagement _ _ => False
  | _ => True

theorem Tables.runtimeState_claim (t : Tables) (locked : String → Bool) (ownerId : String)
    (slotId now : ℕ) : (t.claim locked ownerId slotId now).2.runtimeState = t.runtimeState := by
  rw [claim]
  split
  · split
    · rfl
    · split <;> rfl
  · rfl

theorem Tables.runtimeState_updateState (t : Tables) (command : Command)
    (nextState : CommandState) (edge : nextState ∈ CommandState.TRANSITIONS command.state)
    (now : ℕ) : (t.updateState command nextState edge now).2.runtimeState = t.runtimeState := by
  rw [updateState]
  split
  · rfl
  · split <;> rfl

theorem DbOp.Unmanaging.runtimeState_answer {o : DbOp} (h : o.Unmanaging) (out : Outcome)
    (t : Tables) : (o.answer out t).2.runtimeState = t.runtimeState := by
  have hperform : ∀ locked, (o.perform locked t).2.runtimeState = t.runtimeState := fun locked => by
    cases o with
    | claim ownerId slotId now => exact t.runtimeState_claim locked ownerId slotId now
    | updateState command nextState edge now =>
      exact t.runtimeState_updateState command nextState edge now
    | upsertManagement candidateKey state => exact h.elim
    | _ => rfl
  cases out with
  | done locked => exact hperform locked
  | lost reason => rfl
  | unacknowledged locked reason => exact hperform locked

end IntradayBot.Node
