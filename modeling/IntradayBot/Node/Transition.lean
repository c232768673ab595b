import IntradayBot.Node.HybridRepository

/-!
# The fence of transitions

A transition is *fenced* when it moves the recorded state of the candidate along
an edge of `TRANSITIONS`, for the recorded owner and slot, and when a refusal of
the database is reported and leaves the candidate as it was.

The repository has three ways to move a command: its entry in memory, its row,
and a shadow of the row once the database failed. Only the second one is fenced
by the code, and its refusals are taken for failures: they end in a shadow. The
transition is fenced exactly when there was nothing to refuse
(`transition_fenced_iff`).
-/

namespace IntradayBot.Node

open Coop

namespace HybridRepository

/-- `transition(command, nextState)` run alone. -/
def runTransition (out : Outcome) (w : World Memory Tables) (command : Command)
    (nextState : CommandState) : Except JsError Command × World Memory Tables :=
  (transition command nextState).eval (answerDb fun _ => out) w

/-- The row of a candidate, where there is a database. -/
def rowOf (w : World Memory Tables) (candidateKey : String) : Option Command :=
  if w.mem.database then w.remote.row? candidateKey else none

/-- What is recorded for a candidate: its entry in memory, or else its row. -/
def recorded (w : World Memory Tables) (candidateKey : String) : Option Command :=
  (w.mem.direct.get? candidateKey).or (rowOf w candidateKey)

/-- Moving `stored` to a state leaves it as it is, or follows an edge, for the
    owner and the slot of the command. -/
def Along (stored command : Command) (nextState : CommandState) : Prop :=
  stored.state = nextState ∨
    nextState ∈ CommandState.TRANSITIONS stored.state ∧
      stored.ownerId = command.ownerId ∧ stored.slotId = command.slotId

/-- What is recorded moves along an edge, if its state changes at all. -/
def MovesAlong (before after : Option Command) (command : Command) : Prop :=
  after.map Command.state = before.map Command.state ∨
    ∃ stored stored', before = some stored ∧ after = some stored' ∧
      Along stored command stored'.state

/-- The transition is for the database to make. -/
def AsksDatabase (w : World Memory Tables) (command : Command) : Prop :=
  w.mem.direct.get? command.candidateKey = none ∧ w.mem.usable = true

/-- `ExecutionRepository.transition` refuses: the edge is not allowed, or no row is
    still as the command says. -/
def Refuses (out : Outcome) (t : Tables) (command : Command) (nextState : CommandState) : Prop :=
  nextState ∉ CommandState.TRANSITIONS command.state ∨
    (∃ locked, out = .done locked) ∧
      ∀ row, t.row? command.candidateKey = some row → ¬Tables.Fence row command

/-- The transition is fenced. -/
structure Fenced (out : Outcome) (w : World Memory Tables) (command : Command)
    (nextState : CommandState) : Prop where
  /-- The recorded state moves along an edge, for the recorded owner and slot. -/
  along : MovesAlong (recorded w command.candidateKey)
    (recorded (runTransition out w command nextState).2 command.candidateKey) command
  /-- A refusal is reported, and changes neither the entry in memory nor the row. -/
  refused : AsksDatabase w command → Refuses out w.remote command nextState →
    let result := runTransition out w command nextState
    (∃ e, result.1 = .error e) ∧
      result.2.mem.direct.get? command.candidateKey = none ∧
      result.2.remote.row? command.candidateKey = w.remote.row? command.candidateKey

/-- The condition under which a transition is fenced: it is allowed from the
    recorded state, for the recorded owner and slot, and where the database is
    asked, it has nothing to refuse. -/
structure Allowed (out : Outcome) (w : World Memory Tables) (command : Command)
    (nextState : CommandState) : Prop where
  along : ∃ stored, recorded w command.candidateKey = some stored ∧ Along stored command nextState
  accepted : AsksDatabase w command → ¬Refuses out w.remote command nextState

section

variable {out : Outcome} {w : World Memory Tables} {command : Command} {nextState : CommandState}

/-- A command in memory is moved there, whatever its state. -/
theorem run_stored {stored : Command} (h : w.mem.direct.get? command.candidateKey = some stored) :
    runTransition out w command nextState =
      (.ok (moved stored command nextState w.mem.now),
        ⟨w.mem.putDirect (moved stored command nextState w.mem.now), w.remote⟩) := by
  simp [runTransition, transition, Prog.eval_bind, transitionDirect, h]

/-- A row that matches the command is moved by the database. -/
theorem run_accepted (locked : String → Bool) {row : Command} (h : AsksDatabase w command)
    (hrow : w.remote.row? command.candidateKey = some row) (hf : Tables.Fence row command)
    (edge : nextState ∈ CommandState.TRANSITIONS command.state) :
    ∃ row' t, row'.state = nextState ∧ t.row? command.candidateKey = some row' ∧
      runTransition (.done locked) w command nextState =
        (.ok { row' with source := .postgresql }, ⟨w.mem, t⟩) := by
  obtain ⟨-, hn⟩ | ⟨_, updated, -, -, rfl, hsome, hrows⟩ :=
    w.remote.updateState_cases command nextState edge w.mem.now
  · exact absurd hf (hn row hrow)
  · refine ⟨_, (w.remote.updateState command nextState edge w.mem.now).2, rfl,
      (hrows _).trans (if_pos rfl), ?_⟩
    simp [runTransition, transition, Prog.eval_bind, Prog.eval_handle, transitionDirect, h.1, h.2,
      ExecutionRepository.transition, edge, database, answerDb, DbOp.answer, DbOp.perform, hsome]

/-- What is not in memory and is not moved by the database gets a shadow. -/
theorem run_shadowed (h : w.mem.direct.get? command.candidateKey = none)
    (hn : w.mem.usable = true → Refuses out w.remote command nextState ∨
      ∀ locked, out ≠ .done locked) :
    let shadow := shadow command nextState w.mem.now
    let result := runTransition out w command nextState
    result.1 = .ok shadow ∧ result.2.mem.direct = w.mem.direct.put shadow ∧
      result.2.mem.database = w.mem.database := by
  by_cases hu : w.mem.usable = true
  · by_cases edge : nextState ∈ CommandState.TRANSITIONS command.state
    · have fails : (∀ locked, out ≠ .done locked) ∨
          w.remote.updateState command nextState edge w.mem.now = (none, w.remote) := by
        refine (hn hu).symm.imp_right fun hr => ?_
        obtain ⟨-, hm⟩ := hr.resolve_left (not_not.2 edge)
        obtain ⟨hnone, -⟩ | ⟨row, -, hrow, hf, -⟩ :=
          w.remote.updateState_cases command nextState edge w.mem.now
        · exact hnone
        · exact absurd hf (hm row hrow)
      cases out <;>
        simp_all [runTransition, transition, Prog.eval_bind, Prog.eval_handle, transitionDirect,
          ExecutionRepository.transition, database, answerDb, DbOp.answer, DbOp.perform,
          Memory.putDirect, Memory.degrade]
    · simp [runTransition, transition, Prog.eval_bind, Prog.eval_handle, transitionDirect, h, hu,
        ExecutionRepository.transition, edge, Memory.putDirect, Memory.degrade]
  · simp [runTransition, transition, Prog.eval_bind, transitionDirect, h, hu, Memory.putDirect]

@[simp] theorem movesAlong_some (stored stored' command : Command) :
    MovesAlong (some stored) (some stored') command ↔ Along stored command stored'.state := by
  refine ⟨?_, fun h => .inr ⟨_, _, rfl, rfl, h⟩⟩
  rintro (h | ⟨_, _, ⟨⟩, ⟨⟩, h⟩)
  · exact .inl (Option.some.inj h).symm
  · exact h

@[simp] theorem not_movesAlong_none (stored' command : Command) :
    ¬MovesAlong none (some stored') command := by
  simp [MovesAlong]

/-- Whether a candidate that ends in a state moves along an edge. -/
theorem movesAlong_iff {before : Option Command} {stored' : Command}
    (h : stored'.state = nextState) : MovesAlong before (some stored') command ↔
      ∃ stored, before = some stored ∧ Along stored command nextState := by
  cases before <;> simp [h]

/-- Exactly the allowed transitions are fenced. -/
theorem transition_fenced_iff (out : Outcome) (w : World Memory Tables) (command : Command)
    (nextState : CommandState) :
    Fenced out w command nextState ↔ Allowed out w command nextState := by
  cases h : w.mem.direct.get? command.candidateKey with
  | some stored =>
    have hasks : ¬AsksDatabase w command := by simp [AsksDatabase, h]
    have hafter : recorded (runTransition out w command nextState).2 command.candidateKey =
        some (moved stored command nextState w.mem.now) := by
      have key : stored.candidateKey = command.candidateKey := CommandMap.candidateKey_of_get? h
      simp [run_stored h, recorded, Memory.putDirect, CommandMap.get?_put, moved, key]
    exact ⟨fun ⟨ha, _⟩ => ⟨(movesAlong_iff rfl).1 (hafter ▸ ha), fun hd => absurd hd hasks⟩,
      fun ⟨ha, _⟩ => ⟨hafter ▸ (movesAlong_iff rfl).2 ha, fun hd => absurd hd hasks⟩⟩
  | none =>
    -- The table is asked and the row updated, or the map takes a shadow: there is no third way.
    by_cases hacc : w.mem.usable = true ∧ ¬Refuses out w.remote command nextState ∧
        ∃ locked, out = .done locked
    · obtain ⟨hu, hr, locked, rfl⟩ := hacc
      obtain ⟨edge, row, hrow, hf⟩ : nextState ∈ CommandState.TRANSITIONS command.state ∧
          ∃ row, w.remote.row? command.candidateKey = some row ∧ Tables.Fence row command := by
        simpa [Refuses] using hr
      obtain ⟨row', t, hst, hrow', hrun⟩ := run_accepted locked ⟨h, hu⟩ hrow hf edge
      have hdb : w.mem.database = true := by
        simp [Memory.usable] at hu
        exact hu.1
      have hafter : recorded (runTransition (.done locked) w command nextState).2
          command.candidateKey = some row' := by
        simp [hrun, recorded, h, rowOf, hdb, hrow']
      have hbefore : recorded w command.candidateKey = some row := by
        simp [recorded, h, rowOf, hdb, hrow]
      have halong : Along row command nextState :=
        .inr ⟨hf.2.2.2.2 ▸ edge, hf.1, hf.2.2.1⟩
      exact ⟨fun _ => ⟨⟨row, hbefore, halong⟩, fun _ => hr⟩,
        fun _ => ⟨hafter ▸ (movesAlong_iff hst).2 ⟨row, hbefore, halong⟩,
          fun _ h => absurd h hr⟩⟩
    · have hn : w.mem.usable = true → Refuses out w.remote command nextState ∨
          ∀ locked, out ≠ .done locked := by
        intro hu
        by_contra hn
        push Not at hn
        exact hacc ⟨hu, hn.1, hn.2⟩
      obtain ⟨hok, hput, -⟩ := run_shadowed h hn
      have hafter : recorded (runTransition out w command nextState).2 command.candidateKey =
          some (shadow command nextState w.mem.now) := by
        simp [recorded, hput, CommandMap.get?_put, shadow]
      refine ⟨fun ⟨ha, hr⟩ => ⟨(movesAlong_iff rfl).1 (hafter ▸ ha), fun hd hd' => ?_⟩,
        fun ⟨ha, hr⟩ => ⟨hafter ▸ (movesAlong_iff rfl).2 ha, fun hd hd' => absurd hd' (hr hd)⟩⟩
      obtain ⟨⟨e, he⟩, -⟩ := hr hd hd'
      simp [hok] at he

end

/-- A closed row, of which slot 1 still has the command as it was before. -/
def closedRow : Command where
  candidateKey := "BTCUSDT-1"
  slotId := some 1
  state := .closed
  payload := .obj []
  ownerId := some "node:slot1"
  createdAt := 0
  updatedAt := 0
  source := .postgresql

/-- The table with the closed row only. -/
def closedTables : Tables := (∅ : Tables).putRow closedRow fun h => absurd h (by decide)

/-- A refusal of the database is taken for a failure: with the row closed, a command
    still `MANAGING` becomes `CLOSING`, and no error is reported. -/
theorem transition_not_fenced : ¬∀ out w command nextState, Fenced out w command nextState := by
  intro h
  let w : World Memory Tables := ⟨.started true true 0, closedTables⟩
  have hrefused := (h (.done fun _ => false) w { closedRow with state := .managing } .closing).refused
    ⟨rfl, rfl⟩ (.inr ⟨⟨_, rfl⟩, fun row hrow => by
      obtain rfl : closedRow = row := Option.some.inj hrow
      decide⟩)
  obtain ⟨⟨e, he⟩, -⟩ := hrefused
  cases he

end HybridRepository

end IntradayBot.Node
