import IntradayBot.Node.Drift
import IntradayBot.Node.SlotRules

/-!
# What opens no entry

Entries are opened by `Executor.submit` alone. All the other programs of the loops send no
order, or one that only reduces a position (`Unopened`): what is proved about entries goes
past them.
-/

namespace IntradayBot.Node

open Coop

variable {command : Command}

/-- A request that opens no entry. -/
def Unopened : Op → Prop
  | .bybit (.createOrder request) => request.reduceOnly = true
  | _ => True

/-- A program that sends no order at all opens none. -/
theorem unopened_of_unsent {α : Type} {F : (Memory → Memory) → Prop} {A : Op → Prop} {p : Proc α}
    (hA : ∀ request, ¬A (.bybit (.createOrder request))) (h : p.All F A) :
    p.All (fun _ => True) Unopened := by
  refine h.mono (fun _ _ => trivial) fun o ho => ?_
  rcases o with _ | o | _ | _ | _
  · trivial
  · cases o with
    | createOrder request => exact absurd ho (hA request)
    | _ => trivial
  · trivial
  · trivial
  · trivial

theorem unopened_of_quiet {α : Type} {p : Proc α}
    (h : p.All HybridRepository.Quiet HybridRepository.QuietOp) : p.All (fun _ => True) Unopened :=
  unopened_of_unsent (fun _ h => h) h

theorem unopened_of_aside {α : Type} {p : Proc α} (h : p.All (fun _ => True) Executor.Aside) :
    p.All (fun _ => True) Unopened :=
  unopened_of_unsent (fun _ h => h) h

theorem unopened_recordOrder (command : Command) (status : String) :
    (HybridRepository.recordOrder command status).All (fun _ => True) Unopened :=
  unopened_of_aside (Executor.recordOrder_aside _ _)

theorem unopened_transition (command : Command) (nextState : CommandState) :
    (HybridRepository.transition command nextState).All (fun _ => True) Unopened :=
  unopened_of_aside (Executor.transition_aside _ _)

theorem unopened_putManagementState (candidateKey : String) (state : ManagementState) :
    (HybridRepository.putManagementState candidateKey state).All (fun _ => True) Unopened :=
  unopened_of_quiet (HybridRepository.putManagementState_quiet _ _)

/-! ## The trade manager -/

/-- The orders that close a part only reduce. -/
theorem unopened_closeFraction (plan : ManagementPlan) (side : Side) (position : PositionRow)
    (instrument : InstrumentRow) (action : Action) (closePct : ℚ) :
    (TradeManager.closeFraction command plan side position instrument action closePct).All
      (fun _ => True) Unopened := by
  have hsettle : ∀ symbol linkId quantity, (TradeManager.closeFraction.settle command action symbol
      linkId quantity).All (fun _ => True) Unopened := fun _ _ _ =>
    .bind (unopened_of_quiet (SlotRules.waitForResolution_quiet _ _ _)) fun _ =>
      .bind (unopened_of_quiet (HybridRepository.recordFills_quiet _ _)) fun _ =>
      .bind (.require _ _) fun _ => .bind (unopened_recordOrder _ _) fun _ => .ret _
  refine .bind (.ofExcept _) fun quantity =>
    .bind (unopened_of_quiet (SlotRules.findOrder_quiet _ _)) fun prior =>
    .bind (.request trivial) fun executions => ?_
  split
  · exact .bind (unopened_recordOrder _ _) fun _ => .bind (.request rfl) fun _ => hsettle _ _ _
  · exact hsettle _ _ _

theorem unopened_takeFirst (side : Side) (position : PositionRow) (o : TradeManager.Observation)
    (state : ManagementState) :
    (TradeManager.takeFirst command side position o state).All (fun _ => True) Unopened := by
  rw [TradeManager.takeFirst]
  rcases state.plan with _ | plan
  · exact .ret _
  dsimp only
  split
  · exact .bind (unopened_closeFraction _ _ _ _ _ _) fun _ =>
      .bind (.bind (.request trivial) fun _ => unopened_recordOrder _ _) fun _ => .ret _
  · exact .ret _

theorem unopened_takeSecond (side : Side) (position : PositionRow) (o : TradeManager.Observation)
    (state : ManagementState) :
    (TradeManager.takeSecond command side position o state).All (fun _ => True) Unopened := by
  rw [TradeManager.takeSecond]
  rcases state.plan with _ | plan
  · exact .ret _
  dsimp only
  split
  · exact .bind (unopened_closeFraction _ _ _ _ _ _) fun _ => .ret _
  · exact .ret _

theorem unopened_trail (symbol : String) (side : Side) (position : PositionRow) (mark : ℚ)
    (state : ManagementState) :
    (TradeManager.trail command symbol side position mark state).All (fun _ => True) Unopened := by
  rw [TradeManager.trail]
  rcases state.plan with _ | plan
  · exact .ret _
  dsimp only
  split
  · rcases TradeManager.trailingStop mark side plan.riskDistance state.trailingStop with _ | tighter
    · exact .ret _
    · exact .bind (.request trivial) fun _ => .bind (unopened_recordOrder _ _) fun _ => .ret _
  · exact .ret _

theorem unopened_loadState (o : TradeManager.Observation) (symbol : String) (side : Side) :
    (TradeManager.loadState command o symbol side).All (fun _ => True) Unopened := by
  refine .bind (unopened_of_quiet (HybridRepository.getManagementState_quiet _)) fun known => ?_
  rcases known with _ | state
  · exact .bind (unopened_putManagementState _ _) fun _ =>
      .bind (unopened_recordOrder _ _) fun _ => .ret _
  · exact .ret _

theorem unopened_finishClosed (command : Command) :
    (TradeManager.finishClosed command).All (fun _ => True) Unopened := by
  rw [TradeManager.finishClosed]
  split
  · exact .bind (unopened_transition _ _) fun _ =>
      .bind (unopened_recordOrder _ _) fun _ => unopened_transition _ _
  · exact .bind (unopened_recordOrder _ _) fun _ => unopened_transition _ _

theorem unopened_manage (symbol : String) (side : Side) (position : PositionRow)
    (o : TradeManager.Observation) :
    (TradeManager.manage command symbol side position o).All (fun _ => True) Unopened := by
  have hclosed : ∀ state reason, (TradeManager.closedAfter command state reason).All
      (fun _ => True) Unopened := fun _ _ =>
    .bind (unopened_putManagementState _ _) fun _ => unopened_finishClosed _
  have hposition : (TradeManager.currentPosition symbol side).All (fun _ => True) Unopened :=
    unopened_of_quiet (SlotRules.currentPosition_quiet _ _)
  refine .bind (unopened_loadState _ _ _) fun state => .bind (unopened_takeFirst _ _ _ _) fun state =>
    .bind hposition fun refreshedAfterTp1 => ?_
  rcases refreshedAfterTp1 with _ | refreshedAfterTp1
  · exact hclosed _ _
  refine .bind (unopened_takeSecond _ _ _ _) fun state => .bind hposition fun refreshed => ?_
  rcases refreshed with _ | refreshed
  · exact hclosed _ _
  refine .bind (unopened_trail _ _ _ _ _) fun state => .bind (unopened_putManagementState _ _) fun _ =>
    .bind (unopened_recordOrder _ _) fun _ => ?_
  split
  · exact unopened_transition _ _
  · exact .ret _

theorem unopened_cycle (command : Command) :
    (TradeManager.cycle command).All (fun _ => True) Unopened := by
  refine .bind (.require _ _) fun _ => ?_
  dsimp only
  rcases Side.ofText? (Json.textOrEmpty (command.payload.get "side")) with _ | side
  · exact .throw _
  refine .bind (.require _ _) fun _ => .bind (.par trivial (.request trivial)
    (.par trivial (.request trivial) (.request trivial))) fun (positions, tickers, instruments) => ?_
  dsimp only
  split
  · exact .bind (unopened_of_quiet (HybridRepository.getManagementState_quiet _)) fun _ =>
      .bind (unopened_putManagementState _ _) fun _ => unopened_finishClosed _
  · exact .bind (.ofExcept _) fun _ => unopened_manage _ _ _ _

/-! ## The next command -/

theorem unopened_claim (ownerId : String) (slotId : ℕ) :
    (HybridRepository.claim ownerId slotId).All (fun _ => True) Unopened := by
  refine .bind (.require _ _) fun _ =>
    .bind (unopened_of_quiet HybridRepository.activeCommands_quiet) fun active => ?_
  dsimp only
  split
  · exact .ret _
  refine .bind (.atomically trivial) fun (direct, usable, now) => ?_
  rcases direct with _ | command
  · dsimp only
    split
    · exact HybridRepository.all_orDegrade (fun _ => trivial)
        (.bind (.bind (.require _ _) fun _ => .request trivial) fun _ => .ret _)
    · exact .ret _
  · exact .ret _

theorem unopened_nextCommand (config : Config) (slot : Slot) :
    (SlotLoop.nextCommand config slot).All (fun _ => True) Unopened := by
  have hrecorded : ∀ kind {call : Proc (Option Command)}, call.All (fun _ => True) Unopened →
      (SlotLoop.recorded slot kind call).All (fun _ => True) Unopened := fun _ _ h =>
    .bind (.request trivial) fun _ => .bind h fun _ => .bind (.modify trivial) fun _ => .ret _
  refine .bind (hrecorded _ (unopened_of_quiet (HybridRepository.ownedActiveCommand_quiet _ _)))
    fun owned => ?_
  rcases owned with _ | command
  · refine .bind (.read _ trivial) fun required => ?_
    split
    · exact .ret _
    · exact hrecorded _ (unopened_claim _ _)
  · exact .ret _

end IntradayBot.Node
