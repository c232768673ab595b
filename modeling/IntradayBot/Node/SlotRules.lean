import IntradayBot.Node.SlotLoop

/-!
# Rules for the slot loops

What a slot does with a command is a long walk through the executor and the
trade manager, most of which does not matter to what is proved about it.
`SlotRules` collects what does: an assertion that a slot makes about the command
it works on (`Own`), one about a command whose order may be sent (`Ready`), one
about a command that may be given up (`Over`), and a rule for each operation that
touches the command or its orders. From these, a whole turn of the loop is
verified once for all (`SlotRules.turn`).
-/

namespace IntradayBot.Node

open Coop HybridRepository SlotLoop

/-- The states of a command whose order was executed. -/
def CommandState.Executed (s : CommandState) : Prop :=
  s = .partiallyFilled ∨ s = .managing ∨ s = .closing

/-- The position of a command shows in the answer of the exchange. -/
def showsPosition (c : Command) (rows : List PositionRow) : Prop :=
  ∃ row ∈ rows, row.isOpen = true ∧ Json.toText row.side = Json.toText (c.payload.get "side")

/-- Rules for the operations of slot `i`, from assertions about its command. -/
structure SlotRules (X : ExchangeModel) (config : Config)
    (ok : Condition Slot Memory (Remote X) JsError Op.Val) (C : Contract Slot Memory (Remote X))
    (i : Slot) where
  /-- The slot works on this command. -/
  Own : Command → ServiceWorld X → Prop
  /-- The slot may send the order of this command, for this payload. -/
  Ready : Command → Json → ServiceWorld X → Prop
  /-- The slot works on this command, and may give it up. -/
  Over : Command → ServiceWorld X → Prop
  stable_own : ∀ c, C.Stable i (Own c)
  stable_ready : ∀ c payload, C.Stable i (Ready c payload)
  stable_over : ∀ c, C.Stable i (Over c)
  calm : Calm (service X config) ok C i Quiet QuietOp
  next : Triple (service X config) ok C i (fun _ => True) (nextCommand config i)
    (fun r w => ∀ c, r = some c → Own c w) fun _ _ => True
  over_of_reserved : ∀ c w, C.inv w → Own c w → c.state = .reserved → Over c w
  record : ∀ c status, Triple (service X config) ok C i (Own c) (recordOrder c status)
    (fun _ => Own c) fun _ => Own c
  recordOver : ∀ c status, Triple (service X config) ok C i (Over c) (recordOrder c status)
    (fun _ => Over c) fun _ => Over c
  advance : ∀ c s, s ∈ CommandState.TRANSITIONS c.state → s.Active →
    Triple (service X config) ok C i (Own c) (transition c s)
      (fun c' w => c'.state = s ∧ c'.candidateKey = c.candidateKey ∧ Own c' w) fun _ _ => True
  closing : ∀ c, .closing ∈ CommandState.TRANSITIONS c.state →
    Triple (service X config) ok C i (Over c) (transition c .closing)
      (fun c' w => c'.state = .closing ∧ Over c' w) fun _ _ => True
  finish : ∀ c s, s ∈ CommandState.TRANSITIONS c.state → s.Terminal →
    Triple (service X config) ok C i (Over c) (transition c s) (fun _ _ => True) fun _ _ => True
  prepare : ∀ c, c.state = .reserved →
    Triple (service X config) ok C i (Own c)
      (Executor.prepare config c (Executor.orderLinkId c.candidateKey))
      (fun r w => match r with
        | .recovered c' => c'.state = .orderPending ∧ c'.candidateKey = c.candidateKey ∧ Own c' w
        | .sized c' payload =>
          c'.state = .orderPending ∧ c'.candidateKey = c.candidateKey ∧ Ready c' payload w)
      fun _ => Own c
  submit : ∀ c payload, c.state = .orderPending →
    Triple (service X config) ok C i (Ready c payload)
      (bybit (.createOrder
        (Executor.entryOrder payload (Executor.orderLinkId c.candidateKey))))
      (fun _ => Own c) fun e w => Own c w ∧ ((∃ code message, e = .api code message) → Over c w)
  close : ∀ c side position action qty,
    Triple (service X config) ok C i (Own c)
      (bybit (.createOrder (TradeManager.closeOrder c side position action qty)))
      (fun _ => Own c) fun _ => Own c
  stop : ∀ c request, Triple (service X config) ok C i (Own c) (bybit (.setTradingStop request))
    (fun _ => Own c) fun _ => Own c
  resolved : ∀ c payload, c.state = .orderPending →
    Triple (service X config) ok C i (Own c)
      (BybitClient.waitForResolution (Executor.symbolOf payload)
        (Executor.orderLinkId c.candidateKey) (Json.toNumber (payload.get "qty")))
      (fun r w => Own c w ∧ (r.state = .failed → Over c w)) fun _ => Own c
  missing : ∀ c, c.state.Executed →
    Triple (service X config) ok C i (Own c)
      (bybit (.position (Json.toText (c.payload.get "symbol"))))
      (fun rows w => Own c w ∧ (¬showsPosition c rows → Over c w)) fun _ => Own c

namespace SlotRules

variable {X : ExchangeModel} {config : Config}
  {ok : Condition Slot Memory (Remote X) JsError Op.Val} {C : Contract Slot Memory (Remote X)}
  {i : Slot} {α β : Type}

/-- From `P` on, the slot may run `p` whatever it leaves. -/
abbrev Runs (config : Config) (ok : Condition Slot Memory (Remote X) JsError Op.Val)
    (C : Contract Slot Memory (Remote X)) (i : Slot) (P : ServiceWorld X → Prop)
    (p : Proc α) : Prop :=
  Triple (service X config) ok C i P p (fun _ _ => True) fun _ _ => True

theorem runs_of {P : ServiceWorld X → Prop} {p : Proc α} {Q : α → ServiceWorld X → Prop}
    {E : JsError → ServiceWorld X → Prop} (h : Triple (service X config) ok C i P p Q E) :
    Runs config ok C i P p :=
  h.conseq (fun _ _ h => h) (fun _ _ _ _ => trivial) fun _ _ _ _ => trivial

theorem runs_bind {P : ServiceWorld X → Prop} {p : Proc α} {f : α → Proc β}
    {Q : α → ServiceWorld X → Prop} {E : JsError → ServiceWorld X → Prop}
    (h : Triple (service X config) ok C i P p Q E) (hf : ∀ a, Runs config ok C i (Q a) (f a)) :
    Runs config ok C i P (p.bind f) :=
  .bind (h.conseq (fun _ _ h => h) (fun _ _ _ h => h) fun _ _ _ _ => trivial) hf

theorem runs_done {P : ServiceWorld X → Prop} (r : Except JsError α) :
    Runs config ok C i P (.done r) := by
  cases r with
  | ok a => exact .done_ok (fun _ _ _ _ _ => trivial) fun _ _ _ => trivial
  | error e => exact .done_error (fun _ _ _ _ _ => trivial) fun _ _ _ => trivial

/-- Quiet programs do not matter. -/
theorem quiet (R : SlotRules X config ok C i) {P : ServiceWorld X → Prop} (hP : C.Stable i P)
    {p : Proc α}
    (h : p.All Quiet QuietOp) :
    Triple (service X config) ok C i P p (fun _ => P) fun _ => P :=
  R.calm.triple h hP

variable (R : SlotRules X config ok C i) (c : Command)

/-! ## The executor -/

theorem ensureProtection (payload : Json) :
    Triple (service X config) ok C i (R.Own c) (BybitClient.ensureProtection payload)
      (fun _ => R.Own c) fun _ => R.Own c := by
  have hread : ∀ symbol, (BybitClient.openPosition symbol).All Quiet QuietOp := fun symbol =>
    .bind (.request trivial) fun _ => .ret _
  refine .bind (R.quiet (R.stable_own c) (hread _)) fun position => ?_
  cases position with
  | none => exact R.quiet (R.stable_own c) (.throw _)
  | some position =>
    dsimp only
    split
    · exact R.quiet (R.stable_own c) (.ofExcept _)
    · refine .bind (R.stop c _) fun _ => .bind (R.quiet (R.stable_own c) (hread _)) fun _ => ?_
      exact R.quiet (R.stable_own c) (.ofExcept _)

theorem resolvePending (payload : Json) (hc : c.state = .orderPending) :
    Runs config ok C i (R.Own c)
      (Executor.resolvePending c payload (Executor.orderLinkId c.candidateKey)) := by
  refine runs_bind (R.resolved c payload hc) fun ⟨state, executions, cumulativeQty⟩ => ?_
  have hfills := recordFills_quiet c executions
  have protect : ∀ s, s ∈ CommandState.TRANSITIONS c.state → s.Active →
      Runs config ok C i (R.Own c) (do
        let _ ← BybitClient.ensureProtection payload
        recordOrder c "PROTECTION_VERIFIED"
        transition c s) := fun s hs ha =>
    runs_bind (R.ensureProtection c payload) fun _ => runs_bind (R.record c _) fun _ =>
      runs_of (R.advance c s hs ha)
  have own : Triple (service X config) ok C i
      (fun w => R.Own c w ∧ (state = .failed → R.Over c w)) (recordFills c executions)
      (fun _ => R.Own c) fun _ => R.Own c :=
    (R.quiet (R.stable_own c) hfills).conseq (fun _ _ h => h.1) (fun _ _ _ h => h) fun _ _ _ h => h
  -- A failed entry is over before it is recorded; every other answer leaves the command with the
  -- slot.
  cases state with
  | failed =>
    exact runs_bind ((R.quiet (R.stable_over c) hfills).conseq (fun _ _ h => h.2 rfl)
      (fun _ _ _ h => h) fun _ _ _ h => h) fun _ => runs_bind (R.recordOver c _) fun _ =>
      runs_of (R.finish c .failed (by rw [hc]; decide) (by decide))
  | unknown => exact runs_bind own fun _ => runs_bind (R.record c _) fun _ => runs_done _
  | filled =>
    exact runs_bind own fun _ => runs_bind (R.record c _) fun _ =>
      protect .managing (by rw [hc]; decide) (by decide)
  | partiallyFilled =>
    exact runs_bind own fun _ => runs_bind (R.record c _) fun _ =>
      protect .partiallyFilled (by rw [hc]; decide) (by decide)

/-- A command whose order was refused, or that is given up before it was sent. -/
theorem fail (hc : .failed ∈ CommandState.TRANSITIONS c.state) (status : String) :
    Runs config ok C i (R.Over c) (do
      let _ ← (recordOrder c status).attempt
      transition c .failed) :=
  runs_bind (.attempt (R := fun _ => R.Over c) (E := fun _ => R.Over c) (R.recordOver c status))
    fun _ => runs_of (R.finish c .failed hc (by decide))

theorem submitted (payload : Json) (hc : c.state = .orderPending) :
    Runs config ok C i (R.Ready c payload)
      (Executor.submit c payload (Executor.orderLinkId c.candidateKey)) := by
  have hfailed : .failed ∈ CommandState.TRANSITIONS c.state := by rw [hc]; decide
  refine runs_bind (Q := fun r w => R.Own c w ∧
    ((∃ code message, r = .error (.api code message)) → R.Over c w)) (E := fun _ _ => True)
    (.attempt ((R.submit c payload hc).conseq (fun _ _ h => h)
      (fun a _ _ h => ⟨h, fun ⟨_, _, he⟩ => by cases he⟩)
      fun e _ _ h => ⟨h.1, fun ⟨code, message, he⟩ => h.2 ⟨code, message, by cases he; rfl⟩⟩))
    fun r => ?_
  have own : ∀ {p : Proc Command}, Runs config ok C i (R.Own c) p →
      Runs config ok C i (fun w => R.Own c w ∧
        ((∃ code message, r = .error (.api code message)) → R.Over c w)) p := fun h =>
    h.conseq (fun _ _ h => h.1) (fun _ _ _ h => h) fun _ _ _ h => h
  -- Only a rejection by the exchange ends the command; of the other errors nobody knows what
  -- they left behind.
  cases r with
  | error e =>
    cases e with
    | api code message =>
      exact (R.fail c hfailed "ORDER_REJECTED").conseq (fun _ _ h => h.2 ⟨_, _, rfl⟩)
        (fun _ _ _ h => h) fun _ _ _ h => h
    | error message =>
      exact own (runs_bind (.attempt (R := fun _ => R.Own c) (E := fun _ => R.Own c)
        (R.record c _)) fun _ => runs_done _)
    | wait code message retryable =>
      exact own (runs_bind (.attempt (R := fun _ => R.Own c) (E := fun _ => R.Own c)
        (R.record c _)) fun _ => runs_done _)
  | ok orderId =>
    refine own ?_
    dsimp only
    split
    · exact runs_bind (R.record c _) fun _ => runs_done _
    · exact runs_bind (R.record c _) fun _ => R.resolvePending c payload hc

theorem blocked (e : JsError) (hc : c.state = .reserved) :
    Runs config ok C i (R.Own c) (Executor.blocked c e) := by
  have hfailed : .failed ∈ CommandState.TRANSITIONS c.state := by rw [hc]; decide
  have givenUp : ∀ {p : Proc Command}, Runs config ok C i (R.Over c) p →
      Runs config ok C i (R.Own c) p := fun h =>
    h.conseq (fun w hi h => R.over_of_reserved c w hi h hc) (fun _ _ _ h => h) fun _ _ _ h => h
  have given : ∀ e, Runs config ok C i (R.Over c) (do
      let _ ← (recordOrder c "PRE_SUBMISSION_BLOCKED").attempt
      let _ ← (transition c .failed).attempt
      throw e : Proc Command) := fun e =>
    runs_bind (.attempt (R := fun _ => R.Over c) (E := fun _ => R.Over c) (R.recordOver c _))
      fun _ => runs_bind (.attempt (R := fun _ _ => True) (E := fun _ _ => True)
        (R.finish c .failed hfailed (by decide))) fun _ => runs_done _
  cases e with
  | wait code message retryable =>
    refine givenUp (runs_bind (.attempt (R := fun _ => R.Over c) (E := fun _ => R.Over c)
      (R.recordOver c _)) fun _ => ?_)
    split
    · exact runs_done _
    · exact runs_of (R.finish c .failed hfailed (by decide))
  | error message => exact givenUp (given _)
  | api code message => exact givenUp (given _)

/-- What is known once a reserved command was prepared, or could not be. -/
def Prepared (r : Except JsError Executor.Pending) (w : ServiceWorld X) : Prop :=
  match r with
  | .ok (.recovered c') =>
    c'.state = .orderPending ∧ c'.candidateKey = c.candidateKey ∧ R.Own c' w
  | .ok (.sized c' payload) =>
    c'.state = .orderPending ∧ c'.candidateKey = c.candidateKey ∧ R.Ready c' payload w
  | .error _ => R.Own c w

theorem execute : Runs config ok C i (R.Own c) (Executor.execute config c) := by
  refine runs_bind (R.quiet (R.stable_own c) (.ofExcept _)) fun _ => ?_
  cases hc : c.state with
  | orderPending => exact R.resolvePending c c.payload hc
  | reserved =>
    refine runs_bind (.attempt (R := R.Prepared c) (E := fun _ _ => True) ?_) fun r => ?_
    · refine (R.prepare c hc).conseq (fun _ _ h => h) (fun r w _ h => ?_) fun _ _ _ h => h
      cases r <;> exact h
    · rcases r with e | (c' | ⟨c', payload⟩)
      · exact R.blocked c e hc
      · refine .of_forall fun w _ h => ?_
        rw [← h.2.1]
        exact (R.resolvePending c' c.payload h.1).conseq (fun _ _ h => h.2.2) (fun _ _ _ h => h)
          fun _ _ _ h => h
      · refine .of_forall fun w _ h => ?_
        rw [← h.2.1]
        exact (R.submitted c' payload h.1).conseq (fun _ _ h => h.2.2) (fun _ _ _ h => h)
          fun _ _ _ h => h
  | _ => exact runs_done _

/-! ## The trade manager -/

theorem findOrder_quiet (symbol : String) (linkId : LinkId) :
    (BybitClient.findOrder symbol linkId).All Quiet QuietOp := by
  refine .bind (.request trivial) fun rows => ?_
  cases rows with
  | nil => exact .bind (.request trivial) fun _ => .ret _
  | cons row rows => exact .ret _

theorem poll_quiet (symbol : String) (linkId : LinkId) (expectedQty : Option ℚ) (n : ℕ)
    (order : Option OrderRow) (executions : List ExecutionRow) :
    (BybitClient.poll symbol linkId expectedQty n order executions).All Quiet QuietOp := by
  induction n generalizing order executions with
  | zero => exact .ret _
  | succ n ih =>
    refine .bind (.par trivial (findOrder_quiet symbol linkId) (.request trivial))
      fun (order, executions) => ?_
    dsimp only
    split
    · exact .ret _
    · exact ih _ _

theorem waitForResolution_quiet (symbol : String) (linkId : LinkId) (expectedQty : Option ℚ) :
    (BybitClient.waitForResolution symbol linkId expectedQty).All Quiet QuietOp :=
  .bind (.request trivial) fun _ => poll_quiet _ _ _ _ _ _

theorem currentPosition_quiet (symbol : String) (side : Side) :
    (TradeManager.currentPosition symbol side).All Quiet QuietOp :=
  .bind (.request trivial) fun _ => .ret _

theorem settle (action : Action) (symbol : String) (linkId : LinkId) (quantity : ℚ) :
    Triple (service X config) ok C i (R.Own c)
      (TradeManager.closeFraction.settle c action symbol linkId quantity)
      (fun _ => R.Own c) fun _ => R.Own c := by
  have own := R.stable_own c
  refine .bind (R.quiet own (waitForResolution_quiet _ _ _)) fun r =>
    .bind (R.quiet own (recordFills_quiet _ _)) fun _ =>
    .bind (R.quiet own (.require _ _)) fun _ => .bind (R.record c _) fun _ => ?_
  exact R.quiet own (.ret _)

theorem closeFraction (plan : ManagementPlan) (side : Side) (position : PositionRow)
    (instrument : InstrumentRow) (action : Action) (closePct : ℚ) :
    Triple (service X config) ok C i (R.Own c)
      (TradeManager.closeFraction c plan side position instrument action closePct)
      (fun _ => R.Own c) fun _ => R.Own c := by
  have own := R.stable_own c
  refine .bind (R.quiet own (.ofExcept _)) fun quantity =>
    .bind (R.quiet own (findOrder_quiet _ _)) fun prior =>
    .bind (R.quiet own (.request trivial)) fun executions => ?_
  split
  · exact .bind (R.record c _) fun _ => .bind (R.close c _ _ _ _) fun _ => R.settle c _ _ _ _
  · exact R.settle c _ _ _ _

theorem takeFirst (side : Side) (position : PositionRow) (o : TradeManager.Observation)
    (state : ManagementState) :
    Triple (service X config) ok C i (R.Own c)
      (TradeManager.takeFirst c side position o state) (fun _ => R.Own c) fun _ => R.Own c := by
  have own := R.stable_own c
  unfold TradeManager.takeFirst
  cases state.plan with
  | none => exact R.quiet own (.ret _)
  | some plan =>
    dsimp only
    split
    · refine .bind (R.closeFraction c _ _ _ _ _ _) fun closedQty =>
        .bind (.bind (R.stop c _) fun _ => R.record c _) fun _ => ?_
      exact R.quiet own (.ret _)
    · exact R.quiet own (.ret _)

theorem takeSecond (side : Side) (position : PositionRow) (o : TradeManager.Observation)
    (state : ManagementState) :
    Triple (service X config) ok C i (R.Own c)
      (TradeManager.takeSecond c side position o state) (fun _ => R.Own c) fun _ => R.Own c := by
  have own := R.stable_own c
  unfold TradeManager.takeSecond
  cases state.plan with
  | none => exact R.quiet own (.ret _)
  | some plan =>
    dsimp only
    split
    · exact .bind (R.closeFraction c _ _ _ _ _ _) fun closedQty => R.quiet own (.ret _)
    · exact R.quiet own (.ret _)

theorem trail (symbol : String) (side : Side) (position : PositionRow) (mark : ℚ)
    (state : ManagementState) :
    Triple (service X config) ok C i (R.Own c)
      (TradeManager.trail c symbol side position mark state)
      (fun _ => R.Own c) fun _ => R.Own c := by
  have own := R.stable_own c
  unfold TradeManager.trail
  cases state.plan with
  | none => exact R.quiet own (.ret _)
  | some plan =>
    dsimp only
    split
    · split
      · exact R.quiet own (.ret _)
      · exact .bind (R.stop c _) fun _ => .bind (R.record c _) fun _ => R.quiet own (.ret _)
    · exact R.quiet own (.ret _)

theorem loadState (o : TradeManager.Observation) (symbol : String) (side : Side) :
    Triple (service X config) ok C i (R.Own c) (TradeManager.loadState c o symbol side)
      (fun _ => R.Own c) fun _ => R.Own c := by
  have own := R.stable_own c
  refine .bind (R.quiet own (getManagementState_quiet _)) fun state => ?_
  cases state with
  | some state => exact R.quiet own (.ret _)
  | none =>
    exact .bind (R.quiet own (putManagementState_quiet _ _)) fun _ =>
      .bind (R.record c _) fun _ => R.quiet own (.ret _)

theorem finishClosed (hc : c.state = .managing ∨ c.state = .partiallyFilled) :
    Runs config ok C i (R.Over c) (TradeManager.finishClosed c) := by
  unfold TradeManager.finishClosed
  rw [if_pos hc.symm]
  refine runs_bind (R.closing c (by rcases hc with hc | hc <;> rw [hc] <;> decide)) fun c' => ?_
  refine .of_forall fun w _ h => ?_
  refine .conseq (P := R.Over c') ?_ (fun _ _ h => h.2) (fun _ _ _ h => h) fun _ _ _ h => h
  exact runs_bind (R.recordOver c' _) fun _ =>
    runs_of (R.finish c' .closed (by rw [h.1]; decide) (by decide))

theorem closedAfter (state : ManagementState) (reason : String)
    (hc : c.state = .managing ∨ c.state = .partiallyFilled) :
    Runs config ok C i (R.Over c) (TradeManager.closedAfter c state reason) :=
  runs_bind (R.quiet (R.stable_over c) (putManagementState_quiet _ _)) fun _ =>
    R.finishClosed c hc

theorem closeMissingPosition (reason : String)
    (hc : c.state = .managing ∨ c.state = .partiallyFilled) :
    Runs config ok C i (R.Over c) (TradeManager.closeMissingPosition c reason) :=
  runs_bind (R.quiet (R.stable_over c) (getManagementState_quiet _)) fun _ =>
    runs_bind (R.quiet (R.stable_over c) (putManagementState_quiet _ _)) fun _ =>
    R.finishClosed c hc

theorem conclude (state : ManagementState) :
    Runs config ok C i (R.Own c) (TradeManager.conclude c state) := by
  refine runs_bind (R.quiet (R.stable_own c) (putManagementState_quiet _ _)) fun _ =>
    runs_bind (R.record c _) fun _ => ?_
  split
  · rename_i h
    exact runs_of (R.advance c .managing (by rw [h]; decide) (by decide))
  · exact runs_done _

/-- The side that a cycle works on is that of the payload. -/
theorem text_of_ofText? {x : Field} {side : Side} (h : Side.ofText? (Json.textOrEmpty x) = some side) :
    side.text = Json.toText x := by
  have htext : side.text = Json.textOrEmpty x := by
    unfold Side.ofText? at h
    split_ifs at h with hb hs
    · rw [hb, ← Option.some.inj h]; rfl
    · rw [hs, ← Option.some.inj h]; rfl
  have hne : Json.textOrEmpty x ≠ "" := by
    rw [← htext]
    cases side <;> decide
  rw [htext]
  unfold Json.textOrEmpty at hne ⊢
  split_ifs at hne ⊢
  · rfl
  · exact absurd rfl hne

theorem textOrEmpty_eq {x : Field} (h : Json.textOrEmpty x ≠ "") :
    Json.textOrEmpty x = Json.toText x := by
  unfold Json.textOrEmpty at h ⊢
  split_ifs at h ⊢
  · rfl
  · exact absurd rfl h

/-- When no position of its side is found, none shows. -/
theorem not_showsPosition {side : Side} {rows : List PositionRow}
    (hside : side.text = Json.toText (c.payload.get "side"))
    (h : rows.find? (TradeManager.isManaged side) = none) : ¬showsPosition c rows := by
  rintro ⟨row, hrow, hopen, hs⟩
  have := List.find?_eq_none.1 h row hrow
  simp [TradeManager.isManaged, hopen, hs, hside] at this

theorem currentPosition {symbol : String} {side : Side} (hc : c.state.Executed)
    (hsymbol : symbol = Json.toText (c.payload.get "symbol"))
    (hside : side.text = Json.toText (c.payload.get "side")) :
    Triple (service X config) ok C i (R.Own c) (TradeManager.currentPosition symbol side)
      (fun r w => R.Own c w ∧ (r = none → R.Over c w)) fun _ => R.Own c := by
  subst hsymbol
  have stable : ∀ r : Option PositionRow, C.Stable i fun w => R.Own c w ∧ (r = none → R.Over c w) :=
    fun r w w' hr hi h => ⟨R.stable_own c w w' hr hi h.1,
      fun h' => R.stable_over c w w' hr hi (h.2 h')⟩
  exact .bind (R.missing c hc) fun rows => .done_ok (stable _) fun w _ h =>
    ⟨h.1, fun h' => h.2 (not_showsPosition c hside h')⟩

theorem manage {symbol : String} {side : Side} (position : PositionRow)
    (o : TradeManager.Observation) (hc : c.state = .managing ∨ c.state = .partiallyFilled)
    (hsymbol : symbol = Json.toText (c.payload.get "symbol"))
    (hside : side.text = Json.toText (c.payload.get "side")) :
    Runs config ok C i (R.Own c) (TradeManager.manage c symbol side position o) := by
  have hex : c.state.Executed := hc.elim (fun h => .inr (.inl h)) .inl
  have gone : ∀ {r : Option PositionRow} {p : Proc Command}, r = none →
      Runs config ok C i (R.Over c) p →
      Runs config ok C i (fun w => R.Own c w ∧ (r = none → R.Over c w)) p := fun hr h =>
    h.conseq (fun _ _ h => h.2 hr) (fun _ _ _ h => h) fun _ _ _ h => h
  have stays : ∀ {r : Option PositionRow} {p : Proc Command}, Runs config ok C i (R.Own c) p →
      Runs config ok C i (fun w => R.Own c w ∧ (r = none → R.Over c w)) p := fun h =>
    h.conseq (fun _ _ h => h.1) (fun _ _ _ h => h) fun _ _ _ h => h
  refine runs_bind (R.loadState c o symbol side) fun state =>
    runs_bind (R.takeFirst c _ _ _ _) fun state =>
    runs_bind (R.currentPosition c hex hsymbol hside) fun refreshedAfterTp1 => ?_
  -- The position may be closed under the manager, which reads it again after each stage.
  cases refreshedAfterTp1 with
  | none => exact gone rfl (R.closedAfter c _ _ hc)
  | some refreshedAfterTp1 =>
    refine stays (runs_bind (R.takeSecond c _ _ _ _) fun state =>
      runs_bind (R.currentPosition c hex hsymbol hside) fun refreshed => ?_)
    cases refreshed with
    | none => exact gone rfl (R.closedAfter c _ _ hc)
    | some refreshed =>
      exact stays (runs_bind (R.trail c _ _ _ _ _) fun state => R.conclude c state)

theorem cycle (hc : c.state = .managing ∨ c.state = .partiallyFilled) :
    Runs config ok C i (R.Own c) (TradeManager.cycle c) := by
  have own := R.stable_own c
  have hex : c.state.Executed := hc.elim (fun h => .inr (.inl h)) .inl
  refine runs_bind (R.quiet own (.require _ _)) fun _ => ?_
  dsimp only
  split
  · exact runs_done _
  · rename_i side hside
    replace hside := text_of_ofText? hside
    unfold Prog.require
    split_ifs with hsymbol
    swap
    · exact runs_done _
    replace hsymbol := textOrEmpty_eq hsymbol
    refine runs_bind (R.quiet own (.ret _)) fun _ => ?_
    have reads : Triple (service X config) ok C i (R.Own c)
        (both (bybit (.ticker (Json.textOrEmpty (c.payload.get "symbol"))))
          (bybit (.instrument (Json.textOrEmpty (c.payload.get "symbol")))))
        (fun _ => R.Own c) fun _ => R.Own c :=
      R.quiet own (.par trivial (.request trivial) (.request trivial))
    -- The three reads run side by side: what the position query tells is not lost by the other
    -- two.
    refine runs_bind (R.calm.par trivial (.request trivial)
      (.par trivial (.request trivial) (.request trivial)) ?_ (fun _ => own) (fun _ => own)
      (hsymbol ▸ R.missing c hex) reads) fun (positions, tickers, instruments) => ?_
    · exact fun rows w w' hr hi h => ⟨own w w' hr hi h.1,
        fun h' => R.stable_over c w w' hr hi (h.2 h')⟩
    · dsimp only
      split
      · rename_i h
        exact (R.closeMissingPosition c _ hc).conseq
          (fun _ _ h' => h'.1.2 (not_showsPosition c hside h)) (fun _ _ _ h => h) fun _ _ _ h => h
      · refine .conseq (P := R.Own c) ?_ (fun _ _ h' => h'.2) (fun _ _ _ h => h) fun _ _ _ h => h
        exact runs_bind (R.quiet own (.ofExcept _)) fun o => R.manage c _ o hc hsymbol hside

/-! ## The loop -/

theorem processCommand : Runs config ok C i (R.Own c) (SlotLoop.processCommand config c) := by
  unfold SlotLoop.processCommand
  cases hc : c.state with
  | reserved => exact runs_bind (R.quiet (R.stable_own c) (.ofExcept _)) fun _ => R.execute c
  | orderPending => exact R.execute c
  | partiallyFilled => exact R.cycle c (.inr hc)
  | managing => exact R.cycle c (.inl hc)
  | closing =>
    refine runs_bind (R.missing c (.inr (.inr hc))) fun rows => ?_
    dsimp only
    split
    · exact runs_done _
    · rename_i hrows
      have hshow : ¬showsPosition c rows := by
        rintro ⟨row, hrow, hopen, hs⟩
        exact hrows (List.any_eq_true.2 ⟨row, hrow, by simp [hopen, hs]⟩)
      refine .conseq (P := R.Over c) ?_ (fun _ _ h => h.2 hshow) (fun _ _ _ h => h)
        fun _ _ _ h => h
      exact runs_bind (R.recordOver c _) fun _ =>
        runs_of (R.finish c .closed (by rw [hc]; decide) (by decide))
  | _ => exact runs_done _

/-- The rules verify a turn of the loop. -/
theorem turn (R : SlotRules X config ok C i) :
    Runs config ok C i (fun _ => True) (SlotLoop.turn config i) := by
  have always : C.Stable i fun _ => True := fun _ _ _ _ _ => trivial
  refine runs_bind (R.quiet always (.read _ quiet_id)) fun running => ?_
  split
  · refine runs_bind (R.quiet always verifyLeadership_quiet) fun leading => ?_
    split
    · refine runs_bind R.next fun command => ?_
      cases command with
      | none => exact runs_done _
      | some command =>
        refine .conseq (P := R.Own command) ?_ (fun _ _ h => h _ rfl) (fun _ _ _ h => h)
          fun _ _ _ h => h
        exact runs_bind (R.processCommand command) fun _ => runs_done _
    · exact runs_of (R.quiet always (.modify ⟨fun _ => rfl, fun _ => rfl, fun _ => rfl, fun _ h => h⟩))
  · exact runs_done _

end SlotRules

end IntradayBot.Node
