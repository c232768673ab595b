import IntradayBot.Node.Trade

/-!
# The orders of the trade manager

The orders that close parts of a position are found again by their link id, and the
exchange tells the truth about them. So a part is closed at most once, however often a
cycle is cut, and the second part only after the first one (`Closed`).

The invariant (`Closing`) ties the orders accepted to the plan of the saved record.
-/

namespace IntradayBot.Node

open Coop TradeManager

/-- The share of the initial quantity that an action closes. -/
def Action.closePct : Action → ℚ
  | .tp1 => tp1ClosePct
  | .tp2 => tp2ClosePct

namespace CloseOrder

/-- The order is for no more than the share of its action, up to rounding. -/
def Share (plan : ManagementPlan) (action : Action) (o : CloseOrder) : Prop :=
  ∃ q, o.request.qty = some q ∧ q ≤ plan.initialQty * action.closePct / 100 + 1 / 10 ^ 9

/-- The order is for all that was left of a position no larger than the minimum. -/
def Rest (side : Side) (o : CloseOrder) : Prop :=
  ∃ position instrument size minQty, o.positions.find? (isManaged side) = some position ∧
    o.instruments.head? = some instrument ∧ Json.numberOrZero position.size = some size ∧
    Json.numberOrZero instrument.minOrderQty = some minQty ∧
    o.request.qty = some size ∧ size ≤ minQty + 1 / 10 ^ 12

/-- The order closes the part of an action. -/
structure Closes (key : String) (side : Side) (plan : ManagementPlan) (action : Action)
    (o : CloseOrder) : Prop where
  link : o.request.orderLinkId = .management key action
  reduceOnly : o.request.reduceOnly = true
  qty : o.Share plan action ∨ o.Rest side

end CloseOrder

/-- The orders of the trade manager, the last one first. -/
inductive Closed (key : String) (side : Side) (plan : ManagementPlan) : List CloseOrder → Prop
  | nil : Closed key side plan []
  | tp1 {o : CloseOrder} (h : o.Closes key side plan .tp1) : Closed key side plan [o]
  | tp2 {o₁ o₂ : CloseOrder} (h₁ : o₁.Closes key side plan .tp1)
      (h₂ : o₂.Closes key side plan .tp2) : Closed key side plan [o₂, o₁]

section

variable {key : String} {side : Side} {plan : ManagementPlan} {action : Action}

/-- Another order is accepted: that of the first part, or that of the second one after the
    first one. -/
theorem Closed.accept {x : TradeExchange} {request : OrderRequest}
    (hx : Closed key side plan x.created) (hn : ¬x.Accepted (.management key action))
    (h₁ : action = .tp2 → x.Accepted (.management key .tp1))
    (h : (CloseOrder.mk request x.positions x.instruments).Closes key side plan action) :
    Closed key side plan (x.accept request).created := by
  obtain ⟨positions, instruments, unlisted, created, stops⟩ := x
  rcases hx with _ | h₂ | ⟨h₂, h₃⟩
  · rcases action with _ | _
    · exact .tp1 h
    · obtain ⟨o, ho, -⟩ := h₁ rfl
      exact absurd ho List.not_mem_nil
  · rcases action with _ | _
    · exact absurd ⟨_, List.mem_cons_self, h₂.link⟩ hn
    · exact .tp2 h₂ h
  · rcases action with _ | _
    · exact absurd ⟨_, List.mem_cons_of_mem _ List.mem_cons_self, h₂.link⟩ hn
    · exact absurd ⟨_, List.mem_cons_self, h₃.link⟩ hn

end

/-- The orders accepted for a trade are those of the plan of its record. -/
structure Closing (key : String) (side : Side) (s : Seen TradeExchange) : Prop where
  noPlan : s.record.bind ManagementState.plan = none → s.exchange.created = []
  fits : ∀ plan, s.record.bind ManagementState.plan = some plan → Fits side plan
  closed : ∀ plan, s.record.bind ManagementState.plan = some plan →
    Closed key side plan s.exchange.created
  tp1Done : ∀ state, s.record = some state → state.tp1Done = true →
    s.exchange.Accepted (.management key .tp1)

namespace Closing

variable {key : String} {side : Side} {s : Seen TradeExchange} {x : TradeExchange}

/-- Only the orders matter. -/
theorem of_created (h : Closing key side s) (hx : x.created = s.exchange.created) :
    Closing key side ⟨s.record, x⟩ where
  noPlan hp := hx.trans (h.noPlan hp)
  fits := h.fits
  closed plan hp := by
    rw [hx]
    exact h.closed plan hp
  tp1Done state hs hd := by
    rw [TradeExchange.Accepted, hx]
    exact h.tp1Done state hs hd

/-- The record is replaced by one of the same plan. -/
theorem put (h : Closing key side s) {state : ManagementState}
    (hp : s.record.bind ManagementState.plan = state.plan)
    (hd : state.tp1Done = true → s.exchange.Accepted (.management key .tp1)) :
    Closing key side ⟨some state, s.exchange⟩ where
  noPlan hn := h.noPlan (hp.trans hn)
  fits plan hs := h.fits plan (hp.trans hs)
  closed plan hs := h.closed plan (hp.trans hs)
  tp1Done state' hs hd' := by
    obtain rfl := Option.some.inj hs
    exact hd hd'

/-- The first record, when no order was sent. -/
theorem start (hx : s.exchange.created = []) {state : ManagementState} {plan : ManagementPlan}
    (hp : state.plan = some plan) (hf : Fits side plan) (hd : state.tp1Done = false) :
    Closing key side ⟨some state, s.exchange⟩ where
  noPlan hn := absurd (hp.symm.trans hn) nofun
  fits plan' hs := by
    obtain rfl := Option.some.inj (hp.symm.trans hs)
    exact hf
  closed plan' _ := by
    rw [hx]
    exact .nil
  tp1Done state' hs hd' := by
    obtain rfl := Option.some.inj hs
    exact absurd (hd.symm.trans hd') nofun

end Closing

/-! ## Looking for an order -/

section looking

variable {δ α : Type} {command : Command} {key : String} {side : Side}
  {ok : Condition Unit Memory TradeRemote JsError Op.Val} {symbol : String} {link : LinkId}

/-- What is told of the exchange but for the last look among the active orders. -/
def TradeExchange.told (x : TradeExchange) : TradeExchange := { x with unlisted := none }

theorem unseen_lookup : Unseen TradeExchange.told Lookup := by
  intro o w a r ho ha
  rcases o with o | o | _ | _ | _
  · exact unseen_aside _ w a r ho ha
  · rcases o with _ | _ | _ | _ | _ | _ | _ | _ | ⟨symbol, link⟩ | _ | _ | _ | _ | _ | _ <;>
      try exact unseen_aside _ w a r ho ha
    obtain ⟨⟨-, hx⟩, ht⟩ := ha
    exact ⟨fun key => by rw [rowOf, rowOf, ht], by rw [hx]; rfl⟩
  all_goals exact unseen_aside _ w a r ho ha

/-- An order that is found was accepted. -/
theorem findOrder_found {P : Seen TradeExchange → Prop} :
    Does key (Closing key side) TradeExchange.told ok P (BybitClient.findOrder symbol link)
      fun order s => P s ∧ (order.isSome → s.exchange.Accepted link) := by
  refine .bind (Q := fun rows s => P s ∧ (rows ≠ [] → s.exchange.Accepted link)) ?_ fun rows => ?_
  · refine .bybit fun w a x hI hP ⟨ha, hx⟩ _ => ⟨hI.of_created (hx ▸ rfl), ?_⟩
    rintro v rfl
    rw [hx]
    exact ⟨hP, fun hv => ha v rfl hv⟩
  rcases rows with _ | ⟨current, rows⟩
  · refine .bind (Q := fun rows s => P s ∧ (rows ≠ [] → s.exchange.Accepted link)) ?_ fun rows => ?_
    · refine .bybit fun w a x hI hP ⟨ha, _, hx⟩ _ => ⟨hI.of_created (congrArg _ hx), ?_⟩
      rintro v rfl
      rw [hx]
      exact ⟨hP.1, fun hv => ha v rfl hv⟩
    · refine .ret fun s _ h => ⟨h.1, fun hs => h.2 ?_⟩
      rintro rfl
      exact absurd hs Bool.false_ne_true
  · exact .ret fun s _ h => ⟨h.1, fun _ => h.2 nofun⟩

/-- The last look does not matter to `P`. -/
def Blind (P : Seen TradeExchange → Prop) : Prop :=
  ∀ s u, P ⟨s.record, { s.exchange with unlisted := u }⟩ ↔ P s

/-- An order that is not found was not accepted. -/
theorem findOrder_missing {P : Seen TradeExchange → Prop} (hP : Blind P) :
    Does key (Closing key side) id ok P (BybitClient.findOrder symbol link)
      fun order s => P s ∧ (order = none → ¬s.exchange.Accepted link) := by
  refine .bind (Q := fun rows s => P s ∧ (rows = [] → s.exchange.unlisted = some link)) ?_
    fun rows => ?_
  · refine .bybit fun w a x hI hw ⟨ha, hx⟩ _ => ⟨hI.of_created (hx ▸ rfl), ?_⟩
    rintro v rfl
    rw [hx]
    refine ⟨(hP _ _).2 hw, ?_⟩
    rintro rfl
    rfl
  rcases rows with _ | ⟨current, rows⟩
  · refine .bind (Q := fun rows s => P s ∧ (rows = [] → ¬s.exchange.Accepted link)) ?_
      fun rows => ?_
    · refine .bybit fun w a x hI hw ⟨_, ha, hx⟩ _ => ⟨hI.of_created (congrArg _ hx), ?_⟩
      rintro v rfl
      rw [hx]
      exact ⟨hw.1, fun hv hacc => ha v rfl (hw.2 rfl) hacc hv⟩
    · exact .ret fun s _ h => ⟨h.1, fun hs => h.2 (List.head?_eq_none_iff.1 hs)⟩
  · exact .ret fun s _ h => ⟨h.1, nofun⟩

/-- A quantity was executed of an order that was found, or has executions. -/
theorem found_of_cumulativeQty {order : Option OrderRow} {executions : List ExecutionRow}
    (h : (BybitClient.cumulativeQty order executions).any (0 < ·) = true) :
    order.isSome ∨ executions ≠ [] := by
  by_contra hn
  obtain ⟨ho, he⟩ := not_or.1 hn
  obtain rfl := Option.not_isSome_iff_eq_none.1 ho
  obtain rfl := not_ne_iff.1 he
  revert h
  decide

/-- A quantity is only executed of an order that was accepted. -/
theorem poll_accepted {P : Seen TradeExchange → Prop} {expectedQty : Option ℚ} (n : ℕ)
    (order : Option OrderRow) (executions : List ExecutionRow) :
    Does key (Closing key side) TradeExchange.told ok
      (fun s => P s ∧ ((BybitClient.cumulativeQty order executions).any (0 < ·) = true →
        s.exchange.Accepted link))
      (BybitClient.poll symbol link expectedQty n order executions)
      fun resolution s => P s ∧ (resolution.cumulativeQty.any (0 < ·) = true →
        s.exchange.Accepted link) := by
  induction n generalizing order executions with
  | zero => exact .ret fun _ _ h => h
  | succ n ih =>
    refine .bind (Q := fun c s => P s ∧ (c.1.isSome ∨ c.2 ≠ [] → s.exchange.Accepted link)) ?_
      fun (order, executions) => ?_
    · -- Only a created order is ever shown, by the order query and by the execution query
      -- alike.
      refine .both (fun _ _ h => h) (fun _ _ h => h) unseen_lookup unseen_aside
        (findOrder_looks _ _) (.request trivial) findOrder_found
        (Q := fun order s => P s ∧ (order.isSome → s.exchange.Accepted link))
        (T := fun rows s => rows ≠ [] → s.exchange.Accepted link) (V := fun _ => True)
        (.bybit fun w a x hI _ ⟨ha, hx⟩ _ => ⟨hI.of_created (congrArg _ hx), ?_⟩)
        (fun _ _ h => h.1) (fun _ _ _ => trivial)
        fun order rows s _ ho hr => ⟨ho.1, fun h => h.elim ho.2 hr⟩
      rintro v rfl
      rw [hx]
      exact fun hv => ha v rfl hv
    · dsimp only
      split
      · exact .ret fun s _ h => ⟨h.1, fun hq => h.2 (found_of_cumulativeQty hq)⟩
      · exact (ih order executions).conseq
          (fun s _ h => ⟨h.1, fun hq => h.2 (found_of_cumulativeQty hq)⟩) fun _ _ _ h => h

theorem waitForResolution_accepted {P : Seen TradeExchange → Prop} {expectedQty : Option ℚ} :
    Does key (Closing key side) TradeExchange.told ok P
      (BybitClient.waitForResolution symbol link expectedQty)
      fun resolution s => P s ∧ (resolution.cumulativeQty.any (0 < ·) = true →
        s.exchange.Accepted link) :=
  .bind (.leaves (.request trivial)) fun n => (poll_accepted n none []).conseq
    (fun _ _ h => ⟨h, fun hq => (found_of_cumulativeQty hq).elim nofun fun h => absurd rfl h⟩)
    fun _ _ _ h => h

/-- Once it is settled, the order was accepted. -/
theorem settle_accepted {P : Seen TradeExchange → Prop} (hP : Blind P) {action : Action}
    {quantity : ℚ} :
    Does key (Closing key side) id ok P
      (closeFraction.settle command action symbol link quantity)
      fun _ s => P s ∧ s.exchange.Accepted link := by
  refine .bind (Q := fun resolution s => P s ∧
      (resolution.cumulativeQty.any (0 < ·) = true → s.exchange.Accepted link))
    (.ease (fun x x' h => congrArg TradeExchange.told h) (waitForResolution_accepted (P := P))
      (fun s _ h => (hP s none).2 h) fun _ s _ h => ⟨(hP s none).1 h.1, h.2⟩)
    fun resolution => ?_
  refine .bind (.leaves (recordFills_leaves _ _)) fun _ => ?_
  refine .bind (Q := fun _ s => P s ∧ s.exchange.Accepted link)
    (.require fun hc s _ h => ⟨h.1, h.2 hc.2⟩) fun _ => ?_
  exact .bind (.leaves (recordOrder_leaves _ _)) fun _ => .ret fun _ _ h => h

end looking

/-! ## The cycle -/

section cycle

variable {command : Command} {side : Side} {plan : ManagementPlan} {position : PositionRow}
  {instrument : InstrumentRow} {o : Observation} {state : ManagementState}
  {ok : Condition Unit Memory TradeRemote JsError Op.Val} {symbol : String}

/-- The exchange last showed the position and the instrument. -/
structure Shows (side : Side) (position : PositionRow) (instrument : InstrumentRow)
    (s : Seen TradeExchange) : Prop where
  position : s.exchange.positions.find? (isManaged side) = some position
  instrument : s.exchange.instruments.head? = some instrument

/-- The record is the one that a cycle carries along, but for what the cycle did. -/
structure Carries (key : String) (state : ManagementState) (s : Seen TradeExchange) : Prop where
  plan : s.record.bind ManagementState.plan = state.plan
  tp1Done : state.tp1Done = true → s.exchange.Accepted (.management key .tp1)

theorem isManaged_size (h : isManaged side position = true) :
    ∃ size, Json.numberOrZero position.size = some size ∧ 0 < size := by
  rw [isManaged, Bool.and_eq_true, PositionRow.isOpen] at h
  obtain ⟨size, hsize, hpos⟩ := (Option.any_eq_true _ _).1 h.1
  exact ⟨size, hsize, of_decide_eq_true hpos⟩

/-- An order that closes a part is accepted at most once. -/
theorem closeFraction_accepted (plan : ManagementPlan) (action : Action)
    (hs : Stepped instrument) :
    Does command.candidateKey (Closing command.candidateKey side) id ok
      (fun s => Shows side position instrument s ∧ s.record.bind ManagementState.plan = some plan ∧
        (action = .tp2 → s.exchange.Accepted (.management command.candidateKey .tp1)))
      (closeFraction command plan side position instrument action action.closePct)
      fun _ s => (Shows side position instrument s ∧
        s.record.bind ManagementState.plan = some plan ∧
        (action = .tp2 → s.exchange.Accepted (.management command.candidateKey .tp1))) ∧
        s.exchange.Accepted (.management command.candidateKey action) := by
  set P : Seen TradeExchange → Prop := fun s => Shows side position instrument s ∧
    s.record.bind ManagementState.plan = some plan ∧
      (action = .tp2 → s.exchange.Accepted (.management command.candidateKey .tp1)) with hP
  have blind : Blind P := fun s u => ⟨fun h => ⟨⟨h.1.1, h.1.2⟩, h.2⟩, fun h => ⟨⟨h.1.1, h.1.2⟩, h.2⟩⟩
  refine .bind (Q := fun quantity s => P s ∧ closeQuantity plan.initialQty
    ((Json.numberOrZero position.size).getD 0) instrument action action.closePct = .ok quantity)
    (.ofExcept fun quantity hq s _ h => ⟨h, hq⟩) fun quantity => ?_
  refine .of_forall (fun s _ h => h.2) fun hq => ?_
  refine .bind (Q := fun order s => P s ∧ (order = none →
      ¬s.exchange.Accepted (.management command.candidateKey action)))
    ((findOrder_missing blind).conseq (fun _ _ h => h.1) fun _ _ _ h => h) fun prior => ?_
  refine .bind (.leaves (.request trivial)) fun executions => ?_
  split
  · rename_i hnew
    refine .bind (.leaves (recordOrder_leaves _ _)) fun _ => ?_
    refine .bind (Q := fun _ => P) (.bybit fun w a x hI hw ha _ => ?_) fun _ =>
      settle_accepted blind
    obtain ⟨⟨hshows, hplan, htp1⟩, hmissing⟩ := hw
    rcases ha with rfl | ⟨⟨e, rfl⟩, rfl⟩
    · -- the order is accepted: it was not before
      have hn := hmissing (Option.isNone_iff_eq_none.1 hnew.1)
      have hfits := hI.fits plan hplan
      obtain ⟨size, hsize, hpos⟩ := isManaged_size (List.find?_some hshows.position)
      have hcloses : (CloseOrder.mk (closeOrder command side position action quantity)
          w.remote.exchange.positions w.remote.exchange.instruments).Closes command.candidateKey
            side plan action := by
        refine ⟨rfl, rfl, ?_⟩
        rw [hsize] at hq
        have hshare : 0 ≤ plan.initialQty * action.closePct / 100 := by
          have := hfits.initialQty
          have : 0 ≤ action.closePct := by rcases action with _ | _ <;> decide
          positivity
        rcases closeQuantity_cases hq hs hshare hpos.le with h | ⟨rfl, minQty, hmin, hle⟩
        · exact .inl ⟨quantity, rfl, h⟩
        · exact .inr ⟨position, instrument, _, minQty, hshows.position, hshows.instrument, hsize,
            hmin, rfl, hle⟩
      have hmono : ∀ link, w.remote.exchange.Accepted link → (w.remote.exchange.accept
          (closeOrder command side position action quantity)).Accepted link :=
        fun link ⟨o, ho, hl⟩ => ⟨o, List.mem_cons_of_mem _ ho, hl⟩
      refine ⟨⟨fun hnone => absurd (hplan.symm.trans hnone) nofun, hI.fits, fun plan' hp => ?_,
        fun state hst hd => hmono _ (hI.tp1Done state hst hd)⟩,
        fun _ _ => ⟨⟨hshows.position, hshows.instrument⟩, hplan, fun h => hmono _ (htp1 h)⟩⟩
      obtain rfl := Option.some.inj (hplan.symm.trans hp)
      exact (hI.closed plan hplan).accept hn htp1 hcloses
    · exact ⟨hI, nofun⟩
  · exact (settle_accepted blind).conseq (fun _ _ h => h.1) fun _ _ _ h => h

/-- A stop is moved: no order is sent. -/
theorem setTradingStop_does {P : Seen TradeExchange → Prop} {request : StopRequest}
    (hP : ∀ s l, P s → P ⟨s.record, { s.exchange with stops := l }⟩) :
    Does command.candidateKey (Closing command.candidateKey side) id ok P
      (bybit (.setTradingStop request))
      fun _ => P :=
  .bybit fun _ _ _ hI hw hx _ => ⟨hI.of_created (hx ▸ rfl), fun _ _ => hx ▸ hP _ _ hw⟩

/-- After the first level, its order was accepted if the price reached it. -/
theorem takeFirst_does (hs : Stepped o.instrument) :
    Does command.candidateKey (Closing command.candidateKey side) id ok
      (fun s => Carries command.candidateKey state s ∧ Shows side position o.instrument s)
      (takeFirst command side position o state)
      fun state' s => (Carries command.candidateKey state' s ∧
        ∀ plan, state'.plan = some plan → reached o.mark plan.tp1Price side →
          state'.tp1Done = true) ∧ s.exchange.instruments.head? = some o.instrument := by
  rw [takeFirst]
  rcases hp : state.plan with _ | plan
  · exact .ret fun s _ h =>
      ⟨⟨h.1, fun plan hplan => absurd (hp.symm.trans hplan) nofun⟩, h.2.instrument⟩
  dsimp only
  split
  · refine .bind ((closeFraction_accepted plan .tp1 hs).pre
      fun s _ h => ⟨h.2, h.1.plan.trans hp, nofun⟩) fun closedQty => ?_
    refine .bind (Q := fun _ s => s.record.bind ManagementState.plan = some plan ∧
      s.exchange.Accepted (.management command.candidateKey .tp1) ∧
        s.exchange.instruments.head? = some o.instrument) ?_ fun _ => ?_
    · exact .bind ((setTradingStop_does fun s l h => h).pre
        fun s _ h => ⟨h.1.2.1, h.2, h.1.1.instrument⟩) fun _ => .leaves (recordOrder_leaves _ _)
    · -- The stage is done only behind an accepted close.
      exact .ret fun s _ h => ⟨⟨⟨h.1, fun _ => h.2.1⟩, fun _ _ _ => rfl⟩, h.2.2⟩
  · rename_i hc
    refine .ret fun s _ h => ⟨⟨h.1, fun plan' hplan hr => ?_⟩, h.2.instrument⟩
    obtain rfl := Option.some.inj (hp.symm.trans hplan)
    by_contra hd
    exact hc ⟨by simpa using hd, hr⟩

/-- At the second level, the order of the first one was accepted. -/
theorem takeSecond_does (hs : Stepped o.instrument) :
    Does command.candidateKey (Closing command.candidateKey side) id ok
      (fun s => (Carries command.candidateKey state s ∧
        ∀ plan, state.plan = some plan → reached o.mark plan.tp1Price side →
          state.tp1Done = true) ∧ Shows side position o.instrument s)
      (takeSecond command side position o state)
      fun state' s => Carries command.candidateKey state' s := by
  rw [takeSecond]
  rcases hp : state.plan with _ | plan
  · exact .ret fun s _ h => h.1.1
  dsimp only
  split
  · rename_i hc
    refine .bind (Q := fun _ s => s.record.bind ManagementState.plan = some plan ∧
        s.exchange.Accepted (.management command.candidateKey .tp1))
      ((closeFraction_accepted plan .tp2 hs).conseq (fun s hI h => ?_)
        fun _ _ _ h => ⟨h.1.2.1, h.1.2.2 rfl⟩) fun closedQty => ?_
    · have hplan := h.1.1.plan.trans hp
      refine ⟨h.2, hplan, fun _ => h.1.1.tp1Done (h.1.2 plan rfl ?_)⟩
      exact (hI.fits plan hplan).reached_tp1 hc.2
    · exact .ret fun s _ h => ⟨h.1, fun _ => h.2⟩
  · exact .ret fun s _ h => h.1.1

theorem trail_does {mark : ℚ} :
    Does command.candidateKey (Closing command.candidateKey side) id ok
      (Carries command.candidateKey state) (trail command symbol side position mark state)
      fun state' s => Carries command.candidateKey state' s := by
  rw [trail]
  rcases hp : state.plan with _ | plan
  · exact .ret fun _ _ h => h
  dsimp only
  split
  · rcases trailingStop mark side plan.riskDistance state.trailingStop with _ | tighter
    · exact .ret fun _ _ h => h
    · exact .bind (setTradingStop_does fun s l h => ⟨h.plan, h.tp1Done⟩) fun _ =>
        .bind (.leaves (recordOrder_leaves _ _)) fun _ => .ret fun _ _ h =>
          ⟨h.plan.trans hp, h.tp1Done⟩
  · exact .ret fun _ _ h => h

/-- The record that is carried along is saved, with other remarks. -/
theorem put_does (state' : ManagementState) (hp : state'.plan = state.plan)
    (hd : state'.tp1Done = state.tp1Done) :
    Does command.candidateKey (Closing command.candidateKey side) id ok
      (Carries command.candidateKey state)
      (HybridRepository.putManagementState command.candidateKey state') fun _ _ => True :=
  .putManagementState fun _ hI h =>
    ⟨hI.put (h.plan.trans hp.symm) fun hd' => h.tp1Done (hd ▸ hd'), trivial⟩

theorem closedAfter_does {reason : String} :
    Does command.candidateKey (Closing command.candidateKey side) id ok
      (Carries command.candidateKey state) (closedAfter command state reason) fun _ _ => True :=
  .bind (put_does { state with closeReason := some reason } rfl rfl) fun _ =>
    .leaves (finishClosed_leaves _)

theorem currentPosition_does {P : Seen TradeExchange → Prop}
    (hP : ∀ s l, P s → P ⟨s.record, { s.exchange with positions := l }⟩) :
    Does command.candidateKey (Closing command.candidateKey side) id ok P (currentPosition symbol side)
      fun position s => P s ∧ s.exchange.positions.find? (isManaged side) = position := by
  refine .bind (Q := fun rows s => P s ∧ s.exchange.positions = rows) (.bybit fun w a x hI hw hx _ =>
    ⟨hI.of_created (hx ▸ rfl), ?_⟩) fun rows => .ret fun s _ h => ⟨h.1, by rw [← h.2]⟩
  rintro v rfl
  rw [hx]
  exact ⟨hP _ _ hw, rfl⟩

/-- The record that a cycle starts from. -/
theorem loadState_does (hqty : 0 < o.currentQty) (hentry : 0 < o.entry) (hrisk : 0 < o.risk)
    {P : Seen TradeExchange → Prop} (hP : ∀ s r, P s → P ⟨r, s.exchange⟩) :
    Does command.candidateKey (Closing command.candidateKey side) id ok P
      (loadState command o symbol side)
      fun state s => Carries command.candidateKey state s ∧ P s := by
  refine .bind .getManagementState fun known => ?_
  rcases known with _ | state
  · refine .bind (Q := fun _ s => Carries command.candidateKey (o.initial symbol side) s ∧ P s)
      (.putManagementState fun s hI h => ?_) fun _ =>
        .bind (.leaves (recordOrder_leaves _ _)) fun _ => .ret fun _ _ h => h
    have hnone : s.record = none := h.1
    exact ⟨.start (hI.noPlan (by rw [hnone]; rfl)) rfl (plan_fits hqty hentry hrisk symbol side) rfl,
      ⟨rfl, nofun⟩, hP _ _ h.2⟩
  · refine .ret fun s hI h => ⟨⟨?_, hI.tp1Done state h.1⟩, h.2⟩
    have hsome : s.record = some state := h.1
    change s.record.bind ManagementState.plan = state.plan
    rw [hsome]
    rfl

/-- The rows that a cycle starts from are those last shown. -/
theorem rows_does {key : String} :
    Does key (Closing key side) id ok (fun _ => True)
      (both (bybit (.position symbol)) <|
        both (bybit (.ticker symbol)) (bybit (.instrument symbol)))
      fun rows s => s.exchange.positions = rows.1 ∧ s.exchange.instruments = rows.2.2 ∧
        ∀ row ∈ rows.2.2, Stepped row := by
  refine (Does.rows (P := fun _ => True) (Q := fun rows s => s.exchange = rows)
    (T := fun _ _ => True) (R := fun rows s => s.exchange = rows ∧ ∀ row ∈ rows, Stepped row)
    (.bybit fun w a x hI _ hx _ => ⟨hI.of_created (hx ▸ rfl), ?_⟩)
    (.bybit fun w a x hI _ hx _ => ⟨hI.of_created (hx ▸ rfl), fun _ _ => trivial⟩)
    (.bybit fun w a x hI _ ⟨hs, hx⟩ _ => ⟨hI.of_created (hx ▸ rfl), ?_⟩)).conseq
    (fun _ _ h => h) fun _ _ _ h => ⟨h.1, h.2.2⟩
  · rintro v rfl
    rw [hx]
    rfl
  · rintro v rfl
    rw [hx]
    exact ⟨rfl, hs v rfl⟩

/-- A cycle, from an open position on. -/
theorem manage_does (hqty : 0 < o.currentQty) (hentry : 0 < o.entry) (hrisk : 0 < o.risk)
    (hs : Stepped o.instrument) :
    Does command.candidateKey (Closing command.candidateKey side) id ok
      (Shows side position o.instrument) (manage command symbol side position o)
      fun _ _ => True := by
  refine .bind (loadState_does hqty hentry hrisk fun s r h => ⟨h.position, h.instrument⟩)
    fun state => ?_
  refine .bind ((takeFirst_does hs).pre fun s _ h => ⟨⟨h.1.plan, h.1.tp1Done⟩, h.2⟩)
    fun state => ?_
  refine .bind (currentPosition_does fun s l h => ⟨⟨⟨h.1.1.plan, h.1.1.tp1Done⟩, h.1.2⟩, h.2⟩)
    fun refreshedAfterTp1 => ?_
  rcases refreshedAfterTp1 with _ | refreshedAfterTp1
  · exact closedAfter_does.pre fun _ _ h => h.1.1.1
  refine .bind ((takeSecond_does hs).pre fun s _ h => ⟨h.1.1, h.2, h.1.2⟩) fun state => ?_
  refine .bind (currentPosition_does fun s l h => ⟨h.plan, h.tp1Done⟩) fun refreshed => ?_
  rcases refreshed with _ | refreshed
  · exact closedAfter_does.pre fun _ _ h => h.1
  refine .bind (trail_does.pre fun _ _ h => h.1) fun state => ?_
  refine .bind (put_does _ rfl rfl) fun _ => .bind (.leaves (recordOrder_leaves _ _)) fun _ => ?_
  split
  · exact .leaves (transition_leaves _ _)
  · exact .ret fun _ _ _ => trivial

theorem closeMissingPosition_does {reason : String} :
    Does command.candidateKey (Closing command.candidateKey side) id ok (fun _ => True)
      (closeMissingPosition command reason) fun _ _ => True := by
  refine .bind .getManagementState fun known => .bind (Q := fun _ _ => True)
    (.putManagementState fun s hI h => ⟨?_, trivial⟩) fun _ => .leaves (finishClosed_leaves _)
  have hrec : s.record = known := h.1
  rcases known with _ | state
  · exact hI.put (by rw [hrec]; rfl) nofun
  · exact hI.put (by rw [hrec]; rfl) (hI.tp1Done state hrec)

/-- A cycle keeps the orders to the plan. -/
theorem cycle_does (hside : command.tradeSide = side) :
    Does command.candidateKey (Closing command.candidateKey side) id ok (fun _ => True)
      (TradeManager.cycle command) fun _ _ => True := by
  refine .bind (Q := fun _ _ => True) (.require fun _ _ _ _ => trivial) fun _ => ?_
  dsimp only
  rcases hs : Side.ofText? (Json.textOrEmpty (command.payload.get "side")) with _ | side'
  · exact .throw _
  obtain rfl : side = side' := by rw [← hside, Command.tradeSide, hs, Option.getD_some]
  refine .bind (Q := fun _ _ => True) (.require fun _ _ _ _ => trivial) fun _ => ?_
  refine .bind rows_does fun (positions, tickers, instruments) => ?_
  dsimp only
  rcases hp : positions.find? (isManaged side) with _ | position
  · exact closeMissingPosition_does.pre fun _ _ _ => trivial
  refine .bind (Q := fun o s => (s.exchange.positions = positions ∧
      s.exchange.instruments = instruments ∧ ∀ row ∈ instruments, Stepped row) ∧
        observe command.payload position tickers instruments = .ok o)
    (.ofExcept fun o ho s _ h => ⟨h, ho⟩) fun o => ?_
  refine .of_forall (fun s _ h => And.intro h.2 h.1.2.2) fun ⟨ho, hstep⟩ => ?_
  obtain ⟨ticker, tickers', instruments', -, rfl, -, -, -, hqty, -, hentry, -, -, hrisk⟩ :=
    observe_eq_ok ho
  exact (manage_does hqty hentry hrisk (hstep _ List.mem_cons_self)).pre fun s _ h =>
    ⟨h.1.1 ▸ hp, h.1.2.1 ▸ rfl⟩

end cycle

end IntradayBot.Node
