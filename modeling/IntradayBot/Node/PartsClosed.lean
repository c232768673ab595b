import IntradayBot.Node.Closes

/-!
# Parts are closed once

Along every run of the cycles of a trade, whatever the prices and wherever the cycles are
cut, the trade manager sends the order of the first part at most once, then that of the
second part at most once (`parts_closed_once`). An order is for the share of its action,
or for all that is left of a position that is no larger than the minimum, up to the
tolerance of the comparison. That tolerance is visible: the whole of a position a bit
larger than the minimum is closed (`parts_not_within`).
-/

namespace IntradayBot.Node

open Coop TradeManager

/-- The quantity that orders request. -/
def requestedQty (orders : List CloseOrder) : ℚ :=
  (orders.map fun o => o.request.qty.getD 0).sum

/-- Two orders of their shares request 70% of the initial quantity, up to rounding. -/
theorem Closed.requestedQty_le {key : String} {side : Side} {plan : ManagementPlan}
    {orders : List CloseOrder} (h : Closed key side plan orders) (hplan : Fits side plan)
    (hrest : ∀ o ∈ orders, ¬o.Rest side) :
    requestedQty orders ≤ 7 / 10 * plan.initialQty + 2 / 10 ^ 9 := by
  have hq := hplan.initialQty
  have share : ∀ {o : CloseOrder} {action : Action}, o.Closes key side plan action →
      ¬o.Rest side → o.request.qty.getD 0 ≤ plan.initialQty * action.closePct / 100 + 1 / 10 ^ 9 := by
    intro o action hc hr
    obtain ⟨q, hq, hle⟩ := hc.qty.resolve_right hr
    rwa [hq]
  rcases h with _ | h₁ | ⟨h₁, h₂⟩
  · rw [requestedQty, List.map_nil, List.sum_nil]
    positivity
  · have := share h₁ (hrest _ List.mem_cons_self)
    rw [requestedQty, List.map_singleton, List.sum_singleton]
    simp only [Action.closePct, tp1ClosePct] at this
    linarith
  · have := share h₁ (hrest _ (List.mem_cons_of_mem _ List.mem_cons_self))
    have := share h₂ (hrest _ List.mem_cons_self)
    simp only [Action.closePct, tp1ClosePct, tp2ClosePct] at *
    simp only [requestedQty, List.map_cons, List.map_nil, List.sum_cons, List.sum_nil]
    linarith

theorem Closed.links {key : String} {side : Side} {plan : ManagementPlan}
    {orders : List CloseOrder} (h : Closed key side plan orders) :
    orders.map (fun o => o.request.orderLinkId) ∈
      [[], [.management key .tp1], [.management key .tp2, .management key .tp1]] := by
  rcases h with _ | h₁ | ⟨h₁, h₂⟩
  · exact List.mem_cons_self
  · simp [h₁.link]
  · simp [h₁.link, h₂.link]

theorem Closed.closes {key : String} {side : Side} {plan : ManagementPlan}
    {orders : List CloseOrder} (h : Closed key side plan orders) {o : CloseOrder}
    (ho : o ∈ orders) : ∃ action, o.Closes key side plan action := by
  rcases h with _ | h₁ | ⟨h₁, h₂⟩
  · exact absurd ho List.not_mem_nil
  · obtain rfl := List.mem_singleton.1 ho
    exact ⟨_, h₁⟩
  · rcases List.mem_cons.1 ho with rfl | ho
    · exact ⟨_, h₂⟩
    · obtain rfl := List.mem_singleton.1 ho
      exact ⟨_, h₁⟩

/-- The orders of a trade: at most one for each part, the second part after the first one,
    within what the plan of the trade allows. -/
structure PartsClosed (key : String) (side : Side) (w : TradeWorld) : Prop where
  /-- The last order comes first. -/
  links : w.remote.exchange.created.map (fun o => o.request.orderLinkId) ∈
    [[], [.management key .tp1], [.management key .tp2, .management key .tp1]]
  reduceOnly : ∀ o ∈ w.remote.exchange.created, o.request.reduceOnly = true
  qty : w.remote.exchange.created ≠ [] → ∃ plan,
    (recordOf key w).bind ManagementState.plan = some plan ∧
    (∀ o ∈ w.remote.exchange.created, o.Rest side ∨
      ∃ action, o.request.orderLinkId = .management key action ∧ o.Share plan action) ∧
    ((∀ o ∈ w.remote.exchange.created, ¬o.Rest side) →
      requestedQty w.remote.exchange.created ≤ 7 / 10 * plan.initialQty + 2 / 10 ^ 9)

theorem Closing.partsClosed {key : String} {side : Side} {w : TradeWorld}
    (h : Closing key side (seen key w)) : PartsClosed key side w := by
  rcases hp : (recordOf key w).bind ManagementState.plan with _ | plan
  · have hnil : w.remote.exchange.created = [] := h.noPlan hp
    refine ⟨?_, ?_, fun hne => absurd hnil hne⟩
    · rw [hnil]
      exact List.mem_cons_self
    · rw [hnil]
      exact fun o ho => absurd ho List.not_mem_nil
  have hclosed : Closed key side plan w.remote.exchange.created := h.closed plan hp
  refine ⟨hclosed.links, fun o ho => ?_, fun _ => ⟨plan, hp, fun o ho => ?_,
    hclosed.requestedQty_le (h.fits plan hp)⟩⟩
  · obtain ⟨action, hc⟩ := hclosed.closes ho
    exact hc.reduceOnly
  · obtain ⟨action, hc⟩ := hclosed.closes ho
    exact hc.qty.symm.imp_right fun hs => ⟨action, hc.link, hs⟩

/-- Parts are closed once, and in order, along every run. -/
theorem parts_closed_once (command : Command) {w : TradeWorld} (hw : TradeStarts command w)
    {c : Coop.Config Unit Memory TradeRemote JsError Op.Val}
    (hr : Run (trade command) (fun _ _ _ => True) ((trade command).start w) c) :
    PartsClosed command.candidateKey command.tradeSide c.world := by
  have hnone : (seen command.candidateKey w).record = none := hw.record
  have hstart : Closing command.candidateKey command.tradeSide (seen command.candidateKey w) :=
    ⟨fun _ => hw.created, fun plan hp => absurd (hnone ▸ hp) nofun,
      fun plan hp => absurd (hnone ▸ hp) nofun, fun state hs => absurd (hnone ▸ hs) nofun⟩
  have hturn : Does command.candidateKey (Closing command.candidateKey command.tradeSide) id
      (fun _ _ _ => True) (fun _ => True) (managedTurn command) fun _ _ => True := by
    refine .bind (.leaves (.request trivial)) fun partially => ?_
    refine .bind (Q := fun _ _ => True) ?_ fun _ => .ret fun _ _ _ => trivial
    let state : CommandState := if partially then .partiallyFilled else .managing
    have hside : Command.tradeSide { command with state } = command.tradeSide := rfl
    exact cycle_does hside
  exact (trade_run hturn (fun _ _ _ => trivial) hr (fun _ => hw.row) hstart trivial).partsClosed

/-! ## The tolerance of the minimum -/

/-- A position a bit larger than the minimum, at its first level. -/
def tinyMarket : Market := longMarket "1.0000000000005" "116" "0.0000000000005"

theorem tinyMarket_stepped : Stepped tinyMarket.instrument :=
  longMarket_stepped _ _ (q := 5 / 10 ^ 13) (by decide +kernel) (by norm_num)

/-- The orders of a trade are within what its plan allows, but for what is left of a position
    that is no larger than the minimum, without a tolerance. -/
def PartsWithin (key : String) (side : Side) (w : TradeWorld) : Prop :=
  ∀ plan, (recordOf key w).bind ManagementState.plan = some plan →
    requestedQty w.remote.exchange.created ≤ 7 / 10 * plan.initialQty + 2 / 10 ^ 9 ∨
    ∃ o ∈ w.remote.exchange.created, ∃ position instrument size minQty,
      o.positions.find? (isManaged side) = some position ∧ o.instruments.head? = some instrument ∧
      Json.numberOrZero position.size = some size ∧
      Json.numberOrZero instrument.minOrderQty = some minQty ∧ size ≤ minQty

/-- What is requested for the tiny position, and the plan that it was requested by. -/
theorem tinyMarket_requested :
    (playAll (trade longTrade) ((trade longTrade).start untouched)
      (List.replicate 16 tinyMarket.move)).map (fun c =>
        (((recordOf "BTCUSDT-1" c.world).bind ManagementState.plan).map ManagementPlan.initialQty,
          requestedQty c.world.remote.exchange.created,
          c.world.remote.exchange.created.map fun o =>
            ((o.positions.find? (isManaged .buy)).map fun row => Json.numberOrZero row.size,
              o.instruments.head?.map fun row => Json.numberOrZero row.minOrderQty))) =
      some (some (1 + 5 / 10 ^ 13), 1 + 5 / 10 ^ 13,
        [(some (some (1 + 5 / 10 ^ 13)), some (some 1))]) := by
  decide +kernel

theorem tinyMarket_moves : ∀ m ∈ List.replicate 16 tinyMarket.move, m.Fair (trade longTrade) :=
  fun _ hm => List.eq_of_mem_replicate hm ▸ tinyMarket.move_fair tinyMarket_stepped

theorem parts_not_within : ¬∀ (command : Command) (w : TradeWorld), TradeStarts command w →
    ∀ c, Run (trade command) (fun _ _ _ => True) ((trade command).start w) c →
      PartsWithin command.candidateKey command.tradeSide c.world := by
  intro h
  obtain ⟨c, hc, hrequested⟩ := Option.map_eq_some_iff.1 tinyMarket_requested
  obtain ⟨hplan, hrest⟩ := Prod.mk.inj hrequested
  obtain ⟨hsum, horders⟩ := Prod.mk.inj hrest
  obtain ⟨plan, hplan, hqty⟩ := Option.map_eq_some_iff.1 hplan
  rcases h longTrade untouched untouched_starts c (Run.of_playAll tinyMarket_moves hc) plan hplan with
    hle | ⟨o, ho, position, instrument, size, minQty, hpos, hinst, hsize, hmin, hle⟩
  · rw [hsum, hqty] at hle
    norm_num at hle
  · have hmem := List.mem_map_of_mem (f := fun o : CloseOrder =>
      ((o.positions.find? (isManaged .buy)).map fun row => Json.numberOrZero row.size,
        o.instruments.head?.map fun row => Json.numberOrZero row.minOrderQty)) ho
    rw [horders] at hmem
    obtain ⟨hpos', hinst'⟩ := Prod.mk.inj (List.mem_singleton.1 hmem)
    have hside : longTrade.tradeSide = .buy := by decide +kernel
    rw [hside] at hpos
    rw [hpos, Option.map_some, hsize] at hpos'
    rw [hinst, Option.map_some, hmin] at hinst'
    obtain rfl := Option.some.inj (Option.some.inj hpos')
    obtain rfl := Option.some.inj (Option.some.inj hinst')
    norm_num at hle

/-- The tiny position is closed by one order. -/
theorem parts_closed_once_tiny : ∃ c : Coop.Config Unit Memory TradeRemote JsError Op.Val,
    requestedQty c.world.remote.exchange.created = 1 + 5 / 10 ^ 13 ∧
      PartsClosed longTrade.candidateKey longTrade.tradeSide c.world := by
  obtain ⟨c, hc, hrequested⟩ := Option.map_eq_some_iff.1 tinyMarket_requested
  exact ⟨c, (Prod.mk.inj (Prod.mk.inj hrequested).2).1,
    parts_closed_once longTrade untouched_starts (Run.of_playAll tinyMarket_moves hc)⟩

end IntradayBot.Node
