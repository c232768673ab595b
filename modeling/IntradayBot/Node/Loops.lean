import IntradayBot.Node.Claiming

/-!
# The loops keep the contract

The rules of a slot that holds a command, put together (`slotRules`), what may
arrive from outside (`environment_arrival`), and the service verified
(`verified`).
-/

namespace IntradayBot.Node

open Coop HybridRepository

variable {X : ExchangeModel} {config : Config}
  {ok : Condition Slot Memory (Remote X) JsError Op.Val} {E : Extension X config ok} {i : Slot}
  {w w' : ServiceWorld X}

/-! ## Orders -/

/-- A request to the exchange that is not an entry order does not matter. -/
theorem bybit_holds (E : Extension X config ok) (i : Slot) (n : Prop) (c : Command) {o : BybitOp}
    (ho : ∀ orders, entryKeys (requested o orders) = entryKeys orders) :
    Triple (service X config) ok (contract E) i (Holds config i n c) (bybit o)
      (fun _ => Holds config i n c) fun _ => Holds config i n c := by
  have stable := holds_stable E i n c
  refine .request stable (fun _ => stable) (fun _ => stable) fun w a r hw h ha hok => ?_
  obtain ⟨s, -, rfl⟩ := ha
  obtain ⟨hk, hr⟩ := remote_keeps (i := i) hw hok rfl (ho _)
  refine ⟨hk, ?_⟩
  cases a <;> exact stable _ _ hr hk.inv h

/-- The entry order of a command held is sent, once. -/
theorem submit_holds (E : Extension X config ok) (i : Slot) (c : Command) (payload : Json)
    (hc : c.state = .orderPending) :
    Triple (service X config) ok (contract E) i (Holds config i True c)
      (bybit (.createOrder (Executor.entryOrder payload (Executor.orderLinkId c.candidateKey))))
      (fun _ => Holds config i False c) fun _ => Holds config i False c := by
  have stable := holds_stable E i False c
  refine .request (holds_stable E i True c) (fun _ => stable) (fun _ => stable)
    fun w a r hw h ha hok => ?_
  obtain ⟨s, -, rfl⟩ := ha
  obtain ⟨d, hd, hst, hslot, hown⟩ := h.copy
  have hkeys : entryKeys (requested (.createOrder (Executor.entryOrder payload
      (Executor.orderLinkId c.candidateKey))) w.remote.orders) =
        c.candidateKey :: entryKeys w.remote.orders := rfl
  have hchange : Change E.Free (SlotLoop.owner config) i w ⟨w.mem, { w.remote with
      exchange := s
      orders := requested (.createOrder (Executor.entryOrder payload
        (Executor.orderLinkId c.candidateKey))) w.remote.orders }⟩ := by
    refine .sent c.candidateKey ⟨fun _ _ => rfl, fun _ _ => rfl, fun k hk => ?_, fun h => h⟩ d
      ⟨hslot.trans h.busy.1, hst ▸ h.busy.2⟩ (by rw [hst, hc]; decide) hd (h.unsent trivial) rfl rfl
      hkeys
    simp [Sent, hkeys, hk]
  have hk := hchange.keeps rfl hw hok
  refine ⟨hk, ?_⟩
  cases a <;> exact ⟨h.busy, h.owner, ⟨d, hd, hst, hslot, hown⟩, False.elim⟩

/-! ## Before the order -/

theorem hasExchangeEvidence_quiet (symbol : String) (linkId : LinkId) :
    (Executor.hasExchangeEvidence symbol linkId).All Quiet QuietOp :=
  .bind (.par trivial (SlotRules.findOrder_quiet _ _) (.request trivial)) fun _ => .ret _

theorem prepareLiveExecution_quiet (config : Config) (c : Command) (payload : Json)
    (linkId : LinkId) : (Executor.prepareLiveExecution config c payload linkId).All Quiet QuietOp := by
  refine .bind (.ofExcept _) fun _ => .bind ?_ fun truth => .bind (.read _ quiet_id) fun now =>
    .ofExcept _
  refine .bind (.read _ quiet_id) fun (amount, usable) => .bind ?_ fun _ => .ret _
  exact .par trivial (.request trivial) <| .par trivial (.request trivial) <|
    .par trivial (.request trivial) <| .par trivial (.request trivial) <|
    .par trivial (.request trivial) <| .par trivial (.request trivial) <|
    addReservedRows_quiet _ _ _

theorem ensureAccountSettings_quiet (config : Config) (symbol : String) (leverage : Field) :
    (Executor.ensureAccountSettings config symbol leverage).All Quiet QuietOp := by
  refine .bind ?_ fun _ => .handle (.request trivial) fun e => ?_
  · refine .bind (.request trivial) fun before => ?_
    split
    · exact .ret _
    · exact .bind (.request trivial) fun _ => .bind (.request trivial) fun _ => .require _ _
  · cases e with
    | api code message =>
      dsimp only
      split
      · exact .ret _
      · exact .throw _
    | error message => exact .throw _
    | wait code message retryable => exact .throw _

/-- A reserved command becomes `ORDER_PENDING` before its order is sent. -/
theorem prepare_holds (E : Extension X config ok) (i : Slot) (c : Command)
    (hc : c.state = .reserved) :
    Triple (service X config) ok (contract E) i (Holds config i False c)
      (Executor.prepare config c (Executor.orderLinkId c.candidateKey))
      (fun r w => match r with
        | .recovered c' => c'.state = .orderPending ∧ c'.candidateKey = c.candidateKey ∧
          Holds config i False c' w
        | .sized c' _ => c'.state = .orderPending ∧ c'.candidateKey = c.candidateKey ∧
          Holds config i True c' w)
      fun _ => Holds config i False c := by
  have own := holds_stable E i False c
  have fresh := holds_stable E i True c
  have quiet : ∀ {α : Type} {p : Proc α}, p.All Quiet QuietOp →
      Triple (service X config) ok (contract E) i (Holds config i True c) p
        (fun _ => Holds config i True c) fun _ => Holds config i False c := fun h =>
    ((calm_quiet E i).triple h fresh).conseq (fun _ _ h => h) (fun _ _ _ h => h)
      fun _ _ _ h => h.mono False.elim
  have pending : CommandState.orderPending ≠ .available ∧ CommandState.orderPending ≠ .reserved := by
    decide
  have active : CommandState.orderPending.Active := by decide
  -- A reserved command was never sent; that fact is carried up to the entry order.
  refine .conseq (P := Holds config i True c) ?_ (fun w hw h => h.unsent_of_reserved hw.exclusive hc)
    (fun _ _ _ h => h) fun _ _ _ h => h
  refine .bind (quiet (hasExchangeEvidence_quiet _ _)) fun evidence => ?_
  split
  · -- Evidence at the exchange: the order may be out already, so `Holds` gives that fact up.
    refine .bind (transition_holds E i True c .orderPending pending) fun c' => ?_
    refine .of_forall fun w _ h => ?_
    refine .bind (Q := fun _ => Holds config i False c')
      ((record_holds E i False c' _).conseq (fun _ _ h => (h.2.2 active).mono False.elim)
        (fun _ _ _ h => h) fun _ _ _ h => h) fun _ => ?_
    exact .done_ok ((Contract.Stable.const _).and ((Contract.Stable.const _).and
      (holds_stable E i False c'))) fun _ _ h' => ⟨h.1, h.2.1, h'⟩
  · refine .bind (quiet (prepareLiveExecution_quiet _ _ _ _)) fun payload =>
      .bind (quiet (ensureAccountSettings_quiet _ _ _)) fun _ =>
      .bind (quiet (prepareLiveExecution_quiet _ _ _ _)) fun payload =>
      .bind (mark_holds E i True c payload) fun c₁ => ?_
    refine .of_forall fun w _ h => ?_
    obtain ⟨rfl, -⟩ := h
    refine .bind (Q := fun _ => Holds config i True { c with payload := payload })
      ((record_holds E i True _ _).conseq (fun _ _ h => h.2) (fun _ _ _ h => h)
        fun _ _ _ h => h) fun _ => ?_
    refine .bind (transition_holds E i True _ .orderPending pending) fun c' => ?_
    refine .of_forall fun w _ h => ?_
    exact .done_ok ((Contract.Stable.const _).and ((Contract.Stable.const _).and
      (holds_stable E i True c'))) fun _ _ h' => ⟨h.1, h.2.1, h'.2.2 active⟩

/-! ## The loops -/

/-- What a slot does with a command that it holds. -/
def slotRules (E : Extension X config ok) (i : Slot) : SlotRules X config ok (contract E) i where
  Own := Holds config i False
  Ready c _ := Holds config i True c
  Over := Holds config i False
  stable_own := holds_stable E i False
  stable_ready c _ := holds_stable E i True c
  stable_over := holds_stable E i False
  calm := calm_quiet E i
  next := nextCommand_taken E i
  over_of_reserved _ _ _ h _ := h
  record c status := record_holds E i False c status
  recordOver c status := record_holds E i False c status
  advance c s hs ha := (transition_holds E i False c s
    (CommandState.ne_of_mem_transitions hs)).conseq (fun _ _ h => h)
    (fun _ _ _ h => ⟨h.1, h.2.1, h.2.2 ha⟩) fun _ _ _ h => h
  closing c hs := (transition_holds E i False c .closing
    (CommandState.ne_of_mem_transitions hs)).conseq (fun _ _ h => h)
    (fun _ _ _ h => ⟨h.1, h.2.2 (by decide)⟩) fun _ _ _ h => h
  finish c s hs _ := (transition_holds E i False c s
    (CommandState.ne_of_mem_transitions hs)).conseq (fun _ _ h => h) (fun _ _ _ _ => trivial)
    fun _ _ _ h => h
  prepare := prepare_holds E i
  submit c payload hc := (submit_holds E i c payload hc).conseq (fun _ _ h => h) (fun _ _ _ h => h)
    fun _ _ _ h => ⟨h, fun _ => h⟩
  close c _ _ _ _ := bybit_holds E i False c fun _ => rfl
  stop c _ := bybit_holds E i False c fun _ => rfl
  resolved c _ _ := ((calm_quiet E i).triple (SlotRules.waitForResolution_quiet _ _ _)
    (holds_stable E i False c)).conseq (fun _ _ h => h) (fun _ _ _ h => ⟨h, fun _ => h⟩)
    fun _ _ _ h => h
  missing c _ := (bybit_holds E i False c fun _ => rfl).conseq (fun _ _ h => h)
    (fun _ _ _ h => ⟨h, fun _ => h⟩) fun _ _ _ h => h

/-! ## Arrivals -/

theorem arrival_of_same (direct : w'.mem.direct = w.mem.direct)
    (commands : w'.remote.tables.commands = w.remote.tables.commands)
    (orders : w'.remote.orders = w.remote.orders)
    (usable : w'.mem.usable = true → w.mem.usable = true) : Arrival w w' :=
  .quiet (fun k => by rw [stored?, stored?, direct])
    (fun k => by rw [row?, row?, Tables.row?, Tables.row?, commands])
    (congrArg entryKeys orders) usable

/-- What is delivered arrives. -/
theorem deliver_arrival (payload : Json) (hok : Disjoint w .env
      ⟨(acceptDirectCandidate payload w.mem).2, w.remote⟩) :
    Arrival w ⟨(acceptDirectCandidate payload w.mem).2, w.remote⟩ := by
  unfold acceptDirectCandidate at hok ⊢
  cases hk : directCandidateKey payload with
  | error e => exact arrival_of_same rfl rfl rfl fun h => h
  | ok k =>
    simp only [hk] at hok ⊢
    cases hs : w.mem.direct.get? k with
    | some existing =>
      dsimp only
      split <;> exact arrival_of_same rfl rfl rfl fun h => h
    | none =>
      simp only [hs] at hok ⊢
      have hget := CommandMap.get?_put w.mem.direct (directCommand k payload w.mem.now)
      have hafter := (hget k).trans (if_pos rfl)
      exact .delivered k ⟨fun k' hk' => (hget k').trans (if_neg hk'), fun _ _ => rfl,
        fun _ _ => .rfl, fun h => h⟩ (directCommand k payload w.mem.now) hs hafter rfl rfl rfl
        (fun r hr => hok.delivered rfl k r hs (Option.ne_none_iff_exists'.2 ⟨_, hafter⟩) hr) rfl

/-- What is published or refreshed arrives. -/
theorem published_arrival {t : Tables} (k : String)
    (others : ∀ k', k' ≠ k → t.row? k' = row? w k')
    (h : t.row? k = row? w k ∨ (∀ r, row? w k = some r → r.state = .available) ∧
      ∃ row, t.row? k = some row ∧ row.state = .available) :
    Arrival w ⟨w.mem, { w.remote with tables := t }⟩ := by
  obtain h | ⟨havail, row, hrow, hst⟩ := h
  · refine .quiet (fun _ => rfl) (fun k' => ?_) rfl fun h => h
    by_cases hk : k' = k
    · exact hk ▸ h
    · exact others k' hk
  · exact .published k ⟨fun _ _ => rfl, others, fun _ _ => .rfl, fun h => h⟩ row havail hrow hst
      rfl rfl

theorem environment_arrival (h : Environment w w') (hok : Disjoint w .env w') : Arrival w w' := by
  cases h with
  | deliver payload => exact deliver_arrival payload hok
  | publish k payload now =>
    refine published_arrival k (fun k' hk => ?_) ?_
    · exact (w.remote.tables.row?_publish k payload now k').resolve_right fun h => hk h.1
    · rcases w.remote.tables.row?_publish k payload now k with h | ⟨-, hn, h⟩
      · exact .inl h
      · refine .inr ⟨fun r hr => ?_, h⟩
        rw [row?, hn] at hr
        cases hr
  | refresh k payload now =>
    refine published_arrival k (fun k' hk => ?_) ?_
    · exact (w.remote.tables.row?_refresh k payload now k').resolve_right fun h => hk h.1
    · rcases w.remote.tables.row?_refresh k payload now k with
        h | ⟨-, row, row', hrow, hst, hrow', hst'⟩
      · exact .inl h
      · refine .inr ⟨fun r hr => ?_, row', hrow', hst'⟩
        rwa [← Option.some.inj (hrow.symm.trans hr)]
  | tick now => exact arrival_of_same rfl rfl rfl fun h => h
  | exchange s hs => exact arrival_of_same rfl rfl rfl fun h => h
  | shutdown => exact arrival_of_same rfl rfl rfl fun h => h

/-- The service keeps the contract. -/
theorem verified (E : Extension X config ok) :
    Verified (service X config) ok (contract E) (fun _ _ => True) fun _ _ => True where
  body i := (slotRules E i).turn
  loop _ _ _ _ _ := trivial
  cut _ _ _ _ _ := trivial
  env w w' hw he hok := by
    have harrival := environment_arrival he (E.disjoint hok)
    have hexclusive := harrival.exclusive hw.exclusive
    have hcalls : w'.mem.calls = w.mem.calls := by
      cases he with
      | deliver payload =>
        unfold acceptDirectCandidate
        split
        · rfl
        · split
          · split <;> rfl
          · rfl
      | _ => rfl
    exact ⟨⟨hexclusive, E.arrival hok hw.exclusive hexclusive harrival hw.inv, hcalls ▸ hw.calls⟩,
      harrival.rely, harrival.forward⟩

end IntradayBot.Node
