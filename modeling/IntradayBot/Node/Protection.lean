import IntradayBot.Node.Drift
import IntradayBot.Node.Loops

/-!
# Protection before management

`execute` moves a command to `MANAGING` or to `PARTIALLY_FILLED` after the position of its
symbol passed the checks of `ensureProtection`, against the payload that the order was sent
for, or against that of the command if the order was found to be sent before
(`trace_execute_moved`). The checks compare numbers: they say nothing of a stop that the payload
does not have. So the command is moved with its position protected just when

* the payload was sized, and is kept (`OrderSent`, not `RowMoved`); or
* the payload of the command, which the row keeps, is complete, and the position matches it
  (`moved_protected_iff`).

A command whose order is found on the exchange has neither (`moved_not_protected`).

What is read of the exchange, and what the table did, are taken from the trace. The rows that the
table moves have the payload that the command was read with: a row that was taken keeps its
payload (`payloadsKept_run`).
-/

namespace IntradayBot.Node

open Coop LiveSizer

namespace LiveSizer

variable {payload plan : Json} {truth : Truth} {config : Config} {nowSeconds : ℕ} {x : Plan}

/-- The prices of a plan are positive, whatever the tick. -/
theorem Made.prices_pos (h : Made payload truth config nowSeconds x) :
    0 < x.technical.technicalStopLoss ∧ 0 < x.technical.takeProfitReference := by
  have hmark := h.mark_pos
  rcases h.sides with
    ⟨-, hstop0, hstop, ⟨low, hlow⟩, htake⟩ | ⟨-, hstop, htake0, -, -⟩
  · refine ⟨hstop0, ?_⟩
    rw [floorPrice_eq] at hlow
    rw [ceilPrice_eq] at htake
    rcases ht : positiveTick (tickOf truth) with _ | t
    · rw [ht] at htake
      rw [htake, Option.elim_none]
      linarith
    · rw [ht, Option.elim_some] at hlow htake
      have htpos := positiveTick_pos ht
      rw [htake, ceilToStep]
      split_ifs with hreached
      · -- the stop is a multiple of a unit, and the target is further up
        have hunit := le_floorToStep (hlow ▸ hstop0)
        rw [← hlow] at hunit
        linarith
      · linarith [floorToStep_nonneg (x.mark + (x.mark - x.technical.technicalStopLoss) * 2) t]
  · exact ⟨hmark.trans hstop, htake0⟩

end LiveSizer

namespace Executor

/-! ## What a trace shows -/

/-- The positions of a symbol that an answer shows. -/
def positionSeen (symbol : String) : Event Memory JsError Op.Val → Option (List PositionRow)
  | .call _ (.bybit (.position s)) (.ok rows) => if s = symbol then some rows else none
  | _ => none

/-- The open position of a symbol that was shown last. -/
def lastShown (symbol : String) (t : List (Event Memory JsError Op.Val)) : Option PositionRow :=
  (t.filterMap (positionSeen symbol)).getLast?.bind fun rows => rows.find? PositionRow.isOpen

/-- The order that is sent. -/
def orderSeen : Event Memory JsError Op.Val → Option OrderRequest
  | .call _ (.bybit (.createOrder request)) _ => some request
  | _ => none

/-- The row that is moved to another state. -/
def rowSeen : Event Memory JsError Op.Val → Option Command
  | .call _ (.db (.updateState _ _ _ _)) (.ok (some row)) => some row
  | _ => none

/-- An order is sent in the trace. -/
def OrderSent (t : List (Event Memory JsError Op.Val)) : Prop := t.filterMap orderSeen ≠ []

/-- The table moves a row in the trace. -/
def RowMoved (t : List (Event Memory JsError Op.Val)) : Prop := t.filterMap rowSeen ≠ []

variable {α : Type} {p p' : Proc α} {t t' : List (Event Memory JsError Op.Val)}
  {F : (Memory → Memory) → Prop}

theorem rowMoved_append : RowMoved (t ++ t') ↔ RowMoved t ∨ RowMoved t' := by
  simp only [RowMoved, List.filterMap_append, ne_eq, List.append_eq_nil_iff]
  exact not_and_or

theorem lastShown_append_left {symbol : String} (h : t'.filterMap (positionSeen symbol) = []) :
    lastShown symbol (t ++ t') = lastShown symbol t := by
  rw [lastShown, List.filterMap_append, h, List.append_nil, lastShown]

theorem lastShown_append_right {symbol : String} {row : PositionRow}
    (h : lastShown symbol t' = some row) : lastShown symbol (t ++ t') = some row := by
  obtain ⟨rows, hrows, hrow⟩ := Option.bind_eq_some_iff.1 h
  rw [lastShown, List.filterMap_append, List.getLast?_append, hrows]
  exact hrow

/-- A request that moves no row. -/
def Unmoved : Op → Prop
  | .db (.updateState _ _ _ _) => False
  | _ => True

theorem unmoved_of_quiet (h : p.All F HybridRepository.QuietOp) : p.All F Unmoved := by
  refine h.mono (fun _ hf => hf) fun o ho => ?_
  cases o with
  | db o =>
    cases o with
    | updateState command nextState edge now => exact ho.elim
    | _ => trivial
  | _ => trivial

theorem not_rowMoved (h : p.All F Unmoved) (ht : p.Trace t p') : ¬RowMoved t := by
  refine not_not.2 (h.filterMap_eq_nil _ ht (fun _ => rfl) fun m o a ho => ?_)
  cases o with
  | db o =>
    cases o with
    | updateState command nextState edge now => exact ho.elim
    | _ => rfl
  | _ => rfl

theorem not_orderSent (h : p.All F Unordered) (ht : p.Trace t p') : ¬OrderSent t := by
  refine not_not.2 (h.filterMap_eq_nil _ ht (fun _ => rfl) fun m o a ho => ?_)
  cases o with
  | bybit o =>
    cases o with
    | createOrder request => exact ho.elim
    | _ => rfl
  | _ => rfl

theorem positionSeen_toDatabase {symbol : String} (h : p.All F HybridRepository.ToDatabase)
    (ht : p.Trace t p') : t.filterMap (positionSeen symbol) = [] := by
  refine h.filterMap_eq_nil _ ht (fun _ => rfl) fun m o a ho => ?_
  cases o with
  | db o => rfl
  | _ => exact ho.elim

theorem recordOrder_unmoved (command : Command) (status : String) :
    (HybridRepository.recordOrder command status).All (fun _ => True) Unmoved :=
  HybridRepository.all_recordOrder trivial (fun _ => trivial) trivial

/-! ## The tables -/

variable {command : Command}

/-- The updates are answered from tables where the row of the command, as it is taken, has the
    payload that the command was read with. -/
def Recorded (command : Command) (t : List (Event Memory JsError Op.Val)) : Prop :=
  ∀ m c s edge now a, .call m (.db (.updateState c s edge now)) a ∈ t →
    ∃ out tables, a = (DbOp.answer out (.updateState c s edge now) tables).1 ∧
      ∀ row, tables.row? command.candidateKey = some row → Tables.Fence row c →
        row.payload = command.payload

/-- Rows that were taken keep their payload. -/
def PayloadsKept (tables tables' : Tables) : Prop :=
  ∀ k row, tables.row? k = some row → row.state ≠ .available →
    ∃ row', tables'.row? k = some row' ∧ row'.state ≠ .available ∧ row'.payload = row.payload

theorem PayloadsKept.of_commands {tables tables' : Tables} (h : tables'.commands = tables.commands) :
    PayloadsKept tables tables' := fun k row hrow hstate =>
  ⟨row, by rwa [Tables.row?, h], hstate, rfl⟩

theorem PayloadsKept.trans {tables tables' tables'' : Tables} (h : PayloadsKept tables tables')
    (h' : PayloadsKept tables' tables'') : PayloadsKept tables tables'' := by
  intro k row hrow hstate
  obtain ⟨row', hrow', hstate', hpayload'⟩ := h k row hrow hstate
  obtain ⟨row'', hrow'', hstate'', hpayload''⟩ := h' k row' hrow' hstate'
  exact ⟨row'', hrow'', hstate'', hpayload''.trans hpayload'⟩

/-- A call only claims available rows, and only updates the state of the others. -/
theorem payloadsKept_answer (o : DbOp) (out : Outcome) (tables : Tables) :
    PayloadsKept tables (o.answer out tables).2 := by
  have hperform : ∀ locked, PayloadsKept tables (o.perform locked tables).2 := by
    intro locked
    cases o with
    | claim ownerId slotId now =>
      rcases tables.claim_cases locked ownerId slotId now with h | ⟨old, claimed, hold, havailable, -,
        -, -, -, hrows⟩
      · exact .of_commands (by rw [DbOp.perform, h])
      · intro k row hrow hstate
        refine ⟨row, ?_, hstate, rfl⟩
        rw [DbOp.perform, hrows, if_neg, hrow]
        rintro rfl
        obtain rfl := Option.some.inj (hold.symm.trans hrow)
        exact hstate havailable
    | updateState c s edge now =>
      rcases tables.updateState_cases c s edge now with ⟨h, -⟩ | ⟨old, updated, hold, -, rfl, -, hrows⟩
      · exact .of_commands (by rw [DbOp.perform, h])
      · intro k row hrow hstate
        by_cases hk : k = c.candidateKey
        · subst hk
          obtain rfl := Option.some.inj (hold.symm.trans hrow)
          exact ⟨_, (hrows _).trans (if_pos rfl), (CommandState.ne_of_mem_transitions edge).1, rfl⟩
        · exact ⟨row, (hrows k).trans ((if_neg hk).trans hrow), hstate, rfl⟩
    | _ => exact .of_commands rfl
  cases out with
  | done locked => exact hperform locked
  | lost reason => exact .of_commands rfl
  | unacknowledged locked reason => exact hperform locked

theorem payloadsKept_environment {X : ExchangeModel} {w w' : ServiceWorld X}
    (h : Environment w w') : PayloadsKept w.remote.tables w'.remote.tables := by
  cases h with
  | publish candidateKey payload now =>
    intro k row hrow hstate
    rcases w.remote.tables.row?_publish candidateKey payload now k with h | ⟨-, hnone, -⟩
    · exact ⟨row, h.trans hrow, hstate, rfl⟩
    · rw [hnone] at hrow
      cases hrow
  | refresh candidateKey payload now =>
    intro k row hrow hstate
    rcases w.remote.tables.row?_refresh candidateKey payload now k with h | ⟨-, old, -, hold,
      havailable, -⟩
    · exact ⟨row, h.trans hrow, hstate, rfl⟩
    · obtain rfl := Option.some.inj (hold.symm.trans hrow)
      exact absurd havailable hstate
  | _ => exact .of_commands rfl

/-- In a run of the service, the rows that were taken keep their payload. -/
theorem payloadsKept_run {X : ExchangeModel} {config : Config}
    {ok : Condition Slot Memory (Remote X) JsError Op.Val}
    {c c' : Coop.Config Slot Memory (Remote X) JsError Op.Val}
    (h : Run (service X config) ok c c') :
    PayloadsKept c.world.remote.tables c'.world.remote.tables := by
  induction h with
  | refl => exact .of_commands rfl
  | step _ hstep _ ih =>
    refine ih.trans ?_
    cases hstep with
    | call hp hr =>
      rename_i slot o k a r _
      cases o with
      | db o =>
        obtain ⟨out, rfl, rfl⟩ := hr
        exact payloadsKept_answer o out _
      | bybit o =>
        obtain ⟨s, -, rfl⟩ := hr
        exact .of_commands rfl
      | toss => exact .of_commands (congrArg (fun r => r.tables.commands) hr.2)
      | polls => exact .of_commands (congrArg (fun r => r.tables.commands) hr.2)
      | held slot => exact .of_commands (congrArg (fun r => r.tables.commands) hr.2)
    | env he => exact payloadsKept_environment he
    | _ => exact .of_commands rfl

/-- The updates are recorded where the command was read with the payload of its row, which was
    taken, and the tables have only changed since in ways that keep it. -/
theorem recorded_of_payloadsKept {tables : Tables} {row : Command}
    (hrow : tables.row? command.candidateKey = some row) (htaken : row.state ≠ .available)
    (hpayload : row.payload = command.payload)
    (h : ∀ m c s edge now a, .call m (.db (.updateState c s edge now)) a ∈ t →
      ∃ out tables', PayloadsKept tables tables' ∧
        a = (DbOp.answer out (.updateState c s edge now) tables').1) : Recorded command t := by
  intro m c s edge now a ha
  obtain ⟨out, tables', hkept, rfl⟩ := h m c s edge now a ha
  refine ⟨out, tables', rfl, fun row' hrow' _ => ?_⟩
  obtain ⟨row'', hrow'', -, hpayload''⟩ := hkept _ row hrow htaken
  obtain rfl := Option.some.inj (hrow'.symm.trans hrow'')
  exact hpayload''.trans hpayload

theorem Recorded.left (h : Recorded command (t ++ t')) : Recorded command t :=
  fun m c s edge now a ha => h m c s edge now a (List.mem_append_left _ ha)

theorem Recorded.right (h : Recorded command (t ++ t')) : Recorded command t' :=
  fun m c s edge now a ha => h m c s edge now a (List.mem_append_right _ ha)

/-- The row after an update. -/
theorem Recorded.row {m : Memory} {c : Command} {s : CommandState}
    {edge : s ∈ CommandState.TRANSITIONS c.state} {now : ℕ} (h : Recorded command t)
    (row : Command) (hkey : c.candidateKey = command.candidateKey)
    (hrow : .call m (.db (.updateState c s edge now)) (.ok (some row)) ∈ t) :
    row.state = s ∧ row.candidateKey = command.candidateKey ∧ row.payload = command.payload := by
  obtain ⟨out, tables, ha, hpayload⟩ := h m c s edge now _ hrow
  rcases out with locked | reason | ⟨locked, reason⟩
  · have ha : (some row : Option Command) = (tables.updateState c s edge now).1 :=
      Except.ok.inj ha
    rcases tables.updateState_cases c s edge now with ⟨hnone, -⟩ | ⟨old, updated, hold, hfence,
      rfl, hupdated, -⟩
    · rw [hnone] at ha
      cases ha
    · rw [hupdated] at ha
      obtain rfl := Option.some.inj ha
      exact ⟨rfl, (CommandMap.candidateKey_of_get? hold).trans hkey,
        hpayload old (hkey ▸ hold) hfence⟩
  · cases ha
  · cases ha

/-! ## Transitions -/

/-- The command, moved to a state: in its row, or in memory. -/
structure MovedTo (command c : Command) (s : CommandState) (t : List (Event Memory JsError Op.Val))
    (c' : Command) : Prop where
  state : c'.state = s
  key : c'.candidateKey = command.candidateKey
  payload : RowMoved t ∧ c'.payload = command.payload ∨ ¬RowMoved t ∧ c'.payload = c.payload

theorem transitionDirect_some {c c' : Command} {s : CommandState} {m : Memory}
    (hpayload : Json.truthy (some c.payload) = true)
    (h : (HybridRepository.transitionDirect c s m).1 = some c') :
    c'.state = s ∧ c'.candidateKey = c.candidateKey ∧ c'.payload = c.payload := by
  rw [HybridRepository.transitionDirect] at h
  split at h
  · rename_i stored hstored
    have hkey : stored.candidateKey = c.candidateKey := CommandMap.candidateKey_of_get? hstored
    obtain rfl := Option.some.inj h
    exact ⟨rfl, hkey, if_pos hpayload⟩
  · split at h
    · cases h
    · obtain rfl := Option.some.inj h
      exact ⟨rfl, rfl, rfl⟩

theorem trace_transition {c c' : Command} {s : CommandState} (hdb : Recorded command t)
    (hkey : c.candidateKey = command.candidateKey)
    (hpayload : Json.truthy (some c.payload) = true)
    (h : (HybridRepository.transition c s).Trace t (.done (.ok c'))) :
    MovedTo command c s t c' := by
  obtain ⟨t₁, t₂, ⟨direct, now⟩, rfl, h₁, h₂⟩ := Prog.Trace.bind_ok h
  obtain ⟨m, rfl, hm⟩ := h₁.atomically_ok
  rcases direct with _ | moved
  · -- there is no entry in memory: the table is asked, and a shadow is kept where it fails
    have hshadow : ∀ {t : List (Event Memory JsError Op.Val)} {e : JsError},
        ((Prog.atomically fun m => (HybridRepository.shadow c s m.now,
          (m.degrade e.message).putDirect (HybridRepository.shadow c s m.now))) :
            Proc Command).Trace t (.done (.ok c')) →
        c' = HybridRepository.shadow c s c'.updatedAt ∧ ¬RowMoved t := by
      intro t e h
      obtain ⟨m, rfl, rfl⟩ := h.atomically_ok
      exact ⟨rfl, not_not.2 rfl⟩
    dsimp only [ExecutionRepository.transition] at h₂
    split at h₂
    · rename_i edge
      obtain ⟨m', a, t₃, rfl, h₃⟩ := Prog.Trace.call_done h₂
      rcases a with e | _ | row
      · obtain ⟨hc', hrow⟩ := hshadow h₃
        exact ⟨hc' ▸ rfl, hc' ▸ hkey, .inr ⟨hrow, hc' ▸ rfl⟩⟩
      · obtain ⟨hc', hrow⟩ := hshadow h₃
        exact ⟨hc' ▸ rfl, hc' ▸ hkey, .inr ⟨hrow, hc' ▸ rfl⟩⟩
      · obtain ⟨rfl, hc'⟩ := Prog.Trace.done_iff.1 h₃
        obtain rfl := Except.ok.inj (Prog.done.inj hc')
        obtain ⟨hstate, hrowkey, hrowpayload⟩ :=
          hdb.row row hkey (List.mem_append_right _ List.mem_cons_self)
        exact ⟨hstate, hrowkey, .inl ⟨List.cons_ne_nil _ _, hrowpayload⟩⟩
    · obtain ⟨hc', hrow⟩ := hshadow h₂
      exact ⟨hc' ▸ rfl, hc' ▸ hkey, .inr ⟨hrow, hc' ▸ rfl⟩⟩
  · obtain ⟨rfl, hc'⟩ := Prog.Trace.done_iff.1 h₂
    obtain rfl := Except.ok.inj (Prog.done.inj hc')
    obtain ⟨hstate, hckey, hcpayload⟩ := transitionDirect_some hpayload (Prod.mk.inj hm).1.symm
    exact ⟨hstate, hckey.trans hkey, .inr ⟨not_not.2 rfl, hcpayload⟩⟩

theorem MovedTo.after {c c' : Command} {s : CommandState} (h : MovedTo command c s t' c')
    (ht : ¬RowMoved t) : MovedTo command c s (t ++ t') c' := by
  refine ⟨h.state, h.key, ?_⟩
  rw [rowMoved_append, or_iff_right ht]
  exact h.payload

theorem MovedTo.trans {c c' c'' : Command} {s s' : CommandState} (h : MovedTo command c s t c')
    (h' : MovedTo command c' s' t' c'') : MovedTo command c s' (t ++ t') c'' := by
  refine ⟨h'.state, h'.key, ?_⟩
  rw [rowMoved_append]
  rcases h'.payload with ⟨hrow', hpayload'⟩ | ⟨hrow', hpayload'⟩
  · exact .inl ⟨.inr hrow', hpayload'⟩
  · rcases h.payload with ⟨hrow, hpayload⟩ | ⟨hrow, hpayload⟩
    · exact .inl ⟨.inl hrow, hpayload'.trans hpayload⟩
    · exact .inr ⟨not_or.2 ⟨hrow, hrow'⟩, hpayload'.trans hpayload⟩

/-! ## Protection -/

/-- A price that the service can manage by. -/
def Usable (price : Field) : Prop := ∃ q, Json.toNumber price = some q ∧ 0 < q

/-- A payload that has a stop and a target. -/
structure Complete (payload : Json) : Prop where
  stop : Usable (payload.get "technicalStopLoss")
  take : Usable (payload.get "takeProfitReference")

/-- The price that the exchange shows is the one expected, within the tolerance. -/
def Near (price expected : Field) : Prop :=
  ∃ p e, Json.toNumber price = some p ∧ Json.toNumber expected = some e ∧
    |p - e| ≤ max (|e| / 10 ^ 6) (1 / 10 ^ 10)

/-- The position has the stop and the target of the payload. -/
structure Matches (row : PositionRow) (payload : Json) : Prop where
  stop : Near row.stopLoss (payload.get "technicalStopLoss")
  take : Near row.takeProfit (payload.get "takeProfitReference")

/-- The stops and the targets of the positions shown are numbers, or missing. -/
def Numbered (t : List (Event Memory JsError Op.Val)) : Prop :=
  ∀ m symbol rows, .call m (.bybit (.position symbol)) (.ok rows) ∈ t → ∀ row ∈ rows,
    (Json.numberOrZero row.stopLoss).isSome ∧ (Json.numberOrZero row.takeProfit).isSome

theorem exists_of_positionSeen {symbol : String} {e : Event Memory JsError Op.Val}
    {rows : List PositionRow} (h : positionSeen symbol e = some rows) :
    ∃ m, e = .call m (.bybit (.position symbol)) (.ok rows) := by
  rw [positionSeen.eq_def] at h
  split at h
  · obtain ⟨rfl, hrows⟩ := Option.ite_none_right_eq_some.1 h
    obtain rfl := Option.some.inj hrows
    exact ⟨_, rfl⟩
  · cases h

theorem Numbered.shown {symbol : String} {row : PositionRow} (h : Numbered t)
    (hrow : lastShown symbol t = some row) :
    (Json.numberOrZero row.stopLoss).isSome ∧ (Json.numberOrZero row.takeProfit).isSome := by
  obtain ⟨rows, hrows, hfind⟩ := Option.bind_eq_some_iff.1 hrow
  obtain ⟨e, he, hseen⟩ := List.mem_filterMap.1 (List.mem_of_getLast? hrows)
  obtain ⟨m, rfl⟩ := exists_of_positionSeen hseen
  exact h m symbol rows he row (List.mem_of_find?_eq_some hfind)

theorem near_of_shown {price expected : Field} (hprice : (Json.numberOrZero price).isSome)
    (hpos : ¬(Json.numberOrZero price).any (· ≤ 0)) (hexpected : Usable expected)
    (h : ¬BybitClient.differs (Json.toNumber price) (Json.toNumber expected)) :
    Near price expected := by
  obtain ⟨p, hp⟩ := Option.isSome_iff_exists.1 hprice
  obtain ⟨e, he, -⟩ := hexpected
  have hp' : Json.toNumber price = some p := by
    rw [Json.numberOrZero, Json.orElse] at hp
    split at hp
    · exact hp
    · -- a missing price counts as zero
      obtain rfl : (0 : ℚ) = p := by simpa [Json.toNumber] using hp
      exact absurd (by simp_all [Json.numberOrZero, Json.orElse, Json.toNumber]) hpos
  refine ⟨p, e, hp', he, ?_⟩
  rw [BybitClient.differs, hp', he] at h
  simpa only [Option.any_some, decide_eq_true_eq, not_lt] using h

theorem verifyProtection_eq_ok {payload : Json} {position : Option PositionRow}
    {row : PositionRow} (h : BybitClient.verifyProtection payload position = .ok row) :
    position = some row := by
  rw [BybitClient.verifyProtection.eq_def] at h
  split at h
  · cases h
  · split at h
    · cases h
    · split at h
      · cases h
      · rw [Except.ok.inj h]

theorem matches_of_verify {payload : Json} {row : PositionRow}
    (h : BybitClient.verifyProtection payload (some row) = .ok row) (hcomplete : Complete payload)
    (hstop : (Json.numberOrZero row.stopLoss).isSome)
    (htake : (Json.numberOrZero row.takeProfit).isSome) : Matches row payload := by
  rw [BybitClient.verifyProtection] at h
  split at h
  · cases h
  · rename_i hunprotected
    rw [BybitClient.isUnprotected, Bool.or_eq_true, not_or] at hunprotected
    split at h
    · cases h
    · rename_i hdiffers
      rw [not_or] at hdiffers
      exact ⟨near_of_shown hstop hunprotected.1 hcomplete.stop hdiffers.1,
        near_of_shown htake hunprotected.2 hcomplete.take hdiffers.2⟩

theorem trace_openPosition {symbol : String} {position : Option PositionRow}
    (h : (BybitClient.openPosition symbol).Trace t (.done (.ok position))) :
    lastShown symbol t = position := by
  obtain ⟨t₁, t₂, rows, rfl, h₁, h₂⟩ := Prog.Trace.bind_ok h
  obtain ⟨m, rfl⟩ := Prog.Trace.request_ok h₁
  obtain ⟨rfl, hposition⟩ := Prog.Trace.done_iff.1 h₂
  obtain rfl := Except.ok.inj (Prog.done.inj hposition)
  simp [lastShown, positionSeen]

/-- A position that is returned was shown last, and passed the checks. -/
theorem trace_ensureProtection {payload : Json} {row : PositionRow}
    (h : (BybitClient.ensureProtection payload).Trace t (.done (.ok row))) :
    lastShown (symbolOf payload) t = some row ∧
      BybitClient.verifyProtection payload (some row) = .ok row := by
  obtain ⟨t₁, t₂, position, rfl, h₁, h₂⟩ := Prog.Trace.bind_ok h
  have hshown := trace_openPosition h₁
  rcases position with _ | position
  · cases (Prog.Trace.done_iff.1 h₂).2
  · dsimp only at h₂
    split at h₂
    · -- the position is protected already
      obtain ⟨rfl, hrow⟩ := Prog.Trace.done_iff.1 h₂
      have hverify := (Prog.done.inj hrow).symm
      obtain rfl := Option.some.inj (verifyProtection_eq_ok hverify)
      exact ⟨by rwa [List.append_nil], hverify⟩
    · obtain ⟨t₃, t₄, _, rfl, -, h₄⟩ := Prog.Trace.bind_ok h₂
      obtain ⟨t₅, t₆, position', rfl, h₅, h₆⟩ := Prog.Trace.bind_ok h₄
      obtain ⟨rfl, hrow⟩ := Prog.Trace.done_iff.1 h₆
      have hverify := (Prog.done.inj hrow).symm
      obtain rfl := verifyProtection_eq_ok hverify
      refine ⟨?_, hverify⟩
      rw [List.append_nil]
      exact lastShown_append_right (lastShown_append_right (trace_openPosition h₅))

theorem ensureProtection_unmoved (payload : Json) :
    (BybitClient.ensureProtection payload).All (fun _ => True) Unmoved := by
  have hopen : (BybitClient.openPosition (Json.toText (payload.get "symbol"))).All
      (fun _ => True) Unmoved := .bind (.request trivial) fun _ => .ret _
  refine .bind hopen fun position => ?_
  rcases position with _ | position
  · exact .throw _
  · dsimp only
    split
    · exact .ofExcept _
    · exact .bind (.request trivial) fun _ => .bind hopen fun _ => .ofExcept _

/-! ## The stages -/

variable {payload : Json} {linkId : LinkId} {config : Config}

/-- The position of the payload passed the checks, as it was shown last. -/
def Verified (payload : Json) (t : List (Event Memory JsError Op.Val)) : Prop :=
  ∃ row, lastShown (symbolOf payload) t = some row ∧
    BybitClient.verifyProtection payload (some row) = .ok row

theorem Verified.after (h : Verified payload t') : Verified payload (t ++ t') := by
  obtain ⟨row, hshown, hverify⟩ := h
  exact ⟨row, lastShown_append_right hshown, hverify⟩

/-- The stage that protects the position and moves the command. -/
theorem trace_protect {c c' : Command} {s : CommandState} (hdb : Recorded command t)
    (hkey : c.candidateKey = command.candidateKey)
    (htruthy : Json.truthy (some c.payload) = true)
    (h : ((BybitClient.ensureProtection payload).bind fun _ =>
      (HybridRepository.recordOrder c "PROTECTION_VERIFIED").bind fun _ =>
        HybridRepository.transition c s).Trace t (.done (.ok c'))) :
    MovedTo command c s t c' ∧ Verified payload t := by
  obtain ⟨t₁, t₂, row, rfl, h₁, h₂⟩ := Prog.Trace.bind_ok h
  obtain ⟨t₃, t₄, _, rfl, h₃, h₄⟩ := Prog.Trace.bind_ok h₂
  obtain ⟨hshown, hverify⟩ := trace_ensureProtection h₁
  refine ⟨((trace_transition hdb.right.right hkey htruthy h₄).after ?_).after ?_, row, ?_, hverify⟩
  · exact not_rowMoved (recordOrder_unmoved _ _) h₃
  · exact not_rowMoved (ensureProtection_unmoved _) h₁
  · -- the database shows no position
    rw [lastShown_append_left, hshown]
    rw [List.filterMap_append,
      positionSeen_toDatabase (HybridRepository.recordOrder_toDatabase _ _) h₃,
      positionSeen_toDatabase (HybridRepository.transition_toDatabase _ _) h₄, List.append_nil]

/-- A pending command is moved to a managed state once its position is protected. -/
theorem trace_resolvePending {c c' : Command} (hdb : Recorded command t)
    (hkey : c.candidateKey = command.candidateKey)
    (htruthy : Json.truthy (some c.payload) = true) (hpending : c.state = .orderPending)
    (hmoved : c'.state = .managing ∨ c'.state = .partiallyFilled)
    (h : (resolvePending c payload linkId).Trace t (.done (.ok c'))) :
    MovedTo command c c'.state t c' ∧ Verified payload t := by
  obtain ⟨t₁, t₂, resolution, rfl, h₁, h₂⟩ := Prog.Trace.bind_ok h
  obtain ⟨t₃, t₄, _, rfl, h₃, h₄⟩ := Prog.Trace.bind_ok h₂
  obtain ⟨t₅, t₆, _, rfl, h₅, h₆⟩ := Prog.Trace.bind_ok h₄
  have hwait := not_rowMoved (unmoved_of_quiet (SlotRules.waitForResolution_quiet _ _ _)) h₁
  have hfills := not_rowMoved (unmoved_of_quiet (HybridRepository.recordFills_quiet _ _)) h₃
  have hrecord := not_rowMoved (recordOrder_unmoved _ _) h₅
  have hdb₆ := hdb.right.right.right
  have hstage : ∀ {s}, MovedTo command c s t₆ c' ∧ Verified payload t₆ →
      MovedTo command c c'.state (t₁ ++ (t₃ ++ (t₅ ++ t₆))) c' ∧
        Verified payload (t₁ ++ (t₃ ++ (t₅ ++ t₆))) := by
    rintro s ⟨hto, hverified⟩
    exact ⟨hto.state.symm ▸ ((hto.after hrecord).after hfills).after hwait, hverified.after.after.after⟩
  rcases resolution with ⟨state, executions, cumulativeQty⟩
  rcases state with _ | _ | _ | _
  · exact hstage (trace_protect hdb₆ hkey htruthy h₆)
  · exact hstage (trace_protect hdb₆ hkey htruthy h₆)
  · -- failed
    have hstate := (trace_transition hdb₆ hkey htruthy h₆).state
    rw [hstate] at hmoved
    rcases hmoved with hmoved | hmoved <;> cases hmoved
  · -- unknown: the command is still pending
    obtain rfl := Except.ok.inj (Prog.done.inj (Prog.Trace.done_iff.1 h₆).2)
    rw [hpending] at hmoved
    rcases hmoved with hmoved | hmoved <;> cases hmoved

theorem truthy_of_get {key : String} {v : Json} (h : payload.get key = some v) :
    Json.truthy (some payload) = true := by
  cases payload with
  | obj props => rfl
  | arr items => rfl
  | _ => cases h

theorem Complete.truthy (h : Complete payload) : Json.truthy (some payload) = true := by
  obtain ⟨q, hq, -⟩ := h.stop
  rcases hstop : payload.get "technicalStopLoss" with _ | v
  · rw [hstop] at hq
    cases hq
  · exact truthy_of_get hstop

/-- A sizing completes the payload, for the same symbol. -/
theorem trace_sized {sized : Json}
    (h : (prepareLiveExecution config command payload linkId).Trace t (.done (.ok sized))) :
    Complete sized ∧ symbolOf sized = symbolOf payload := by
  obtain ⟨t₁, t₂, _, rfl, -, h₂⟩ := Prog.Trace.bind_ok h
  obtain ⟨t₃, t₄, truth, rfl, -, h₄⟩ := Prog.Trace.bind_ok h₂
  obtain ⟨t₅, t₆, now, rfl, -, h₆⟩ := Prog.Trace.bind_ok h₄
  obtain ⟨x, hx, rfl⟩ :=
    buildLiveExecutionPlan_eq_ok (Prog.done.inj (Prog.Trace.done_iff.1 h₆).2).symm
  have hreturned : Returned (x.sized payload truth now) x := sized_returned x
  exact ⟨⟨⟨_, hreturned.stop ▸ rfl, hx.prices_pos.1⟩, ⟨_, hreturned.take ▸ rfl, hx.prices_pos.2⟩⟩,
    congrArg Json.toText (get_symbol_sized x)⟩

/-- A command with evidence becomes pending as it was. -/
theorem trace_prepare_recovered {c : Command} (hdb : Recorded command t)
    (htruthy : Json.truthy (some command.payload) = true)
    (h : (prepare config command linkId).Trace t (.done (.ok (.recovered c)))) :
    MovedTo command command .orderPending t c := by
  obtain ⟨t₁, t₂, evidence, rfl, h₁, h₂⟩ := Prog.Trace.bind_ok h
  have hevidence := not_rowMoved (unmoved_of_quiet (hasExchangeEvidence_quiet _ _)) h₁
  split at h₂
  · obtain ⟨t₃, t₄, c', rfl, h₃, h₄⟩ := Prog.Trace.bind_ok h₂
    obtain ⟨t₅, t₆, _, rfl, h₅, h₆⟩ := Prog.Trace.bind_ok h₄
    obtain ⟨rfl, hc⟩ := Prog.Trace.done_iff.1 h₆
    obtain rfl : c = c' := by simpa using hc
    have hto := trace_transition hdb.right.left rfl htruthy h₃
    have hrecord : MovedTo command c .orderPending (t₅ ++ []) c :=
      ⟨hto.state, hto.key, .inr ⟨not_rowMoved (.bind (recordOrder_unmoved _ _) fun _ => .ret _) h₄, rfl⟩⟩
    exact (hto.trans hrecord).after hevidence
  · -- a command without evidence is sized
    obtain ⟨t₃, t₄, _, rfl, -, h₄⟩ := Prog.Trace.bind_ok h₂
    obtain ⟨t₅, t₆, _, rfl, -, h₆⟩ := Prog.Trace.bind_ok h₄
    obtain ⟨t₇, t₈, _, rfl, -, h₈⟩ := Prog.Trace.bind_ok h₆
    obtain ⟨t₉, u₁, _, rfl, -, h₁₀⟩ := Prog.Trace.bind_ok h₈
    obtain ⟨u₂, u₃, _, rfl, -, h₁₂⟩ := Prog.Trace.bind_ok h₁₀
    obtain ⟨u₄, u₅, _, rfl, -, h₁₄⟩ := Prog.Trace.bind_ok h₁₂
    cases (Prog.Trace.done_iff.1 h₁₄).2

/-- A command without evidence becomes pending with the payload sized. -/
theorem trace_prepare_sized {c : Command} (hdb : Recorded command t)
    (h : (prepare config command linkId).Trace t (.done (.ok (.sized c payload)))) :
    MovedTo command { command with payload := payload } .orderPending t c ∧ Complete payload ∧
      symbolOf payload = symbolOf command.payload := by
  obtain ⟨t₁, t₂, evidence, rfl, h₁, h₂⟩ := Prog.Trace.bind_ok h
  have hevidence := not_rowMoved (unmoved_of_quiet (hasExchangeEvidence_quiet _ _)) h₁
  split at h₂
  · -- a command with evidence is not sized
    obtain ⟨t₃, t₄, c', rfl, -, h₄⟩ := Prog.Trace.bind_ok h₂
    obtain ⟨t₅, t₆, _, rfl, -, h₆⟩ := Prog.Trace.bind_ok h₄
    cases (Prog.Trace.done_iff.1 h₆).2
  · obtain ⟨t₃, t₄, payload₁, rfl, h₃, h₄⟩ := Prog.Trace.bind_ok h₂
    obtain ⟨t₅, t₆, _, rfl, h₅, h₆⟩ := Prog.Trace.bind_ok h₄
    obtain ⟨t₇, t₈, payload₂, rfl, h₇, h₈⟩ := Prog.Trace.bind_ok h₆
    obtain ⟨t₉, u₁, c₁, rfl, h₉, h₁₀⟩ := Prog.Trace.bind_ok h₈
    obtain ⟨u₂, u₃, _, rfl, h₁₁, h₁₂⟩ := Prog.Trace.bind_ok h₁₀
    obtain ⟨u₄, u₅, c₂, rfl, h₁₃, h₁₄⟩ := Prog.Trace.bind_ok h₁₂
    obtain ⟨rfl, hc⟩ := Prog.Trace.done_iff.1 h₁₄
    obtain ⟨rfl, rfl⟩ : c = c₂ ∧ payload = payload₂ := by simpa using hc
    obtain ⟨hcomplete₁, hsymbol₁⟩ := trace_sized h₃
    obtain ⟨hcomplete, hsymbol⟩ := trace_sized h₇
    obtain ⟨m, rfl, rfl⟩ := h₉.atomically_ok
    have hmark : (HybridRepository.markExecutionPayload { command with payload := payload }
        payload m).1 = { command with payload := payload } := by
      rw [HybridRepository.markExecutionPayload]
      split <;> rfl
    rw [hmark] at h₁₁ h₁₃
    have hto : MovedTo command { command with payload := payload } .orderPending u₄ c :=
      trace_transition hdb.right.right.right.right.right.right.left rfl hcomplete.truthy h₁₃
    refine ⟨?_, hcomplete, hsymbol.trans hsymbol₁⟩
    rw [List.append_nil]
    have hquiet₃ := not_rowMoved (unmoved_of_quiet (prepareLiveExecution_quiet _ _ _ _)) h₃
    have hquiet₅ := not_rowMoved (unmoved_of_quiet (ensureAccountSettings_quiet _ _ _)) h₅
    have hquiet₇ := not_rowMoved (unmoved_of_quiet (prepareLiveExecution_quiet _ _ _ _)) h₇
    have hquiet₉ : ¬RowMoved [(.sync m : Event Memory JsError Op.Val)] := not_not.2 rfl
    have hquiet₁₁ := not_rowMoved (recordOrder_unmoved _ _) h₁₁
    exact (((((hto.after hquiet₁₁).after hquiet₉).after hquiet₇).after hquiet₅).after hquiet₃).after
      hevidence

/-- The order is sent, and the command is moved once its position is protected. -/
theorem trace_submit_moved {c c' : Command} (hdb : Recorded command t)
    (hkey : c.candidateKey = command.candidateKey)
    (htruthy : Json.truthy (some c.payload) = true) (hpending : c.state = .orderPending)
    (hmoved : c'.state = .managing ∨ c'.state = .partiallyFilled)
    (h : (submit c payload linkId).Trace t (.done (.ok c'))) :
    OrderSent t ∧ MovedTo command c c'.state t c' ∧ Verified payload t := by
  obtain rfl | ⟨m, answer, t', rfl, h'⟩ := Prog.Trace.attempt_request h
  · cases h
  have hsent : OrderSent (.call m (.bybit (.createOrder (entryOrder payload linkId))) answer :: t') :=
    List.cons_ne_nil _ _
  have hcall : ¬RowMoved [Event.call m (Op.bybit (.createOrder (entryOrder payload linkId))) answer] :=
    not_not.2 rfl
  rcases answer with error | orderId
  · rcases error with message | ⟨code, message, retryable⟩ | ⟨code, message⟩
    · obtain ⟨t₁, t₂, _, rfl, -, h₂⟩ := Prog.Trace.bind_ok h'
      cases (Prog.Trace.done_iff.1 h₂).2
    · obtain ⟨t₁, t₂, _, rfl, -, h₂⟩ := Prog.Trace.bind_ok h'
      cases (Prog.Trace.done_iff.1 h₂).2
    · -- an order that is refused fails the command
      obtain ⟨t₁, t₂, _, rfl, -, h₂⟩ := Prog.Trace.bind_ok h'
      have hstate := (trace_transition (t := t₂)
        (Recorded.right (t := .call m _ _ :: t₁) hdb) hkey htruthy h₂).state
      rw [hstate] at hmoved
      rcases hmoved with hmoved | hmoved <;> cases hmoved
  · dsimp only at h'
    split at h'
    · obtain ⟨t₁, t₂, _, rfl, -, h₂⟩ := Prog.Trace.bind_ok h'
      cases (Prog.Trace.done_iff.1 h₂).2
    · obtain ⟨t₁, t₂, _, rfl, h₁, h₂⟩ := Prog.Trace.bind_ok h'
      obtain ⟨hto, hverified⟩ := trace_resolvePending
        (Recorded.right (t := .call m _ _ :: t₁) hdb) hkey htruthy hpending hmoved h₂
      have hrecord := not_rowMoved (recordOrder_unmoved _ _) h₁
      exact ⟨hsent, (hto.after hrecord).after hcall,
        hverified.after.after (t := [.call m _ (.ok orderId)])⟩

theorem truthy_of_validateContract {candidateKey : String}
    (h : validateContract payload candidateKey = .ok ()) : Json.truthy (some payload) = true := by
  cases payload with
  | obj props => rfl
  | arr items => rfl
  | _ => cases h

/-- A command that `execute` moves has a verified position. Without an order sent, the payload
    is that of the command; with one, it is the payload sized, or that of the row. -/
theorem trace_execute_moved {c' : Command} (hdb : Recorded command t)
    (h : (execute config command).Trace t (.done (.ok c')))
    (hmoved : c'.state = .managing ∨ c'.state = .partiallyFilled) :
    ¬OrderSent t ∧ c'.payload = command.payload ∧ Verified command.payload t ∨
      OrderSent t ∧ ∃ payload, Complete payload ∧ symbolOf payload = symbolOf command.payload ∧
        Verified payload t ∧
        (RowMoved t ∧ c'.payload = command.payload ∨ ¬RowMoved t ∧ c'.payload = payload) := by
  obtain ⟨t₁, t₂, _, rfl, h₁, h₂⟩ := Prog.Trace.bind_ok h
  obtain ⟨rfl, hcontract⟩ := Prog.Trace.done_iff.1 h₁
  have htruthy := truthy_of_validateContract (Prog.done.inj hcontract).symm
  have hunsent : ∀ {α : Type} {p : Proc α}, p.All (fun _ => True) Aside →
      p.All (fun _ => True) Unordered := fun h => h.mono (fun _ => id) Unordered.of_aside
  have hsame : ∀ {c s t}, MovedTo command c s t c' → c.payload = command.payload →
      c'.payload = command.payload := by
    rintro c s t hto hc
    rcases hto.payload with ⟨-, hpayload⟩ | ⟨-, hpayload⟩
    · exact hpayload
    · exact hpayload.trans hc
  rw [List.nil_append] at hdb ⊢
  dsimp only at h₂
  split at h₂
  · -- the command is pending already
    rename_i hpending
    obtain ⟨hto, hverified⟩ := trace_resolvePending hdb rfl htruthy hpending hmoved h₂
    exact .inl ⟨not_orderSent (hunsent (resolvePending_aside _ _ _)) h₂, hsame hto rfl, hverified⟩
  · rename_i hreserved
    obtain ⟨t₃, t₄, r, rfl, h₃, h₄⟩ := Prog.Trace.bind_ok h₂
    have hprepared := h₃.attempt_ok
    have hsent₃ := not_orderSent (prepare_unordered _ _ _).attempt h₃
    rcases r with error | pending | ⟨pending, payload⟩
    · -- a command whose preparation failed stays reserved, or fails
      have hstate : c'.state = .reserved ∨ c'.state = .failed := by
        have hfailed : ∀ {t t' : List (Event Memory JsError Op.Val)},
            Recorded command (t₃ ++ (t ++ t')) →
            (HybridRepository.transition command .failed).Trace t' (.done (.ok c')) →
            c'.state = .reserved ∨ c'.state = .failed := fun hdb h =>
          .inr (trace_transition hdb.right.right rfl htruthy h).state
        rcases error with message | ⟨code, message, retryable⟩ | ⟨code, message⟩
        · obtain ⟨t₅, t₆, _, rfl, -, h₆⟩ := Prog.Trace.bind_ok h₄
          obtain ⟨t₇, t₈, _, rfl, -, h₈⟩ := Prog.Trace.bind_ok h₆
          cases (Prog.Trace.done_iff.1 h₈).2
        · obtain ⟨t₅, t₆, _, rfl, -, h₆⟩ := Prog.Trace.bind_ok h₄
          split at h₆
          · obtain rfl := Except.ok.inj (Prog.done.inj (Prog.Trace.done_iff.1 h₆).2)
            exact .inl hreserved
          · exact hfailed hdb h₆
        · obtain ⟨t₅, t₆, _, rfl, -, h₆⟩ := Prog.Trace.bind_ok h₄
          obtain ⟨t₇, t₈, _, rfl, -, h₈⟩ := Prog.Trace.bind_ok h₆
          cases (Prog.Trace.done_iff.1 h₈).2
      rcases hstate with hstate | hstate <;> rw [hstate] at hmoved <;>
        rcases hmoved with hmoved | hmoved <;> cases hmoved
    · have hto₃ := trace_prepare_recovered hdb.left htruthy hprepared
      have hpayload₃ : pending.payload = command.payload := by
        rcases hto₃.payload with ⟨-, hpayload⟩ | ⟨-, hpayload⟩ <;> exact hpayload
      obtain ⟨hto, hverified⟩ := trace_resolvePending hdb.right hto₃.key (hpayload₃ ▸ htruthy)
        hto₃.state hmoved h₄
      refine .inl ⟨?_, hsame hto hpayload₃, hverified.after⟩
      rw [OrderSent, List.filterMap_append, not_not.1 hsent₃, List.nil_append]
      exact not_orderSent (hunsent (resolvePending_aside _ _ _)) h₄
    · obtain ⟨hto₃, hcomplete, hsymbol⟩ := trace_prepare_sized hdb.left hprepared
      have htruthy₃ : Json.truthy (some pending.payload) = true := by
        rcases hto₃.payload with ⟨-, hpayload⟩ | ⟨-, hpayload⟩
        · exact hpayload ▸ htruthy
        · exact hpayload ▸ hcomplete.truthy
      obtain ⟨hsent, hto, hverified⟩ :=
        trace_submit_moved hdb.right hto₃.key htruthy₃ hto₃.state hmoved h₄
      refine .inr ⟨?_, payload, hcomplete, hsymbol, hverified.after, (hto₃.trans hto).payload⟩
      rw [OrderSent, List.filterMap_append, not_not.1 hsent₃, List.nil_append]
      exact hsent
  · cases (Prog.Trace.done_iff.1 h₂).2

/-! ## Commands that are managed -/

/-- A command whose payload has a stop and a target, as the exchange shows them of its
    position. -/
structure Protected (t : List (Event Memory JsError Op.Val)) (c : Command) : Prop where
  complete : Complete c.payload
  shown : ∃ row, lastShown (symbolOf c.payload) t = some row ∧ Matches row c.payload
  /-- No cycle of the trade manager misses the stop. -/
  managed : ∀ position tickers instruments,
    TradeManager.observe c.payload position tickers instruments ≠
      .error (.error "technicalStopLoss must be positive")

theorem observe_of_complete (h : Complete payload) (position : PositionRow)
    (tickers : List TickerRow) (instruments : List InstrumentRow) :
    TradeManager.observe payload position tickers instruments ≠
      .error (.error "technicalStopLoss must be positive") := by
  obtain ⟨q, hq, hpos⟩ := h.stop
  intro herror
  rw [TradeManager.observe.eq_def] at herror
  split at herror
  · -- the checks before it say something else
    rcases bind_eq_error.1 herror with hmark | ⟨mark, -, herror⟩
    · exact absurd (positiveNumber_eq_error hmark) (by decide)
    rcases bind_eq_error.1 herror with hsize | ⟨currentQty, -, herror⟩
    · exact absurd (positiveNumber_eq_error hsize) (by decide)
    rcases bind_eq_error.1 herror with hentry | ⟨entry, -, herror⟩
    · exact absurd (positiveNumber_eq_error hentry) (by decide)
    rcases bind_eq_error.1 herror with hstop | ⟨stop, -, herror⟩
    · rw [positiveNumber_eq_ok.2 ⟨hq, hpos⟩] at hstop
      cases hstop
    rcases bind_eq_error.1 herror with hrisk | ⟨_, -, herror⟩
    · rw [ensure] at hrisk
      split at hrisk
      · cases hrisk
      · exact absurd (JsError.error.inj (Except.error.inj hrisk)) (by decide)
    · cases herror
  · exact absurd (JsError.error.inj (Except.error.inj herror)) (by decide)

theorem protected_of_matches {c : Command} {row : PositionRow} (hcomplete : Complete c.payload)
    (hshown : lastShown (symbolOf c.payload) t = some row) (hmatches : Matches row c.payload) :
    Protected t c :=
  ⟨hcomplete, ⟨row, hshown, hmatches⟩, observe_of_complete hcomplete⟩

theorem Verified.matches (h : Verified payload t) (hrows : Numbered t)
    (hcomplete : Complete payload) :
    ∃ row, lastShown (symbolOf payload) t = some row ∧ Matches row payload := by
  obtain ⟨row, hshown, hverify⟩ := h
  obtain ⟨hstop, htake⟩ := hrows.shown hshown
  exact ⟨row, hshown, matches_of_verify hverify hcomplete hstop htake⟩

/-! ## A command whose order is filled -/

/-- The answers to a command whose order is filled, at a position that has its stops. -/
def filledAnswers (t : List (Event Memory JsError Op.Val)) :
    (o : Op) → Option (Except JsError o.Val)
  | .bybit (.createOrder _) => some (.ok (some (.str "1")))
  | .bybit (.realtimeOrder _ _) =>
    some (.ok (if t.filterMap orderSeen = [] then []
      else [⟨none, some (.str "Filled"), none, none, none⟩]))
  | .bybit (.executions _ _) =>
    some (.ok (if t.filterMap orderSeen = [] then [] else [⟨some (.str "1"), some (.num 5)⟩]))
  | .bybit (.position _) =>
    some (.ok [⟨some (.str "BTCUSDT"), some (.str "Buy"), some (.str "5"), some (.str "100"),
      some (.str "99"), some (.str "102"), none⟩])
  | .polls => some (.ok 1)
  | o => exampleAnswers "100" "100" t o

/-- What the command does, alone. -/
def filledExecution : List (Event Memory JsError Op.Val) × Proc Command :=
  Prog.follow filledAnswers (execute (loadConfig "node" none none none (some 3)) exampleCommand)
    (Memory.started false false 1000) []

/-- A database that does not fail, from some tables on, after the events of a trace, of which the
    first one was the last to happen. -/
def tablesAfter (tables : Tables) : List (Event Memory JsError Op.Val) → Tables
  | [] => tables
  | .call _ (.db o) _ :: t => (o.answer (.done fun _ => false) (tablesAfter tables t)).2
  | _ :: t => tablesAfter tables t

theorem payloadsKept_tablesAfter (tables : Tables) (t : List (Event Memory JsError Op.Val)) :
    PayloadsKept tables (tablesAfter tables t) := by
  induction t with
  | nil => exact .of_commands rfl
  | cons e t ih =>
    rcases e with m | ⟨m, o, a⟩
    · exact ih
    · cases o with
      | db o => exact ih.trans (payloadsKept_answer o _ _)
      | _ => exact ih

/-- The answers to a command of the table, whose order is filled at that position. -/
def rowAnswers (tables : Tables) (t : List (Event Memory JsError Op.Val)) :
    (o : Op) → Option (Except JsError o.Val)
  | .db o => some (o.answer (.done fun _ => false) (tablesAfter tables t)).1
  | o => filledAnswers t o

/-- A database with the row of a command that was taken with a stop and a target. -/
def completeRow : Tables :=
  (((∅ : Tables).publish "BTCUSDT:1" ((exampleCommand.payload.set "technicalStopLoss"
    (.num 99)).set "takeProfitReference" (.num 102)) 1000).claim (fun _ => false) "node:slot1" 1
      1000).2

def rowCommand : Command := (completeRow.row? "BTCUSDT:1").getD exampleCommand

/-- What this command does, alone. -/
def rowExecution : List (Event Memory JsError Op.Val) × Proc Command :=
  Prog.follow (rowAnswers completeRow)
    (execute (loadConfig "node" none none none (some 3)) rowCommand)
    (Memory.started true true 1000) []

theorem recorded_rowExecution : Recorded rowCommand rowExecution.1 := by
  have hrow : (completeRow.row? rowCommand.candidateKey).any (·.state ≠ .available) = true := by
    decide +kernel
  have hkey : rowCommand.candidateKey = "BTCUSDT:1" := by decide +kernel
  obtain ⟨row, hrow, htaken⟩ := (Option.any_eq_true _ _).1 hrow
  refine recorded_of_payloadsKept hrow (of_decide_eq_true htaken) ?_ fun m c s edge now a ha => ?_
  · rw [hkey] at hrow
    rw [rowCommand, hrow, Option.getD_some]
  · obtain ⟨t', ha⟩ := Prog.answer_of_mem_follow ha
    exact ⟨_, _, payloadsKept_tablesAfter completeRow t', (Option.some.inj ha).symm⟩

/-- An event that shows no position without numbers. -/
def showsNumbers : Event Memory JsError Op.Val → Bool
  | .call _ (.bybit (.position _)) (.ok rows) => rows.all fun row =>
    (Json.numberOrZero row.stopLoss).isSome && (Json.numberOrZero row.takeProfit).isSome
  | _ => true

theorem numbered_of_all (h : t.all showsNumbers) : Numbered t := by
  intro m symbol rows hrows row hrow
  have hall := List.all_eq_true.1 (List.all_eq_true.1 h _ hrows) row hrow
  exact Bool.and_eq_true_iff.1 hall

theorem recorded_filledExecution : Recorded exampleCommand filledExecution.1 := by
  intro m c s edge now a ha
  obtain ⟨t', ha⟩ := Prog.answer_of_mem_follow ha
  cases ha

/-- The program has returned a managed command. -/
def hasManaged : Proc Command → Bool
  | .done (.ok c) => c.state = .managing
  | _ => false

theorem exists_of_hasManaged {answer : List (Event Memory JsError Op.Val) → (o : Op) →
      Option (Except JsError o.Val)} {p : Proc Command} {m : Memory}
    (h : hasManaged (Prog.follow answer p m []).2) :
    ∃ c, p.Trace (Prog.follow answer p m []).1 (.done (.ok c)) ∧ c.state = .managing := by
  have htrace := Prog.trace_follow answer p m []
  generalize (Prog.follow answer p m []).2 = q at h htrace
  unfold hasManaged at h
  split at h
  · exact ⟨_, htrace, of_decide_eq_true h⟩
  · cases h

/-! ## The result -/

/-- A command is moved with its position protected just when the payload that is kept is the
    one that its order was sent for, or is complete and the position matches it, which an
    order that was not sent now leaves to the check. -/
theorem moved_protected_iff {c' : Command} (hdb : Recorded command t) (hrows : Numbered t)
    (h : (execute config command).Trace t (.done (.ok c')))
    (hmoved : c'.state = .managing ∨ c'.state = .partiallyFilled) :
    Protected t c' ↔ OrderSent t ∧ ¬RowMoved t ∨
      Complete command.payload ∧ (OrderSent t →
        ∃ row, lastShown (symbolOf command.payload) t = some row ∧ Matches row command.payload) := by
  rcases trace_execute_moved hdb h hmoved with ⟨hsent, hpayload, hverified⟩ |
    ⟨hsent, payload, hcomplete, hsymbol, hverified, hpayload⟩
  · rw [or_iff_right fun hsent' => hsent hsent'.1]
    constructor
    · exact fun hprotected => ⟨hpayload ▸ hprotected.complete, fun hsent' => absurd hsent' hsent⟩
    · rintro ⟨hcomplete, -⟩
      obtain ⟨row, hshown, hmatches⟩ := hverified.matches hrows hcomplete
      rw [← hpayload] at hcomplete hshown hmatches
      exact protected_of_matches hcomplete hshown hmatches
  · rcases hpayload with ⟨hrow, hpayload⟩ | ⟨hrow, hpayload⟩
    · -- the row has its own payload, not the one that the order was sent for
      rw [or_iff_right fun hrow' => hrow'.2 hrow]
      constructor
      · exact fun hprotected => ⟨hpayload ▸ hprotected.complete, fun _ => hpayload ▸ hprotected.shown⟩
      · rintro ⟨hcomplete, hshown⟩
        obtain ⟨row, hshown, hmatches⟩ := hshown hsent
        rw [← hpayload] at hcomplete hshown hmatches
        exact protected_of_matches hcomplete hshown hmatches
    · obtain ⟨row, hshown, hmatches⟩ := hverified.matches hrows hcomplete
      rw [← hpayload] at hcomplete hshown hmatches
      exact iff_of_true (protected_of_matches hcomplete hshown hmatches) (.inl ⟨hsent, hrow⟩)

/-- A command whose order is filled is protected: one in memory, by the payload that was sized, and
    one in the table, by the payload of its row. -/
theorem moved_protected_iff_filled :
    (∃ c, (execute (loadConfig "node" none none none (some 3)) exampleCommand).Trace
      filledExecution.1 (.done (.ok c)) ∧ Protected filledExecution.1 c) ∧
    ∃ c, (execute (loadConfig "node" none none none (some 3)) rowCommand).Trace
      rowExecution.1 (.done (.ok c)) ∧ RowMoved rowExecution.1 ∧ Protected rowExecution.1 c := by
  constructor
  · have hmanaged : hasManaged filledExecution.2 := by decide +kernel
    have hnumbers : filledExecution.1.all showsNumbers := by decide +kernel
    have hsent : OrderSent filledExecution.1 := by
      rw [OrderSent, ne_eq, ← List.isEmpty_iff]
      decide +kernel
    have hrow : ¬RowMoved filledExecution.1 := by
      rw [RowMoved, not_not, ← List.isEmpty_iff]
      decide +kernel
    obtain ⟨c, htrace, hstate⟩ := exists_of_hasManaged hmanaged
    exact ⟨c, htrace, (moved_protected_iff recorded_filledExecution (numbered_of_all hnumbers)
      htrace (.inl hstate)).2 (.inl ⟨hsent, hrow⟩)⟩
  · have hmanaged : hasManaged rowExecution.2 := by decide +kernel
    have hnumbers : rowExecution.1.all showsNumbers := by decide +kernel
    have hrow : RowMoved rowExecution.1 := by
      rw [RowMoved, ne_eq, ← List.isEmpty_iff]
      decide +kernel
    have hpayload : Json.toNumber (rowCommand.payload.get "technicalStopLoss") = some 99 ∧
        Json.toNumber (rowCommand.payload.get "takeProfitReference") = some 102 := by
      decide +kernel
    have hshown : (lastShown (symbolOf rowCommand.payload) rowExecution.1).any fun row =>
        decide (Json.toNumber row.stopLoss = some 99 ∧ Json.toNumber row.takeProfit = some 102) := by
      decide +kernel
    obtain ⟨c, htrace, hstate⟩ := exists_of_hasManaged hmanaged
    obtain ⟨row, hlast, hprices⟩ := (Option.any_eq_true _ _).1 hshown
    obtain ⟨hstop, htake⟩ := of_decide_eq_true hprices
    refine ⟨c, htrace, hrow, (moved_protected_iff recorded_rowExecution (numbered_of_all hnumbers)
      htrace (.inl hstate)).2 (.inr ⟨⟨⟨99, hpayload.1, by norm_num⟩, ⟨102, hpayload.2, by norm_num⟩⟩,
        fun _ => ⟨row, hlast, ⟨99, 99, hstop, hpayload.1, ?_⟩, ⟨102, 102, htake, hpayload.2, ?_⟩⟩⟩)⟩
    · norm_num
    · norm_num

/-! ## An order that was found -/

/-- The answers to a command whose order was filled before it is executed. -/
def recoveredAnswers (t : List (Event Memory JsError Op.Val)) :
    (o : Op) → Option (Except JsError o.Val)
  | .bybit (.realtimeOrder _ _) => some (.ok [⟨none, some (.str "Filled"), none, none, none⟩])
  | .bybit (.executions _ _) => some (.ok [⟨some (.str "1"), some (.num 5)⟩])
  | o => filledAnswers t o

/-- What the command does, alone. -/
def recoveredExecution : List (Event Memory JsError Op.Val) × Proc Command :=
  Prog.follow recoveredAnswers (execute (loadConfig "node" none none none (some 3)) exampleCommand)
    (Memory.started false false 1000) []

theorem recorded_recoveredExecution : Recorded exampleCommand recoveredExecution.1 := by
  intro m c s edge now a ha
  obtain ⟨t', ha⟩ := Prog.answer_of_mem_follow ha
  cases ha

/-- The program has returned a managed command without a stop. -/
def lacksStop : Proc Command → Bool
  | .done (.ok c) => c.state = .managing ∧ (c.payload.get "technicalStopLoss").isNone
  | _ => false

/-- A command whose order is found is managed without a stop in its payload: the check compares
    the stop of the position with no number. -/
theorem moved_not_protected : ¬∀ (config : Config) (command c' : Command)
    (t : List (Event Memory JsError Op.Val)), Recorded command t → Numbered t →
    (execute config command).Trace t (.done (.ok c')) →
    c'.state = .managing ∨ c'.state = .partiallyFilled → Protected t c' := by
  intro hall
  have hlacks : lacksStop recoveredExecution.2 = true := by decide +kernel
  have hnumbers : recoveredExecution.1.all showsNumbers := by decide +kernel
  have htrace := Prog.trace_follow recoveredAnswers
    (execute (loadConfig "node" none none none (some 3)) exampleCommand)
    (Memory.started false false 1000) []
  rw [← recoveredExecution] at htrace
  generalize recoveredExecution.2 = p at hlacks htrace
  unfold lacksStop at hlacks
  split at hlacks
  · rename_i c
    obtain ⟨hstate, hnone⟩ := of_decide_eq_true hlacks
    obtain ⟨q, hq, -⟩ := (hall _ _ _ _ recorded_recoveredExecution (numbered_of_all hnumbers)
      htrace (.inl hstate)).complete.stop
    rw [Option.isNone_iff_eq_none.1 hnone] at hq
    cases hq
  · cases hlacks

end Executor

end IntradayBot.Node
