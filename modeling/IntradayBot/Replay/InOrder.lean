import IntradayBot.Replay.Transactions

/-!
# Candles are executed in order

A session that has passed some of its candles has executed them all, up to those of one
request, which is pending (`Ordered`). Every transaction keeps this, as long as the session
does not advance past a pending request, and no older response is finalized meanwhile.
-/

namespace IntradayBot.Replay

open Engine Simulation

variable {ctx : Decimal.Context} {db db' : Db} {n k : ℕ} {request : StepRequest}
  {x y : StepResponse} {stored : StoredStep}

/-! ## Executed candles -/

/-- The account as it is marked. -/
def Event.mark? : Event → Option Mark
  | .pnlMarked _ mark => some mark
  | _ => none

/-- The marks of the account, candle by candle. -/
def marksOf (events : List Event) : List Mark := events.filterMap Event.mark?

/-- The marks of the account, candle by candle. -/
def Db.marks (db : Db) : List Mark := marksOf db.events

/-- The time of the candle that is marked. -/
def Event.markTime? : Event → Option ℤ
  | .pnlMarked _ mark => some mark.candleOpenTime
  | _ => none

/-- The times of the candles that were executed. -/
def markTimes (events : List Event) : List ℤ := events.filterMap Event.markTime?

/-- The times of the candles that were executed. -/
def Db.executedTimes (db : Db) : List ℤ := markTimes db.events

theorem markTimes_eq (l : List Event) : markTimes l = (marksOf l).map (·.candleOpenTime) := by
  rw [markTimes, marksOf, List.map_filterMap]
  refine congrArg (List.filterMap · l) (funext fun e => ?_)
  cases e <;> rfl

theorem marksOf_append (l₁ l₂ : List Event) : marksOf (l₁ ++ l₂) = marksOf l₁ ++ marksOf l₂ :=
  List.filterMap_append ..

/-- Without times, there are no marks. -/
theorem marksOf_eq_nil {l : List Event} (h : markTimes l = []) : marksOf l = [] := by
  rw [markTimes_eq] at h
  exact List.map_eq_nil_iff.1 h

@[simp] theorem markTimes_append (l₁ l₂ : List Event) :
    markTimes (l₁ ++ l₂) = markTimes l₁ ++ markTimes l₂ := List.filterMap_append ..

@[simp] theorem markTimes_nil : markTimes [] = [] := rfl

theorem markTimes_eq_nil {l : List Event} (h : ∀ e ∈ l, e.markTime? = none) : markTimes l = [] :=
  List.filterMap_eq_nil_iff.2 h

/-- No event of a step, or of a decision, is a mark. -/
theorem markTimes_stepEvents (cursor : Option ℤ) : markTimes (stepEvents request cursor x) = [] := by
  refine markTimes_eq_nil fun e he => ?_
  rw [stepEvents, List.mem_append, List.mem_cons, List.mem_mapIdx, List.mem_singleton] at he
  obtain (rfl | ⟨_, _, rfl⟩) | rfl := he <;> rfl

theorem markTimes_strategyEvents (decisions : List Decision) :
    markTimes (decisions.flatMap Strategy.events) = [] := by
  refine markTimes_eq_nil fun e he => ?_
  obtain ⟨decision, -, he⟩ := List.mem_flatMap.1 he
  rw [Strategy.events, List.mem_cons] at he
  split at he
  · obtain rfl | he := he
    · rfl
    · rw [List.mem_singleton.1 he]
      rfl
  · obtain rfl | he := he
    · rfl
    · exact absurd he List.not_mem_nil

/-- A candle that is simulated is marked. -/
theorem simulateCandle_markTimes {plan : Plan} {candle : Candle} {sim sim' : Sim}
    (h : simulateCandle ctx plan sim candle = .ok sim') :
    markTimes sim'.events = markTimes sim.events ++ [candle.openTime] := by
  obtain ⟨sim₁, sim₂, sim₃, -, h₁, h₂, h₃, h₄⟩ := simulateCandle_eq_ok h
  have he₁ : markTimes sim₁.events = markTimes sim.events := by
    rcases exits_cases h₁ with rfl | ⟨_, _, _, _, -, -, hl⟩
    · rfl
    · simp [hl.events, markTimes, Event.markTime?]
  have he₂ : markTimes sim₂.events = markTimes sim₁.events := by
    rcases enters_cases h₂ with rfl | ⟨_, _, rfl⟩ | ⟨_, _, he⟩
    · rfl
    · simp [Sim.skip, markTimes, Event.markTime?]
    · simp [he.events, markTimes, Event.markTime?]
  have he₃ : markTimes sim₃.events = markTimes sim₂.events := by
    rcases ends_cases h₃ with ⟨rfl, -⟩ | ⟨_, _, _, -, hl⟩
    · rfl
    · simp [hl.events, markTimes, Event.markTime?]
  obtain ⟨mark, hm⟩ := marks_eq_ok h₄
  rw [hm.sim, markTimes_append, he₃, he₂, he₁]
  simp [markTimes, Event.markTime?, hm.time]

theorem simulate_markTimes {plan : Plan} {candles : List Candle} {sim sim' : Sim}
    (h : candles.foldlM (simulateCandle ctx plan) sim = .ok sim') :
    markTimes sim'.events = markTimes sim.events ++ candles.map (·.openTime) := by
  induction candles generalizing sim with
  | nil => simp [← pure_eq_ok.1 h]
  | cons candle candles ih =>
    rw [List.foldlM_cons] at h
    obtain ⟨sim₁, h₁, h⟩ := bind_eq_ok.1 h
    rw [ih h, simulateCandle_markTimes h₁, List.map_cons, List.append_assoc, List.singleton_append]

/-- At the final candle, no trade is left open. -/
theorem simulate_final {plan : Plan} {candles : List Candle} (hne : candles ≠ []) {sim sim' : Sim}
    (hstatus : plan.targetStatus = .completed)
    (hlast : plan.lastCandleTime = (candles.getLast hne).openTime)
    (h : candles.foldlM (simulateCandle ctx plan) sim = .ok sim') : sim'.open_ = none := by
  rw [← List.dropLast_append_getLast hne, List.foldlM_append] at h
  obtain ⟨sim₀, -, hlast'⟩ := bind_eq_ok.1 h
  rw [List.foldlM_cons] at hlast'
  obtain ⟨sim₁, h₁, hnil⟩ := bind_eq_ok.1 hlast'
  obtain rfl := pure_eq_ok.1 hnil
  have hfinal : plan.isFinal (candles.getLast hne) = true := by
    simp [Plan.isFinal, hstatus, hlast]
  obtain ⟨_, _, sim₃, -, -, -, h₃, h₄⟩ := simulateCandle_eq_ok h₁
  have hopen : sim₃.open_ = none := by
    rcases ends_cases h₃ with ⟨rfl, hnone⟩ | ⟨_, _, _, -, hl⟩
    · exact hnone hfinal
    · exact hl.open_
  obtain ⟨mark, hm⟩ := marks_eq_ok h₄
  rw [hm.sim]
  exact hopen

/-! ## Pending requests -/

/-- The candles of all requests are executed. -/
def AllExecuted (db : Db) : Prop := ∀ stored ∈ db.requests.values, stored.response.execution ≠ none

instance : DecidablePred AllExecuted := fun db =>
  inferInstanceAs (Decidable (∀ stored ∈ db.requests.values, _))

/-- A request is pending, and the session can be stepped all the same. -/
def Exposed (db : Db) : Prop := ¬ AllExecuted db ∧ db.session.status ≠ .running

instance : DecidablePred Exposed := fun _ => inferInstanceAs (Decidable (_ ∧ _))

theorem AllExecuted.get? (h : AllExecuted db) {id : String}
    (hget : db.requests.get? id = some stored) : stored.response.execution ≠ none :=
  h stored (OrdMap.mem_values.2 ⟨id, hget⟩)

theorem allExecuted_iff : AllExecuted db ↔
    ∀ id stored, db.requests.get? id = some stored → stored.response.execution ≠ none :=
  ⟨fun h _ _ hget => h.get? hget, fun h stored hs => by
    obtain ⟨id, hget⟩ := OrdMap.mem_values.1 hs
    exact h id stored hget⟩

/-- The candles of the request `id` are not executed. -/
structure Pending (requests : OrdMap String StoredStep) (id : String) (stored : StoredStep) :
    Prop where
  get? : requests.get? id = some stored
  execution : stored.response.execution = none

/-- The session has executed the candles that it passed, up to those of a pending request. -/
structure Ordered (db : Db) (n k : ℕ) : Prop where
  passed : Passed db n k
  /-- Responses are stored under the names of their requests. -/
  named : ∀ id stored, db.requests.get? id = some stored → stored.response.requestId = id
  executed : AllExecuted db ∧ db.executedTimes = db.session.times k ∨
    ∃ id stored, Pending db.requests id stored ∧
      (∀ id' stored', Pending db.requests id' stored' → id' = id) ∧
      db.executedTimes ++ stored.response.candles.map (·.openTime) = db.session.times k
  /-- Only the last step completes. -/
  complete : ∀ id stored, db.requests.get? id = some stored →
    stored.response.completed = true → k = n
  pendingFinal : db.session.summary.pendingFinalStatus = some .completed → k = n
  /-- What is executed is complete only when all is. -/
  final : ∀ id stored, db.requests.get? id = some stored → stored.response.execution ≠ none →
    stored.response.session.status = .completed →
    AllExecuted db ∧ k = n ∧ openTrades db.trades = []
  status : db.session.status = .completed →
    k = n ∧ (AllExecuted db → openTrades db.trades = [])
  one : (openTrades db.trades).length ≤ 1

namespace Ordered

theorem recorded_complete (h : Ordered db n k) (hx : Recorded db x) (hc : x.completed = true) :
    k = n := by
  obtain ⟨stored, hget, hstored⟩ := hx.get?
  exact h.complete _ stored hget (by rw [hstored]; exact hc)

/-- Nothing is pending where the session can advance. -/
theorem allExecuted (hexposed : ¬ Exposed db)
    (hstatus : db.session.status = .ready ∨ db.session.status = .paused) : AllExecuted db := by
  by_contra h
  refine hexposed ⟨h, ?_⟩
  rcases hstatus with hs | hs <;> rw [hs] <;> decide

/-- The session advances past the next candles, which are then pending. -/
theorem advance (h : Ordered db n k) (hall : AllExecuted db)
    {candles : {l : List Candle // l ≠ []}} (ha : Advances request db candles) :
    ∃ k', k ≤ k' ∧ Ordered (db.advance request candles) n k' := by
  obtain ⟨c, hc, hle, hslice, hcandles, hpassed, hcompleted⟩ :
      ∃ c, 0 < c ∧ k + c ≤ n ∧ candles.1 = (db.candles.drop k).take c ∧
        (db.advance request candles).candles = db.candles ∧
        Passed (db.advance request candles) n (k + c) ∧
        ((advanced request db.session candles).completed = true ↔ k + c = n) :=
    h.passed.advance ha.batch rfl rfl
  have hk : ¬ k = n := by omega
  have hget : ∀ id, (db.advance request candles).requests.get? id =
      if id = request.requestId then some ⟨request.params, advanced request db.session candles⟩
      else db.requests.get? id := fun id => OrdMap.get?_set ..
  have hpending : Pending (db.advance request candles).requests request.requestId
      ⟨request.params, advanced request db.session candles⟩ :=
    ⟨(hget _).trans (if_pos rfl), rfl⟩
  have htimes : (db.advance request candles).session.times (k + c) =
      db.session.times k ++ candles.1.map (·.openTime) := by
    have hgrid := hpassed.times (by omega)
    rw [hcandles] at hgrid
    have hall : db.candles.map (·.openTime) = db.session.times n := hgrid
    have htake : ∀ {i}, i ≤ n → db.session.times i = (db.session.times n).take i := fun {i} hi => by
      obtain ⟨j, rfl⟩ := Nat.exists_eq_add_of_le hi
      rw [Session.times, Session.times, grid_add, List.take_left' (length_grid ..)]
    change db.session.times (k + c) = _
    rw [hslice, List.map_take, List.map_drop, hall, htake hle, htake (by omega : k ≤ n),
      List.take_add]
  refine ⟨k + c, Nat.le_add_right .., hpassed, fun id stored hs => ?_,
    .inr ⟨_, _, hpending, fun id stored hp => ?_, ?_⟩, fun id stored hs hd => ?_,
    fun hs => absurd (h.pendingFinal hs) hk, fun id stored hs he hd => ?_,
    fun hs => ⟨?_, fun hexecuted => ?_⟩, h.one⟩
  · rw [hget] at hs
    split at hs
    · obtain rfl := Option.some.inj hs
      exact Eq.symm ‹_›
    · exact h.named _ _ hs
  · have := hp.get?
    rw [hget] at this
    split at this
    · assumption
    · exact absurd hp.execution (hall.get? this)
  · -- what was executed is all that had been passed
    have hexecuted : db.executedTimes = db.session.times k := by
      rcases h.executed with ⟨-, he⟩ | ⟨_, _, hp, -⟩
      · exact he
      · exact absurd hp.execution (hall.get? hp.get?)
    have hevents : (db.advance request candles).executedTimes = db.executedTimes := by
      simp [Db.executedTimes, Db.advance, markTimes_stepEvents]
    rw [htimes, hevents, hexecuted]
    rfl
  · rw [hget] at hs
    split at hs
    · obtain rfl := Option.some.inj hs
      exact hcompleted.1 hd
    · exact absurd (h.complete _ _ hs hd) hk
  · rw [hget] at hs
    split at hs
    · obtain rfl := Option.some.inj hs
      exact absurd rfl he
    · exact absurd (h.final _ _ hs he hd).2.1 hk
  · exact hcompleted.1 (by simpa [Db.advance, advanced] using hs)
  · exact absurd hpending.execution (hexecuted.get? hpending.get?)

/-- What a response keeps of the one that it replaces. -/
structure Like (y x : StepResponse) : Prop where
  requestId : y.requestId = x.requestId
  candles : y.candles = x.candles
  completed : y.completed = x.completed
  status : y.session.status = x.session.status
  execution : y.execution = none ↔ x.execution = none

section

variable (hget : db.requests.get? x.requestId = some stored) (hlike : Like y stored.response)
  (hy : y.requestId = x.requestId)
include hget hlike hy

variable (db stored) in
omit hget hlike in
theorem get?_respond (id : String) : (db.respond stored y).requests.get? id =
    if id = x.requestId then some { stored with response := y } else db.requests.get? id :=
  (OrdMap.get?_set ..).trans (by rw [hy])

theorem like_of_respond {id : String} {stored' : StoredStep}
    (hs : (db.respond stored y).requests.get? id = some stored') :
    ∃ stored'', db.requests.get? id = some stored'' ∧
      Like stored'.response stored''.response := by
  rw [get?_respond _ _ hy] at hs
  split at hs
  · rename_i hid
    obtain rfl := Option.some.inj hs
    exact ⟨stored, hid ▸ hget, hlike⟩
  · exact ⟨stored', hs, rfl, rfl, rfl, rfl, .rfl⟩

theorem pending_of_respond {id : String} {stored' : StoredStep}
    (hp : Pending (db.respond stored y).requests id stored') :
    ∃ stored'', Pending db.requests id stored'' ∧
      stored''.response.candles = stored'.response.candles := by
  obtain ⟨stored'', hs, hl⟩ := like_of_respond hget hlike hy hp.get?
  exact ⟨stored'', ⟨hs, hl.execution.1 hp.execution⟩, hl.candles.symm⟩

theorem allExecuted_respond : AllExecuted (db.respond stored y) ↔ AllExecuted db := by
  rw [allExecuted_iff, allExecuted_iff]
  constructor
  · intro hall id stored' hs hnone
    have hget' := get?_respond db stored hy id
    by_cases hid : id = x.requestId
    · subst hid
      obtain rfl := Option.some.inj (hget.symm.trans hs)
      exact hall _ _ (hget'.trans (if_pos rfl)) (hlike.execution.2 hnone)
    · exact hall _ _ (hget'.trans ((if_neg hid).trans hs)) hnone
  · intro hall id stored' hs hnone
    obtain ⟨stored'', hp, -⟩ := pending_of_respond hget hlike hy ⟨hs, hnone⟩
    exact hall _ _ hp.get? hp.execution

end

/-- A response is replaced by one like it. -/
theorem respond (h : Ordered db n k) (hget : db.requests.get? x.requestId = some stored)
    (hlike : Like y stored.response) (hy : y.requestId = x.requestId) {events : List Event}
    (he : markTimes events = markTimes db.events) :
    Ordered { db.respond stored y with events := events } n k := by
  have hall : AllExecuted { db.respond stored y with events := events } ↔ AllExecuted db :=
    allExecuted_respond hget hlike hy
  have htimes : { db.respond stored y with events := events }.executedTimes = db.executedTimes := he
  refine ⟨h.passed.congr rfl rfl rfl rfl rfl rfl, fun id stored' hs => ?_, ?_,
    fun id stored' hs hd => ?_, h.pendingFinal, fun id stored' hs he hd => ?_, fun hs => ?_, h.one⟩
  · obtain ⟨_, hs', hl⟩ := like_of_respond hget hlike hy hs
    exact hl.requestId.trans (h.named _ _ hs')
  · rw [hall, htimes]
    refine h.executed.imp_right fun hexecuted => ?_
    obtain ⟨id, stored', hp, hone, ht⟩ := hexecuted
    -- The answer stays pending or not as it was, so the one pending request is still the only
    -- one.
    have hone' : ∀ id' stored', Pending (db.respond stored y).requests id' stored' → id' = id :=
      fun id' stored' hp' => by
        obtain ⟨_, hp'', -⟩ := pending_of_respond hget hlike hy hp'
        exact hone _ _ hp''
    have hget' := get?_respond db stored hy id
    by_cases hid : id = x.requestId
    · subst hid
      obtain rfl := Option.some.inj (hget.symm.trans hp.get?)
      exact ⟨_, { stored with response := y },
        ⟨hget'.trans (if_pos rfl), hlike.execution.2 hp.execution⟩, hone', hlike.candles ▸ ht⟩
    · exact ⟨id, stored', ⟨hget'.trans ((if_neg hid).trans hp.get?), hp.execution⟩, hone', ht⟩
  · obtain ⟨_, hs', hl⟩ := like_of_respond hget hlike hy hs
    exact h.complete _ _ hs' (hl.completed ▸ hd)
  · obtain ⟨_, hs', hl⟩ := like_of_respond hget hlike hy hs
    rw [hall]
    exact h.final _ _ hs' (fun hn => he (hl.execution.2 hn)) (hl.status ▸ hd)
  · rw [hall]
    exact h.status hs

/-- The strategy decides on what is recorded. -/
theorem strategy (h : Ordered db n k) (hx : Recorded db x)
    (he : Strategy.enrichStep ctx x db = .ok (y, db')) :
    Ordered db' n k ∧ Recorded db' y ∧ y.execution = x.execution ∧
      (Exposed db' → Exposed db) := by
  rcases hx.strategy_cases he with ⟨-, rfl, rfl⟩ | ⟨stored, decisions, -, hget, -, rfl, rfl⟩
  · exact ⟨h, hx, rfl, id⟩
  · have hlike : Like (x.strategized decisions) stored.response := by
      rw [hx.requestId hget]
      exact ⟨rfl, rfl, rfl, rfl, .rfl⟩
    refine ⟨h.respond hget hlike rfl ?_, .respond db stored _, rfl, fun hexposed => ?_⟩
    · rw [markTimes_append, markTimes_strategyEvents, List.append_nil]
    · exact ⟨fun hall => hexposed.1 ((allExecuted_respond hget hlike rfl).2 hall), hexposed.2⟩

/-- The candles of a pending request are executed. -/
theorem execution (h : Ordered db n k) (hx : Recorded db x)
    (he : Simulation.enrichStep ctx x db = .ok (y, db')) :
    Ordered db' n k ∧ Recorded db' y ∧ (AllExecuted db' ∨ x.execution ≠ none ∧ db' = db) := by
  rcases hx.execution_cases he with ⟨hexecuted, rfl, rfl⟩ |
    ⟨stored, strategy, plan, sim, totals, execution, hnone, -, hget, hexecutes, rfl, rfl⟩
  · exact ⟨h, hx, .inr ⟨hexecuted, rfl⟩⟩
  set y : StepResponse := { x with
    idempotent := stored.response.idempotent
    session := settle plan sim totals
    execution := some execution
    executionSimulated := true } with hy
  have hstored := hx.requestId hget
  -- it is the only pending one
  have hp : Pending db.requests x.requestId stored := ⟨hget, by rw [hstored]; exact hnone⟩
  have hnall : ¬ AllExecuted db := fun hall => hall.get? hget hp.execution
  obtain ⟨hone, htimes⟩ : (∀ id stored', Pending db.requests id stored' → id = x.requestId) ∧
      db.executedTimes ++ x.candles.map (·.openTime) = db.session.times k := by
    rcases h.executed with ⟨hall, -⟩ | ⟨id, stored', hp', hone, ht⟩
    · exact absurd hall hnall
    · obtain rfl := hone _ _ hp
      obtain rfl := Option.some.inj (hget.symm.trans hp'.get?)
      rw [hstored] at ht
      exact ⟨hone, ht⟩
  have hget' : ∀ id, (db.respond stored y).requests.get? id =
      if id = x.requestId then some { stored with response := y } else db.requests.get? id :=
    fun id => OrdMap.get?_set ..
  obtain ⟨config, -, hplan⟩ := hexecutes.plan_eq
  have hsession : plan.session = db.session := by rw [hplan]; rfl
  have hopen : HoldsOpen sim := (holdsOpen_kept ctx plan).run hexecutes.sim_eq
    (holdsOpen_start h.one)
  -- the session completes with its last step, and no trade is open then
  have htarget : plan.targetStatus = .completed → k = n ∧ openTrades sim.trades = [] := fun hs => by
    refine ⟨?_, ?_⟩
    · have hs' : targetStatus db.session x = .completed := by rw [hplan] at hs; exact hs
      rw [targetStatus] at hs'
      rcases hf : db.session.summary.pendingFinalStatus with _ | status
      · rw [hf, Option.getD_none] at hs'
        split at hs'
        · rename_i hc
          exact h.recorded_complete hx hc
        · cases hs'
      · rw [hf, Option.getD_some] at hs'
        exact h.pendingFinal (hs' ▸ hf)
    · rw [hopen, simulate_final x.candles_ne hs (by rw [hplan]; rfl) hexecutes.sim_eq]
      rfl
  have hmarks : markTimes (db.events ++ sim.events ++ [.executionCompleted x.requestId execution]) =
      db.session.times k := by
    rw [← htimes, markTimes_append, markTimes_append, simulate_markTimes hexecutes.sim_eq,
      show markTimes [Event.executionCompleted x.requestId execution] = [] from rfl,
      List.append_nil]
    rfl
  have hall : AllExecuted (db.respond stored y) := by
    rw [allExecuted_iff]
    intro id stored' hs hn
    rw [hget'] at hs
    split at hs
    · obtain rfl := Option.some.inj hs
      cases hn
    · rename_i hid
      exact hid (hone id stored' ⟨hs, hn⟩)
  refine ⟨⟨h.passed.congr ?_ ?_ ?_ ?_ rfl rfl, fun id stored' hs => ?_, .inl ⟨hall, ?_⟩,
    fun id stored' hs hd => ?_, nofun, fun id stored' hs he hd => ⟨hall, ?_⟩, fun hs => ?_,
    hopen.le_one⟩, .respond db stored _, .inl hall⟩
  iterate 4 · simp only [hy, settle, hsession]
  · rw [hget'] at hs
    split at hs
    · obtain rfl := Option.some.inj hs
      exact Eq.symm ‹_›
    · exact h.named _ _ hs
  · change markTimes _ = Session.times (settle plan sim totals) k
    rw [hmarks, settle, hsession]
    rfl
  · rw [hget'] at hs
    split at hs
    · obtain rfl := Option.some.inj hs
      exact h.recorded_complete hx hd
    · exact h.complete _ _ hs hd
  · rw [hget'] at hs
    split at hs
    · obtain rfl := Option.some.inj hs
      exact htarget hd
    · exact absurd (h.final _ _ hs he hd).1 hnall
  · exact ⟨(htarget hs).1, fun _ => (htarget hs).2⟩

/-- The response is finalized, where nothing is pending. -/
theorem finalize (h : Ordered db n k) (hx : Recorded db x)
    (hall : x.execution ≠ none → x.finalized = false → AllExecuted db)
    (he : finalizeExecutionResponse x db = .ok (y, db')) :
    Ordered db' n k ∧ (Exposed db' → Exposed db) := by
  rcases hx.finalize_cases he with ⟨-, rfl, rfl⟩ |
    ⟨stored, execution, hsome, hnot, hget, rfl, rfl⟩
  · exact ⟨h, id⟩
  have hstored := hx.requestId hget
  have hlike : Like (finalizedResponse x execution) stored.response := by
    rw [hstored]
    exact ⟨rfl, rfl, rfl, rfl, by simp [finalizedResponse, hsome]⟩
  have hr := h.respond hget hlike rfl (rfl : markTimes db.events = _)
  have hall' : AllExecuted (db.respond stored (finalizedResponse x execution)) :=
    (allExecuted_respond hget hlike rfl).2 (hall (hsome ▸ Option.some_ne_none execution) hnot)
  have hexecuted : stored.response.execution ≠ none := by
    rw [hstored]
    exact hsome ▸ Option.some_ne_none execution
  -- the status is the one that the execution of the request has left
  have hfinal : x.session.status = .completed → k = n ∧ openTrades db.trades = [] := fun hs =>
    (h.final _ _ hget hexecuted (by rw [hstored]; exact hs)).2
  exact ⟨⟨hr.passed.congr rfl rfl rfl rfl rfl rfl, hr.named, hr.executed, hr.complete,
    fun hs => (by cases hs), hr.final, fun hs => ⟨(hfinal hs).1, fun _ => (hfinal hs).2⟩, hr.one⟩,
    fun hexposed => absurd hall' hexposed.1⟩

/-- The session is marked. -/
theorem mark (h : Ordered db n k) (hx : x.completed = true → k = n) :
    Ordered (markRecoveryRequired x db) n k := by
  refine ⟨h.passed.congr rfl rfl rfl rfl rfl rfl, h.named, h.executed, h.complete, fun hs => ?_,
    h.final, nofun, h.one⟩
  simp only [markRecoveryRequired, Option.some_inj] at hs
  split at hs
  · exact hx ‹_›
  · cases hs

/-- The collector writes source candles. -/
theorem collect (h : Ordered db n k) {candle : Candle} {source : CandleTable}
    (hu : db.source.upsertReplayCandle candle = .ok source) :
    Ordered { db with source := source } n k :=
  ⟨h.passed.collect hu, h.named, h.executed, h.complete, h.pendingFinal, h.final, h.status, h.one⟩

/-- So does a session that starts. -/
theorem of_fresh (h : Fresh db n) : Ordered db n 0 := by
  have hget : ∀ {id stored}, db.requests.get? id ≠ some stored := by simp [h.requests]
  obtain ⟨count, hevents⟩ := h.events
  refine ⟨h.passed, fun _ _ hs => absurd hs hget,
    .inl ⟨allExecuted_iff.2 fun _ _ hs => absurd hs hget, ?_⟩, fun _ _ hs => absurd hs hget,
    fun hs => ?_, fun _ _ hs => absurd hs hget, fun hs => ?_, ?_⟩
  · rw [Db.executedTimes, hevents]
    rfl
  · rw [h.summary] at hs
    cases hs
  · rw [h.status] at hs
    cases hs
  · simp [h.trades, openTrades]

end Ordered

end IntradayBot.Replay
