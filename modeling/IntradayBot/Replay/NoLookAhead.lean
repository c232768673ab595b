import IntradayBot.Replay.Partition

/-!
# No look-ahead

A step decides on the first of its candles, and trades at it, while all the later ones are at
hand. It does not look at them: sessions over candles that agree up to some candle record the
same decisions, trades and marks of the candles up to it (`recordedUntil`). The steps after are
about later candles, and so is the rest of a step with this candle in the middle of it.

The last candle of the session is the exception, which closes the trade that is open: that it is
the last one can be told from its time.
-/

namespace IntradayBot.Replay

open Engine Simulation

variable {ctx : Decimal.Context} {db db' : Db} {n k : ℕ} {time : ℤ} {candle : Candle}
  {plan plan' : Plan} {sim sim' : Sim} {events events' events'' : List Event}
  {candles candles' later : List Candle}

/-! ## What is recorded of the candles -/

/-- The time of the candle that a decision, a trade or a mark is recorded of. -/
def Event.candleTime? : Event → Option ℤ
  | .strategyEvaluated decision | .riskCandidate decision => some decision.candleOpenTime
  | .executionSkipped _ candleOpenTime _ _ _ => some candleOpenTime
  | .tradeOpened _ trade => some trade.entryTime
  | .tradeClosed _ trade _ => trade.exitTime
  | .pnlMarked _ mark => some mark.candleOpenTime
  | .sessionCreated _ | .sessionReset | .stepStarted .. | .candleAdvanced .. | .stepCompleted ..
  | .executionStarted _ | .executionCompleted .. => none

/-- What is recorded of the candles up to a time. -/
def recordedUntil (time : ℤ) (events : List Event) : List Event :=
  events.filter fun e => e.candleTime?.any (· ≤ time)

@[simp] theorem recordedUntil_append (l₁ l₂ : List Event) :
    recordedUntil time (l₁ ++ l₂) = recordedUntil time l₁ ++ recordedUntil time l₂ :=
  List.filter_append ..

theorem recordedUntil_eq_nil (h : ∀ e ∈ events, ∀ t ∈ e.candleTime?, time < t) :
    recordedUntil time events = [] := by
  refine List.filter_eq_nil_iff.2 fun e he => ?_
  rw [Option.any_eq_true]
  rintro ⟨t, ht, hle⟩
  exact (h e he t ht).not_ge (of_decide_eq_true hle)

/-- The events grow by some that are about the candles. -/
def Grows (candles : List Candle) (events events' : List Event) : Prop :=
  ∃ added, events' = events ++ added ∧ ∀ e ∈ added, ∃ c ∈ candles, e.candleTime? = some c.openTime

namespace Grows

theorem refl (candles : List Candle) (events : List Event) : Grows candles events events :=
  ⟨[], (List.append_nil _).symm, fun _ he => absurd he List.not_mem_nil⟩

theorem trans (h₁ : Grows candles events events') (h₂ : Grows candles events' events'') :
    Grows candles events events'' := by
  obtain ⟨added₁, rfl, hadded₁⟩ := h₁
  obtain ⟨added₂, rfl, hadded₂⟩ := h₂
  refine ⟨added₁ ++ added₂, List.append_assoc .., fun e he => ?_⟩
  rcases List.mem_append.1 he with he | he
  · exact hadded₁ e he
  · exact hadded₂ e he

theorem mono (h : Grows candles events events') (hsub : candles ⊆ candles') :
    Grows candles' events events' := by
  obtain ⟨added, rfl, hadded⟩ := h
  refine ⟨added, rfl, fun e he => ?_⟩
  obtain ⟨c, hc, htime⟩ := hadded e he
  exact ⟨c, hsub hc, htime⟩

theorem single {e : Event} (h : e.candleTime? = some candle.openTime) :
    Grows [candle] events (events ++ [e]) := by
  refine ⟨[e], rfl, fun e' he => ?_⟩
  rw [List.mem_singleton.1 he]
  exact ⟨candle, List.mem_cons_self, h⟩

/-- Nothing is recorded of earlier candles. -/
theorem recordedUntil_eq (h : Grows candles events events')
    (hlater : ∀ c ∈ candles, time < c.openTime) :
    recordedUntil time events' = recordedUntil time events := by
  obtain ⟨added, rfl, hadded⟩ := h
  have hnil : recordedUntil time added = [] := by
    refine recordedUntil_eq_nil fun e he t ht => ?_
    obtain ⟨c, hc, htime⟩ := hadded e he
    obtain rfl := Option.some.inj (htime.symm.trans ht)
    exact hlater c hc
  rw [recordedUntil_append, hnil, List.append_nil]

end Grows

theorem recordedUntil_stepEvents {request : StepRequest} {x : StepResponse} (cursor : Option ℤ) :
    recordedUntil time (stepEvents request cursor x) = [] := by
  refine recordedUntil_eq_nil fun e he => ?_
  rw [stepEvents, List.mem_append, List.mem_cons, List.mem_mapIdx, List.mem_singleton] at he
  obtain (rfl | ⟨_, _, rfl⟩) | rfl := he <;> simp [Event.candleTime?]

/-- The events of a decision are about its candle. -/
theorem candleTime_strategyEvents {decision : Decision} {e : Event}
    (he : e ∈ Strategy.events decision) : e.candleTime? = some decision.candleOpenTime := by
  rw [Strategy.events, List.mem_cons] at he
  rcases he with rfl | he
  · rfl
  · obtain ⟨-, he⟩ := List.mem_ite_nil_right.1 he
    rw [List.mem_singleton.1 he]
    rfl

/-! ## The simulation of later candles -/

theorem Simulation.Leaves.grows {trade closed : Trade} {decision : ExitDecision} {exit : ExitPayload}
    (h : Leaves ctx plan candle trade decision sim exit closed sim') :
    Grows [candle] sim.events sim'.events := by
  obtain ⟨_, -, hclosed⟩ := h.closes.closed_eq
  rw [h.events]
  refine .single ?_
  rw [hclosed]
  rfl

/-- What the simulation of a candle records is about the candle. -/
theorem simulateCandle_grows (h : simulateCandle ctx plan sim candle = .ok sim') :
    Grows [candle] sim.events sim'.events := by
  obtain ⟨sim₁, sim₂, sim₃, -, h₁, h₂, h₃, h₄⟩ := simulateCandle_eq_ok h
  have hg₁ : Grows [candle] sim.events sim₁.events := by
    rcases exits_cases h₁ with rfl | ⟨_, _, _, _, -, -, hl⟩
    · exact .refl _ _
    · exact hl.grows
  have hg₂ : Grows [candle] sim₁.events sim₂.events := by
    rcases enters_cases h₂ with rfl | ⟨_, _, rfl⟩ | ⟨_, trade, he⟩
    · exact .refl _ _
    · exact .single rfl
    · obtain ⟨_, ho⟩ := openTrade_eq_ok he.opens
      rw [he.events]
      exact .single (congrArg some ho.entryTime)
  have hg₃ : Grows [candle] sim₂.events sim₃.events := by
    rcases ends_cases h₃ with ⟨rfl, -⟩ | ⟨_, _, _, -, hl⟩
    · exact .refl _ _
    · exact hl.grows
  obtain ⟨mark, hm⟩ := marks_eq_ok h₄
  rw [hm.sim]
  exact hg₁.trans (hg₂.trans (hg₃.trans (.single (congrArg some hm.time))))

theorem simulate_grows (h : candles.foldlM (simulateCandle ctx plan) sim = .ok sim') :
    Grows candles sim.events sim'.events := by
  induction candles generalizing sim with
  | nil =>
    obtain rfl := pure_eq_ok.1 h
    exact .refl _ _
  | cons candle candles ih =>
    rw [List.foldlM_cons] at h
    obtain ⟨sim₁, h₁, h⟩ := bind_eq_ok.1 h
    have hg : Grows (candle :: candles) sim.events sim₁.events :=
      (simulateCandle_grows h₁).mono (List.cons_subset_cons _ (List.nil_subset _))
    exact hg.trans ((ih h).mono (List.subset_cons_self ..))

/-! ## The simulation of the same candles -/

/-- The plans are the same for a candle. -/
structure SamePlanAt (plan plan' : Plan) (candle : Candle) : Prop where
  config : plan'.config = plan.config
  symbol : plan'.session.symbol = plan.session.symbol
  requestId : plan'.requestId = plan.requestId
  decision : plan'.decisionAt candle.openTime = plan.decisionAt candle.openTime
  final : plan'.isFinal candle = plan.isFinal candle

/-- Of its plan, the simulation of a candle only uses what is about the candle. -/
theorem simulateCandle_congr (h : SamePlanAt plan plan' candle) :
    simulateCandle ctx plan' sim candle = simulateCandle ctx plan sim candle := by
  -- The four parts read no more of the plan than what the two have in common at the candle.
  have hleave : ∀ (trade : Trade) (decision : ExitDecision) (sim : Sim),
      leave ctx plan' candle trade decision sim = leave ctx plan candle trade decision sim := by
    intro trade decision sim
    rw [leave, leave, h.config, h.requestId]
  have hopen : ∀ (decision : Decision) (balance equity : ℚ),
      openTrade ctx plan.config plan'.session decision candle balance equity plan.requestId =
        openTrade ctx plan.config plan.session decision candle balance equity plan.requestId := by
    intro decision balance equity
    simp only [openTrade, h.symbol]
  have hentry : ∀ (decision : Decision) (sim : Sim),
      entry ctx plan' candle decision sim = entry ctx plan candle decision sim := by
    intro decision sim
    rw [entry, entry, h.final, h.config, h.requestId, hopen]
  have hexits : ∀ sim : Sim, exits ctx plan' candle sim = exits ctx plan candle sim := by
    intro sim
    simp only [exits, hleave]
  have henters : ∀ sim : Sim, enters ctx plan' candle sim = enters ctx plan candle sim := by
    intro sim
    simp only [enters, h.decision, hentry, h.requestId]
  have hends : ∀ sim : Sim, ends ctx plan' candle sim = ends ctx plan candle sim := by
    intro sim
    simp only [ends, h.final, hleave]
  have hmarks : ∀ sim : Sim, marks ctx plan' candle sim = marks ctx plan candle sim := by
    intro sim
    rw [marks, marks, h.requestId]
  simp only [simulateCandle, hexits, henters, hends, hmarks]

theorem simulate_congr (h : ∀ c ∈ candles, SamePlanAt plan plan' c) :
    candles.foldlM (simulateCandle ctx plan') sim = candles.foldlM (simulateCandle ctx plan) sim := by
  induction candles generalizing sim with
  | nil => rfl
  | cons candle candles ih =>
    rw [List.foldlM_cons, List.foldlM_cons, simulateCandle_congr (h candle List.mem_cons_self)]
    exact bind_congr fun sim => ih fun c hc => h c (List.mem_cons_of_mem _ hc)

/-! ## Steps -/

namespace SameTerms

variable {s s' s'' : Session}

theorem trans (h : SameTerms s s') (h' : SameTerms s' s'') : SameTerms s s'' :=
  ⟨h'.symbol.trans h.symbol, h'.timeframe.trans h.timeframe, h'.startTime.trans h.startTime,
    h'.endTime.trans h.endTime, h'.initialBalance.trans h.initialBalance,
    h'.strategyMode.trans h.strategyMode, h'.config.trans h.config⟩

theorem symm (h : SameTerms s s') : SameTerms s' s :=
  ⟨h.symbol.symm, h.timeframe.symm, h.startTime.symm, h.endTime.symm, h.initialBalance.symm,
    h.strategyMode.symm, h.config.symm⟩

theorem timeAt_eq (h : SameTerms s s') (i : ℕ) : s'.timeAt i = s.timeAt i := by
  rw [Session.timeAt, Session.timeAt, h.startTime, h.timeframe]

end SameTerms

namespace Stepped

variable {request : StepRequest} {candles : {l : List Candle // l ≠ []}} {decisions : List Decision}
  {totals : Totals}

theorem sameTerms (h : Stepped ctx request db candles decisions plan sim totals db') :
    SameTerms db.session db'.session := by
  obtain ⟨_, -, -, hsession⟩ := h.session
  rw [hsession, h.plan_session]
  exact ⟨rfl, rfl, rfl, rfl, rfl, rfl, rfl⟩

/-- How many candles the step goes over. -/
theorem count_eq (h : Stepped ctx request db candles decisions plan sim totals db')
    (ht : Tidy db n k) {c : ℕ} (hle : k + c ≤ n) (hslice : candles.1 = (db.candles.drop k).take c) :
    c = min request.steps (n - k) := by
  obtain ⟨-, htimes, hslice'⟩ := ht.passed.slice request.one_le_steps h.advances.batch
  have hlen : db.candles.length = n := by
    rw [← List.length_map (f := (·.openTime)), htimes, Session.times, length_grid]
  have hlength := congrArg List.length (hslice.symm.trans hslice')
  simp only [List.length_take, List.length_drop, hlen] at hlength
  omega

/-- The times of the candles of the step. -/
theorem time_getElem (h : Stepped ctx request db candles decisions plan sim totals db')
    (ht : Tidy db n k) {i : ℕ} (hi : i < candles.1.length) :
    candles.1[i].openTime = db.session.timeAt (k + i) := by
  obtain ⟨-, htimes, hslice⟩ := ht.passed.slice request.one_le_steps h.advances.batch
  simp only [hslice, List.getElem_take, List.getElem_drop]
  exact getElem_of_grid htimes _

/-- What the step records of the candles up to a time, none of which is among the later ones. -/
theorem recorded (h : Stepped ctx request db candles decisions plan sim totals db')
    {first : List Candle} (hsplit : candles.1 = first ++ later)
    (hlater : ∀ c ∈ later, time < c.openTime) : ∃ decided reached,
      first.mapM (Strategy.decisionOf ctx db.ensuredSnapshot
        (advanced request db.session candles)) = .ok decided ∧
      first.foldlM (simulateCandle ctx plan) (start plan.session db.trades request.requestId) =
        .ok reached ∧
      recordedUntil time db'.events = recordedUntil time db.events ++
        recordedUntil time (decided.flatMap Strategy.events) ++ recordedUntil time reached.events ∧
      (later = [] → sim = reached) := by
  obtain ⟨decided, decided', hdecided, hdecided', rfl⟩ : ∃ decided decided',
      first.mapM (Strategy.decisionOf ctx db.ensuredSnapshot
        (advanced request db.session candles)) = .ok decided ∧
      later.mapM (Strategy.decisionOf ctx db.ensuredSnapshot
        (advanced request db.session candles)) = .ok decided' ∧
      decisions = decided ++ decided' := by
    have hd := h.decided
    rw [hsplit, List.mapM_append] at hd
    simp only [bind_eq_ok, pure_eq_ok] at hd
    obtain ⟨decided, hdecided, decided', hdecided', rfl⟩ := hd
    exact ⟨decided, decided', hdecided, hdecided', rfl⟩
  have hsim := h.sim_eq
  rw [hsplit, List.foldlM_append] at hsim
  obtain ⟨reached, hreached, hrest⟩ := bind_eq_ok.1 hsim
  refine ⟨decided, reached, hdecided, hreached, ?_, ?_⟩
  · -- the later decisions and the rest of the simulation are about later candles
    have hdlater : recordedUntil time (decided'.flatMap Strategy.events) = [] := by
      refine recordedUntil_eq_nil fun e he t ht => ?_
      obtain ⟨d, hd, he⟩ := List.mem_flatMap.1 he
      obtain ⟨c, hc, hcd⟩ := exists_of_mem_mapM hdecided' hd
      obtain rfl := Option.some.inj ((candleTime_strategyEvents he).symm.trans ht)
      rw [decisionOf_time hcd]
      exact hlater c hc
    have hslater := (simulate_grows hrest).recordedUntil_eq hlater
    obtain ⟨execution, hevents⟩ := h.events
    rw [hevents]
    simp only [recordedUntil_append, recordedUntil_stepEvents, List.flatMap_append, hdlater, hslater,
      List.append_nil]
    rw [show recordedUntil time [.executionCompleted request.requestId execution] = [] from rfl,
      List.append_nil]
  · rintro rfl
    exact (pure_eq_ok.1 hrest).symm

/-- The candles of a step up to one of the session. -/
theorem time_of_mem_take (h : Stepped ctx request db candles decisions plan sim totals db')
    (ht : Tidy db n k) {last : ℕ} (hc : candle ∈ candles.1.take (last + 1 - k)) :
    ∃ i, k ≤ i ∧ i ≤ last ∧ candle.openTime = db.session.timeAt i := by
  obtain ⟨i, hi, rfl⟩ := List.getElem_of_mem hc
  rw [List.length_take] at hi
  refine ⟨k + i, by omega, by omega, ?_⟩
  rw [List.getElem_take, h.time_getElem ht]

theorem lt_of_mem_drop (h : Stepped ctx request db candles decisions plan sim totals db')
    (ht : Tidy db n k) {last : ℕ} (hc : candle ∈ candles.1.drop (last + 1 - k)) :
    db.session.timeAt last < candle.openTime := by
  obtain ⟨i, hi, rfl⟩ := List.getElem_of_mem hc
  rw [List.getElem_drop, h.time_getElem ht]
  exact db.session.timeAt_lt (by omega)

/-- The history that is looked at for a candle. -/
theorem history_eq (h : Stepped ctx request db candles decisions plan sim totals db')
    (ht : Tidy db n k) {i : ℕ} (htime : candle.openTime = db.session.timeAt i) :
    db.ensuredSnapshot.rows.filter (·.openTime ≤ candle.openTime) = db.candles.take (i + 1) := by
  obtain ⟨-, htimes, -⟩ := ht.passed.slice request.one_le_steps h.advances.batch
  rw [htime]
  exact filter_le_grid db.session.timeframe.intervalMs_pos htimes

/-- A candle before the end of the session is not the final one of the step. -/
theorem not_isFinal (h : Stepped ctx request db candles decisions plan sim totals db')
    (ht : Tidy db n k) {i : ℕ} (htime : candle.openTime = db.session.timeAt i) (hi : i + 1 < n) :
    plan.isFinal candle = false := by
  obtain ⟨c, hc, hle, hslice, -, -, hcompleted⟩ := h.tidy ht
  obtain ⟨-, htimes, -⟩ := ht.passed.slice request.one_le_steps h.advances.batch
  obtain ⟨config, -, hplan⟩ := h.plan_eq
  have hlast : plan.lastCandleTime = db.session.timeAt (k + c - 1) := by
    rw [hplan, ← (times_of_slice candles.2 htimes hle hslice).1]
    rfl
  rw [Plan.isFinal, h.targetStatus_eq ht.pendingFinal, hlast, htime, Bool.and_eq_false_iff,
    decide_eq_false_iff_not, decide_eq_false_iff_not, Session.timeAt_inj]
  by_cases hdone : k + c = n
  · right
    omega
  · left
    rw [if_neg (mt hcompleted.1 hdone)]
    exact Status.noConfusion

end Stepped

/-! ## Two sessions -/

/-- The accounts and the trades are the same. -/
structure SameHoldings (db₁ db₂ : Db) : Prop where
  balance : db₂.session.balance = db₁.session.balance
  equity : db₂.session.equity = db₁.session.equity
  trades : db₂.trades = db₁.trades

/-- The sessions have gone over `k` candles, of which they have recorded the same up to the
    candle `last`, at `time`. -/
structure AlikeUntil (n last : ℕ) (time : ℤ) (k : ℕ) (db₁ db₂ : Db) : Prop where
  first : Tidy db₁ n k
  second : Tidy db₂ n k
  terms : SameTerms db₁.session db₂.session
  common : db₁.session.timeAt last = time
  candles : db₂.candles.take (last + 1) = db₁.candles.take (last + 1)
  requests : ∀ id, db₁.requests.get? id = none ↔ db₂.requests.get? id = none
  recorded : recordedUntil time db₂.events = recordedUntil time db₁.events
  account : k ≤ last → SameHoldings db₁ db₂

namespace AlikeUntil

variable {last : ℕ} {db₁ db₂ db₁' db₂' : Db} {request : StepRequest}
  {candles₁ candles₂ : {l : List Candle // l ≠ []}} {decisions₁ decisions₂ : List Decision}
  {plan₁ plan₂ : Plan} {sim₁ sim₂ : Sim} {totals₁ totals₂ : Totals}

/-- The decision on a candle up to the last common one. -/
theorem decisionOf_eq (h : AlikeUntil n last time k db₁ db₂)
    (h₁ : Stepped ctx request db₁ candles₁ decisions₁ plan₁ sim₁ totals₁ db₁')
    (h₂ : Stepped ctx request db₂ candles₂ decisions₂ plan₂ sim₂ totals₂ db₂')
    (hc : candle ∈ candles₁.1.take (last + 1 - k)) :
    Strategy.decisionOf ctx db₂.ensuredSnapshot (advanced request db₂.session candles₂) candle =
      Strategy.decisionOf ctx db₁.ensuredSnapshot (advanced request db₁.session candles₁)
        candle := by
  obtain ⟨i, hki, hi, htime⟩ := h₁.time_of_mem_take h.first hc
  have hhistory : db₂.ensuredSnapshot.rows.filter (·.openTime ≤ candle.openTime) =
      db₁.ensuredSnapshot.rows.filter (·.openTime ≤ candle.openTime) := by
    rw [h₁.history_eq h.first htime,
      h₂.history_eq h.second (htime.trans (h.terms.timeAt_eq i).symm)]
    have htake := congrArg (List.take (i + 1)) h.candles
    rwa [List.take_take, List.take_take, min_eq_left (by omega)] at htake
  have hequity : (advanced request db₂.session candles₂).session.equity =
      (advanced request db₁.session candles₁).session.equity :=
    (h.account (hki.trans hi)).equity
  have hmode : (advanced request db₂.session candles₂).session.strategyMode =
      (advanced request db₁.session candles₁).session.strategyMode := h.terms.strategyMode
  rw [Strategy.decisionOf, Strategy.decisionOf, hhistory, hequity, hmode]
  rfl

/-- The plans are the same for it. -/
theorem samePlanAt (h : AlikeUntil n last time k db₁ db₂) (hlast : last + 1 < n)
    (h₁ : Stepped ctx request db₁ candles₁ decisions₁ plan₁ sim₁ totals₁ db₁')
    (h₂ : Stepped ctx request db₂ candles₂ decisions₂ plan₂ sim₂ totals₂ db₂')
    (hfirst : candles₂.1.take (last + 1 - k) = candles₁.1.take (last + 1 - k))
    (hc : candle ∈ candles₁.1.take (last + 1 - k)) : SamePlanAt plan₁ plan₂ candle := by
  -- A decision is found by its time, so the times of the batch must not repeat.
  have hsorted : ∀ {db db' candles decisions plan sim totals},
      Stepped ctx request db candles decisions plan sim totals db' → Tidy db n k →
      candles.1.Pairwise fun a b => a.openTime < b.openTime := by
    intro db _ candles _ _ _ _ hs ht
    obtain ⟨-, -, hslice⟩ := ht.passed.slice request.one_le_steps hs.advances.batch
    rw [hslice]
    exact db.ensuredSnapshot.sorted.sublist ((List.take_sublist ..).trans (List.drop_sublist ..))
  obtain ⟨i, -, hi, htime⟩ := h₁.time_of_mem_take h.first hc
  obtain ⟨d₁, hat₁, hd₁⟩ := h₁.decisionAt (hsorted h₁ h.first) (List.mem_of_mem_take hc)
  obtain ⟨d₂, hat₂, hd₂⟩ := h₂.decisionAt (hsorted h₂ h.second)
    (List.mem_of_mem_take (by rw [hfirst]; exact hc))
  rw [h.decisionOf_eq h₁ h₂ hc, hd₁] at hd₂
  obtain rfl := Except.ok.inj hd₂
  obtain ⟨config₁, hconfig₁, hplan₁⟩ := h₁.plan_eq
  obtain ⟨config₂, hconfig₂, hplan₂⟩ := h₂.plan_eq
  rw [h.terms.config, hconfig₁] at hconfig₂
  obtain rfl := Except.ok.inj hconfig₂
  refine ⟨by rw [hplan₁, hplan₂]; rfl, ?_, by rw [hplan₁, hplan₂]; rfl, hat₂.trans hat₁.symm, ?_⟩
  · rw [h₁.plan_session, h₂.plan_session]
    exact h.terms.symbol
  · rw [h₁.not_isFinal h.first htime (by omega),
      h₂.not_isFinal h.second (htime.trans (h.terms.timeAt_eq i).symm) (by omega)]

/-- A step of both sessions, over candles of which the ones up to the last common one are the
    same. -/
theorem step (h : AlikeUntil n last time k db₁ db₂) (hlast : last + 1 < n)
    (h₁ : Stepped ctx request db₁ candles₁ decisions₁ plan₁ sim₁ totals₁ db₁')
    (h₂ : Stepped ctx request db₂ candles₂ decisions₂ plan₂ sim₂ totals₂ db₂') :
    ∃ k', AlikeUntil n last time k' db₁' db₂' := by
  obtain ⟨c, hc, hle, hslice₁, hcandles₁, ht₁, -⟩ := h₁.tidy h.first
  obtain ⟨c', -, hle', hslice₂, hcandles₂, ht₂, -⟩ := h₂.tidy h.second
  obtain rfl : c' = c :=
    (h₂.count_eq h.second hle' hslice₂).trans (h₁.count_eq h.first hle hslice₁).symm
  have hfirst : candles₂.1.take (last + 1 - k) = candles₁.1.take (last + 1 - k) := by
    have hswap : ∀ l : List Candle, ((l.drop k).take c').take (last + 1 - k) =
        ((l.take (last + 1)).drop k).take c' := by
      intro l
      rw [List.take_take, List.drop_take, List.take_take, min_comm]
    rw [hslice₁, hslice₂, hswap, hswap, h.candles]
  have htime₂ : db₂.session.timeAt last = time := (h.terms.timeAt_eq last).trans h.common
  obtain ⟨decided₁, reached₁, hdecided₁, hreached₁, hrecorded₁, hwhole₁⟩ :=
    h₁.recorded (List.take_append_drop (last + 1 - k) _).symm
      fun x hx => h.common ▸ h₁.lt_of_mem_drop h.first hx
  obtain ⟨decided₂, reached₂, hdecided₂, hreached₂, hrecorded₂, hwhole₂⟩ :=
    h₂.recorded (List.take_append_drop (last + 1 - k) _).symm
      fun x hx => htime₂ ▸ h₂.lt_of_mem_drop h.second hx
  -- the decisions on them are the same, and what the simulation makes of them
  have hdecided : decided₂ = decided₁ := by
    refine Except.ok.inj (hdecided₂.symm.trans (Eq.trans ?_ hdecided₁))
    rw [hfirst]
    exact mapM_congr fun x hx => h.decisionOf_eq h₁ h₂ hx
  have hreached : (k ≤ last → reached₂ = reached₁) ∧
      recordedUntil time reached₂.events = recordedUntil time reached₁.events := by
    by_cases hk : k ≤ last
    · have hstart : start plan₂.session db₂.trades request.requestId =
          start plan₁.session db₁.trades request.requestId := by
        obtain ⟨hbalance, hequity, htrades⟩ := h.account hk
        have hb : (advanced request db₂.session candles₂).session.balance =
            (advanced request db₁.session candles₁).session.balance := hbalance
        have he : (advanced request db₂.session candles₂).session.equity =
            (advanced request db₁.session candles₁).session.equity := hequity
        rw [start, start, h₁.plan_session, h₂.plan_session, htrades, hb, he]
      rw [hfirst, hstart, simulate_congr fun x hx => h.samePlanAt hlast h₁ h₂ hfirst hx] at hreached₂
      obtain rfl := Except.ok.inj (hreached₂.symm.trans hreached₁)
      exact ⟨fun _ => rfl, rfl⟩
    · -- all candles of the step are later ones
      rw [show last + 1 - k = 0 by omega, List.take_zero] at hreached₁ hreached₂
      rw [← pure_eq_ok.1 hreached₁, ← pure_eq_ok.1 hreached₂]
      exact ⟨fun h => absurd h hk, rfl⟩
  obtain ⟨stored₁, -, -, hrequests₁⟩ := h₁.requests
  obtain ⟨stored₂, -, -, hrequests₂⟩ := h₂.requests
  refine ⟨k + c', ht₁, ht₂, (h₁.sameTerms.symm.trans h.terms).trans h₂.sameTerms, ?_, ?_,
    fun id => ?_, ?_, fun hk => ?_⟩
  · rw [h₁.sameTerms.timeAt_eq, h.common]
  · rw [hcandles₁, hcandles₂, h.candles]
  · rw [hrequests₁, hrequests₂]
    split
    · simp
    · exact h.requests id
  · rw [hrecorded₁, hrecorded₂, hdecided, hreached.2, h.recorded]
  · -- the step ends before the last common candle, so that it goes over common ones only
    have hnil₁ : candles₁.1.drop (last + 1 - k) = [] := by
      rw [hslice₁, List.drop_eq_nil_iff, List.length_take]
      omega
    have hnil₂ : candles₂.1.drop (last + 1 - k) = [] := by
      rw [hslice₂, List.drop_eq_nil_iff, List.length_take]
      omega
    have hsim : sim₂ = sim₁ := by
      rw [hwhole₁ hnil₁, hwhole₂ hnil₂, hreached.1 (by omega)]
    obtain ⟨_, -, -, hsession₁⟩ := h₁.session
    obtain ⟨_, -, -, hsession₂⟩ := h₂.session
    refine ⟨?_, ?_, ?_⟩
    · rw [hsession₁, hsession₂, hsim]
    · rw [hsession₁, hsession₂, hsim]
    · rw [h₁.trades, h₂.trades, hsim]

/-- The same requests, of both sessions. -/
theorem stepAll (h : AlikeUntil n last time k db₁ db₂) (hlast : last + 1 < n)
    {requests : List StepRequest} (h₁ : stepAll ctx requests db₁ = .ok db₁')
    (h₂ : Engine.stepAll ctx requests db₂ = .ok db₂') : ∃ k', AlikeUntil n last time k' db₁' db₂' := by
  induction requests generalizing db₁ db₂ k with
  | nil =>
    obtain rfl := pure_eq_ok.1 h₁
    obtain rfl := pure_eq_ok.1 h₂
    exact ⟨k, h⟩
  | cons request requests ih =>
    rw [Engine.stepAll, List.foldlM_cons] at h₁ h₂
    obtain ⟨db₁₁, hstep₁, hrest₁⟩ := bind_eq_ok.1 h₁
    obtain ⟨db₂₁, hstep₂, hrest₂⟩ := bind_eq_ok.1 h₂
    obtain ⟨⟨y₁, _⟩, honce₁, rfl⟩ := map_eq_ok.1 hstep₁
    obtain ⟨⟨y₂, _⟩, honce₂, rfl⟩ := map_eq_ok.1 hstep₂
    by_cases hnew : db₁.requests.get? request.requestId = none
    · obtain ⟨_, _, _, _, _, hs₁⟩ := stepOnce_new hnew honce₁
      obtain ⟨_, _, _, _, _, hs₂⟩ := stepOnce_new ((h.requests _).1 hnew) honce₂
      obtain ⟨k', h'⟩ := h.step hlast hs₁ hs₂
      exact ih h' hrest₁ hrest₂
    · -- a request that is repeated changes neither
      obtain rfl | ⟨_, _, _, _, _, hs⟩ := stepOnce_cases h.first.staged h.first.finalized honce₁
      · obtain rfl | ⟨_, _, _, _, _, hs⟩ := stepOnce_cases h.second.staged h.second.finalized honce₂
        · exact ih h hrest₁ hrest₂
        · exact absurd ((h.requests _).2 hs.advances.fresh) hnew
      · exact absurd hs.advances.fresh hnew

end AlikeUntil

/-- Sessions that start on the same terms, over candles of which the ones up to `last` are the
    same. -/
theorem Fresh.alikeUntil {last : ℕ} {db₁ db₂ : Db} (h₁ : Fresh db₁ n) (h₂ : Fresh db₂ n)
    (hterms : SameTerms db₁.session db₂.session)
    (hcandles : db₂.candles.take (last + 1) = db₁.candles.take (last + 1)) :
    AlikeUntil n last (db₁.session.timeAt last) 0 db₁ db₂ := by
  refine ⟨h₁.tidy, h₂.tidy, hterms, rfl, hcandles, fun id => ?_, ?_, fun _ => ⟨?_, ?_, ?_⟩⟩
  · rw [h₁.requests, h₂.requests]
  · obtain ⟨_, hevents₁⟩ := h₁.events
    obtain ⟨_, hevents₂⟩ := h₂.events
    rw [hevents₁, hevents₂]
    rfl
  · rw [h₁.balance, h₂.balance, hterms.initialBalance]
  · rw [h₁.equity, h₂.equity, hterms.initialBalance]
  · rw [h₁.trades, h₂.trades]

/-- What sessions record of their candles up to one before the last does not depend on the later
    ones. -/
theorem stepAll_no_look_ahead {last : ℕ} {db₁ db₂ db₁' db₂' : Db} {requests : List StepRequest}
    (h₁ : Fresh db₁ n) (h₂ : Fresh db₂ n) (hterms : SameTerms db₁.session db₂.session)
    (hlast : last + 1 < n) (hcandles : db₂.candles.take (last + 1) = db₁.candles.take (last + 1))
    (hsteps₁ : stepAll ctx requests db₁ = .ok db₁') (hsteps₂ : stepAll ctx requests db₂ = .ok db₂') :
    recordedUntil (db₁.session.timeAt last) db₂'.events =
      recordedUntil (db₁.session.timeAt last) db₁'.events := by
  obtain ⟨_, h⟩ := (h₁.alikeUntil h₂ hterms hcandles).stepAll hlast hsteps₁ hsteps₂
  exact h.recorded

/-- Sessions that are started by the same request have the same terms, whatever the candles. -/
theorem startSession_sameTerms {request : StartRequest} {now : ℤ} {source₁ source₂ : CandleTable}
    {db₁ db₂ : Db} (sessionId : String) (h₁ : startSession request now source₁ = .ok db₁)
    (h₂ : startSession { request with sessionId := sessionId } now source₂ = .ok db₂) :
    SameTerms db₁.session db₂.session := by
  simp only [startSession, bind_eq_ok, pure_eq_ok, require_eq_ok] at h₁ h₂
  obtain ⟨amount₁, hamount₁, range₁, hrange₁, balance₁, hbalance₁, -, -, -, -, rfl⟩ := h₁
  obtain ⟨amount₂, hamount₂, range₂, hrange₂, balance₂, hbalance₂, -, -, -, -, rfl⟩ := h₂
  obtain rfl := Except.ok.inj (hamount₁.symm.trans hamount₂)
  obtain rfl := Except.ok.inj (hrange₁.symm.trans hrange₂)
  obtain rfl := Except.ok.inj (hbalance₁.symm.trans hbalance₂)
  exact ⟨rfl, rfl, rfl, rfl, rfl, rfl, rfl⟩

/-- Three candles, of which the last one is not flat. -/
def spikedCandles : CandleTable where
  rows := [flatCandle 0, flatCandle 1, { flatCandle 2 with highPrice := 150, closePrice := 140 }]
  sorted := by simp [flatCandle]

/-- The session over them. -/
def spikedStart : Except ReplayError Db :=
  startSession
    { sessionId := "spiked"
      symbol := "BTCUSDT"
      timeframe := .m5
      requestedStart := 1700000100000
      requestedEnd := 1700000700000
      initialBalance := some (.num 1000)
      strategyMode := .balanced
      config := .obj [] }
    1800000000000 spikedCandles

/-- All three candles in a step: of the first two, both sessions record two decisions and two
    marks. -/
theorem stepAll_no_look_ahead_spiked : ∃ db₁ db₂ db₁' db₂', flatStart = .ok db₁ ∧
    spikedStart = .ok db₂ ∧
    stepAll .default [⟨"c", 3, none, by decide, by decide⟩] db₁ = .ok db₁' ∧
    stepAll .default [⟨"c", 3, none, by decide, by decide⟩] db₂ = .ok db₂' ∧
    (recordedUntil (db₁.session.timeAt 1) db₁'.events).length = 4 ∧
    recordedUntil (db₁.session.timeAt 1) db₂'.events =
      recordedUntil (db₁.session.timeAt 1) db₁'.events := by
  -- The two sessions share their first two candles and are run over all three.
  have h : flatStart.toOption.any fun db₁ => spikedStart.toOption.any fun db₂ =>
      (stepAll .default [⟨"c", 3, none, by decide, by decide⟩] db₁).toOption.any fun db₁' =>
      (stepAll .default [⟨"c", 3, none, by decide, by decide⟩] db₂).toOption.any fun _ =>
        decide ((recordedUntil (db₁.session.timeAt 1) db₁'.events).length = 4 ∧
          db₁.session.span db₁.session.startTime db₁.session.endTime = 3 ∧
          db₂.candles.take 2 = db₁.candles.take 2) := by
    decide +kernel
  obtain ⟨db₁, hdb₁, h⟩ := any_toOption.1 h
  obtain ⟨db₂, hdb₂, h⟩ := any_toOption.1 h
  obtain ⟨db₁', h₁, h⟩ := any_toOption.1 h
  obtain ⟨db₂', h₂, h⟩ := any_toOption.1 h
  obtain ⟨hlen, hspan, hcandles⟩ := of_decide_eq_true h
  have hterms : SameTerms db₁.session db₂.session :=
    startSession_sameTerms "spiked" hdb₁ hdb₂
  obtain ⟨n, hfresh₁⟩ := startSession_fresh hdb₁
  obtain ⟨m, hfresh₂⟩ := startSession_fresh hdb₂
  have hn : (n : ℤ) = 3 := hfresh₁.passed.span.symm.trans hspan
  have hm : (m : ℤ) = 3 := by
    rw [← hfresh₂.passed.span, Session.span, hterms.startTime, hterms.endTime, hterms.timeframe]
    exact hspan
  obtain rfl : m = n := by omega
  exact ⟨db₁, db₂, db₁', db₂', hdb₁, hdb₂, h₁, h₂, hlen,
    stepAll_no_look_ahead hfresh₁ hfresh₂ hterms (by omega) hcandles h₁ h₂⟩

end IntradayBot.Replay
