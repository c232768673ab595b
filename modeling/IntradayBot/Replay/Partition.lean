import IntradayBot.Replay.Steps

/-!
# Steps of any size

Between two steps, the state of a simulation is in the database. Inside of a step, it is in
`Sim`. A session that is replayed candle by candle (`replayCandle`) does the same as one whose
candles are simulated in the steps of its requests: so does then any other one, whatever the
sizes of its steps.

What differs are the requests that the trades name (`Trade.anonymous`), and the amounts that the
strategy plans with the account at the start of the step (`Decision.outline`): the execution
computes its own.
-/

namespace IntradayBot.Replay

open Engine Simulation

variable {ctx : Decimal.Context} {db db' : Db} {n k : ℕ} {candle : Candle} {plan ref : Plan}
  {sim sim' : Sim} {trades : List Trade} {trade : Trade} {marked : List Mark}

/-- The trade, without the request that opened it. -/
def Trade.anonymous (t : Trade) : Trade :=
  { t with payload := { t.payload with entryRequestId := "" } }

/-- The entry, without the request that made it. -/
def Simulation.Entry.anonymous : Entry → Entry
  | .opened trade => .opened trade.anonymous
  | .skipped reason => .skipped reason

/-- The plan, without the amounts that depend on the account. -/
def RiskPlan.outline (r : RiskPlan) : RiskPlan := { r with riskAmount := 0, quantity := 0 }

/-- The decision, without the amounts that depend on the account, and without its request. -/
def Decision.outline (d : Decision) : Decision :=
  { d with risk := d.risk.map RiskPlan.outline, requestId := "" }

/-- The sessions are started in the same way. -/
structure SameTerms (s s' : Session) : Prop where
  symbol : s'.symbol = s.symbol
  timeframe : s'.timeframe = s.timeframe
  startTime : s'.startTime = s.startTime
  endTime : s'.endTime = s.endTime
  initialBalance : s'.initialBalance = s.initialBalance
  strategyMode : s'.strategyMode = s.strategyMode
  config : s'.config = s.config

/-! ## Candles on their own -/

/-- The decision on a candle, for no account. -/
def verdict (ctx : Decimal.Context) (session : Session) (candles : List Candle)
    (candle : Candle) : Except ReplayError Decision := do
  let evaluation ← Strategy.evaluate ctx (candles.filter (·.openTime ≤ candle.openTime)) 0
  return {
    toEvaluation := evaluation
    candleOpenTime := candle.openTime
    strategyMode := session.strategyMode
    requestId := "" }

/-- What the simulation of a single candle runs with. -/
def soloPlan (config : Config) (session : Session) (candle : Candle) (decision : Decision) :
    Plan where
  config := config
  session := session
  requestId := ""
  decisions := [decision]
  targetStatus := if candle.openTime = session.endTime then .completed else .paused
  lastCandleTime := candle.openTime

/-- A candle of a session, on its own. -/
def replayCandle (ctx : Decimal.Context) (config : Config) (session : Session)
    (candles : List Candle) (sim : Sim) (candle : Candle) : Except ReplayError Sim := do
  let decision ← verdict ctx session candles candle
  simulateCandle ctx (soloPlan config session candle decision) sim candle

/-! ## The simulation of a candle -/

/-- The simulations are in the same state, of which one has all marks. -/
structure SameSim (marked : List Mark) (sim sim' : Sim) : Prop where
  balance : sim'.balance = sim.balance
  equity : sim'.equity = sim.equity
  open_ : sim'.open_ = sim.open_.map Trade.anonymous
  trades : sim'.trades = sim.trades.map Trade.anonymous
  marks : sim'.marks = marked ++ sim.marks

/-- The plans say the same of a candle. -/
structure SamePlan (plan plan' : Plan) (candle : Candle) : Prop where
  config : plan'.config = plan.config
  symbol : plan'.session.symbol = plan.session.symbol
  requestId : plan'.requestId = ""
  decision : plan'.decisionAt candle.openTime =
    (plan.decisionAt candle.openTime).map Decision.outline
  final : plan'.isFinal candle = plan.isFinal candle

theorem closeTrade_anonymous (decision : ExitDecision) (feeBps balance : ℚ) :
    Agree (fun p p' => p' = (p.1.anonymous, p.2))
      (closeTrade ctx trade candle decision feeBps balance)
      (closeTrade ctx trade.anonymous candle decision feeBps balance) := by
  -- both compute the same amounts, one after the other
  refine .bind_self fun _ => .bind_self fun _ => .bind_self fun _ => .bind_self fun _ => ?_
  refine .bind_self fun _ => .bind_self fun _ => .bind_self fun _ => .bind_self fun _ => ?_
  exact .bind_self fun _ => .bind_self fun _ => .bind_self fun _ => rfl

theorem updateOpenTrade_anonymous :
    Agree (fun l l' => l' = l.map Trade.anonymous) (updateOpenTrade trades trade)
      (updateOpenTrade (trades.map Trade.anonymous) trade.anonymous) := by
  have hany : (trades.map Trade.anonymous).any
        (fun t => t.entryTime = trade.anonymous.entryTime ∧ t.status = .opened) =
      trades.any fun t => t.entryTime = trade.entryTime ∧ t.status = .opened := by
    rw [List.any_map]
    rfl
  rw [updateOpenTrade, updateOpenTrade, hany]
  refine .ite (fun _ => ?_) fun _ => rfl
  change List.map _ (List.map _ _) = List.map _ (List.map _ _)
  rw [List.map_map, List.map_map]
  refine List.map_congr_left fun t _ => ?_
  change ite (t.entryTime = trade.entryTime ∧ t.status = .opened) _ _ = Trade.anonymous (ite _ _ _)
  split <;> rfl

theorem insertTrade_anonymous :
    Agree (fun l l' => l' = l.map Trade.anonymous) (insertTrade trades trade)
      (insertTrade (trades.map Trade.anonymous) trade.anonymous) := by
  have hany : (trades.map Trade.anonymous).any
        (fun t => t.entryTime = trade.anonymous.entryTime) =
      trades.any fun t => t.entryTime = trade.entryTime := by
    rw [List.any_map]
    rfl
  rw [insertTrade, insertTrade, hany]
  refine .ite (fun _ => rfl) fun _ => ?_
  change _ = List.map _ (_ ++ _)
  rw [List.map_append]
  rfl

theorem leave_same (hp : SamePlan plan ref candle) (hs : SameSim marked sim sim')
    (decision : ExitDecision) :
    Agree (SameSim marked) (leave ctx plan candle trade decision sim)
      (leave ctx ref candle trade.anonymous decision sim') := by
  rw [leave, leave, hp.config, hs.balance, hs.trades]
  refine (closeTrade_anonymous decision _ _).bind fun p _ hc => ?_
  obtain ⟨closed, delta, exitFee⟩ := p
  subst hc
  refine updateOpenTrade_anonymous.bind fun trades _ ht => ?_
  subst ht
  refine .bind_self fun balance => .bind_self fun _ => ?_
  exact ⟨rfl, rfl, rfl, rfl, hs.marks⟩

theorem exits_same (hp : SamePlan plan ref candle) (hs : SameSim marked sim sim') :
    Agree (SameSim marked) (exits ctx plan candle sim) (exits ctx ref candle sim') := by
  rw [exits, exits, hs.open_]
  rcases sim.open_ with _ | trade
  · exact hs
  · refine .bind_self fun decision => ?_
    rcases decision with _ | decision
    · exact hs
    · exact leave_same hp hs decision

theorem openTrade_same (config : Config) {session session' : Session}
    (hsymbol : session'.symbol = session.symbol) (decision : Decision) (balance equity : ℚ)
    (requestId : String) :
    Agree (fun e e' => e' = e.anonymous)
      (openTrade ctx config session decision candle balance equity requestId)
      (openTrade ctx config session' decision.outline candle balance equity "") := by
  rw [openTrade, openTrade, hsymbol]
  have hrisk : decision.outline.risk = decision.risk.map RiskPlan.outline := rfl
  rw [hrisk]
  rcases decision.risk with _ | risk
  · exact rfl
  refine .ite (fun _ => rfl) fun _ => ?_
  have hside : sideOf decision.outline.signal = sideOf decision.signal := rfl
  rw [hside]
  rcases sideOf decision.signal with _ | side
  · exact rfl
  refine .bind_self fun entry => .bind_self fun stop => .bind_self fun target => ?_
  refine .ite (fun _ => rfl) fun _ => ?_
  refine .bind_self fun _ => .bind_self fun _ => .bind_self fun _ => .bind_self fun _ => ?_
  refine .ite (fun _ => rfl) fun _ => .bind_self fun fee => .ite (fun _ => rfl) fun _ => ?_
  exact .bind_self fun _ => .bind_self fun _ => .bind_self fun _ => .bind_self fun _ => rfl

theorem enters_same (hp : SamePlan plan ref candle) (hs : SameSim marked sim sim') :
    Agree (SameSim marked) (enters ctx plan candle sim) (enters ctx ref candle sim') := by
  -- Eligibility does not depend on the amounts that the outline leaves out.
  have heligible : (ref.decisionAt candle.openTime).filter (·.eligible) =
      ((plan.decisionAt candle.openTime).filter (·.eligible)).map Decision.outline := by
    rw [hp.decision]
    rcases plan.decisionAt candle.openTime with _ | decision
    · rfl
    · change Option.filter _ (some decision.outline) = _
      rcases he : decision.eligible with _ | _ <;> simp [Option.filter, he, Decision.outline]
  rw [enters, enters, heligible]
  rcases hd : (plan.decisionAt candle.openTime).filter (·.eligible) with _ | decision <;> rw [hd]
  · exact hs
  have hentry : Agree (fun e e' => e' = e.anonymous) (entry ctx plan candle decision sim)
      (entry ctx ref candle decision.outline sim') := by
    rw [entry, entry, hs.open_, hp.final, hs.equity, hs.balance, hp.config, hp.requestId,
      Option.isSome_map]
    refine .ite (fun _ => rfl) fun _ => .ite (fun _ => rfl) fun _ => .ite (fun _ => rfl) fun _ => ?_
    exact openTrade_same _ hp.symbol decision _ _ _
  refine hentry.bind fun entry _ he => ?_
  subst he
  rcases entry with trade | reason
  · rw [hs.balance, hs.trades]
    refine insertTrade_anonymous.bind fun trades _ ht => ?_
    subst ht
    exact .bind_self fun balance => ⟨rfl, hs.equity, rfl, rfl, hs.marks⟩
  · exact ⟨hs.balance, hs.equity, hs.open_, hs.trades, hs.marks⟩

theorem ends_same (hp : SamePlan plan ref candle) (hs : SameSim marked sim sim') :
    Agree (SameSim marked) (ends ctx plan candle sim) (ends ctx ref candle sim') := by
  rw [ends, ends, hs.open_, hp.final]
  rcases sim.open_ with _ | trade
  · exact hs
  · exact .ite (fun _ => leave_same hp hs _) fun _ => hs

theorem marks_same (hs : SameSim marked sim sim') :
    Agree (SameSim marked) (marks ctx plan candle sim) (marks ctx ref candle sim') := by
  have hequity : markedEquity ctx sim'.balance sim'.open_ candle.closePrice =
      markedEquity ctx sim.balance sim.open_ candle.closePrice := by
    rw [hs.balance, hs.open_]
    rcases sim.open_ with _ | trade <;> rfl
  rw [marks, marks, hequity]
  refine .bind_self fun p => ?_
  obtain ⟨equity, unrealized⟩ := p
  refine ⟨hs.balance, rfl, hs.open_, hs.trades, ?_⟩
  dsimp only
  rw [hs.marks, hs.balance, hs.open_, Option.map_map, List.append_assoc]
  rfl

/-- A candle does the same in both simulations. -/
theorem simulateCandle_same (hp : SamePlan plan ref candle) (hs : SameSim marked sim sim') :
    Agree (SameSim marked) (simulateCandle ctx plan sim candle)
      (simulateCandle ctx ref sim' candle) := by
  refine .bind_self fun _ => (exits_same hp hs).bind fun _ _ hs => ?_
  exact (enters_same hp hs).bind fun _ _ hs => (ends_same hp hs).bind fun _ _ hs => marks_same hs

/-! ## Decisions -/

theorem quantizeMoney_zero : quantizeMoney ctx 0 = .ok 0 := by
  rw [quantizeMoney_eq_ok, Decimal.Context.quantize_eq_some]
  refine ⟨fun digits _ => ?_, ?_⟩
  · simp [Decimal.truncate]
  · simp [Decimal.truncate]

/-- The plan of a decision for no account is the outline of the one for any account. -/
theorem riskPlan_outline {signal : Signal} {riskPct close atr equity : ℚ} {risk : RiskPlan}
    (h : Strategy.riskPlan ctx signal riskPct close atr equity = .ok risk) :
    Strategy.riskPlan ctx signal riskPct close atr 0 = .ok risk.outline := by
  have hzero : ∀ q : ℚ, ctx.div 0 q = 0 := fun q => by
    rw [Decimal.Context.div, zero_div, Decimal.Context.fit_zero]
  have hmul : ctx.mul 0 riskPct = 0 := by
    rw [Decimal.Context.mul, zero_mul, Decimal.Context.fit_zero]
  simp only [Strategy.riskPlan, bind_eq_ok, pure_eq_ok] at h ⊢
  obtain ⟨amount, -, quantity, -, rfl⟩ := h
  refine ⟨0, by rw [hmul, hzero]; exact quantizeMoney_zero, 0, ?_, rfl⟩
  rw [hzero]
  exact quantizeMoney_zero

theorem decisionOf_time {table : CandleTable} {x : StepResponse} {d : Decision}
    (h : Strategy.decisionOf ctx table x candle = .ok d) : d.candleOpenTime = candle.openTime := by
  simp only [Strategy.decisionOf, bind_eq_ok, pure_eq_ok] at h
  obtain ⟨_, -, rfl⟩ := h
  rfl

theorem verdict_eq_ok {session : Session} {table : CandleTable} {x : StepResponse} {d : Decision}
    (hmode : x.session.strategyMode = session.strategyMode)
    (h : Strategy.decisionOf ctx table x candle = .ok d) :
    verdict ctx session table.rows candle = .ok d.outline := by
  simp only [Strategy.decisionOf, bind_eq_ok, pure_eq_ok] at h
  obtain ⟨evaluation, heval, rfl⟩ := h
  simp only [verdict, bind_eq_ok, pure_eq_ok]
  refine ⟨{ evaluation with risk := evaluation.risk.map RiskPlan.outline }, ?_, by
    rw [← hmode]; rfl⟩
  rw [Strategy.evaluate] at heval ⊢
  -- Too few candles, a grade with a risk plan, or one without.
  split at heval
  · rename_i hlen
    rw [if_pos hlen]
    obtain rfl := pure_eq_ok.1 heval
    rfl
  · rename_i hlen
    rw [if_neg hlen]
    dsimp only at heval ⊢
    split at heval
    · rename_i riskPct hpct
      simp only [bind_eq_ok, map_eq_ok, pure_eq_ok] at heval
      obtain ⟨_, ⟨risk, hrisk, rfl⟩, rfl⟩ := heval
      simp only [hpct, bind_eq_ok, map_eq_ok, pure_eq_ok]
      exact ⟨_, ⟨_, riskPlan_outline hrisk, rfl⟩, rfl⟩
    · rename_i hpct
      obtain rfl := pure_eq_ok.1 heval
      simp only [hpct]
      rfl

namespace Stepped

variable {request : StepRequest} {candles : {l : List Candle // l ≠ []}} {decisions : List Decision}
  {totals : Totals} {config : Config} {session : Session}

/-- The decision on a candle of the step. -/
theorem decisionAt (h : Stepped ctx request db candles decisions plan sim totals db')
    (hsorted : candles.1.Pairwise fun a b => a.openTime < b.openTime)
    (hc : candle ∈ candles.1) : ∃ d, plan.decisionAt candle.openTime = some d ∧
      Strategy.decisionOf ctx db.ensuredSnapshot (advanced request db.session candles) candle =
        .ok d := by
  obtain ⟨_, -, hplan⟩ := h.plan_eq
  obtain ⟨d, hd, hdecided⟩ := exists_of_mapM h.decided hc
  refine ⟨d, ?_, hdecided⟩
  have htimes : candles.1.map (·.openTime) = decisions.map (·.candleOpenTime) := by
    rw [← List.forall₂_eq_eq_eq, List.forall₂_map_left_iff, List.forall₂_map_right_iff]
    exact (mapM_eq_ok.1 h.decided).imp fun a b hab => (decisionOf_time hab).symm
  have hnodup : (decisions.reverse.map (·.candleOpenTime)).Nodup := by
    rw [List.map_reverse, List.nodup_reverse, ← htimes]
    exact (List.pairwise_map.2 hsorted).imp ne_of_lt
  rw [hplan]
  exact (find?_key_eq_some hnodup).2 ⟨List.mem_reverse.2 hd, decisionOf_time hdecided⟩

/-- The plan of a step says the same of a candle as the one of the candle alone. -/
theorem samePlan (h : Stepped ctx request db candles decisions plan sim totals db')
    (ht : Tidy db n k) (hconfig : executionConfig db.session.config = .ok config)
    (hsession : SameTerms db.session session) {c : ℕ} (hle : k + c ≤ n)
    (hslice : candles.1 = (db.candles.drop k).take c)
    (hcompleted : (advanced request db.session candles).completed = true ↔ k + c = n)
    (hmem : candle ∈ candles.1) :
    ∃ d, verdict ctx session db.candles candle = .ok d ∧
      SamePlan plan (soloPlan config session candle d) candle := by
  obtain ⟨-, htimes, -⟩ := ht.passed.slice request.one_le_steps h.advances.batch
  have hsorted : candles.1.Pairwise fun a b => a.openTime < b.openTime :=
    hslice ▸ db.ensuredSnapshot.sorted.sublist ((List.take_sublist ..).trans (List.drop_sublist ..))
  obtain ⟨d, hat, hdecided⟩ := h.decisionAt hsorted hmem
  obtain ⟨config', hconfig', hplan⟩ := h.plan_eq
  obtain rfl := Except.ok.inj (hconfig.symm.trans hconfig')
  have hmode : (advanced request db.session candles).session.strategyMode = session.strategyMode :=
    hsession.strategyMode.symm
  refine ⟨d.outline, verdict_eq_ok hmode hdecided, ⟨by rw [hplan]; rfl, ?_, rfl, ?_, ?_⟩⟩
  · rw [h.plan_session]
    exact hsession.symbol
  · rw [hat]
    change List.find? _ [d.outline] = _
    rw [List.find?_cons_of_pos]
    · rfl
    · have htime : d.candleOpenTime = candle.openTime := decisionOf_time hdecided
      exact decide_eq_true htime
  · -- the candle is the final one if it is at the end of the session
    obtain ⟨hlast, htime⟩ := times_of_slice candles.2 htimes hle hslice
    obtain ⟨i, -, hi, htime⟩ := htime candle hmem
    have hlastTime : plan.lastCandleTime = db.session.timeAt (k + c - 1) := by
      rw [hplan, ← hlast]
      rfl
    have hend : session.endTime = db.session.timeAt (n - 1) := by
      rw [← ht.passed.last, hsession.endTime]
    have hsolo : (soloPlan config session candle d.outline).isFinal candle =
        decide (candle.openTime = session.endTime) := by
      rw [Plan.isFinal, soloPlan]
      dsimp only
      split <;> rename_i hend <;> simp [hend]
    rw [hsolo, Plan.isFinal, h.targetStatus_eq ht.pendingFinal, hlastTime, htime, hend,
      Bool.eq_iff_iff]
    simp only [Bool.and_eq_true, decide_eq_true_iff, Session.timeAt_inj]
    split
    · have := hcompleted.1 ‹_›
      simp
      omega
    · have := mt hcompleted.2 ‹_›
      simp
      omega

end Stepped

/-! ## Sessions candle by candle -/

/-- The account of the session is the one that its candles, each on its own, have left. -/
structure Replayed (ctx : Decimal.Context) (config : Config) (db₀ : Db) (k : ℕ) (db : Db) (sim : Sim) :
    Prop where
  sim_eq : (db₀.candles.take k).foldlM (replayCandle ctx config db₀.session db₀.candles)
    (start db₀.session [] "") = .ok sim
  candles : db.candles = db₀.candles
  session : SameTerms db.session db₀.session
  balance : sim.balance = db.session.balance
  equity : sim.equity = db.session.equity
  open_ : sim.open_ = (loadOpenTrade db.trades).map Trade.anonymous
  trades : sim.trades = db.trades.map Trade.anonymous
  marks : sim.marks = db.marks

/-- All marks are events. -/
theorem marks_kept : Kept ctx plan fun sim => marksOf sim.events = sim.marks where
  leave _ hs h := by
    rw [h.events, h.marks, marksOf_append, hs]
    exact List.append_nil _
  skip _ _ hs := by
    rw [Sim.skip, marksOf_append, hs]
    exact List.append_nil _
  enter hs h := by
    rw [h.events, h.marks, marksOf_append, hs]
    exact List.append_nil _
  mark hs h := by
    rw [h.sim]
    change marksOf (_ ++ _) = _ ++ _
    rw [marksOf_append, hs]
    rfl

/-- A step replays its candles one by one. -/
theorem Replayed.step {config : Config} {db₀ : Db} {request : StepRequest}
    {candles : {l : List Candle // l ≠ []}} {decisions : List Decision} {totals : Totals} {ref : Sim}
    (hr : Replayed ctx config db₀ k db ref)
    (hconfig : executionConfig db₀.session.config = .ok config) (ht : Tidy db n k)
    (h : Stepped ctx request db candles decisions plan sim totals db') {c : ℕ} (hle : k + c ≤ n)
    (hslice : candles.1 = (db.candles.drop k).take c) (hcandles : db'.candles = db.candles)
    (hcompleted : (advanced request db.session candles).completed = true ↔ k + c = n) :
    ∃ ref, Replayed ctx config db₀ (k + c) db' ref := by
  have hconfig' : executionConfig db.session.config = .ok config := by
    rw [← hr.session.config]
    exact hconfig
  have hstart : SameSim db.marks (start plan.session db.trades request.requestId) ref := by
    refine ⟨?_, ?_, hr.open_, hr.trades, hr.marks.trans (List.append_nil _).symm⟩
    · rw [h.plan_session]
      exact hr.balance
    · rw [h.plan_session]
      exact hr.equity
  -- The reference goes on from where it stood, over the candles of this step.
  have hfold : Agree (SameSim db.marks)
      (candles.1.foldlM (simulateCandle ctx plan) (start plan.session db.trades request.requestId))
      (candles.1.foldlM (replayCandle ctx config db₀.session db₀.candles) ref) := by
    refine .foldlM hstart fun candle hmem sim sim' hs => ?_
    obtain ⟨d, hverdict, hplan⟩ :=
      h.samePlan ht hconfig' hr.session hle hslice hcompleted hmem
    rw [hr.candles] at hverdict
    have hsolo : replayCandle ctx config db₀.session db₀.candles sim' candle =
        simulateCandle ctx (soloPlan config db₀.session candle d) sim' candle := by
      rw [replayCandle, hverdict]
      rfl
    rw [hsolo]
    exact simulateCandle_same hplan hs
  rw [h.sim_eq] at hfold
  rcases hsim : candles.1.foldlM (replayCandle ctx config db₀.session db₀.candles) ref
    with e | ref' <;>
    rw [hsim] at hfold
  · exact hfold.elim
  obtain ⟨hbalance, hequity, hopen, htrades, hmarks⟩ := hfold
  obtain ⟨summary, -, -, hsession⟩ := h.session
  refine ⟨ref', ⟨?_, hcandles.trans hr.candles, ?_, ?_, ?_, ?_, ?_, ?_⟩⟩
  · rw [List.take_add, List.foldlM_append, hr.sim_eq, ← hr.candles, ← hslice, hr.candles]
    exact hsim
  · obtain ⟨h₁, h₂, h₃, h₄, h₅, h₆, h₇⟩ := hr.session
    rw [hsession, h.plan_session]
    exact ⟨h₁, h₂, h₃, h₄, h₅, h₆, h₇⟩
  · rw [hbalance, hsession]
  · rw [hequity, hsession]
  · rw [hopen, h.trades, (h.holdsOpen ht.one).loadOpenTrade]
  · rw [htrades, h.trades]
  · rw [hmarks, h.marks, marks_kept.run h.sim_eq rfl]

theorem Fresh.replayed {config : Config} (h : Fresh db n) :
    Replayed ctx config db 0 db (start db.session [] "") := by
  obtain ⟨count, hevents⟩ := h.events
  refine ⟨rfl, rfl, ⟨rfl, rfl, rfl, rfl, rfl, rfl, rfl⟩, rfl, rfl, ?_, ?_, ?_⟩
  · rw [h.trades]
    rfl
  · rw [h.trades]
    rfl
  · rw [Db.marks, hevents]
    rfl

theorem SameTerms.refl (s : Session) : SameTerms s s := ⟨rfl, rfl, rfl, rfl, rfl, rfl, rfl⟩

/-- The session has gone over the first `k` of its candles, from where it was fresh. -/
def Replays (ctx : Decimal.Context) (db₀ : Db) (k : ℕ) (db : Db) : Prop :=
  k = 0 ∧ db = db₀ ∨ ∃ config ref, executionConfig db₀.session.config = .ok config ∧
    Replayed ctx config db₀ k db ref

/-- Steps replay the session candle by candle, whatever their sizes. -/
theorem stepAll_replays {db₀ : Db} (hdb : Fresh db₀ n) {requests : List StepRequest}
    (h : stepAll ctx requests db₀ = .ok db) : ∃ k, Tidy db n k ∧ Replays ctx db₀ k db := by
  refine stepAll_keeps (P := Replays ctx db₀)
    (fun {k request db candles decisions plan sim totals db'} c ht hk hs _ hle hslice hcandles hc =>
      .inr ?_) hdb.tidy (.inl ⟨rfl, rfl⟩) h
  rcases hk with ⟨rfl, rfl⟩ | ⟨config, ref, hconfig, hr⟩
  · -- the first step has a configuration that it executes with
    obtain ⟨config, hconfig, -⟩ := hs.plan_eq
    obtain ⟨ref, hr⟩ := hdb.replayed.step hconfig ht hs hle hslice hcandles hc
    exact ⟨config, ref, hconfig, hr⟩
  · obtain ⟨ref, hr⟩ := hr.step hconfig ht hs hle hslice hcandles hc
    exact ⟨config, ref, hconfig, hr⟩

/-- The marks of a session only grow. -/
theorem marks_grow_kept (marked : List Mark) : Kept ctx plan fun sim => marked <+: sim.marks where
  leave _ hs h := h.marks ▸ hs
  skip _ _ hs := hs
  enter hs h := h.marks ▸ hs
  mark hs h := by
    rw [h.sim]
    exact hs.trans (List.prefix_append ..)

/-- Candles replayed further have the marks of before. -/
theorem replayCandle_marks {config : Config} {session : Session} {candles l : List Candle}
    (h : l.foldlM (replayCandle ctx config session candles) sim = .ok sim') :
    sim.marks <+: sim'.marks := by
  induction l generalizing sim with
  | nil => exact pure_eq_ok.1 h ▸ List.prefix_rfl
  | cons candle l ih =>
    rw [List.foldlM_cons] at h
    obtain ⟨sim₁, h₁, h⟩ := bind_eq_ok.1 h
    obtain ⟨d, -, h₁⟩ := bind_eq_ok.1 h₁
    exact ((marks_grow_kept sim.marks).keeps h₁ List.prefix_rfl).trans (ih h)

/-- One of two replays of a session has the marks of the other one. -/
theorem Replayed.marks_prefix {config : Config} {db₀ db₁ db₂ : Db} {k₁ k₂ : ℕ} {ref₁ ref₂ : Sim}
    (h₁ : Replayed ctx config db₀ k₁ db₁ ref₁) (h₂ : Replayed ctx config db₀ k₂ db₂ ref₂)
    (hle : k₁ ≤ k₂) : db₁.marks <+: db₂.marks := by
  obtain ⟨c, rfl⟩ := Nat.exists_eq_add_of_le hle
  have h := h₂.sim_eq
  rw [List.take_add, List.foldlM_append, h₁.sim_eq] at h
  rw [← h₁.marks, ← h₂.marks]
  exact replayCandle_marks h

/-- What the sessions have simulated is the same, the requests that their trades name aside. -/
structure SameTrades (db₁ db₂ : Db) : Prop where
  trades : db₁.trades.map Trade.anonymous = db₂.trades.map Trade.anonymous
  marks : db₁.marks = db₂.marks
  balance : db₁.session.balance = db₂.session.balance
  equity : db₁.session.equity = db₂.session.equity

theorem SameTrades.refl (db : Db) : SameTrades db db := ⟨rfl, rfl, rfl, rfl⟩

theorem SameTrades.symm {db₁ db₂ : Db} (h : SameTrades db₁ db₂) : SameTrades db₂ db₁ :=
  ⟨h.trades.symm, h.marks.symm, h.balance.symm, h.equity.symm⟩

/-- Two replays over the same candles are the same. -/
theorem Replayed.same {config : Config} {db₀ db₁ db₂ : Db} {ref₁ ref₂ : Sim}
    (h₁ : Replayed ctx config db₀ k db₁ ref₁) (h₂ : Replayed ctx config db₀ k db₂ ref₂) :
    SameTrades db₁ db₂ := by
  obtain rfl : ref₁ = ref₂ := Except.ok.inj (h₁.sim_eq.symm.trans h₂.sim_eq)
  exact ⟨h₁.trades.symm.trans h₂.trades, h₁.marks.symm.trans h₂.marks,
    h₁.balance.symm.trans h₂.balance, h₁.equity.symm.trans h₂.equity⟩

namespace Replays

variable {db₀ db₁ db₂ : Db} {k₁ k₂ : ℕ}

theorem session (h : Replays ctx db₀ k db) : SameTerms db.session db₀.session := by
  rcases h with ⟨-, rfl⟩ | ⟨_, _, -, hr⟩
  · exact .refl _
  · exact hr.session

/-- With an execution, a session that has not gone over any candle is replayed as well. -/
theorem replayed (h : Replays ctx db₀ k db) (hdb : Fresh db₀ n) {config : Config}
    (hconfig : executionConfig db₀.session.config = .ok config) :
    ∃ ref, Replayed ctx config db₀ k db ref := by
  rcases h with ⟨rfl, rfl⟩ | ⟨config', ref, hconfig', hr⟩
  · exact ⟨_, hdb.replayed⟩
  · obtain rfl := Except.ok.inj (hconfig.symm.trans hconfig')
    exact ⟨ref, hr⟩

/-- Two of them have gone over their candles with the same configuration, or over none. -/
theorem both (h₁ : Replays ctx db₀ k₁ db₁) (h₂ : Replays ctx db₀ k₂ db₂) (hdb : Fresh db₀ n) :
    (db₁ = db₀ ∧ db₂ = db₀) ∨ ∃ config ref₁ ref₂, Replayed ctx config db₀ k₁ db₁ ref₁ ∧
      Replayed ctx config db₀ k₂ db₂ ref₂ := by
  rcases id h₁ with ⟨-, heq₁⟩ | ⟨config, ref₁, hconfig, hr₁⟩
  · rcases id h₂ with ⟨-, heq₂⟩ | ⟨config, ref₂, hconfig, hr₂⟩
    · exact .inl ⟨heq₁, heq₂⟩
    · obtain ⟨ref₁, hr₁⟩ := h₁.replayed hdb hconfig
      exact .inr ⟨config, ref₁, ref₂, hr₁, hr₂⟩
  · obtain ⟨ref₂, hr₂⟩ := h₂.replayed hdb hconfig
    exact .inr ⟨config, ref₁, ref₂, hr₁, hr₂⟩

end Replays

/-- Sessions of the same terms are at the same candle when their cursors are. -/
theorem Tidy.eq_of_cursorTime {db₀ db₁ db₂ : Db} {k₁ k₂ : ℕ} (h₁ : Tidy db₁ n k₁)
    (h₂ : Tidy db₂ n k₂) (hs₁ : SameTerms db₁.session db₀.session)
    (hs₂ : SameTerms db₂.session db₀.session)
    (hcursor : db₁.session.cursorTime = db₂.session.cursorTime) : k₁ = k₂ := by
  have hstart : db₁.session.startTime = db₂.session.startTime :=
    hs₁.startTime.symm.trans hs₂.startTime
  have hframe : db₁.session.timeframe = db₂.session.timeframe :=
    hs₁.timeframe.symm.trans hs₂.timeframe
  have hnext : db₁.session.nextTime = db₂.session.nextTime := by
    rw [Session.nextTime, Session.nextTime, hcursor, hstart, hframe]
  rw [h₁.passed.next, h₂.passed.next] at hnext
  refine (Session.timeAt_inj db₁.session).1 (hnext.trans ?_)
  rw [Session.timeAt, Session.timeAt, hstart, hframe]

/-- Steps of different sizes simulate the same: where one run is further than the other, it has
    the marks of the other, and at the same candle they have the same trades and account. -/
theorem stepAll_partition (hdb : Fresh db n) {requests₁ requests₂ : List StepRequest} {db₁ db₂ : Db}
    (h₁ : stepAll ctx requests₁ db = .ok db₁) (h₂ : stepAll ctx requests₂ db = .ok db₂) :
    (db₁.marks <+: db₂.marks ∨ db₂.marks <+: db₁.marks) ∧
      (db₁.session.cursorTime = db₂.session.cursorTime → SameTrades db₁ db₂) := by
  obtain ⟨k₁, ht₁, hk₁⟩ := stepAll_replays hdb h₁
  obtain ⟨k₂, ht₂, hk₂⟩ := stepAll_replays hdb h₂
  rcases hk₁.both hk₂ hdb with ⟨rfl, rfl⟩ | ⟨config, ref₁, ref₂, hr₁, hr₂⟩
  · exact ⟨.inl List.prefix_rfl, fun _ => .refl _⟩
  refine ⟨?_, fun hcursor => ?_⟩
  · rcases le_total k₁ k₂ with hle | hle
    · exact .inl (hr₁.marks_prefix hr₂ hle)
    · exact .inr (hr₂.marks_prefix hr₁ hle)
  · obtain rfl := ht₁.eq_of_cursorTime ht₂ hk₁.session hk₂.session hcursor
    exact hr₁.same hr₂

/-- The session of rising prices, in a single step and in two of them. -/
theorem stepAll_partition_rising : ∃ db db₁ db₂, risingStart = .ok db ∧
    stepAll .default [risingStep] db = .ok db₁ ∧
    stepAll .default [risingFirst, risingLast] db = .ok db₂ ∧
    (closedTrades db₁.trades).length = 1 ∧ SameTrades db₁ db₂ := by
  obtain ⟨db, db₁, db₂, hdb, h₁, h₂, hclosed, -, hcursor⟩ := rising_runs
  obtain ⟨n, hfresh⟩ := startSession_fresh hdb
  exact ⟨db, db₁, db₂, hdb, h₁, h₂, hclosed, (stepAll_partition hfresh h₁ h₂).2 hcursor⟩

end IntradayBot.Replay
