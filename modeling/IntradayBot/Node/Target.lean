import IntradayBot.Node.Trade

/-!
# The target of a trade

The order of an entry carries a target for the whole position, the reference of its
payload; moving the stop to the entry sets the target to the second level (`lastTarget`).
The rest of the position only runs beyond the second level while the target is beyond it,
and that is so as long as no first level is reached, for a fill that leaves the reference
beyond the second level (`Favourable`, `target_beyond`).
-/

namespace IntradayBot.Node

open Coop TradeManager

/-- The price `t` is strictly beyond `level` for a trade of the side. -/
def Beyond (side : Side) (t level : ℚ) : Prop :=
  match side with
  | .buy => level < t
  | .sell => t < level

instance (side : Side) (t level : ℚ) : Decidable (Beyond side t level) :=
  match side with
  | .buy => inferInstanceAs (Decidable (level < t))
  | .sell => inferInstanceAs (Decidable (t < level))

/-- The target of the order of an entry. -/
def Command.reference (command : Command) : Option ℚ :=
  Json.written (command.payload.get "takeProfitReference")

/-- The target last set on the position of a trade. -/
def lastTarget (command : Command) (stops : List StopRequest) : Option ℚ :=
  (stops.findSome? StopRequest.takeProfit).getD command.reference

/-- The target is absent, or beyond the second level. -/
def TargetBeyond (command : Command) (w : TradeWorld) : Prop :=
  ∀ plan, (recordOf command.candidateKey w).bind ManagementState.plan = some plan →
    ∀ t, lastTarget command w.remote.exchange.stops = some t →
      Beyond command.tradeSide t plan.tp2Price

/-! ## What the exchange shows -/

/-- The level of a multiple of the risk, for the position that is shown. -/
def shownLevel (command : Command) (multiple : ℚ) (positions : List PositionRow) : Option ℚ := do
  let position ← positions.find? (isManaged command.tradeSide)
  let entry ← Json.toNumber (Json.orElse position.avgPrice (command.payload.get "entryReference"))
  let initialStop ← Json.toNumber (command.payload.get "technicalStopLoss")
  return target entry |entry - initialStop| command.tradeSide multiple

/-- The mark price that is shown. -/
def shownMark (tickers : List TickerRow) : Option ℚ :=
  tickers.head?.bind fun ticker => Json.toNumber (Json.orElse ticker.markPrice ticker.lastPrice)

/-- The first level of the plan, or of the plan there would be. -/
def firstLevel (command : Command) (s : Seen TradeExchange) : Option ℚ :=
  match s.record with
  | some state => state.plan.map ManagementPlan.tp1Price
  | none => shownLevel command tp1R s.exchange.positions

/-- The fill leaves the reference beyond the second level, and the mark price is not at the
    first level. -/
structure Favourable (command : Command) (s : Seen TradeExchange) : Prop where
  fill : s.record = none → ∀ level t, shownLevel command tp2R s.exchange.positions = some level →
    command.reference = some t → Beyond command.tradeSide t level
  mark : ∀ level mark, firstLevel command s = some level →
    shownMark s.exchange.tickers = some mark → ¬reached mark level command.tradeSide

instance (command : Command) (s : Seen TradeExchange) : Decidable (Favourable command s) :=
  decidable_of_iff
    ((s.record.isSome ∨ (shownLevel command tp2R s.exchange.positions).all fun level =>
        command.reference.all fun t => Beyond command.tradeSide t level) ∧
      (firstLevel command s).all fun level =>
        (shownMark s.exchange.tickers).all fun mark => ¬reached mark level command.tradeSide) <| by
    simp only [Option.all_eq_true, decide_eq_true_eq]
    refine ⟨fun h => ⟨fun hn level t hl ht => ?_, fun level mark hl hm => h.2 level hl mark hm⟩,
      fun h => ⟨?_, fun level hl mark hm => h.mark level mark hl hm⟩⟩
    · exact (h.1.resolve_left (by simp [hn])) level hl t ht
    · rcases hr : s.record with _ | state
      · exact .inr fun level hl t ht => h.fill hr level t hl ht
      · exact .inl rfl

/-- What is shown after every step is favourable. -/
def StaysFavourable (command : Command) : Condition Unit Memory TradeRemote JsError Op.Val :=
  fun _ _ w' => Favourable command (seen command.candidateKey w')

/-! ## The invariant -/

/-- No level was reached, and the reference is the target. -/
structure Waiting (command : Command) (s : Seen TradeExchange) : Prop where
  favourable : Favourable command s
  stops : s.exchange.stops = []
  notDone : ∀ state, s.record = some state → state.tp1Done = false ∧ state.tp2Done = false
  fits : ∀ plan, s.record.bind ManagementState.plan = some plan → Fits command.tradeSide plan
  beyond : ∀ plan t, s.record.bind ManagementState.plan = some plan →
    command.reference = some t → Beyond command.tradeSide t plan.tp2Price

/-- What a cycle carries along is of the plan of the record, and not done. -/
structure Idle (state : ManagementState) (mark : ℚ) (s : Seen (List TickerRow)) : Prop where
  record : ∃ saved, s.record = some saved ∧ saved.plan = state.plan
  notDone : state.tp1Done = false ∧ state.tp2Done = false
  mark : shownMark s.exchange = some mark

namespace Waiting

variable {command : Command} {s : Seen TradeExchange} {x : TradeExchange} {state : ManagementState}
  {mark : ℚ}

/-- Rows are shown. -/
theorem show_rows (h : Waiting command s) (hf : Favourable command ⟨s.record, x⟩)
    (hx : x.stops = s.exchange.stops) : Waiting command ⟨s.record, x⟩ :=
  ⟨hf, hx.trans h.stops, h.notDone, h.fits, h.beyond⟩

/-- The record is replaced by one of the same plan. -/
theorem put (h : Waiting command s) {state' : ManagementState}
    (hi : Idle state mark (s.look TradeExchange.tickers)) (hp : state'.plan = state.plan)
    (h₁ : state'.tp1Done = state.tp1Done) (h₂ : state'.tp2Done = state.tp2Done) :
    Waiting command ⟨some state', s.exchange⟩ := by
  obtain ⟨saved, hsaved, hplan⟩ := hi.record
  have hrec : s.record = some saved := hsaved
  have same : s.record.bind ManagementState.plan = state'.plan := by
    rw [hrec, hp, ← hplan]
    rfl
  refine ⟨⟨nofun, fun level mark hl hm => h.favourable.mark level mark ?_ hm⟩, h.stops,
    fun state'' hs => ?_, fun plan hs => h.fits plan (same.trans hs),
    fun plan t hs => h.beyond plan t (same.trans hs)⟩
  · rw [firstLevel, hrec]
    change saved.plan.map ManagementPlan.tp1Price = some level
    rw [hplan, ← hp]
    exact hl
  · obtain rfl := Option.some.inj hs
    exact ⟨h₁.trans hi.notDone.1, h₂.trans hi.notDone.2⟩

/-- No plan is reached. -/
theorem not_reached (h : Waiting command s) (hi : Idle state mark (s.look TradeExchange.tickers))
    {plan : ManagementPlan} (hp : state.plan = some plan) :
    ¬reached mark plan.tp1Price command.tradeSide ∧
      ¬reached mark plan.tp2Price command.tradeSide := by
  obtain ⟨saved, hsaved, hplan⟩ := hi.record
  have hrec : s.record = some saved := hsaved
  have hn : ¬reached mark plan.tp1Price command.tradeSide := by
    refine h.favourable.mark _ _ ?_ hi.mark
    rw [firstLevel, hrec]
    change saved.plan.map ManagementPlan.tp1Price = _
    rw [hplan, hp]
    rfl
  refine ⟨hn, fun hr => hn (Fits.reached_tp1 (h.fits plan ?_) hr)⟩
  rw [hrec]
  exact hplan.trans hp

end Waiting

/-! The state of a command is no part of any of this. -/

theorem Favourable.of_state (command : Command) (state : CommandState) :
    Favourable { command with state } = Favourable command := by
  funext s
  exact propext ⟨fun h => ⟨h.fill, h.mark⟩, fun h => ⟨h.fill, h.mark⟩⟩

theorem Waiting.of_state (command : Command) (state : CommandState) :
    Waiting { command with state } = Waiting command := by
  have hf := congrFun (Favourable.of_state command state)
  funext s
  exact propext ⟨fun h => ⟨(hf s).mp h.favourable, h.stops, h.notDone, h.fits, h.beyond⟩,
    fun h => ⟨(hf s).mpr h.favourable, h.stops, h.notDone, h.fits, h.beyond⟩⟩

theorem StaysFavourable.of_state (command : Command) (state : CommandState) :
    StaysFavourable { command with state } = StaysFavourable command := by
  funext _ _ w'
  exact congrFun (Favourable.of_state command state) (seen command.candidateKey w')

/-! ## The cycle -/

section cycle

variable {command : Command} {position : PositionRow} {o : Observation} {state : ManagementState}
  {mark : ℚ} {symbol : String} {side : Side}

/-- The levels of the plan of a management that starts are those shown. -/
theorem shownLevel_eq {multiple : ℚ} {positions : List PositionRow} {tickers : List TickerRow}
    {instruments : List InstrumentRow}
    (hp : positions.find? (isManaged command.tradeSide) = some position)
    (ho : observe command.payload position tickers instruments = .ok o) :
    shownLevel command multiple positions =
      some (target o.entry o.risk command.tradeSide multiple) := by
  obtain ⟨_, _, _, -, -, -, -, -, -, hentry, -, hstop, -, -⟩ := observe_eq_ok ho
  rw [shownLevel, hp]
  change (Json.toNumber (Json.orElse position.avgPrice (command.payload.get "entryReference"))).bind
    _ = _
  rw [hentry]
  change (Json.toNumber (command.payload.get "technicalStopLoss")).bind _ = _
  rw [hstop]
  rfl

theorem takeFirst_waits :
    Does command.candidateKey (Waiting command) TradeExchange.tickers (StaysFavourable command)
      (Idle state o.mark) (takeFirst command command.tradeSide position o state)
      fun state' s => Idle state' o.mark s := by
  rw [takeFirst]
  rcases hp : state.plan with _ | plan
  · exact .ret fun _ _ h => h
  refine .of_forall (fun s hI h => hI.not_reached h hp) fun hn => ?_
  dsimp only
  rw [if_neg fun hc => hn.1 hc.2]
  exact .ret fun _ _ h => h

theorem takeSecond_waits :
    Does command.candidateKey (Waiting command) TradeExchange.tickers (StaysFavourable command)
      (Idle state o.mark) (takeSecond command command.tradeSide position o state)
      fun state' s => Idle state' o.mark s := by
  rw [takeSecond]
  rcases hp : state.plan with _ | plan
  · exact .ret fun _ _ h => h
  refine .of_forall (fun s hI h => hI.not_reached h hp) fun hn => ?_
  dsimp only
  rw [if_neg fun hc => hn.2 hc.2]
  exact .ret fun _ _ h => h

theorem trail_waits :
    Does command.candidateKey (Waiting command) TradeExchange.tickers (StaysFavourable command)
      (Idle state mark) (trail command symbol side position mark state)
      fun state' s => Idle state' mark s := by
  rw [trail]
  rcases state.plan with _ | plan
  · exact .ret fun _ _ h => h
  refine .of_forall (fun s _ h => h.notDone.2) fun hn => ?_
  dsimp only
  rw [if_neg (by rw [hn]; exact Bool.false_ne_true)]
  exact .ret fun _ _ h => h

/-- The record that is carried along is saved, with other remarks. -/
theorem put_waits (state' : ManagementState) (hp : state'.plan = state.plan)
    (h₁ : state'.tp1Done = state.tp1Done) (h₂ : state'.tp2Done = state.tp2Done) :
    Does command.candidateKey (Waiting command) TradeExchange.tickers (StaysFavourable command)
      (Idle state mark) (HybridRepository.putManagementState command.candidateKey state')
      fun _ _ => True :=
  .putManagementState fun _ hI h => ⟨hI.put h hp h₁ h₂, trivial⟩

theorem closedAfter_waits {reason : String} :
    Does command.candidateKey (Waiting command) TradeExchange.tickers (StaysFavourable command)
      (Idle state mark) (closedAfter command state reason) fun _ _ => True :=
  .bind (put_waits { state with closeReason := some reason } rfl rfl rfl) fun _ =>
    .leaves (finishClosed_leaves _)

theorem currentPosition_waits {P : Seen (List TickerRow) → Prop} :
    Does command.candidateKey (Waiting command) TradeExchange.tickers (StaysFavourable command)
      P (currentPosition symbol side) fun _ => P := by
  refine .bind (Q := fun _ => P) (.bybit fun w a x hI hP hx hok => ?_) fun _ => .ret fun _ _ h => h
  subst hx
  exact ⟨hI.show_rows hok rfl, fun _ _ => hP⟩

/-- The record that a cycle starts from. -/
theorem loadState_waits {positions : List PositionRow} {tickers : List TickerRow}
    {instruments : List InstrumentRow}
    (hp : positions.find? (isManaged command.tradeSide) = some position)
    (ho : observe command.payload position tickers instruments = .ok o) :
    Does command.candidateKey (Waiting command) id (StaysFavourable command)
      (fun s => s.exchange.positions = positions ∧ s.exchange.tickers = tickers)
      (loadState command o symbol command.tradeSide)
      fun state s => Idle state o.mark (s.look TradeExchange.tickers) := by
  obtain ⟨ticker, _, _, rfl, -, hmark, -, -, hqty, -, hentry, -, -, hrisk⟩ := observe_eq_ok ho
  refine .bind .getManagementState fun known => ?_
  rcases known with _ | state
  · refine .bind (Q := fun _ s => Idle (o.initial symbol command.tradeSide) o.mark
      (s.look TradeExchange.tickers)) (.putManagementState fun s hI h => ?_) fun _ =>
        .bind (.leaves (recordOrder_leaves _ _)) fun _ => .ret fun _ _ h => h
    obtain ⟨hnone, hpos, htick⟩ : s.record = none ∧ s.exchange.positions = positions ∧
      s.exchange.tickers = ticker :: _ := h
    have hlevel : ∀ {multiple : ℚ}, shownLevel command multiple s.exchange.positions =
        some (target o.entry o.risk command.tradeSide multiple) := hpos ▸ shownLevel_eq hp ho
    refine ⟨⟨⟨nofun, fun level mark hl hm => ?_⟩, hI.stops, fun state hs => ?_,
      fun plan hs => ?_, fun plan t hs ht => ?_⟩, ⟨_, rfl, rfl⟩, ⟨rfl, rfl⟩, ?_⟩
    · -- the first level is the one that was shown before
      refine hI.favourable.mark level mark ?_ hm
      rw [firstLevel, hnone]
      exact hlevel.trans hl
    · obtain rfl := Option.some.inj hs
      exact ⟨rfl, rfl⟩
    · obtain rfl := Option.some.inj hs
      exact plan_fits hqty hentry hrisk symbol command.tradeSide
    · obtain rfl := Option.some.inj hs
      exact hI.favourable.fill hnone _ t hlevel ht
    · change shownMark s.exchange.tickers = some o.mark
      rw [htick]
      exact hmark
  · refine .ret fun s hI h => ?_
    obtain ⟨hsome, -, htick⟩ : s.record = some state ∧ s.exchange.positions = positions ∧
      s.exchange.tickers = ticker :: _ := h
    refine ⟨⟨state, hsome, rfl⟩, hI.notDone state hsome, ?_⟩
    change shownMark s.exchange.tickers = some o.mark
    rw [htick]
    exact hmark

/-- A cycle, from an open position on. -/
theorem manage_waits {positions : List PositionRow} {tickers : List TickerRow}
    {instruments : List InstrumentRow}
    (hp : positions.find? (isManaged command.tradeSide) = some position)
    (ho : observe command.payload position tickers instruments = .ok o) :
    Does command.candidateKey (Waiting command) id (StaysFavourable command)
      (fun s => s.exchange.positions = positions ∧ s.exchange.tickers = tickers)
      (manage command symbol command.tradeSide position o) fun _ _ => True := by
  refine .bind (loadState_waits hp ho) fun state => ?_
  refine .ease (Q := fun _ _ => True) (fun _ _ h => congrArg _ h) ?_ (fun _ _ h => h)
    fun _ _ _ h => h
  refine .bind (takeFirst_waits.pre fun s _ h => ⟨h.record, h.notDone, h.mark⟩) fun state => ?_
  refine .bind currentPosition_waits fun refreshedAfterTp1 => ?_
  rcases refreshedAfterTp1 with _ | refreshedAfterTp1
  · exact closedAfter_waits
  refine .bind takeSecond_waits fun state => ?_
  refine .bind currentPosition_waits fun refreshed => ?_
  rcases refreshed with _ | refreshed
  · exact closedAfter_waits
  refine .bind trail_waits fun state => ?_
  refine .bind (put_waits _ rfl rfl rfl) fun _ => .bind (.leaves (recordOrder_leaves _ _)) fun _ => ?_
  split
  · exact .leaves (transition_leaves _ _)
  · exact .ret fun _ _ _ => trivial

theorem closeMissingPosition_waits {reason : String} {P : Seen TradeExchange → Prop} :
    Does command.candidateKey (Waiting command) id (StaysFavourable command) P
      (closeMissingPosition command reason) fun _ _ => True := by
  refine .bind .getManagementState fun known => .bind (Q := fun _ _ => True)
    (.putManagementState fun s hI h => ⟨?_, trivial⟩) fun _ => .leaves (finishClosed_leaves _)
  have hrec : s.record = known := h.1
  rcases known with _ | state
  · -- a record without a plan
    refine ⟨⟨nofun, fun level mark hl _ => nomatch hl⟩, hI.stops, fun state hs => ?_,
      fun plan hs => (nomatch hs), fun plan t hs _ => nomatch hs⟩
    obtain rfl := Option.some.inj hs
    exact ⟨rfl, rfl⟩
  · refine ⟨⟨nofun, fun level mark hl hm => hI.favourable.mark level mark ?_ hm⟩, hI.stops,
      fun state' hs => ?_, fun plan hs => hI.fits plan ?_, fun plan t hs => hI.beyond plan t ?_⟩
    · rw [firstLevel, hrec]
      exact hl
    · obtain rfl := Option.some.inj hs
      exact hI.notDone state hrec
    · rw [hrec]
      exact hs
    · rw [hrec]
      exact hs

/-- A cycle does not touch the target. -/
theorem cycle_waits :
    Does command.candidateKey (Waiting command) id (StaysFavourable command) (fun _ => True)
      (TradeManager.cycle command) fun _ _ => True := by
  refine .bind (Q := fun _ _ => True) (.require fun _ _ _ _ => trivial) fun _ => ?_
  dsimp only
  rcases hs : Side.ofText? (Json.textOrEmpty (command.payload.get "side")) with _ | side'
  · exact .throw _
  obtain rfl : side' = command.tradeSide := by rw [Command.tradeSide, hs, Option.getD_some]
  refine .bind (Q := fun _ _ => True) (.require fun _ _ _ _ => trivial) fun _ => ?_
  refine .bind (Does.rows (Q := fun rows s => s.exchange = rows)
    (T := fun rows s => s.exchange = rows) (R := fun _ _ => True)
    (.bybit fun w a x hI _ hx hok => ?_) (.bybit fun w a x hI _ hx hok => ?_)
    (.bybit fun w a x hI _ hx hok => ?_)) fun (positions, tickers, instruments) => ?_
  · subst hx
    exact ⟨hI.show_rows hok rfl, by rintro v rfl; rfl⟩
  · subst hx
    exact ⟨hI.show_rows hok rfl, by rintro v rfl; rfl⟩
  · obtain ⟨-, rfl⟩ := hx
    exact ⟨hI.show_rows hok rfl, fun _ _ => trivial⟩
  dsimp only
  -- Without a position the cycle only closes the command; with one it observes the three
  -- answers.
  rcases hp : positions.find? (isManaged command.tradeSide) with _ | position
  · exact closeMissingPosition_waits
  refine .bind (Q := fun o s => (s.exchange.positions = positions ∧ s.exchange.tickers = tickers) ∧
      observe command.payload position tickers instruments = .ok o)
    (.ofExcept fun o ho s _ h => ⟨⟨h.1, h.2.1⟩, ho⟩) fun o => ?_
  exact .of_forall (fun s _ h => h.2) fun ho => (manage_waits hp ho).pre fun _ _ h => h.1

end cycle

/-- The target stays beyond the second level while what is shown stays favourable. -/
theorem target_beyond (command : Command) {w : TradeWorld} (hw : TradeStarts command w)
    {c : Coop.Config Unit Memory TradeRemote JsError Op.Val}
    (hr : Run (trade command) (StaysFavourable command) ((trade command).start w) c) :
    TargetBeyond command c.world := by
  have hnone : (seen command.candidateKey w).record = none := hw.record
  have hblank : (seen command.candidateKey w).exchange = .blank := hw.exchange
  have hstart : Waiting command (seen command.candidateKey w) := by
    refine ⟨⟨fun _ level t hl _ => ?_, fun level mark _ hm => ?_⟩, hw.stops,
      fun state hs => absurd (hnone ▸ hs) nofun, fun plan hp => absurd (hnone ▸ hp) nofun,
      fun plan t hp _ => absurd (hnone ▸ hp) nofun⟩
    · rw [hblank] at hl
      exact nomatch hl
    · rw [hblank] at hm
      exact nomatch hm
  -- A turn manages the command in either of its two states, and `Waiting` knows of neither.
  have hturn : Does command.candidateKey (Waiting command) id (StaysFavourable command)
      (fun _ => True) (managedTurn command) fun _ _ => True := by
    refine .bind (.leaves (.request trivial)) fun partially => ?_
    refine .bind (Q := fun _ _ => True) ?_ fun _ => .ret fun _ _ _ => trivial
    let state : CommandState := if partially then .partiallyFilled else .managing
    rw [← Waiting.of_state command state, ← StaysFavourable.of_state command state]
    exact @cycle_waits { command with state }
  have h := trade_run hturn (fun _ _ _ => trivial) hr (fun _ => hw.row) hstart trivial
  intro plan hplan t ht
  have hnil : c.world.remote.exchange.stops = [] := h.stops
  rw [lastTarget, hnil] at ht
  exact h.beyond plan t hplan ht

/-! ## An entry -/

/-- The facts of a candidate, before its sizing. -/
def longFacts : Json := .obj [
  ("symbol", .str "BTCUSDT"),
  ("side", .str "Buy"),
  ("createdAt", .num 100000),
  ("entryReference", .num 100)]

/-- The exchange shows a mark price of 100, and lows of 90. -/
def longTruth : LiveSizer.Truth where
  wallet := [⟨some (.num 1000), some (.num 1000)⟩]
  instrument := [(longMarket "10" "100" "0.01").instrument]
  ticker := [⟨some (.str "100"), none⟩]
  positions := []
  activeOrders := []
  kline15m := (List.range 3).map fun n =>
    ⟨some (.num (900000 * (n + 1))), some (.num 105), some (.num 90)⟩
  pendingReservedMargin := none
  orderLinkId := .entry "BTCUSDT-1"

/-- The settings of an environment that looks back at three candles. -/
def shortLookback : Config := loadConfig "node" none none none (some 3)

/-- The command of this candidate. -/
def sizedTrade : Command :=
  { longTrade with
    payload := ((LiveSizer.buildLiveExecutionPlan longFacts longTruth shortLookback
      100000).toOption).getD .null }

theorem sizedTrade_accepted :
    LiveSizer.buildLiveExecutionPlan longFacts longTruth shortLookback 100000 =
      .ok sizedTrade.payload := by
  have h : (LiveSizer.buildLiveExecutionPlan longFacts longTruth shortLookback
      100000).toOption.isSome := by
    decide +kernel
  rw [sizedTrade]
  rcases hp : LiveSizer.buildLiveExecutionPlan longFacts longTruth shortLookback 100000 with e | p
  · rw [hp] at h
    exact absurd h Bool.false_ne_true
  · rfl

theorem sizedTrade_starts : TradeStarts sizedTrade untouched := ⟨rfl, rfl, rfl⟩

/-- The exchange shows a fill price of this trade, and a mark price of 101. -/
def filledMarket (price : String) : Market :=
  let market := longMarket "10" "101" "0.01"
  { market with position := { market.position with avgPrice := some (.str price) } }

theorem filledMarket_fair (price : String) :
    ∀ m ∈ List.replicate 12 (filledMarket price).move, m.Fair (trade sizedTrade) :=
  fun _ hm => List.eq_of_mem_replicate hm ▸ (filledMarket price).move_fair
    (longMarket_stepped "10" "101" (q := 1 / 100) (by decide +kernel)
      (by norm_num))

/-- The second level of a record, and the target that is set. -/
def levelAndTarget (w : TradeWorld) : Option ℚ × Option ℚ :=
  (((recordOf sizedTrade.candidateKey w).bind ManagementState.plan).map ManagementPlan.tp2Price,
    lastTarget sizedTrade w.remote.exchange.stops)

theorem filledMarket_level :
    (playAll (trade sizedTrade) ((trade sizedTrade).start untouched)
      (List.replicate 12 (filledMarket "100").move)).map (fun c => levelAndTarget c.world) =
      some (some 120, some 120) := by
  decide +kernel

theorem target_not_beyond : ¬∀ (config : Config) (facts : Json) (truth : LiveSizer.Truth)
    (nowSeconds : ℕ) (command : Command) (w : TradeWorld),
    LiveSizer.buildLiveExecutionPlan facts truth config nowSeconds = .ok command.payload →
    TradeStarts command w → ∀ c, Run (trade command) (fun _ _ _ => True) ((trade command).start w) c →
      TargetBeyond command c.world := by
  intro h
  obtain ⟨c, hc, hlevel⟩ := Option.map_eq_some_iff.1 filledMarket_level
  obtain ⟨hplan, htarget⟩ := Prod.mk.inj hlevel
  obtain ⟨plan, hplan, hlevel⟩ := Option.map_eq_some_iff.1 hplan
  have hb := h shortLookback longFacts longTruth 100000 sizedTrade untouched sizedTrade_accepted
    sizedTrade_starts c (Run.of_playAll (filledMarket_fair "100") hc) plan hplan 120 htarget
  have hside : sizedTrade.tradeSide = .buy := by decide +kernel
  rw [hside, hlevel] at hb
  exact lt_irrefl _ hb

theorem filledMarket_within :
    (playWithin (trade sizedTrade) (fun w => Favourable sizedTrade (seen sizedTrade.candidateKey w))
      ((trade sizedTrade).start untouched)
      (List.replicate 12 (filledMarket "99.9").move)).map (fun c => levelAndTarget c.world) =
      some (some (99.9 + 9.9 * 2), some 120) := by
  decide +kernel

/-- A fill below the reference price leaves the target beyond the second level. -/
theorem target_beyond_filled : ∃ c : Coop.Config Unit Memory TradeRemote JsError Op.Val,
    levelAndTarget c.world = (some (99.9 + 9.9 * 2), some 120) ∧
      TargetBeyond sizedTrade c.world := by
  obtain ⟨c, hc, hlevel⟩ := Option.map_eq_some_iff.1 filledMarket_within
  have hr := Run.of_playWithin (by decide +kernel) (filledMarket_fair "99.9") hc
  have hstays : Run _ (StaysFavourable sizedTrade) _ c := hr.mono fun w l w' hok => by
    have hafter : Favourable sizedTrade (seen sizedTrade.candidateKey w') := by simpa using hok.2.1
    exact hafter
  exact ⟨c, hlevel, target_beyond sizedTrade sizedTrade_starts hstays⟩

end IntradayBot.Node
