import IntradayBot.Replay.Steps

/-!
# The account of a session

The balance of a session is its initial one, and what its trades have brought: what a closed
trade has realized, less what the open one has paid to enter (`Trade.booked`). A close
never takes more than there is, and what it takes less is written off.

All amounts have 8 decimals, and their sums are exact. The initial balance alone may have more:
the first entry then drops them.
-/

namespace IntradayBot.Replay

open Decimal Engine Simulation

variable {ctx : Context} {db : Db} {n k : ℕ} {plan : Plan} {candle : Candle} {sim sim' : Sim}
  {trade closed : Trade} {trades : List Trade} {decision : ExitDecision} {exit : ExitPayload}
  {initial balance feeBps : ℚ}

/-- `MONEY_QUANTUM` -/
def MONEY_QUANTUM : ℚ := 1 / 10 ^ moneyPlaces

/-- What a trade has brought to the balance. -/
def Trade.booked (t : Trade) : ℚ :=
  match t.status with
  | .closed => t.realizedPnl
  | .opened => -t.fees

/-- What the closed trades have realized. -/
def realizedSum (trades : List Trade) : ℚ := ((closedTrades trades).map (·.realizedPnl)).sum

/-- What the open trades have paid to enter. -/
def openFees (trades : List Trade) : ℚ := ((openTrades trades).map (·.fees)).sum

/-- What the trades have brought is what is realized, less what it takes to be in the open one. -/
theorem booked_sum (trades : List Trade) :
    (trades.map Trade.booked).sum = realizedSum trades - openFees trades := by
  induction trades with
  | nil => simp [realizedSum, openFees, closedTrades, openTrades]
  | cons t l ih =>
    rw [List.map_cons, List.sum_cons, ih]
    rcases hs : t.status with _ | _
    · simp [realizedSum, openFees, closedTrades, openTrades, Trade.booked, hs]
      ring
    · simp [realizedSum, openFees, closedTrades, openTrades, Trade.booked, hs]
      ring

/-! ## A close -/

/-- The loss is capped at the balance. -/
theorem limitedLiabilityDelta_eq_ok {raw : ℚ} {delta : LimitedDelta}
    (hraw : OnGrid moneyPlaces raw) (hgrid : OnGrid moneyPlaces balance) (hbalance : 0 ≤ balance)
    (h : limitedLiabilityDelta ctx raw balance = .ok delta) :
    delta.applied = max raw (-balance) ∧ delta.adjustment = delta.applied - raw := by
  simp only [limitedLiabilityDelta, bind_eq_ok, pure_eq_ok, quantizeMoney_eq_ok] at h
  obtain ⟨available, havailable, raw', hraw', adjustment, hadjustment, rfl⟩ := h
  obtain rfl := Context.quantize_self hgrid havailable
  obtain rfl := Context.quantize_self hraw hraw'
  have hneg : ctx.neg (max 0 available) = -available := by
    rw [max_eq_right hbalance, Context.neg]
    exact Context.fit_neg_quantize havailable
  rw [hneg] at hadjustment ⊢
  exact ⟨rfl, Context.quantize_sub (hraw.max hgrid.neg) hraw hadjustment⟩

/-- What the amounts of a close add up to. -/
structure Settles (balance : ℚ) (trade : Trade) (exit : ExitPayload) (closed : Trade) : Prop where
  applied : exit.appliedBalanceDelta = max (exit.grossPnl - exit.exitFee) (-balance)
  effective : exit.effectiveGrossPnl = exit.appliedBalanceDelta + exit.exitFee
  fees : closed.fees = trade.fees + exit.exitFee
  realizedPnl : closed.realizedPnl = exit.appliedBalanceDelta - trade.fees
  onGrid_applied : OnGrid moneyPlaces exit.appliedBalanceDelta
  onGrid_fees : OnGrid moneyPlaces closed.fees
  onGrid_realizedPnl : OnGrid moneyPlaces closed.realizedPnl

theorem Simulation.Closes.settles (h : Closes ctx trade candle decision feeBps balance exit closed)
    (hgrid : OnGrid moneyPlaces balance) (hbalance : 0 ≤ balance)
    (hfees : OnGrid moneyPlaces trade.fees) : Settles balance trade exit closed := by
  have hgross : OnGrid moneyPlaces exit.grossPnl :=
    Context.onGrid_quantize (quantizeMoney_eq_ok.1 h.gross)
  have hexitFee : OnGrid moneyPlaces exit.exitFee :=
    Context.onGrid_quantize (quantizeMoney_eq_ok.1 h.exitFee)
  -- Sums of amounts on the grid are on the grid: rounding them changes nothing.
  have hraw : exit.rawBalanceDelta = exit.grossPnl - exit.exitFee :=
    Context.quantize_sub hgross hexitFee (quantizeMoney_eq_ok.1 h.raw)
  have honraw : OnGrid moneyPlaces exit.rawBalanceDelta := hraw ▸ hgross.sub hexitFee
  obtain ⟨happlied, hadjustment⟩ := limitedLiabilityDelta_eq_ok honraw hgrid hbalance h.delta
  dsimp only at happlied hadjustment
  have honapplied : OnGrid moneyPlaces exit.appliedBalanceDelta :=
    happlied ▸ honraw.max hgrid.neg
  have heffective : exit.effectiveGrossPnl = exit.grossPnl + exit.liquidationAdjustment :=
    Context.quantize_add hgross (hadjustment ▸ honapplied.sub honraw)
      (quantizeMoney_eq_ok.1 h.effective)
  have hclosedFees : closed.fees = trade.fees + exit.exitFee :=
    Context.quantize_add hfees hexitFee (quantizeMoney_eq_ok.1 h.fees)
  have hnet : exit.netPnl = exit.appliedBalanceDelta - trade.fees :=
    Context.quantize_sub honapplied hfees (quantizeMoney_eq_ok.1 h.net)
  obtain ⟨_, -, heq⟩ := h.closed_eq
  have hrealized : closed.realizedPnl = exit.netPnl := by rw [heq]
  refine ⟨hraw ▸ happlied, ?_, hclosedFees, hrealized.trans hnet, honapplied,
    hclosedFees ▸ hfees.add hexitFee, ?_⟩
  · rw [heffective, hadjustment, hraw]
    ring
  · rw [hrealized, hnet]
    exact honapplied.sub hfees

namespace Settles

variable (h : Settles balance trade exit closed)

include h

theorem le : exit.grossPnl ≤ exit.effectiveGrossPnl := by
  have := le_max_left (exit.grossPnl - exit.exitFee) (-balance)
  rw [h.effective, h.applied]
  linarith

theorem realizedPnl_eq : closed.realizedPnl = exit.effectiveGrossPnl - closed.fees := by
  rw [h.realizedPnl, h.effective, h.fees]
  ring

/-- A loss is written off once nothing is left. -/
theorem exhausted (hlt : exit.grossPnl < exit.effectiveGrossPnl) :
    balance + exit.appliedBalanceDelta = 0 := by
  have happlied := h.applied
  rcases max_choice (exit.grossPnl - exit.exitFee) (-balance) with hm | hm <;> rw [hm] at happlied
  · rw [h.effective, happlied] at hlt
    linarith
  · rw [happlied]
    ring

end Settles

/-! ## The account -/

/-- The amounts of a closed trade: what it realizes is what it brings, less its fees, and it
    brings no less than its prices say. -/
structure Trade.Squares (t : Trade) (exit : ExitPayload) : Prop where
  exit_eq : t.exit = some exit
  realizedPnl : t.realizedPnl = exit.effectiveGrossPnl - t.fees
  le : exit.grossPnl ≤ exit.effectiveGrossPnl

/-- The account of the simulation, of a session that starts with the `initial` balance. -/
structure Booked (initial : ℚ) (sim : Sim) : Prop where
  holdsOpen : HoldsOpen sim
  /-- The balance has 8 decimals, unless nothing has changed it. -/
  grid : sim.trades = [] ∧ sim.balance = initial ∨ OnGrid moneyPlaces sim.balance
  fees : ∀ t ∈ sim.trades, OnGrid moneyPlaces t.fees
  realizedPnl : ∀ t ∈ sim.trades, OnGrid moneyPlaces t.realizedPnl
  books : ∃ base, (OnGrid moneyPlaces initial → base = initial) ∧ |base - initial| ≤ MONEY_QUANTUM ∧
    sim.balance = base + (sim.trades.map Trade.booked).sum
  balance : 0 ≤ sim.balance
  equity : 0 ≤ sim.equity
  closed : ∀ t ∈ sim.trades, t.status = .closed → ∃ exit, t.Squares exit ∧
    (exit.grossPnl < exit.effectiveGrossPnl → sim.balance = 0 ∧ sim.open_ = none)

namespace Booked

/-- The account has nothing to do with the rest of the simulation. -/
theorem congr (h : Booked initial sim) (hbalance : sim'.balance = sim.balance)
    (hequity : 0 ≤ sim'.equity) (hopen : sim'.open_ = sim.open_)
    (htrades : sim'.trades = sim.trades) :
    Booked initial sim' := by
  have hholds := h.holdsOpen
  rw [HoldsOpen, ← hopen, ← htrades] at hholds
  refine ⟨hholds, ?_, ?_, ?_, ?_, ?_, hequity, ?_⟩
  · rw [hbalance, htrades]
    exact h.grid
  · rw [htrades]
    exact h.fees
  · rw [htrades]
    exact h.realizedPnl
  · rw [hbalance, htrades]
    exact h.books
  · rw [hbalance]
    exact h.balance
  · rw [hbalance, hopen, htrades]
    exact h.closed

/-- With an open trade, the balance has 8 decimals. -/
theorem onGrid (h : Booked initial sim) (hopen : sim.open_ = some trade) :
    OnGrid moneyPlaces sim.balance := by
  rcases h.grid with ⟨hnil, -⟩ | hgrid
  · have hholds := h.holdsOpen
    rw [HoldsOpen, hnil, hopen] at hholds
    cases hholds
  · exact hgrid

theorem leave (hs : Booked initial sim) (hopen : sim.open_ = some trade)
    (h : Leaves ctx plan candle trade decision sim exit closed sim') : Booked initial sim' := by
  obtain ⟨l₁, l₂, htrades, htrades', -, -⟩ := h.trades_eq hopen hs.holdsOpen
  have hmem : trade ∈ sim.trades := by simp [htrades]
  have hsub : ∀ t ∈ sim'.trades, t = closed ∨ t ∈ sim.trades := by
    intro t ht
    rw [htrades'] at ht
    rw [htrades]
    rcases List.mem_append.1 ht with ht | ht
    · exact .inr (List.mem_append_left _ ht)
    · rcases List.mem_cons.1 ht with rfl | ht
      · exact .inl rfl
      · exact .inr (List.mem_append_right _ (List.mem_cons_of_mem _ ht))
  have hgrid := hs.onGrid hopen
  have hsettles := h.closes.settles hgrid hs.balance (hs.fees _ hmem)
  have hbalance : sim'.balance = sim.balance + exit.appliedBalanceDelta :=
    Context.quantize_add hgrid hsettles.onGrid_applied (quantizeMoney_eq_ok.1 h.balance)
  refine ⟨(holdsOpen_kept ctx plan).leave hopen hs.holdsOpen h, .inr ?_, fun t ht => ?_,
    fun t ht => ?_, ?_, h.nonneg, ?_, fun t ht hclosed => ?_⟩
  · rw [hbalance]
    exact hgrid.add hsettles.onGrid_applied
  · rcases hsub t ht with rfl | ht
    · exact hsettles.onGrid_fees
    · exact hs.fees t ht
  · rcases hsub t ht with rfl | ht
    · exact hsettles.onGrid_realizedPnl
    · exact hs.realizedPnl t ht
  · -- what the trade had paid to enter is now in what it has realized
    obtain ⟨base, hbase, herr, hbooks⟩ := hs.books
    refine ⟨base, hbase, herr, ?_⟩
    have hopened : trade.booked = -trade.fees := by
      have hstatus : trade ∈ openTrades sim.trades := by
        rw [hs.holdsOpen, hopen]
        exact List.mem_singleton_self _
      rw [Trade.booked, of_decide_eq_true (List.mem_filter.1 hstatus).2]
    have hclosed : closed.booked = exit.appliedBalanceDelta - trade.fees := by
      rw [Trade.booked, h.status]
      exact hsettles.realizedPnl
    rw [hbalance, hbooks, htrades, htrades']
    simp only [List.map_append, List.map_cons, List.sum_append, List.sum_cons, hopened, hclosed]
    ring
  · rw [h.equity]
    exact h.nonneg
  · rcases hsub t ht with rfl | ht
    · obtain ⟨_, -, heq⟩ := h.closes.closed_eq
      refine ⟨exit, ⟨by rw [heq], hsettles.realizedPnl_eq, hsettles.le⟩, fun hlt => ⟨?_, h.open_⟩⟩
      rw [hbalance]
      exact hsettles.exhausted hlt
    · obtain ⟨exit', hsquares, hlimited⟩ := hs.closed t ht hclosed
      refine ⟨exit', hsquares, fun hlt => ?_⟩
      have := (hlimited hlt).2
      rw [hopen] at this
      cases this

theorem enter {decision : Decision} (hs : Booked initial sim)
    (h : Enters ctx plan candle sim decision trade sim') : Booked initial sim' := by
  obtain ⟨_, ho⟩ := openTrade_eq_ok h.opens
  have htrades := insertTrade_eq_ok h.trades
  have hfees : OnGrid moneyPlaces trade.fees :=
    Context.onGrid_quantize (quantizeMoney_eq_ok.1 ho.fee)
  have hquantize := quantizeMoney_eq_ok.1 h.balance
  have hgrid : OnGrid moneyPlaces sim'.balance := Context.onGrid_quantize hquantize
  have hmem : ∀ t ∈ sim'.trades, t = trade ∨ t ∈ sim.trades := by
    intro t ht
    rw [htrades] at ht
    simpa [or_comm] using ht
  refine ⟨(holdsOpen_kept ctx plan).enter hs.holdsOpen h, .inr hgrid, fun t ht => ?_,
    fun t ht => ?_, ?_, ?_, ?_, fun t ht hclosed => ?_⟩
  · rcases hmem t ht with rfl | ht
    · exact hfees
    · exact hs.fees t ht
  · rcases hmem t ht with rfl | ht
    · rw [ho.realizedPnl]
      exact .zero _
    · exact hs.realizedPnl t ht
  · obtain ⟨base, hbase, herr, hbooks⟩ := hs.books
    have hbooked : (sim'.trades.map Trade.booked).sum =
        (sim.trades.map Trade.booked).sum - trade.fees := by
      rw [htrades]
      simp only [List.map_append, List.map_cons, List.map_nil, List.sum_append, List.sum_cons,
        List.sum_nil, Trade.booked, ho.status]
      ring
    by_cases hon : OnGrid moneyPlaces sim.balance
    · refine ⟨base, hbase, herr, ?_⟩
      rw [Context.quantize_sub hon hfees hquantize, hbooked, hbooks]
      ring
    · -- the first entry drops the decimals of the initial balance
      rcases hs.grid with ⟨hnil, hinitial⟩ | hon'
      · have hnew : (sim'.trades.map Trade.booked).sum = -trade.fees := by
          rw [hbooked, hnil]
          simp
        refine ⟨sim'.balance + trade.fees, fun hi => absurd (hinitial ▸ hi) hon, ?_, ?_⟩
        · have := Context.abs_quantize_fit_sub_le hquantize
          rw [hinitial] at this
          rw [MONEY_QUANTUM]
          convert this using 2
          ring
        · rw [hnew]
          ring
      · exact absurd hon' hon
  · refine Context.quantize_nonneg hquantize (Context.fit_nonneg ?_)
    linarith [ho.affordable]
  · rw [h.equity]
    exact hs.equity
  · rcases hmem t ht with rfl | ht
    · rw [ho.status] at hclosed
      cases hclosed
    · obtain ⟨exit, hsquares, hlimited⟩ := hs.closed t ht hclosed
      refine ⟨exit, hsquares, fun hlt => absurd (hlimited hlt).1 h.account.2.ne'⟩

theorem mark {mark : Mark} (hs : Booked initial sim) (h : Marks ctx plan candle sim mark sim') :
    Booked initial sim' := by
  have hequity : 0 ≤ mark.equity := by
    have he := h.equity
    rcases ho : sim.open_ with _ | t <;> rw [ho] at he <;>
      simp only [markedEquity, bind_eq_ok, pure_eq_ok, Prod.mk.injEq, quantizeMoney_eq_ok] at he
    · obtain ⟨equity, hq, rfl, -⟩ := he
      exact Context.quantize_nonneg hq hs.balance
    · obtain ⟨_, -, _, -, _, -, equity, hq, rfl, -⟩ := he
      exact Context.quantize_nonneg hq (le_max_left _ _)
  rw [h.sim]
  exact hs.congr rfl hequity rfl rfl

/-- The candles of a step keep the account. -/
theorem kept (ctx : Context) (plan : Plan) (initial : ℚ) : Kept ctx plan (Booked initial) where
  leave hopen hs h := hs.leave hopen h
  skip _ _ hs := hs.congr rfl hs.equity rfl rfl
  enter hs h := hs.enter h
  mark hs h := hs.mark h

end Booked

/-! ## Sessions -/

/-- The totals of the session are the sums of its trades. -/
structure Sums (initial : ℚ) (trades : List Trade) (totals : Totals) : Prop where
  realizedPnl : totals.realizedPnl = realizedSum trades
  feesPaid : totals.feesPaid = (trades.map (·.fees)).sum
  netPnl : OnGrid moneyPlaces initial → totals.netPnl = realizedSum trades - openFees trades
  netPnl_close : |totals.netPnl - (realizedSum trades - openFees trades)| ≤ 2 * MONEY_QUANTUM

theorem Booked.sums {totals : Totals} (h : Booked plan.session.initialBalance sim)
    (ht : Simulation.totals ctx plan sim = .ok totals) :
    Sums plan.session.initialBalance sim.trades totals := by
  simp only [Simulation.totals, bind_eq_ok, pure_eq_ok, quantizeMoney_eq_ok] at ht
  obtain ⟨realized, hrealized, fees, hfees, net, hnet, _, -, rfl⟩ := ht
  obtain ⟨base, hbase, herr, hbooks⟩ := h.books
  rw [booked_sum] at hbooks
  refine ⟨Context.quantize_self (.sum fun q hq => ?_) hrealized,
    Context.quantize_self (.sum fun q hq => ?_) hfees, fun hgrid => ?_, ?_⟩
  · obtain ⟨t, ht, rfl⟩ := List.mem_map.1 hq
    exact h.realizedPnl t (List.mem_filter.1 ht).1
  · obtain ⟨t, ht, rfl⟩ := List.mem_map.1 hq
    exact h.fees t ht
  · -- Either no trade was booked yet and the balance is the initial one, or it was rounded.
    have hbalance : OnGrid moneyPlaces sim.balance := by
      rcases h.grid with ⟨-, hb⟩ | hb
      · rwa [hb]
      · exact hb
    change net = _
    rw [Context.quantize_sub hbalance hgrid hnet, hbooks, hbase hgrid]
    ring
  · have hnet := Context.abs_quantize_fit_sub_le hnet
    rw [hbooks] at hnet
    change |net - _| ≤ _
    rw [MONEY_QUANTUM] at herr ⊢
    rw [abs_le] at hnet herr ⊢
    constructor <;> linarith [hnet.1, hnet.2, herr.1, herr.2]

/-- The account of a session: the balance is what the trades have left of the initial one. -/
structure Accounted (db : Db) : Prop where
  one : (openTrades db.trades).length ≤ 1
  balance : 0 ≤ db.session.balance
  equity : 0 ≤ db.session.equity
  books : OnGrid moneyPlaces db.session.initialBalance → db.session.balance =
    db.session.initialBalance + realizedSum db.trades - openFees db.trades
  books_close : |db.session.balance - (db.session.initialBalance + realizedSum db.trades -
    openFees db.trades)| ≤ MONEY_QUANTUM
  closed : ∀ t ∈ db.trades, t.status = .closed → ∃ exit, t.Squares exit ∧
    (exit.grossPnl < exit.effectiveGrossPnl → db.session.balance = 0)
  totals : db.session.cursorTime = none ∨ ∃ totals, db.session.summary.totals = some totals ∧
    Sums db.session.initialBalance db.trades totals

/-- The account of the session, as the next step loads it. -/
structure Account (db : Db) : Prop where
  booked : Booked db.session.initialBalance (start db.session db.trades "")
  totals : db.session.cursorTime = none ∨ ∃ totals, db.session.summary.totals = some totals ∧
    Sums db.session.initialBalance db.trades totals

theorem Fresh.account (h : Fresh db n) (hinitial : 0 ≤ db.session.initialBalance) : Account db := by
  have hbalance : (start db.session db.trades "").balance = db.session.initialBalance := h.balance
  have hequity : (start db.session db.trades "").equity = db.session.initialBalance := h.equity
  have htrades : (start db.session db.trades "").trades = [] := h.trades
  refine ⟨⟨holdsOpen_start (by simp [h.trades, openTrades]), .inl ⟨htrades, hbalance⟩, ?_, ?_,
    ⟨db.session.initialBalance, fun _ => rfl, ?_, ?_⟩, hbalance ▸ hinitial, ?_, ?_⟩,
    .inl h.cursor⟩
  · simp [htrades]
  · simp [htrades]
  · rw [sub_self, abs_zero, MONEY_QUANTUM]
    positivity
  · simp [htrades, hbalance]
  · exact hequity ▸ hinitial
  · simp [htrades]

section step

variable {request : StepRequest} {db' : Db} {candles : {l : List Candle // l ≠ []}}
  {decisions : List Decision} {totals : Totals}

/-- A step starts with the account of the session, and keeps it. -/
theorem Stepped.booked (h : Stepped ctx request db candles decisions plan sim totals db')
    (ha : Account db) : Booked db'.session.initialBalance sim := by
  have hinitial : plan.session.initialBalance = db.session.initialBalance := by
    rw [h.plan_session]
    rfl
  have hstart : Booked plan.session.initialBalance
      (start plan.session db.trades request.requestId) := by
    rw [hinitial]
    refine ha.booked.congr ?_ ?_ rfl rfl
    · rw [h.plan_session]
      rfl
    · rw [h.plan_session]
      exact ha.booked.equity
  rw [h.initialBalance_eq, ← hinitial]
  exact (Booked.kept ctx plan _).run h.sim_eq hstart

/-- The totals of a step are the sums of the trades. -/
theorem Stepped.sums (h : Stepped ctx request db candles decisions plan sim totals db')
    (ha : Account db) : Sums db'.session.initialBalance db'.trades totals := by
  have hinitial : plan.session.initialBalance = db'.session.initialBalance := by
    rw [h.initialBalance_eq, h.plan_session]
    rfl
  have hbooked := h.booked ha
  rw [h.trades, ← hinitial]
  rw [← hinitial] at hbooked
  exact hbooked.sums h.totals_eq

/-- Between two steps, the account is in the database. -/
theorem Stepped.account (h : Stepped ctx request db candles decisions plan sim totals db')
    (ha : Account db) : Account db' := by
  have hsim := h.booked ha
  obtain ⟨summary, -, htotals, hsession⟩ := h.session
  refine ⟨?_, .inr ⟨totals, by rw [hsession]; exact htotals, h.sums ha⟩⟩
  rw [h.trades]
  refine hsim.congr ?_ ?_ hsim.holdsOpen.loadOpenTrade rfl
  · rw [hsession]
    rfl
  · rw [hsession]
    exact hsim.equity

end step

theorem Account.accounted (h : Account db) : Accounted db := by
  obtain ⟨base, hbase, herr, hbooks⟩ := h.booked.books
  rw [booked_sum] at hbooks
  have hbooks : db.session.balance = base + (realizedSum db.trades - openFees db.trades) := hbooks
  refine ⟨h.booked.holdsOpen.le_one, h.booked.balance, h.booked.equity, fun hgrid => ?_, ?_,
    fun t ht hclosed => ?_, h.totals⟩
  · rw [hbooks, hbase hgrid]
    ring
  · rw [hbooks]
    convert herr using 2
    ring
  · obtain ⟨exit, hsquares, hlimited⟩ := h.booked.closed t ht hclosed
    exact ⟨exit, hsquares, fun hlt => (hlimited hlt).1⟩

/-- The most that a session starts with. -/
def maxBalance : ℚ := 1000000000000

theorem startSession_initialBalance {request : StartRequest} {now : ℤ} {source : CandleTable}
    (h : startSession request now source = .ok db) :
    0 ≤ db.session.initialBalance ∧ db.session.initialBalance ≤ maxBalance := by
  simp only [startSession, bind_eq_ok, pure_eq_ok, require_eq_ok] at h
  obtain ⟨q, hq, -, -, balance, hbalance, -, -, -, -, rfl⟩ := h
  -- The request is checked first; the column then rounds to eighteen places.
  have hrange : 0 < q ∧ q ≤ maxBalance := by
    rw [positiveDecimal] at hq
    split at hq
    · cases hq
    · cases hq
    split at hq
    · cases hq
    rename_i hpos
    split at hq
    · cases hq
    rename_i hmax
    obtain rfl := Except.ok.inj hq
    exact ⟨not_le.1 hpos, not_lt.1 hmax⟩
  rw [column, numeric] at hbalance
  split at hbalance
  · rename_i heq
    obtain rfl := Except.ok.inj hbalance
    obtain ⟨-, heq⟩ := Option.ite_none_right_eq_some.1 heq
    rw [if_neg hrange.1.not_gt] at heq
    have hnonneg : 0 ≤ ⌊|q| * 10 ^ 18 + 1 / 2⌋ := Int.floor_nonneg.2 (by positivity)
    have hle : ⌊|q| * 10 ^ 18 + 1 / 2⌋ ≤ 10 ^ 30 := by
      refine Int.floor_le_iff.2 ?_
      rw [abs_of_pos hrange.1]
      have := hrange.2
      rw [maxBalance] at this
      push_cast
      linarith
    have hle : (⌊|q| * 10 ^ 18 + 1 / 2⌋ : ℚ) ≤ 10 ^ 30 := by exact_mod_cast hle
    rw [← Option.some.inj heq]
    refine ⟨by positivity, ?_⟩
    rw [div_le_iff₀ (by positivity), maxBalance]
    linarith
  · cases hbalance

/-- However many steps of a session succeed, its account is in order. -/
theorem stepAll_accounted {request : StartRequest} {now : ℤ} {source : CandleTable} {db' : Db}
    {requests : List StepRequest} (hstart : startSession request now source = .ok db)
    (h : stepAll ctx requests db = .ok db') : Accounted db' := by
  obtain ⟨n, hfresh⟩ := startSession_fresh hstart
  obtain ⟨_, -, haccount⟩ := stepAll_keeps (P := fun _ => Account)
    (fun _ _ ha hs _ _ _ _ _ => hs.account ha) hfresh.tidy
    (hfresh.account (startSession_initialBalance hstart).1) h
  exact haccount.accounted

/-- The account of the session of rising prices, of which a trade is closed. -/
theorem stepAll_accounted_rising : ∃ db db', risingStart = .ok db ∧
    stepAll .default [risingStep] db = .ok db' ∧ (closedTrades db'.trades).length = 1 ∧
    Accounted db' := by
  obtain ⟨db, db', -, hdb, h, -, hclosed, -⟩ := rising_runs
  exact ⟨db, db', hdb, h, hclosed, stepAll_accounted hdb h⟩

/-- When the initial balance has more than 8 decimals, the net profit is not the sum of what the
    trades have realized. -/
theorem not_netPnl_rising : ¬ ∀ request now source db, startSession request now source = .ok db →
    ∀ requests db', stepAll .default requests db = .ok db' →
      ∀ totals, db'.session.summary.totals = some totals →
        totals.netPnl = realizedSum db'.trades - openFees db'.trades := by
  intro hall
  obtain ⟨db, db', -, hdb, h, -, -, hne, -⟩ := rising_runs
  obtain ⟨totals, htotals, hne⟩ := hne
  exact hne (hall _ _ _ db hdb _ db' h totals htotals)

end IntradayBot.Replay
