import IntradayBot.Data.Bar
import IntradayBot.Replay.Trading

/-!
# Exits

A replay leaves a trade at the first candle that reaches its stop or its target. Within the candle
it knows four prices, and supposes that the stop comes first. Against any path of the price that
reaches the high and the low of each candle, an order at the stop and one at the target fill on the
same candle, at no worse a price. A path that is only known to stay between the low and the high
may fill neither.
-/

namespace IntradayBot.Replay

open Set Simulation

variable {ctx : Decimal.Context} {trade : Trade} {candle : Candle} {decision : Option ExitDecision}

deriving instance DecidableEq for ExitDecision

/-- The prices of a candle. -/
def Candle.prices (candle : Candle) : Bar ℚ where
  open_ := candle.openPrice
  high := candle.highPrice
  low := candle.lowPrice
  close := candle.closePrice

/-- The bar of the paths of a candle. -/
noncomputable def Candle.bar (candle : Candle) : Bar ℝ := candle.prices.map fun q : ℚ => (q : ℝ)

/-- A candle, and how its price moved. -/
abbrev Bars := List (Candle × (ℝ → ℝ))

/-- The price at which the path of a candle leaves the trade. -/
def LeavesAt (trade : Trade) (path : ℝ → ℝ) (price : ℚ) : Prop :=
  Fills trade.payload.stopLoss trade.payload.takeProfit path price

/-- The candle at which the paths leave the trade, and the price. -/
inductive PathExit (trade : Trade) : Bars → ℕ → ℚ → Prop
  | here {candle : Candle} {path : ℝ → ℝ} {bars : Bars} {price : ℚ} :
      LeavesAt trade path price → PathExit trade ((candle, path) :: bars) 0 price
  | later {candle : Candle} {path : ℝ → ℝ} {bars : Bars} {n : ℕ} {price : ℚ} :
      (∀ price, ¬LeavesAt trade path price) → PathExit trade bars n price →
      PathExit trade ((candle, path) :: bars) (n + 1) price

/-- The candle at which the replay leaves the trade, and its decision. -/
def exitAt (trade : Trade) : List Candle → Except ReplayError (Option (ℕ × ExitDecision))
  | [] => return none
  | candle :: candles => do
    match ← exitDecision trade candle with
    | some decision => return some (0, decision)
    | none => return (← exitAt trade candles).map fun (n, decision) => (n + 1, decision)

/-- What is better to sell at for a long trade is better to buy at for a short one. -/
def NoBetter : Side → ℚ → ℚ → Prop
  | .buy, x, y => x ≤ y
  | .sell, x, y => y ≤ x

/-! ## A candle -/

/-- The price at which a candle leaves a trade, if it does: a short one is left as a long one is at
    the negated prices. -/
def exitPrice (trade : Trade) (candle : Candle) : Option ℚ :=
  let stop := trade.payload.stopLoss
  let target := trade.payload.takeProfit
  match trade.side with
  | .buy => candle.prices.exit stop target
  | .sell => (candle.prices.neg.exit (-stop) (-target)).map fun q => -q

/-- The checks of the decision on a later candle, and its price. -/
theorem exitDecision_eq_ok (hlater : trade.entryTime < candle.openTime)
    (h : exitDecision trade candle = .ok decision) :
    (0 < trade.payload.stopLoss ∧ 0 < trade.payload.takeProfit ∧ 0 < candle.openPrice) ∧
      decision.map (·.price) = exitPrice trade candle := by
  simp only [exitDecision, bind_eq_ok, positive_eq_ok] at h
  obtain ⟨_, ⟨hstop, rfl⟩, _, ⟨htarget, rfl⟩, h⟩ := h
  rw [if_neg hlater.not_ge] at h
  simp only [bind_eq_ok, positive_eq_ok] at h
  obtain ⟨_, ⟨hopen, rfl⟩, _, ⟨-, rfl⟩, _, ⟨-, rfl⟩, h⟩ := h
  refine ⟨⟨hstop, htarget, hopen⟩, ?_⟩
  rw [exitPrice]
  rcases hside : trade.side with _ | _ <;> rw [hside] at h <;> dsimp only at h ⊢
  · -- long
    rw [Bar.exit, Candle.prices]
    dsimp only
    split at h
    · rename_i hlow
      obtain rfl := pure_eq_ok.1 h
      rw [if_pos hlow, Option.map_some, ← min_def_lt]
    rename_i hlow
    rw [if_neg hlow]
    split at h
    · rename_i hhigh
      obtain rfl := pure_eq_ok.1 h
      rw [if_pos hhigh, Option.map_some]
    · rename_i hhigh
      obtain rfl := pure_eq_ok.1 h
      rw [if_neg hhigh, Option.map_none]
  · -- short
    rw [Bar.exit, Bar.neg, Candle.prices]
    dsimp only
    simp only [neg_le_neg_iff]
    split at h
    · rename_i hhigh
      obtain rfl := pure_eq_ok.1 h
      rw [if_pos hhigh, Option.map_some, Option.map_some, min_neg_neg, neg_neg, max_comm,
        ← max_def_lt]
    rename_i hhigh
    rw [if_neg hhigh]
    split at h
    · rename_i hlow
      obtain rfl := pure_eq_ok.1 h
      rw [if_pos hlow, Option.map_some, Option.map_some, neg_neg]
    · rename_i hlow
      obtain rfl := pure_eq_ok.1 h
      rw [if_neg hlow, Option.map_none, Option.map_none]

/-- A trade is left at the first price of a candle, at its stop or at its target. -/
theorem exitPrice_eq_some {price : ℚ} (h : exitPrice trade candle = some price) :
    price = candle.openPrice ∨ price = trade.payload.stopLoss ∨ price = trade.payload.takeProfit := by
  rw [exitPrice] at h
  rcases hside : trade.side with _ | _ <;> rw [hside] at h <;> dsimp only at h
  · rw [Bar.exit] at h
    split at h
    · rw [← Option.some.inj h]
      exact (min_choice _ _).imp id .inl
    split at h
    · exact .inr (.inr (Option.some.inj h).symm)
    · cases h
  · rw [Bar.exit, Option.map_eq_some_iff] at h
    obtain ⟨x, h, rfl⟩ := h
    split at h
    · rw [← Option.some.inj h, Bar.neg]
      dsimp only
      rw [min_neg_neg, neg_neg]
      exact (max_choice _ _).imp id .inl
    split at h
    · rw [← Option.some.inj h, neg_neg]
      exact .inr (.inr rfl)
    · cases h

/-- A decision to leave is at a positive price. -/
theorem exitDecision_pos {decision : ExitDecision}
    (h : exitDecision trade candle = .ok (some decision)) : 0 < decision.price := by
  by_cases hlater : trade.entryTime < candle.openTime
  · obtain ⟨⟨hstop, htarget, hopen⟩, hprice⟩ := exitDecision_eq_ok hlater h
    rcases exitPrice_eq_some hprice.symm with heq | heq | heq
    · exact hopen.trans_eq heq.symm
    · exact hstop.trans_eq heq.symm
    · exact htarget.trans_eq heq.symm
  · simp only [exitDecision, bind_eq_ok, positive_eq_ok] at h
    obtain ⟨_, ⟨hstop, rfl⟩, _, ⟨htarget, rfl⟩, h⟩ := h
    rw [if_pos (not_lt.1 hlater)] at h
    cases h

/-- On a candle all of whose prices are positive, there is a decision. -/
theorem exists_exitDecision (hstop : 0 < trade.payload.stopLoss)
    (htarget : 0 < trade.payload.takeProfit) (hopen : 0 < candle.openPrice)
    (hhigh : 0 < candle.highPrice) (hlow : 0 < candle.lowPrice) :
    ∃ decision, exitDecision trade candle = .ok decision := by
  have hpositive : ∀ {value : ℚ} {field : String}, 0 < value → positive value field = .ok value :=
    fun h => positive_eq_ok.2 ⟨h, rfl⟩
  have hif : ∀ {c₁ c₂ : Prop} [Decidable c₁] [Decidable c₂] (d₁ d₂ d₃ : Option ExitDecision),
      ∃ d, (if c₁ then pure d₁ else if c₂ then pure d₂ else pure d₃ :
        Except ReplayError (Option ExitDecision)) = .ok d := by
    intro c₁ c₂ _ _ d₁ d₂ d₃
    split
    · exact ⟨_, rfl⟩
    split
    · exact ⟨_, rfl⟩
    · exact ⟨_, rfl⟩
  have hbind : ∀ (q : ℚ) (f : ℚ → Except ReplayError (Option ExitDecision)),
      (Except.ok q >>= f) = f q := fun _ _ => rfl
  -- All five prices pass their check, and what is left are choices between decisions.
  simp only [exitDecision, hpositive hstop, hpositive htarget, hpositive hopen, hpositive hhigh,
    hpositive hlow, hbind]
  by_cases hlater : candle.openTime ≤ trade.entryTime
  · exact ⟨none, by rw [if_pos hlater]; rfl⟩
  rw [if_neg hlater]
  rcases trade.side with _ | _
  · exact hif _ _ _
  · exact hif _ _ _

/-- Of a long trade, whose stop is below its target. -/
theorem exit_conservative {b : Bar ℚ} {stop target : ℚ} {path : ℝ → ℝ} (hlt : stop < target)
    (hpath : (b.map fun q : ℚ => (q : ℝ)).IsPath path) :
    ((b.exit stop target).isSome ↔ ∃ price : ℚ, Fills stop target path price) ∧
      ∀ x y : ℚ, b.exit stop target = some x → Fills stop target path y → x ≤ y := by
  have hlt' : (stop : ℝ) < target := by exact_mod_cast hlt
  have hexit : (b.map fun q : ℚ => (q : ℝ)).exit (stop : ℝ) target =
      (b.exit stop target).map fun q : ℚ => (q : ℝ) :=
    Bar.exit_map Rat.cast_strictMono b stop target
  constructor
  · rw [← Option.isSome_map (f := fun q : ℚ => (q : ℝ)), ← hexit, Bar.exit_isSome_iff hlt' hpath]
    constructor
    · rintro ⟨q, hq⟩
      -- what fills, fills at the first price or at a level
      have hstart : path 0 = (b.open_ : ℝ) := hpath.start
      rcases hq.eq with rfl | rfl | rfl
      · rw [hstart] at hq
        exact ⟨_, hq⟩
      · exact ⟨_, hq⟩
      · exact ⟨_, hq⟩
    · rintro ⟨price, hprice⟩
      exact ⟨_, hprice⟩
  · intro x y hx hy
    have := Bar.exit_le_of_fills (x := x) hlt' hpath (by rw [hexit, hx]; rfl) hy
    exact_mod_cast this

/-- A path leaves a trade on the candles on which the replay does, and at no worse a price. -/
theorem exitPrice_conservative {path : ℝ → ℝ} {entry : ℚ}
    (hprotected : Protected trade.side entry trade.payload.stopLoss trade.payload.takeProfit)
    (hpath : candle.bar.IsPath path) :
    ((exitPrice trade candle).isSome ↔ ∃ price, LeavesAt trade path price) ∧
      ∀ x y, exitPrice trade candle = some x → LeavesAt trade path y →
        NoBetter trade.side x y := by
  rcases hside : trade.side with _ | _ <;> rw [hside] at hprotected <;>
    simp only [exitPrice, hside]
  · exact exit_conservative (hprotected.1.trans hprotected.2) hpath
  · -- a short trade, at the negated prices
    have hneg : ∀ y : ℚ, LeavesAt trade path y ↔
        Fills ((-trade.payload.stopLoss : ℚ) : ℝ) ((-trade.payload.takeProfit : ℚ) : ℝ)
          (fun t => -path t) ((-y : ℚ) : ℝ) := by
      intro y
      push_cast
      refine ⟨Fills.neg, fun h => ?_⟩
      rw [LeavesAt]
      simpa only [neg_neg] using h.neg
    have hbar : candle.bar.neg = candle.prices.neg.map fun q : ℚ => (q : ℝ) := by
      simp only [Candle.bar, Bar.map, Bar.neg, Rat.cast_neg]
    obtain ⟨hsome, hle⟩ := exit_conservative
      (neg_lt_neg (hprotected.1.trans hprotected.2)) (hbar ▸ hpath.neg)
    constructor
    · rw [Option.isSome_map, hsome]
      constructor
      · rintro ⟨y, hy⟩
        exact ⟨-y, (hneg (-y)).2 (by rwa [neg_neg])⟩
      · rintro ⟨y, hy⟩
        exact ⟨-y, (hneg y).1 hy⟩
    · intro x y hx hy
      obtain ⟨x', hx', rfl⟩ := Option.map_eq_some_iff.1 hx
      have := hle x' (-y) hx' ((hneg y).1 hy)
      exact le_neg_of_le_neg this

/-! ## The series up to the exit -/

/-- The gross profit is no better where the price is no better. -/
theorem grossPnl_le {side : Side} {entry x y quantity g g' : ℚ} (hquantity : 0 ≤ quantity)
    (hxy : NoBetter side x y) (hg : grossPnl ctx side entry x quantity = .ok g)
    (hg' : grossPnl ctx side entry y quantity = .ok g') : g ≤ g' := by
  rw [grossPnl, quantizeMoney_eq_ok] at hg hg'
  refine Decimal.Context.quantize_mono hg hg' (Decimal.Context.fit_mono ?_)
  rcases side with _ | _
  · have hsub : ctx.sub x entry ≤ ctx.sub y entry := Decimal.Context.fit_mono (sub_le_sub_right hxy _)
    simp only [direction, mul_one]
    exact Decimal.Context.fit_mono (mul_le_mul_of_nonneg_right hsub hquantity)
  · have hsub : ctx.sub y entry ≤ ctx.sub x entry := Decimal.Context.fit_mono (sub_le_sub_right hxy _)
    simp only [direction, mul_neg, mul_one]
    exact neg_le_neg (Decimal.Context.fit_mono (mul_le_mul_of_nonneg_right hsub hquantity))

/-- The paths leave a trade where the replay does: by induction on the candles, each of which
    either leaves it in both or in none. -/
theorem exitAt_conservative {bars : Bars} {exit : Option (ℕ × ExitDecision)} {entry : ℚ}
    (hprotected : Protected trade.side entry trade.payload.stopLoss trade.payload.takeProfit)
    (hlater : ∀ bar ∈ bars, trade.entryTime < bar.1.openTime)
    (hpaths : ∀ bar ∈ bars, bar.1.bar.IsPath bar.2)
    (h : exitAt trade (bars.map Prod.fst) = .ok exit) (n : ℕ) :
    ((∃ decision, exit = some (n, decision)) ↔ ∃ price, PathExit trade bars n price) ∧
      ∀ decision price, exit = some (n, decision) → PathExit trade bars n price →
        NoBetter trade.side decision.price price := by
  induction bars generalizing exit n with
  | nil =>
    obtain rfl := pure_eq_ok.1 h
    refine ⟨⟨fun ⟨_, hexit⟩ => ?_, fun ⟨_, hexit⟩ => ?_⟩, fun _ _ hexit => ?_⟩
    · cases hexit
    · cases hexit
    · cases hexit
  | cons bar bars ih =>
    obtain ⟨candle, path⟩ := bar
    rw [List.forall_mem_cons] at hlater hpaths
    rw [List.map_cons, exitAt, bind_eq_ok] at h
    obtain ⟨decision, hdecision, h⟩ := h
    obtain ⟨-, hprice⟩ := exitDecision_eq_ok hlater.1 hdecision
    obtain ⟨hsome, hbetter⟩ := exitPrice_conservative hprotected hpaths.1
    rw [← hprice] at hsome hbetter
    rcases decision with _ | decision
    · -- the replay holds on, and so does the path
      have hnone : ∀ price, ¬LeavesAt trade path price := fun price hx => by
        simpa using hsome.2 ⟨price, hx⟩
      simp only [bind_eq_ok, pure_eq_ok] at h
      obtain ⟨exit, hexit, rfl⟩ := h
      rcases n with _ | n
      · refine ⟨⟨fun ⟨d, hd⟩ => ?_, fun ⟨x, hx⟩ => ?_⟩, fun d x hd => ?_⟩
        · obtain ⟨_, -, heq⟩ := Option.map_eq_some_iff.1 hd
          cases heq
        · cases hx with
          | here hx => exact absurd hx (hnone _)
        · obtain ⟨_, -, heq⟩ := Option.map_eq_some_iff.1 hd
          cases heq
      · obtain ⟨hiff, hle⟩ := ih hlater.2 hpaths.2 hexit n
        have hshift : ∀ d, exit.map (fun (n, d) => (n + 1, d)) = some (n + 1, d) ↔
            exit = some (n, d) := by
          intro d
          rcases exit with _ | ⟨m, d'⟩
          · simp
          · simp
        have hpath : ∀ x, PathExit trade ((candle, path) :: bars) (n + 1) x ↔
            PathExit trade bars n x := by
          intro x
          constructor
          · intro hx
            cases hx with
            | later _ hx => exact hx
          · exact .later hnone
        simp only [hshift, hpath]
        exact ⟨hiff, hle⟩
    · -- both leave on the candle
      obtain rfl := pure_eq_ok.1 h
      obtain ⟨price, hprice⟩ := hsome.1 rfl
      rcases n with _ | n
      · refine ⟨⟨fun _ => ⟨price, .here hprice⟩, fun _ => ⟨decision, rfl⟩⟩, ?_⟩
        intro d x hd hx
        obtain rfl : decision = d := (Prod.mk.inj (Option.some.inj hd)).2
        cases hx with
        | here hx => exact hbetter _ _ rfl hx
      · refine ⟨⟨fun ⟨d, hd⟩ => ?_, fun ⟨x, hx⟩ => ?_⟩, fun d x hd => ?_⟩
        · cases hd
        · cases hx with
          | later hnone _ => exact absurd hprice (hnone _)
        · cases hd

theorem exists_exitAt {candles : List Candle} (hstop : 0 < trade.payload.stopLoss)
    (htarget : 0 < trade.payload.takeProfit) (hcandles : ∀ candle ∈ candles,
      0 < candle.openPrice ∧ 0 < candle.highPrice ∧ 0 < candle.lowPrice) :
    ∃ exit, exitAt trade candles = .ok exit := by
  induction candles with
  | nil => exact ⟨none, rfl⟩
  | cons candle candles ih =>
    rw [List.forall_mem_cons] at hcandles
    obtain ⟨⟨hopen, hhigh, hlow⟩, hcandles⟩ := hcandles
    obtain ⟨decision, hdecision⟩ := exists_exitDecision hstop htarget hopen hhigh hlow
    obtain ⟨exit, hexit⟩ := ih hcandles
    rw [exitAt, hdecision]
    rcases decision with _ | decision
    · exact ⟨_, by rw [bind_eq_ok]; exact ⟨none, rfl, by rw [hexit]; rfl⟩⟩
    · exact ⟨_, rfl⟩

/-! ## The simulation -/

/-- The simulation leaves a trade where `exitAt` says, and holds it until then: it enters no other
    one meanwhile, and the session does not end. -/
theorem run_exitAt {plan : Plan} {sim sim' : Sim} {candles : List Candle}
    (hopen : sim.open_ = some trade) (hfinal : ∀ candle ∈ candles, plan.isFinal candle = false)
    (h : candles.foldlM (simulateCandle ctx plan) sim = .ok sim') :
    ∃ exit, exitAt trade candles = .ok exit ∧ (exit = none → sim'.open_ = some trade) ∧
      ∀ n decision, exit = some (n, decision) → ∃ candle sim₁ sim₂ payload closed,
        candles[n]? = some candle ∧
        (candles.take n).foldlM (simulateCandle ctx plan) sim = .ok sim₁ ∧
        exits ctx plan candle sim₁ = .ok sim₂ ∧
        Leaves ctx plan candle trade decision sim₁ payload closed sim₂ := by
  induction candles generalizing sim with
  | nil =>
    obtain rfl := pure_eq_ok.1 h
    exact ⟨none, rfl, fun _ => hopen, fun _ _ hsome => by cases hsome⟩
  | cons candle candles ih =>
    rw [List.forall_mem_cons] at hfinal
    rw [List.foldlM_cons, bind_eq_ok] at h
    obtain ⟨sim₁, hsim₁, h⟩ := h
    obtain ⟨s₁, s₂, s₃, -, h₁, h₂, h₃, h₄⟩ := simulateCandle_eq_ok hsim₁
    have hexits := h₁
    rw [exits, hopen] at hexits
    obtain ⟨decision, hdecision, hexits⟩ := bind_eq_ok.1 hexits
    rcases decision with _ | decision
    · -- the trade is still open after the candle
      obtain rfl := pure_eq_ok.1 hexits
      have hs₂ : s₂.open_ = some trade := by
        rcases enters_cases h₂ with rfl | ⟨_, _, rfl⟩ | ⟨_, _, henters⟩
        · exact hopen
        · exact hopen
        · have := henters.free
          rw [hopen] at this
          cases this
      have hs₃ : s₃ = s₂ := by
        rw [ends, hs₂] at h₃
        dsimp only at h₃
        rw [hfinal.1] at h₃
        exact (pure_eq_ok.1 h₃).symm
      have hopen₁ : sim₁.open_ = some trade := by
        obtain ⟨mark, hmark⟩ := marks_eq_ok h₄
        rw [hmark.sim, hs₃]
        exact hs₂
      obtain ⟨exit, hexit, hnone, hsome⟩ := ih hopen₁ hfinal.2 h
      refine ⟨exit.map fun (n, decision) => (n + 1, decision), ?_,
        fun hmap => hnone (Option.map_eq_none_iff.1 hmap), fun n d hmap => ?_⟩
      · rw [exitAt, hdecision, bind_eq_ok]
        exact ⟨none, rfl, by rw [hexit]; rfl⟩
      obtain ⟨⟨m, d'⟩, hm, heq⟩ := Option.map_eq_some_iff.1 hmap
      obtain ⟨rfl, rfl⟩ := Prod.mk.inj heq
      obtain ⟨c, t₁, t₂, payload, closed, hc, ht₁, ht₂, hleaves⟩ := hsome m d' hm
      refine ⟨c, t₁, t₂, payload, closed, hc, ?_, ht₂, hleaves⟩
      rw [List.take_succ_cons, List.foldlM_cons, bind_eq_ok]
      exact ⟨sim₁, hsim₁, ht₁⟩
    · refine ⟨some (0, decision), ?_, fun hnone => (by cases hnone), fun n d hsome => ?_⟩
      · rw [exitAt, hdecision, bind_eq_ok]
        exact ⟨some decision, rfl, rfl⟩
      obtain ⟨rfl, rfl⟩ := Prod.mk.inj (Option.some.inj hsome)
      obtain ⟨payload, closed, hleaves⟩ := leave_eq_ok hexits
      exact ⟨candle, sim, s₁, payload, closed, rfl, rfl, h₁, hleaves⟩

/-! ## Conservative exits -/

/-- Whatever paths the prices of the candles took, the replay leaves a trade on the candle on which
    they do, with at most their gross profit; and it does leave or hold, where prices are
    positive. -/
theorem exits_conservative {bars : Bars} (hquantity : 0 < trade.quantity)
    (hprotected : Protected trade.side trade.entryPrice trade.payload.stopLoss
      trade.payload.takeProfit)
    (hlater : ∀ bar ∈ bars, trade.entryTime < bar.1.openTime)
    (hpaths : ∀ bar ∈ bars, bar.1.bar.IsPath bar.2) :
    (∀ exit, exitAt trade (bars.map Prod.fst) = .ok exit →
      (∀ n, (∃ decision, exit = some (n, decision)) ↔ ∃ price, PathExit trade bars n price) ∧
      ∀ n decision price g g', exit = some (n, decision) → PathExit trade bars n price →
        grossPnl ctx trade.side trade.entryPrice decision.price trade.quantity = .ok g →
        grossPnl ctx trade.side trade.entryPrice price trade.quantity = .ok g' → g ≤ g') ∧
    (0 < trade.payload.stopLoss → 0 < trade.payload.takeProfit →
      (∀ bar ∈ bars, 0 < bar.1.openPrice ∧ 0 < bar.1.highPrice ∧ 0 < bar.1.lowPrice) →
      ∃ exit, exitAt trade (bars.map Prod.fst) = .ok exit) := by
  constructor
  · intro exit h
    have hexit := exitAt_conservative hprotected hlater hpaths h
    refine ⟨fun n => (hexit n).1, fun n decision price g g' hd hpath hg hg' => ?_⟩
    exact grossPnl_le hquantity.le ((hexit n).2 decision price hd hpath) hg hg'
  · intro hstop htarget hprices
    refine exists_exitAt hstop htarget fun candle hcandle => ?_
    obtain ⟨bar, hbar, rfl⟩ := List.mem_map.1 hcandle
    exact hprices bar hbar

/-- In a simulation, a trade is left on the candle on which the paths do, and at no better a price;
    where no path leaves it, it stays open. -/
theorem run_conservative {plan : Plan} {sim sim' : Sim} {bars : Bars}
    (hopen : sim.open_ = some trade)
    (hprotected : Protected trade.side trade.entryPrice trade.payload.stopLoss
      trade.payload.takeProfit)
    (hlater : ∀ bar ∈ bars, trade.entryTime < bar.1.openTime)
    (hpaths : ∀ bar ∈ bars, bar.1.bar.IsPath bar.2)
    (hfinal : ∀ bar ∈ bars, plan.isFinal bar.1 = false)
    (h : (bars.map Prod.fst).foldlM (simulateCandle ctx plan) sim = .ok sim') :
    ((∀ n price, ¬PathExit trade bars n price) → sim'.open_ = some trade) ∧
      ∀ n price, PathExit trade bars n price →
        ∃ candle decision sim₁ sim₂ payload closed, (bars.map Prod.fst)[n]? = some candle ∧
          ((bars.map Prod.fst).take n).foldlM (simulateCandle ctx plan) sim = .ok sim₁ ∧
          exits ctx plan candle sim₁ = .ok sim₂ ∧
          Leaves ctx plan candle trade decision sim₁ payload closed sim₂ ∧
          NoBetter trade.side decision.price price := by
  have hfinal' : ∀ candle ∈ bars.map Prod.fst, plan.isFinal candle = false := by
    intro candle hcandle
    obtain ⟨bar, hbar, rfl⟩ := List.mem_map.1 hcandle
    exact hfinal bar hbar
  obtain ⟨exit, hexit, hnone, hsome⟩ := run_exitAt hopen hfinal' h
  have hpath := exitAt_conservative hprotected hlater hpaths hexit
  constructor
  · intro hnever
    refine hnone ?_
    rcases exit with _ | ⟨n, decision⟩
    · rfl
    · obtain ⟨price, hprice⟩ := (hpath n).1.1 ⟨decision, rfl⟩
      exact absurd hprice (hnever n price)
  · intro n price hprice
    obtain ⟨decision, hdecision⟩ := (hpath n).1.2 ⟨price, hprice⟩
    obtain ⟨candle, sim₁, sim₂, payload, closed, hc, h₁, h₂, hleaves⟩ := hsome n decision hdecision
    exact ⟨candle, decision, sim₁, sim₂, payload, closed, hc, h₁, h₂, hleaves,
      (hpath n).2 decision price hdecision hprice⟩

/-- A long trade at 100, with its stop at 95 and its target at 120. -/
def longTrade : Trade where
  symbol := "BTCUSDT"
  side := .buy
  status := .opened
  entryTime := 300000
  exitTime := none
  entryPrice := 100
  exitPrice := none
  quantity := 2
  realizedPnl := 0
  fees := 0
  payload := {
    grade := .a
    strategyMode := .balanced
    riskPct := 1
    riskAmount := 10
    stopLoss := 95
    takeProfit := 120
    stopDistance := 5
    entryFee := 0
    feeBps := 0
    maxLeverage := 3
    entryRequestId := "a"
    entryCandleOpenTime := 300000 }
  exit := none

/-- A candle with the prices. -/
def candleOf (openTime : ℤ) (open_ high low close : ℚ) : Candle where
  openTime := openTime
  openPrice := open_
  highPrice := high
  lowPrice := low
  closePrice := close
  volume := 1
  turnover := none
  source := "bybit_public_kline"

/-- The path from a price to another one, at constant speed. -/
noncomputable def straight (x y : ℝ) (t : ℝ) : ℝ := x + (y - x) * t

theorem straight_within {x y : ℚ} (hxy : x ≤ y) {high low : ℚ} (hlow : low ≤ x) (hhigh : y ≤ high)
    (openTime : ℤ) : (candleOf openTime x high low y).bar.Within (straight x y) where
  continuousOn := by
    unfold straight
    fun_prop
  start := by
    simp [straight, candleOf, Candle.bar, Candle.prices, Bar.map]
  finish := by
    simp [straight, candleOf, Candle.bar, Candle.prices, Bar.map]
  mem t ht := by
    have hxy' : (x : ℝ) ≤ y := by exact_mod_cast hxy
    have hlow' : (low : ℝ) ≤ x := by exact_mod_cast hlow
    have hhigh' : (y : ℝ) ≤ high := by exact_mod_cast hhigh
    have hnonneg : 0 ≤ ((y : ℝ) - x) * t := mul_nonneg (sub_nonneg.2 hxy') ht.1
    have hle : ((y : ℝ) - x) * t ≤ y - x := mul_le_of_le_one_right (sub_nonneg.2 hxy') ht.2
    simp only [straight, candleOf, Candle.bar, Candle.prices, Bar.map, mem_Icc]
    constructor <;> linarith

/-- A candle that rises through the target, which the trade leaves at it. -/
theorem exits_conservative_rising :
    ∃ price, PathExit longTrade [(candleOf 600000 100 121 100 121, straight 100 121)] 0 price := by
  have hwithin : (candleOf 600000 100 121 100 121).bar.Within (straight 100 121) :=
    straight_within (by norm_num) le_rfl le_rfl 600000
  have hpath : (candleOf 600000 100 121 100 121).bar.IsPath (straight 100 121) := by
    refine ⟨by exact_mod_cast hwithin, ⟨0, by simp, ?_⟩, ⟨1, by simp, ?_⟩⟩
    · simp [straight, candleOf, Candle.bar, Candle.prices, Bar.map]
    · norm_num [straight, candleOf, Candle.bar, Candle.prices, Bar.map]
  have hexit : exitAt longTrade [candleOf 600000 100 121 100 121] =
      .ok (some (0, ⟨.takeProfit, 120, false⟩)) := by
    decide +kernel
  obtain ⟨h, -⟩ := @exits_conservative .default longTrade
    [(candleOf 600000 100 121 100 121, straight 100 121)] (by decide +kernel) (by decide +kernel)
    (by simp [longTrade, candleOf])
    (by simpa using hpath)
  exact ((h _ hexit).1 0).1 ⟨_, rfl⟩

/-- A session with a balance of 1000. -/
def fineSession : Session where
  sessionId := "session"
  symbol := "BTCUSDT"
  timeframe := .m5
  status := .running
  startTime := 300000
  endTime := 3000000
  cursorTime := some 600000
  initialBalance := 1000
  balance := 1000
  equity := 1000
  strategyMode := .balanced
  config := .obj []
  summary := .empty

/-- A step over it that does not complete the session, and that no decision enters on. -/
def longPlan : Plan where
  config :=
    ⟨⟨0, by norm_num, by norm_num [MAX_FEE_BPS]⟩, ⟨3, by norm_num, by norm_num [MAX_LEVERAGE]⟩⟩
  session := fineSession
  requestId := "b"
  decisions := []
  targetStatus := .paused
  lastCandleTime := 900000

/-- Two candles, on the first of which the price stays where it is; on the second one it rises
    through the target. -/
noncomputable def longBars : Bars :=
  [candleOf 600000 100 100 100 100, candleOf 900000 100 121 100 121].map fun candle =>
    (candle, straight candle.openPrice candle.closePrice)

/-- The simulation leaves the trade on the second one. -/
theorem run_conservative_rising : ∃ sim price candle decision sim₁ payload closed sim₂,
    (longBars.map Prod.fst).foldlM (simulateCandle .default longPlan)
      (start fineSession [longTrade] "b") = .ok sim ∧
    PathExit longTrade longBars 1 price ∧ (longBars.map Prod.fst)[1]? = some candle ∧
    Leaves .default longPlan candle longTrade decision sim₁ payload closed sim₂ ∧
    decision.price ≤ price := by
  have hpath : ∀ {openTime : ℤ} {x y : ℚ}, x ≤ y →
      (candleOf openTime x y x y).bar.IsPath (straight x y) := by
    intro openTime x y hxy
    refine ⟨straight_within hxy le_rfl le_rfl openTime, ⟨0, by simp, ?_⟩, ⟨1, by simp, ?_⟩⟩
    · simp [straight, candleOf, Candle.bar, Candle.prices, Bar.map]
    · simp [straight, candleOf, Candle.bar, Candle.prices, Bar.map]
  have hpaths : ∀ bar ∈ longBars, bar.1.bar.IsPath bar.2 := by
    rw [longBars, List.forall_mem_map, List.forall_mem_cons, List.forall_mem_singleton]
    exact ⟨hpath le_rfl, hpath (by norm_num)⟩
  have hprotected : Protected longTrade.side longTrade.entryPrice longTrade.payload.stopLoss
      longTrade.payload.takeProfit := by decide +kernel
  have hlater : ∀ bar ∈ longBars, longTrade.entryTime < bar.1.openTime := by
    simp [longBars, longTrade, candleOf]
  have hopen : (start fineSession [longTrade] "b").open_ = some longTrade := by decide +kernel
  have hexit : exitAt longTrade (longBars.map Prod.fst) =
      .ok (some (1, ⟨.takeProfit, 120, false⟩)) := by
    decide +kernel
  have hrun : ((longBars.map Prod.fst).foldlM (simulateCandle .default longPlan)
      (start fineSession [longTrade] "b")).toOption.any fun _ => true := by
    decide +kernel
  obtain ⟨sim, hsim, -⟩ := any_toOption.1 hrun
  obtain ⟨price, hprice⟩ := (exitAt_conservative hprotected hlater hpaths hexit 1).1.1 ⟨_, rfl⟩
  obtain ⟨candle, decision, sim₁, sim₂, payload, closed, hc, -, -, hleaves, hle⟩ :=
    (run_conservative hopen hprotected hlater hpaths
      (by simp [longBars, longPlan, Plan.isFinal]) hsim).2 1 price hprice
  exact ⟨sim, price, candle, decision, sim₁, payload, closed, sim₂, hsim, hprice, hc, hleaves, hle⟩

/-- A path that does not get to the low of its candle need not leave a trade that the replay does:
    the price rises from 100 to 105, and the candle has its low at 90. -/
theorem exits_not_conservative : ¬∀ (trade : Trade) (candle : Candle) (path : ℝ → ℝ),
    Protected trade.side trade.entryPrice trade.payload.stopLoss trade.payload.takeProfit →
    trade.entryTime < candle.openTime → candle.bar.Within path →
    ∀ decision, exitDecision trade candle = .ok decision →
      (decision.isSome ↔ ∃ price, LeavesAt trade path price) := by
  intro h
  have hwithin : (candleOf 600000 100 110 90 105).bar.Within (straight 100 105) :=
    straight_within (by norm_num) (by norm_num) (by norm_num) 600000
  have hdecision : exitDecision longTrade (candleOf 600000 100 110 90 105) =
      .ok (some ⟨.stopLoss, 95, false⟩) := by
    decide +kernel
  obtain ⟨price, hprice⟩ := (h longTrade _ _ (by decide +kernel) (by decide +kernel) hwithin _
    hdecision).1 rfl
  obtain ⟨t, ht, -, hreached⟩ := hprice.reached (by norm_num [longTrade])
  simp only [straight, longTrade] at hreached
  push_cast at hreached
  rcases hreached with hle | hle <;> linarith [ht.1, ht.2]

end IntradayBot.Replay
