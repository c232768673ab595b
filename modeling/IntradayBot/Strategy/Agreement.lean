import IntradayBot.Strategy.Router

/-!
# Agreement of the votes

What is left of the votes after both filters (`actionable_strategies`): those for the side on which
1H, 15M and 5M agree (`Agree`), whose strategies suit the regime (`Suits`). As the regime is read
from the averages of the trend, it never opposes the side (`direction_of_trending`).

So the router never finds a conflict, and a decision is a side on which all agree
(`evaluateSignal_iff`).
-/

namespace IntradayBot.Strategy

open Accuracy
open Setup (ema fromEnd trendDirection)

variable {tf1h tf15m tf5m : List Accuracy.Bar}

/-! ## The votes -/

/-- A vote of a strategy: a vote for a side has a strength of at least two and a half, and at most
    five. -/
structure Voted (engine : String) (v : Vote) : Prop where
  engine : v.engine = engine
  strength : v.signal ≠ .wait → 5 / 2 ≤ v.strength ∧ v.strength ≤ 5

namespace Voted

variable {engine : String} {c : Prop} [Decidable c] {v v' : Vote}

theorem wait (reason : String) : Voted engine (vote engine .wait reason 0) :=
  ⟨rfl, fun h => absurd rfl h⟩

theorem ite (h : c → Voted engine v) (h' : ¬c → Voted engine v') :
    Voted engine (if c then v else v') := by
  split_ifs with hc
  · exact h hc
  · exact h' hc

/-- Rounding to cents keeps a strength within its bounds. -/
theorem side {side : Signal} {reason : String} {strength : ℚ}
    (h : 5 / 2 ≤ strength ∧ strength ≤ 5) : Voted engine (vote engine side reason strength) := by
  refine ⟨rfl, fun _ => ?_⟩
  have hle : ((250 : ℤ) : ℚ) ≤ strength * 10 ^ 2 := by
    push_cast
    linarith [h.1]
  have hge : strength * 10 ^ 2 ≤ ((500 : ℤ) : ℚ) := by
    push_cast
    linarith [h.2]
  have hlow : (250 : ℚ) ≤ Decimal.roundHalfEven (strength * 10 ^ 2) := by
    exact_mod_cast Decimal.le_roundHalfEven hle
  have hhigh : (Decimal.roundHalfEven (strength * 10 ^ 2) : ℚ) ≤ 500 := by
    exact_mod_cast Decimal.roundHalfEven_le_of_le hge
  constructor
  · exact (le_div_iff₀ (by norm_num)).2 (le_trans (by norm_num) hlow)
  · exact (div_le_iff₀ (by norm_num)).2 (le_trans hhigh (by norm_num))

end Voted

theorem points_nonneg {c : Prop} [Decidable c] {value : ℚ} (h : 0 ≤ value) :
    0 ≤ points c value := by
  rw [points]
  split_ifs
  · exact h
  · exact le_rfl

/-- A score of five at most, with what it starts from and the points that are given. -/
theorem score_mem {start a b c d : ℚ} (hstart : 5 / 2 ≤ start) (ha : 0 ≤ a) (hb : 0 ≤ b)
    (hc : 0 ≤ c) (hd : 0 ≤ d) :
    5 / 2 ≤ min 5 (start + a + b + c + d) ∧ min 5 (start + a + b + c + d) ≤ 5 :=
  ⟨le_min (by norm_num) (by linarith), min_le_left _ _⟩

section

variable (tf1h tf15m tf5m)

theorem voted_trendFollowing : Voted "Trend Follow" (trendFollowingEngine tf1h tf15m tf5m) := by
  refine .ite (fun _ => .wait _) fun _ => .ite (fun _ => .wait _) fun _ =>
    .ite (fun _ => .wait _) fun _ => .ite (fun _ => .wait _) fun _ =>
    .ite (fun _ => .wait _) fun _ => .ite (fun _ => .wait _) fun _ =>
    .ite (fun _ => .wait _) fun _ => .ite (fun _ => .wait _) fun _ =>
    .ite (fun _ => .wait _) fun _ => .side (score_mem (by norm_num) ?_ ?_ ?_ ?_)
  all_goals exact points_nonneg (by norm_num)

theorem voted_srBreakout : Voted "S/R Breakout" (srBreakoutEngine tf1h tf15m tf5m) := by
  have hstrength : ∀ close level ratio body retested,
      5 / 2 ≤ breakoutStrength close level ratio body retested ∧
        breakoutStrength close level ratio body retested ≤ 5 := by
    intro close level ratio body retested
    refine score_mem (by norm_num) ?_ ?_ ?_ ?_
    all_goals exact points_nonneg (by norm_num)
  refine .ite (fun _ => .wait _) fun _ => .ite (fun _ => .wait _) fun _ =>
    .ite (fun _ => .wait _) fun _ => .ite (fun _ => .wait _) fun _ => .ite (fun _ => ?_) fun _ =>
    .ite (fun _ => ?_) fun _ => .wait _
  all_goals
    exact .ite (fun _ => .wait _) fun _ => .ite (fun _ => .wait _) fun _ => .side (hstrength ..)

theorem voted_divergence {kind : PivotKind} {v : Vote}
    (h : divergence kind tf1h tf15m tf5m = some v) : Voted "RSI Divergence" v := by
  obtain ⟨pivots, -, h⟩ := Option.bind_eq_some_iff.1 h
  obtain ⟨-, h⟩ := Option.ite_none_right_eq_some.1 h
  obtain rfl := Option.some.inj h
  refine .side (score_mem (by norm_num) ?_ ?_ ?_ ?_)
  all_goals exact points_nonneg (by norm_num)

theorem voted_rsiDivergence : Voted "RSI Divergence" (rsiDivergenceEngine tf1h tf15m tf5m) := by
  refine .ite (fun _ => .wait _) fun _ => .ite (fun _ => .wait _) fun _ =>
    .ite (fun _ => .wait _) fun _ => ?_
  rcases hlow : divergence .low tf1h tf15m tf5m with _ | bullish
  · rcases hhigh : divergence .high tf1h tf15m tf5m with _ | bearish
    · exact .wait _
    · exact voted_divergence _ _ _ hhigh
  · exact voted_divergence _ _ _ hlow

theorem voted_vwapBounce : Voted "VWAP Bounce" (vwapBounceEngine tf1h tf15m tf5m) := by
  refine .ite (fun _ => .wait _) fun _ => .ite (fun _ => .wait _) fun _ =>
    .ite (fun _ => .wait _) fun _ => ?_
  rcases vwap (tf15m.rtake 40) with _ | level
  · exact .wait _
  · refine .ite (fun _ => .wait _) fun _ => .ite (fun _ => .wait _) fun _ =>
      .ite (fun _ => .wait _) fun _ => .ite (fun _ => .wait _) fun _ =>
      .ite (fun _ => .wait _) fun _ => .side (score_mem (by norm_num) ?_ ?_ ?_ (by norm_num))
    all_goals exact points_nonneg (by norm_num)

theorem voted_liquiditySweep :
    Voted "Liquidity Sweep" (liquiditySweepEngine tf1h tf15m tf5m) := by
  have hsweep : ∀ side sweepPct,
      Voted "Liquidity Sweep" (sweepVote side sweepPct tf1h tf15m tf5m) := by
    intro side sweepPct
    refine .ite (fun _ => .wait _) fun _ => .ite (fun _ => .wait _) fun _ =>
      .side (score_mem (by norm_num) ?_ ?_ ?_ ?_)
    all_goals exact points_nonneg (by norm_num)
  exact .ite (fun _ => .wait _) fun _ => .ite (fun _ => .wait _) fun _ =>
    .ite (fun _ => .wait _) fun _ => .ite (fun _ => hsweep _ _) fun _ =>
    .ite (fun _ => hsweep _ _) fun _ => .wait _

theorem engine_orb (midnight : ℤ) : (orbEngine midnight tf1h tf15m tf5m).engine = "ORB" := by
  rw [orbEngine]
  split
  · rfl
  · dsimp only
    split_ifs <;> rfl

/-- The first upgrade replaces the vote of the opening range. -/
theorem sessionVotes_eq (cfg : OrbSettings) (midnight : ℤ) :
    sessionVotes cfg midnight tf1h tf15m tf5m =
      [trendFollowingEngine tf1h tf15m tf5m, srBreakoutEngine tf1h tf15m tf5m,
        rsiDivergenceEngine tf1h tf15m tf5m, vwapBounceEngine tf1h tf15m tf5m,
        liquiditySweepEngine tf1h tf15m tf5m, sessionOrbEngine cfg tf1h tf15m tf5m] := by
  simp only [sessionVotes, engineVotes, List.map_cons, List.map_nil,
    (voted_trendFollowing tf1h tf15m tf5m).engine, (voted_srBreakout tf1h tf15m tf5m).engine,
    (voted_rsiDivergence tf1h tf15m tf5m).engine, (voted_vwapBounce tf1h tf15m tf5m).engine,
    (voted_liquiditySweep tf1h tf15m tf5m).engine, engine_orb]
  rfl

end

/-- The vote of a session has a strength like the others, if prices are positive. -/
theorem voted_sessionOrb {cfg : OrbSettings} (hcfg : 1 ≤ cfg.minimumVolumeRatio)
    (hpos : ∀ bar ∈ tf15m, 0 < bar.low ∧ 0 < bar.high) :
    Voted "ORB" (sessionOrbEngine cfg tf1h tf15m tf5m) := by
  have hbreak : ∀ name side level, 0 < level →
      0 ≤ beyondPct side (barFromEnd tf5m 0).close level →
      Voted "ORB" (sessionBreak cfg name side level tf1h tf5m) := by
    intro name side level hlevel hbeyond
    refine .ite (fun _ => .wait _) fun _ => .ite (fun _ => .wait _) fun h => .side ?_
    rw [not_or, not_or, not_lt, not_lt] at h
    rw [if_neg hlevel.ne']
    refine ⟨le_min (by norm_num) ?_, min_le_left _ _⟩
    have hdistance : 0 ≤ min (beyondPct side (barFromEnd tf5m 0).close level) 1 :=
      le_min hbeyond zero_le_one
    have hratio : 0 ≤ min (volumeRatio tf5m - 1) 1 := le_min (by linarith [h.1]) zero_le_one
    linarith [h.2.1]
  refine .ite (fun _ => .wait _) fun _ => ?_
  dsimp only
  rcases activeSession cfg (cfg.wallClock (barFromEnd tf5m 0).time) with _ | session
  · exact .wait _
  refine .ite (fun _ => .wait _) fun hopening => .ite (fun _ => .wait _) fun _ =>
    .ite (fun hhigh => ?_) fun _ => .ite (fun hlow => ?_) fun _ => .wait _
  · have hne : (tf15m.filter fun row => session.start ≤ cfg.wallClock row.time ∧
        cfg.wallClock row.time < session.rangeEnd) ≠ [] := by
      intro hnil
      rw [hnil] at hopening
      simp at hopening
    obtain ⟨bar, hbar, heq⟩ := List.mem_map.1 (maxOf_mem (mt List.map_eq_nil_iff.1 hne))
    have hpositive := (hpos bar (List.mem_of_mem_filter hbar)).2
    rw [← heq] at hhigh ⊢
    refine hbreak _ _ _ hpositive ?_
    rw [beyondPct, if_pos rfl]
    exact mul_nonneg (div_nonneg (sub_nonneg.2 hhigh.2.le) hpositive.le) (by norm_num)
  · have hne : (tf15m.filter fun row => session.start ≤ cfg.wallClock row.time ∧
        cfg.wallClock row.time < session.rangeEnd) ≠ [] := by
      intro hnil
      rw [hnil] at hopening
      simp at hopening
    obtain ⟨bar, hbar, heq⟩ := List.mem_map.1 (minOf_mem (mt List.map_eq_nil_iff.1 hne))
    have hpositive := (hpos bar (List.mem_of_mem_filter hbar)).1
    rw [← heq] at hlow ⊢
    refine hbreak _ _ _ hpositive ?_
    rw [beyondPct, if_neg (by decide)]
    exact mul_nonneg (div_nonneg (sub_nonneg.2 hlow.2.le) hpositive.le) (by norm_num)

/-! ## The filters -/

/-- The three timeframes agree on a side. -/
structure Agree (side : Signal) (tf1h tf15m tf5m : List Accuracy.Bar) : Prop where
  actionable : side ≠ .wait
  long : 55 ≤ tf1h.length ∧ 55 ≤ tf15m.length ∧ 3 ≤ tf5m.length
  oneHour : trendDirection tf1h = side
  fifteen : direction15M tf15m = side
  five : candleDirection (barFromEnd tf5m 0) = side ∧
    Follows side (barFromEnd tf5m 1) (barFromEnd tf5m 0)

instance (side : Signal) (tf1h tf15m tf5m : List Accuracy.Bar) :
    Decidable (Agree side tf1h tf15m tf5m) :=
  decidable_of_iff (side ≠ .wait ∧ (55 ≤ tf1h.length ∧ 55 ≤ tf15m.length ∧ 3 ≤ tf5m.length) ∧
    trendDirection tf1h = side ∧ direction15M tf15m = side ∧
    candleDirection (barFromEnd tf5m 0) = side ∧
    Follows side (barFromEnd tf5m 1) (barFromEnd tf5m 0))
    ⟨fun ⟨h₁, h₂, h₃, h₄, h₅⟩ => ⟨h₁, h₂, h₃, h₄, h₅⟩,
      fun ⟨h₁, h₂, h₃, h₄, h₅⟩ => ⟨h₁, h₂, h₃, h₄, h₅⟩⟩

theorem Agree.unique {side side' : Signal} (h : Agree side tf1h tf15m tf5m)
    (h' : Agree side' tf1h tf15m tf5m) : side = side' :=
  h.oneHour.symm.trans h'.oneHour

/-- The strategy is not one that the regime stops. -/
def Suits (state : RegimeState) (engine : String) : Prop :=
  (state = .ranging → engine ∉ TREND_ENGINES) ∧
    (state = .highVolatility → engine ∉ REVERSAL_ENGINES)

instance (state : RegimeState) (engine : String) : Decidable (Suits state engine) := by
  unfold Suits
  infer_instance

theorem ema_ne_nil {values : List ℚ} {period : ℕ} (h : period ≤ values.length) :
    ema values period ≠ [] := by
  rw [ema, if_neg (not_lt.2 h)]
  exact List.cons_ne_nil _ _

theorem direction5M_eq_iff {side : Signal} (hside : side ≠ .wait) :
    direction5M tf5m = side ↔ candleDirection (barFromEnd tf5m 0) = side ∧
      Follows side (barFromEnd tf5m 1) (barFromEnd tf5m 0) := by
  dsimp only [direction5M]
  split_ifs with h
  · exact ⟨fun heq => ⟨heq, heq ▸ h⟩, And.left⟩
  · refine ⟨fun heq => absurd heq.symm hside, fun ⟨heq, hfollows⟩ => ?_⟩
    exact absurd (heq ▸ hfollows) h

/-- The direction of the confluence is a side on which the timeframes agree. -/
theorem confluence_direction_iff {side : Signal} (hside : side ≠ .wait) :
    (confluence tf1h tf15m tf5m).direction = side ↔ Agree side tf1h tf15m tf5m := by
  rw [confluence]
  split_ifs with hshort hnone
  · refine ⟨fun h => absurd h.symm hside, fun h => absurd hshort ?_⟩
    have := h.long
    omega
  · have hlong : 55 ≤ (tf15m.map (·.close)).length := by
      rw [List.length_map]
      omega
    rcases hnone with hnone | hnone
    · exact absurd hnone (ema_ne_nil (by omega))
    · exact absurd hnone (ema_ne_nil (by omega))
  · dsimp only
    constructor
    · intro h
      split_ifs at h with haligned
      · obtain ⟨h15, h5⟩ := haligned
        have hfive : direction5M tf5m = side := h5.symm.trans (h15.symm.trans h)
        exact ⟨hside, by omega, h, h15.symm.trans h, (direction5M_eq_iff hside).1 hfive⟩
      · exact absurd h.symm hside
    · intro h
      have hfive := (direction5M_eq_iff hside).2 h.five
      rw [if_pos ⟨h.oneHour.trans h.fifteen.symm, h.fifteen.trans hfive.symm⟩]
      exact h.oneHour

theorem trendDirection_buy (h : trendDirection tf1h = .buy) :
    fromEnd (ema (tf1h.map (·.close)) 50) 0 < fromEnd (ema (tf1h.map (·.close)) 20) 0 := by
  simp only [trendDirection] at h
  split_ifs at h with _ hbuy
  exact hbuy.1

theorem trendDirection_sell (h : trendDirection tf1h = .sell) :
    fromEnd (ema (tf1h.map (·.close)) 20) 0 < fromEnd (ema (tf1h.map (·.close)) 50) 0 := by
  simp only [trendDirection] at h
  split_ifs at h with _ _ hsell
  exact hsell.1

/-- The direction of a trending regime is the direction of the trend. -/
theorem direction_of_trending {side : Signal} (hside : side ≠ .wait)
    (htrend : trendDirection tf1h = side) (h : (detectRegime tf1h).regime = .trending) :
    (detectRegime tf1h).direction = side := by
  simp only [detectRegime] at h ⊢
  split_ifs at h ⊢ with _ _ _ hfast
  · -- the fast average is above the slow one
    cases side with
    | buy => rfl
    | sell => exact absurd (trendDirection_sell htrend) (lt_asymm hfast)
    | wait => exact absurd rfl hside
  · cases side with
    | buy => exact absurd (trendDirection_buy htrend) hfast
    | sell => rfl
    | wait => exact absurd rfl hside

/-- A vote on the side of the trend is stopped by the regime if it does not suit it. -/
theorem blockedReason_eq_none_iff {v : Vote} (hside : v.signal ≠ .wait)
    (htrend : trendDirection tf1h = v.signal) :
    blockedReason (detectRegime tf1h) v = none ↔ Suits (detectRegime tf1h).regime v.engine := by
  rw [blockedReason, Suits]
  rw [if_neg fun h => h.2 (direction_of_trending hside htrend h.1).symm]
  split_ifs with hranging hvolatile
  · exact iff_of_false id fun h => h.1 hranging.1 hranging.2
  · exact iff_of_false id fun h => h.2 hvolatile.1 hvolatile.2
  · exact iff_of_true rfl ⟨fun h hmem => hranging ⟨h, hmem⟩, fun h hmem => hvolatile ⟨h, hmem⟩⟩

/-- What both filters make of a vote. -/
def filtered (tf1h tf15m tf5m : List Accuracy.Bar) (v : Vote) : Vote :=
  let passed := if v.signal ≠ .wait ∧ v.signal ≠ (confluence tf1h tf15m tf5m).direction then
    stopped v s!"{v.engine} blocked: {(confluence tf1h tf15m tf5m).reason}" else v
  match if passed.signal = .wait then none else blockedReason (detectRegime tf1h) passed with
  | some reason => stopped passed reason
  | none => passed

theorem strategies_eq_map (cfg : OrbSettings) (midnight : ℤ) :
    strategies cfg midnight tf1h tf15m tf5m =
      (sessionVotes cfg midnight tf1h tf15m tf5m).map (filtered tf1h tf15m tf5m) := by
  rw [strategies, filterVotesByRegime, filterVotes, List.map_map]
  rfl

/-- A vote passes both filters as it is, or it is stopped. -/
theorem filtered_cases (v : Vote) :
    (Agree v.signal tf1h tf15m tf5m ∧ Suits (detectRegime tf1h).regime v.engine ∧
        filtered tf1h tf15m tf5m v = v) ∨
      ¬(Agree v.signal tf1h tf15m tf5m ∧ Suits (detectRegime tf1h).regime v.engine) ∧
        (filtered tf1h tf15m tf5m v).signal = .wait := by
  by_cases hside : v.signal = .wait
  · refine .inr ⟨fun h => h.1.actionable hside, ?_⟩
    have hpassed : ¬(v.signal ≠ .wait ∧ v.signal ≠ (confluence tf1h tf15m tf5m).direction) :=
      fun h => h.1 hside
    simp only [filtered, if_neg hpassed, if_pos hside]
    exact hside
  by_cases hagree : Agree v.signal tf1h tf15m tf5m
  · have hpassed : ¬(v.signal ≠ .wait ∧ v.signal ≠ (confluence tf1h tf15m tf5m).direction) :=
      fun h => h.2 ((confluence_direction_iff hside).2 hagree).symm
    have hiff := blockedReason_eq_none_iff hside hagree.oneHour
    rcases hreason : blockedReason (detectRegime tf1h) v with _ | reason
    · refine .inl ⟨hagree, hiff.1 hreason, ?_⟩
      simp only [filtered, if_neg hpassed, if_neg hside, hreason]
    · refine .inr ⟨fun h => ?_, ?_⟩
      · rw [hiff.2 h.2] at hreason
        cases hreason
      · simp only [filtered, if_neg hpassed, if_neg hside, hreason, stopped]
  · refine .inr ⟨fun h => hagree h.1, ?_⟩
    have hstopped : v.signal ≠ .wait ∧ v.signal ≠ (confluence tf1h tf15m tf5m).direction :=
      ⟨hside, fun h => hagree ((confluence_direction_iff hside).1 h.symm)⟩
    simp only [filtered, if_pos hstopped, stopped, if_true]

/-- The votes that count are those of the strategies that suit the regime, on the side on which the
    timeframes agree. -/
theorem actionable_strategies (cfg : OrbSettings) (midnight : ℤ)
    (tf1h tf15m tf5m : List Accuracy.Bar) :
    (strategies cfg midnight tf1h tf15m tf5m).filter (fun v => v.signal ≠ .wait) =
      [trendFollowingEngine tf1h tf15m tf5m, srBreakoutEngine tf1h tf15m tf5m,
        rsiDivergenceEngine tf1h tf15m tf5m, vwapBounceEngine tf1h tf15m tf5m,
        liquiditySweepEngine tf1h tf15m tf5m, sessionOrbEngine cfg tf1h tf15m tf5m].filter
        fun v => Agree v.signal tf1h tf15m tf5m ∧ Suits (detectRegime tf1h).regime v.engine := by
  rw [strategies_eq_map, sessionVotes_eq]
  generalize [trendFollowingEngine tf1h tf15m tf5m, srBreakoutEngine tf1h tf15m tf5m,
    rsiDivergenceEngine tf1h tf15m tf5m, vwapBounceEngine tf1h tf15m tf5m,
    liquiditySweepEngine tf1h tf15m tf5m, sessionOrbEngine cfg tf1h tf15m tf5m] = votes
  induction votes with
  | nil => rfl
  | cons v votes ih =>
    rw [List.map_cons]
    rcases @filtered_cases tf1h tf15m tf5m v with ⟨hagree, hsuits, heq⟩ | ⟨hnot, hwait⟩
    · rw [heq, List.filter_cons_of_pos (by simpa using hagree.actionable),
        List.filter_cons_of_pos (by simpa using ⟨hagree, hsuits⟩), ih]
    · rw [List.filter_cons_of_neg (by simpa using hwait),
        List.filter_cons_of_neg (by simpa using hnot), ih]

/-! ## The decision -/

/-- The votes for a side of the strategies that suit the regime. -/
def suiting (cfg : OrbSettings) (side : Signal) (tf1h tf15m tf5m : List Accuracy.Bar) : List Vote :=
  [trendFollowingEngine tf1h tf15m tf5m, srBreakoutEngine tf1h tf15m tf5m,
    rsiDivergenceEngine tf1h tf15m tf5m, vwapBounceEngine tf1h tf15m tf5m,
    liquiditySweepEngine tf1h tf15m tf5m, sessionOrbEngine cfg tf1h tf15m tf5m].filter
    fun v => v.signal = side ∧ Suits (detectRegime tf1h).regime v.engine

theorem votesFor_eq {side : Signal} (hside : side ≠ .wait) (votes : List Vote) :
    votesFor side votes = votesFor side (votes.filter fun v => v.signal ≠ .wait) := by
  rw [votesFor, votesFor, List.filter_filter]
  refine List.filter_congr fun v _ => ?_
  by_cases h : v.signal = side
  · simp [h, hside]
  · simp [h]

/-- The votes for a side are there only if the timeframes agree on it. -/
theorem votesFor_strategies {side : Signal} (hside : side ≠ .wait) (cfg : OrbSettings)
    (midnight : ℤ) : votesFor side (strategies cfg midnight tf1h tf15m tf5m) =
      if Agree side tf1h tf15m tf5m then suiting cfg side tf1h tf15m tf5m else [] := by
  rw [votesFor_eq hside, actionable_strategies, votesFor, List.filter_filter]
  split_ifs with hagree
  · refine List.filter_congr fun v _ => ?_
    by_cases h : v.signal = side
    · simp [h, hagree]
    · simp [h]
  · refine List.filter_eq_nil_iff.2 fun v _ h => ?_
    obtain ⟨heq, hv, -⟩ : v.signal = side ∧ Agree v.signal tf1h tf15m tf5m ∧ _ := by simpa using h
    exact hagree (heq ▸ hv)

theorem required_pos (mode : Mode) : 0 < mode.required := by
  cases mode <;> decide

/-- A vote that is alone is strong enough for the mode. -/
def Strong (mode : Mode) (votes : List Vote) : Prop :=
  ∀ v, votes = [v] → singleVoteMinStrength mode ≤ |v.strength|

theorem decideFor_decision_iff {side : Signal} (hside : side ≠ .wait) {votes : List Vote}
    {mode : Mode} {approved : String} :
    (decideFor side votes mode approved).decision = side ↔ Strong mode votes := by
  have hweak : weakSingleVote votes mode = none ↔ Strong mode votes := by
    rw [Strong]
    rcases votes with _ | ⟨v, _ | ⟨v', votes⟩⟩
    · simp [weakSingleVote]
    · rw [weakSingleVote, voteStrength]
      split_ifs with hlt
      · exact iff_of_false id fun h => not_le.2 hlt (h v rfl)
      · exact iff_of_true rfl fun w hw => (List.singleton_inj.1 hw) ▸ not_lt.1 hlt
    · simp [weakSingleVote]
  rw [decideFor, ← hweak]
  cases weakSingleVote votes mode with
  | none => exact iff_of_true rfl rfl
  | some strength => exact iff_of_false hside.symm (Option.some_ne_none _)

theorem decideFor_decision_cases (side : Signal) (votes : List Vote) (mode : Mode)
    (approved : String) : (decideFor side votes mode approved).decision = side ∨
      (decideFor side votes mode approved).decision = .wait := by
  rw [decideFor]
  cases weakSingleVote votes mode
  · exact .inl rfl
  · exact .inr rfl

theorem sideScore_pos {votes : List Vote} (h : votes ≠ []) : 0 < sideScore votes := by
  have hlength : (0 : ℚ) < votes.length := by exact_mod_cast List.length_pos_of_ne_nil h
  have hsum : 0 ≤ (votes.map voteStrength).sum := by
    refine List.sum_nonneg fun x hx => ?_
    obtain ⟨v, -, rfl⟩ := List.mem_map.1 hx
    exact abs_nonneg _
  rw [sideScore]
  positivity

/-- The router decides for a side only if there are votes for it. -/
theorem votesFor_of_routeVotes {votes : List Vote} {mode : String} {side : Signal}
    (hside : side ≠ .wait) (h : (routeVotes votes mode).decision = side) :
    votesFor side votes ≠ [] := by
  have hfor : ∀ {side' votes' approved}, votes' = votesFor side' votes → votes' ≠ [] →
      (decideFor side' votes' (normalizeMode mode) approved).decision = side →
        votesFor side votes ≠ [] := by
    intro side' votes' approved heq hne hdecision
    rcases decideFor_decision_cases side' votes' (normalizeMode mode) approved with hcase | hcase
    · obtain rfl := hcase.symm.trans hdecision
      exact heq ▸ hne
    · exact absurd (hdecision.symm.trans hcase) hside
  have hne : ∀ {l : List Vote}, (normalizeMode mode).required ≤ l.length → l ≠ [] :=
    fun hl => List.ne_nil_of_length_pos ((required_pos _).trans_le hl)
  dsimp only [routeVotes] at h
  split_ifs at h with h₁ h₂ h₃ h₄
  · exact hfor rfl h₁.2.1 h
  · exact hfor rfl h₂.2.1 h
  · exact hfor rfl (hne h₃.1) h
  · exact hfor rfl (hne h₄.1) h
  all_goals exact absurd h.symm hside

/-- Where one side has no votes, the router decides for the other one if its votes are enough. -/
theorem routeVotes_decision_iff {votes : List Vote} {mode : String} {side : Signal}
    (hside : side ≠ .wait) (hopposing : votesFor (Setup.opposing side) votes = []) :
    (routeVotes votes mode).decision = side ↔
      (normalizeMode mode).required ≤ (votesFor side votes).length ∧
        Strong (normalizeMode mode) (votesFor side votes) := by
  have hscore : sideScore [] = 0 := by simp [sideScore]
  have hrequired : ¬(normalizeMode mode).required ≤ 0 := not_le.2 (required_pos _)
  by_cases hnil : votesFor side votes = []
  · -- no vote counts
    have hboth : votesFor .buy votes = [] ∧ votesFor .sell votes = [] := by
      cases side with
      | wait => exact absurd rfl hside
      | buy => exact ⟨hnil, hopposing⟩
      | sell => exact ⟨hopposing, hnil⟩
    rw [hnil]
    dsimp only [routeVotes]
    rw [hboth.1, hboth.2, if_neg fun h => h.2.1 rfl, if_neg fun h => h.2.1 rfl,
      if_neg fun h => hrequired h.1, if_neg fun h => hrequired h.1]
    exact iff_of_false hside.symm fun h => hrequired h.1
  have hpositive := sideScore_pos hnil
  cases side with
  | wait => exact absurd rfl hside
  | buy =>
    have hsell : votesFor .sell votes = [] := hopposing
    dsimp only [routeVotes]
    by_cases hmode : normalizeMode mode = .aggressive
    · rw [if_pos ⟨hmode, hnil, by rwa [hsell, hscore]⟩, decideFor_decision_iff hside, hmode]
      exact (and_iff_right (List.length_pos_of_ne_nil hnil)).symm
    rw [if_neg fun h => hmode h.1, if_neg fun h => hmode h.1]
    by_cases hlength : (normalizeMode mode).required ≤ (votesFor .buy votes).length
    · rw [if_pos ⟨hlength, hsell⟩, decideFor_decision_iff hside]
      exact (and_iff_right hlength).symm
    · rw [if_neg fun h => hlength h.1, if_neg fun h => hnil h.2]
      exact iff_of_false hside.symm fun h => hlength h.1
  | sell =>
    have hbuy : votesFor .buy votes = [] := hopposing
    dsimp only [routeVotes]
    rw [if_neg fun h => h.2.1 hbuy]
    by_cases hmode : normalizeMode mode = .aggressive
    · rw [if_pos ⟨hmode, hnil, by rwa [hbuy, hscore]⟩, decideFor_decision_iff hside, hmode]
      exact (and_iff_right (List.length_pos_of_ne_nil hnil)).symm
    rw [if_neg fun h => hmode h.1, if_neg fun h => hnil h.2]
    by_cases hlength : (normalizeMode mode).required ≤ (votesFor .sell votes).length
    · rw [if_pos ⟨hlength, hbuy⟩, decideFor_decision_iff hside]
      exact (and_iff_right hlength).symm
    · rw [if_neg fun h => hlength h.1]
      exact iff_of_false hside.symm fun h => hlength h.1

theorem evaluateSignal_decision_iff {cfg : OrbSettings} {midnight : ℤ} {snapshot : Snapshot}
    {mode : String} {side : Signal} (hside : side ≠ .wait) :
    (evaluateSignal cfg midnight snapshot mode).signal = side ↔
      snapshot.ok = true ∧
        Agree side snapshot.tf1h.candles snapshot.tf15m.candles snapshot.tf5m.candles ∧
        (normalizeMode mode).required ≤ (suiting cfg side snapshot.tf1h.candles
          snapshot.tf15m.candles snapshot.tf5m.candles).length ∧
        Strong (normalizeMode mode) (suiting cfg side snapshot.tf1h.candles
          snapshot.tf15m.candles snapshot.tf5m.candles) := by
  rw [evaluateSignal]
  dsimp only
  by_cases hok : snapshot.ok = true
  · simp only [hok, if_true, true_and]
    generalize snapshot.tf1h.candles = tf1h, snapshot.tf15m.candles = tf15m,
      snapshot.tf5m.candles = tf5m
    have hopposing : Setup.opposing side ≠ .wait := by
      cases side <;> decide
    by_cases hagree : Agree side tf1h tf15m tf5m
    · have hnone :
          votesFor (Setup.opposing side) (strategies cfg midnight tf1h tf15m tf5m) = [] := by
        rw [votesFor_strategies hopposing, if_neg]
        intro hother
        have heq := hother.unique hagree
        cases side <;> cases heq
      rw [routeVotes_decision_iff hside hnone, votesFor_strategies hside, if_pos hagree]
      exact (and_iff_right hagree).symm
    · refine iff_of_false (fun h => votesFor_of_routeVotes hside h ?_) fun h => hagree h.1
      rw [votesFor_strategies hside, if_neg hagree]
  · rw [if_neg hok]
    exact iff_of_false hside.symm fun h => hok h.1

/-- A vote that an evaluation has for a side is one of those that suit the regime. -/
theorem mem_votes_evaluateSignal {cfg : OrbSettings} (midnight : ℤ) {s : Snapshot} (mode : String)
    {side : Signal} (hside : side ≠ .wait) {v : Vote} :
    v ∈ (evaluateSignal cfg midnight s mode).votes ∧ v.signal = side ↔
      s.ok = true ∧ Agree side s.tf1h.candles s.tf15m.candles s.tf5m.candles ∧
        v ∈ suiting cfg side s.tf1h.candles s.tf15m.candles s.tf5m.candles := by
  have hvotes : v ∈ (evaluateSignal cfg midnight s mode).votes ∧ v.signal = side ↔
      v ∈ votesFor side (evaluateSignal cfg midnight s mode).votes := by
    rw [votesFor, List.mem_filter, decide_eq_true_eq]
  rw [hvotes, evaluateSignal]
  dsimp only
  by_cases hok : s.ok = true
  · rw [if_pos hok, votesFor_strategies hside]
    split_ifs with hagree
    · simp [hok, hagree]
    · simp [hagree]
  · rw [if_neg hok]
    exact iff_of_false (by simp [votesFor]) fun h => hok h.1

/-- The votes for a side are all for one side, and the decision is a side exactly if the timeframes
    agree on it, and enough of the strategies that suit the regime vote for it. -/
theorem evaluateSignal_iff (cfg : OrbSettings) (midnight : ℤ) (snapshot : Snapshot)
    (mode : String) :
    (∀ v ∈ (evaluateSignal cfg midnight snapshot mode).votes,
      ∀ v' ∈ (evaluateSignal cfg midnight snapshot mode).votes,
        v.signal ≠ .wait → v'.signal ≠ .wait → v.signal = v'.signal) ∧
    ∀ side, side ≠ Signal.wait →
      ((evaluateSignal cfg midnight snapshot mode).signal = side ↔
        snapshot.ok = true ∧
          Agree side snapshot.tf1h.candles snapshot.tf15m.candles snapshot.tf5m.candles ∧
          (normalizeMode mode).required ≤ (suiting cfg side snapshot.tf1h.candles
            snapshot.tf15m.candles snapshot.tf5m.candles).length ∧
          Strong (normalizeMode mode) (suiting cfg side snapshot.tf1h.candles
            snapshot.tf15m.candles snapshot.tf5m.candles)) := by
  refine ⟨fun v hv v' hv' hside hside' => ?_, fun _ hside => evaluateSignal_decision_iff hside⟩
  obtain ⟨-, hagree, -⟩ := (mem_votes_evaluateSignal midnight mode hside).1 ⟨hv, rfl⟩
  obtain ⟨-, hagree', -⟩ := (mem_votes_evaluateSignal midnight mode hside').1 ⟨hv', rfl⟩
  exact hagree.unique hagree'

/-- Candles that rise by one each, from a price and a time in seconds on. -/
def exampleRise (price : ℚ) (first step : ℤ) (n : ℕ) : Fetched where
  candles := (List.range n).map fun i : ℕ =>
    ⟨(first + i * step) * 1000, price + i, price + i + 1, price + i, price + i + 1, 1⟩
  message := "OK"

def exampleEnvironment : OrbEnvironment where
  wallClock := id
  rangeMinutes := none
  minimumVolumeRatio := none
  londonStart := none
  londonEnd := none
  newYorkStart := none
  newYorkEnd := none

def exampleSnapshot : Snapshot where
  tf1h := exampleRise 1000 144000 3600 60
  tf15m := exampleRise 10000 306000 900 60
  tf5m := exampleRise 10000 342000 300 60

/-- The three timeframes rise, and the trend is followed. -/
theorem evaluateSignal_iff_example :
    (evaluateSignal exampleEnvironment.settings 0 exampleSnapshot "balanced").signal = .buy ∧
      Agree .buy exampleSnapshot.tf1h.candles exampleSnapshot.tf15m.candles
        exampleSnapshot.tf5m.candles := by
  have hsignal : (evaluateSignal exampleEnvironment.settings 0 exampleSnapshot "balanced").signal =
      .buy := by decide +kernel
  exact ⟨hsignal, (((evaluateSignal_iff exampleEnvironment.settings 0 exampleSnapshot
    "balanced").2 .buy (by decide)).1 hsignal).2.1⟩

end IntradayBot.Strategy
