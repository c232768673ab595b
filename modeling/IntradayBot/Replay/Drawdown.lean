import IntradayBot.Data.Drop
import IntradayBot.Replay.Performance

/-!
# The maximum drawdown

The drawdown of a session is found in one pass over its equity. Where the arithmetic is exact, the
pass finds the largest drop from any equity to a later one, the largest of its percentages, and the
times of such a drop: what it keeps of the equity that it has seen is in `Tracks`.
-/

namespace IntradayBot.Replay.Analytics

open Decimal Drop

variable {ctx : Context} {l : List EquityPoint} {s : DrawdownState} {initial point : EquityPoint}
  {points : List EquityPoint}

/-- What the state says of the equity so far. -/
structure Tracks (l : List EquityPoint) (s : DrawdownState) : Prop where
  current : l.getLast?.map (·.equity) = some s.current
  peak : IsGreatest (values EquityPoint.equity l) s.peak
  peakTime : ∃ p ∈ l, p.equity = s.peak ∧ p.time = s.peakTime
  maxAmount : IsGreatest (drops EquityPoint.equity l) s.maxAmount
  maxPct : IsTop (percents EquityPoint.equity l s.maxAmount) s.maxPct
  times : ∃ p q, Precedes l p q ∧ p.equity - q.equity = s.maxAmount ∧ p.time = s.maxPeakTime ∧
    q.time = s.maxTroughTime

theorem Tracks.new (initial : EquityPoint) :
    Tracks [initial] (newDrawdown initial.equity initial.time) where
  current := rfl
  peak := isGreatest_values_singleton _ initial
  peakTime := ⟨initial, List.mem_singleton_self _, rfl, rfl⟩
  maxAmount := by
    rw [drops_singleton]
    exact isGreatest_singleton
  maxPct := by
    have h : percents EquityPoint.equity [initial] 0 = {r | 0 < initial.equity ∧ (0 : ℚ) = r} := by
      ext r
      simp [percents, precedes_singleton]
    have htop := isTop_singleton_or (0 < initial.equity) (0 : ℚ)
    rw [ite_self, ← h] at htop
    exact htop
  times := ⟨initial, initial, precedes_singleton.2 ⟨rfl, rfl⟩, sub_self _, rfl, rfl⟩

/-- The state, once it has seen the equity of the point, but not what it falls by. -/
def DrawdownState.seen (s : DrawdownState) (point : EquityPoint) : DrawdownState :=
  { s with
    current := point.equity
    peak := max s.peak point.equity
    peakTime := if s.peak < point.equity then point.time else s.peakTime }

/-- How far the equity is below its peak, at the point. -/
def DrawdownState.fall (s : DrawdownState) (point : EquityPoint) : ℚ :=
  (s.seen point).peak - point.equity

/-- The fall to the point becomes the largest one, or the largest one so far stays. -/
theorem advanceDrawdown_cases (hctx : ctx.prec = none) (s : DrawdownState) (point : EquityPoint) :
    let percent := if 0 < (s.seen point).peak then s.fall point * 100 / (s.seen point).peak else 0
    (s.maxAmount < s.fall point ∨ (s.fall point = s.maxAmount ∧ s.maxPct < percent)) ∧
        advanceDrawdown ctx s point.equity point.time =
          { s.seen point with
            maxAmount := s.fall point
            maxPct := percent
            maxPeakTime := (s.seen point).peakTime
            maxTroughTime := point.time } ∨
      s.fall point ≤ s.maxAmount ∧ (s.fall point = s.maxAmount → percent ≤ s.maxPct) ∧
        advanceDrawdown ctx s point.equity point.time = s.seen point := by
  have hfit : ∀ q, ctx.fit q = q := fun q => by rw [Context.fit, hctx]
  -- Whichever branch is taken, the peak seen is the larger of the two.
  have hseen : (if s.peak < point.equity then
      { { s with current := point.equity } with peak := point.equity, peakTime := point.time }
      else { s with current := point.equity }) = s.seen point := by
    rw [DrawdownState.seen]
    split
    · rename_i h
      rw [max_eq_right h.le]
    · rename_i h
      rw [max_eq_left (not_lt.1 h)]
  intro percent
  have hadvance : advanceDrawdown ctx s point.equity point.time =
      if s.maxAmount < s.fall point ∨ (s.fall point = s.maxAmount ∧ s.maxPct < percent) then
        { s.seen point with
          maxAmount := s.fall point
          maxPct := percent
          maxPeakTime := (s.seen point).peakTime
          maxTroughTime := point.time }
      else s.seen point := by
    simp only [advanceDrawdown, percentOf, Context.sub, Context.mul, Context.div, hfit, hseen]
    rfl
  rw [hadvance]
  split
  · rename_i h
    exact .inl ⟨h, rfl⟩
  · rename_i h
    obtain ⟨hle, hpercent⟩ := not_or.1 h
    exact .inr ⟨not_lt.1 hle, fun heq => not_lt.1 fun hlt => hpercent ⟨heq, hlt⟩, rfl⟩

theorem Tracks.peak_seen (h : Tracks l s) (point : EquityPoint) :
    IsGreatest (values EquityPoint.equity (l ++ [point])) (s.seen point).peak :=
  isGreatest_values_concat h.peak

theorem Tracks.peakTime_seen (h : Tracks l s) (point : EquityPoint) :
    ∃ p ∈ l ++ [point], p.equity = (s.seen point).peak ∧ p.time = (s.seen point).peakTime := by
  rw [DrawdownState.seen]
  dsimp only
  split
  · rename_i hlt
    exact ⟨point, by simp, (max_eq_right hlt.le).symm, rfl⟩
  · rename_i hge
    obtain ⟨p, hp, hequity, htime⟩ := h.peakTime
    exact ⟨p, List.mem_append_left _ hp, hequity.trans (max_eq_left (not_lt.1 hge)).symm, htime⟩

theorem Tracks.maxAmount_nonneg (h : Tracks l s) : 0 ≤ s.maxAmount := by
  obtain ⟨p, hp, -⟩ := h.peakTime
  obtain ⟨i, hi⟩ := List.mem_iff_getElem?.1 hp
  exact h.maxAmount.2 ⟨p, p, ⟨i, i, le_rfl, hi, hi⟩, sub_self _⟩

/-- The percentages, once the point is seen: those of before, and that of the fall to the point
    if it is a largest one. -/
theorem Tracks.isTop_percents (h : Tracks l s) (point : EquityPoint) {d x : ℚ} (hd : 0 ≤ d)
    (hle : s.fall point ≤ d) (hx : IsTop (percents EquityPoint.equity l d) x) :
    IsTop (percents EquityPoint.equity (l ++ [point]) d)
      (max x (if s.fall point = d ∧ 0 < (s.seen point).peak then d * 100 / (s.seen point).peak
        else 0)) := by
  have hnew : ∀ r ∈ {r | (s.fall point = d ∧ 0 < (s.seen point).peak) ∧
      d * 100 / (s.seen point).peak = r}, 0 ≤ r := by
    rintro r ⟨⟨-, hpos⟩, rfl⟩
    exact div_nonneg (mul_nonneg hd (by norm_num)) hpos.le
  rw [percents_concat (h.peak_seen point) hle]
  simp only [← and_assoc]
  exact hx.union (isTop_singleton_or _ _) (percents_nonneg hd) hnew

theorem Tracks.advance (hctx : ctx.prec = none) (h : Tracks l s) (point : EquityPoint) :
    Tracks (l ++ [point]) (advanceDrawdown ctx s point.equity point.time) := by
  have hpeak := h.peak_seen point
  have hpeakTime := h.peakTime_seen point
  have hdrops : IsGreatest (drops EquityPoint.equity (l ++ [point]))
      (max s.maxAmount (s.fall point)) := isGreatest_drops_concat hpeak h.maxAmount
  have hcurrent : (l ++ [point]).getLast?.map (·.equity) = some (s.seen point).current := by
    rw [List.getLast?_concat]
    rfl
  rcases advanceDrawdown_cases hctx s point with ⟨hif, heq⟩ | ⟨hle, hpercent, heq⟩
  · -- the fall to the point is the largest, or one of the largest and larger in percent
    have hle : s.maxAmount ≤ s.fall point := hif.elim (·.le) (·.1.ge)
    have hnonneg := h.maxAmount_nonneg.trans hle
    rw [max_eq_right hle] at hdrops
    rw [heq]
    refine ⟨hcurrent, hpeak, hpeakTime, hdrops, ?_, ?_⟩
    · have htop : IsTop (percents EquityPoint.equity l (s.fall point))
          (if s.maxAmount < s.fall point then 0 else s.maxPct) := by
        split
        · rename_i hlt
          exact .inr ⟨percents_eq_empty h.maxAmount hlt, rfl⟩
        · rename_i hge
          rw [le_antisymm (not_lt.1 hge) hle]
          exact h.maxPct
      have hnew := h.isTop_percents point hnonneg le_rfl htop
      rw [max_eq_right ?_] at hnew
      · simpa only [true_and] using hnew
      · rcases hif with hlt | ⟨-, hlt⟩
        · rw [if_pos hlt]
          split
          · rename_i hpos
            exact div_nonneg (mul_nonneg hnonneg (by norm_num)) hpos.2.le
          · exact le_rfl
        · refine le_trans ?_ (hlt.le.trans (by simp only [true_and]; exact le_rfl))
          split
          · exact h.maxPct.nonneg (percents_nonneg h.maxAmount_nonneg)
          · exact le_rfl
    · obtain ⟨p, hp, hequity, htime⟩ := hpeakTime
      exact ⟨p, point, precedes_concat.2 (.inr ⟨hp, rfl⟩), by rw [hequity]; rfl, htime, rfl⟩
  · -- the largest drop so far stays
    rw [max_eq_left hle] at hdrops
    rw [heq]
    refine ⟨hcurrent, hpeak, hpeakTime, hdrops, ?_, ?_⟩
    · have hnew := h.isTop_percents point h.maxAmount_nonneg hle h.maxPct
      rw [max_eq_left ?_] at hnew
      · exact hnew
      · split
        · rename_i hand
          have := hpercent hand.1
          rwa [if_pos hand.2, hand.1] at this
        · exact h.maxPct.nonneg (percents_nonneg h.maxAmount_nonneg)
    · obtain ⟨p, q, hpq, hamount, hp, hq⟩ := h.times
      exact ⟨p, q, precedes_concat.2 (.inl hpq), hamount, hp, hq⟩

/-- What the pass over all points keeps of them. -/
theorem Tracks.run (hctx : ctx.prec = none) (initial : EquityPoint) (points : List EquityPoint) :
    Tracks (initial :: points) (drawdownOf ctx initial points) := by
  induction points using List.reverseRecOn with
  | nil => exact .new initial
  | append_singleton points point ih =>
    rw [drawdownOf, List.foldl_append, ← List.cons_append]
    exact ih.advance hctx point

/-- The maximum drawdown is the largest drop of the equity, of these the largest in percent, and its
    times are those of such a drop. The current one is the drop from the highest equity to the
    last. -/
theorem drawdown_max (initial : EquityPoint) (points : List EquityPoint) :
    let l := initial :: points
    let s := drawdownOf .exact initial points
    IsGreatest (drops EquityPoint.equity l) s.maxAmount ∧
      IsTop (percents EquityPoint.equity l s.maxAmount) s.maxPct ∧
      (∃ p q, Precedes l p q ∧ p.equity - q.equity = s.maxAmount ∧ p.time = s.maxPeakTime ∧
        q.time = s.maxTroughTime) ∧
      ∃ peak, IsGreatest (values EquityPoint.equity l) peak ∧
        s.currentAmount .exact = peak - (l.getLast (List.cons_ne_nil _ _)).equity := by
  intro l s
  have h : Tracks l s := .run rfl initial points
  refine ⟨h.maxAmount, h.maxPct, h.times, s.peak, h.peak, ?_⟩
  have hlast : (l.getLast (List.cons_ne_nil _ _)).equity = s.current := by
    have := h.current
    rw [List.getLast?_eq_getLast_of_ne_nil (List.cons_ne_nil _ _)] at this
    exact Option.some.inj this
  rw [hlast]
  rfl

/-- Of two drops by 30, the first one is larger in percent. -/
example : drawdownOf .exact ⟨100, some 0⟩
    [⟨120, some 1⟩, ⟨90, some 2⟩, ⟨150, some 3⟩, ⟨120, some 4⟩, ⟨125, some 5⟩] =
    ⟨150, 125, some 3, 30, 25, some 1, some 2⟩ := by
  decide +kernel

end IntradayBot.Replay.Analytics
