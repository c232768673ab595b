import Mathlib.Data.Finset.Card
import IntradayBot.Replay.Drawdown

/-!
# The equity curve

The curve of a session samples its marks at indexes that are spread evenly from the first mark to
the last. Where marks are malformed, their indexes are lost; the last valid mark takes the place of
the last sample then, or comes after it. The points are a part of the valid marks, in their order
(`Sampling.Follows`).
-/

namespace IntradayBot.Replay.Analytics

open Decimal

variable {ctx : Context} {indexes : Finset ℕ} {session : Session} {rows : List MarkRow}
  {row : MarkRow} {s s' : Sampling} {points sampled : List CurvePoint} {point last : CurvePoint}
  {n L limit : ℕ}

/-! ## The indexes -/

theorem equitySampleIndexes_of_le (hL : 2 ≤ L) (h : n ≤ L) :
    equitySampleIndexes n L = Finset.range n := by
  have hlimit : (max 2 (L : ℤ)).toNat = L := by omega
  have hcount : (max 0 (n : ℤ)).toNat = n := by omega
  rw [equitySampleIndexes, hlimit, hcount, if_pos h]

theorem equitySampleIndexes_of_lt (hL : 2 ≤ L) (h : L < n) :
    equitySampleIndexes n L = (Finset.range L).image fun index => index * (n - 1) / (L - 1) := by
  have hlimit : (max 2 (L : ℤ)).toNat = L := by omega
  have hcount : (max 0 (n : ℤ)).toNat = n := by omega
  rw [equitySampleIndexes, hlimit, hcount, if_neg h.not_ge]

/-- The indexes are at least one apart: a step of `index` adds no less than the divisor. -/
theorem sampleIndex_strictMono {a b : ℕ} (hb : 0 < b) (h : b ≤ a) :
    StrictMono fun index => index * a / b := by
  refine strictMono_nat_of_lt_succ fun index => ?_
  calc index * a / b < index * a / b + 1 := Nat.lt_succ_self _
    _ = (index * a + b) / b := (Nat.add_div_right _ hb).symm
    _ ≤ (index + 1) * a / b := Nat.div_le_div_right (by rw [Nat.succ_mul]; omega)

theorem card_equitySampleIndexes (hL : 2 ≤ L) : (equitySampleIndexes n L).card = min n L := by
  rcases le_or_gt n L with h | h
  · rw [equitySampleIndexes_of_le hL h, Finset.card_range, min_eq_left h]
  · have hmono : StrictMono fun index => index * (n - 1) / (L - 1) :=
      sampleIndex_strictMono (by omega) (by omega)
    rw [equitySampleIndexes_of_lt hL h, Finset.card_image_of_injective _ hmono.injective,
      Finset.card_range, min_eq_right h.le]

theorem equitySampleIndexes_subset (hL : 2 ≤ L) : equitySampleIndexes n L ⊆ Finset.range n := by
  rcases le_or_gt n L with h | h
  · rw [equitySampleIndexes_of_le hL h]
  · rw [equitySampleIndexes_of_lt hL h]
    intro i hi
    obtain ⟨index, hindex, rfl⟩ := Finset.mem_image.1 hi
    have hle : index ≤ L - 1 := by
      have := Finset.mem_range.1 hindex
      omega
    have hdiv : index * (n - 1) / (L - 1) ≤ n - 1 :=
      Nat.div_le_of_le_mul (Nat.mul_le_mul_right _ hle)
    rw [Finset.mem_range]
    omega

theorem zero_mem_equitySampleIndexes (hL : 2 ≤ L) (hn : 0 < n) : 0 ∈ equitySampleIndexes n L := by
  rcases le_or_gt n L with h | h
  · rw [equitySampleIndexes_of_le hL h]
    exact Finset.mem_range.2 hn
  · rw [equitySampleIndexes_of_lt hL h]
    exact Finset.mem_image.2 ⟨0, Finset.mem_range.2 (by omega), by simp⟩

theorem last_mem_equitySampleIndexes (hL : 2 ≤ L) (hn : 0 < n) :
    n - 1 ∈ equitySampleIndexes n L := by
  rcases le_or_gt n L with h | h
  · rw [equitySampleIndexes_of_le hL h]
    exact Finset.mem_range.2 (by omega)
  · rw [equitySampleIndexes_of_lt hL h]
    exact Finset.mem_image.2 ⟨L - 1, Finset.mem_range.2 (by omega),
      Nat.mul_div_cancel_left _ (by omega)⟩

/-! ## The marks -/

/-- The equity of a mark, if it is a number. -/
def MarkRow.equity? (row : MarkRow) : Option ℚ :=
  (decimal (row.payload.get "equity") "equity mark").toOption

/-- A valid mark, and its point. -/
def MarkRow.Marks (ctx : Context) (row : MarkRow) (point : CurvePoint) : Prop :=
  ∃ equity, row.equity? = some equity ∧ row.point ctx equity = .ok point

theorem MarkRow.Marks.sequenceNo (h : row.Marks ctx point) :
    point.sequenceNo = row.sequenceNo := by
  obtain ⟨equity, -, hpoint⟩ := h
  simp only [MarkRow.point, bind_eq_ok, pure_eq_ok] at hpoint
  obtain ⟨_, -, rfl⟩ := hpoint
  rfl

/-- The equities of the valid marks, and when they were marked. -/
def validEquities (rows : List MarkRow) : List EquityPoint :=
  rows.filterMap fun row => row.equity?.map fun equity => ⟨equity, row.candleOpenTime⟩

/-- The valid marks. -/
def validMarks (rows : List MarkRow) : List MarkRow := rows.filter (·.equity?.isSome)

/-! ## The pass over the marks -/

/-- What a pass does on a mark: nothing if it is malformed, and else it is the last valid one, and
    is sampled if its index is among those to sample. -/
theorem sampleMark_eq_ok {index : ℕ} (h : sampleMark ctx indexes s (row, index) = .ok s') :
    (row.equity? = none ∧ s' = { s with ignoredMarks := s.ignoredMarks + 1 }) ∨
      ∃ equity point, row.equity? = some equity ∧ row.point ctx equity = .ok point ∧
        s' = { s with
          drawdown := advanceDrawdown ctx s.drawdown equity row.candleOpenTime
          lastValid := some point
          sampled := if index ∈ indexes then s.sampled ++ [point] else s.sampled } := by
  rw [sampleMark] at h
  rcases hdecimal : decimal (row.payload.get "equity") "equity mark" with _ | equity
  · rw [hdecimal] at h
    refine .inl ⟨by rw [MarkRow.equity?, hdecimal]; rfl, ?_⟩
    exact (pure_eq_ok.1 h).symm
  · rw [hdecimal] at h
    simp only [bind_eq_ok, pure_eq_ok] at h
    obtain ⟨point, hpoint, rfl⟩ := h
    exact .inr ⟨equity, point, by rw [MarkRow.equity?, hdecimal]; rfl, hpoint, rfl⟩

/-- What the pass has found in the rows so far: the valid marks have the `points`, of which some
    are sampled, no more than there are indexes to sample. -/
structure Sampling.Follows (ctx : Context) (indexes : Finset ℕ) (session : Session)
    (rows : List MarkRow) (points : List CurvePoint) (s : Sampling) : Prop where
  marks : List.Forall₂ (MarkRow.Marks ctx) (validMarks rows) points
  lastValid : s.lastValid = points.getLast?
  sampled : s.sampled.Sublist points
  length_le : s.sampled.length ≤ (indexes.filter (· < rows.length)).card
  drawdown : s.drawdown =
    drawdownOf ctx ⟨session.initialBalance, some session.startTime⟩ (validEquities rows)

theorem card_filter_lt_succ (indexes : Finset ℕ) (n : ℕ) :
    (indexes.filter (· < n + 1)).card =
      (indexes.filter (· < n)).card + if n ∈ indexes then 1 else 0 := by
  have hfilter : indexes.filter (· < n + 1) =
      indexes.filter (· < n) ∪ indexes.filter (· = n) := by
    ext i
    simp only [Finset.mem_filter, Finset.mem_union, Nat.lt_succ_iff_lt_or_eq]
    tauto
  have hdisjoint : Disjoint (indexes.filter (· < n)) (indexes.filter (· = n)) :=
    Finset.disjoint_filter.2 fun i _ hlt heq => absurd heq hlt.ne
  rw [hfilter, Finset.card_union_of_disjoint hdisjoint, Finset.filter_eq']
  split <;> rfl

theorem Sampling.Follows.next (h : s.Follows ctx indexes session rows points)
    (hnext : sampleMark ctx indexes s (row, rows.length) = .ok s') :
    ∃ points', s'.Follows ctx indexes session (rows ++ [row]) points' := by
  have hcard := card_filter_lt_succ indexes rows.length
  have hlength : (rows ++ [row]).length = rows.length + 1 := by simp
  rcases sampleMark_eq_ok hnext with ⟨hnone, rfl⟩ | ⟨equity, point, hequity, hpoint, rfl⟩
  · -- the mark is ignored
    have hvalid : validMarks (rows ++ [row]) = validMarks rows := by
      simp [validMarks, hnone]
    have hequities : validEquities (rows ++ [row]) = validEquities rows := by
      simp [validEquities, hnone]
    refine ⟨points, hvalid ▸ h.marks, h.lastValid, h.sampled, ?_, hequities ▸ h.drawdown⟩
    rw [hlength, hcard]
    exact h.length_le.trans (Nat.le_add_right _ _)
  · have hvalid : validMarks (rows ++ [row]) = validMarks rows ++ [row] := by
      simp [validMarks, hequity]
    have hequities : validEquities (rows ++ [row]) =
        validEquities rows ++ [⟨equity, row.candleOpenTime⟩] := by
      simp [validEquities, hequity]
    refine ⟨points ++ [point], ?_, ?_, ?_, ?_, ?_⟩
    · rw [hvalid]
      exact List.rel_append h.marks (.cons ⟨equity, hequity, hpoint⟩ .nil)
    · rw [List.getLast?_concat]
    · dsimp only
      split
      · exact h.sampled.append (List.Sublist.refl _)
      · exact h.sampled.trans (List.sublist_append_left _ _)
    · rw [hlength, hcard]
      dsimp only
      split
      · rw [List.length_append, List.length_singleton]
        exact Nat.add_le_add_right h.length_le 1
      · exact h.length_le
    · rw [hequities, drawdownOf, List.foldl_append, ← drawdownOf, ← h.drawdown]
      rfl

theorem Sampling.Follows.start (ctx : Context) (indexes : Finset ℕ) (session : Session) :
    (Sampling.start session).Follows ctx indexes session [] [] where
  marks := .nil
  lastValid := rfl
  sampled := .refl _
  length_le := Nat.zero_le _
  drawdown := rfl

/-- What the pass over all rows finds, by induction on the rows from their end. -/
theorem Sampling.Follows.run
    (h : rows.zipIdx.foldlM (sampleMark ctx indexes) (Sampling.start session) = .ok s) :
    ∃ points, s.Follows ctx indexes session rows points := by
  induction rows using List.reverseRecOn generalizing s with
  | nil =>
    obtain rfl := pure_eq_ok.1 h
    exact ⟨[], .start ctx indexes session⟩
  | append_singleton rows row ih =>
    rw [List.zipIdx_append, List.foldlM_append, bind_eq_ok] at h
    obtain ⟨s₁, hs₁, hs⟩ := h
    obtain ⟨points, hpoints⟩ := ih hs₁
    rw [List.zipIdx_singleton, Nat.zero_add, List.foldlM_cons, bind_eq_ok] at hs
    obtain ⟨s₂, hs₂, hs⟩ := hs
    obtain rfl := pure_eq_ok.1 hs
    exact hpoints.next hs₂

/-- The points of the valid marks are in their order. -/
theorem pairwise_points {marks : MarkRows}
    (h : List.Forall₂ (MarkRow.Marks ctx) (validMarks marks.rows) points) :
    points.Pairwise fun a b => a.sequenceNo < b.sequenceNo := by
  have hsorted : (validMarks marks.rows).Pairwise fun a b => a.sequenceNo < b.sequenceNo :=
    marks.sorted.filter _
  have hmap : points.map (·.sequenceNo) = (validMarks marks.rows).map (·.sequenceNo) := by
    generalize validMarks marks.rows = rows at h
    induction h with
    | nil => rfl
    | cons hpoint _ ih => rw [List.map_cons, List.map_cons, ih, hpoint.sequenceNo]
  rw [← List.pairwise_map (R := (· < ·)), hmap, List.pairwise_map]
  exact hsorted

/-! ## The last mark -/

/-- The points that end with the last valid one are among the valid ones, in their order. -/
theorem withLast_sublist (hpoints : points.Pairwise fun a b => a.sequenceNo < b.sequenceNo)
    (h : sampled.Sublist points) :
    (withLast limit sampled points.getLast?).Sublist points ∧
      (withLast limit sampled points.getLast?).getLast? = points.getLast? := by
  rcases List.eq_nil_or_concat points with rfl | ⟨front, last, rfl⟩
  · obtain rfl := List.sublist_nil.1 h
    exact ⟨.refl _, rfl⟩
  rw [List.concat_eq_append] at *
  rw [List.getLast?_concat]
  obtain ⟨sampled, tail, rfl, hsampled, htail⟩ := List.sublist_append_iff.1 h
  -- the last valid point is the last sample, or is no sample at all
  rcases List.sublist_singleton.1 htail with rfl | rfl
  · rw [List.append_nil]
    rcases List.eq_nil_or_concat sampled with rfl | ⟨init, point, rfl⟩
    · exact ⟨List.sublist_append_right _ _, rfl⟩
    rw [List.concat_eq_append] at *
    have hlt : point.sequenceNo < last.sequenceNo :=
      (List.pairwise_append.1 hpoints).2.2 point (hsampled.subset (by simp)) last (by simp)
    simp only [withLast, List.getLast?_concat, if_neg hlt.ne]
    split
    · rw [List.dropLast_concat, List.getLast?_concat]
      exact ⟨((List.sublist_append_left _ _).trans hsampled).append (.refl _), rfl⟩
    · rw [List.getLast?_concat]
      exact ⟨hsampled.append (.refl _), rfl⟩
  · simp only [withLast, List.getLast?_concat, if_pos, and_true]
    exact hsampled.append (.refl _)

theorem length_withLast_le (hlimit : 0 < limit) (h : sampled.length ≤ limit)
    (lastValid : Option CurvePoint) : (withLast limit sampled lastValid).length ≤ limit := by
  rcases lastValid with _ | last
  · exact h
  rcases hlast : sampled.getLast? with _ | point
  · simp only [withLast, hlast]
    exact hlimit
  have hpos : 0 < sampled.length := by
    rw [List.length_pos_iff]
    rintro rfl
    cases hlast
  simp only [withLast, hlast]
  split
  · exact h
  split
  · rw [List.length_append, List.length_dropLast, List.length_singleton]
    omega
  · rename_i hlt
    rw [List.length_append, List.length_singleton]
    omega

/-! ## The performance -/

theorem performance_eq_ok {trades : List Trade} {marks : MarkRows} {markCount : ℕ} {include_ : Bool}
    {p : Performance} (h : performance ctx session trades marks markCount include_ limit = .ok p) :
    2 ≤ limit ∧ calculateTradeMetrics ctx trades session = .ok p.metrics ∧
      ∃ s, sampleMarks ctx (if include_ then equitySampleIndexes markCount limit else ∅) session
          marks = .ok s ∧
        drawdownResult ctx s.drawdown = .ok p.drawdown ∧
        p.equityCurve = if include_ then withLast limit s.sampled s.lastValid else [] := by
  simp only [performance, bind_eq_ok, require_eq_ok, pure_eq_ok] at h
  obtain ⟨_, hlimit, metrics, hmetrics, s, hs, drawdown, hdrawdown, factor, -, rfl⟩ := h
  exact ⟨hlimit.1, hmetrics, s, hs, hdrawdown, rfl⟩

theorem quantized_exact (places : ℕ) (value : ℚ) :
    quantized .exact places value = .ok (truncate (value * 10 ^ places) / 10 ^ places) := by
  have hkeeps : Context.exact.Keeps (truncate (value * 10 ^ places)) := fun _ h => by cases h
  rw [quantized, Context.quantize, if_pos hkeeps]

/-- In exact arithmetic, the metrics can always be calculated. -/
theorem calculateTradeMetrics_exact (trades : List Trade) (session : Session) :
    ∃ metrics, calculateTradeMetrics .exact trades session = .ok metrics := by
  obtain ⟨factor, hfactor⟩ : ∃ factor, profitFactor .exact
      (Context.exact.sum
        ((((sortBy tradeKey trades).filter (·.status = .closed)).map (·.realizedPnl)).filter (0 < ·)))
      (Context.exact.neg (Context.exact.sum
        ((((sortBy tradeKey trades).filter (·.status = .closed)).map (·.realizedPnl)).filter
          (· < 0)))) = .ok factor := by
    rw [profitFactor]
    split
    · exact ⟨_, by rw [ratio, quantized_exact]; rfl⟩
    split
    · exact ⟨_, rfl⟩
    · exact ⟨_, rfl⟩
  simp only [calculateTradeMetrics, money, ratio, quantized_exact, hfactor]
  exact ⟨_, rfl⟩

theorem sampleMarks_exact (indexes : Finset ℕ) (session : Session) (marks : MarkRows) :
    ∃ s, sampleMarks .exact indexes session marks = .ok s := by
  have hstep : ∀ s mark, ∃ s', sampleMark .exact indexes s mark = .ok s' := by
    rintro s ⟨row, index⟩
    rw [sampleMark]
    split
    · exact ⟨_, rfl⟩
    · simp only [MarkRow.point, money, quantized_exact]
      exact ⟨_, rfl⟩
  rw [sampleMarks]
  generalize marks.rows.zipIdx = rows, Sampling.start session = s
  induction rows generalizing s with
  | nil => exact ⟨s, rfl⟩
  | cons mark rows ih =>
    obtain ⟨s', hs'⟩ := hstep s mark
    rw [List.foldlM_cons, hs']
    exact ih s'

theorem drawdownResult_exact (s : DrawdownState) : ∃ r, drawdownResult .exact s = .ok r := by
  simp only [drawdownResult, money, ratio, quantized_exact]
  exact ⟨_, rfl⟩

theorem recoveryFactor_exact (netRealizedPnl maxDrawdown : ℚ) :
    ∃ factor, recoveryFactor .exact netRealizedPnl maxDrawdown = .ok factor := by
  rw [recoveryFactor]
  split
  · exact ⟨_, by rw [ratio, quantized_exact]; rfl⟩
  · exact ⟨_, rfl⟩

theorem performance_exact (session : Session) (trades : List Trade) (marks : MarkRows)
    (markCount : ℕ) (include_ : Bool) (h : 2 ≤ limit ∧ limit ≤ MAX_CURVE_LIMIT) :
    ∃ p, performance .exact session trades marks markCount include_ limit = .ok p := by
  obtain ⟨metrics, hmetrics⟩ := calculateTradeMetrics_exact trades session
  obtain ⟨s, hs⟩ := sampleMarks_exact
    (if include_ then equitySampleIndexes markCount limit else ∅) session marks
  obtain ⟨drawdown, hdrawdown⟩ := drawdownResult_exact s.drawdown
  obtain ⟨factor, hfactor⟩ := recoveryFactor_exact metrics.netRealizedPnl drawdown.maxDrawdown
  simp only [performance, bind_eq_ok, require_eq_ok]
  exact ⟨_, (), h, metrics, hmetrics, s, hs, drawdown, hdrawdown, factor, hfactor, rfl⟩

/-- The drawdown of the performance is that of the valid marks, from the initial balance. -/
theorem performance_drawdown {trades : List Trade} {marks : MarkRows} {markCount : ℕ}
    {include_ : Bool} {p : Performance}
    (h : performance ctx session trades marks markCount include_ limit = .ok p) :
    drawdownResult ctx (drawdownOf ctx ⟨session.initialBalance, some session.startTime⟩
      (validEquities marks.rows)) = .ok p.drawdown := by
  obtain ⟨-, -, s, hs, hdrawdown, -⟩ := performance_eq_ok h
  obtain ⟨points, hfollows⟩ := Sampling.Follows.run hs
  exact hfollows.drawdown ▸ hdrawdown

/-- There are as many indexes as there may be points, the first and the last one among them. The
    curve is no longer, in the order of the marks, of valid marks only, and ends with the last. -/
theorem equity_curve :
    (∀ n L : ℕ, 2 ≤ L → equitySampleIndexes n L ⊆ Finset.range n ∧
      (equitySampleIndexes n L).card = min n L ∧
      (0 < n → 0 ∈ equitySampleIndexes n L ∧ n - 1 ∈ equitySampleIndexes n L)) ∧
    (∀ (ctx : Context) (session : Session) (trades : List Trade) (marks : MarkRows)
      (markCount limit : ℕ) (p : Performance),
      performance ctx session trades marks markCount true limit = .ok p →
        p.equityCurve.length ≤ limit ∧
        (p.equityCurve.Pairwise fun a b => a.sequenceNo < b.sequenceNo) ∧
        (∀ point ∈ p.equityCurve, ∃ row ∈ marks.rows, row.Marks ctx point) ∧
        ∀ row, (validMarks marks.rows).getLast? = some row →
          ∃ point, p.equityCurve.getLast? = some point ∧ row.Marks ctx point) ∧
    ∀ (session : Session) (trades : List Trade) (marks : MarkRows) (markCount limit : ℕ),
      2 ≤ limit → limit ≤ MAX_CURVE_LIMIT →
        ∃ p, performance .exact session trades marks markCount true limit = .ok p := by
  refine ⟨fun n L hL => ⟨equitySampleIndexes_subset hL, card_equitySampleIndexes hL, fun hn =>
    ⟨zero_mem_equitySampleIndexes hL hn, last_mem_equitySampleIndexes hL hn⟩⟩, ?_,
    fun session trades marks markCount limit h2 hmax =>
      performance_exact session trades marks markCount true ⟨h2, hmax⟩⟩
  intro ctx session trades marks markCount limit p h
  obtain ⟨hlimit, -, s, hs, -, hcurve⟩ := performance_eq_ok h
  rw [if_pos rfl] at hs hcurve
  -- The sampled points are marks in order, the last of which is added where it was left out.
  obtain ⟨points, hfollows⟩ := Sampling.Follows.run hs
  have hpairwise := pairwise_points hfollows.marks
  have hlength : s.sampled.length ≤ limit := by
    refine hfollows.length_le.trans ((Finset.card_filter_le _ _).trans ?_)
    rw [card_equitySampleIndexes hlimit]
    exact min_le_right _ _
  rw [hfollows.lastValid] at hcurve
  obtain ⟨hsublist, hlast⟩ := @withLast_sublist _ _ limit hpairwise hfollows.sampled
  rw [hcurve]
  refine ⟨length_withLast_le (by omega) hlength _, hpairwise.sublist hsublist, ?_, ?_⟩
  · intro point hpoint
    obtain ⟨row, hrow, hmarks⟩ := exists_of_mem_forall₂ hfollows.marks (hsublist.subset hpoint)
    exact ⟨row, (List.mem_filter.1 hrow).1, hmarks⟩
  · intro row hrow
    rw [hlast]
    rw [← List.head?_reverse] at hrow ⊢
    have hreverse := List.rel_reverse hfollows.marks
    rcases hrows : (validMarks marks.rows).reverse with _ | ⟨row', rows⟩
    · rw [hrows] at hrow
      cases hrow
    · rw [hrows] at hrow hreverse
      obtain ⟨point, points', hmarks, -, hpoints⟩ := List.forall₂_cons_left_iff.1 hreverse
      rw [hpoints]
      exact ⟨point, rfl, Option.some.inj hrow ▸ hmarks⟩

/-- A session without trades. -/
def exampleSession : Session where
  sessionId := "session"
  symbol := "BTCUSDT"
  timeframe := .m5
  status := .paused
  startTime := 600000
  endTime := 6000000
  cursorTime := some 3600000
  initialBalance := 1000
  balance := 1000
  equity := 1010
  strategyMode := .balanced
  config := .obj []
  summary := .empty

/-- A mark with the equity. -/
def exampleMark (sequenceNo : ℤ) (equity : Json) : MarkRow where
  sequenceNo := sequenceNo
  candleOpenTime := some (sequenceNo * 300000)
  payload := .obj [("equity", equity)]
  createdAt := sequenceNo

/-- Five marks, of which the third and the last are malformed. -/
def exampleMarks : MarkRows where
  rows := [exampleMark 3 (.str "1000"), exampleMark 5 (.str "990.5"), exampleMark 6 (.str "nan"),
    exampleMark 9 (.num 1010), exampleMark 12 .null]
  sorted := by simp [exampleMark]

/-- The samples at the malformed marks are lost, and the last valid mark is appended. -/
theorem equity_curve_malformed : (equitySampleIndexes 5 3).card = 3 ∧
    ∃ p, performance .exact exampleSession [] exampleMarks 5 true 3 = .ok p ∧
      p.equityCurve.map (·.sequenceNo) = [3, 9] ∧ p.equityCurve.length ≤ 3 := by
  obtain ⟨hindexes, hcurve, htotal⟩ := equity_curve
  have hpoints : (performance .exact exampleSession [] exampleMarks 5 true 3).toOption.any
      fun p => p.equityCurve.map (·.sequenceNo) = [3, 9] := by
    decide +kernel
  obtain ⟨p, hp⟩ := htotal exampleSession [] exampleMarks 5 3 (by decide) (by decide)
  rw [hp] at hpoints
  exact ⟨(hindexes 5 3 (by decide)).2.1, p, hp, of_decide_eq_true hpoints, (hcurve _ _ _ _ _ _ p hp).1⟩

end IntradayBot.Replay.Analytics
