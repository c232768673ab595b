import Mathlib.Algebra.BigOperators.Ring.List
import Mathlib.Data.List.Destutter
import Mathlib.Tactic.NormNum
import IntradayBot.Ledger.Reconciled

/-!
# Position histories

What really happened to the positions of an account (`History`): from its opening
positions, each fill moves the exposure of its symbol. An exposure that grows from flat is
an entry, one that grows on its side an addition, one that shrinks a partial exit; it ends in a
full exit, or in a reversal to the other side (`trueAction`). A position cycle is a
stretch of exposure on one side (`cycles`).

The reconciliation only knows the fills, in any order, and the positions in the end: it
gives back the history (`reconcileExecutions_history`).
-/

namespace IntradayBot.Ledger

open SignType

/-- What takes an exposure from `before` to `after`. -/
def trueAction (before after : ℚ) : LedgerAction :=
  if before = 0 then .entry
  else if after = 0 then .fullExit
  else if sign after ≠ sign before then .reversal
  else if |after| < |before| then .partialExit
  else .add

/-- How much exposure is closed from `before` to `after`. -/
def trueClosed (before after : ℚ) : ℚ :=
  if sign after = sign before then max 0 (|before| - |after|) else |before|

/-- How much exposure is opened from `before` to `after`. -/
def trueEntry (before after : ℚ) : ℚ :=
  if sign after = sign before then max 0 (|after| - |before|) else |after|

/-- What a fill does to the exposure of its symbol. -/
def trueRow (before : ℚ) (e : Execution) : LedgerRow :=
  { e with
    positionBefore := before
    positionAfter := before + e.delta
    closedSize := trueClosed before (before + e.delta)
    entrySize := trueEntry before (before + e.delta)
    action := trueAction before (before + e.delta) }

/-- What the fills do, one after the other. -/
def trueRows : (String → ℚ) → List Execution → List LedgerRow
  | _, [] => []
  | p, e :: l =>
    trueRow (p e.symbol) e :: trueRows (Function.update p e.symbol (p e.symbol + e.delta)) l

/-- What the fills of one symbol do, one after the other. -/
def symbolRows : ℚ → List Execution → List LedgerRow
  | _, [] => []
  | p, e :: l => trueRow p e :: symbolRows (p + e.delta) l

/-- The exposures before, between and after the fills of one symbol. -/
def exposures : ℚ → List Execution → List ℚ
  | p, [] => [p]
  | p, e :: l => p :: exposures (p + e.delta) l

/-- The position cycles: the stretches of exposure on one side. -/
def cycles (exposures : List ℚ) : List SignType :=
  ((exposures.map sign).destutter (· ≠ ·)).filter (· ≠ 0)

/-- The cycles that are over: the last one is not, while there is exposure. -/
def completedCycles (exposures : List ℚ) : ℕ :=
  (cycles exposures).length - if exposures.getLast?.any (· ≠ 0) then 1 else 0

/-- A history of netted positions. The order of the executions of a symbol is the order in
    which they happened, and what the exchange says of the quantity closed, if it does, is true. -/
structure History where
  opening : String → ℚ
  fills : List Execution
  ordered : fills.Pairwise fun a b =>
    a.symbol = b.symbol → executionSortKey a < executionSortKey b
  closed : ∀ row ∈ trueRows opening fills,
    row.apiClosedSize.getD 0 = 0 ∨ row.apiClosedSize.getD 0 = row.closedSize

namespace History

/-- The fills of a symbol. -/
def fillsOf (h : History) (s : String) : List Execution := h.fills.filter (·.symbol = s)

/-- The positions in the end. -/
def final (h : History) (s : String) : ℚ := h.opening s + netDelta (h.fillsOf s)

/-- The rows of the true history. -/
def rows (h : History) : List LedgerRow := trueRows h.opening h.fills

/-- The position cycles that are over, of all symbols. -/
def completed (h : History) : ℕ :=
  ∑ s ∈ (h.fills.map (·.symbol)).toFinset, completedCycles (exposures (h.opening s) (h.fillsOf s))

end History

/-! ## One execution -/

theorem Execution.abs_delta (e : Execution) : |e.delta| = |e.execQty| := by
  rw [Execution.delta]
  cases e.side
  · exact abs_abs _
  · exact (abs_neg _).trans (abs_abs _)

theorem Execution.delta_ne_zero (e : Execution) : e.delta ≠ 0 := by
  rw [← abs_pos, e.abs_delta]
  exact abs_pos.2 e.execQty_pos.ne'

section

variable {b d : ℚ}

theorem inferredClosed_neg (b d q : ℚ) : inferredClosed (-b) (-d) q = inferredClosed b d q := by
  simp [inferredClosed, Left.sign_neg]

theorem classify_neg (b a c e : ℚ) : classify (-b) (-a) c e = classify b a c e := by
  simp [classify]

theorem trueClosed_neg (b a : ℚ) : trueClosed (-b) (-a) = trueClosed b a := by
  simp [trueClosed, Left.sign_neg]

theorem trueEntry_neg (b a : ℚ) : trueEntry (-b) (-a) = trueEntry b a := by
  simp [trueEntry, Left.sign_neg]

theorem trueAction_neg (b a : ℚ) : trueAction (-b) (-a) = trueAction b a := by
  simp [trueAction, Left.sign_neg]

/-- What the positions and the quantity of an execution tell is what happened. -/
def Tells (b d : ℚ) : Prop :=
  inferredClosed b d |d| = trueClosed b (b + d) ∧
    max 0 (|d| - trueClosed b (b + d)) = trueEntry b (b + d) ∧
    classify b (b + d) (trueClosed b (b + d)) (trueEntry b (b + d)) = trueAction b (b + d) ∧
    0 ≤ trueClosed b (b + d) ∧ trueClosed b (b + d) ≤ |d|

theorem tells_of_neg (h : Tells (-b) (-d)) : Tells b d := by
  rw [Tells, ← neg_add, trueClosed_neg, trueEntry_neg, trueAction_neg, classify_neg,
    inferredClosed_neg, abs_neg] at h
  exact h

/-- An exposure on the buy side: it grows, shrinks, ends or is reversed. -/
theorem tells_of_pos (hb : 0 < b) (hd : d ≠ 0) : Tells b d := by
  -- A sell closes in part, closes all, or reverses; a buy adds to the position.
  rcases lt_or_gt_of_ne hd with hd | hd
  · rcases lt_trichotomy (b + d) 0 with ha | ha | ha
    · have hc : trueClosed b (b + d) = b := by
        simp [trueClosed, sign_pos hb, sign_neg ha, abs_of_pos hb]
      have he : trueEntry b (b + d) = -(b + d) := by
        simp [trueEntry, sign_pos hb, sign_neg ha, abs_of_neg ha]
      have hmin : min b (-d) = b := min_eq_left (by linarith)
      have hmax : max 0 (-d - b) = -(b + d) := (max_eq_right (by linarith)).trans (by linarith)
      simp only [Tells, hc, he, inferredClosed, classify, trueAction, sign_pos hb, sign_neg ha,
        sign_neg hd, abs_of_pos hb, abs_of_neg hd, hmin, hmax, hb, hb.ne', ha.ne]
      refine ⟨by simp, trivial, ?_, hb.le, by linarith⟩
      simp [-neg_add_rev, neg_pos.2 ha]
    · have hc : trueClosed b 0 = b := by simp [trueClosed, sign_pos hb, abs_of_pos hb]
      have he : trueEntry b 0 = 0 := by simp [trueEntry, sign_pos hb]
      have hneg : -d = b := by linarith
      simp [Tells, ha, hc, he, inferredClosed, classify, trueAction, sign_pos hb, sign_neg hd,
        abs_of_pos hb, abs_of_neg hd, hneg, hb, hb.ne', hb.le]
    · have hc : trueClosed b (b + d) = -d := by
        rw [trueClosed, sign_pos hb, sign_pos ha, if_pos rfl, abs_of_pos hb, abs_of_pos ha,
          max_eq_right (by linarith)]
        linarith
      have he : trueEntry b (b + d) = 0 := by
        rw [trueEntry, sign_pos hb, sign_pos ha, if_pos rfl, abs_of_pos hb, abs_of_pos ha,
          max_eq_left (by linarith)]
      have hmin : min b (-d) = -d := min_eq_right (by linarith)
      simp [Tells, hc, he, inferredClosed, classify, trueAction, sign_pos hb, sign_pos ha,
        sign_neg hd, abs_of_pos hb, abs_of_pos ha, abs_of_neg hd, hmin, hb.ne', ha.ne', hd, hd.le]
  · have ha : 0 < b + d := add_pos hb hd
    have hc : trueClosed b (b + d) = 0 := by
      rw [trueClosed, sign_pos hb, sign_pos ha, if_pos rfl, abs_of_pos hb, abs_of_pos ha,
        max_eq_left (by linarith)]
    have he : trueEntry b (b + d) = d := by
      rw [trueEntry, sign_pos hb, sign_pos ha, if_pos rfl, abs_of_pos hb, abs_of_pos ha,
        max_eq_right (by linarith)]
      linarith
    simp [Tells, hc, he, inferredClosed, classify, trueAction, sign_pos hb, sign_pos ha,
      sign_pos hd, abs_of_pos hb, abs_of_pos ha, abs_of_pos hd, hb.ne', ha.ne', hd.le]

theorem tells (b : ℚ) (hd : d ≠ 0) : Tells b d := by
  rcases lt_trichotomy b 0 with hb | rfl | hb
  · exact tells_of_neg (tells_of_pos (neg_pos.2 hb) (neg_ne_zero.2 hd))
  · simp [Tells, inferredClosed, classify, trueClosed, trueEntry, trueAction, hd]
  · exact tells_of_pos hb hd

end

/-- The row of an execution, from the position after it, is what it did. -/
theorem reconcileExecution_eq (p : ℚ) (e : Execution)
    (hclosed : e.apiClosedSize.getD 0 = 0 ∨
      e.apiClosedSize.getD 0 = trueClosed p (p + e.delta)) :
    reconcileExecution e (p + e.delta) = trueRow p e := by
  obtain ⟨hinferred, hentry, haction, hnonneg, hle⟩ := tells p e.delta_ne_zero
  rw [e.abs_delta] at hinferred hentry hle
  have hbefore : p + e.delta - e.delta = p := add_sub_cancel_right _ _
  have hmax : max (trueClosed p (p + e.delta)) (min |e.execQty| |e.apiClosedSize.getD 0|) =
      trueClosed p (p + e.delta) := by
    refine max_eq_left (min_le_iff.2 (.inr ?_))
    rcases hclosed with h | h <;> rw [h]
    · rwa [abs_zero]
    · rw [abs_of_nonneg hnonneg]
  simp only [reconcileExecution, trueRow, hbefore, hinferred, hmax, hentry, haction]

/-! ## Symbols -/

/-- What the fills of a symbol do does not depend on the other fills. -/
theorem filter_trueRows (p : String → ℚ) (l : List Execution) (s : String) :
    (trueRows p l).filter (·.symbol = s) = symbolRows (p s) (l.filter (·.symbol = s)) := by
  induction l generalizing p with
  | nil => rfl
  | cons e l ih =>
    rw [trueRows, List.filter_cons, List.filter_cons, ih]
    by_cases hs : e.symbol = s
    · subst hs
      have hrow : (trueRow (p e.symbol) e).symbol = e.symbol := rfl
      simp [hrow, symbolRows]
    · have hrow : (trueRow (p e.symbol) e).symbol = e.symbol := rfl
      simp [hrow, hs, Function.update_of_ne (Ne.symm hs)]

/-- The walk backward gives what the fills of the symbol did. -/
theorem reconcileSymbol_symbolRows (p : ℚ) (l : List Execution)
    (hclosed : ∀ row ∈ symbolRows p l,
      row.apiClosedSize.getD 0 = 0 ∨ row.apiClosedSize.getD 0 = row.closedSize) :
    (reconcileSymbol (p + netDelta l) l).2 = symbolRows p l := by
  induction l generalizing p with
  | nil => rfl
  | cons e l ih =>
    rw [symbolRows, List.forall_mem_cons] at hclosed
    have hafter : p + netDelta (e :: l) = p + e.delta + netDelta l := by
      rw [netDelta_cons, add_assoc]
    rw [reconcileSymbol_cons, hafter, ih _ hclosed.2, reconcileSymbol_fst, add_sub_cancel_right,
      reconcileExecution_eq p e hclosed.1, symbolRows]

/-! ## Cycles -/

/-- The fills of a symbol that end a cycle. -/
def Ends (row : LedgerRow) : Prop := row.action = .fullExit ∨ row.action = .reversal

instance : DecidablePred Ends := fun _ => inferInstanceAs (Decidable (_ ∨ _))

theorem ends_trueRow (p : ℚ) (e : Execution) :
    Ends (trueRow p e) ↔ p ≠ 0 ∧ sign p ≠ sign (p + e.delta) := by
  change trueAction p (p + e.delta) = _ ∨ trueAction p (p + e.delta) = _ ↔ _
  rw [trueAction]
  split
  · simp [*]
  rename_i hp
  split
  · simp [*]
  split
  · simp [*, Ne.symm]
  · rename_i hsign
    rw [not_not] at hsign
    split <;> simp [hsign]

theorem cycles_cons_cons (p q : ℚ) (l : List ℚ) :
    cycles (p :: q :: l) =
      if p ≠ 0 ∧ sign p ≠ sign q then sign p :: cycles (q :: l) else cycles (q :: l) := by
  simp only [cycles, List.map_cons, List.destutter_cons']
  by_cases hsign : sign p = sign q
  · rw [List.destutter'_cons_neg _ (not_not.2 hsign), if_neg fun h => h.2 hsign, hsign]
  · rw [List.destutter'_cons_pos _ hsign, List.filter_cons]
    by_cases hp : p = 0 <;> simp [hp, hsign]

/-- A cycle is over, or it is the last one and there is exposure. -/
theorem length_cycles (p : ℚ) (l : List Execution) :
    (cycles (exposures p l)).length =
      (symbolRows p l).countP (Ends ·) + if p + netDelta l ≠ 0 then 1 else 0 := by
  induction l generalizing p with
  | nil =>
    by_cases hp : p = 0 <;> simp [cycles, exposures, symbolRows, hp]
  | cons e l ih =>
    obtain ⟨t, ht⟩ : ∃ t, exposures (p + e.delta) l = (p + e.delta) :: t := by
      cases l with
      | nil => exact ⟨_, rfl⟩
      | cons e' l => exact ⟨_, rfl⟩
    have ih := ih (p + e.delta)
    rw [ht] at ih
    rw [exposures, ht, cycles_cons_cons, symbolRows, List.countP_cons, netDelta_cons, ← add_assoc]
    by_cases h : p ≠ 0 ∧ sign p ≠ sign (p + e.delta)
    · rw [if_pos h, List.length_cons, ih]
      simp [(ends_trueRow p e).2 h]
      omega
    · rw [if_neg h, ih]
      simp [mt (ends_trueRow p e).1 h]

theorem getLast?_exposures (p : ℚ) (l : List Execution) :
    (exposures p l).getLast? = some (p + netDelta l) := by
  induction l generalizing p with
  | nil => simp [exposures]
  | cons e l ih =>
    rw [exposures, List.getLast?_cons, ih, netDelta_cons, add_assoc]
    rfl

/-- The cycles that are over are those that a fill ended. -/
theorem completedCycles_eq (p : ℚ) (l : List Execution) :
    completedCycles (exposures p l) = (symbolRows p l).countP (Ends ·) := by
  rw [completedCycles, length_cycles, getLast?_exposures]
  by_cases h : p + netDelta l = 0 <;> simp [h]

/-- What is counted, symbol by symbol. -/
theorem countP_eq_sum {α γ : Type} [DecidableEq γ] (part : α → γ) (q : α → Bool) (l : List α)
    (parts : Finset γ) (h : ∀ a ∈ l, part a ∈ parts) :
    l.countP q = ∑ c ∈ parts, (l.filter (part · = c)).countP q := by
  induction l with
  | nil => simp
  | cons a l ih =>
    rw [List.forall_mem_cons] at h
    have hsplit : ∀ c, ((a :: l).filter (part · = c)).countP q =
        (l.filter (part · = c)).countP q + if part a = c then (if q a then 1 else 0) else 0 := by
      intro c
      rw [List.filter_cons]
      by_cases hc : part a = c <;> simp [hc, List.countP_cons]
    simp only [hsplit]
    rw [Finset.sum_add_distrib, Finset.sum_ite_eq, if_pos h.1, ← ih h.2, List.countP_cons]

/-! ## Reconstruction -/

namespace History

variable {h : History} {executions : List Execution} {positions : Positions}

/-- The fills of a symbol are sorted as they happened. -/
theorem sortBy_fillsOf (h : History) (hperm : executions.Perm h.fills) (s : String) :
    sortBy executionSortKey (executions.filter (·.symbol = s)) = h.fillsOf s := by
  refine sortBy_eq_of_perm (hperm.filter _) ?_
  have hpair := h.ordered.filter (fun e => decide (e.symbol = s))
  refine hpair.imp_of_mem fun ha hb hab => hab ?_
  rw [of_decide_eq_true (List.mem_filter.1 ha).2, of_decide_eq_true (List.mem_filter.1 hb).2]

theorem filter_rows (h : History) (s : String) :
    h.rows.filter (·.symbol = s) = symbolRows (h.opening s) (h.fillsOf s) :=
  filter_trueRows ..

/-- Symbol by symbol, the reconciliation gives back the history. -/
theorem filter_reconcile (h : History) (hperm : executions.Perm h.fills)
    (hfinal : ∀ s, positions.at s = h.final s) (s : String) :
    (reconcileExecutions executions positions).filter (·.symbol = s) =
      h.rows.filter (·.symbol = s) := by
  rw [filter_reconcileExecutions, h.sortBy_fillsOf hperm, hfinal, final, h.filter_rows]
  refine reconcileSymbol_symbolRows _ _ fun row hrow => h.closed row ?_
  rw [← h.filter_rows] at hrow
  exact (List.mem_filter.1 hrow).1

theorem symbol_mem_of_mem_rows {row : LedgerRow} (hrow : row ∈ h.rows) :
    row.symbol ∈ h.fills.map (·.symbol) := by
  have hmem : row ∈ h.rows.filter (·.symbol = row.symbol) := List.mem_filter.2 ⟨hrow, by simp⟩
  rw [h.filter_rows] at hmem
  by_contra hne
  have hnil : h.fillsOf row.symbol = [] := List.filter_eq_nil_iff.2 fun e he hs =>
    hne (List.mem_map.2 ⟨e, he, of_decide_eq_true hs⟩)
  rw [hnil] at hmem
  cases hmem

/-- The fills that end a cycle are as many as the cycles that are over. -/
theorem countP_rows (h : History) : h.rows.countP (Ends ·) = h.completed := by
  rw [countP_eq_sum (fun row : LedgerRow => row.symbol) _ _ (h.fills.map (·.symbol)).toFinset
    fun row hrow => List.mem_toFinset.2 (symbol_mem_of_mem_rows hrow), completed]
  refine Finset.sum_congr rfl fun s _ => ?_
  rw [h.filter_rows, completedCycles_eq]

end History

theorem completedTrades_eq (rows : List LedgerRow) (positions : Positions) :
    (summarizeRows rows positions).completedTrades = rows.countP (Ends ·) := by
  change (rows.map (·.action)).count .fullExit + (rows.map (·.action)).count .reversal = _
  induction rows with
  | nil => rfl
  | cons row l ih =>
    rw [List.map_cons, List.count_cons, List.count_cons, List.countP_cons, ← ih]
    by_cases hends : Ends row
    · rw [if_pos (decide_eq_true hends)]
      rcases hends with h | h <;> simp [h] <;> omega
    · obtain ⟨hexit, hreversal⟩ := not_or.1 hends
      simp [hends, hexit, hreversal]

/-- From the fills of a history in any order, and from the positions in the end, the
    reconciliation gives back every fill as it happened, and as many completed trades as there
    are cycles that are over. -/
theorem reconcileExecutions_history (h : History) {executions : List Execution}
    (hperm : executions.Perm h.fills) {positions : Positions}
    (hfinal : ∀ s, positions.at s = h.final s) :
    (reconcileExecutions executions positions).Perm h.rows ∧
      SortedBy (fun row : LedgerRow => executionSortKey row.toExecution)
        (reconcileExecutions executions positions) ∧
      ∀ shown, (summarizeRows (reconcileExecutions executions positions) shown).completedTrades =
        h.completed := by
  have hrows : (reconcileExecutions executions positions).Perm h.rows :=
    perm_of_filter_eq (h.filter_reconcile hperm hfinal)
  refine ⟨hrows, sortedBy_reconcileExecutions _ _, fun shown => ?_⟩
  rw [completedTrades_eq, hrows.countP_eq, h.countP_rows]

/-- A fill of one contract, or of more. -/
def plainFill (execId symbol : String) (side : Side) (execTime : ℤ) (contracts : ℕ) : Execution where
  execId := execId
  execTime := execTime
  sequenceNo := none
  symbol := symbol
  orderId := none
  side := side
  execQty := contracts + 1
  execFee := 0
  feeCurrency := "USDT"
  leavesQty := 0
  apiClosedSize := none
  execQty_pos := by positivity

/-- A contract is bought and two of them are sold, while another symbol is sold. -/
def reversedHistory : History where
  opening _ := 0
  fills := [plainFill "a" "BTCUSDT" .buy 1 0, plainFill "b" "ETHUSDT" .sell 2 0,
    plainFill "c" "BTCUSDT" .sell 3 1]
  ordered := by decide +kernel
  closed := by decide +kernel

/-- The positions that it leads to. -/
def reversedPositions : Positions := (OrdMap.empty.set "BTCUSDT" (-1)).set "ETHUSDT" (-1)

theorem reconcileExecutions_history_reversed :
    (reconcileExecutions reversedHistory.fills.reverse reversedPositions).Perm
        reversedHistory.rows ∧
      ((reconcileExecutions reversedHistory.fills.reverse reversedPositions).map (·.action)) =
        [.entry, .entry, .reversal] := by
  have hfinal : ∀ s, reversedPositions.at s = reversedHistory.final s := by
    intro s
    by_cases hb : s = "BTCUSDT"
    · rw [hb]
      decide +kernel
    by_cases he : s = "ETHUSDT"
    · rw [he]
      decide +kernel
    have hfills : reversedHistory.fillsOf s = [] := by
      simp [History.fillsOf, reversedHistory, plainFill, Ne.symm hb, Ne.symm he]
    have hget : reversedPositions.get? s = none := by
      rw [reversedPositions, OrdMap.get?_set_of_ne _ _ he, OrdMap.get?_set_of_ne _ _ hb]
      rfl
    rw [History.final, hfills, Positions.at, hget, netDelta_nil, add_zero]
    rfl
  exact ⟨(reconcileExecutions_history reversedHistory (List.reverse_perm _) hfinal).1,
    by decide +kernel⟩

end IntradayBot.Ledger
