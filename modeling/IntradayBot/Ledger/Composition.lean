import IntradayBot.Ledger.History

/-!
# The ledger, day by day

A day is reconciled with the positions in its end: those that the exchange shows, or those
before the next day, as that day's fills tell (`openingPositionSnapshot`). Its rows do
not depend on which of these it is, nor on what is executed afterwards: the days
reconciled one by one are the whole reconciled at once
(`reconcileExecutions_composes`).
-/

namespace IntradayBot.Ledger

variable {prev cur executions : List Execution} {positions positions' : Positions}

/-- All of the first executions are ordered before all of the others. -/
def Before (l m : List Execution) : Prop :=
  ∀ a ∈ l, ∀ b ∈ m, executionSortKey a ≤ executionSortKey b

/-- An id is that of an execution, hence of one symbol. -/
def Identified (l : List Execution) : Prop :=
  ∀ a ∈ l, ∀ b ∈ l, a.execId = b.execId → a.symbol = b.symbol

/-- The executions lead from some positions to others. -/
def Leads (positions : Positions) (l : List Execution) (positions' : Positions) : Prop :=
  ∀ s, positions'.at s = positions.at s + netDelta (l.filter (·.symbol = s))

/-! ## Opening positions -/

theorem at_set (positions : Positions) (s s' : String) (p : ℚ) :
    Positions.at (positions.set s p) s' = if s' = s then p else positions.at s' := by
  rw [Positions.at, OrdMap.get?_set]
  split <;> rfl

theorem at_filterValues (positions : Positions) (s : String) :
    Positions.at (positions.filterValues fun value => value ≠ 0) s = positions.at s := by
  rw [Positions.at, Positions.at, OrdMap.get?_filterValues]
  rcases positions.get? s with _ | p
  · rfl
  · by_cases hp : p = 0 <;> simp [Option.filter, hp]

/-- The position of a symbol is the one before its first row. -/
theorem at_openings (rows : List LedgerRow) (opening : Positions) (seen : List String) (s : String) :
    (rows.foldl (fun (acc : Positions × List String) row =>
        if row.symbol ∈ acc.2 then acc
        else (acc.1.set row.symbol row.positionBefore, row.symbol :: acc.2))
      (opening, seen)).1.at s =
      if s ∈ seen then opening.at s
      else ((rows.filter (·.symbol = s)).head?.map (·.positionBefore)).getD (opening.at s) := by
  induction rows generalizing opening seen with
  | nil => simp
  | cons row rows ih =>
    rw [List.foldl_cons, List.filter_cons]
    by_cases hseen : row.symbol ∈ seen
    · rw [if_pos hseen, ih]
      split
      · rfl
      · rename_i hs
        have hne : row.symbol ≠ s := fun h => hs (h ▸ hseen)
        simp [hne]
    · rw [if_neg hseen, ih, at_set]
      by_cases hs : row.symbol = s
      · subst hs
        simp [hseen]
      · simp [hs, Ne.symm hs]

/-- The positions before the executions. -/
theorem at_openingPositionSnapshot (executions : List Execution) (positions : Positions)
    (s : String) : (openingPositionSnapshot executions positions).at s =
      positions.at s - netDelta (executions.filter (·.symbol = s)) := by
  have hnet := netDelta_perm (sortBy_perm executionSortKey (executions.filter (·.symbol = s)))
  rw [openingPositionSnapshot]
  dsimp only
  rw [at_filterValues, at_openings, filter_reconcileExecutions, head?_reconcileSymbol,
    reconcileSymbol_fst, hnet, if_neg (by simp)]
  split
  · rename_i hnil
    rw [hnil] at hnet
    rw [← hnet]
    simp
  · rfl

/-! ## Parts -/

/-- A reconciliation only looks positions up. -/
theorem reconcileExecutions_congr (h : ∀ s, positions.at s = positions'.at s) :
    reconcileExecutions executions positions = reconcileExecutions executions positions' := by
  rw [reconcileExecutions, reconcileExecutions]
  simp only [h]

theorem toExecution_mem {row : LedgerRow} (h : row ∈ reconcileExecutions executions positions) :
    row.toExecution ∈ executions := by
  have hmem : row ∈ (reconcileExecutions executions positions).filter (·.symbol = row.symbol) :=
    List.mem_filter.2 ⟨h, by simp⟩
  rw [filter_reconcileExecutions] at hmem
  have hexec := List.mem_map_of_mem (f := LedgerRow.toExecution) hmem
  rw [toExecution_reconcileSymbol, mem_sortBy] at hexec
  exact (List.mem_filter.1 hexec).1

theorem execId_eq_of_sortKey {a b : Execution} (h : executionSortKey a = executionSortKey b) :
    a.execId = b.execId := by
  simp only [executionSortKey, toLex_inj, Prod.mk.injEq] at h
  exact h.2.2.2.2

/-- Two parts are reconciled apart, the first one with the positions before the second one. -/
theorem reconcileExecutions_append (hids : Identified (prev ++ cur)) (hbefore : Before prev cur)
    (positions : Positions) :
    reconcileExecutions (prev ++ cur) positions =
      reconcileExecutions prev (openingPositionSnapshot cur positions) ++
        reconcileExecutions cur positions := by
  refine eq_of_filter_eq (fun row : LedgerRow => row.symbol)
    (sortedBy_reconcileExecutions _ _) ?_ (fun a ha b hb hkey => ?_) fun s => ?_
  · refine List.pairwise_append.2 ⟨sortedBy_reconcileExecutions _ _,
      sortedBy_reconcileExecutions _ _, fun a ha b hb => ?_⟩
    exact hbefore _ (toExecution_mem ha) _ (toExecution_mem hb)
  · refine hids _ (toExecution_mem ha) _ ?_ (execId_eq_of_sortKey hkey)
    rcases List.mem_append.1 hb with hb | hb
    · exact List.mem_append_left _ (toExecution_mem hb)
    · exact List.mem_append_right _ (toExecution_mem hb)
  · -- the walk over the second part ends where the one over the first part starts
    have hsort : sortBy executionSortKey ((prev ++ cur).filter (·.symbol = s)) =
        sortBy executionSortKey (prev.filter (·.symbol = s)) ++
          sortBy executionSortKey (cur.filter (·.symbol = s)) := by
      rw [List.filter_append]
      exact sortBy_append fun a ha b hb =>
        hbefore a (List.mem_filter.1 ha).1 b (List.mem_filter.1 hb).1
    have hopening : (reconcileSymbol (positions.at s)
        (sortBy executionSortKey (cur.filter (·.symbol = s)))).1 =
          (openingPositionSnapshot cur positions).at s := by
      rw [reconcileSymbol_fst, at_openingPositionSnapshot, netDelta_perm (sortBy_perm _ _)]
    rw [List.filter_append, filter_reconcileExecutions, filter_reconcileExecutions,
      filter_reconcileExecutions, hsort, reconcileSymbol_append, hopening]

/-- What is executed afterwards does not change the rows. -/
theorem reconcileExecutions_append_of_leads (hids : Identified (prev ++ cur))
    (hbefore : Before prev cur) (hleads : Leads positions cur positions') :
    reconcileExecutions (prev ++ cur) positions' =
      reconcileExecutions prev positions ++ reconcileExecutions cur positions' := by
  rw [reconcileExecutions_append hids hbefore]
  congr 1
  refine reconcileExecutions_congr fun s => ?_
  rw [at_openingPositionSnapshot, hleads, add_sub_cancel_right]

/-! ## Days -/

/-- A day that is synchronized: its executions, and the positions in its end. -/
structure Day where
  executions : List Execution
  positions : Positions

/-- `_persist(rows)`: each row under the id of its execution. -/
def persist (ledger : OrdMap String LedgerRow) (rows : List LedgerRow) :
    OrdMap String LedgerRow :=
  rows.foldl (fun ledger row => ledger.set row.execId row) ledger

/-- The ledger after the days are synchronized one after the other. -/
def syncDays (days : List Day) : OrdMap String LedgerRow :=
  days.foldl (fun ledger day =>
    persist ledger (reconcileExecutions day.executions day.positions)) ∅

/-- The executions of the days. -/
def allExecutions (days : List Day) : List Execution := days.flatMap Day.executions

theorem syncDays_eq (days : List Day) :
    syncDays days = persist ∅ (days.flatMap fun day =>
      reconcileExecutions day.executions day.positions) := by
  induction days using List.reverseRecOn with
  | nil => rfl
  | append_singleton days day ih =>
    rw [syncDays, List.foldl_append, List.flatMap_append, persist, List.foldl_append]
    rw [syncDays, persist] at ih
    rw [ih]
    simp [persist]

/-- The rows of the days are those of all their executions, with the positions in the end. -/
theorem flatMap_reconcileExecutions (days : List Day) (last : Day)
    (hids : Identified (allExecutions (days ++ [last])))
    (hbefore : (days ++ [last]).Pairwise fun d d' => Before d.executions d'.executions)
    (hleads : (days ++ [last]).IsChain fun d d' => Leads d.positions d'.executions d'.positions) :
    ((days ++ [last]).flatMap fun day => reconcileExecutions day.executions day.positions) =
      reconcileExecutions (allExecutions (days ++ [last])) last.positions := by
  induction days using List.reverseRecOn generalizing last with
  | nil => simp [allExecutions]
  | append_singleton days day ih =>
    have hall : allExecutions (days ++ [day] ++ [last]) =
        allExecutions (days ++ [day]) ++ last.executions := by
      simp [allExecutions]
    rw [hall] at hids ⊢
    have hlast : Leads day.positions last.executions last.positions := by
      rw [List.append_assoc] at hleads
      exact (List.isChain_append.1 hleads).2.1.rel
    -- All days before the last one end before it starts.
    have hsub : Before (allExecutions (days ++ [day])) last.executions := by
      intro a ha b hb
      obtain ⟨d, hd, ha⟩ := List.mem_flatMap.1 ha
      exact (List.pairwise_append.1 hbefore).2.2 d hd last (by simp) a ha b hb
    rw [List.flatMap_append, ih day (fun a ha b hb => hids a (List.mem_append_left _ ha) b
        (List.mem_append_left _ hb)) (List.pairwise_append.1 hbefore).1
        (List.isChain_append.1 hleads).1,
      reconcileExecutions_append_of_leads hids hsub hlast]
    simp

/-- Executions that come later are reconciled apart: from the positions before them, which their
    fills tell, or from the positions that were shown before they came. The days synchronized
    one by one leave the ledger that all of them at once leave. -/
theorem reconcileExecutions_composes :
    (∀ prev cur positions, Identified (prev ++ cur) → Before prev cur →
      reconcileExecutions (prev ++ cur) positions =
        reconcileExecutions prev (openingPositionSnapshot cur positions) ++
          reconcileExecutions cur positions) ∧
    (∀ executions later positions positions', Identified (executions ++ later) →
      Before executions later → Leads positions later positions' →
      reconcileExecutions (executions ++ later) positions' =
        reconcileExecutions executions positions ++ reconcileExecutions later positions') ∧
    ∀ days last, Identified (allExecutions (days ++ [last])) →
      (days ++ [last]).Pairwise (fun d d' => Before d.executions d'.executions) →
      (days ++ [last]).IsChain (fun d d' => Leads d.positions d'.executions d'.positions) →
      syncDays (days ++ [last]) =
        persist ∅ (reconcileExecutions (allExecutions (days ++ [last])) last.positions) := by
  refine ⟨fun prev cur positions hids hbefore => reconcileExecutions_append hids hbefore positions,
    fun _ _ _ _ hids hbefore hleads => reconcileExecutions_append_of_leads hids hbefore hleads,
    fun days last hids hbefore hleads => ?_⟩
  rw [syncDays_eq, flatMap_reconcileExecutions days last hids hbefore hleads]

/-- A contract is bought on the first day and two are sold on the second one. -/
def boughtDay : Day := ⟨[plainFill "a" "BTCUSDT" .buy 1 0], OrdMap.empty.set "BTCUSDT" 1⟩

def soldDay : Day := ⟨[plainFill "b" "BTCUSDT" .sell 2 1], OrdMap.empty.set "BTCUSDT" (-1)⟩

theorem reconcileExecutions_composes_sold :
    syncDays [boughtDay, soldDay] = persist ∅ (reconcileExecutions
      (allExecutions [boughtDay, soldDay]) soldDay.positions) := by
  have hleads : Leads boughtDay.positions soldDay.executions soldDay.positions := by
    intro s
    by_cases hs : s = "BTCUSDT"
    · rw [hs]
      decide +kernel
    · have hget : ∀ p, Positions.at (OrdMap.empty.set "BTCUSDT" p) s = 0 := fun p => by
        rw [at_set, if_neg hs]
        rfl
      have hnone : soldDay.executions.filter (·.symbol = s) = [] := by
        simp [soldDay, plainFill, Ne.symm hs]
      rw [soldDay, boughtDay, hget, hget, zero_add]
      exact (congrArg netDelta hnone).symm
  have hbefore : Before boughtDay.executions soldDay.executions := by
    unfold Before
    decide +kernel
  refine reconcileExecutions_composes.2.2 [boughtDay] soldDay ?_ (by simpa using hbefore)
    (by simpa using hleads)
  unfold Identified
  decide +kernel

end IntradayBot.Ledger
