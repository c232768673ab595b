import Mathlib.Tactic.Linarith
import Mathlib.Algebra.BigOperators.Group.List.Basic
import IntradayBot.Ledger.Executions

/-!
# What is reconciled

The rows of a reconciliation, symbol by symbol: those of a symbol are its executions in
their order, walked from the position of the symbol (`filter_reconcileExecutions`), and the
whole is sorted (`sortedBy_reconcileExecutions`).
-/

namespace IntradayBot

namespace OrdMap

variable {κ ν α : Type} [DecidableEq κ]

/-- What is listed for the keys of a map, where what is listed for a key belongs to it. -/
theorem filter_flatMap_entries (m : OrdMap κ ν) (f : κ × ν → List α) (g : α → κ)
    (h : ∀ p ∈ m.entries, ∀ a ∈ f p, g a = p.1) (k : κ) :
    (m.entries.flatMap f).filter (g · = k) = ((m.get? k).map fun v => f (k, v)).getD [] := by
  obtain ⟨l, hl⟩ := m
  change _ = ((find k l).map fun v => f (k, v)).getD []
  change ∀ p ∈ l, _ at h
  dsimp only
  induction l with
  | nil => rfl
  | cons e l ih =>
    obtain ⟨k', v⟩ := e
    rw [List.forall_mem_cons] at h
    rw [List.map_cons, List.nodup_cons] at hl
    rw [List.flatMap_cons, List.filter_append, ih hl.2 h.2, find]
    split
    · rename_i hk
      subst hk
      -- the key does not come again
      have hnone : find k' l = none := by
        by_contra hne
        obtain ⟨v', hv'⟩ := Option.ne_none_iff_exists'.1 hne
        have hmem : (k', v') ∈ l := (mem_entries (m := ⟨l, hl.2⟩)).2 hv'
        exact hl.1 (List.mem_map.2 ⟨_, hmem, rfl⟩)
      rw [hnone, List.filter_eq_self.2 fun a ha => by simpa using h.1 a ha]
      simp
    · rename_i hk
      rw [List.filter_eq_nil_iff.2 fun a ha => by simpa [h.1 a ha] using hk]
      rfl

end OrdMap

namespace Ledger

variable {executions : List Execution} {positions : Positions} {p : ℚ} {s : String}

@[simp] theorem reconcileExecution_toExecution (e : Execution) (after : ℚ) :
    (reconcileExecution e after).toExecution = e := rfl

@[simp] theorem reconcileExecution_positionBefore (e : Execution) (after : ℚ) :
    (reconcileExecution e after).positionBefore = after - e.delta := rfl

theorem reconcileSymbol_cons (p : ℚ) (e : Execution) (l : List Execution) :
    reconcileSymbol p (e :: l) =
      ((reconcileExecution e (reconcileSymbol p l).1).positionBefore,
        reconcileExecution e (reconcileSymbol p l).1 :: (reconcileSymbol p l).2) := rfl

/-- The executions are walked one part after the other. -/
theorem reconcileSymbol_append (p : ℚ) (l m : List Execution) :
    reconcileSymbol p (l ++ m) = ((reconcileSymbol (reconcileSymbol p m).1 l).1,
      (reconcileSymbol (reconcileSymbol p m).1 l).2 ++ (reconcileSymbol p m).2) := by
  induction l with
  | nil => rfl
  | cons e l ih =>
    rw [List.cons_append, reconcileSymbol_cons, ih, reconcileSymbol_cons]
    rfl

/-- Every execution has its row. -/
theorem toExecution_reconcileSymbol (p : ℚ) (l : List Execution) :
    (reconcileSymbol p l).2.map LedgerRow.toExecution = l := by
  induction l with
  | nil => rfl
  | cons e l ih => rw [reconcileSymbol_cons, List.map_cons, ih, reconcileExecution_toExecution]

/-- What executions add to the position of their symbol. -/
def netDelta (l : List Execution) : ℚ := (l.map Execution.delta).sum

@[simp] theorem netDelta_nil : netDelta [] = 0 := rfl

@[simp] theorem netDelta_cons (e : Execution) (l : List Execution) :
    netDelta (e :: l) = e.delta + netDelta l := by
  simp [netDelta]

theorem netDelta_perm {l m : List Execution} (h : l.Perm m) : netDelta l = netDelta m :=
  (h.map _).sum_eq

/-- The position before the executions. -/
theorem reconcileSymbol_fst (p : ℚ) (l : List Execution) :
    (reconcileSymbol p l).1 = p - netDelta l := by
  induction l with
  | nil => simp [reconcileSymbol]
  | cons e l ih =>
    rw [reconcileSymbol_cons, reconcileExecution_positionBefore, ih, netDelta_cons]
    change p - netDelta l - e.delta = _
    rw [sub_sub, add_comm]

theorem head?_reconcileSymbol (p : ℚ) (l : List Execution) :
    (reconcileSymbol p l).2.head?.map (·.positionBefore) =
      if l = [] then none else some (reconcileSymbol p l).1 := by
  cases l <;> rfl

theorem get?_groupBySymbol (executions : List Execution) (s : String) :
    (groupBySymbol executions).get? s =
      if executions.filter (·.symbol = s) = [] then none
      else some (executions.filter (·.symbol = s)) := by
  induction executions using List.reverseRecOn with
  | nil => rfl
  | append_singleton l e ih =>
    have hstep : groupBySymbol (l ++ [e]) = (groupBySymbol l).set e.symbol
        (((groupBySymbol l).get? e.symbol).getD [] ++ [e]) := by
      rw [groupBySymbol, List.foldl_append]
      rfl
    rw [hstep, OrdMap.get?_set, List.filter_append]
    split
    · rename_i hs
      subst hs
      rw [ih]
      split <;> simp_all
    · rename_i hs
      rw [ih]
      simp [Ne.symm hs]

/-- The rows of a symbol are its executions in their order. -/
theorem filter_reconcileExecutions (executions : List Execution) (positions : Positions)
    (s : String) : (reconcileExecutions executions positions).filter (·.symbol = s) =
      (reconcileSymbol (positions.at s)
        (sortBy executionSortKey (executions.filter (·.symbol = s)))).2 := by
  have hgroup : ∀ group ∈ (groupBySymbol executions).entries, ∀ row ∈
      (reconcileSymbol (positions.at group.1) (sortBy executionSortKey group.2)).2,
      row.symbol = group.1 := by
    intro group hg row hrow
    have hget := OrdMap.mem_entries.1 hg
    rw [get?_groupBySymbol] at hget
    split at hget
    · cases hget
    have hmem : row.toExecution ∈ group.2 := by
      have hsorted : row.toExecution ∈ sortBy executionSortKey group.2 := by
        rw [← toExecution_reconcileSymbol (positions.at group.1) (sortBy executionSortKey group.2)]
        exact List.mem_map_of_mem hrow
      exact mem_sortBy.1 hsorted
    rw [← Option.some.inj hget] at hmem
    exact of_decide_eq_true (List.mem_filter.1 hmem).2
  rw [reconcileExecutions, filter_sortBy,
    OrdMap.filter_flatMap_entries _ _ (fun row : LedgerRow => row.symbol) hgroup,
    get?_groupBySymbol]
  -- the rows of one symbol are sorted already
  have hsorted : SortedBy (fun row : LedgerRow => executionSortKey row.toExecution)
      (reconcileSymbol (positions.at s)
        (sortBy executionSortKey (executions.filter (·.symbol = s)))).2 := by
    have h := sortedBy_sortBy executionSortKey (executions.filter (·.symbol = s))
    rw [← toExecution_reconcileSymbol (positions.at s)
      (sortBy executionSortKey (executions.filter (·.symbol = s)))] at h
    exact (List.pairwise_map (R := fun a b => executionSortKey a ≤ executionSortKey b)).1 h
  split
  · rename_i hnil
    rw [hnil]
    rfl
  · exact sortBy_of_sorted hsorted

theorem sortedBy_reconcileExecutions (executions : List Execution) (positions : Positions) :
    SortedBy (fun row : LedgerRow => executionSortKey row.toExecution)
      (reconcileExecutions executions positions) :=
  sortedBy_sortBy _ _

end Ledger

end IntradayBot
